import RosRtems.Serialization.Cdr
import Mathlib.Data.List.TakeWhile

/-!
# The CDR format

What stands on the wire for each kind of data, said without a stream: a number at the next
multiple of its size, a string and a sequence behind its count.  The calls of a stream write
that and read it, since the alignment that a stream leaves out is never needed.
-/

namespace RosRtems.Serialization

open RosRtems.Alignment
open RosRtems.ByteOrder
open RosRtems.WireLayout
open RosRtems.WireLayout.Layout

/-! ## The format -/

namespace Cdr

/-- Data of elements of `size` bytes. -/
def aligned (size : ℕ) (bytes : List UInt8) : Layout UInt8 := gap size ++ symbols bytes

variable (order : Endianness)

def scalar (size value : ℕ) : Layout UInt8 := aligned size (order.bytes size value)

def string (s : List UInt8) : Layout UInt8 :=
  scalar order 4 ((cString s).length + 1) ++ symbols (cString s ++ [0])

def wideString (s : List WChar) : Layout UInt8 :=
  scalar order 4 (wideCString s).length ++
    each (fun c => scalar order 4 c.toNat) (wideCString s)

def sequence {α : Type} (item : α → Layout UInt8) (values : List α) : Layout UInt8 :=
  scalar order 4 values.length ++ each item values

/-- The encapsulation, which says the byte order. -/
def header : Layout UInt8 :=
  symbols [0] ++ (symbols [encapsulationKind order] ++ scalar order 2 0)

end Cdr

/-! ## Settled streams -/

/-- The last data stand at a multiple of their size, and their size is one of a power
of two. -/
structure Cdr.Settled (cdr : Cdr) : Prop where
  begun : cdr.alignPosition ≤ cdr.position
  power : cdr.lastDataSize = 0 ∨ cdr.lastDataSize.isPowerOfTwo
  aligned : cdr.lastDataSize ∣ cdr.offset

namespace Cdr

variable {cdr : Cdr} {dataSize : ℕ}

theorem settled_begin (buffer : List UInt8) : (begin buffer).Settled where
  begun := Nat.le_refl 0
  power := .inl rfl
  aligned := Nat.dvd_refl 0

theorem dvd_of_power_le {size other : ℕ} (hsize : size.isPowerOfTwo) (hother : other.isPowerOfTwo)
    (hle : size ≤ other) : size ∣ other := by
  obtain ⟨k, rfl⟩ := hsize
  obtain ⟨m, rfl⟩ := hother
  exact Nat.pow_dvd_pow 2 ((Nat.pow_le_pow_iff_right Nat.one_lt_two).mp hle)

/-- The alignment that a stream leaves out is none. -/
theorem alignment_eq (hsettled : cdr.Settled) (hsize : dataSize.isPowerOfTwo) :
    cdr.alignment dataSize = padding dataSize cdr.offset := by
  unfold alignment
  split
  case isTrue hlarger => rfl
  case isFalse hle =>
    have hpositive := Nat.pos_of_isPowerOfTwo hsize
    have hlast : cdr.lastDataSize.isPowerOfTwo := by
      refine hsettled.power.resolve_left fun hzero => ?_
      omega
    have hdvd := dvd_of_power_le hsize hlast (Nat.le_of_not_lt hle)
    rw [padding_of_dvd hsize (hdvd.trans hsettled.aligned)]

/-- The stream that has gone `size` bytes on. -/
structure Advanced (cdr : Cdr) (dataSize size : ℕ) (next : Cdr) : Prop where
  position : next.position = cdr.position + size
  alignPosition : next.alignPosition = cdr.alignPosition
  lastDataSize : next.lastDataSize = dataSize

theorem Advanced.offset {next : Cdr} {size : ℕ} (hnext : cdr.Advanced dataSize size next)
    (hbegun : cdr.alignPosition ≤ cdr.position) : next.offset = cdr.offset + size := by
  rw [Cdr.offset, hnext.position, hnext.alignPosition, Cdr.offset]
  omega

theorem Advanced.settled {next : Cdr} {size : ℕ} (hnext : cdr.Advanced dataSize size next)
    (hsettled : cdr.Settled) (hsize : dataSize.isPowerOfTwo)
    (haligned : dataSize ∣ cdr.offset + size) : next.Settled where
  begun := by
    rw [hnext.position, hnext.alignPosition]
    exact hsettled.begun.trans (Nat.le_add_right _ _)
  power := by
    rw [hnext.lastDataSize]
    exact .inr hsize
  aligned := by rwa [hnext.lastDataSize, hnext.offset hsettled.begun]

theorem advanced_put (cdr : Cdr) (dataSize : ℕ) (bytes : List UInt8) :
    cdr.Advanced dataSize bytes.length ({ cdr with lastDataSize := dataSize }.put bytes) where
  position := List.length_append
  alignPosition := rfl
  lastDataSize := rfl

theorem advanced_makeAlign (dataSize : ℕ) {size : ℕ} (hroom : size ≤ cdr.room) :
    cdr.Advanced dataSize size ({ cdr with lastDataSize := dataSize }.makeAlign size) where
  position := by
    change (cdr.before ++ cdr.after.take size).length = _
    rw [List.length_append, List.length_take_of_le hroom]
    rfl
  alignPosition := rfl
  lastDataSize := rfl

theorem advanced_align_put (dataSize : ℕ) {align : ℕ} (bytes : List UInt8)
    (hroom : align ≤ cdr.room) :
    cdr.Advanced dataSize (align + bytes.length)
      (({ cdr with lastDataSize := dataSize }.makeAlign align).put bytes) where
  position := by
    change (cdr.before ++ cdr.after.take align ++ bytes).length = _
    rw [List.length_append, List.length_append, List.length_take_of_le hroom, Nat.add_assoc]
    rfl
  alignPosition := rfl
  lastDataSize := rfl

end Cdr

/-- Streams that are written to. -/
def sending : Sink Cdr UInt8 where
  sound := Cdr.Settled
  offset := Cdr.offset
  room := Cdr.room
  written := Cdr.before

/-- Streams that are read from. -/
def receiving : Source Cdr UInt8 where
  sound := Cdr.Settled
  offset := Cdr.offset
  remaining := Cdr.after

/-! ## What is written -/

theorem writes_bytes (bytes : List UInt8) :
    Writes sending (serializeBytes 1 bytes) (symbols bytes) where
  fits cdr hsettled hroom := by
    rw [symbols, List.length_map] at hroom
    have hnext := Cdr.advanced_put cdr 1 bytes
    refine ⟨_, if_pos hroom, ?_⟩
    exact
      { sound := hnext.settled hsettled Nat.isPowerOfTwo_one (Nat.one_dvd _)
        offset := by rw [symbols, List.length_map]; exact hnext.offset hsettled.begun
        room := by
          rw [symbols, List.length_map]
          change cdr.after.length = (cdr.after.drop bytes.length).length + _
          rw [List.length_drop]
          change bytes.length ≤ cdr.after.length at hroom
          omega
        written := ⟨bytes, carries_symbols bytes, rfl⟩ }
  overflows cdr _ hroom := by
    rw [symbols, List.length_map] at hroom
    exact ⟨_, if_neg (Nat.not_le_of_lt hroom)⟩

theorem length_aligned (dataSize : ℕ) (bytes : List UInt8) (offset : ℕ) :
    (Cdr.aligned dataSize bytes offset).length = padding dataSize offset + bytes.length := by
  rw [Cdr.aligned, append_apply, List.length_append, gap, List.length_replicate, symbols,
    List.length_map]

theorem writes_aligned {dataSize : ℕ} {bytes : List UInt8} (hsize : dataSize.isPowerOfTwo)
    (hbytes : dataSize ∣ bytes.length) :
    Writes sending (serializeAligned dataSize bytes) (Cdr.aligned dataSize bytes) where
  fits cdr hsettled hroom := by
    have halignment := Cdr.alignment_eq hsettled hsize
    change _ ≤ cdr.after.length at hroom
    rw [length_aligned, show sending.offset cdr = cdr.offset from rfl, ← halignment] at hroom
    have hgap : cdr.alignment dataSize ≤ cdr.after.length := by omega
    have hnext := Cdr.advanced_align_put dataSize bytes hgap
    have hfits : bytes.length + cdr.alignment dataSize ≤ cdr.room := by
      rw [Nat.add_comm]
      exact hroom
    refine ⟨_, if_pos hfits, ?_⟩
    exact
      { sound := by
          apply hnext.settled hsettled hsize
          rw [halignment, ← Nat.add_assoc]
          exact Nat.dvd_add (dvd_add_padding hsize) hbytes
        offset := by
          rw [length_aligned, show sending.offset cdr = cdr.offset from rfl, ← halignment]
          exact hnext.offset hsettled.begun
        room := by
          rw [length_aligned, show sending.offset cdr = cdr.offset from rfl, ← halignment]
          change cdr.after.length =
            ((cdr.after.drop (cdr.alignment dataSize)).drop bytes.length).length + _
          rw [List.length_drop, List.length_drop]
          omega
        written := by
          refine ⟨cdr.after.take (cdr.alignment dataSize) ++ bytes, ?_, ?_⟩
          · apply Carries.append
            · exact carries_gap (by rw [List.length_take_of_le hgap, halignment]; rfl)
            · exact carries_symbols bytes
          · exact List.append_assoc _ _ _ }
  overflows cdr hsettled hroom := by
    change cdr.after.length < _ at hroom
    rw [length_aligned, show sending.offset cdr = cdr.offset from rfl,
      ← Cdr.alignment_eq hsettled hsize] at hroom
    refine ⟨.notEnoughMemory, if_neg ?_⟩
    change ¬_ ≤ cdr.after.length
    omega

theorem writes_scalar (host : Endianness) {size : ℕ} (hsize : size.isPowerOfTwo) (value : ℕ) :
    Writes sending (serializeScalar host size value) (Cdr.scalar host size value) :=
  writes_aligned hsize (by rw [Endianness.length_bytes])

theorem isPowerOfTwo_four : Nat.isPowerOfTwo 4 := ⟨2, rfl⟩

/-- Once the first element of an array stands at a multiple of its size, all do. -/
theorem each_scalar_of_dvd (order : Endianness) {size : ℕ} (hsize : size.isPowerOfTwo)
    (values : List ℕ) :
    ∀ {offset : ℕ}, size ∣ offset → each (Cdr.scalar order size) values offset =
      symbols (values.flatMap (order.bytes size)) offset := by
  induction values with
  | nil => exact fun _ => rfl
  | cons value values ih =>
      intro offset hdvd
      have hgap : Cdr.scalar order size value offset = symbols (order.bytes size value) offset := by
        rw [Cdr.scalar, Cdr.aligned, append_apply, gap, stop_gap, padding_of_dvd hsize hdvd]
        rfl
      have hnext : size ∣ (Cdr.scalar order size value).stop offset := by
        rw [stop, hgap, symbols, List.length_map, Endianness.length_bytes]
        exact Nat.dvd_add hdvd (Nat.dvd_refl size)
      rw [each_cons, append_apply, hgap, ih hnext, symbols, symbols, symbols, List.flatMap_cons,
        List.map_append]

theorem aligned_flatMap (order : Endianness) {size : ℕ} (hsize : size.isPowerOfTwo)
    {values : List ℕ} (hvalues : values ≠ []) :
    Cdr.aligned size (values.flatMap (order.bytes size)) =
      each (Cdr.scalar order size) values := by
  cases values with
  | nil => exact absurd rfl hvalues
  | cons value values =>
      funext offset
      have hnext : size ∣ (Cdr.scalar order size value).stop offset := by
        rw [Cdr.scalar, Cdr.aligned, stop_append, stop_gap, stop_symbols, Endianness.length_bytes]
        exact Nat.dvd_add (dvd_add_padding hsize) (Nat.dvd_refl size)
      rw [each_cons, append_apply, each_scalar_of_dvd order hsize values hnext, Cdr.scalar,
        Cdr.aligned, Cdr.aligned, append_apply, append_apply, List.append_assoc, symbols, symbols,
        symbols, List.flatMap_cons, List.map_append]

theorem length_flatMap_bytes (host : Endianness) (size : ℕ) {width : ℕ} (s : List (BitVec width)) :
    (s.flatMap fun c => host.bytes size c.toNat).length = s.length * size := by
  induction s with
  | nil => exact (Nat.zero_mul size).symm
  | cons c s ih =>
      rw [List.flatMap_cons, List.length_append, ih, Endianness.length_bytes, List.length_cons,
        Nat.succ_mul, Nat.add_comm]

theorem writes_arrayScalar (host : Endianness) {size : ℕ} (hsize : size.isPowerOfTwo)
    (values : List (BitVec (8 * size))) :
    Writes sending (serializeArrayScalar host size values)
      (each (fun value => Cdr.scalar host size value.toNat) values) := by
  unfold serializeArrayScalar
  split
  case isTrue hnone =>
    rw [hnone]
    exact writes_pure
  case isFalse hsome =>
    rw [← each_map, ← aligned_flatMap host hsize (by simpa using hsome), List.flatMap_map]
    apply writes_aligned hsize
    rw [length_flatMap_bytes]
    exact Nat.dvd_mul_left size _

theorem writes_arrayChar (cs : List UInt8) :
    Writes sending (serializeArrayChar cs) (each (fun c => symbols [c]) cs) := by
  rw [each_symbols, List.map_id']
  exact writes_bytes cs

theorem writes_arrayBool (bs : List Bool) :
    Writes sending (serializeArrayBool bs) (each (fun b => symbols [boolByte b]) bs) := by
  rw [each_symbols]
  exact writes_bytes _

theorem writes_string (host : Endianness) {s : List UInt8}
    (hlength : (cString s).length + 1 < 2 ^ 32) :
    Writes sending (serializeString host s) (Cdr.string host s) := by
  rw [serializeString, Nat.mod_eq_of_lt hlength, if_pos (Nat.succ_pos _),
    List.take_of_length_le (by rw [List.length_append, List.length_singleton])]
  exact (writes_scalar host isPowerOfTwo_four _).bind (writes_bytes _)

/-- Where data of the same size came last, there is nothing to align. -/
theorem serializeBytes_eq_aligned {cdr : Cdr} {dataSize : ℕ} (bytes : List UInt8)
    (hlast : cdr.lastDataSize = dataSize) :
    serializeBytes dataSize bytes cdr = serializeAligned dataSize bytes cdr := by
  have hnone : cdr.alignment dataSize = 0 := if_neg (by omega)
  simp only [serializeBytes, serializeAligned, hnone, Nat.add_zero, Cdr.makeAlign, Cdr.put,
    List.take_zero, List.append_nil, List.drop_zero]

theorem lastDataSize_serializeScalar {host : Endianness} {size value : ℕ} {cdr next : Cdr}
    (hok : serializeScalar host size value cdr = .ok ((), next)) : next.lastDataSize = size := by
  simp only [serializeScalar, serializeAligned] at hok
  split at hok
  · cases hok
    rfl
  · cases hok

theorem scalar_then_bytes (host : Endianness) (size value : ℕ) (bytes : List UInt8) :
    (do serializeScalar host size value; serializeBytes size bytes) =
      (do serializeScalar host size value; serializeAligned size bytes) := by
  funext cdr
  cases hfirst : serializeScalar host size value cdr with
  | error fault => rw [bind_of_error hfirst, bind_of_error hfirst]
  | ok result =>
      rw [bind_of_ok hfirst, bind_of_ok hfirst]
      exact serializeBytes_eq_aligned bytes (lastDataSize_serializeScalar hfirst)

theorem writes_wString (host : Endianness) {s : List WChar}
    (hlength : (wideCString s).length * 4 < 2 ^ 32) :
    Writes sending (serializeWString host s) (Cdr.wideString host s) := by
  rw [serializeWString, Nat.mod_eq_of_lt hlength, Cdr.wideString,
    Nat.mod_eq_of_lt (a := (wideCString s).length) (by omega),
    List.take_of_length_le (by rw [length_flatMap_bytes])]
  split
  case isTrue hsome =>
    have hchars : wideCString s ≠ [] := by
      rintro hnone
      rw [hnone] at hsome
      exact absurd hsome (by decide)
    rw [scalar_then_bytes, ← each_map (Cdr.scalar host 4),
      ← aligned_flatMap host isPowerOfTwo_four (by simpa using hchars), List.flatMap_map]
    apply (writes_scalar host isPowerOfTwo_four _).bind
    apply writes_aligned isPowerOfTwo_four
    rw [length_flatMap_bytes]
    exact Nat.dvd_mul_left 4 _
  case isFalse hnone =>
    have hchars : wideCString s = [] := List.eq_nil_of_length_eq_zero (by omega)
    rw [hchars, each_nil, append_nothing]
    exact writes_scalar host isPowerOfTwo_four _

theorem writes_vector (host : Endianness) {α : Type} {serializeArray : List α → Stream Unit}
    {item : α → Layout UInt8} {values : List α} (hcount : values.length < 2 ^ 32)
    (harray : Writes sending (serializeArray values) (each item values)) :
    Writes sending (serializeVector host serializeArray values)
      (Cdr.sequence host item values) := by
  rw [serializeVector, Nat.mod_eq_of_lt hcount]
  exact (writes_scalar host isPowerOfTwo_four _).bind harray

theorem isPowerOfTwo_two : Nat.isPowerOfTwo 2 := ⟨1, rfl⟩

theorem writes_header (host : Endianness) :
    Writes sending (serializeHeader host) (Cdr.header host) :=
  (writes_bytes [0]).bind
    ((writes_bytes [encapsulationKind host]).bind (writes_scalar host isPowerOfTwo_two 0))

/-! ## What is read -/

theorem reads_bytes {n : ℕ} (bytes : List.Vector UInt8 n) :
    Reads receiving (deserializeBytes 1 n) (symbols bytes.toList) bytes := by
  intro cdr sent rest hsettled hsent hremaining
  obtain rfl := Carries.eq_of_symbols hsent
  change cdr.after = _ at hremaining
  have hroom : n ≤ cdr.room := by
    rw [Cdr.room, hremaining, List.length_append, bytes.toList_length]
    exact Nat.le_add_right _ _
  have hnext := Cdr.advanced_makeAlign 1 hroom
  refine ⟨{ cdr with lastDataSize := 1 }.makeAlign n, ?_, ?_, ?_, ?_⟩
  · rw [deserializeBytes, dif_pos hroom]
    congr 2
    apply Subtype.ext
    change cdr.after.take n = bytes.toList
    rw [hremaining, List.take_left' bytes.toList_length]
  · exact hnext.settled hsettled Nat.isPowerOfTwo_one (Nat.one_dvd _)
  · rw [bytes.toList_length]
    exact hnext.offset hsettled.begun
  · change cdr.after.drop n = rest
    rw [hremaining, List.drop_left' bytes.toList_length]

theorem reads_aligned {dataSize : ℕ} (bytes : List UInt8) (hsize : dataSize.isPowerOfTwo)
    (hbytes : dataSize ∣ bytes.length) :
    Reads receiving (deserializeAligned dataSize bytes.length) (Cdr.aligned dataSize bytes)
      bytes := by
  intro cdr sent rest hsettled hsent hremaining
  obtain ⟨skipped, data, rfl, hgap, hdata⟩ := hsent.of_append
  obtain rfl := Carries.eq_of_symbols hdata
  have halignment : skipped.length = cdr.alignment dataSize := by
    rw [Cdr.alignment_eq hsettled hsize, ← hgap.length_eq, gap, List.length_replicate]
    rfl
  change cdr.after = _ at hremaining
  rw [List.append_assoc] at hremaining
  have hroom : cdr.alignment dataSize + data.length ≤ cdr.room := by
    rw [Cdr.room, hremaining, List.length_append, List.length_append, halignment]
    omega
  have hnext := Cdr.advanced_makeAlign dataSize hroom
  refine ⟨{ cdr with lastDataSize := dataSize }.makeAlign
    (cdr.alignment dataSize + data.length), ?_, ?_, ?_, ?_⟩
  · rw [deserializeAligned, if_pos (by rwa [Nat.add_comm])]
    congr 2
    rw [hremaining, List.drop_left' halignment, List.take_left]
  · apply hnext.settled hsettled hsize
    rw [← Nat.add_assoc, Cdr.alignment_eq hsettled hsize]
    exact Nat.dvd_add (dvd_add_padding hsize) hbytes
  · rw [List.length_append, halignment]
    exact hnext.offset hsettled.begun
  · change cdr.after.drop (cdr.alignment dataSize + data.length) = rest
    rw [hremaining, ← List.drop_drop, List.drop_left' halignment, List.drop_left]

/-- Whether a reader swaps the bytes of what the sender wrote. -/
def swapped (host sender : Endianness) : Bool := decide (host ≠ sender)

section Swapped

variable (host sender : Endianness)

theorem loaded_bytes {size value : ℕ} (hvalue : value < 2 ^ (8 * size)) :
    loaded host (swapped host sender) size (sender.bytes size value) = BitVec.ofNat _ value := by
  have hbytes : value < 256 ^ size := by rwa [pow_mul] at hvalue
  have hloaded := Endianness.value_swapped host sender hbytes
  rw [loaded, swapped]
  congr 1
  by_cases hsame : sender = host
  · rw [if_pos hsame] at hloaded
    rw [if_neg (by simp [hsame]), hloaded]
  · rw [if_neg hsame] at hloaded
    rw [if_pos (by simpa using Ne.symm hsame), hloaded]

theorem reads_scalar {size : ℕ} (hsize : size.isPowerOfTwo) {value : ℕ}
    (hvalue : value < 2 ^ (8 * size)) :
    Reads receiving (deserializeScalar host (swapped host sender) size)
      (Cdr.scalar sender size value) (BitVec.ofNat _ value) := by
  have hread := reads_aligned (sender.bytes size value) hsize
    (by rw [Endianness.length_bytes])
  rw [Endianness.length_bytes] at hread
  rw [← loaded_bytes host sender hvalue]
  exact hread.map

theorem elements_flatMap (size : ℕ) :
    ∀ {n : ℕ} (values : List.Vector (BitVec (8 * size)) n),
      elements host (swapped host sender) size n
        (values.toList.flatMap fun value => sender.bytes size value.toNat) = values
  | 0, values => (List.Vector.eq_nil values).symm
  | n + 1, values => by
      obtain ⟨value, rest, rfl⟩ := values.exists_eq_cons
      rw [List.Vector.toList_cons, List.flatMap_cons, elements,
        List.take_left' (Endianness.length_bytes ..), List.drop_left' (Endianness.length_bytes ..),
        elements_flatMap size rest, loaded_bytes host sender value.isLt, BitVec.ofNat_toNat,
        BitVec.setWidth_eq]

theorem reads_arrayScalar {size : ℕ} (hsize : size.isPowerOfTwo) {n : ℕ}
    (values : List.Vector (BitVec (8 * size)) n) :
    Reads receiving (deserializeArrayScalar host (swapped host sender) size n)
      (each (fun value => Cdr.scalar sender size value.toNat) values.toList) values := by
  unfold deserializeArrayScalar
  split
  case isTrue hnone =>
    subst hnone
    obtain rfl := List.Vector.eq_nil values
    exact reads_pure _
  case isFalse hsome =>
    have hlist : values.toList ≠ [] := by
      intro hnil
      apply hsome
      rw [← values.toList_length, hnil, List.length_nil]
    have hlength := length_flatMap_bytes sender size values.toList
    rw [values.toList_length, Nat.mul_comm n size] at hlength
    have hread := reads_aligned
      (values.toList.flatMap fun value => sender.bytes size value.toNat) hsize
      (by rw [hlength]; exact Nat.dvd_mul_right size n)
    rw [hlength] at hread
    rw [← each_map (Cdr.scalar sender size),
      ← aligned_flatMap sender hsize (by simpa using hlist), List.flatMap_map]
    have hall := hread.map (f := elements host (swapped host sender) size n)
    rwa [elements_flatMap host sender size values] at hall

end Swapped

theorem reads_char (c : UInt8) : Reads receiving deserializeChar (symbols [c]) c :=
  (reads_bytes (c ::ᵥ .nil)).map

theorem reads_bool (b : Bool) : Reads receiving deserializeBool (symbols [boolByte b]) b := by
  have hvalue : Reads receiving
      (if boolByte b = 1 then pure true else if boolByte b = 0 then pure false
        else throw Fault.badParam : Stream Bool) nothing b := by
    cases b <;> exact reads_pure _
  have hread : Reads receiving deserializeBool (symbols [boolByte b] ++ nothing) b :=
    (reads_bytes (boolByte b ::ᵥ .nil)).bind hvalue
  rwa [append_nothing] at hread

theorem reads_arrayChar {n : ℕ} (cs : List.Vector UInt8 n) :
    Reads receiving (deserializeArrayChar n) (each (fun c => symbols [c]) cs.toList) cs := by
  rw [each_symbols, List.map_id']
  exact reads_bytes cs

theorem boolsAt_map (stale : ℕ → Bool) (position : ℕ) {n : ℕ} (bs : List.Vector Bool n) :
    boolsAt stale position (bs.map boolByte) = bs := by
  apply Subtype.ext
  change ((bs.map boolByte).toList.mapIdx _) = bs.toList
  rw [List.Vector.toList_map]
  apply List.ext_getElem (by rw [List.length_mapIdx, List.length_map])
  intro i _ hi
  rw [List.getElem_mapIdx, List.getElem_map]
  cases bs.toList[i] <;> rfl

theorem reads_arrayBool (stale : ℕ → Bool) {n : ℕ} (bs : List.Vector Bool n) :
    Reads receiving (deserializeArrayBool stale n)
      (each (fun b => symbols [boolByte b]) bs.toList) bs := by
  intro cdr sent rest hsettled hsent hremaining
  rw [each_symbols, ← List.Vector.toList_map] at hsent
  have hread := (reads_bytes (bs.map boolByte)).map (f := boolsAt stale cdr.position)
  rw [boolsAt_map] at hread
  exact hread cdr sent rest hsettled hsent hremaining

section Counted

variable (host sender : Endianness)

theorem toNat_count {count : ℕ} (hcount : count < 2 ^ 32) :
    (BitVec.ofNat (8 * 4) count).toNat = count := by
  rw [BitVec.toNat_ofNat]
  exact Nat.mod_eq_of_lt hcount

theorem reads_boolSequence {bs : List Bool} (hcount : bs.length < 2 ^ 32) :
    Reads receiving (deserializeBoolSequence host (swapped host sender))
      (Cdr.sequence sender (fun b => symbols [boolByte b]) bs) bs := by
  apply (reads_scalar host sender isPowerOfTwo_four hcount).bind
  rw [toNat_count hcount, each_symbols]
  have hvalue : Reads receiving (boolsOf (bs.map boolByte)) nothing bs := by
    have hall : ((bs.map boolByte).all fun byte => byte == 0 || byte == 1) = true := by
      rw [List.all_map, List.all_eq_true]
      exact fun b _ => by cases b <;> rfl
    have hsame : (fun byte : UInt8 => byte == 1) ∘ boolByte = id := by
      funext b
      cases b <;> rfl
    rw [boolsOf, if_pos hall, List.map_map, hsame, List.map_id]
    exact reads_pure bs
  rw [← append_nothing (symbols _)]
  exact (reads_bytes ((ofList bs).map boolByte)).bind hvalue

theorem reads_vector {α β : Type} {deserializeArray : (n : ℕ) → Stream (List.Vector β n)}
    {item : α → Layout UInt8} {got : α → β} {values : List α} (hcount : values.length < 2 ^ 32)
    (hitem : ∀ a offset, 1 ≤ (item a offset).length)
    (harray : Reads receiving (deserializeArray values.length) (each item values)
      ((ofList values).map got)) :
    Reads receiving (deserializeVector host (swapped host sender) deserializeArray)
      (Cdr.sequence sender item values) (values.map got) := by
  apply (reads_scalar host sender isPowerOfTwo_four hcount).bind
  split
  case isTrue hzero =>
    have hnone : values.length = 0 := by rw [← toNat_count hcount, hzero]; rfl
    rw [List.length_eq_zero_iff.mp hnone]
    exact reads_pure _
  case isFalse hsome =>
    rw [toNat_count hcount]
    apply Reads.after_test values.length
    · exact fun cdr hroom => if_pos hroom
    · intro offset
      have hslots := mul_le_length_each hitem values offset
      rwa [Nat.mul_one] at hslots
    · exact harray.map

theorem withoutTerminator_append {α : Type} [DecidableEq α] [OfNat α 0] (s : List α) :
    withoutTerminator (s ++ [0]) = s := by
  rw [withoutTerminator, if_pos List.getLast?_concat, List.dropLast_concat]

theorem withoutTerminator_takeWhile {α : Type} [DecidableEq α] [OfNat α 0] (s : List α) :
    withoutTerminator (s.takeWhile fun a => decide (a ≠ 0)) = s.takeWhile (· ≠ 0) := by
  rw [withoutTerminator, if_neg]
  intro hlast
  have hmem := List.mem_of_getLast? hlast
  simpa using List.mem_takeWhile_imp hmem

theorem reads_string {s : List UInt8} (hlength : (cString s).length + 1 < 2 ^ 32) :
    Reads receiving (deserializeString host (swapped host sender)) (Cdr.string sender s)
      (cString s) := by
  apply (reads_scalar host sender isPowerOfTwo_four hlength).bind
  have hpositive : BitVec.ofNat (8 * 4) ((cString s).length + 1) ≠ 0 := by
    intro hzero
    have := toNat_count hlength
    rw [hzero] at this
    exact Nat.succ_ne_zero _ this.symm
  rw [if_neg hpositive, toNat_count hlength]
  have hread := (reads_bytes (⟨cString s ++ [0], by simp⟩ : List.Vector UInt8
    ((cString s).length + 1))).map (f := fun bytes => withoutTerminator bytes.toList)
  rwa [List.Vector.toList_mk, withoutTerminator_append] at hread

theorem lastDataSize_deserializeScalar {swapBytes : Bool} {size : ℕ}
    {value : BitVec (8 * size)} {cdr next : Cdr}
    (hok : deserializeScalar host swapBytes size cdr = .ok (value, next)) :
    next.lastDataSize = size := by
  cases hbytes : deserializeAligned size size cdr with
  | error fault =>
      rw [deserializeScalar, bind_of_error hbytes] at hok
      cases hok
  | ok result =>
      rw [deserializeScalar, bind_of_ok hbytes] at hok
      cases hok
      simp only [deserializeAligned] at hbytes
      split at hbytes
      · cases hbytes
        rfl
      · cases hbytes

/-- What follows a number finds the size of the number as that of the last data. -/
theorem scalar_congr {α : Type} {swapBytes : Bool} {size : ℕ}
    {next other : BitVec (8 * size) → Stream α}
    (hsame : ∀ value cdr, cdr.lastDataSize = size → next value cdr = other value cdr) :
    (deserializeScalar host swapBytes size >>= next) =
      (deserializeScalar host swapBytes size >>= other) := by
  funext cdr
  cases hfirst : deserializeScalar host swapBytes size cdr with
  | error fault => rw [bind_of_error hfirst, bind_of_error hfirst]
  | ok result =>
      rw [bind_of_ok hfirst, bind_of_ok hfirst]
      exact hsame _ _ (lastDataSize_deserializeScalar host hfirst)

theorem deserializeWString_eq (swapBytes : Bool) :
    deserializeWString host swapBytes = (do
      let length ← deserializeScalar host swapBytes 4
      if length.toNat * 4 % 2 ^ 32 = 0 then
        pure []
      else do
        ensure (length.toNat * 4 % 2 ^ 32)
        let s ← times (deserializeScalar host swapBytes 4) length.toNat
        pure (withoutTerminator s.toList)) := by
  apply scalar_congr
  intro length cdr hlast
  by_cases hzero : length.toNat * 4 % 2 ^ 32 = 0
  · simp only [hzero, if_true]
  · simp only [hzero, if_false]
    by_cases hroom : length.toNat * 4 % 2 ^ 32 ≤ cdr.room
    · have hensured : ensure (length.toNat * 4 % 2 ^ 32) cdr = .ok ((), cdr) := if_pos hroom
      rw [bind_of_ok hensured, bind_of_ok hensured]
      have hmodified : (modify fun cdr => { cdr with lastDataSize := 4 } : Stream PUnit) cdr =
          .ok ((), cdr) := by
        change Except.ok ((), { cdr with lastDataSize := 4 }) = Except.ok ((), cdr)
        rw [← hlast]
      rw [bind_of_ok hmodified]
    · have hfailed : ensure (length.toNat * 4 % 2 ^ 32) cdr = .error .notEnoughMemory :=
        if_neg hroom
      rw [bind_of_error hfailed, bind_of_error hfailed]

theorem length_scalar (order : Endianness) (size value offset : ℕ) :
    (Cdr.scalar order size value offset).length = padding size offset + size := by
  rw [Cdr.scalar, length_aligned, Endianness.length_bytes]

theorem reads_wString {s : List WChar} (hlength : (wideCString s).length * 4 < 2 ^ 32) :
    Reads receiving (deserializeWString host (swapped host sender)) (Cdr.wideString sender s)
      (wideCString s) := by
  rw [deserializeWString_eq]
  have hcount : (wideCString s).length < 2 ^ 32 := by omega
  apply (reads_scalar host sender isPowerOfTwo_four hcount).bind
  rw [toNat_count hcount, Nat.mod_eq_of_lt hlength]
  split
  case isTrue hzero =>
    have hnone : wideCString s = [] := List.eq_nil_of_length_eq_zero (by omega)
    rw [hnone]
    exact reads_pure _
  case isFalse hsome =>
    apply Reads.after_test ((wideCString s).length * 4)
    · exact fun cdr hroom => if_pos hroom
    · apply mul_le_length_each
      intro c offset
      rw [length_scalar]
      exact Nat.le_add_left _ _
    · have hchars : ∀ c : WChar, Reads receiving
          (deserializeScalar host (swapped host sender) 4) (Cdr.scalar sender 4 c.toNat) c := by
        intro c
        have hread := reads_scalar host sender isPowerOfTwo_four c.isLt
        rwa [BitVec.ofNat_toNat, BitVec.setWidth_eq] at hread
      have hall : Reads receiving
          (times (deserializeScalar host (swapped host sender) 4) (wideCString s).length)
          (each (fun c : WChar => Cdr.scalar sender 4 c.toNat) (wideCString s))
          ((ofList (wideCString s)).map id) :=
        Reads.times (ofList (wideCString s)) fun c _ => hchars c
      have hread := hall.map (f := fun s => withoutTerminator s.toList)
      have hvalue : withoutTerminator (wideCString s) = wideCString s :=
        withoutTerminator_takeWhile s
      rwa [List.Vector.toList_map, List.map_id, toList_ofList, hvalue] at hread

theorem reads_header :
    Reads receiving (readHeader host) (Cdr.header sender) (swapped host sender) := by
  have hswapped : decide (encapsulationKind host ≠ encapsulationKind sender &&& 1) =
      swapped host sender := by
    cases host <;> cases sender <;> decide
  have hallowed : ¬encapsulationKind sender &&& ~~~(1 ||| 2) ≠ 0 := by
    cases sender <;> decide
  apply (reads_char 0).bind
  rw [if_neg (by decide)]
  apply (reads_char (encapsulationKind sender)).bind
  simp only [hswapped, if_neg hallowed]
  exact (reads_scalar host sender isPowerOfTwo_two (by decide)).map

end Counted

end RosRtems.Serialization
