import RosRtems.Serialization.RoundTrip

/-!
# Payloads that are cut

A reader never looks behind what it takes.  So what was accepted once is accepted with
anything behind it, as the same message, and is refused as soon as a byte of it is missing.
-/

namespace RosRtems.Serialization

open RosRtems.ByteOrder
open RosRtems.WireLayout

/-- What has been read and what has not. -/
def Cdr.buffer (cdr : Cdr) : List UInt8 := cdr.before ++ cdr.after

/-- The stream over a buffer that goes on after its end. -/
def Cdr.extend (more : List UInt8) (cdr : Cdr) : Cdr := { cdr with after := cdr.after ++ more }

/-- A program that reads a stream. -/
abbrev Streams {α : Type} (read : Stream α) : Prop :=
  ∀ more, Steady Cdr.buffer (Cdr.extend more) read

/-! ## The calls of a stream -/

theorem buffer_makeAlign (cdr : Cdr) (size : ℕ) : (cdr.makeAlign size).buffer = cdr.buffer := by
  rw [Cdr.buffer, Cdr.makeAlign, List.append_assoc, List.take_append_drop]
  rfl

theorem extend_makeAlign (cdr : Cdr) {size : ℕ} (more : List UInt8) (hroom : size ≤ cdr.room) :
    (cdr.extend more).makeAlign size = (cdr.makeAlign size).extend more := by
  simp only [Cdr.makeAlign, Cdr.extend, List.take_append_of_le_length hroom,
    List.drop_append_of_le_length hroom]

theorem room_extend (cdr : Cdr) (more : List UInt8) :
    (cdr.extend more).room = cdr.room + more.length := List.length_append

theorem streams_ensure (size : ℕ) : Streams (ensure size) := by
  intro more
  constructor
  · intro cdr a cdr' hok
    unfold ensure at hok
    split at hok
    · cases hok
      rfl
    · cases hok
  · intro cdr a cdr' hok
    unfold ensure at hok ⊢
    split at hok
    case isTrue hroom =>
      cases hok
      rw [if_pos (by rw [room_extend]; omega)]
    case isFalse => cases hok

/-- Bytes are taken without alignment, where there is room for all of them. -/
theorem streams_bytes (dataSize n : ℕ) : Streams (deserializeBytes dataSize n) := by
  intro more
  constructor
  · intro cdr a cdr' hok
    unfold deserializeBytes at hok
    split at hok
    case isTrue hroom =>
      cases hok
      exact buffer_makeAlign { cdr with lastDataSize := dataSize } n
    case isFalse => cases hok
  · intro cdr a cdr' hok
    unfold deserializeBytes at hok ⊢
    split at hok
    case isTrue hroom =>
      cases hok
      rw [dif_pos (by rw [room_extend]; omega)]
      congr 2
      · apply Subtype.ext
        exact List.take_append_of_le_length hroom
      · exact extend_makeAlign { cdr with lastDataSize := dataSize } more hroom
    case isFalse => cases hok

/-- The alignment depends on the position only, and not on what comes after it. -/
theorem streams_aligned (dataSize size : ℕ) : Streams (deserializeAligned dataSize size) := by
  intro more
  constructor
  · intro cdr a cdr' hok
    unfold deserializeAligned at hok
    dsimp only at hok
    split at hok
    case isTrue hroom =>
      cases hok
      exact buffer_makeAlign { cdr with lastDataSize := dataSize } _
    case isFalse => cases hok
  · intro cdr a cdr' hok
    have halignment : (cdr.extend more).alignment dataSize = cdr.alignment dataSize := rfl
    unfold deserializeAligned at hok ⊢
    dsimp only at hok ⊢
    rw [halignment]
    split at hok
    case isTrue hroom =>
      cases hok
      change size + cdr.alignment dataSize ≤ cdr.after.length at hroom
      rw [if_pos (by rw [room_extend]; exact hroom.trans (Nat.le_add_right _ _))]
      congr 2
      · change ((cdr.after ++ more).drop _).take size = _
        rw [List.drop_append_of_le_length (by omega),
          List.take_append_of_le_length (by rw [List.length_drop]; omega)]
      · exact extend_makeAlign { cdr with lastDataSize := dataSize } more
          ((Nat.add_comm _ _).trans_le hroom)
    case isFalse => cases hok

theorem streams_modify (change : Cdr → Cdr) (hbuffer : ∀ cdr, (change cdr).buffer = cdr.buffer)
    (hextend : ∀ more cdr, change (cdr.extend more) = (change cdr).extend more) :
    Streams (modify change : Stream PUnit) := by
  intro more
  constructor
  · intro cdr a cdr' hok
    cases hok
    exact hbuffer cdr
  · intro cdr a cdr' hok
    cases hok
    change Except.ok ((), change (cdr.extend more)) = _
    rw [hextend]

theorem streams_lastDataSize (dataSize : ℕ) :
    Streams (modify fun cdr => { cdr with lastDataSize := dataSize } : Stream PUnit) :=
  streams_modify (fun cdr => { cdr with lastDataSize := dataSize }) (fun _ => rfl) fun _ _ => rfl

theorem streams_resetAlignment : Streams (modify Cdr.resetAlignment : Stream PUnit) :=
  streams_modify Cdr.resetAlignment (fun _ => rfl) fun _ _ => rfl

section Calls

variable (host : Endianness) (swapBytes : Bool) (stale : ℕ → Bool)

theorem streams_char : Streams deserializeChar :=
  fun more => (streams_bytes 1 1 more).bind fun _ => steady_pure _

theorem streams_bool : Streams deserializeBool := fun more =>
  (streams_bytes 1 1 more).bind fun _ =>
    (steady_pure _).ite ((steady_pure _).ite (steady_throw _))

theorem streams_arrayBool (n : ℕ) : Streams (deserializeArrayBool stale n) := by
  intro more
  have hread (position : ℕ) := (streams_bytes 1 n more).bind fun bytes =>
    steady_pure (ε := Fault) (boolsAt stale position bytes)
  exact ⟨fun cdr => (hread cdr.position).keeps cdr, fun cdr => (hread cdr.position).goesOn cdr⟩

theorem streams_scalar (size : ℕ) : Streams (deserializeScalar host swapBytes size) :=
  fun more => (streams_aligned size size more).bind fun _ => steady_pure _

theorem streams_arrayScalar (size n : ℕ) :
    Streams (deserializeArrayScalar host swapBytes size n) := fun more =>
  (steady_pure _).ite ((streams_aligned size (size * n) more).bind fun _ => steady_pure _)

theorem streams_boolSequence : Streams (deserializeBoolSequence host swapBytes) := by
  intro more
  have hlength := streams_scalar host swapBytes 4 more
  refine hlength.bind fun length => ?_
  exact (streams_bytes 1 _ more).bind fun _ => (steady_pure _).ite (steady_throw _)

/-- A sequence reads its length, asks for as much room, and reads an array. -/
theorem streams_vector {α : Type} {array : (n : ℕ) → Stream (List.Vector α n)}
    (harray : ∀ n, Streams (array n)) : Streams (deserializeVector host swapBytes array) := by
  intro more
  have hlength := streams_scalar host swapBytes 4 more
  refine hlength.bind fun length => ?_
  have hitems := harray length.toNat more
  refine (steady_pure _).ite ?_
  refine (streams_ensure _ more).bind fun _ => ?_
  exact hitems.bind fun _ => steady_pure _

theorem streams_string : Streams (deserializeString host swapBytes) := by
  intro more
  have hlength := streams_scalar host swapBytes 4 more
  refine hlength.bind fun length => (steady_pure _).ite ?_
  exact (streams_bytes 1 _ more).bind fun _ => steady_pure _

/-- A wide string is read character by character, each of them in four bytes. -/
theorem streams_wString : Streams (deserializeWString host swapBytes) := by
  intro more
  have hscalar := streams_scalar host swapBytes 4 more
  refine hscalar.bind fun length => ?_
  have hcharacters := hscalar.times length.toNat
  refine (steady_pure _).ite ?_
  refine (streams_ensure _ more).bind fun _ => ?_
  refine (streams_lastDataSize 4 more).bind fun _ => ?_
  exact hcharacters.bind fun _ => steady_pure _

/-- The encapsulation is refused for a byte that is not zero or a kind that is not known. -/
theorem streams_readEncapsulation : Streams (readEncapsulation host) := by
  intro more
  have hheader : Steady Cdr.buffer (Cdr.extend more) (readHeader host) := by
    refine (streams_char more).bind fun dummy => ?_
    refine (steady_throw _).ite ((streams_char more).bind fun kind => ?_)
    exact (steady_throw _).ite ((streams_scalar host _ 2 more).bind fun _ => steady_pure _)
  exact hheader.bind fun _ => (streams_resetAlignment more).bind fun _ => steady_pure _

/-! ## The type support -/

theorem streams_value : ∀ type : FieldType, Streams (deserializeValue host swapBytes type)
  | .bool => streams_bool
  | .octet => streams_char
  | .scalar kind => streams_scalar host swapBytes kind.size
  | .string _ => streams_string host swapBytes
  | .wstring _ => fun more =>
      (streams_wString host swapBytes more).bind fun _ => steady_pure _

theorem streams_array :
    ∀ (type : FieldType) (n : ℕ), Streams (deserializeArray host swapBytes stale type n)
  | .bool, n => streams_arrayBool stale n
  | .octet, n => streams_bytes 1 n
  | .scalar kind, n => streams_arrayScalar host swapBytes kind.size n
  | .string bound, n => fun more => (streams_value host swapBytes (.string bound) more).times n
  | .wstring bound, n => fun more => (streams_value host swapBytes (.wstring bound) more).times n

theorem streams_many {α : Type} {one : Stream α} (hone : Streams one) :
    Streams (deserializeMany host swapBytes one) := by
  intro more
  have hsize := streams_scalar host swapBytes 4 more
  refine hsize.bind fun size => ?_
  have hitems := (hone more).times size.toNat
  exact hitems.bind fun _ => steady_pure _

theorem streams_sequence :
    ∀ type : FieldType, Streams (deserializeSequence host swapBytes stale type)
  | .bool => streams_boolSequence host swapBytes
  | .octet => streams_vector host swapBytes (streams_array host swapBytes stale .octet)
  | .scalar kind =>
      streams_vector host swapBytes (streams_array host swapBytes stale (.scalar kind))
  | .string bound =>
      streams_vector host swapBytes (streams_array host swapBytes stale (.string bound))
  | .wstring bound => streams_many host swapBytes (streams_value host swapBytes (.wstring bound))

theorem streams_field (type : FieldType) :
    ∀ shape : Shape, Streams (deserializeField host swapBytes stale type shape)
  | .single => streams_value host swapBytes type
  | .array size _ => streams_array host swapBytes stale type size
  | .bounded _ _ | .unbounded => streams_sequence host swapBytes stale type

theorem streams_messages {α : Type} {one : Stream α} (hone : Streams one) :
    ∀ shape : Shape, Streams (deserializeMessages host swapBytes one shape)
  | .single => hone
  | .array size _ => fun more => (hone more).times size
  | .bounded _ _ | .unbounded => streams_many host swapBytes hone

/-- A message reads its members one after the other, and nested messages likewise. -/
theorem streams_message (members : Members) :
    Streams (deserializeROSmessage host swapBytes stale members) := by
  induction members with
  | nil => exact fun _ => steady_pure _
  | field type shape _ rest ihRest =>
      intro more
      exact (streams_field host swapBytes stale type shape more).bind fun _ =>
        (ihRest more).bind fun _ => steady_pure _
  | message sub shape _ rest ihSub ihRest =>
      intro more
      exact (streams_messages host swapBytes ihSub shape more).bind fun _ =>
        (ihRest more).bind fun _ => steady_pure _

theorem streams_body (members : Members) :
    Streams (deserializeBody host swapBytes stale members) := by
  intro more
  have hmessage := streams_message host swapBytes stale members more
  exact ((streams_char more).bind fun _ => hmessage).ite ((steady_pure _).bind fun _ => hmessage)

theorem streams_payload (members : Members) : Streams (readPayload host stale members) :=
  fun more => (streams_readEncapsulation host more).bind fun swapBytes =>
    streams_body host swapBytes stale members more

end Calls

/-! ## Accepted payloads -/

section Accepted

variable {host : Endianness} {stale : ℕ → Bool} {members : Members} {message : members.Record}
  {payload : List UInt8} {cdr : Cdr}

theorem begin_append (payload more : List UInt8) :
    Cdr.begin (payload ++ more) = (Cdr.begin payload).extend more := rfl

/-- What was accepted is accepted with anything behind it, as the same message. -/
theorem accepted_append (haccepted : deserialize host stale members payload = .ok message)
    (more : List UInt8) : deserialize host stale members (payload ++ more) = .ok message := by
  unfold deserialize at haccepted ⊢
  cases hread : readPayload host stale members (.begin payload) with
  | error fault =>
      rw [hread] at haccepted
      cases haccepted
  | ok result =>
      rw [hread] at haccepted
      rw [begin_append, (streams_payload host stale members more).goesOn _ _ _ hread]
      exact haccepted

/-- If it were accepted, the whole payload would stop at the same position. -/
theorem truncated_refused
    (hread : readPayload host stale members (.begin payload) = .ok (message, cdr))
    {length : ℕ} (hcut : length < cdr.position) :
    ∃ fault, deserialize host stale members (payload.take length) = .error fault := by
  cases hshort : readPayload host stale members (.begin (payload.take length)) with
  | error fault => exact ⟨fault, by rw [deserialize, hshort]; rfl⟩
  | ok result =>
      have hstreams := streams_payload host stale members (payload.drop length)
      have hwhole := hstreams.goesOn _ _ _ hshort
      rw [← begin_append, List.take_append_drop, hread] at hwhole
      obtain ⟨-, rfl⟩ := Prod.mk.inj (Except.ok.inj hwhole)
      have hbuffer := congrArg List.length (hstreams.keeps _ _ _ hshort)
      have hposition : result.2.position ≤ (payload.take length).length := by
        rw [show (payload.take length).length = (Cdr.begin (payload.take length)).buffer.length
          from rfl, ← hbuffer, Cdr.buffer, List.length_append]
        exact Nat.le_add_right _ _
      have htake := List.length_take_le length payload
      exact absurd hcut (Nat.not_lt_of_le (hposition.trans htake))

/-- An accepted payload is the same message with anything behind it, and is refused without
any one of the bytes that were read. -/
theorem accepted_exactly
    (hread : readPayload host stale members (.begin payload) = .ok (message, cdr)) :
    (∀ more, deserialize host stale members (payload ++ more) = .ok message) ∧
      ∀ length, length < cdr.position →
        ∃ fault, deserialize host stale members (payload.take length) = .error fault := by
  have haccepted : deserialize host stale members payload = .ok message := by
    rw [deserialize, hread]
    rfl
  exact ⟨accepted_append haccepted, fun _ => truncated_refused hread⟩

end Accepted

theorem reads_somePayload :
    readPayload .big (fun _ => true) track (.begin somePayload) =
      .ok (track.received someTrack, ⟨somePayload, [], 4, 8⟩) := rfl

theorem somePayload_accepted_exactly :
    (∀ more, deserialize .big (fun _ => true) track (somePayload ++ more) =
      .ok (track.received someTrack)) ∧
      ∀ length, length < 36 →
        ∃ fault, deserialize .big (fun _ => true) track (somePayload.take length) = .error fault :=
  accepted_exactly reads_somePayload

end RosRtems.Serialization
