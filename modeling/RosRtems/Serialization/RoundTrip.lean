import RosRtems.Serialization.MessageFormat

/-!
# Payloads

A payload is the encapsulation and then the message, whose offsets begin anew.  It is
written if and only if there is room for it, and every machine reads from it the message that
was written, with each string up to its first zero.
-/

namespace RosRtems.Serialization

open RosRtems.ByteOrder
open RosRtems.WireLayout
open RosRtems.WireLayout.Layout

/-! ## The body -/

namespace Members

/-- Where a type has no members a byte stands for the message. -/
def bodyLayout (order : Endianness) (members : Members) (message : members.Record) :
    Layout UInt8 :=
  if members.memberCount ≠ 0 then members.layout order message else symbols [0]

/-- The four bytes of the encapsulation, and the message. -/
def payloadSize (order : Endianness) (members : Members) (message : members.Record) : ℕ :=
  4 + (members.bodyLayout order message 0).length

theorem eq_nil_of_memberCount {members : Members} (hnone : members.memberCount = 0) :
    members = nil := by
  cases members with
  | nil => rfl
  | field _ _ _ rest => exact absurd hnone (Nat.succ_ne_zero _)
  | message _ _ _ rest => exact absurd hnone (Nat.succ_ne_zero _)

end Members

theorem writes_body (host : Endianness) (members : Members) (message : members.Record)
    (hfits : members.Fits message) :
    Writes sending (serializeBody host members message) (members.bodyLayout host message) := by
  unfold serializeBody Members.bodyLayout
  split
  · exact writes_message host members message hfits
  · exact writes_bytes [0]

theorem reads_body (host sender : Endianness) (stale : ℕ → Bool) (members : Members)
    (message : members.Record) (hfits : members.Fits message) :
    Reads receiving (deserializeBody host (swapped host sender) stale members)
      (members.bodyLayout sender message) (members.received message) := by
  unfold Members.bodyLayout
  split
  case isTrue hsome =>
    have hread := reads_message host sender stale members message hfits
    have hbody : deserializeBody host (swapped host sender) stale members =
        deserializeROSmessage host (swapped host sender) stale members := by
      rw [deserializeBody, if_neg hsome]
      rfl
    rwa [hbody]
  case isFalse hnone =>
    obtain rfl := Members.eq_nil_of_memberCount (not_not.mp hnone)
    exact (reads_char 0).map (f := fun _ => ())

/-! ## Behind the encapsulation -/

theorem Cdr.Settled.resetAlignment {cdr : Cdr} (hsettled : cdr.Settled) :
    cdr.resetAlignment.Settled where
  begun := Nat.le_refl _
  power := hsettled.power
  aligned := by
    rw [show cdr.resetAlignment.offset = 0 from Nat.sub_self _]
    exact Nat.dvd_zero _

theorem header_apply (order : Endianness) :
    Cdr.header order 0 = [some 0, some (encapsulationKind order), some 0, some 0] := by
  cases order <;> rfl

/-- What comes before the message; the second byte says in which order its bytes are. -/
def encapsulation (order : Endianness) : List UInt8 := [0, encapsulationKind order, 0, 0]

theorem carries_header {order : Endianness} {sent : List UInt8} :
    Carries (Cdr.header order 0) sent ↔ sent = encapsulation order := by
  have hheader : Cdr.header order 0 = (encapsulation order).map some := header_apply order
  rw [hheader]
  constructor
  · exact Carries.eq_of_symbols
  · rintro rfl
    exact carries_symbols _

/-- Behind the encapsulation the stream is at offset zero again. -/
theorem serializeEncapsulation_ok (host : Endianness) (buffer : List UInt8)
    (hroom : 4 ≤ buffer.length) :
    ∃ cdr, serializeEncapsulation host (.begin buffer) = .ok ((), cdr) ∧ cdr.Settled ∧
      cdr.offset = 0 ∧ cdr.before = encapsulation host ∧ cdr.room + 4 = buffer.length := by
  have hsettled := Cdr.settled_begin buffer
  have hslots : (Cdr.header host 0).length = 4 := by rw [header_apply]; rfl
  obtain ⟨cdr, hok, hsent⟩ := (writes_header host).fits _ hsettled
    (show (Cdr.header host 0).length ≤ buffer.length by omega)
  obtain ⟨sent, hcarries, hwritten⟩ := hsent.written
  refine ⟨cdr.resetAlignment, by rw [serializeEncapsulation, bind_of_ok hok]; rfl,
    Cdr.Settled.resetAlignment hsent.sound, Nat.sub_self _, ?_, ?_⟩
  · rw [← carries_header.mp hcarries]
    exact hwritten
  · have hleft : buffer.length = cdr.room + (Cdr.header host 0).length := hsent.room
    rw [hslots] at hleft
    exact hleft.symm

theorem serializeEncapsulation_error (host : Endianness) {buffer : List UInt8}
    (hroom : buffer.length < 4) :
    ∃ fault, serializeEncapsulation host (.begin buffer) = .error fault := by
  have hslots : (Cdr.header host 0).length = 4 := by rw [header_apply]; rfl
  obtain ⟨fault, hfault⟩ := (writes_header host).overflows _ (Cdr.settled_begin buffer)
    (show buffer.length < (Cdr.header host 0).length by omega)
  exact ⟨fault, bind_of_error hfault⟩

/-- The reader finds out whether it has to swap bytes, and is at offset zero as well. -/
theorem readEncapsulation_ok (host sender : Endianness) (rest : List UInt8) :
    ∃ cdr, readEncapsulation host (.begin (encapsulation sender ++ rest)) =
        .ok (swapped host sender, cdr) ∧ cdr.Settled ∧ cdr.offset = 0 ∧ cdr.after = rest := by
  obtain ⟨cdr, hok, hsettled, -, hafter⟩ := reads_header host sender _ _ rest
    (Cdr.settled_begin (encapsulation sender ++ rest)) (carries_header.mpr rfl) rfl
  exact ⟨cdr.resetAlignment, by rw [readEncapsulation, bind_of_ok hok]; rfl,
    Cdr.Settled.resetAlignment hsettled, Nat.sub_self _, hafter⟩

/-! ## Whole payloads -/

section Payload

variable (host : Endianness) {members : Members} {message : members.Record} {buffer : List UInt8}

theorem serialize_ok (hfits : members.Fits message)
    (hroom : members.payloadSize host message ≤ buffer.length) :
    ∃ sent, Carries (members.bodyLayout host message 0) sent ∧
      serialize host members message buffer = .ok (encapsulation host ++ sent) := by
  rw [Members.payloadSize] at hroom
  obtain ⟨cdr, hheader, hsettled, hoffset, hbefore, hleft⟩ :=
    serializeEncapsulation_ok host buffer (by omega)
  have hbody := (writes_body host members message hfits).fits cdr hsettled
  rw [show sending.offset cdr = 0 from hoffset] at hbody
  obtain ⟨cdr', hok, hsent⟩ := hbody (show _ ≤ cdr.room by omega)
  obtain ⟨sent, hcarries, hwritten⟩ := hsent.written
  refine ⟨sent, hcarries, ?_⟩
  rw [serialize, bind_of_ok hheader, hok, ← hbefore]
  exact congrArg Except.ok hwritten

theorem serialize_error (hfits : members.Fits message)
    (hroom : buffer.length < members.payloadSize host message) :
    ∃ fault, serialize host members message buffer = .error fault := by
  rw [Members.payloadSize] at hroom
  by_cases hshort : buffer.length < 4
  · obtain ⟨fault, hfault⟩ := serializeEncapsulation_error host hshort
    exact ⟨fault, by rw [serialize, bind_of_error hfault]; rfl⟩
  · obtain ⟨cdr, hheader, hsettled, hoffset, -, hleft⟩ :=
      serializeEncapsulation_ok host buffer (Nat.le_of_not_lt hshort)
    have hbody := (writes_body host members message hfits).overflows cdr hsettled
    rw [show sending.offset cdr = 0 from hoffset] at hbody
    obtain ⟨fault, hfault⟩ := hbody (show cdr.room < _ by omega)
    exact ⟨fault, by rw [serialize, bind_of_ok hheader, hfault]; rfl⟩

/-- What is written is the format of the message, and it is written exactly if there is room
for it. -/
theorem serialize_format (hfits : members.Fits message) :
    (members.payloadSize host message ≤ buffer.length →
      ∃ sent, Carries (members.bodyLayout host message 0) sent ∧
        serialize host members message buffer = .ok (encapsulation host ++ sent)) ∧
    (buffer.length < members.payloadSize host message →
      ∃ fault, serialize host members message buffer = .error fault) :=
  ⟨serialize_ok host hfits, serialize_error host hfits⟩

/-- There is room for a message exactly if it can be serialized. -/
theorem serialize_succeeds_iff (hfits : members.Fits message) :
    (∃ payload, serialize host members message buffer = .ok payload) ↔
      members.payloadSize host message ≤ buffer.length := by
  constructor
  · rintro ⟨payload, hok⟩
    by_contra hroom
    obtain ⟨fault, hfault⟩ := serialize_error host hfits (Nat.lt_of_not_le hroom)
    rw [hok] at hfault
    cases hfault
  · intro hroom
    obtain ⟨sent, -, hok⟩ := serialize_ok host hfits hroom
    exact ⟨_, hok⟩

/-- What one machine has written, every machine reads, whatever follows it. -/
theorem payload_round_trip (sender : Endianness) (stale : ℕ → Bool) {payload : List UInt8}
    (more : List UInt8) (hfits : members.Fits message)
    (hwritten : serialize sender members message buffer = .ok payload) :
    deserialize host stale members (payload ++ more) = .ok (members.received message) := by
  have hroom := (serialize_succeeds_iff sender hfits).mp ⟨payload, hwritten⟩
  obtain ⟨sent, hcarries, hok⟩ := serialize_ok sender hfits hroom
  rw [hwritten] at hok
  obtain rfl := Except.ok.inj hok
  rw [List.append_assoc]
  obtain ⟨cdr, hheader, hsettled, hoffset, hafter⟩ :=
    readEncapsulation_ok host sender (sent ++ more)
  have hbody := reads_body host sender stale members message hfits cdr sent more hsettled
  rw [show receiving.offset cdr = 0 from hoffset] at hbody
  obtain ⟨cdr', hread, -⟩ := hbody hcarries hafter
  rw [deserialize, readPayload, bind_of_ok hheader, hread]
  rfl

end Payload

/-! ## A type with nested messages, strings and numbers -/

def point : Members :=
  .field .octet .single 0 (.field (.scalar .int16) .single 2 .nil)

/-- A bounded sequence of points, a sequence of strings and a number. -/
def track : Members :=
  .message point (.bounded 2 Nat.two_pos) 0
    (.field (.string 0) .unbounded 24 (.field (.scalar .float64) .single 48 .nil))

def someTrack : track.Record := ([(7, 300, ())], [[104, 0, 105]], 5, ())

def somePayload : List UInt8 :=
  [0, 1, 0, 0, 1, 0, 0, 0, 7, 0, 44, 1, 1, 0, 0, 0, 2, 0, 0, 0, 104, 0, 0, 0, 0, 0, 0, 0,
    5, 0, 0, 0, 0, 0, 0, 0]

theorem track_fits : track.Fits someTrack := by
  refine ⟨⟨by decide, ?_⟩, ⟨by decide, ?_⟩, trivial, trivial⟩
  · exact fun _ _ => ⟨trivial, trivial, trivial⟩
  · intro s hs
    obtain rfl := List.mem_singleton.mp hs
    exact (by decide : (cString [104, 0, 105]).length + 1 < 2 ^ 32)

theorem writes_somePayload :
    serialize .little track someTrack (List.replicate 40 0) = .ok somePayload := rfl

theorem track_round_trip :
    deserialize .big (fun _ => true) track (somePayload ++ [9]) = .ok (track.received someTrack) :=
  payload_round_trip .big .little (fun _ => true) [9] track_fits writes_somePayload

theorem track_format :
    ∃ sent, Carries (track.bodyLayout .little someTrack 0) sent ∧
      serialize .little track someTrack (List.replicate 40 0) =
        .ok (encapsulation .little ++ sent) :=
  (serialize_format .little track_fits).1 (by decide)

end RosRtems.Serialization
