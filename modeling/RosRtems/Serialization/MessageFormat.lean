import RosRtems.Serialization.CdrLayout
import RosRtems.Serialization.TypeSupport

/-!
# The format of messages

The layout of a message follows its type member by member.  The type support writes that
layout wherever the message starts, in a buffer that has room for it, and reads it on a
machine of either byte order.
-/

namespace RosRtems.Serialization

open RosRtems.Alignment
open RosRtems.ByteOrder
open RosRtems.WireLayout
open RosRtems.WireLayout.Layout

/-! ## Messages by shape -/

namespace Shape

variable {α β : Type}

/-- Each item has the property, and a sequence has no more of them than its count can say. -/
def All (p : α → Prop) : (shape : Shape) → shape.Holder α → Prop
  | single, a => p a
  | array _ _, values => ∀ a ∈ values.toList, p a
  | bounded _ _, values | unbounded, values => values.length < 2 ^ 32 ∧ ∀ a ∈ values, p a

def map (f : α → β) : (shape : Shape) → shape.Holder α → shape.Holder β
  | single, a => f a
  | array _ _, values => values.map f
  | bounded _ _, values | unbounded, values => values.map f

/-- The items one behind the other, with their count before those of a sequence. -/
def layout (order : Endianness) (item : α → Layout UInt8) :
    (shape : Shape) → shape.Holder α → Layout UInt8
  | single, a => item a
  | array _ _, values => each item values.toList
  | bounded _ _, values | unbounded, values => Cdr.sequence order item values

end Shape

/-! ## The layout -/

namespace FieldType

/-- Bytes are not aligned; a wide string is widened to the characters that it is sent in. -/
def layout (order : Endianness) : (type : FieldType) → type.Value → Layout UInt8
  | bool, b => symbols [boolByte b]
  | octet, c => symbols [c]
  | scalar kind, value => Cdr.scalar order kind.size (BitVec.toNat value)
  | string _, s => Cdr.string order s
  | wstring _, s => Cdr.wideString order (u16stringToWstring s)

/-- The length of a string is one that a count can say. -/
def Fits : (type : FieldType) → type.Value → Prop
  | bool, _ | octet, _ | scalar _, _ => True
  | string _, s => (cString s).length + 1 < 2 ^ 32
  | wstring _, s => (wideCString (u16stringToWstring s)).length * 4 < 2 ^ 32

/-- What arrives of a value: a string up to its first zero. -/
def received : (type : FieldType) → type.Value → type.Value
  | bool, b => b
  | octet, c => c
  | scalar _, value => value
  | string _, s => cString s
  | wstring _, s => s.takeWhile (· ≠ 0)

end FieldType

namespace Members

/-- A nested message is aligned like its members, without anything around it. -/
def layout (order : Endianness) : (members : Members) → members.Record → Layout UInt8
  | nil, _ => nothing
  | field type shape _ rest, record =>
      shape.layout order (type.layout order) record.1 ++ rest.layout order record.2
  | message sub shape _ rest, record =>
      shape.layout order (sub.layout order) record.1 ++ rest.layout order record.2

/-- A count can say how long each string and each sequence is. -/
def Fits : (members : Members) → members.Record → Prop
  | nil, _ => True
  | field type shape _ rest, record => shape.All type.Fits record.1 ∧ rest.Fits record.2
  | message sub shape _ rest, record => shape.All sub.Fits record.1 ∧ rest.Fits record.2

/-- What arrives of a message: its strings may be shorter. -/
def received : (members : Members) → members.Record → members.Record
  | nil, _ => ()
  | field type shape _ rest, record => (shape.map type.received record.1, rest.received record.2)
  | message sub shape _ rest, record =>
      (shape.map sub.received record.1, rest.received record.2)

end Members

theorem ScalarKind.isPowerOfTwo_size (kind : ScalarKind) : kind.size.isPowerOfTwo := by
  cases kind
  case int16 | uint16 => exact ⟨1, rfl⟩
  case int32 | uint32 | float32 => exact ⟨2, rfl⟩
  case int64 | uint64 | float64 => exact ⟨3, rfl⟩

/-! ## What the type support writes -/

section Written

variable (host : Endianness)

/-- A value whose length fits is written as its layout says. -/
theorem writes_value : ∀ (type : FieldType) (value : type.Value), type.Fits value →
    Writes sending (serializeValue host type value) (type.layout host value)
  | .bool, b, _ => writes_bytes [boolByte b]
  | .octet, c, _ => writes_bytes [c]
  | .scalar kind, value, _ => writes_scalar host kind.isPowerOfTwo_size (BitVec.toNat value)
  | .string _, _, hfits => writes_string host hfits
  | .wstring _, _, hfits => writes_wString host hfits

theorem writes_array : ∀ (type : FieldType) (values : List type.Value),
    (∀ value ∈ values, type.Fits value) →
      Writes sending (serializeArray host type values) (each (type.layout host) values)
  | .bool, bs, _ => writes_arrayBool bs
  | .octet, cs, _ => writes_arrayChar cs
  | .scalar kind, values, _ => writes_arrayScalar host kind.isPowerOfTwo_size values
  | .string bound, _, hfits =>
      Writes.forM fun s hs => writes_value host (.string bound) s (hfits s hs)
  | .wstring bound, _, hfits =>
      Writes.forM fun s hs => writes_value host (.wstring bound) s (hfits s hs)

theorem writes_field (type : FieldType) : ∀ (shape : Shape) (held : shape.Holder type.Value),
    shape.All type.Fits held →
      Writes sending (serializeField host type shape held)
        (shape.layout host (type.layout host) held)
  | .single, value, hfits => writes_value host type value hfits
  | .array _ _, values, hfits => writes_array host type values.toList hfits
  | .bounded _ _, values, hfits | .unbounded, values, hfits =>
      writes_vector host hfits.1 (writes_array host type values hfits.2)

theorem writes_messages {α : Type} {one : α → Stream Unit} {item : α → Layout UInt8}
    {fits : α → Prop} (hone : ∀ a, fits a → Writes sending (one a) (item a)) :
    ∀ (shape : Shape) (held : shape.Holder α), shape.All fits held →
      Writes sending (serializeMessages host one shape held) (shape.layout host item held)
  | .single, message, hfits => hone message hfits
  | .array _ _, _, hfits => Writes.forM fun message hmem => hone message (hfits message hmem)
  | .bounded _ _, messages, hfits | .unbounded, messages, hfits => by
      have hall : Writes sending (messages.forM one) (each item messages) :=
        Writes.forM fun message hmem => hone message (hfits.2 message hmem)
      have hcounted : Writes sending (serializeVector host (fun as => as.forM one) messages)
          (Cdr.sequence host item messages) := writes_vector host hfits.1 hall
      exact hcounted

/-- The type support writes the layout, wherever the message starts. -/
theorem writes_message (members : Members) : ∀ message : members.Record, members.Fits message →
    Writes sending (serializeROSmessage host members message) (members.layout host message) := by
  induction members with
  | nil => exact fun _ _ => writes_pure (ε := Fault)
  | field type shape _ rest ihRest =>
      intro message hfits
      exact (writes_field host type shape message.1 hfits.1).bind (ihRest message.2 hfits.2)
  | message sub shape _ rest ihSub ihRest =>
      intro message hfits
      exact (writes_messages host ihSub shape message.1 hfits.1).bind (ihRest message.2 hfits.2)

end Written

/-! ## What the type support reads -/

section Read

variable (host sender : Endianness) (stale : ℕ → Bool)

theorem setWidth_ne_zero (c : BitVec 16) : BitVec.setWidth (8 * 4) c ≠ 0 ↔ c ≠ 0 := by
  rw [Ne, Ne, ← BitVec.toNat_inj, ← BitVec.toNat_inj, BitVec.toNat_setWidth,
    Nat.mod_eq_of_lt (c.isLt.trans (by decide))]
  rfl

/-- A character that is widened and narrowed again is the same. -/
theorem wstringToU16string_wideCString (s : List (BitVec 16)) :
    wstringToU16string (wideCString (u16stringToWstring s)) = s.takeWhile (· ≠ 0) := by
  rw [wstringToU16string, wideCString, u16stringToWstring, List.takeWhile_map, List.map_map]
  have hback : BitVec.setWidth 16 ∘ BitVec.setWidth (8 * 4) = id := by
    funext c
    apply BitVec.eq_of_toNat_eq
    simp only [Function.comp_apply, BitVec.toNat_setWidth, id_eq]
    have := c.isLt
    omega
  rw [hback, List.map_id]
  congr 1
  funext c
  exact decide_eq_decide.mpr (setWidth_ne_zero c)

/-- What is read of a value is the same on machines of both byte orders. -/
theorem reads_value : ∀ (type : FieldType) (value : type.Value), type.Fits value →
    Reads receiving (deserializeValue host (swapped host sender) type)
      (type.layout sender value) (type.received value)
  | .bool, b, _ => reads_bool b
  | .octet, c, _ => reads_char c
  | .scalar kind, value, _ => by
      have hread := reads_scalar host sender kind.isPowerOfTwo_size (BitVec.isLt value)
      rwa [BitVec.ofNat_toNat, BitVec.setWidth_eq] at hread
  | .string _, _, hfits => reads_string host sender hfits
  | .wstring _, s, hfits => by
      have hread := (reads_wString host sender hfits).map (f := wstringToU16string)
      rwa [wstringToU16string_wideCString] at hread

/-- Arrays of bytes and of numbers are read as a whole, and arrays of strings one by one. -/
theorem reads_array : ∀ (type : FieldType) {n : ℕ} (values : List.Vector type.Value n),
    (∀ value ∈ values.toList, type.Fits value) →
      Reads receiving (deserializeArray host (swapped host sender) stale type n)
        (each (type.layout sender) values.toList) (values.map type.received)
  | .bool, _, bs, _ => by
      rw [show bs.map (FieldType.received .bool) = bs from List.Vector.map_id bs]
      exact reads_arrayBool stale bs
  | .octet, _, cs, _ => by
      rw [show cs.map (FieldType.received .octet) = cs from List.Vector.map_id cs]
      exact reads_arrayChar cs
  | .scalar kind, _, values, _ => by
      rw [show values.map (FieldType.received (.scalar kind)) = values from
        List.Vector.map_id values]
      exact reads_arrayScalar host sender kind.isPowerOfTwo_size values
  | .string bound, _, ss, hfits =>
      Reads.times ss fun s hs => reads_value host sender (.string bound) s (hfits s hs)
  | .wstring bound, _, ss, hfits =>
      Reads.times ss fun s hs => reads_value host sender (.wstring bound) s (hfits s hs)

theorem reads_many {α β : Type} {one : Stream β} {item : α → Layout UInt8} {got : α → β}
    {values : List α} (hcount : values.length < 2 ^ 32)
    (hone : ∀ a ∈ values, Reads receiving one (item a) (got a)) :
    Reads receiving (deserializeMany host (swapped host sender) one)
      (Cdr.sequence sender item values) (values.map got) := by
  apply (reads_scalar host sender isPowerOfTwo_four hcount).bind
  rw [toNat_count hcount]
  exact (Reads.times (ofList values) hone).map (f := List.Vector.toList)

theorem reads_sequence : ∀ (type : FieldType) (values : List type.Value),
    values.length < 2 ^ 32 → (∀ value ∈ values, type.Fits value) →
      Reads receiving (deserializeSequence host (swapped host sender) stale type)
        (Cdr.sequence sender (type.layout sender) values) (values.map type.received)
  | .bool, bs, hcount, _ => by
      rw [show bs.map (FieldType.received .bool) = bs from List.map_id bs]
      exact reads_boolSequence host sender hcount
  | .octet, cs, hcount, hfits =>
      reads_vector host sender hcount (fun _ _ => Nat.le_refl 1)
        (reads_array host sender stale .octet (ofList cs) hfits)
  | .scalar kind, values, hcount, hfits => by
      apply reads_vector host sender hcount _
        (reads_array host sender stale (.scalar kind) (ofList values) hfits)
      intro value offset
      have hpositive := Nat.pos_of_isPowerOfTwo kind.isPowerOfTwo_size
      rw [FieldType.layout, length_scalar]
      omega
  | .string bound, ss, hcount, hfits => by
      apply reads_vector host sender hcount _
        (reads_array host sender stale (.string bound) (ofList ss) hfits)
      intro s offset
      rw [FieldType.layout, Cdr.string, append_apply, List.length_append, length_scalar]
      omega
  | .wstring bound, ss, hcount, hfits =>
      reads_many host sender hcount fun s hs =>
        reads_value host sender (.wstring bound) s (hfits s hs)

theorem reads_field (type : FieldType) : ∀ (shape : Shape) (held : shape.Holder type.Value),
    shape.All type.Fits held →
      Reads receiving (deserializeField host (swapped host sender) stale type shape)
        (shape.layout sender (type.layout sender) held) (shape.map type.received held)
  | .single, value, hfits => reads_value host sender type value hfits
  | .array _ _, values, hfits => reads_array host sender stale type values hfits
  | .bounded _ _, values, hfits | .unbounded, values, hfits =>
      reads_sequence host sender stale type values hfits.1 hfits.2

theorem reads_messages {α : Type} {one : Stream α} {item : α → Layout UInt8} {got : α → α}
    {fits : α → Prop} (hone : ∀ a, fits a → Reads receiving one (item a) (got a)) :
    ∀ (shape : Shape) (held : shape.Holder α), shape.All fits held →
      Reads receiving (deserializeMessages host (swapped host sender) one shape)
        (shape.layout sender item held) (shape.map got held)
  | .single, message, hfits => hone message hfits
  | .array _ _, messages, hfits =>
      Reads.times messages fun message hmem => hone message (hfits message hmem)
  | .bounded _ _, _, hfits | .unbounded, _, hfits =>
      reads_many host sender hfits.1 fun message hmem => hone message (hfits.2 message hmem)

/-- The type support reads from the layout what arrives of the message. -/
theorem reads_message (members : Members) : ∀ message : members.Record, members.Fits message →
    Reads receiving (deserializeROSmessage host (swapped host sender) stale members)
      (members.layout sender message) (members.received message) := by
  induction members with
  | nil => exact fun _ _ => reads_pure (ε := Fault) ()
  | field type shape _ rest ihRest =>
      intro message hfits
      exact (reads_field host sender stale type shape message.1 hfits.1).bind
        (ihRest message.2 hfits.2).map
  | message sub shape _ rest ihSub ihRest =>
      intro message hfits
      exact (reads_messages host sender ihSub shape message.1 hfits.1).bind
        (ihRest message.2 hfits.2).map

end Read

end RosRtems.Serialization
