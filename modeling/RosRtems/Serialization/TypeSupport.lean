import RosRtems.Serialization.Cdr

/-!
# The type support

A message type is described to the type support by its members, and these descriptions
drive everything: what a message is written as, how it is read, and how many bytes are set
aside for it.
-/

namespace RosRtems.Serialization

open RosRtems.ByteOrder
open RosRtems.Alignment
open RosRtems.WireLayout

/-! ## Types and messages -/

inductive ScalarKind
  | int16
  | uint16
  | int32
  | uint32
  | float32
  | int64
  | uint64
  | float64
  deriving DecidableEq

/-- `sizeof` of the type. -/
def ScalarKind.size : ScalarKind → ℕ
  | int16 | uint16 => 2
  | int32 | uint32 | float32 => 4
  | int64 | uint64 | float64 => 8

/-- `type_id_` with `string_upper_bound_`; an octet is a byte, uint8, char or int8. -/
inductive FieldType
  | bool
  | octet
  | scalar (kind : ScalarKind)
  | string (upperBound : ℕ)
  | wstring (upperBound : ℕ)
  deriving DecidableEq

/-- A floating point number is its bits. -/
abbrev FieldType.Value : FieldType → Type
  | bool => Bool
  | octet => UInt8
  | scalar kind => BitVec (8 * kind.size)
  | string _ => List UInt8
  | wstring _ => List (BitVec 16)

/-- What `is_array_`, `array_size_` and `is_upper_bound_` say together. -/
inductive Shape
  | single
  | array (size : ℕ) (positive : 0 < size)
  | bounded (size : ℕ) (positive : 0 < size)
  | unbounded

namespace Shape

def isArray : Shape → Bool
  | single => false
  | _ => true

def arraySize : Shape → ℕ
  | single | unbounded => 0
  | array size _ | bounded size _ => size

def isUpperBound : Shape → Bool
  | bounded _ _ => true
  | _ => false

abbrev Holder (α : Type) : Shape → Type
  | single => α
  | array size _ => List.Vector α size
  | bounded _ _ | unbounded => List α

end Shape

/-- The members of a message in order, each with its offset in memory. -/
inductive Members
  | nil
  | field (type : FieldType) (shape : Shape) (offset : ℕ) (rest : Members)
  | message (sub : Members) (shape : Shape) (offset : ℕ) (rest : Members)

namespace Members

abbrev Record : Members → Type
  | nil => Unit
  | field type shape _ rest => shape.Holder type.Value × rest.Record
  | message sub shape _ rest => shape.Holder sub.Record × rest.Record

def memberCount : Members → ℕ
  | nil => 0
  | field _ _ _ rest | message _ _ _ rest => rest.memberCount + 1

end Members

/-! ## Wide strings -/

def u16stringToWstring (s : List (BitVec 16)) : List WChar := s.map (BitVec.setWidth _)

def wstringToU16string (s : List WChar) : List (BitVec 16) := s.map (BitVec.setWidth _)

/-! ## Serialization -/

section Serialize

variable (host : Endianness)

/-- `Cdr::operator <<` at the type of the field. -/
def serializeValue : (type : FieldType) → type.Value → Stream Unit
  | .bool, b => serializeBool b
  | .octet, c => serializeChar c
  | .scalar kind, value => serializeScalar host kind.size (BitVec.toNat value)
  | .string _, s => serializeString host s
  | .wstring _, s => serializeWString host (u16stringToWstring s)

def serializeArray : (type : FieldType) → List type.Value → Stream Unit
  | .bool, bs => serializeArrayBool bs
  | .octet, cs => serializeArrayChar cs
  | .scalar kind, values => serializeArrayScalar host kind.size values
  | .string bound, ss => ss.forM (serializeValue host (.string bound))
  | .wstring bound, ss => ss.forM (serializeValue host (.wstring bound))

def serializeField (type : FieldType) : (shape : Shape) → shape.Holder type.Value → Stream Unit
  | .single, value => serializeValue host type value
  | .array _ _, values => serializeArray host type values.toList
  | .bounded _ _, values | .unbounded, values =>
      serializeVector host (serializeArray host type) values

/-- The messages that a member holds. -/
def serializeMessages {α : Type} (serialize : α → Stream Unit) :
    (shape : Shape) → shape.Holder α → Stream Unit
  | .single, message => serialize message
  | .array _ _, messages => messages.toList.forM serialize
  | .bounded _ _, messages | .unbounded, messages => do
      serializeScalar host 4 (messages.length % 2 ^ 32)
      messages.forM serialize

def serializeROSmessage : (members : Members) → members.Record → Stream Unit
  | .nil, _ => pure ()
  | .field type shape _ rest, message => do
      serializeField host type shape message.1
      serializeROSmessage rest message.2
  | .message sub shape _ rest, message => do
      serializeMessages host (serializeROSmessage sub) shape message.1
      serializeROSmessage rest message.2

/-- A message without members is a byte all the same. -/
def serializeBody (members : Members) (message : members.Record) : Stream Unit :=
  if members.memberCount ≠ 0 then
    serializeROSmessage host members message
  else
    serializeChar 0

/-- `TypeSupport::serialize` into the payload, with what of the payload is used. -/
def serialize (members : Members) (message : members.Record) (payload : List UInt8) :
    Except Fault (List UInt8) :=
  let writing : Stream Unit := do
    serializeEncapsulation host
    serializeBody host members message
  (writing (.begin payload)).map fun result => result.2.before

end Serialize

/-! ## Deserialization -/

section Deserialize

variable (host : Endianness) (swapBytes : Bool) (stale : ℕ → Bool)

/-- `Cdr::operator >>` at the type of the field. -/
def deserializeValue : (type : FieldType) → Stream type.Value
  | .bool => deserializeBool
  | .octet => deserializeChar
  | .scalar kind => deserializeScalar host swapBytes kind.size
  | .string _ => deserializeString host swapBytes
  | .wstring _ => do
      let s ← deserializeWString host swapBytes
      pure (wstringToU16string s)

def deserializeArray : (type : FieldType) → (n : ℕ) → Stream (List.Vector type.Value n)
  | .bool, n => deserializeArrayBool stale n
  | .octet, n => deserializeArrayChar n
  | .scalar kind, n => deserializeArrayScalar host swapBytes kind.size n
  | .string bound, n => times (deserializeValue host swapBytes (.string bound)) n
  | .wstring bound, n => times (deserializeValue host swapBytes (.wstring bound)) n

/-- A count, and then as many values. -/
def deserializeMany {α : Type} (deserialize : Stream α) : Stream (List α) := do
  let size ← deserializeScalar host swapBytes 4
  let values ← times deserialize size.toNat
  pure values.toList

/-- The bound of a sequence is not looked at. -/
def deserializeSequence : (type : FieldType) → Stream (List type.Value)
  | .bool => deserializeBoolSequence host swapBytes
  | .wstring bound =>
      deserializeMany host swapBytes (deserializeValue host swapBytes (.wstring bound))
  | .octet => deserializeVector host swapBytes (deserializeArray host swapBytes stale .octet)
  | .scalar kind =>
      deserializeVector host swapBytes (deserializeArray host swapBytes stale (.scalar kind))
  | .string bound =>
      deserializeVector host swapBytes (deserializeArray host swapBytes stale (.string bound))

def deserializeField (type : FieldType) : (shape : Shape) → Stream (shape.Holder type.Value)
  | .single => deserializeValue host swapBytes type
  | .array size _ => deserializeArray host swapBytes stale type size
  | .bounded _ _ | .unbounded => deserializeSequence host swapBytes stale type

def deserializeMessages {α : Type} (deserialize : Stream α) :
    (shape : Shape) → Stream (shape.Holder α)
  | .single => deserialize
  | .array size _ => times deserialize size
  | .bounded _ _ | .unbounded => deserializeMany host swapBytes deserialize

def deserializeROSmessage : (members : Members) → Stream members.Record
  | .nil => pure ()
  | .field type shape _ rest => do
      let held ← deserializeField host swapBytes stale type shape
      let others ← deserializeROSmessage rest
      pure (held, others)
  | .message sub shape _ rest => do
      let held ← deserializeMessages host swapBytes (deserializeROSmessage sub) shape
      let others ← deserializeROSmessage rest
      pure (held, others)

def deserializeBody (members : Members) : Stream members.Record := do
  let _dump ← if members.memberCount = 0 then deserializeChar else pure 0
  deserializeROSmessage host swapBytes stale members

end Deserialize

def readPayload (host : Endianness) (stale : ℕ → Bool) (members : Members) :
    Stream members.Record := do
  let swapBytes ← readEncapsulation host
  deserializeBody host swapBytes stale members

/-- `TypeSupport::deserialize`, which fails with the exceptions that are caught there. -/
def deserialize (host : Endianness) (stale : ℕ → Bool) (members : Members)
    (payload : List UInt8) : Except Fault members.Record :=
  (readPayload host stale members (.begin payload)).map Prod.fst

/-! ## Sizes -/

section Size

/-- `current_alignment` behind data of items of a size. -/
def alignedEnd (itemSize total current : ℕ) : ℕ := current + padding itemSize current + total

def nextFieldAlign {α : Type} (itemSize : ℕ) : (shape : Shape) → shape.Holder α → ℕ → ℕ
  | .single, _, current => alignedEnd itemSize itemSize current
  | .array size _, _, current => alignedEnd itemSize (itemSize * size) current
  | .bounded _ _, data, current | .unbounded, data, current =>
      let current := alignedEnd 4 4 current
      if data.isEmpty then current else alignedEnd itemSize (itemSize * data.length) current

def stringEnd {α : Type} (characterSize current : ℕ) (s : List α) : ℕ :=
  alignedEnd 4 4 current + characterSize * (s.length + 1)

def nextFieldAlignString {α : Type} (characterSize : ℕ) :
    (shape : Shape) → shape.Holder (List α) → ℕ → ℕ
  | .single, s, current => stringEnd characterSize current s
  | .array _ _, ss, current => ss.toList.foldl (stringEnd characterSize) current
  | .bounded _ _, ss, current | .unbounded, ss, current =>
      ss.foldl (stringEnd characterSize) (alignedEnd 4 4 current)

def estimateField : (type : FieldType) → (shape : Shape) → shape.Holder type.Value → ℕ → ℕ
  | .bool, shape, held | .octet, shape, held => nextFieldAlign 1 shape held
  | .scalar kind, shape, held => nextFieldAlign kind.size shape held
  | .string _, shape, held => nextFieldAlignString 1 shape held
  | .wstring _, shape, held => nextFieldAlignString 4 shape held

def estimateMessages {α : Type} (estimate : α → ℕ → ℕ) : (shape : Shape) → shape.Holder α → ℕ → ℕ
  | .single, message, current => current + estimate message current
  | .array _ _, messages, current =>
      messages.toList.foldl (fun current message => current + estimate message current) current
  | .bounded _ _, messages, current | .unbounded, messages, current =>
      messages.foldl (fun current message => current + estimate message current)
        (alignedEnd 4 4 current)

/-- The loop over the members in `getEstimatedSerializedSize`, which takes the alignment it
began with off in the end. -/
def estimateMembers : (members : Members) → members.Record → ℕ → ℕ
  | .nil, _, current => current
  | .field type shape _ rest, message, current =>
      estimateMembers rest message.2 (estimateField type shape message.1 current)
  | .message sub shape _ rest, message, current =>
      estimateMembers rest message.2
        (estimateMessages (fun held start => estimateMembers sub held start - start) shape
          message.1 current)

/-- Where `calculateMaxSerializedSize` stands, with the flags that it clears. -/
structure Sizing where
  currentAlignment : ℕ
  lastMemberSize : ℕ
  lastOffset : ℕ
  maxSizeBound : Bool
  isPlain : Bool

namespace Sizing

def arraySize (shape : Shape) : ℕ := if shape.isArray then shape.arraySize else 1

/-- What is done for the shape of a member before its type is looked at. -/
def enter (shape : Shape) (offset : ℕ) (s : Sizing) : Sizing :=
  let unboundedArray := shape.isArray && arraySize shape == 0
  let anySequence := shape.isArray && (arraySize shape == 0 || shape.isUpperBound)
  { currentAlignment :=
      if anySequence then alignedEnd 4 4 s.currentAlignment else s.currentAlignment
    lastMemberSize := 0
    lastOffset := offset
    maxSizeBound := s.maxSizeBound && !unboundedArray
    isPlain := s.isPlain && !anySequence }

/-- Items of one size; those of a single byte are not aligned. -/
def items (itemSize n : ℕ) (s : Sizing) : Sizing :=
  { s with
    currentAlignment := alignedEnd itemSize (n * itemSize) s.currentAlignment
    lastMemberSize := n * itemSize }

def bytes (n : ℕ) (s : Sizing) : Sizing :=
  { s with currentAlignment := s.currentAlignment + n, lastMemberSize := n }

def strings (characterSize upperBound n : ℕ) (s : Sizing) : Sizing :=
  { s with
    currentAlignment :=
      (fun current => alignedEnd 4 4 current + characterSize * (upperBound + 1))^[n]
        s.currentAlignment
    maxSizeBound := false
    isPlain := false }

def field (type : FieldType) (n : ℕ) (s : Sizing) : Sizing :=
  match type with
  | .bool | .octet => s.bytes n
  | .scalar kind => s.items kind.size n
  | .string upperBound => s.strings 1 upperBound n
  | .wstring upperBound => s.strings 4 upperBound n

/-- What a type whose members have been gone through leaves behind; of where they lie in
memory, only the last one is looked at. -/
def leave (initial : ℕ) (s : Sizing) : Sizing :=
  let size := s.currentAlignment - initial
  if 0 < s.lastMemberSize && s.isPlain then
    { s with isPlain := s.lastOffset + s.lastMemberSize == size }
  else
    s

/-- One message of a member. -/
def nested (inner : Sizing → Sizing) (s : Sizing) : Sizing :=
  let done := leave s.currentAlignment (inner { s with lastMemberSize := 0, lastOffset := 0 })
  { s with
    currentAlignment := s.currentAlignment + (done.currentAlignment - s.currentAlignment)
    lastMemberSize := s.lastMemberSize + (done.currentAlignment - s.currentAlignment)
    maxSizeBound := done.maxSizeBound
    isPlain := done.isPlain }

/-- The loop over the members in `calculateMaxSerializedSize`. -/
def members : Members → Sizing → Sizing
  | .nil, s => s
  | .field type shape offset rest, s =>
      members rest ((s.enter shape offset).field type (arraySize shape))
  | .message sub shape offset rest, s =>
      members rest ((nested (members sub))^[arraySize shape] (s.enter shape offset))

end Sizing

/-- The constructor of `MessageTypeSupport`, where every type is bounded and plain at
first. -/
def typeSizing (members : Members) : Sizing :=
  if members.memberCount ≠ 0 then
    Sizing.leave 0 (Sizing.members members ⟨0, 0, 0, true, true⟩)
  else
    ⟨1, 0, 0, true, true⟩

/-- `m_typeSize`, in 32 bits. -/
def typeSize (members : Members) : ℕ :=
  let size := (4 + (typeSizing members).currentAlignment) % 2 ^ 32
  (size + 3) % 2 ^ 32 / 4 * 4

/-- `getEstimatedSerializedSize` of the type support of a message type. -/
def getEstimatedSerializedSize (members : Members) (message : members.Record) : ℕ :=
  if (typeSizing members).isPlain then
    typeSize members
  else if members.memberCount ≠ 0 then
    4 + (estimateMembers members message 0 - 0)
  else
    5

end Size

end RosRtems.Serialization
