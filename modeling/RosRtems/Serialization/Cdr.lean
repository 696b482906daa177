import RosRtems.Core.ByteOrder
import RosRtems.Core.WireLayout

/-!
# The CDR stream

A stream is a buffer with a current position, which is cut there into what lies before and
what lies after.  Each call moves the position to a multiple of the size of its data, counted
from where the alignment began; it skips that work when data at least as large came last.
-/

namespace RosRtems.Serialization

open RosRtems.Alignment
open RosRtems.ByteOrder
open RosRtems.WireLayout

structure Cdr where
  before : List UInt8
  after : List UInt8
  alignPosition : ℕ
  lastDataSize : ℕ

inductive Fault
  | notEnoughMemory
  | badParam
  deriving DecidableEq

abbrev Stream := StateT Cdr (Except Fault)

abbrev WChar := BitVec (8 * 4)

namespace Cdr

/-- A stream at the beginning of a buffer that it cannot make larger. -/
def begin (buffer : List UInt8) : Cdr := ⟨[], buffer, 0, 0⟩

def position (cdr : Cdr) : ℕ := cdr.before.length

def offset (cdr : Cdr) : ℕ := cdr.position - cdr.alignPosition

def room (cdr : Cdr) : ℕ := cdr.after.length

/-- `Cdr::alignment`, the member, which leaves the way to the static one out where the last
data were at least as large. -/
def alignment (cdr : Cdr) (dataSize : ℕ) : ℕ :=
  if cdr.lastDataSize < dataSize then padding dataSize cdr.offset else 0

def makeAlign (cdr : Cdr) (align : ℕ) : Cdr :=
  { cdr with before := cdr.before ++ cdr.after.take align, after := cdr.after.drop align }

def put (cdr : Cdr) (bytes : List UInt8) : Cdr :=
  { cdr with before := cdr.before ++ bytes, after := cdr.after.drop bytes.length }

def resetAlignment (cdr : Cdr) : Cdr := { cdr with alignPosition := cdr.position }

end Cdr

/-! ## Serialization

A stream that is written to has the byte order of its machine. -/

/-- Data that are written as they stand in memory. -/
def serializeBytes (dataSize : ℕ) (bytes : List UInt8) : Stream Unit := fun cdr =>
  if bytes.length ≤ cdr.room then
    .ok ((), { cdr with lastDataSize := dataSize }.put bytes)
  else
    .error .notEnoughMemory

def serializeAligned (dataSize : ℕ) (bytes : List UInt8) : Stream Unit := fun cdr =>
  let align := cdr.alignment dataSize
  if bytes.length + align ≤ cdr.room then
    .ok ((), ({ cdr with lastDataSize := dataSize }.makeAlign align).put bytes)
  else
    .error .notEnoughMemory

def boolByte (b : Bool) : UInt8 := if b then 1 else 0

def serializeBool (b : Bool) : Stream Unit := serializeBytes 1 [boolByte b]

def serializeChar (c : UInt8) : Stream Unit := serializeBytes 1 [c]

section Host

variable (host : Endianness)

/-- `Cdr::serialize` of the integers and floating point numbers of 2, 4 and 8 bytes. -/
def serializeScalar (size value : ℕ) : Stream Unit := serializeAligned size (host.bytes size value)

def serializeArrayBool (bs : List Bool) : Stream Unit := serializeBytes 1 (bs.map boolByte)

def serializeArrayChar (cs : List UInt8) : Stream Unit := serializeBytes 1 cs

def serializeArrayScalar (size : ℕ) (values : List (BitVec (8 * size))) : Stream Unit :=
  if values = [] then
    pure ()
  else
    serializeAligned size (values.flatMap fun value => host.bytes size value.toNat)

/-- The string that `c_str` points to. -/
def cString (s : List UInt8) : List UInt8 := s.takeWhile (· ≠ 0)

def serializeString (s : List UInt8) : Stream Unit :=
  let length := ((cString s).length + 1) % 2 ^ 32
  if 0 < length then do
    serializeScalar host 4 length
    serializeBytes 1 ((cString s ++ [0]).take length)
  else
    serializeScalar host 4 length

def wideCString (s : List WChar) : List WChar := s.takeWhile (· ≠ 0)

def serializeWString (s : List WChar) : Stream Unit :=
  let wstrlen := (wideCString s).length
  let bytesLength := wstrlen * 4 % 2 ^ 32
  if 0 < bytesLength then do
    serializeScalar host 4 (wstrlen % 2 ^ 32)
    serializeBytes 4
      (((wideCString s).flatMap fun c => host.bytes 4 c.toNat).take bytesLength)
  else
    serializeScalar host 4 bytesLength

/-- `Cdr::serialize` of a vector. -/
def serializeVector {α : Type} (serializeArray : List α → Stream Unit) (values : List α) :
    Stream Unit := do
  serializeScalar host 4 (values.length % 2 ^ 32)
  serializeArray values

/-- Without a parameter list. -/
def encapsulationKind : Endianness → UInt8
  | .big => 0
  | .little => 1

def serializeHeader : Stream Unit := do
  serializeChar 0
  serializeChar (encapsulationKind host)
  serializeScalar host 2 0

/-- `Cdr::serialize_encapsulation`. -/
def serializeEncapsulation : Stream Unit := do
  serializeHeader host
  modify Cdr.resetAlignment

end Host

/-! ## Deserialization -/

/-- `m_lastPosition - m_currentPosition` is tested before anything is read. -/
def ensure (size : ℕ) : Stream Unit := fun cdr =>
  if size ≤ cdr.room then .ok ((), cdr) else .error .notEnoughMemory

def deserializeBytes (dataSize n : ℕ) : Stream (List.Vector UInt8 n) := fun cdr =>
  if hroom : n ≤ cdr.room then
    .ok (⟨cdr.after.take n, List.length_take_of_le hroom⟩,
      { cdr with lastDataSize := dataSize }.makeAlign n)
  else
    .error .notEnoughMemory

def deserializeAligned (dataSize size : ℕ) : Stream (List UInt8) := fun cdr =>
  let align := cdr.alignment dataSize
  if size + align ≤ cdr.room then
    .ok ((cdr.after.drop align).take size,
      { cdr with lastDataSize := dataSize }.makeAlign (align + size))
  else
    .error .notEnoughMemory

/-- `value == 1`, where any value but 0 and 1 is refused. -/
def boolsOf (bytes : List UInt8) : Stream (List Bool) :=
  if bytes.all fun byte => byte == 0 || byte == 1 then
    pure (bytes.map fun byte => byte == 1)
  else
    throw .badParam

def deserializeBool : Stream Bool := do
  let byte ← deserializeBytes 1 1
  if byte.head = 1 then
    pure true
  else if byte.head = 0 then
    pure false
  else
    throw .badParam

def deserializeChar : Stream UInt8 := do
  let byte ← deserializeBytes 1 1
  pure byte.head

/-- An element whose byte is neither 0 nor 1 keeps the value that it had before, here
given by the position of the byte. -/
def boolsAt (stale : ℕ → Bool) (position : ℕ) {n : ℕ} (bytes : List.Vector UInt8 n) :
    List.Vector Bool n :=
  ⟨bytes.toList.mapIdx fun i byte =>
    if byte = 1 then true else if byte = 0 then false else stale (position + i),
    by rw [List.length_mapIdx, bytes.toList_length]⟩

def deserializeArrayBool (stale : ℕ → Bool) (n : ℕ) : Stream (List.Vector Bool n) := do
  let cdr ← get
  let bytes ← deserializeBytes 1 n
  pure (boolsAt stale cdr.position bytes)

def deserializeArrayChar (n : ℕ) : Stream (List.Vector UInt8 n) := deserializeBytes 1 n

section Host

variable (host : Endianness) (swapBytes : Bool)

def loaded (size : ℕ) (bytes : List UInt8) : BitVec (8 * size) :=
  BitVec.ofNat _ (host.value (if swapBytes then bytes.reverse else bytes))

def deserializeScalar (size : ℕ) : Stream (BitVec (8 * size)) := do
  let bytes ← deserializeAligned size size
  pure (loaded host swapBytes size bytes)

/-- The elements of an array one after the other. -/
def elements (size : ℕ) : (n : ℕ) → List UInt8 → List.Vector (BitVec (8 * size)) n
  | 0, _ => .nil
  | n + 1, bytes => loaded host swapBytes size (bytes.take size) ::ᵥ
      elements size n (bytes.drop size)

def deserializeArrayScalar (size n : ℕ) : Stream (List.Vector (BitVec (8 * size)) n) :=
  if n = 0 then
    pure (elements host swapBytes size n [])
  else do
    let bytes ← deserializeAligned size (size * n)
    pure (elements host swapBytes size n bytes)

def deserializeBoolSequence : Stream (List Bool) := do
  let seqLength ← deserializeScalar host swapBytes 4
  let bytes ← deserializeBytes 1 seqLength.toNat
  boolsOf bytes.toList

/-- `Cdr::deserialize` of a vector of anything but bool. -/
def deserializeVector {α : Type} (deserializeArray : (n : ℕ) → Stream (List.Vector α n)) :
    Stream (List α) := do
  let seqLength ← deserializeScalar host swapBytes 4
  if seqLength = 0 then
    pure []
  else do
    ensure seqLength.toNat
    let values ← deserializeArray seqLength.toNat
    pure values.toList

/-- A zero at the end is not part of a string. -/
def withoutTerminator {α : Type} [DecidableEq α] [OfNat α 0] (s : List α) : List α :=
  if s.getLast? = some 0 then s.dropLast else s

/-- `Cdr::readString`. -/
def deserializeString : Stream (List UInt8) := do
  let length ← deserializeScalar host swapBytes 4
  if length = 0 then
    pure []
  else do
    let s ← deserializeBytes 1 length.toNat
    pure (withoutTerminator s.toList)

/-- `Cdr::readWString`, where the length in bytes has the width of the length. -/
def deserializeWString : Stream (List WChar) := do
  let length ← deserializeScalar host swapBytes 4
  let bytesLength := length.toNat * 4 % 2 ^ 32
  if bytesLength = 0 then
    pure []
  else do
    ensure bytesLength
    modify fun cdr => { cdr with lastDataSize := 4 }
    let s ← times (deserializeScalar host swapBytes 4) length.toNat
    pure (withoutTerminator s.toList)

end Host

/-- With whether the bytes are to be swapped from there on. -/
def readHeader (host : Endianness) : Stream Bool := do
  let dummy ← deserializeChar
  if dummy ≠ 0 then
    throw .badParam
  let kind ← deserializeChar
  let swapBytes := decide (encapsulationKind host ≠ kind &&& 1)
  if kind &&& ~~~(1 ||| 2) ≠ 0 then
    throw .badParam
  let _ ← deserializeScalar host swapBytes 2
  pure swapBytes

/-- `Cdr::read_encapsulation`. -/
def readEncapsulation (host : Endianness) : Stream Bool := do
  let swapBytes ← readHeader host
  modify Cdr.resetAlignment
  pure swapBytes

end RosRtems.Serialization
