import Mathlib.Algebra.Ring.Nat
import Mathlib.Algebra.Order.Ring.Nat
import Mathlib.Tactic.Common

/-!
# Byte order

A number as the bytes that a machine of either byte order keeps in its memory.  Either
machine gets back what it stored, and one order is the other one read backwards.
-/

namespace RosRtems.ByteOrder

inductive Endianness
  | big
  | little
  deriving DecidableEq

/-- The `size` lowest bytes of a number, the lowest first. -/
def littleEndian : ℕ → ℕ → List UInt8
  | 0, _ => []
  | size + 1, value => UInt8.ofNat value :: littleEndian size (value / 256)

def ofLittleEndian : List UInt8 → ℕ
  | [] => 0
  | byte :: bytes => byte.toNat + 256 * ofLittleEndian bytes

@[simp]
theorem length_littleEndian (size value : ℕ) : (littleEndian size value).length = size := by
  induction size generalizing value with
  | zero => rfl
  | succ size ih => rw [littleEndian, List.length_cons, ih]

theorem ofLittleEndian_littleEndian {size value : ℕ} (hvalue : value < 256 ^ size) :
    ofLittleEndian (littleEndian size value) = value := by
  induction size generalizing value with
  | zero =>
      rw [pow_zero, Nat.lt_one_iff] at hvalue
      rw [hvalue]
      rfl
  | succ size ih =>
      have hrest : value / 256 < 256 ^ size := by
        rw [pow_succ'] at hvalue
        exact Nat.div_lt_of_lt_mul hvalue
      rw [littleEndian, ofLittleEndian, ih hrest, UInt8.toNat_ofNat']
      exact Nat.mod_add_div value 256

namespace Endianness

variable (order : Endianness)

def bytes (size value : ℕ) : List UInt8 :=
  match order with
  | big => (littleEndian size value).reverse
  | little => littleEndian size value

def value (bytes : List UInt8) : ℕ :=
  match order with
  | big => ofLittleEndian bytes.reverse
  | little => ofLittleEndian bytes

variable {order}

@[simp]
theorem length_bytes (size value : ℕ) : (order.bytes size value).length = size := by
  cases order <;> simp [bytes]

theorem value_bytes {size value : ℕ} (hvalue : value < 256 ^ size) :
    order.value (order.bytes size value) = value := by
  cases order with
  | big => rw [bytes, Endianness.value, List.reverse_reverse, ofLittleEndian_littleEndian hvalue]
  | little => exact ofLittleEndian_littleEndian hvalue

theorem reverse_bytes {other : Endianness} (hother : other ≠ order) (size value : ℕ) :
    (order.bytes size value).reverse = other.bytes size value := by
  cases order <;> cases other <;> simp_all [bytes]

/-- What a machine of one order gets from the bytes of the other one, once it has turned
them round. -/
theorem value_swapped (order sender : Endianness) {size value : ℕ} (hvalue : value < 256 ^ size) :
    order.value (if sender = order then sender.bytes size value
      else (sender.bytes size value).reverse) = value := by
  split
  case isTrue hsame => rw [hsame, value_bytes hvalue]
  case isFalse hother => rw [reverse_bytes (Ne.symm hother), value_bytes hvalue]

end Endianness

end RosRtems.ByteOrder
