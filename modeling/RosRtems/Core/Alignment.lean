import Mathlib.Algebra.Ring.Nat
import Mathlib.Algebra.Order.Ring.Nat
import Mathlib.Tactic.Common

/-!
# Alignment

The way to the next multiple of a power of two, by the masks that programs compute it
with.  That multiple is the least one that is not behind the offset, so that an offset which
is further on stays further on.
-/

namespace RosRtems.Alignment

/-- The number of bytes from an offset to the next multiple of `size`. -/
def padding (size offset : ℕ) : ℕ := (size - offset % size) &&& (size - 1)

variable {size offset other : ℕ}

theorem padding_eq_mod (hsize : size.isPowerOfTwo) :
    padding size offset = (size - offset % size) % size := by
  obtain ⟨k, rfl⟩ := hsize
  exact Nat.and_two_pow_sub_one_eq_mod _ k

theorem padding_lt (hsize : size.isPowerOfTwo) : padding size offset < size := by
  rw [padding_eq_mod hsize]
  exact Nat.mod_lt _ (Nat.pos_of_isPowerOfTwo hsize)

theorem padding_of_dvd (hsize : size.isPowerOfTwo) (hdvd : size ∣ offset) :
    padding size offset = 0 := by
  rw [padding_eq_mod hsize, Nat.mod_eq_zero_of_dvd hdvd, Nat.sub_zero, Nat.mod_self]

theorem dvd_add_padding (hsize : size.isPowerOfTwo) : size ∣ offset + padding size offset := by
  have hrest : offset % size < size := Nat.mod_lt _ (Nat.pos_of_isPowerOfTwo hsize)
  have hwhole : offset % size + (size - offset % size) = size := by omega
  rw [padding_eq_mod hsize]
  apply Nat.dvd_of_mod_eq_zero
  rw [Nat.add_mod_mod, ← Nat.mod_add_mod, hwhole, Nat.mod_self]

/-- The next multiple is the least one. -/
theorem add_padding_le (hsize : size.isPowerOfTwo) (hle : offset ≤ other) (hdvd : size ∣ other) :
    offset + padding size offset ≤ other := by
  have hnext : size ∣ offset + padding size offset := dvd_add_padding hsize
  obtain ⟨k, hk⟩ := hnext
  obtain ⟨m, rfl⟩ := hdvd
  have hshort : padding size offset < size := padding_lt hsize
  rw [hk]
  apply Nat.mul_le_mul_left
  by_contra hlong
  have hnext : size * (m + 1) ≤ size * k := Nat.mul_le_mul_left _ (by omega)
  rw [Nat.mul_succ] at hnext
  omega

theorem add_padding_mono (hsize : size.isPowerOfTwo) (hle : offset ≤ other) :
    offset + padding size offset ≤ other + padding size other :=
  add_padding_le hsize (hle.trans (Nat.le_add_right _ _)) (dvd_add_padding hsize)

end RosRtems.Alignment
