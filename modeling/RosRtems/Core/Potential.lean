import Mathlib.Algebra.BigOperators.Group.Finset.Piecewise
import Mathlib.Data.Fintype.Basic

/-!
# Sums over the parties of a system

A step of one party changes its own summand of a potential, or its own place in a
count, and leaves the rest alone.
-/

namespace RosRtems.Potential

variable {Index : Type*} [DecidableEq Index]

/-- Two sums whose summands differ at one place. -/
theorem sum_add_of_eq_off {places : Finset Index} {f g : Index → ℕ} {i : Index}
    (hmem : i ∈ places) (hoff : ∀ j, j ≠ i → g j = f j) :
    ∑ j ∈ places, g j + f i = ∑ j ∈ places, f j + g i := by
  have hrest : ∑ j ∈ places.erase i, g j = ∑ j ∈ places.erase i, f j :=
    Finset.sum_congr rfl fun j hj => hoff j (Finset.ne_of_mem_erase hj)
  rw [← Finset.add_sum_erase places g hmem, ← Finset.add_sum_erase places f hmem, hrest]
  omega

/-- The number of parties with a property, when one of them moves. -/
theorem card_filter_update [Fintype Index] {Place : Type*} (has : Place → Prop)
    [DecidablePred has] (place : Index → Place) (i : Index) (moved : Place) :
    (Finset.univ.filter fun j => has (Function.update place i moved j)).card +
        (if has (place i) then 1 else 0) =
      (Finset.univ.filter fun j => has (place j)).card + (if has moved then 1 else 0) := by
  simp only [Finset.card_filter]
  have hsum := sum_add_of_eq_off (f := fun j => if has (place j) then 1 else 0)
    (g := fun j => if has (Function.update place i moved j) then 1 else 0)
    (Finset.mem_univ i) (fun j hj => by rw [Function.update_of_ne hj])
  simpa only [Function.update_self] using hsum

end RosRtems.Potential
