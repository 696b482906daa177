import Mathlib.Order.Bounds.Basic
import Mathlib.Data.Int.Order.Basic
import Mathlib.Tactic.Linarith
import Mathlib.Tactic.Ring

/-!
# Periodic instants

The instants at whole periods after a start.  The next of them after a given instant is
the one that lies at most a period ahead, so whoever adds whole periods until the
instant is passed, and not more, is at the next one.
-/

namespace RosRtems.PeriodicGrid

variable {start period now time next : ℤ}

/-- An instant that lies one or more whole periods after the start. -/
def OnGrid (start period time : ℤ) : Prop :=
  ∃ k : ℕ, 1 ≤ k ∧ time = start + k * period

/-- The first instant of the grid that is later than `now`. -/
def IsNext (start period now next : ℤ) : Prop :=
  IsLeast {time | OnGrid start period time ∧ now < time} next

theorem onGrid_first (start period : ℤ) : OnGrid start period (start + period) :=
  ⟨1, le_rfl, by simp⟩

theorem OnGrid.add_turns (hgrid : OnGrid start period time) (turns : ℕ) :
    OnGrid start period (time + turns * period) := by
  obtain ⟨k, hk, rfl⟩ := hgrid
  refine ⟨k + turns, by omega, ?_⟩
  push_cast
  ring

/-- Two instants of the grid less than a period apart are the same. -/
theorem OnGrid.le_of_lt_add (hperiod : 0 < period) (hnext : OnGrid start period next)
    (htime : OnGrid start period time) (hnear : next < time + period) : next ≤ time := by
  obtain ⟨k, -, rfl⟩ := hnext
  obtain ⟨m, -, rfl⟩ := htime
  have hless : (k : ℤ) < m + 1 := by
    by_contra hfar
    have hmul := mul_le_mul_of_nonneg_right (not_lt.mp hfar) hperiod.le
    linarith [add_mul (m : ℤ) 1 period]
  have hle : (k : ℤ) ≤ m := by omega
  linarith [mul_le_mul_of_nonneg_right hle hperiod.le]

/-- The next instant is the one at most a period ahead. -/
theorem OnGrid.isNext (hperiod : 0 < period) (hgrid : OnGrid start period next)
    (hfuture : now < next) (hnear : next ≤ now + period) :
    IsNext start period now next := by
  refine ⟨⟨hgrid, hfuture⟩, fun time ⟨htime, hlater⟩ => ?_⟩
  exact hgrid.le_of_lt_add hperiod htime (by linarith)

end RosRtems.PeriodicGrid
