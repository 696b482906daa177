import Mathlib.Order.Basic
import Mathlib.Data.Nat.Init

/-!
# Bounded unfolding of a `while` loop

`whileLoop` unfolds a loop at most `fuel` times; `none` means that the loop was
still running.  A loop terminates when some fuel gives a result, and the result
does not depend on which fuel that was.
-/

namespace RosRtems.WhileLoop

variable {A : Type*} {condition : A → Bool} {body : A → A}

/-- `while (condition) body`, unfolded at most `fuel` times. -/
def whileLoop (condition : A → Bool) (body : A → A) : ℕ → A → Option A
  | 0, _ => none
  | fuel + 1, value =>
      if condition value then whileLoop condition body fuel (body value)
      else some value

def Terminates (condition : A → Bool) (body : A → A) (value : A) : Prop :=
  ∃ fuel result, whileLoop condition body fuel value = some result

theorem whileLoop_exit {fuel : ℕ} {value result : A}
    (hresult : whileLoop condition body fuel value = some result) :
    condition result = false := by
  induction fuel generalizing value with
  | zero => simp [whileLoop] at hresult
  | succ fuel ih =>
      by_cases hcondition : condition value
      · rw [whileLoop, if_pos hcondition] at hresult
        exact ih hresult
      · rw [whileLoop, if_neg hcondition, Option.some.injEq] at hresult
        simpa [← hresult] using hcondition

/-- The invariant rule: what a turn of the loop keeps, the loop keeps. -/
theorem whileLoop_invariant {invariant : A → Prop}
    (hkeep : ∀ value, invariant value → condition value = true →
      invariant (body value))
    {fuel : ℕ} {value result : A} (hvalue : invariant value)
    (hresult : whileLoop condition body fuel value = some result) :
    invariant result := by
  induction fuel generalizing value with
  | zero => simp [whileLoop] at hresult
  | succ fuel ih =>
      by_cases hcondition : condition value
      · rw [whileLoop, if_pos hcondition] at hresult
        exact ih (hkeep value hvalue hcondition) hresult
      · rw [whileLoop, if_neg hcondition, Option.some.injEq] at hresult
        exact hresult ▸ hvalue

theorem whileLoop_mono {fuel more : ℕ} {value result : A} (hmore : fuel ≤ more)
    (hresult : whileLoop condition body fuel value = some result) :
    whileLoop condition body more value = some result := by
  induction fuel generalizing more value with
  | zero => simp [whileLoop] at hresult
  | succ fuel ih =>
      obtain ⟨more, rfl⟩ : ∃ extra, more = extra + 1 := ⟨more - 1, by omega⟩
      by_cases hcondition : condition value
      · rw [whileLoop, if_pos hcondition] at hresult ⊢
        exact ih (by omega) hresult
      · rw [whileLoop, if_neg hcondition] at hresult ⊢
        exact hresult

/-- The termination rule: a measure that every turn lowers bounds the number of
turns. -/
theorem terminates_of_measure {invariant : A → Prop} (measure : A → ℕ)
    (hkeep : ∀ value, invariant value → condition value = true →
      invariant (body value))
    (hlower : ∀ value, invariant value → condition value = true →
      measure (body value) < measure value)
    {value : A} (hvalue : invariant value) : Terminates condition body value := by
  suffices hbounded : ∀ bound value, invariant value → measure value < bound →
      ∃ result, whileLoop condition body bound value = some result from
    ⟨_, hbounded (measure value + 1) value hvalue (Nat.lt_succ_self _)⟩
  intro bound
  induction bound with
  | zero => intro value _ hmeasure; omega
  | succ bound ih =>
      intro value hvalue hmeasure
      by_cases hcondition : condition value
      · have hless := hlower value hvalue hcondition
        obtain ⟨result, hresult⟩ :=
          ih (body value) (hkeep value hvalue hcondition) (by omega)
        exact ⟨result, by rw [whileLoop, if_pos hcondition, hresult]⟩
      · exact ⟨value, by rw [whileLoop, if_neg hcondition]⟩

/-- A loop whose condition every turn leaves true never ends. -/
theorem not_terminates_of_stuck {invariant : A → Prop}
    (hcondition : ∀ value, invariant value → condition value = true)
    (hkeep : ∀ value, invariant value → invariant (body value))
    {value : A} (hvalue : invariant value) :
    ¬ Terminates condition body value := by
  rintro ⟨fuel, result, hresult⟩
  have hfinal : invariant result :=
    whileLoop_invariant (fun value hvalue _ => hkeep value hvalue) hvalue hresult
  exact Bool.false_ne_true
    ((whileLoop_exit hresult).symm.trans (hcondition result hfinal))

end RosRtems.WhileLoop
