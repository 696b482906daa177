import Mathlib.Logic.ExistsUnique
import Mathlib.Logic.Function.Basic

/-!
# Flags of resources and their holders

A resource that is exclusive is marked when somebody takes it, and the mark is removed when
he releases it.  The marks are exact as long as nobody lets go of a resource without
releasing it.
-/

namespace RosRtems.Claims

variable {Holder Resource : Type*}

structure Marks (Holder Resource : Type*) where
  free : Resource → Bool
  holds : Holder → Option Resource

namespace Marks

/-- Resources that are not exclusive are free; the others are marked when they are held,
by one holder. -/
structure Exact (exclusive : Resource → Bool) (c : Marks Holder Resource) : Prop where
  shared : ∀ resource, exclusive resource = false → c.free resource = true
  marked : ∀ resource, exclusive resource = true →
    (c.free resource = false ↔ ∃ holder, c.holds holder = some resource)
  single : ∀ resource, exclusive resource = true → ∀ holder other,
    c.holds holder = some resource → c.holds other = some resource → holder = other

variable {exclusive : Resource → Bool} {c : Marks Holder Resource} {holder : Holder}
  {resource : Resource}

theorem Exact.existsUnique_iff (hc : c.Exact exclusive)
    (hexclusive : exclusive resource = true) :
    c.free resource = false ↔ ∃! holder, c.holds holder = some resource := by
  refine (hc.marked resource hexclusive).trans ⟨?_, ExistsUnique.exists⟩
  rintro ⟨holder, hheld⟩
  exact ⟨holder, hheld, fun other hother => hc.single resource hexclusive other holder hother hheld⟩

/-- Where nobody holds anything, all resources are free. -/
theorem Exact.free_of_unheld (hc : c.Exact exclusive) (hnobody : ∀ holder, c.holds holder = none)
    (resource : Resource) : c.free resource = true := by
  cases hexclusive : exclusive resource with
  | false => exact hc.shared resource hexclusive
  | true =>
      by_contra hmarked
      obtain ⟨holder, hheld⟩ := (hc.marked resource hexclusive).mp (by simpa using hmarked)
      rw [hnobody holder] at hheld
      cases hheld

theorem exact_of_unclaimed (hfree : ∀ resource, c.free resource = true)
    (hnobody : ∀ holder, c.holds holder = none) : c.Exact exclusive where
  shared := fun resource _ => hfree resource
  marked := by simp [hfree, hnobody]
  single := by simp [hnobody]

section Booking

variable [DecidableEq Holder]

theorem update_holds_iff {before : Holder → Option Resource} {next : Option Resource}
    {other : Holder} : Function.update before holder next other = some resource ↔
      (other = holder ∧ next = some resource) ∨
        (other ≠ holder ∧ before other = some resource) := by
  by_cases hsame : other = holder
  · simp [hsame]
  · simp [hsame]

/-- A free resource is taken by somebody who holds nothing. -/
theorem Exact.claim [DecidableEq Resource] (hc : c.Exact exclusive)
    (hempty : c.holds holder = none) (hfree : c.free resource = true) :
    Exact exclusive
      ⟨if exclusive resource then Function.update c.free resource false else c.free,
        Function.update c.holds holder (some resource)⟩ := by
  have hnobody : exclusive resource = true → ∀ other, c.holds other ≠ some resource := by
    intro hexclusive other hheld
    have hmarked := (hc.marked resource hexclusive).mpr ⟨other, hheld⟩
    rw [hfree] at hmarked
    cases hmarked
  have hflag : ∀ wanted, exclusive wanted = true → wanted ≠ resource →
      (if exclusive resource then Function.update c.free resource false else c.free) wanted =
        c.free wanted := by
    intro wanted _ hother
    split
    · exact Function.update_of_ne hother _ _
    · rfl
  constructor
  · intro wanted hshared
    have hkept := hc.shared wanted hshared
    split
    · rename_i hexclusive
      have hother : wanted ≠ resource := by
        rintro rfl
        rw [hexclusive] at hshared
        cases hshared
      exact (Function.update_of_ne hother _ _).trans hkept
    · exact hkept
  · intro wanted hexclusive
    by_cases hsame : wanted = resource
    · subst hsame
      simp only [hexclusive, if_true, Function.update_self, true_iff]
      exact ⟨holder, Function.update_self _ _ _⟩
    · simp only [hflag wanted hexclusive hsame, hc.marked wanted hexclusive, update_holds_iff,
        Option.some.injEq]
      constructor
      · rintro ⟨other, hheld⟩
        refine ⟨other, .inr ⟨?_, hheld⟩⟩
        rintro rfl
        rw [hempty] at hheld
        cases hheld
      · rintro ⟨other, ⟨-, hwanted⟩ | ⟨-, hheld⟩⟩
        · exact absurd hwanted.symm hsame
        · exact ⟨other, hheld⟩
  · intro wanted hexclusive first second hfirst hsecond
    rcases update_holds_iff.mp hfirst with ⟨rfl, hwanted⟩ | ⟨-, hheld⟩
    · obtain rfl := Option.some.inj hwanted
      rcases update_holds_iff.mp hsecond with ⟨rfl, -⟩ | ⟨-, hheld⟩
      · rfl
      · exact absurd hheld (hnobody hexclusive second)
    · rcases update_holds_iff.mp hsecond with ⟨rfl, hwanted⟩ | ⟨-, hheld'⟩
      · obtain rfl := Option.some.inj hwanted
        exact absurd hheld (hnobody hexclusive first)
      · exact hc.single wanted hexclusive first second hheld hheld'

/-- The holder releases what he holds. -/
theorem Exact.release [DecidableEq Resource] (hc : c.Exact exclusive)
    (hheld : c.holds holder = some resource) :
    Exact exclusive
      ⟨Function.update c.free resource true, Function.update c.holds holder none⟩ := by
  constructor
  · intro wanted hshared
    by_cases hsame : wanted = resource
    · subst hsame
      exact Function.update_self _ _ _
    · simpa only [Function.update_of_ne hsame] using hc.shared wanted hshared
  · intro wanted hexclusive
    by_cases hsame : wanted = resource
    · subst hsame
      simp only [Function.update_self, Bool.true_eq_false, false_iff, not_exists]
      intro other hother
      rcases update_holds_iff.mp hother with ⟨-, hnone⟩ | ⟨hne, hother⟩
      · cases hnone
      · exact hne (hc.single wanted hexclusive other holder hother hheld)
    · simp only [Function.update_of_ne hsame, hc.marked wanted hexclusive, update_holds_iff]
      constructor
      · rintro ⟨other, hother⟩
        refine ⟨other, .inr ⟨?_, hother⟩⟩
        rintro rfl
        exact hsame (Option.some.inj (hother.symm.trans hheld))
      · rintro ⟨other, ⟨-, hnone⟩ | ⟨-, hother⟩⟩
        · cases hnone
        · exact ⟨other, hother⟩
  · intro wanted hexclusive first second hfirst hsecond
    rcases update_holds_iff.mp hfirst with ⟨-, hnone⟩ | ⟨-, hfirst⟩
    · cases hnone
    rcases update_holds_iff.mp hsecond with ⟨-, hnone⟩ | ⟨-, hsecond⟩
    · cases hnone
    exact hc.single wanted hexclusive first second hfirst hsecond

/-- A shared resource need not be released. -/
theorem Exact.drop (hc : c.Exact exclusive)
    (hshared : ∀ resource, c.holds holder = some resource → exclusive resource = false) :
    Exact exclusive ⟨c.free, Function.update c.holds holder none⟩ := by
  have hkept : ∀ wanted, exclusive wanted = true → ∀ other,
      Function.update c.holds holder none other = some wanted ↔ c.holds other = some wanted := by
    intro wanted hexclusive other
    rw [update_holds_iff]
    constructor
    · rintro (⟨-, hnone⟩ | ⟨-, hheld⟩)
      · cases hnone
      · exact hheld
    · intro hheld
      refine .inr ⟨?_, hheld⟩
      rintro rfl
      rw [hshared wanted hheld] at hexclusive
      cases hexclusive
  refine ⟨hc.shared, fun wanted hexclusive => ?_, fun wanted hexclusive first second => ?_⟩
  · simp only [hc.marked wanted hexclusive, hkept wanted hexclusive]
  · simp only [hkept wanted hexclusive]
    exact hc.single wanted hexclusive first second

/-- An exclusive resource that is dropped stays marked, and nobody holds it. -/
theorem Exact.dropped (hc : c.Exact exclusive) (hexclusive : exclusive resource = true)
    (hheld : c.holds holder = some resource) :
    c.free resource = false ∧
      ∀ other, Function.update c.holds holder none other ≠ some resource := by
  refine ⟨(hc.marked resource hexclusive).mpr ⟨holder, hheld⟩, fun other hother => ?_⟩
  rcases update_holds_iff.mp hother with ⟨-, hnone⟩ | ⟨hne, hother⟩
  · cases hnone
  · exact hne (hc.single resource hexclusive other holder hother hheld)

end Booking

end Marks

end RosRtems.Claims
