import Mathlib.Data.List.Nodup
import Mathlib.Data.List.Count
import Mathlib.Logic.Function.Basic

/-!
# Custody of tokens

Tokens are issued, passed from one place to another, and finished.  As long as every
booking is one of these, each issued token is either finished once or in exactly one
place.
-/

namespace RosRtems.Custody

variable {Place Token : Type*}

structure Ledger (Place Token : Type*) where
  holds : Place → Option Token
  issued : Token → Prop
  finished : List Token

/-- What may be booked in one step. -/
inductive Booking [DecidableEq Place] (l l' : Ledger Place Token) : Prop
  | stay (hholds : l'.holds = l.holds) (hissued : ∀ t, l'.issued t ↔ l.issued t)
      (hfinished : l'.finished = l.finished)
  | issue (p : Place) (t : Token) (hempty : l.holds p = none) (hnew : ¬ l.issued t)
      (hholds : l'.holds = Function.update l.holds p (some t))
      (hissued : ∀ other, l'.issued other ↔ other = t ∨ l.issued other)
      (hfinished : l'.finished = l.finished)
  | pass (p q : Place) (t : Token) (hfrom : l.holds p = some t) (hto : l.holds q = none)
      (hholds : l'.holds = Function.update (Function.update l.holds p none) q (some t))
      (hissued : ∀ t, l'.issued t ↔ l.issued t) (hfinished : l'.finished = l.finished)
  | finish (p : Place) (t : Token) (hfrom : l.holds p = some t)
      (hholds : l'.holds = Function.update l.holds p none)
      (hissued : ∀ t, l'.issued t ↔ l.issued t)
      (hfinished : l'.finished = l.finished ++ [t])

/-- Every issued token is finished once or in one place. -/
structure Ledger.Balanced (l : Ledger Place Token) : Prop where
  single : ∀ p q t, l.holds p = some t → l.holds q = some t → p = q
  pending : ∀ p t, l.holds p = some t → t ∉ l.finished
  once : l.finished.Nodup
  accounted : ∀ t, l.issued t ↔ t ∈ l.finished ∨ ∃ p, l.holds p = some t

section Rules

variable {l l' : Ledger Place Token}

theorem Ledger.Balanced.not_held (hl : l.Balanced) {t : Token} (hnew : ¬ l.issued t)
    (p : Place) : l.holds p ≠ some t :=
  fun hheld => hnew ((hl.accounted t).mpr (.inr ⟨p, hheld⟩))

theorem Ledger.Balanced.not_finished (hl : l.Balanced) {t : Token}
    (hnew : ¬ l.issued t) : t ∉ l.finished :=
  fun hdone => hnew ((hl.accounted t).mpr (.inl hdone))

/-- Where nothing is held, every issued token has been finished, and once. -/
theorem Ledger.Balanced.count_finished [DecidableEq Token] (hl : l.Balanced)
    (hempty : ∀ p, l.holds p = none) {t : Token} (hissued : l.issued t) :
    l.finished.count t = 1 := by
  apply List.count_eq_one_of_mem hl.once
  rcases (hl.accounted t).mp hissued with hdone | ⟨p, hheld⟩
  · exact hdone
  · rw [hempty p] at hheld
    cases hheld

theorem Ledger.Balanced.stay (hl : l.Balanced) (hholds : l'.holds = l.holds)
    (hissued : ∀ t, l'.issued t ↔ l.issued t) (hfinished : l'.finished = l.finished) :
    l'.Balanced where
  single := by simpa only [hholds] using hl.single
  pending := by simpa only [hholds, hfinished] using hl.pending
  once := by simpa only [hfinished] using hl.once
  accounted := by simpa only [hholds, hissued, hfinished] using hl.accounted

variable [DecidableEq Place]

theorem Ledger.Balanced.issue (hl : l.Balanced) {p : Place} {t : Token}
    (hempty : l.holds p = none) (hnew : ¬ l.issued t)
    (hholds : l'.holds = Function.update l.holds p (some t))
    (hissued : ∀ other, l'.issued other ↔ other = t ∨ l.issued other)
    (hfinished : l'.finished = l.finished) : l'.Balanced := by
  have hat : ∀ q other, l'.holds q = some other ↔
      (q = p ∧ other = t) ∨ (q ≠ p ∧ l.holds q = some other) := by
    intro q other
    rw [hholds]
    by_cases hq : q = p
    · simp [hq, eq_comm]
    · simp [hq]
  constructor
  case single =>
    intro q q' other hq hq'
    rcases (hat q other).mp hq with ⟨rfl, rfl⟩ | ⟨-, hheld⟩
    · rcases (hat q' other).mp hq' with ⟨rfl, -⟩ | ⟨-, hheld'⟩
      · rfl
      · exact absurd hheld' (hl.not_held hnew q')
    · rcases (hat q' other).mp hq' with ⟨rfl, rfl⟩ | ⟨-, hheld'⟩
      · exact absurd hheld (hl.not_held hnew q)
      · exact hl.single q q' other hheld hheld'
  case pending =>
    intro q other hq
    rw [hfinished]
    rcases (hat q other).mp hq with ⟨-, rfl⟩ | ⟨-, hheld⟩
    · exact hl.not_finished hnew
    · exact hl.pending q other hheld
  case once => rw [hfinished]; exact hl.once
  case accounted =>
    intro other
    rw [hissued, hl.accounted, hfinished]
    constructor
    · rintro (rfl | hdone | ⟨q, hheld⟩)
      · exact .inr ⟨p, (hat p other).mpr (.inl ⟨rfl, rfl⟩)⟩
      · exact .inl hdone
      · have hq : q ≠ p := fun hq => by simp [hq, hempty] at hheld
        exact .inr ⟨q, (hat q other).mpr (.inr ⟨hq, hheld⟩)⟩
    · rintro (hdone | ⟨q, hq⟩)
      · exact .inr (.inl hdone)
      · rcases (hat q other).mp hq with ⟨-, rfl⟩ | ⟨-, hheld⟩
        · exact .inl rfl
        · exact .inr (.inr ⟨q, hheld⟩)

theorem Ledger.Balanced.pass (hl : l.Balanced) {p q : Place} {t : Token}
    (hfrom : l.holds p = some t) (hto : l.holds q = none)
    (hholds : l'.holds = Function.update (Function.update l.holds p none) q (some t))
    (hissued : ∀ t, l'.issued t ↔ l.issued t) (hfinished : l'.finished = l.finished) :
    l'.Balanced := by
  have hat : ∀ r other, l'.holds r = some other ↔
      (r = q ∧ other = t) ∨ (r ≠ q ∧ r ≠ p ∧ l.holds r = some other) := by
    intro r other
    rw [hholds]
    by_cases hr : r = q
    · simp [hr, eq_comm]
    · by_cases hp : r = p
      · subst hp
        simp [hr]
      · simp [hr, hp]
  constructor
  case single =>
    intro r r' other hr hr'
    rcases (hat r other).mp hr with ⟨rfl, rfl⟩ | ⟨-, hrp, hheld⟩
    · rcases (hat r' other).mp hr' with ⟨rfl, -⟩ | ⟨-, hrp', hheld'⟩
      · rfl
      · exact absurd (hl.single r' p other hheld' hfrom) hrp'
    · rcases (hat r' other).mp hr' with ⟨rfl, rfl⟩ | ⟨-, -, hheld'⟩
      · exact absurd (hl.single r p other hheld hfrom) hrp
      · exact hl.single r r' other hheld hheld'
  case pending =>
    intro r other hr
    rw [hfinished]
    rcases (hat r other).mp hr with ⟨-, rfl⟩ | ⟨-, -, hheld⟩
    · exact hl.pending p other hfrom
    · exact hl.pending r other hheld
  case once => rw [hfinished]; exact hl.once
  case accounted =>
    intro other
    rw [hissued, hl.accounted, hfinished]
    constructor
    · rintro (hdone | ⟨r, hheld⟩)
      · exact .inl hdone
      · by_cases hr : r = p
        · subst hr
          obtain rfl : t = other := by simpa [hfrom] using hheld
          exact .inr ⟨q, (hat q t).mpr (.inl ⟨rfl, rfl⟩)⟩
        · have hrq : r ≠ q := fun hrq => by simp [hrq, hto] at hheld
          exact .inr ⟨r, (hat r other).mpr (.inr ⟨hrq, hr, hheld⟩)⟩
    · rintro (hdone | ⟨r, hr⟩)
      · exact .inl hdone
      · rcases (hat r other).mp hr with ⟨-, rfl⟩ | ⟨-, -, hheld⟩
        · exact .inr ⟨p, hfrom⟩
        · exact .inr ⟨r, hheld⟩

theorem Ledger.Balanced.finish (hl : l.Balanced) {p : Place} {t : Token}
    (hfrom : l.holds p = some t) (hholds : l'.holds = Function.update l.holds p none)
    (hissued : ∀ t, l'.issued t ↔ l.issued t)
    (hfinished : l'.finished = l.finished ++ [t]) : l'.Balanced := by
  have hat : ∀ r other, l'.holds r = some other ↔ r ≠ p ∧ l.holds r = some other := by
    intro r other
    rw [hholds]
    by_cases hr : r = p
    · simp [hr]
    · simp [hr]
  constructor
  case single =>
    intro r r' other hr hr'
    exact hl.single r r' other ((hat r other).mp hr).2 ((hat r' other).mp hr').2
  case pending =>
    intro r other hr
    obtain ⟨hrp, hheld⟩ := (hat r other).mp hr
    rw [hfinished, List.mem_append, List.mem_singleton, not_or]
    refine ⟨hl.pending r other hheld, ?_⟩
    rintro rfl
    exact hrp (hl.single r p other hheld hfrom)
  case once =>
    rw [hfinished, ← List.concat_eq_append]
    exact hl.once.concat (hl.pending p t hfrom)
  case accounted =>
    intro other
    rw [hissued, hl.accounted, hfinished, List.mem_append, List.mem_singleton]
    constructor
    · rintro (hdone | ⟨r, hheld⟩)
      · exact .inl (.inl hdone)
      · by_cases hr : r = p
        · subst hr
          obtain rfl : t = other := by simpa [hfrom] using hheld
          exact .inl (.inr rfl)
        · exact .inr ⟨r, (hat r other).mpr ⟨hr, hheld⟩⟩
    · rintro ((hdone | rfl) | ⟨r, hr⟩)
      · exact .inl hdone
      · exact .inr ⟨p, hfrom⟩
      · exact .inr ⟨r, ((hat r other).mp hr).2⟩

/-- Every booking keeps the ledger balanced. -/
theorem Booking.balanced (hbooking : Booking l l') (hl : l.Balanced) : l'.Balanced := by
  cases hbooking with
  | stay hholds hissued hfinished => exact hl.stay hholds hissued hfinished
  | issue p t hempty hnew hholds hissued hfinished =>
      exact hl.issue hempty hnew hholds hissued hfinished
  | pass p q t hfrom hto hholds hissued hfinished =>
      exact hl.pass hfrom hto hholds hissued hfinished
  | finish p t hfrom hholds hissued hfinished =>
      exact hl.finish hfrom hholds hissued hfinished

end Rules

end RosRtems.Custody
