import Mathlib.Data.List.Basic
import Mathlib.Order.Lattice

/-!
# Fixed-priority scheduling

The ready tasks stand in the order in which they became ready, and the one that
executes is the first of those with the highest priority, which is the least value.  A
preempted task keeps its place.  The rule of this module is that a task which executes
shields itself from every task that does not outrank it, for as long as it does not
block.
-/

namespace RosRtems.FixedPriority

variable {Task Priority : Type*} [LinearOrder Priority] (priority : Task → Priority)

/-- The task that executes. -/
def executing : List Task → Option Task
  | [] => none
  | task :: ready =>
      match executing ready with
      | none => some task
      | some other => if priority other < priority task then some other else some task

theorem executing_eq_none {ready : List Task} (hidle : executing priority ready = none) :
    ready = [] := by
  cases ready with
  | nil => rfl
  | cons task ready =>
      simp only [executing] at hidle
      split at hidle
      · cases hidle
      · split at hidle <;> cases hidle

theorem executing_eq_some {ready : List Task} {task : Task}
    (hexecutes : executing priority ready = some task) :
    ∃ before after, ready = before ++ task :: after ∧
      (∀ other ∈ before, priority task < priority other) ∧
      ∀ other ∈ after, priority task ≤ priority other := by
  induction ready generalizing task with
  | nil => cases hexecutes
  | cons head ready ih =>
      simp only [executing] at hexecutes
      cases hrest : executing priority ready with
      | none =>
          rw [hrest] at hexecutes
          cases hexecutes
          exact ⟨[], ready, rfl, by simp, by simp [executing_eq_none priority hrest]⟩
      | some other =>
          obtain ⟨before, after, hready, hbefore, hafter⟩ := ih hrest
          rw [hrest] at hexecutes
          simp only at hexecutes
          split at hexecutes
          · rename_i hless
            cases hexecutes
            refine ⟨head :: before, after, by rw [hready]; rfl, ?_, hafter⟩
            intro third hthird
            rcases List.mem_cons.mp hthird with rfl | hlater
            · exact hless
            · exact hbefore third hlater
          · rename_i hless
            cases hexecutes
            refine ⟨[], ready, rfl, by simp, fun third hthird => ?_⟩
            have hother : priority head ≤ priority other := not_lt.mp hless
            rw [hready] at hthird
            rcases List.mem_append.mp hthird with hearlier | hlater
            · exact hother.trans (hbefore third hearlier).le
            · rcases List.mem_cons.mp hlater with rfl | hlater
              · exact hother
              · exact hother.trans (hafter third hlater)

theorem mem_of_executing {ready : List Task} {task : Task}
    (hexecutes : executing priority ready = some task) : task ∈ ready := by
  obtain ⟨before, after, rfl, -⟩ := executing_eq_some priority hexecutes
  exact List.mem_append_right _ List.mem_cons_self

/-- No ready task outranks the one that executes. -/
theorem executing_le {ready : List Task} {task other : Task}
    (hexecutes : executing priority ready = some task) (hother : other ∈ ready) :
    priority task ≤ priority other := by
  obtain ⟨before, after, rfl, hbefore, hafter⟩ := executing_eq_some priority hexecutes
  rcases List.mem_append.mp hother with hearlier | hlater
  · exact (hbefore other hearlier).le
  · rcases List.mem_cons.mp hlater with rfl | hlater
    · exact le_rfl
    · exact hafter other hlater

/-- Of two candidates the second one only if it outranks the first. -/
def preferred : Option Task → Option Task → Option Task
  | none, second => second
  | some first, none => some first
  | some first, some second =>
      if priority second < priority first then some second else some first

@[simp]
theorem preferred_none_right (first : Option Task) :
    preferred priority first none = first := by
  cases first <;> rfl

theorem executing_cons (task : Task) (ready : List Task) :
    executing priority (task :: ready) =
      preferred priority (some task) (executing priority ready) := by
  rw [executing]
  cases executing priority ready <;> rfl

theorem preferred_assoc (first second third : Option Task) :
    preferred priority first (preferred priority second third) =
      preferred priority (preferred priority first second) third := by
  rcases first with _ | first
  · rfl
  rcases second with _ | second
  · rfl
  rcases third with _ | third
  · simp
  by_cases hsecond : priority second < priority first <;>
    by_cases hthird : priority third < priority second
  · simp [preferred, hsecond, hthird, hthird.trans hsecond]
  · simp [preferred, hsecond, hthird]
  · simp [preferred, hsecond, hthird]
  · have hlast : ¬ priority third < priority first :=
      fun hless => hthird (hless.trans_le (not_lt.mp hsecond))
    simp [preferred, hsecond, hthird, hlast]

/-- Ready tasks may be compared in two batches. -/
theorem executing_append (ready more : List Task) :
    executing priority (ready ++ more) =
      preferred priority (executing priority ready) (executing priority more) := by
  induction ready with
  | nil => rfl
  | cons task ready ih =>
      rw [List.cons_append, executing_cons, ih, executing_cons, preferred_assoc]

theorem executing_map {Name : Type*} (name : Name → Task) (ready : List Name) :
    executing priority (ready.map name) =
      (executing (fun task => priority (name task)) ready).map name := by
  induction ready with
  | nil => rfl
  | cons task ready ih =>
      rw [List.map_cons, executing_cons, ih, executing_cons]
      cases executing (fun task => priority (name task)) ready with
      | none => rfl
      | some other =>
          simp only [preferred, Option.map_some]
          split <;> rfl

/-- `task` is ready, the other task does not outrank it, and if their priorities are
equal the other one does not stand before it. -/
def Shields (ready : List Task) (task other : Task) : Prop :=
  priority task ≤ priority other ∧ ∃ before after, ready = before ++ task :: after ∧
    (other ∈ before → priority task < priority other)

variable {priority} {ready : List Task} {task other : Task}

theorem shields_of_executing (hexecutes : executing priority ready = some task)
    (houtranked : priority task ≤ priority other) :
    Shields priority ready task other := by
  obtain ⟨before, after, hready, hbefore, -⟩ := executing_eq_some priority hexecutes
  exact ⟨houtranked, before, after, hready, hbefore other⟩

/-- A shielded task does not execute. -/
theorem Shields.not_executing (hshields : Shields priority ready task other)
    (hne : task ≠ other) : executing priority ready ≠ some other := by
  intro hexecutes
  obtain ⟨hle, before, after, hready, hbefore⟩ := hshields
  obtain ⟨before', after', hready', hbefore', hafter'⟩ :=
    executing_eq_some priority hexecutes
  have hearlier : task ∉ before' := fun hmem => (hbefore' task hmem).not_ge hle
  have hsplit := hready.symm.trans hready'
  rcases List.append_eq_append_iff.mp hsplit with ⟨middle, hmiddle, hrest⟩ |
      ⟨middle, hmiddle, hrest⟩
  · cases middle with
    | nil => exact hne (List.cons.inj hrest).1
    | cons head middle =>
        obtain ⟨rfl, -⟩ := List.cons.inj hrest
        exact hearlier (by simp [hmiddle])
  · cases middle with
    | nil => exact hne (List.cons.inj hrest).1.symm
    | cons head middle =>
        obtain ⟨rfl, hafter⟩ := List.cons.inj hrest
        have hless := hbefore (by simp [hmiddle])
        exact (hafter' task (by simp [hafter])).not_gt hless

variable [DecidableEq Task]

/-- A task that becomes ready goes to the end. -/
def wake (task : Task) (ready : List Task) : List Task :=
  if task ∈ ready then ready else ready ++ [task]

def block (task : Task) (ready : List Task) : List Task :=
  ready.filter (· ≠ task)

theorem Shields.wake (hshields : Shields priority ready task other) (third : Task) :
    Shields priority (wake third ready) task other := by
  rw [FixedPriority.wake]
  split
  · exact hshields
  · obtain ⟨hle, before, after, rfl, hbefore⟩ := hshields
    exact ⟨hle, before, after ++ [third], by simp, hbefore⟩

theorem Shields.block (hshields : Shields priority ready task other) {third : Task}
    (hne : third ≠ task) : Shields priority (block third ready) task other := by
  obtain ⟨hle, before, after, rfl, hbefore⟩ := hshields
  refine ⟨hle, before.filter (· ≠ third), after.filter (· ≠ third), ?_, fun hmem => ?_⟩
  · simp [FixedPriority.block, hne.symm]
  · exact hbefore (List.mem_filter.mp hmem).1

end RosRtems.FixedPriority
