import RosRtems.Core.Potential
import RosRtems.Core.Runs
import Mathlib.Data.Fintype.Card

/-!
# The mutex of two priorities

The wait mutex of the executor keeps a flag under an inner mutex, and lets a thread of
high priority pass before those of low priority.  A thread that unlocks it decides under
the inner mutex whom it will notify and notifies after it has released it, when others
may have come.  No wake-up is lost: while the lock is free, whoever may take it next has
been notified or will be.
-/

namespace RosRtems.Picas.MutexTwoPriorities

open RosRtems.Runs

variable {Thread : Type*}

inductive Priority
  | high
  | low
  deriving DecidableEq

/-- Where a thread is: outside, before the inner mutex of `lock`, with it before its
first test, in the wait of the condition variable, past it before the inner mutex, with
it before a further test, with the lock, before the inner mutex of `unlock`, with it, or
before the notification. -/
inductive ThreadPc
  | outside
  | locking (priority : Priority)
  | testing (priority : Priority)
  | asleep (priority : Priority)
  | awake (priority : Priority)
  | retesting (priority : Priority)
  | holding (priority : Priority)
  | unlocking (priority : Priority)
  | releasing (priority : Priority)
  | notifying (priority : Priority)
  deriving DecidableEq

/-- What a thread goes on to when it gets the inner mutex. -/
def ThreadPc.guarded : ThreadPc → Option ThreadPc
  | .locking priority => some (.testing priority)
  | .awake priority => some (.retesting priority)
  | .unlocking priority => some (.releasing priority)
  | .outside | .testing _ | .asleep _ | .retesting _ | .holding _ | .releasing _
  | .notifying _ => none

/-- The thread has the lock. -/
def ThreadPc.Holds : ThreadPc → Prop
  | .holding _ | .unlocking _ | .releasing _ => True
  | .outside | .locking _ | .testing _ | .asleep _ | .awake _ | .retesting _
  | .notifying _ => False

/-- The thread has counted itself as a waiting one of high priority. -/
def ThreadPc.CountedHigh (pc : ThreadPc) : Prop :=
  pc = .asleep .high ∨ pc = .awake .high ∨ pc = .retesting .high

instance : DecidablePred ThreadPc.CountedHigh :=
  fun _ => inferInstanceAs (Decidable (_ ∨ _ ∨ _))

/-- The thread is about to notify one of the priority, or is one that is about to test
the flag again. -/
def ThreadPc.Stirs (priority : Priority) (pc : ThreadPc) : Prop :=
  pc = .notifying priority ∨ pc = .awake priority ∨ pc = .retesting priority

structure MutexState (Thread : Type*) where
  pc : Thread → ThreadPc
  cvMutex : Option Thread
  dataTaken : Bool
  hpWaitingCount : ℕ

def MutexState.initial : MutexState Thread where
  pc := fun _ => .outside
  cvMutex := none
  dataTaken := false
  hpWaitingCount := 0

/-- The condition of the loop of `lock` is false. -/
def MutexState.CanTake (s : MutexState Thread) : Priority → Prop
  | .high => s.dataTaken = false
  | .low => s.dataTaken = false ∧ s.hpWaitingCount = 0

section Steps

variable [DecidableEq Thread]

def MutexState.move (s : MutexState Thread) (t : Thread) (pc : ThreadPc) :
    MutexState Thread :=
  { s with pc := Function.update s.pc t pc }

/-- Any order of the steps of the threads.  A thread that has the inner mutex gives it
up with its next step, which is the body of its critical section. -/
inductive MutexStep : MutexState Thread → Thread → MutexState Thread → Prop
  | lock (s : MutexState Thread) (t : Thread) (priority : Priority)
      (hpc : s.pc t = .outside) : MutexStep s t (s.move t (.locking priority))
  | guard (s : MutexState Thread) (t : Thread) (pc : ThreadPc)
      (hpc : (s.pc t).guarded = some pc) (hcvMutex : s.cvMutex = none) :
      MutexStep s t { s.move t pc with cvMutex := some t }
  | take (s : MutexState Thread) (t : Thread) (priority : Priority)
      (hpc : s.pc t = .testing priority) (htake : s.CanTake priority) :
      MutexStep s t { s.move t (.holding priority) with
        cvMutex := none
        dataTaken := true }
  | retake (s : MutexState Thread) (t : Thread) (priority : Priority)
      (hpc : s.pc t = .retesting priority) (htake : s.CanTake priority) :
      MutexStep s t { s.move t (.holding priority) with
        cvMutex := none
        dataTaken := true
        hpWaitingCount :=
          if priority = .high then s.hpWaitingCount - 1 else s.hpWaitingCount }
  | wait (s : MutexState Thread) (t : Thread) (priority : Priority)
      (hpc : s.pc t = .testing priority) (hwait : ¬ s.CanTake priority) :
      MutexStep s t { s.move t (.asleep priority) with
        cvMutex := none
        hpWaitingCount :=
          if priority = .high then s.hpWaitingCount + 1 else s.hpWaitingCount }
  | rewait (s : MutexState Thread) (t : Thread) (priority : Priority)
      (hpc : s.pc t = .retesting priority) (hwait : ¬ s.CanTake priority) :
      MutexStep s t { s.move t (.asleep priority) with cvMutex := none }
  | spurious (s : MutexState Thread) (t : Thread) (priority : Priority)
      (hpc : s.pc t = .asleep priority) : MutexStep s t (s.move t (.awake priority))
  | unlock (s : MutexState Thread) (t : Thread) (priority : Priority)
      (hpc : s.pc t = .holding priority) : MutexStep s t (s.move t (.unlocking priority))
  | release (s : MutexState Thread) (t : Thread) (priority : Priority)
      (hpc : s.pc t = .releasing priority) :
      MutexStep s t
        { s.move t (.notifying (if s.hpWaitingCount = 0 then .low else .high)) with
          cvMutex := none
          dataTaken := false }
  | notify (s : MutexState Thread) (t waiter : Thread) (priority : Priority)
      (hpc : s.pc t = .notifying priority) (hwaiter : s.pc waiter = .asleep priority) :
      MutexStep s t ((s.move waiter (.awake priority)).move t .outside)
  | notifyNobody (s : MutexState Thread) (t : Thread) (priority : Priority)
      (hpc : s.pc t = .notifying priority)
      (hnobody : ∀ waiter, s.pc waiter ≠ .asleep priority) :
      MutexStep s t (s.move t .outside)

end Steps

/-! ## What the mutex keeps -/

/-- At most one thread has the lock, the waiting threads of high priority are counted,
and nobody waits for a free lock while nobody notifies or tests. -/
structure Sound [Fintype Thread] (s : MutexState Thread) : Prop where
  exclusive : ∀ t other, (s.pc t).Holds → (s.pc other).Holds → other = t
  counted : s.hpWaitingCount =
    (Finset.univ.filter fun t => (s.pc t).CountedHigh).card
  notStranded : (∀ t, ¬ (s.pc t).Holds) → (∀ t priority, ¬ (s.pc t).Stirs priority) →
    ∀ t priority, s.pc t ≠ .asleep priority

/-- While the lock is free, the threads that may take it next are not all asleep, unless
one of them is to be notified. -/
structure MutexInvariant [Fintype Thread] (s : MutexState Thread) : Prop where
  taken : ∀ t, (s.pc t).Holds → s.dataTaken = true
  held : s.dataTaken = true → ∃ t, (s.pc t).Holds
  exclusive : ∀ t other, (s.pc t).Holds → (s.pc other).Holds → other = t
  counted : s.hpWaitingCount =
    (Finset.univ.filter fun t => (s.pc t).CountedHigh).card
  stirsHigh : s.dataTaken = false → s.hpWaitingCount ≠ 0 → ∃ t, (s.pc t).Stirs .high
  stirsLow : s.dataTaken = false → s.hpWaitingCount = 0 →
    (∃ t, s.pc t = .asleep .low) → ∃ t, (s.pc t).Stirs .low

section Invariant

variable [Fintype Thread] [DecidableEq Thread] {s s' : MutexState Thread} {t : Thread}

omit [DecidableEq Thread] in
theorem MutexInvariant.hpWaitingCount_eq_zero_iff (hs : MutexInvariant s) :
    s.hpWaitingCount = 0 ↔ ∀ t, ¬ (s.pc t).CountedHigh := by
  rw [hs.counted, Finset.card_eq_zero, Finset.filter_eq_empty_iff]
  exact ⟨fun hnone t => hnone (Finset.mem_univ t), fun hnone t _ => hnone t⟩

omit [DecidableEq Thread] in
theorem MutexInvariant.sound (hs : MutexInvariant s) : Sound s where
  exclusive := hs.exclusive
  counted := hs.counted
  notStranded := by
    intro hfree hstill t priority hasleep
    have hdata : s.dataTaken = false := by
      rw [← Bool.not_eq_true]
      intro htaken
      obtain ⟨holder, hholds⟩ := hs.held htaken
      exact hfree holder hholds
    by_cases hcount : s.hpWaitingCount = 0
    · cases priority with
      | high => exact hs.hpWaitingCount_eq_zero_iff.mp hcount t (.inl hasleep)
      | low =>
          obtain ⟨other, hstirs⟩ := hs.stirsLow hdata hcount ⟨t, hasleep⟩
          exact hstill other .low hstirs
    · obtain ⟨other, hstirs⟩ := hs.stirsHigh hdata hcount
      exact hstill other .high hstirs

/-- The count after a move of one thread. -/
theorem counted_of_move (hs : MutexInvariant s) {pc : ThreadPc}
    (hpc : s'.pc = Function.update s.pc t pc)
    (hcount : s'.hpWaitingCount + (if (s.pc t).CountedHigh then 1 else 0) =
      s.hpWaitingCount + (if pc.CountedHigh then 1 else 0)) :
    s'.hpWaitingCount = (Finset.univ.filter fun t => (s'.pc t).CountedHigh).card := by
  have hcard := Potential.card_filter_update ThreadPc.CountedHigh s.pc t pc
  rw [← hs.counted] at hcard
  rw [hpc]
  omega

/-- A move that neither takes the lock nor frees it: what is left to find are the threads
that will take it next. -/
theorem MutexInvariant.of_holds (hs : MutexInvariant s) {pc : ThreadPc}
    (hpc : s'.pc = Function.update s.pc t pc) (hholds : pc.Holds ↔ (s.pc t).Holds)
    (hdata : s'.dataTaken = s.dataTaken)
    (hcount : s'.hpWaitingCount + (if (s.pc t).CountedHigh then 1 else 0) =
      s.hpWaitingCount + (if pc.CountedHigh then 1 else 0))
    (hhigh : s.dataTaken = false → s'.hpWaitingCount ≠ 0 → ∃ other, (s'.pc other).Stirs .high)
    (hlow : s.dataTaken = false → s'.hpWaitingCount = 0 →
      (∃ other, s'.pc other = .asleep .low) → ∃ other, (s'.pc other).Stirs .low) :
    MutexInvariant s' := by
  have hholder : ∀ other, (s'.pc other).Holds ↔ (s.pc other).Holds := by
    intro other
    by_cases hother : other = t
    · subst hother
      rw [hpc, Function.update_self, hholds]
    · rw [hpc, Function.update_of_ne hother]
  constructor
  case taken =>
    intro other hother
    rw [hdata]
    exact hs.taken other ((hholder other).mp hother)
  case held =>
    intro htaken
    simp only [hholder]
    exact hs.held (hdata ▸ htaken)
  case exclusive =>
    intro first second hfirst hsecond
    exact hs.exclusive first second ((hholder first).mp hfirst) ((hholder second).mp hsecond)
  case counted => exact counted_of_move hs hpc hcount
  case stirsHigh => exact fun hfree => hhigh (hdata ▸ hfree)
  case stirsLow => exact fun hfree => hlow (hdata ▸ hfree)

/-- A thread that goes on towards its next test, or with the lock. -/
theorem MutexInvariant.moves (hs : MutexInvariant s) {pc : ThreadPc}
    (hpc : s'.pc = Function.update s.pc t pc) (hdata : s'.dataTaken = s.dataTaken)
    (hcount : s'.hpWaitingCount = s.hpWaitingCount)
    (hholds : pc.Holds ↔ (s.pc t).Holds) (hcounted : pc.CountedHigh ↔ (s.pc t).CountedHigh)
    (hstirs : ∀ priority, (s.pc t).Stirs priority → pc.Stirs priority)
    (hasleep : pc ≠ .asleep .low) : MutexInvariant s' := by
  have hsame : ∀ other, other ≠ t → s'.pc other = s.pc other := by
    intro other hother
    rw [hpc, Function.update_of_ne hother]
  have hself : s'.pc t = pc := by rw [hpc, Function.update_self]
  have hstill : ∀ priority, (∃ other, (s.pc other).Stirs priority) →
      ∃ other, (s'.pc other).Stirs priority := by
    rintro priority ⟨other, hother⟩
    refine ⟨other, ?_⟩
    by_cases ht : other = t
    · rw [ht, hself]
      exact hstirs priority (ht ▸ hother)
    · rwa [hsame other ht]
  apply hs.of_holds hpc hholds hdata
  case hcount => simp only [hcount, hcounted]
  case hhigh =>
    intro hfree hwaiting
    exact hstill .high (hs.stirsHigh hfree (hcount ▸ hwaiting))
  case hlow =>
    rintro hfree hnone ⟨other, hother⟩
    have ht : other ≠ t := by
      rintro rfl
      exact hasleep (hself.symm.trans hother)
    rw [hsame other ht] at hother
    exact hstill .low (hs.stirsLow hfree (hcount ▸ hnone) ⟨other, hother⟩)

/-- A thread that finds the lock free takes it. -/
theorem MutexInvariant.take (hs : MutexInvariant s) {priority : Priority}
    (hfree : s.dataTaken = false) (hpc : s'.pc = Function.update s.pc t (.holding priority))
    (hdata : s'.dataTaken = true)
    (hcount : s'.hpWaitingCount + (if (s.pc t).CountedHigh then 1 else 0) =
      s.hpWaitingCount) : MutexInvariant s' := by
  have hnobody : ∀ other, ¬ (s.pc other).Holds := by
    intro other hother
    have htaken := hs.taken other hother
    rw [hfree] at htaken
    cases htaken
  have honly : ∀ other, (s'.pc other).Holds → other = t := by
    intro other hother
    by_contra hne
    rw [hpc, Function.update_of_ne hne] at hother
    exact hnobody other hother
  constructor
  case taken => exact fun _ _ => hdata
  case held => exact fun _ => ⟨t, by rw [hpc, Function.update_self]; trivial⟩
  case exclusive =>
    intro first second hfirst hsecond
    rw [honly first hfirst, honly second hsecond]
  case counted =>
    apply counted_of_move hs hpc
    simpa [ThreadPc.CountedHigh] using hcount
  case stirsHigh =>
    intro hdata'
    rw [hdata] at hdata'
    cases hdata'
  case stirsLow =>
    intro hdata'
    rw [hdata] at hdata'
    cases hdata'

/-- A thread that may not take the lock goes to sleep.  Where the lock is free, it has
low priority, and a thread of high priority is on its way. -/
theorem MutexInvariant.sleep (hs : MutexInvariant s) {priority : Priority}
    (hwait : ¬ s.CanTake priority)
    (hbefore : s.pc t = .testing priority ∨ s.pc t = .retesting priority)
    (hpc : s'.pc = Function.update s.pc t (.asleep priority))
    (hdata : s'.dataTaken = s.dataTaken)
    (hcount : s'.hpWaitingCount + (if (s.pc t).CountedHigh then 1 else 0) =
      s.hpWaitingCount + (if priority = .high then 1 else 0)) : MutexInvariant s' := by
  have hsame : ∀ other, other ≠ t → s'.pc other = s.pc other := by
    intro other hother
    rw [hpc, Function.update_of_ne hother]
  have hholds : (ThreadPc.asleep priority).Holds ↔ (s.pc t).Holds := by
    rcases hbefore with hpc' | hpc' <;> simp [hpc', ThreadPc.Holds]
  have hlow : s.dataTaken = false → priority = .low ∧ s.hpWaitingCount ≠ 0 ∧
      s'.hpWaitingCount = s.hpWaitingCount := by
    intro hfree
    cases priority with
    | high => exact absurd hfree hwait
    | low =>
        refine ⟨rfl, fun hnone => hwait ⟨hfree, hnone⟩, ?_⟩
        rcases hbefore with hpc' | hpc' <;>
          simpa [hpc', ThreadPc.CountedHigh] using hcount
  apply hs.of_holds hpc hholds hdata
  case hcount => cases priority <;> simpa [ThreadPc.CountedHigh] using hcount
  case hhigh =>
    intro hfree _
    obtain ⟨rfl, hwaiting, -⟩ := hlow hfree
    obtain ⟨other, hstirs⟩ := hs.stirsHigh hfree hwaiting
    refine ⟨other, ?_⟩
    have hother : other ≠ t := by
      rintro rfl
      rcases hbefore with hpc' | hpc' <;> simp [hpc', ThreadPc.Stirs] at hstirs
    rwa [hsame other hother]
  case hlow =>
    intro hfree hnone
    obtain ⟨-, hwaiting, hkept⟩ := hlow hfree
    exact absurd (hkept ▸ hnone) hwaiting

/-- The holder frees the lock, with its mind made up whom to notify. -/
theorem MutexInvariant.release (hs : MutexInvariant s) {priority : Priority}
    (hbefore : s.pc t = .releasing priority)
    (hpc : s'.pc = Function.update s.pc t
      (.notifying (if s.hpWaitingCount = 0 then .low else .high)))
    (hdata : s'.dataTaken = false) (hcount : s'.hpWaitingCount = s.hpWaitingCount) :
    MutexInvariant s' := by
  have hself : s'.pc t = .notifying (if s.hpWaitingCount = 0 then .low else .high) := by
    rw [hpc, Function.update_self]
  have hnobody : ∀ other, ¬ (s'.pc other).Holds := by
    intro other hother
    have ht : other ≠ t := by
      rintro rfl
      rw [hself] at hother
      exact hother
    rw [hpc, Function.update_of_ne ht] at hother
    exact ht (hs.exclusive t other (by rw [hbefore]; trivial) hother)
  constructor
  case taken => exact fun other hother => absurd hother (hnobody other)
  case held =>
    intro htaken
    rw [hdata] at htaken
    cases htaken
  case exclusive => exact fun first _ hfirst => absurd hfirst (hnobody first)
  case counted =>
    apply counted_of_move hs hpc
    simp [hbefore, hcount, ThreadPc.CountedHigh]
  case stirsHigh =>
    intro _ hwaiting
    rw [hcount] at hwaiting
    exact ⟨t, .inl (by rw [hself, if_neg hwaiting])⟩
  case stirsLow =>
    intro _ hnone _
    rw [hcount] at hnone
    exact ⟨t, .inl (by rw [hself, if_pos hnone])⟩

/-- A thread that has notified is not needed any more: it has woken a thread that will
test, or all threads of the priority are awake. -/
theorem MutexInvariant.leave (hs : MutexInvariant s) {priority : Priority}
    (hpc : s.pc t = .notifying priority)
    (hdone : (∃ other, other ≠ t ∧ (s.pc other).Stirs priority) ∨
      ∀ other, s.pc other ≠ .asleep priority) : MutexInvariant (s.move t .outside) := by
  have hsame : ∀ other, other ≠ t → (s.move t .outside).pc other = s.pc other :=
    fun other hother => Function.update_of_ne hother _ _
  have hself : (s.move t .outside).pc t = .outside := Function.update_self ..
  -- a witness other than the thread itself remains one
  have hstill : ∀ p, (∃ other, other ≠ t ∧ (s.pc other).Stirs p) →
      ∃ other, ((s.move t .outside).pc other).Stirs p := by
    rintro p ⟨other, hother, hstirs⟩
    exact ⟨other, by rwa [hsame other hother]⟩
  have hmine : ∀ p, (s.pc t).Stirs p → p = priority := by
    intro p hstirs
    simpa [hpc, ThreadPc.Stirs, eq_comm] using hstirs
  have hmoved : (s.move t .outside).pc = Function.update s.pc t .outside := rfl
  have hholds : ThreadPc.outside.Holds ↔ (s.pc t).Holds := by
    simp [hpc, ThreadPc.Holds]
  apply hs.of_holds hmoved hholds rfl
  case hcount => simp [MutexState.move, hpc, ThreadPc.CountedHigh]
  case hhigh =>
    intro hfree hwaiting
    apply hstill
    obtain ⟨other, hstirs⟩ := hs.stirsHigh hfree hwaiting
    by_cases hother : other = t
    · obtain rfl := hmine .high (hother ▸ hstirs)
      rcases hdone with hwoken | hawake
      · exact hwoken
      · have hcounted : ∃ waiter, (s.pc waiter).CountedHigh := by
          by_contra hnone
          exact hwaiting (hs.hpWaitingCount_eq_zero_iff.mpr (not_exists.mp hnone))
        obtain ⟨waiter, hcounted⟩ := hcounted
        have hwaiter : waiter ≠ t := by
          rintro rfl
          simp [hpc, ThreadPc.CountedHigh] at hcounted
        exact ⟨waiter, hwaiter, .inr (hcounted.resolve_left (hawake waiter))⟩
    · exact ⟨other, hother, hstirs⟩
  case hlow =>
    rintro hfree hnone ⟨sleeper, hsleeper⟩
    apply hstill
    have hne : sleeper ≠ t := by
      rintro rfl
      rw [hself] at hsleeper
      cases hsleeper
    rw [hsame sleeper hne] at hsleeper
    obtain ⟨other, hstirs⟩ := hs.stirsLow hfree hnone ⟨sleeper, hsleeper⟩
    by_cases hother : other = t
    · obtain rfl := hmine .low (hother ▸ hstirs)
      exact hdone.resolve_right fun hawake => hawake sleeper hsleeper
    · exact ⟨other, hother, hstirs⟩

omit [DecidableEq Thread] in
theorem mutexInvariant_initial : MutexInvariant (MutexState.initial : MutexState Thread) := by
  constructor <;> simp [MutexState.initial, ThreadPc.Holds, ThreadPc.CountedHigh]

theorem mutexInvariant_step (s : MutexState Thread) (t : Thread) (s' : MutexState Thread)
    (hs : MutexInvariant s) (hstep : MutexStep s t s') : MutexInvariant s' := by
  cases hstep with
  | lock priority hpc =>
      exact hs.moves rfl rfl rfl (by simp [hpc, ThreadPc.Holds])
        (by simp [hpc, ThreadPc.CountedHigh]) (by simp [hpc, ThreadPc.Stirs]) (by simp)
  | guard pc hpc hcvMutex =>
      cases hbefore : s.pc t with
      | locking priority | awake priority | unlocking priority =>
          obtain rfl : _ = pc := by simpa [hbefore, ThreadPc.guarded] using hpc
          exact hs.moves rfl rfl rfl (by simp [hbefore, ThreadPc.Holds])
            (by simp [hbefore, ThreadPc.CountedHigh]) (by simp [hbefore, ThreadPc.Stirs])
            (by simp)
      | outside | testing _ | asleep _ | retesting _ | holding _ | releasing _
      | notifying _ => simp [hbefore, ThreadPc.guarded] at hpc
  | take priority hpc htake =>
      have hfree : s.dataTaken = false := by
        cases priority with
        | high => exact htake
        | low => exact htake.1
      exact hs.take hfree rfl rfl (by simp [hpc, ThreadPc.CountedHigh, MutexState.move])
  | retake priority hpc htake =>
      cases priority with
      | high =>
          have hwaiting : s.hpWaitingCount ≠ 0 := fun hnone =>
            hs.hpWaitingCount_eq_zero_iff.mp hnone t (.inr (.inr hpc))
          refine hs.take htake rfl rfl ?_
          simp only [hpc, ThreadPc.CountedHigh, if_true, or_true, reduceCtorEq]
          omega
      | low => exact hs.take htake.1 rfl rfl (by simp [hpc, ThreadPc.CountedHigh])
  | wait priority hpc hwait =>
      refine hs.sleep hwait (.inl hpc) rfl rfl ?_
      cases priority <;> simp [hpc, ThreadPc.CountedHigh]
  | rewait priority hpc hwait =>
      refine hs.sleep hwait (.inr hpc) rfl rfl ?_
      cases priority <;> simp [hpc, ThreadPc.CountedHigh, MutexState.move]
  | spurious priority hpc =>
      exact hs.moves rfl rfl rfl (by simp [hpc, ThreadPc.Holds])
        (by simp [hpc, ThreadPc.CountedHigh]) (by simp [hpc, ThreadPc.Stirs]) (by simp)
  | unlock priority hpc =>
      exact hs.moves rfl rfl rfl (by simp [hpc, ThreadPc.Holds])
        (by simp [hpc, ThreadPc.CountedHigh]) (by simp [hpc, ThreadPc.Stirs]) (by simp)
  | release priority hpc => exact hs.release hpc rfl rfl rfl
  | notify waiter priority hpc hwaiter =>
      have hne : waiter ≠ t := by
        rintro rfl
        simp [hpc] at hwaiter
      have hwoken : MutexInvariant (s.move waiter (.awake priority)) :=
        hs.moves rfl rfl rfl (by simp [hwaiter, ThreadPc.Holds])
          (by simp [hwaiter, ThreadPc.CountedHigh]) (by simp [hwaiter, ThreadPc.Stirs])
          (by simp)
      have hnotifying : (s.move waiter (.awake priority)).pc t = .notifying priority := by
        simpa [MutexState.move, hne.symm] using hpc
      refine hwoken.leave hnotifying (.inl ⟨waiter, hne, .inr (.inl ?_)⟩)
      simp [MutexState.move]
  | notifyNobody priority hpc hnobody => exact hs.leave hpc (.inr hnobody)

omit [Fintype Thread] in
/-- The lock is taken by a thread that may take it. -/
theorem canTake_of_acquire {u : Thread} {priority : Priority} (hstep : MutexStep s u s')
    (hbefore : s.pc t ≠ .holding priority) (hafter : s'.pc t = .holding priority) :
    s.CanTake priority := by
  cases hstep with
  | take p hpc htake | retake p hpc htake =>
      by_cases ht : t = u
      · subst ht
        obtain rfl : p = priority := by simpa [MutexState.move] using hafter
        exact htake
      · exact absurd (by simpa [MutexState.move, ht] using hafter) hbefore
  | lock _ _ | wait _ _ _ | rewait _ _ _ | spurious _ _ | unlock _ _ | release _ _
  | notifyNobody _ _ _ =>
      by_cases ht : t = u
      · subst ht
        simp [MutexState.move] at hafter
      · exact absurd (by simpa [MutexState.move, ht] using hafter) hbefore
  | guard pc hpc _ =>
      by_cases ht : t = u
      · subst ht
        obtain rfl : pc = .holding priority := by simpa [MutexState.move] using hafter
        cases hbefore' : s.pc t <;> simp [hbefore', ThreadPc.guarded] at hpc
      · exact absurd (by simpa [MutexState.move, ht] using hafter) hbefore
  | notify waiter p hpc hwaiter =>
      by_cases ht : t = u
      · subst ht
        simp [MutexState.move] at hafter
      · by_cases hw : t = waiter
        · subst hw
          simp [MutexState.move, ht] at hafter
        · exact absurd (by simpa [MutexState.move, ht, hw] using hafter) hbefore

/-- In every run of any number of threads, at most one has the lock, one of low priority
gets it only while none of high priority waits, these are counted, and no thread waits
for a free lock while nobody notifies or tests. -/
theorem mutex_favours_high_and_strands_nobody
    {trace : List (Move (MutexState Thread) Thread)} {finish : MutexState Thread}
    (hrun : Run MutexStep .initial trace finish) :
    Throughout Sound .initial trace ∧
      ∀ move ∈ trace, ∀ t, move.source.pc t ≠ .holding .low →
        move.target.pc t = .holding .low → move.source.hpWaitingCount = 0 := by
  have hmoves := hrun.moves_always mutexInvariant_step mutexInvariant_initial
  refine ⟨⟨mutexInvariant_initial.sound, fun move hmove => (hmoves move hmove).2.2.sound⟩,
    fun move hmove t hbefore hafter => ?_⟩
  exact (canTake_of_acquire (hmoves move hmove).1 hbefore hafter).2

end Invariant

/-- A thread of high priority waits while one of low priority has the lock, and takes it
when it has been notified. -/
theorem notified_thread_takes_lock :
    ∃ trace finish, Run MutexStep (.initial : MutexState (Fin 2)) trace finish ∧
      finish.pc 1 = .holding .high ∧ Throughout Sound .initial trace := by
  have hrun : Run MutexStep (.initial : MutexState (Fin 2)) _ _ :=
    .cons (.lock _ 0 .low rfl) <|
    .cons (.guard _ 0 (.testing .low) rfl rfl) <|
    .cons (.take _ 0 .low rfl ⟨rfl, rfl⟩) <|
    .cons (.lock _ 1 .high rfl) <|
    .cons (.guard _ 1 (.testing .high) rfl rfl) <|
    .cons (.wait _ 1 .high rfl Bool.noConfusion) <|
    .cons (.unlock _ 0 .low rfl) <|
    .cons (.guard _ 0 (.releasing .low) rfl rfl) <|
    .cons (.release _ 0 .low rfl) <|
    .cons (.notify _ 0 1 .high rfl rfl) <|
    .cons (.guard _ 1 (.retesting .high) rfl rfl) <|
    .cons (.retake _ 1 .high rfl rfl) <|
    .nil _
  exact ⟨_, _, hrun, rfl, (mutex_favours_high_and_strands_nobody hrun).1⟩

end RosRtems.Picas.MutexTwoPriorities
