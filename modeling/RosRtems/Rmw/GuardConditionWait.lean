import RosRtems.Core.Runs
import Mathlib.Logic.Function.Basic

/-!
# Waiting on guard conditions

Threads wait in the middleware on guard conditions that others trigger.  A waiting thread
reads one condition after the other and goes to sleep if none is raised.  To trigger a
condition is to raise it and, if it was not raised before, to wake whoever sleeps on it.
These are two steps, and neither takes the lock under which the waiting thread reads.  So
a thread can fall asleep on a raised condition, and a trigger can be reset unseen.
-/

namespace RosRtems.GuardConditionWait

open Function
open RosRtems.Runs

variable {Waiter Thread Condition : Type*}

/-! ## The protocol -/

/-- Where a thread is in `__rmw_wait`.  While the wait set evaluates its predicate, `rest`
is still to be read, and `last` is set when the time is up. -/
inductive WaiterPc (Condition : Type*)
  | outside
  | evaluating (conditions rest : List Condition) (found last : Bool)
  | blocked (conditions : List Condition)
  | testing (rest reported : List Condition)
  | resetting (condition : Condition) (seen : Bool) (rest reported : List Condition)

/-- `notifying` has the threads that have raised a condition and are yet to wake the
sleepers. -/
structure WaitState (Waiter Thread Condition : Type*) where
  raised : Condition → Bool
  waiter : Waiter → WaiterPc Condition
  notifying : Thread → Option Condition

def initial : WaitState Waiter Thread Condition where
  raised := fun _ => false
  waiter := fun _ => .outside
  notifying := fun _ => none

inductive WaitLabel (Waiter Thread Condition : Type*)
  | enter (w : Waiter) (conditions : List Condition)
  | read (w : Waiter) (condition : Condition)
  | readOther (w : Waiter)
  | proceed (w : Waiter)
  | sleep (w : Waiter)
  | wake (w : Waiter)
  | timeout (w : Waiter)
  | test (w : Waiter) (condition : Condition)
  | reset (w : Waiter) (condition : Condition) (seen : Bool)
  | leave (w : Waiter) (reported : List Condition)
  | trigger (thread : Thread) (condition : Condition)
  | notify (thread : Thread) (condition : Condition)

section Steps

variable [DecidableEq Waiter] [DecidableEq Thread] [DecidableEq Condition]

/-- `WaitSetImpl::wake_up`: who does not sleep on the condition goes on as before. -/
def WaiterPc.wakeUp (condition : Condition) : WaiterPc Condition → WaiterPc Condition
  | .blocked conditions =>
      if condition ∈ conditions then .evaluating conditions conditions false false
      else .blocked conditions
  | pc => pc

namespace WaitState

variable (s : WaitState Waiter Thread Condition)

def goto (w : Waiter) (pc : WaiterPc Condition) : WaitState Waiter Thread Condition :=
  { s with waiter := update s.waiter w pc }

def lower (condition : Condition) : WaitState Waiter Thread Condition :=
  { s with raised := update s.raised condition false }

/-- `GuardCondition::set_trigger_value(true)`, up to the notification. -/
def trigger (thread : Thread) (condition : Condition) : WaitState Waiter Thread Condition :=
  { s with
    raised := update s.raised condition true
    notifying :=
      if s.raised condition then s.notifying
      else update s.notifying thread (some condition) }

/-- `ConditionNotifier::notify`. -/
def notify (thread : Thread) (condition : Condition) : WaitState Waiter Thread Condition :=
  { s with
    waiter := fun w => (s.waiter w).wakeUp condition
    notifying := update s.notifying thread none }

end WaitState

/-- A sleeping thread also wakes up without being notified, or because of one of the other
conditions that it has attached. -/
inductive WaitStep : WaitState Waiter Thread Condition →
    WaitLabel Waiter Thread Condition → WaitState Waiter Thread Condition → Prop
  | enter (s : WaitState Waiter Thread Condition) (w : Waiter) (conditions : List Condition)
      (hpc : s.waiter w = .outside) :
      WaitStep s (.enter w conditions) (s.goto w (.evaluating conditions conditions false false))
  | read (s : WaitState Waiter Thread Condition) (w : Waiter) (condition : Condition)
      (conditions rest : List Condition) (found last : Bool)
      (hpc : s.waiter w = .evaluating conditions (condition :: rest) found last) :
      WaitStep s (.read w condition)
        (s.goto w (.evaluating conditions rest (found || s.raised condition) last))
  | readOther (s : WaitState Waiter Thread Condition) (w : Waiter)
      (conditions rest : List Condition) (found last : Bool)
      (hpc : s.waiter w = .evaluating conditions rest found last) :
      WaitStep s (.readOther w) (s.goto w (.evaluating conditions rest true last))
  | proceed (s : WaitState Waiter Thread Condition) (w : Waiter)
      (conditions : List Condition) (found last : Bool)
      (hpc : s.waiter w = .evaluating conditions [] found last)
      (hgoes : (found || last) = true) :
      WaitStep s (.proceed w) (s.goto w (.testing conditions []))
  | sleep (s : WaitState Waiter Thread Condition) (w : Waiter) (conditions : List Condition)
      (hpc : s.waiter w = .evaluating conditions [] false false) :
      WaitStep s (.sleep w) (s.goto w (.blocked conditions))
  | wake (s : WaitState Waiter Thread Condition) (w : Waiter) (conditions : List Condition)
      (hpc : s.waiter w = .blocked conditions) :
      WaitStep s (.wake w) (s.goto w (.evaluating conditions conditions false false))
  | timeout (s : WaitState Waiter Thread Condition) (w : Waiter)
      (conditions : List Condition) (hpc : s.waiter w = .blocked conditions) :
      WaitStep s (.timeout w) (s.goto w (.evaluating conditions conditions false true))
  | test (s : WaitState Waiter Thread Condition) (w : Waiter) (condition : Condition)
      (rest reported : List Condition)
      (hpc : s.waiter w = .testing (condition :: rest) reported) :
      WaitStep s (.test w condition)
        (s.goto w (.resetting condition (s.raised condition) rest reported))
  | reset (s : WaitState Waiter Thread Condition) (w : Waiter) (condition : Condition)
      (seen : Bool) (rest reported : List Condition)
      (hpc : s.waiter w = .resetting condition seen rest reported) :
      WaitStep s (.reset w condition seen)
        ((s.lower condition).goto w
          (.testing rest (if seen then reported ++ [condition] else reported)))
  | leave (s : WaitState Waiter Thread Condition) (w : Waiter) (reported : List Condition)
      (hpc : s.waiter w = .testing [] reported) :
      WaitStep s (.leave w reported) (s.goto w .outside)
  | trigger (s : WaitState Waiter Thread Condition) (thread : Thread) (condition : Condition)
      (hidle : s.notifying thread = none) :
      WaitStep s (.trigger thread condition) (s.trigger thread condition)
  | notify (s : WaitState Waiter Thread Condition) (thread : Thread) (condition : Condition)
      (hnotifying : s.notifying thread = some condition) :
      WaitStep s (.notify thread condition) (s.notify thread condition)

end Steps

/-! ## Sleeping on a raised condition -/

namespace WaitState

variable (s : WaitState Waiter Thread Condition)

/-- Somebody is about to wake the sleepers. -/
def Announced (condition : Condition) : Prop :=
  ∃ thread, s.notifying thread = some condition

/-- Asleep on a raised condition, and nobody is about to change this. -/
def Stuck (w : Waiter) (condition : Condition) : Prop :=
  ∃ conditions, s.waiter w = .blocked conditions ∧ condition ∈ conditions ∧
    s.raised condition = true ∧ ¬ s.Announced condition

def NobodyStuck : Prop := ∀ w condition, ¬ s.Stuck w condition

/-- Who falls asleep does so on conditions that are not raised or still to be announced. -/
def InTime : WaitLabel Waiter Thread Condition → Prop
  | .sleep w => ∀ conditions, s.waiter w = .evaluating conditions [] false false →
      ∀ condition ∈ conditions, s.raised condition = true → s.Announced condition
  | _ => True

/-- A notification comes before the condition is read by those who are about to sleep. -/
def Noticed : WaitLabel Waiter Thread Condition → Prop
  | .notify _ condition => ∀ w conditions rest,
      s.waiter w = .evaluating conditions rest false false → condition ∈ conditions →
      condition ∈ rest
  | _ => True

/-- What ends the sleep of a thread that is stuck. -/
def Disturbs (w : Waiter) (condition : Condition) : WaitLabel Waiter Thread Condition → Prop
  | .wake other | .timeout other => other = w
  | .reset _ other _ => other = condition
  | .notify _ other => ∃ conditions, s.waiter w = .blocked conditions ∧ other ∈ conditions
  | _ => False

end WaitState

section Stuck

variable [DecidableEq Waiter] [DecidableEq Thread] [DecidableEq Condition]
  {s s' : WaitState Waiter Thread Condition} {label : WaitLabel Waiter Thread Condition}
  {trace : List (Move (WaitState Waiter Thread Condition) (WaitLabel Waiter Thread Condition))}
  {w : Waiter} {condition : Condition}

omit [DecidableEq Thread] [DecidableEq Condition] in
theorem stuck_goto_of_ne {other : Waiter} {pc : WaiterPc Condition} (hother : w ≠ other) :
    (s.goto other pc).Stuck w condition ↔ s.Stuck w condition := by
  simp [WaitState.Stuck, WaitState.Announced, WaitState.goto, update_of_ne hother]

omit [DecidableEq Thread] [DecidableEq Condition] in
theorem not_stuck_goto {pc : WaiterPc Condition} (hpc : ∀ conditions, pc ≠ .blocked conditions) :
    ¬ (s.goto w pc).Stuck w condition := by
  rintro ⟨conditions, hblocked, -⟩
  exact hpc conditions (by simpa [WaitState.goto] using hblocked)

omit [DecidableEq Thread] [DecidableEq Condition] in
/-- A waiter that goes anywhere but to sleep leaves nobody stuck. -/
theorem nobodyStuck_goto (hs : s.NobodyStuck) {pc : WaiterPc Condition}
    (hpc : ∀ conditions, pc ≠ .blocked conditions) : (s.goto w pc).NobodyStuck := by
  intro other condition
  by_cases hother : other = w
  · subst hother
    exact not_stuck_goto hpc
  · rw [stuck_goto_of_ne hother]
    exact hs other condition

omit [DecidableEq Thread] [DecidableEq Condition] in
theorem nobodyStuck_sleep_iff (hs : s.NobodyStuck) {conditions : List Condition}
    (hpc : s.waiter w = .evaluating conditions [] false false) :
    (s.goto w (.blocked conditions)).NobodyStuck ↔ s.InTime (.sleep w) := by
  constructor
  · intro hnobody others hothers condition hmem hraised
    obtain rfl : conditions = others := by
      rw [hpc] at hothers
      exact (WaiterPc.evaluating.inj hothers).1
    by_contra hannounced
    exact hnobody w condition ⟨conditions, update_self _ _ _, hmem, hraised, hannounced⟩
  · intro hintime other condition hstuck
    by_cases hother : other = w
    · subst hother
      obtain ⟨others, hblocked, hmem, hraised, hannounced⟩ := hstuck
      obtain rfl : conditions = others := by simpa [WaitState.goto] using hblocked
      exact hannounced (hintime conditions hpc condition hmem hraised)
    · exact hs other condition ((stuck_goto_of_ne hother).mp hstuck)

omit [DecidableEq Waiter] [DecidableEq Thread] in
theorem nobodyStuck_lower (hs : s.NobodyStuck) (condition : Condition) :
    (s.lower condition).NobodyStuck := by
  rintro w other ⟨conditions, hblocked, hmem, hraised, hannounced⟩
  refine hs w other ⟨conditions, hblocked, hmem, ?_, hannounced⟩
  by_cases hsame : other = condition
  · simp [WaitState.lower, hsame] at hraised
  · simpa [WaitState.lower, hsame] using hraised

omit [DecidableEq Waiter] in
/-- Who triggers a condition that is not raised announces it. -/
theorem announced_trigger {thread : Thread} (hidle : s.notifying thread = none)
    {other : Condition} (hannounced : s.Announced other) :
    (s.trigger thread condition).Announced other := by
  obtain ⟨announcer, hannouncer⟩ := hannounced
  have hne : announcer ≠ thread := by
    rintro rfl
    rw [hidle] at hannouncer
    cases hannouncer
  refine ⟨announcer, ?_⟩
  simp only [WaitState.trigger]
  split
  · exact hannouncer
  · rwa [update_of_ne hne]

omit [DecidableEq Waiter] in
theorem announced_triggered {thread : Thread} (hlow : s.raised condition = false) :
    (s.trigger thread condition).Announced condition :=
  ⟨thread, by simp [WaitState.trigger, hlow]⟩

omit [DecidableEq Waiter] in
theorem nobodyStuck_trigger (hs : s.NobodyStuck) {thread : Thread}
    (hidle : s.notifying thread = none) : (s.trigger thread condition).NobodyStuck := by
  rintro w other ⟨conditions, hblocked, hmem, hraised, hannounced⟩
  by_cases hbefore : s.raised other = true
  · exact hs w other
      ⟨conditions, hblocked, hmem, hbefore, fun h => hannounced (announced_trigger hidle h)⟩
  · have hsame : other = condition := by
      by_contra hne
      exact hbefore (by simpa [WaitState.trigger, hne] using hraised)
    subst hsame
    exact hannounced (announced_triggered (by simpa using hbefore))

omit [DecidableEq Waiter] in
theorem announced_notify {thread : Thread} (hnotifying : s.notifying thread = some condition)
    {other : Condition} (hother : other ≠ condition) (hannounced : s.Announced other) :
    (s.notify thread condition).Announced other := by
  obtain ⟨announcer, hannouncer⟩ := hannounced
  have hne : announcer ≠ thread := by
    rintro rfl
    rw [hnotifying] at hannouncer
    exact hother (Option.some.inj hannouncer).symm
  exact ⟨announcer, by rw [← hannouncer]; exact update_of_ne hne _ _⟩

omit [DecidableEq Waiter] in
/-- Whoever still sleeps after a notification does not sleep on that condition. -/
theorem blocked_notify {thread : Thread} {conditions : List Condition}
    (hblocked : (s.notify thread condition).waiter w = .blocked conditions) :
    s.waiter w = .blocked conditions ∧ condition ∉ conditions := by
  change (s.waiter w).wakeUp condition = _ at hblocked
  cases hpc : s.waiter w with
  | blocked others =>
      rw [hpc, WaiterPc.wakeUp] at hblocked
      split at hblocked
      · cases hblocked
      · rename_i hmem
        cases hblocked
        exact ⟨rfl, hmem⟩
  | _ => simp [hpc, WaiterPc.wakeUp] at hblocked

omit [DecidableEq Waiter] in
theorem nobodyStuck_notify (hs : s.NobodyStuck) {thread : Thread}
    (hnotifying : s.notifying thread = some condition) :
    (s.notify thread condition).NobodyStuck := by
  rintro w other ⟨conditions, hblocked, hmem, hraised, hannounced⟩
  obtain ⟨hblocked, habsent⟩ := blocked_notify hblocked
  have hother : other ≠ condition := by
    rintro rfl
    exact habsent hmem
  exact hs w other ⟨conditions, hblocked, hmem, hraised,
    fun h => hannounced (announced_notify hnotifying hother h)⟩

/-- A step leaves somebody stuck exactly if it is a thread falling asleep too late. -/
theorem nobodyStuck_step_iff (hs : s.NobodyStuck) (hstep : WaitStep s label s') :
    s'.NobodyStuck ↔ s.InTime label := by
  cases hstep with
  | sleep w conditions hpc => exact nobodyStuck_sleep_iff hs hpc
  | trigger thread condition hidle => exact iff_of_true (nobodyStuck_trigger hs hidle) trivial
  | notify thread condition hnotifying =>
      exact iff_of_true (nobodyStuck_notify hs hnotifying) trivial
  | reset w condition seen rest reported hpc =>
      exact iff_of_true (nobodyStuck_goto (nobodyStuck_lower hs condition) (by simp)) trivial
  | _ => exact iff_of_true (nobodyStuck_goto hs (by simp)) trivial

/-! ## Conditions read before they are raised -/

/-- What a thread has read, if it has found nothing, is low or about to be announced. -/
def WaitState.ReadInTime (s : WaitState Waiter Thread Condition) : Prop :=
  ∀ w conditions rest, s.waiter w = .evaluating conditions rest false false →
    ∀ condition ∈ conditions, condition ∉ rest → s.raised condition = true →
      s.Announced condition

omit [DecidableEq Thread] [DecidableEq Condition] in
theorem readInTime_goto (hs : s.ReadInTime) {pc : WaiterPc Condition}
    (hpc : ∀ conditions rest, pc = .evaluating conditions rest false false →
      ∀ condition ∈ conditions, condition ∉ rest → s.raised condition = true →
        s.Announced condition) : (s.goto w pc).ReadInTime := by
  intro other conditions rest hother
  by_cases hsame : other = w
  · subst hsame
    exact hpc conditions rest (by simpa [WaitState.goto] using hother)
  · exact hs other conditions rest (by simpa [WaitState.goto, hsame] using hother)

omit [DecidableEq Waiter] [DecidableEq Thread] in
theorem readInTime_lower (hs : s.ReadInTime) (condition : Condition) :
    (s.lower condition).ReadInTime := by
  intro w conditions rest hpc other hmem habsent hraised
  apply hs w conditions rest hpc other hmem habsent
  by_cases hsame : other = condition
  · simp [WaitState.lower, hsame] at hraised
  · simpa [WaitState.lower, hsame] using hraised

theorem readInTime_step (hs : s.ReadInTime) (hnoticed : s.Noticed label)
    (hstep : WaitStep s label s') : s'.ReadInTime := by
  cases hstep with
  | read w condition conditions rest found last hpc =>
      apply readInTime_goto hs
      rintro conditions' rest' hsame other hmem habsent hraised
      simp only [WaiterPc.evaluating.injEq, Bool.or_eq_false_iff] at hsame
      obtain ⟨rfl, rfl, ⟨rfl, hlow⟩, rfl⟩ := hsame
      refine hs w conditions _ hpc other hmem ?_ hraised
      rintro (_ | ⟨_, hmem⟩)
      · rw [hlow] at hraised
        cases hraised
      · exact habsent hmem
  | trigger thread condition hidle =>
      intro w conditions rest hpc other hmem habsent hraised
      by_cases hbefore : s.raised other = true
      · exact announced_trigger hidle (hs w conditions rest hpc other hmem habsent hbefore)
      · have hsame : other = condition := by
          by_contra hne
          exact hbefore (by simpa [WaitState.trigger, hne] using hraised)
        subst hsame
        exact announced_triggered (by simpa using hbefore)
  | notify thread condition hnotifying =>
      intro w conditions rest hpc other hmem habsent hraised
      change (s.waiter w).wakeUp condition = _ at hpc
      have hbefore : s.waiter w = .evaluating conditions rest false false := by
        cases hwaiter : s.waiter w with
        | blocked others =>
            rw [hwaiter, WaiterPc.wakeUp] at hpc
            split at hpc
            · cases hpc
              exact absurd hmem habsent
            · cases hpc
        | evaluating => simpa [hwaiter, WaiterPc.wakeUp] using hpc
        | _ => simp [hwaiter, WaiterPc.wakeUp] at hpc
      have hother : other ≠ condition := by
        rintro rfl
        exact habsent (hnoticed w conditions rest hbefore hmem)
      exact announced_notify hnotifying hother
        (hs w conditions rest hbefore other hmem habsent hraised)
  | reset w condition seen rest reported hpc =>
      exact readInTime_goto (readInTime_lower hs condition) (by simp)
  | readOther w conditions rest found last hpc => exact readInTime_goto hs (by simp)
  | enter w conditions hpc =>
      apply readInTime_goto hs
      rintro _ _ hsame condition hmem habsent
      cases hsame
      exact absurd hmem habsent
  | wake w conditions hpc =>
      apply readInTime_goto hs
      rintro _ _ hsame condition hmem habsent
      cases hsame
      exact absurd hmem habsent
  | _ => exact readInTime_goto hs (by simp)

omit [DecidableEq Waiter] [DecidableEq Thread] [DecidableEq Condition] in
theorem inTime_of_readInTime (hs : s.ReadInTime) (label : WaitLabel Waiter Thread Condition) :
    s.InTime label := by
  cases label with
  | sleep w =>
      intro conditions hpc condition hmem hraised
      exact hs w conditions [] hpc condition hmem List.not_mem_nil hraised
  | _ => trivial

omit [DecidableEq Waiter] [DecidableEq Thread] [DecidableEq Condition] in
theorem nobodyStuck_initial :
    (initial : WaitState Waiter Thread Condition).NobodyStuck := by
  rintro w condition ⟨conditions, hblocked, -⟩
  cases hblocked

omit [DecidableEq Waiter] [DecidableEq Thread] [DecidableEq Condition] in
theorem readInTime_initial :
    (initial : WaitState Waiter Thread Condition).ReadInTime := by
  intro w conditions rest hpc
  cases hpc

/-- Triggering a condition that is raised wakes nobody: a thread that is stuck stays so
through every step but its own waking up, a notification of another of its conditions, and
a reset. -/
theorem stuck_step_iff (hs : s.Stuck w condition) (hstep : WaitStep s label s') :
    s'.Stuck w condition ↔ ¬ s.Disturbs w condition label := by
  obtain ⟨conditions, hblocked, hmem, hraised, hannounced⟩ := id hs
  have hother : ∀ {other : Waiter} {pc : WaiterPc Condition}, s.waiter other = pc →
      (∀ conditions, pc ≠ .blocked conditions) → w ≠ other := by
    rintro other pc hpc hne rfl
    exact hne conditions (hpc.symm.trans hblocked)
  cases hstep with
  | wake other others hpc =>
      by_cases hsame : w = other
      · subst hsame
        exact iff_of_false (not_stuck_goto (by simp)) (not_not.mpr rfl)
      · exact iff_of_true ((stuck_goto_of_ne hsame).mpr hs) (Ne.symm hsame)
  | timeout other others hpc =>
      by_cases hsame : w = other
      · subst hsame
        exact iff_of_false (not_stuck_goto (by simp)) (not_not.mpr rfl)
      · exact iff_of_true ((stuck_goto_of_ne hsame).mpr hs) (Ne.symm hsame)
  | reset other lowered seen rest reported hpc =>
      rw [stuck_goto_of_ne (hother hpc (by simp))]
      by_cases hsame : lowered = condition
      · subst hsame
        refine iff_of_false ?_ (not_not.mpr rfl)
        rintro ⟨_, _, _, hlow, _⟩
        simp [WaitState.lower] at hlow
      · refine iff_of_true ⟨conditions, hblocked, hmem, ?_, hannounced⟩ hsame
        simpa [WaitState.lower, Ne.symm hsame] using hraised
  | trigger thread triggered hidle =>
      refine iff_of_true ⟨conditions, hblocked, hmem, ?_, ?_⟩ id
      · by_cases hsame : condition = triggered
        · simp [WaitState.trigger, hsame]
        · simpa [WaitState.trigger, hsame] using hraised
      · rintro ⟨announcer, hannouncer⟩
        apply hannounced
        simp only [WaitState.trigger] at hannouncer
        split at hannouncer
        · exact ⟨announcer, hannouncer⟩
        · rename_i hlow
          by_cases hsame : announcer = thread
          · rw [hsame, update_self] at hannouncer
            cases hannouncer
            exact absurd hraised hlow
          · rw [update_of_ne hsame] at hannouncer
            exact ⟨announcer, hannouncer⟩
  | notify thread notified hnotifying =>
      by_cases hwoken : notified ∈ conditions
      · refine iff_of_false ?_ (not_not.mpr ⟨conditions, hblocked, hwoken⟩)
        rintro ⟨_, hstill, -⟩
        obtain ⟨hsame, habsent⟩ := blocked_notify hstill
        rw [hblocked] at hsame
        cases hsame
        exact habsent hwoken
      · refine iff_of_true ⟨conditions, ?_, hmem, hraised, ?_⟩ ?_
        · change (s.waiter w).wakeUp notified = _
          rw [hblocked, WaiterPc.wakeUp, if_neg hwoken]
        · rintro ⟨announcer, hannouncer⟩
          change update s.notifying thread none announcer = _ at hannouncer
          apply hannounced
          by_cases hsame : announcer = thread
          · simp [hsame] at hannouncer
          · exact ⟨announcer, by simpa [hsame] using hannouncer⟩
        · rintro ⟨others, hothers, hmem⟩
          rw [hblocked] at hothers
          cases hothers
          exact hwoken hmem
  | sleep other others hpc =>
      exact iff_of_true ((stuck_goto_of_ne (hother hpc (by simp))).mpr hs) id
  | enter other others hpc =>
      exact iff_of_true ((stuck_goto_of_ne (hother hpc (by simp))).mpr hs) id
  | read other _ _ _ _ _ hpc =>
      exact iff_of_true ((stuck_goto_of_ne (hother hpc (by simp))).mpr hs) id
  | readOther other _ _ _ _ hpc =>
      exact iff_of_true ((stuck_goto_of_ne (hother hpc (by simp))).mpr hs) id
  | proceed other _ _ _ hpc hgoes =>
      exact iff_of_true ((stuck_goto_of_ne (hother hpc (by simp))).mpr hs) id
  | test other _ _ _ hpc =>
      exact iff_of_true ((stuck_goto_of_ne (hother hpc (by simp))).mpr hs) id
  | leave other _ hpc =>
      exact iff_of_true ((stuck_goto_of_ne (hother hpc (by simp))).mpr hs) id

/-- However often its condition is triggered, a thread that is stuck stays stuck exactly
as long as nothing disturbs it. -/
theorem stuck_throughout_iff (hs : s.Stuck w condition) (hrun : Run WaitStep s trace s') :
    Throughout (fun state => state.Stuck w condition) s trace ↔
      Admitted (fun state label => ¬ state.Disturbs w condition label) trace := by
  apply hrun.throughout_iff_admitted (fun _ => id) _ _ hs
  · exact fun _ _ _ hs hadmits hstep => (stuck_step_iff hs hstep).mpr hadmits
  · exact fun _ _ _ hs hstep hs' => (stuck_step_iff hs hstep).mp hs'

end Stuck

/-! ## Triggers that nobody sees -/

/-- A state, and the conditions that have been triggered since they were last reported. -/
structure History (Waiter Thread Condition : Type*) where
  state : WaitState Waiter Thread Condition
  unanswered : Condition → Bool

def History.begin : History Waiter Thread Condition where
  state := initial
  unanswered := fun _ => false

section History

variable [DecidableEq Waiter] [DecidableEq Thread] [DecidableEq Condition]

def noted (unanswered : Condition → Bool) :
    WaitLabel Waiter Thread Condition → Condition → Bool
  | .trigger _ condition => update unanswered condition true
  | .reset _ condition true => update unanswered condition false
  | _ => unanswered

inductive HistoryStep : History Waiter Thread Condition →
    WaitLabel Waiter Thread Condition → History Waiter Thread Condition → Prop
  | intro {h : History Waiter Thread Condition} {label : WaitLabel Waiter Thread Condition}
      {state : WaitState Waiter Thread Condition} (hstep : WaitStep h.state label state) :
      HistoryStep h label ⟨state, noted h.unanswered label⟩

/-- What has been triggered and not been reported is still to be seen. -/
def History.NothingLost (h : History Waiter Thread Condition) : Prop :=
  ∀ condition, h.unanswered condition = true → h.state.raised condition = true

def History.RaisedByTrigger (h : History Waiter Thread Condition) : Prop :=
  ∀ condition, h.state.raised condition = true → h.unanswered condition = true

/-- A condition that was low when it was tested is still low when it is reset. -/
def History.SeesWhatItResets (h : History Waiter Thread Condition) :
    WaitLabel Waiter Thread Condition → Prop
  | .reset _ condition false => h.state.raised condition = false
  | _ => True

variable {h h' : History Waiter Thread Condition} {label : WaitLabel Waiter Thread Condition}
  {trace : List (Move (History Waiter Thread Condition) (WaitLabel Waiter Thread Condition))}

/-- A condition is raised by a trigger and lowered by a reset. -/
def raisedAfter (raised : Condition → Bool) :
    WaitLabel Waiter Thread Condition → Condition → Bool
  | .trigger _ condition => update raised condition true
  | .reset _ condition _ => update raised condition false
  | _ => raised

theorem raised_step {s s' : WaitState Waiter Thread Condition} (hstep : WaitStep s label s') :
    s'.raised = raisedAfter s.raised label := by
  cases hstep <;> rfl

omit [DecidableEq Waiter] [DecidableEq Thread] in
/-- A trigger raises what it leaves unanswered, and a reset lowers what was reported. -/
theorem noted_eq_raisedAfter {unanswered raised : Condition → Bool}
    (hlabel : ∀ w condition, label = .reset w condition false → unanswered condition = false)
    (hsame : unanswered = raised) : noted unanswered label = raisedAfter raised label := by
  subst hsame
  cases label with
  | reset w lowered seen =>
      cases seen with
      | true => rfl
      | false =>
          have hlow := hlabel w lowered rfl
          exact (update_eq_self_iff.mpr hlow.symm).symm
  | _ => rfl

theorem raisedByTrigger_step (hh : h.RaisedByTrigger) (hstep : HistoryStep h label h') :
    h'.RaisedByTrigger := by
  obtain ⟨hstep⟩ := hstep
  intro condition hraised
  change _ = true at hraised
  rw [raised_step hstep] at hraised
  cases label with
  | trigger thread triggered =>
      by_cases hsame : condition = triggered
      · simp [noted, hsame]
      · simpa [noted, hsame] using hh condition (by simpa [raisedAfter, hsame] using hraised)
  | reset w lowered seen =>
      by_cases hsame : condition = lowered
      · simp [raisedAfter, hsame] at hraised
      · have hbefore := hh condition (by simpa [raisedAfter, hsame] using hraised)
        cases seen <;> simpa [noted, hsame] using hbefore
  | _ => exact hh condition hraised

theorem nothingLost_step_iff (hh : h.RaisedByTrigger) (hkept : h.NothingLost)
    (hstep : HistoryStep h label h') : h'.NothingLost ↔ h.SeesWhatItResets label := by
  have hsame : h.unanswered = h.state.raised := by
    funext condition
    exact Bool.eq_iff_iff.mpr ⟨hkept condition, hh condition⟩
  obtain ⟨hstep⟩ := hstep
  have hafter := raised_step hstep
  constructor
  · intro hkept'
    cases label with
    | reset w lowered seen =>
        cases seen with
        | true => trivial
        | false =>
            change h.state.raised lowered = false
            by_contra hraised
            have hlost := hkept' lowered (hh lowered (by simpa using hraised))
            simp [hafter, raisedAfter] at hlost
    | _ => trivial
  · intro hsees condition hunanswered
    change _ = true at hunanswered
    rw [noted_eq_raisedAfter _ hsame, ← hafter] at hunanswered
    · exact hunanswered
    · rintro w lowered rfl
      rw [hsame]
      exact hsees

/-- No trigger is ever lost exactly if none arrives between the test of its condition and
the reset. -/
theorem nothingLost_throughout_iff (hrun : Run HistoryStep .begin trace h) :
    Throughout History.NothingLost .begin trace ↔ Admitted History.SeesWhatItResets trace := by
  have hbegin : (History.begin : History Waiter Thread Condition).RaisedByTrigger ∧
      (History.begin : History Waiter Thread Condition).NothingLost :=
    ⟨fun _ hraised => hraised, fun _ hunanswered => hunanswered⟩
  have hholds : ∀ h : History Waiter Thread Condition,
      h.RaisedByTrigger ∧ h.NothingLost → h.NothingLost := fun _ hh => hh.2
  apply hrun.throughout_iff_admitted hholds _ _ hbegin
  · exact fun _ _ _ hh hsees hstep =>
      ⟨raisedByTrigger_step hh.1 hstep, (nothingLost_step_iff hh.1 hh.2 hstep).mpr hsees⟩
  · exact fun _ _ _ hh hstep hkept => (nothingLost_step_iff hh.1 hh.2 hstep).mp hkept

end History

/-! ## Runs that go wrong -/

section Examples

abbrev UnitState := WaitState Unit Unit Unit
abbrev UnitLabel := WaitLabel Unit Unit Unit

theorem late_sleep : ∃ (trace : List (Move UnitState UnitLabel)) (s : UnitState),
    Run WaitStep initial trace s ∧ s.Stuck () () ∧ s.notifying () = none := by
  obtain ⟨trace, s, hrun, hblocked, hraised, hquiet⟩ : ∃ (trace : List (Move UnitState UnitLabel))
      (s : UnitState), Run WaitStep initial trace s ∧ s.waiter () = .blocked [()] ∧
        s.raised () = true ∧ s.notifying () = none :=
    ⟨_, _, .cons (.enter _ () [()] rfl) <| .cons (.read _ () () [()] [] false false rfl) <|
      .cons (.trigger _ () () rfl) <| .cons (.notify _ () () rfl) <|
        .cons (.sleep _ () [()] rfl) <| .nil _, rfl, rfl, rfl⟩
  refine ⟨trace, s, hrun, ⟨[()], hblocked, List.mem_singleton_self (), hraised, ?_⟩, hquiet⟩
  rintro ⟨thread, hannouncer⟩
  rw [hquiet] at hannouncer
  cases hannouncer

/-- The next trigger does not wake the thread. -/
theorem late_sleep_lasts : ∃ (s s' : UnitState) (trace : List (Move UnitState UnitLabel)),
    Run WaitStep s trace s' ∧ trace.map Move.label = [.trigger () ()] ∧ s'.Stuck () () := by
  obtain ⟨-, s, -, hstuck, hquiet⟩ := late_sleep
  have hrun : Run WaitStep s _ _ := .cons (.trigger s () () hquiet) (.nil _)
  have hall := (stuck_throughout_iff hstuck hrun).mpr (.cons id (.nil _))
  exact ⟨s, _, _, hrun, rfl, hrun.finish_of_throughout hall⟩

/-- A trigger between the test and the reset. -/
theorem unseen_trigger_lost : ∃ (trace : List (Move (History Unit Unit Unit) UnitLabel))
    (h : History Unit Unit Unit), Run HistoryStep .begin trace h ∧
      ¬ Throughout History.NothingLost .begin trace := by
  obtain ⟨trace, h, hrun, hunsees⟩ : ∃ (trace : List (Move (History Unit Unit Unit) UnitLabel))
      (h : History Unit Unit Unit), Run HistoryStep .begin trace h ∧
        ¬ Admitted History.SeesWhatItResets trace := by
    refine ⟨_, _, .cons (.intro (.enter _ () [()] rfl)) <|
      .cons (.intro (.read _ () () [()] [] false false rfl)) <|
      .cons (.intro (.readOther _ () [()] [] false false rfl)) <|
      .cons (.intro (.proceed _ () [()] true false rfl rfl)) <|
      .cons (.intro (.test _ () () [] [] rfl)) <| .cons (.intro (.trigger _ () () rfl)) <|
      .cons (.intro (.reset _ () () false [] [] rfl)) <| .nil _, fun hsees => ?_⟩
    have hlow := hsees _ (List.getLast_mem (List.cons_ne_nil _ _))
    cases hlow
  exact ⟨trace, h, hrun, fun hall => hunsees ((nothingLost_throughout_iff hrun).mp hall)⟩

end Examples

end RosRtems.GuardConditionWait
