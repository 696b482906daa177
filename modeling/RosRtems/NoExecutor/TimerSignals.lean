import RosRtems.NoExecutor.Executables
import RosRtems.NoExecutor.PosixTimers
import Mathlib.Logic.Function.Basic

/-!
# The signal of the POSIX timers

All POSIX timers of the executor send the same signal.  The handler of the Linux build
finds the timer that has expired in the signal and dispatches that one.  The handler
of the RTEMS build does not know it and dispatches every timer that is not cancelled,
so that the two agree exactly where all timers but the expired one are cancelled.
-/

namespace RosRtems.NoExecutor

open RosRtems.Runs

variable {Node Timer Group : Type*}

/-- A signal that the handler has treated: the timer that had expired, whether its
callback was due, and the timers that were dispatched. -/
structure Signal (Timer Group : Type*) where
  expired : Request Group Timer
  due : Bool
  dispatched : List (Request Group Timer)
  deriving DecidableEq

structure SignalState (Node Timer Group : Type*) where
  executor : TimerState Node Timer Group
  gActiveExecutor : Bool
  isCanceled : Timer → Bool
  signals : List (Signal Timer Group)

def SignalState.initial : SignalState Node Timer Group where
  executor := .initial
  gActiveExecutor := false
  isCanceled := fun _ => false
  signals := []

/-- What the executable of a timer is built from. -/
def PosixTimer.request (timer : PosixTimer Timer Group) : Request Group Timer :=
  ⟨.timer, timer.callbackGroup, timer.timer⟩

namespace SignalState

variable (s : SignalState Node Timer Group)

/-- The callback of the timer is to run for an expiration that is treated now. -/
def isDue (timer : Timer) : Bool := s.executor.started && !s.isCanceled timer

/-- The loop of `handle_timer` on RTEMS, over all timers of the active executor. -/
def dispatchAll : List (Request Group Timer) :=
  if s.gActiveExecutor && s.executor.started then
    (s.executor.timers.filter (fun timer => !s.isCanceled timer.timer)).map
      PosixTimer.request
  else []

/-- The rest of `handle_timer` on Linux, for the timer in the signal. -/
def dispatchOne (ptimer : PosixTimer Timer Group) : List (Request Group Timer) :=
  if s.executor.started then
    if s.isCanceled ptimer.timer then [] else [ptimer.request]
  else []

def record (ptimer : PosixTimer Timer Group) (dispatched : List (Request Group Timer)) :
    SignalState Node Timer Group :=
  { s with signals := s.signals ++ [⟨ptimer.request, s.isDue ptimer.timer, dispatched⟩] }

/-- `handle_timer`, for the signal of the timer that has expired. -/
def handleTimer (k : ℕ) (ptimer : PosixTimer Timer Group) (build : Build) :
    SignalState Node Timer Group :=
  let dispatched := match build with
    | .rtems => s.dispatchAll
    | .linux => s.dispatchOne ptimer
  { s.record ptimer dispatched with
    executor := s.executor.expire build k ptimer (s.isCanceled ptimer.timer) }

end SignalState

/-- `start` makes its executor the active one. -/
def TimerLabel.isStart : TimerLabel Node Timer Group → Bool
  | .start _ => true
  | .addNode _ _ | .removeNode _ | .stop | .destroy => false

inductive SignalLabel (Node Timer Group : Type*)
  | call (label : TimerLabel Node Timer Group)
  | cancel (timer : Timer)
  | reset (timer : Timer)
  | expire (k : ℕ)

/-- Any order of the calls of the executor, of `cancel` and `reset` of its timers, and of
signals of the timers that it has created. -/
inductive SignalStep [DecidableEq Node] [DecidableEq Timer] (build : Build) :
    SignalState Node Timer Group → SignalLabel Node Timer Group →
      SignalState Node Timer Group → Prop
  | call (s : SignalState Node Timer Group) (label : TimerLabel Node Timer Group)
      (executor : TimerState Node Timer Group)
      (hstep : TimerStep s.executor label executor) :
      SignalStep build s (.call label) { s with
        executor := executor
        gActiveExecutor := s.gActiveExecutor || label.isStart }
  | cancel (s : SignalState Node Timer Group) (timer : Timer) :
      SignalStep build s (.cancel timer)
        { s with isCanceled := Function.update s.isCanceled timer true }
  | reset (s : SignalState Node Timer Group) (timer : Timer) :
      SignalStep build s (.reset timer)
        { s with isCanceled := Function.update s.isCanceled timer false }
  | expire (s : SignalState Node Timer Group) (k : ℕ) (os : OsTimer)
      (ptimer : PosixTimer Timer Group) (hos : s.executor.osTimers k = some os)
      (hptimer : s.executor.timers[os.sigev]? = some ptimer) :
      SignalStep build s (.expire k) (s.handleTimer k ptimer build)

/-- Every expiration of a timer that was due has dispatched this timer once, and no
expiration has dispatched anything else. -/
def DispatchedOnce (s : SignalState Node Timer Group) : Prop :=
  ∀ signal ∈ s.signals,
    signal.dispatched = if signal.due = true then [signal.expired] else []

/-- A timer expires while the executor is started only where every other registered
timer is cancelled. -/
def OthersCanceled (s : SignalState Node Timer Group) :
    SignalLabel Node Timer Group → Prop
  | .call _ | .cancel _ | .reset _ => True
  | .expire k => ∀ os, s.executor.osTimers k = some os → s.executor.started = true →
      ∀ other ∈ s.executor.timers.eraseIdx os.sigev, s.isCanceled other.timer = true

/-! ## The handlers -/

section Handlers

/-- A filter keeps at most the element at the index where it keeps no other. -/
theorem map_filter_eq_iff {α β : Type*} (f : α → β) (keep : α → Bool) {l : List α} {i : ℕ}
    {x : α} (hx : l[i]? = some x) :
    (l.filter keep).map f = (if keep x then [f x] else []) ↔
      ∀ y ∈ l.eraseIdx i, keep y = false := by
  obtain ⟨hlt, rfl⟩ := List.getElem?_eq_some_iff.mp hx
  have hsplit : (l.filter keep).map f = ((l.take i).filter keep).map f ++
      ((if keep l[i] then [f l[i]] else []) ++ ((l.drop (i + 1)).filter keep).map f) := by
    conv_lhs => rw [← List.take_append_drop i l, ← List.getElem_cons_drop hlt]
    rw [List.filter_append, List.filter_cons, List.map_append]
    split <;> rfl
  rw [List.eraseIdx_eq_take_drop_succ, hsplit]
  constructor
  · intro hsame y hy
    have hlength := congrArg List.length hsame
    simp only [List.length_append, List.length_map] at hlength
    have hnone : ((l.take i ++ l.drop (i + 1)).filter keep) = [] := by
      rw [← List.length_eq_zero_iff, List.filter_append, List.length_append]
      omega
    simpa using List.filter_eq_nil_iff.mp hnone y hy
  · intro hnone
    have hfirst : (l.take i).filter keep = [] :=
      List.filter_eq_nil_iff.mpr fun y hy => by simp [hnone y (List.mem_append_left _ hy)]
    have hrest : (l.drop (i + 1)).filter keep = [] :=
      List.filter_eq_nil_iff.mpr fun y hy => by simp [hnone y (List.mem_append_right _ hy)]
    rw [hfirst, hrest, List.map_nil, List.nil_append, List.append_nil]

variable {s : SignalState Node Timer Group}

theorem dispatchOne_eq (ptimer : PosixTimer Timer Group) :
    s.dispatchOne ptimer = if s.isDue ptimer.timer = true then [ptimer.request] else [] := by
  rw [SignalState.dispatchOne, SignalState.isDue]
  cases s.executor.started <;> cases s.isCanceled ptimer.timer <;> rfl

/-- On RTEMS the handler dispatches what is due exactly where it finds all timers but the
expired one cancelled. -/
theorem dispatchAll_eq_iff (hactive : s.executor.started = true → s.gActiveExecutor = true)
    {position : ℕ} {ptimer : PosixTimer Timer Group}
    (hptimer : s.executor.timers[position]? = some ptimer) :
    s.dispatchAll = (if s.isDue ptimer.timer = true then [ptimer.request] else []) ↔
      (s.executor.started = true →
        ∀ other ∈ s.executor.timers.eraseIdx position, s.isCanceled other.timer = true) := by
  cases hstarted : s.executor.started with
  | false => simp [SignalState.dispatchAll, SignalState.isDue, hstarted]
  | true =>
      have hiff := map_filter_eq_iff PosixTimer.request
        (fun timer => !s.isCanceled timer.timer) hptimer
      simpa only [SignalState.dispatchAll, SignalState.isDue, hstarted, hactive hstarted,
        Bool.and_self, if_true, Bool.true_and, true_imp_iff, Bool.not_eq_false'] using hiff

end Handlers

/-! ## The runs -/

section Runs

variable {s : SignalState Node Timer Group}

/-- A started executor is the active one, and the law has been kept. -/
structure SignalInvariant (s : SignalState Node Timer Group) : Prop where
  active : s.executor.started = true → s.gActiveExecutor = true
  once : DispatchedOnce s

theorem signalInvariant_initial :
    SignalInvariant (.initial : SignalState Node Timer Group) where
  active := by simp [SignalState.initial, TimerState.initial]
  once := by simp [DispatchedOnce, SignalState.initial]

theorem dispatchedOnce_record {ptimer : PosixTimer Timer Group}
    {dispatched : List (Request Group Timer)} :
    DispatchedOnce (s.record ptimer dispatched) ↔ DispatchedOnce s ∧
      dispatched = if s.isDue ptimer.timer = true then [ptimer.request] else [] := by
  simp [DispatchedOnce, SignalState.record, or_imp, forall_and]

/-- Where the law is kept, a timer has been dispatched as often as it was due. -/
theorem DispatchedOnce.count_eq [DecidableEq Timer] [DecidableEq Group]
    (h : DispatchedOnce s) (request : Request Group Timer) :
    (s.signals.flatMap (·.dispatched)).count request =
      s.signals.countP (fun signal => signal.due && decide (signal.expired = request)) := by
  rw [DispatchedOnce] at h
  generalize s.signals = signals at h ⊢
  induction signals with
  | nil => rfl
  | cons signal rest ih =>
      obtain ⟨hfirst, hrest⟩ := List.forall_mem_cons.mp h
      rw [List.flatMap_cons, List.count_append, ih hrest, List.countP_cons, hfirst,
        Nat.add_comm]
      congr 1
      cases signal.due <;> simp [List.count_singleton]

/-- Only `start` starts an executor. -/
theorem started_of_step [DecidableEq Node] {executor after : TimerState Node Timer Group}
    {label : TimerLabel Node Timer Group} (hstep : TimerStep executor label after)
    (hstarted : after.started = true) : label.isStart = true ∨ executor.started = true := by
  cases hstep with
  | addNode node new _ _ =>
      rw [TimerState.addNode] at hstarted
      split at hstarted <;> exact .inr hstarted
  | removeNode node _ _ => exact .inr hstarted
  | start results _ _ _ => exact .inl rfl
  | stop _ _ | destroy _ _ =>
      simp only [TimerState.destroy, TimerState.stop] at hstarted
      split at hstarted <;> cases hstarted

theorem active_call [DecidableEq Node] {label : TimerLabel Node Timer Group}
    {executor : TimerState Node Timer Group}
    (hactive : s.executor.started = true → s.gActiveExecutor = true)
    (hstep : TimerStep s.executor label executor) (hstarted : executor.started = true) :
    (s.gActiveExecutor || label.isStart) = true := by
  rw [Bool.or_eq_true]
  exact (started_of_step hstep hstarted).elim .inr fun hbefore => .inl (hactive hbefore)

variable [DecidableEq Node] [DecidableEq Timer]

theorem signalInvariant_step (s : SignalState Node Timer Group)
    (label : SignalLabel Node Timer Group) (t : SignalState Node Timer Group)
    (h : SignalInvariant s) (hadmits : OthersCanceled s label)
    (hstep : SignalStep .rtems s label t) : SignalInvariant t := by
  cases hstep with
  | call label executor hstep => exact ⟨active_call h.active hstep, h.once⟩
  | cancel timer => exact ⟨h.active, h.once⟩
  | reset timer => exact ⟨h.active, h.once⟩
  | expire k os ptimer hos hptimer =>
      have hsame := (expire_started s.executor .rtems k ptimer (s.isCanceled ptimer.timer)).1
      refine ⟨?_, dispatchedOnce_record.mpr ⟨h.once, ?_⟩⟩
      · intro hstarted
        exact h.active (hsame.symm.trans hstarted)
      · exact (dispatchAll_eq_iff h.active hptimer).mpr (hadmits os hos)

theorem othersCanceled_of_dispatchedOnce (s : SignalState Node Timer Group)
    (label : SignalLabel Node Timer Group) (t : SignalState Node Timer Group)
    (h : SignalInvariant s) (hstep : SignalStep .rtems s label t) (ht : DispatchedOnce t) :
    OthersCanceled s label := by
  cases hstep with
  | call label executor hstep => exact trivial
  | cancel timer => exact trivial
  | reset timer => exact trivial
  | expire k os ptimer hos hptimer =>
      have hdispatched := (dispatchedOnce_record.mp ht).2
      intro other hother
      rw [hos, Option.some.injEq] at hother
      rw [← hother]
      exact (dispatchAll_eq_iff h.active hptimer).mp hdispatched

/-- On Linux every run dispatches what is due. -/
theorem dispatchedOnce_linux
    {trace : List (Move (SignalState Node Timer Group) (SignalLabel Node Timer Group))}
    {finish : SignalState Node Timer Group}
    (hrun : Run (SignalStep .linux) SignalState.initial trace finish) :
    DispatchedOnce finish := by
  apply hrun.always _ signalInvariant_initial.once
  intro s label t h hstep
  cases hstep with
  | call label executor hstep => exact h
  | cancel timer => exact h
  | reset timer => exact h
  | expire k os ptimer hos hptimer =>
      exact dispatchedOnce_record.mpr ⟨h, dispatchOne_eq ptimer⟩

/-- On RTEMS exactly the runs in which timers expire alone dispatch what is due. -/
theorem dispatchedOnce_iff_othersCanceled
    {trace : List (Move (SignalState Node Timer Group) (SignalLabel Node Timer Group))}
    {finish : SignalState Node Timer Group}
    (hrun : Run (SignalStep .rtems) SignalState.initial trace finish) :
    Throughout DispatchedOnce SignalState.initial trace ↔ Admitted OthersCanceled trace :=
  hrun.throughout_iff_admitted (fun _ => SignalInvariant.once) signalInvariant_step
    othersCanceled_of_dispatchedOnce signalInvariant_initial

/-- The first of two timers expires after the second has been cancelled. -/
theorem alone_dispatchedOnce :
    ∃ (trace : List (Move (SignalState ℕ ℕ ℕ) (SignalLabel ℕ ℕ ℕ)))
      (finish : SignalState ℕ ℕ ℕ),
      Run (SignalStep .rtems) SignalState.initial trace finish ∧
        Throughout DispatchedOnce SignalState.initial trace ∧
          finish.signals = [⟨⟨.timer, 0, 0⟩, true, [⟨.timer, 0, 0⟩]⟩] := by
  have hrun : Run (SignalStep .rtems)
      (.initial : SignalState ℕ ℕ ℕ) _ _ :=
    .cons (.call _ _ _ (.addNode _ 0 [⟨10, 0, 0⟩, ⟨20, 1, 0⟩] rfl rfl)) <|
    .cons (.call _ _ _ (.start _ (numbered 1 2) rfl rfl (fresh_numbered (by decide)))) <| .cons (.cancel _ 1) <|
    .cons (.expire _ 1 ⟨0, some 10⟩ ⟨10, 0, 0, 1, 0⟩ rfl rfl) <| .nil _
  refine ⟨_, _, hrun, (dispatchedOnce_iff_othersCanceled hrun).mpr ?_, rfl⟩
  refine .cons trivial <| .cons trivial <| .cons trivial <| .cons ?_ <| .nil _
  rintro os ⟨⟩ _
  exact List.forall_mem_singleton.mpr rfl

/-- Where neither is cancelled, the expiration of one timer dispatches the other too. -/
theorem two_timers_dispatched_by_one :
    ∃ (trace : List (Move (SignalState ℕ ℕ ℕ) (SignalLabel ℕ ℕ ℕ)))
      (finish : SignalState ℕ ℕ ℕ),
      Run (SignalStep .rtems) SignalState.initial trace finish ∧
        finish.signals =
          [⟨⟨.timer, 0, 0⟩, true, [⟨.timer, 0, 0⟩, ⟨.timer, 0, 1⟩]⟩] ∧
        ¬ Throughout DispatchedOnce SignalState.initial trace := by
  have hrun : Run (SignalStep .rtems)
      (.initial : SignalState ℕ ℕ ℕ) _ _ :=
    .cons (.call _ _ _ (.addNode _ 0 [⟨10, 0, 0⟩, ⟨20, 1, 0⟩] rfl rfl)) <|
    .cons (.call _ _ _ (.start _ (numbered 1 2) rfl rfl (fresh_numbered (by decide)))) <|
    .cons (.expire _ 1 ⟨0, some 10⟩ ⟨10, 0, 0, 1, 0⟩ rfl rfl) <| .nil _
  refine ⟨_, _, hrun, rfl, ?_⟩
  intro hall
  have hlaw := hrun.finish_of_throughout hall
  have hsame := hlaw ⟨⟨.timer, 0, 0⟩, true, [⟨.timer, 0, 0⟩, ⟨.timer, 0, 1⟩]⟩ (by decide)
  exact absurd hsame (by decide)

end Runs

end RosRtems.NoExecutor
