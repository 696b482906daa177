import RosRtems.Executor.TaskLifetime

/-!
# Orderly lives are sound

Where the calls on a callback task are orderly, at most one of them changes the object
at a time, the task never sees the flag cleared, and `stop` deletes it while it cannot
execute.  Every other step leaves the calls nothing to notice.
-/

namespace RosRtems.TaskLifetime

open RosRtems.EventSet RosRtems.Runs RosRtems.FixedPriority RosRtems.TimerDriver
  RosRtems.CallbackLoop

/-! ## The invariant of orderly lives -/

/-- Each task that exists has its id. -/
def Held (s : LifeState) : Prop :=
  ∀ k, (s.tasks k).pc.stage ≠ .absent →
    (s.tasks k).id ≠ rtemsIdNone ∧ s.holder (s.tasks k).id = some (.own k)

def Absent (s : LifeState) : Prop := ∀ k, (s.tasks k).pc.stage = .absent

/-- The `k`-th task exists, is the only one, and is the one the object knows. -/
def Present (s : LifeState) (k : ℕ) : Prop :=
  (∀ j, (s.tasks j).pc.stage ≠ .absent → j = k) ∧
    s.taskId = ⟨(s.tasks k).id, k⟩

def Stage.active (stage : Stage) : Prop := stage = .looping ∨ stage = .inCallback

/-- No call is past its first test, except perhaps a `notify`. -/
def Quiet (s : LifeState) : Prop :=
  (s.running = true ∧ ∃ k, Present s k ∧ (s.tasks k).pc.stage.active) ∨
    (s.running = false ∧ s.taskId = noTask ∧ Absent s)

def Prepared (s : LifeState) : Prop := ∃ k, Present s k ∧ (s.tasks k).pc.stage = .dormant

section Invariant

variable (priority : ℕ) (callerPriority : ℕ → ℕ)

/-- The task is between two callbacks and does not execute as long as the caller does
not block. -/
def Stoppable (s : LifeState) (t : ℕ) : Prop :=
  ∃ k, Present s k ∧ (s.tasks k).pc.stage = .looping ∧
    Shields (agentPriority priority callerPriority) s.ready (.caller t) (.own k)

/-- What the call of `t` can rely on at each of its steps. -/
def During (s : LifeState) (t : ℕ) : CallPc → Prop
  | .idle => True
  | .taskCreate => s.running = false ∧ s.taskId = noTask ∧ Absent s
  | .setRunning | .loadFailed => s.running = false ∧ Prepared s
  | .loadStart | .startFailed => s.running = true ∧ Prepared s
  | .taskStart ref => s.running = true ∧ Prepared s ∧ ref = s.taskId
  | .deleteFailed ref => s.running = false ∧ Prepared s ∧ ref = s.taskId
  | .resetFailed | .resetId _ => s.running = false ∧ Absent s
  | .clearRunning _ => s.running = true ∧ Stoppable priority callerPriority s t
  | .testId _ | .loadSend _ | .loadDelete _ =>
      s.running = false ∧ Stoppable priority callerPriority s t
  | .sendStop _ ref | .taskDelete _ ref =>
      s.running = false ∧ Stoppable priority callerPriority s t ∧ ref = s.taskId
  | .loadNotify => s.running = true
  | .sendNotify ref => s.running = true ∧ ref = s.taskId
  | .ended => False

structure Consistent (s : LifeState) : Prop where
  held : Held s
  alone : ∀ t u, (s.calls t).exclusive → (s.calls u).busy → u = t
  quiet : (∀ t, ¬ (s.calls t).exclusive) → Quiet s
  during : ∀ t, During priority callerPriority s t (s.calls t)
  destroyed : s.destroyed = true → s.running = false ∧ ∀ t, ¬ (s.calls t).busy
  faults : s.faults = []

end Invariant

theorem CallPc.exclusive_iff {pc : CallPc} :
    pc.exclusive ↔ pc ≠ .idle ∧ pc ≠ .loadNotify ∧ ∀ ref, pc ≠ .sendNotify ref := by
  simp [CallPc.exclusive, CallPc.busy, CallPc.notifies]

section Steps

variable {priority : ℕ} {callerPriority : ℕ → ℕ} {s s' : LifeState}

theorem Consistent.sound (hs : Consistent priority callerPriority s) : Sound s := by
  refine ⟨hs.faults, fun hdestroyed k => ?_⟩
  obtain ⟨hrunning, hidle⟩ := hs.destroyed hdestroyed
  have hquiet := hs.quiet fun t hexclusive => hidle t hexclusive.1
  rcases hquiet with ⟨htrue, -⟩ | ⟨-, -, habsent⟩
  · simp [hrunning] at htrue
  · have hstage := habsent k
    cases hpc : (s.tasks k).pc <;> simp [hpc, TaskPc.stage] at hstage ⊢

theorem consistent_constructed (priority : ℕ) (callerPriority : ℕ → ℕ) :
    Consistent priority callerPriority constructed where
  held := by simp [Held, constructed, TaskPc.stage]
  alone := by simp [CallPc.exclusive, CallPc.busy, constructed]
  quiet := fun _ => .inr ⟨rfl, rfl, fun _ => rfl⟩
  during := fun _ => trivial
  destroyed := by simp [constructed]
  faults := rfl

/-- At most one agent has become ready or has blocked, and it is not a caller inside a
call that has blocked. -/
def Rescheduled (s : LifeState) (ready : List Agent) : Prop :=
  ready = s.ready ∨ (∃ agent, ready = wake agent s.ready) ∨
    ∃ agent, ready = block agent s.ready ∧ ∀ t, (s.calls t).busy → agent ≠ .caller t

/-- The `k`-th task stays at its stage, or enters or leaves its callback while no call
relies on where it is. -/
def Unnoticed (s : LifeState) (k : ℕ) (stage : Stage) : Prop :=
  stage = (s.tasks k).pc.stage ∨
    ((∀ t, ¬ (s.calls t).exclusive) ∧ (s.tasks k).pc.stage.active ∧ stage.active)

/-- A change that no call can tell. -/
structure Drift (s s' : LifeState) : Prop where
  running : s'.running = s.running
  taskId : s'.taskId = s.taskId
  destroyed : s'.destroyed = s.destroyed
  calls : s'.calls = s.calls
  faults : s'.faults = s.faults
  held : Held s'
  ids : ∀ k, (s'.tasks k).id = (s.tasks k).id
  stages : ∀ k, Unnoticed s k (s'.tasks k).pc.stage
  ready : Rescheduled s s'.ready

theorem Drift.absent_iff (hdrift : Drift s s') (k : ℕ) :
    (s'.tasks k).pc.stage = .absent ↔ (s.tasks k).pc.stage = .absent := by
  rcases hdrift.stages k with hsame | ⟨-, hbefore | hbefore, hafter | hafter⟩
  · rw [hsame]
  all_goals simp [hbefore, hafter]

theorem Drift.present (hdrift : Drift s s') {k : ℕ} (hpresent : Present s k) :
    Present s' k := by
  refine ⟨fun j hstage => hpresent.1 j fun habsent => ?_, ?_⟩
  · exact hstage ((hdrift.absent_iff j).mpr habsent)
  · rw [hdrift.taskId, hdrift.ids, hpresent.2]

theorem Drift.absent (hdrift : Drift s s') (habsent : Absent s) : Absent s' :=
  fun k => (hdrift.absent_iff k).mpr (habsent k)

theorem Drift.quiet (hdrift : Drift s s') (hquiet : Quiet s) : Quiet s' := by
  rcases hquiet with ⟨hrunning, k, hpresent, hactive⟩ | ⟨hrunning, hid, habsent⟩
  · left
    refine ⟨hdrift.running.trans hrunning, k, hdrift.present hpresent, ?_⟩
    rcases hdrift.stages k with hsame | ⟨-, -, hafter⟩
    · rwa [hsame]
    · exact hafter
  · exact .inr ⟨hdrift.running.trans hrunning, hdrift.taskId.trans hid, hdrift.absent habsent⟩

/-- While a call relies on it, the stage of a task does not change. -/
theorem Drift.stage_eq (hdrift : Drift s s') {t : ℕ} (hexclusive : (s.calls t).exclusive)
    (k : ℕ) : (s'.tasks k).pc.stage = (s.tasks k).pc.stage :=
  (hdrift.stages k).resolve_right fun hmoved => hmoved.1 t hexclusive

theorem Drift.prepared (hdrift : Drift s s') {t : ℕ} (hexclusive : (s.calls t).exclusive)
    (hprepared : Prepared s) : Prepared s' := by
  obtain ⟨k, hpresent, hdormant⟩ := hprepared
  exact ⟨k, hdrift.present hpresent, (hdrift.stage_eq hexclusive k).trans hdormant⟩

theorem Drift.shields (hdrift : Drift s s') {t k : ℕ} (hbusy : (s.calls t).busy)
    (hshields : Shields (agentPriority priority callerPriority) s.ready (.caller t) (.own k)) :
    Shields (agentPriority priority callerPriority) s'.ready (.caller t) (.own k) := by
  rcases hdrift.ready with hsame | ⟨agent, hwake⟩ | ⟨agent, hblock, hother⟩
  · rwa [hsame]
  · rw [hwake]
    exact hshields.wake agent
  · rw [hblock]
    exact hshields.block (hother t hbusy)

theorem Drift.stoppable (hdrift : Drift s s') {t : ℕ} (hexclusive : (s.calls t).exclusive)
    (hstoppable : Stoppable priority callerPriority s t) :
    Stoppable priority callerPriority s' t := by
  obtain ⟨k, hpresent, hlooping, hshields⟩ := hstoppable
  exact ⟨k, hdrift.present hpresent, (hdrift.stage_eq hexclusive k).trans hlooping,
    hdrift.shields hexclusive.1 hshields⟩

theorem Drift.during (hdrift : Drift s s') {t : ℕ}
    (hduring : During priority callerPriority s t (s.calls t)) :
    During priority callerPriority s' t (s.calls t) := by
  cases hpc : s.calls t <;> simp only [During, hpc] at hduring ⊢
  case taskCreate =>
    obtain ⟨hrunning, hid, habsent⟩ := hduring
    exact ⟨hdrift.running.trans hrunning, hdrift.taskId.trans hid, hdrift.absent habsent⟩
  case resetFailed | resetId =>
    exact ⟨hdrift.running.trans hduring.1, hdrift.absent hduring.2⟩
  case loadNotify => exact hdrift.running.trans hduring
  case sendNotify =>
    exact ⟨hdrift.running.trans hduring.1, hduring.2.trans hdrift.taskId.symm⟩
  all_goals
    have hexclusive : (s.calls t).exclusive := by
      simp [CallPc.exclusive_iff, hpc]
  case setRunning | loadStart | startFailed | loadFailed =>
    exact ⟨hdrift.running.trans hduring.1, hdrift.prepared hexclusive hduring.2⟩
  case taskStart | deleteFailed =>
    exact ⟨hdrift.running.trans hduring.1, hdrift.prepared hexclusive hduring.2.1,
      hduring.2.2.trans hdrift.taskId.symm⟩
  case clearRunning | testId | loadSend | loadDelete =>
    exact ⟨hdrift.running.trans hduring.1, hdrift.stoppable hexclusive hduring.2⟩
  case sendStop | taskDelete =>
    exact ⟨hdrift.running.trans hduring.1, hdrift.stoppable hexclusive hduring.2.1,
      hduring.2.2.trans hdrift.taskId.symm⟩

theorem Consistent.drift (hs : Consistent priority callerPriority s) (hdrift : Drift s s') :
    Consistent priority callerPriority s' where
  held := hdrift.held
  alone := by rw [hdrift.calls]; exact hs.alone
  quiet := by
    rw [hdrift.calls]
    exact fun hnone => hdrift.quiet (hs.quiet hnone)
  during := by
    rw [hdrift.calls]
    exact fun t => hdrift.during (hs.during t)
  destroyed := by
    rw [hdrift.calls, hdrift.running, hdrift.destroyed]
    exact hs.destroyed
  faults := hdrift.faults.trans hs.faults

/-! ## The steps that no call can tell -/

theorem drift_setTask (hheld : Held s) (k : ℕ) (task : OwnTask) (ready : List Agent)
    (hid : task.id = (s.tasks k).id)
    (hstage : Unnoticed s k task.pc.stage) (hready : Rescheduled s ready) :
    Drift s { s.setTask k task with ready := ready } := by
  have hids : ∀ j, (Function.update s.tasks k task j).id = (s.tasks j).id := by
    intro j
    by_cases hjk : j = k
    · subst hjk
      simpa using hid
    · simp [hjk]
  have hstages : ∀ j, Unnoticed s j (Function.update s.tasks k task j).pc.stage := by
    intro j
    by_cases hjk : j = k
    · subst hjk
      simpa using hstage
    · simp [Unnoticed, hjk]
  refine ⟨rfl, rfl, rfl, rfl, rfl, fun j hj => ?_, hids, hstages, hready⟩
  have hpresent : (s.tasks j).pc.stage ≠ .absent := by
    rcases hstages j with hsame | ⟨-, hbefore | hbefore, -⟩
    · rwa [← hsame]
    all_goals simp [hbefore]
  have hfound := hheld j hpresent
  simp only [LifeState.setTask] at hj ⊢
  rwa [hids j]

theorem drift_sendTask (hheld : Held s) (k : ℕ) : Drift s (s.sendTask k) := by
  simp only [LifeState.sendTask]
  split
  · rename_i hwaiting
    exact drift_setTask hheld k _ _ rfl (.inl (by simp [hwaiting, TaskPc.stage]))
      (.inr (.inl ⟨_, rfl⟩))
  · exact drift_setTask hheld k _ _ rfl (.inl rfl) (.inl rfl)

theorem drift_holder (hheld : Held s) (holder : RtemsId → Option Holder)
    (hkeep : ∀ id k, s.holder id = some (.own k) → holder id = some (.own k)) :
    Drift s { s with holder := holder } where
  running := rfl
  taskId := rfl
  destroyed := rfl
  calls := rfl
  faults := rfl
  held := fun k hk => ⟨(hheld k hk).1, hkeep _ k (hheld k hk).2⟩
  ids := fun _ => rfl
  stages := fun _ => .inl rfl
  ready := .inl rfl

theorem drift_ready (hheld : Held s) (ready : List Agent) (hready : Rescheduled s ready) :
    Drift s { s with ready := ready } where
  running := rfl
  taskId := rfl
  destroyed := rfl
  calls := rfl
  faults := rfl
  held := hheld
  ids := fun _ => rfl
  stages := fun _ => .inl rfl
  ready := hready

theorem drift_other (hheld : Held s) (heffect : OtherEffect s s') : Drift s s' := by
  cases heffect with
  | wakeCaller t _ => exact drift_ready hheld _ (.inr (.inl ⟨_, rfl⟩))
  | blockCaller t hidle =>
      refine drift_ready hheld _ (.inr (.inr ⟨_, rfl, fun u hbusy hsame => ?_⟩))
      cases hsame
      exact hbusy hidle
  | event k _ => exact drift_sendTask hheld k
  | unblock k hpc =>
      exact drift_setTask hheld k _ _ rfl (.inl (by simp [hpc, TaskPc.stage]))
        (.inr (.inl ⟨_, rfl⟩))
  | foreignCreate id _ hfree =>
      refine drift_holder hheld _ fun other k hown => ?_
      rw [Function.update_of_ne, hown]
      rintro rfl
      simp [hfree] at hown
  | foreignDelete id hholder =>
      refine drift_holder hheld _ fun other k hown => ?_
      rw [Function.update_of_ne, hown]
      rintro rfl
      simp [hholder] at hown

/-- A task that has been started executes only while no call is past its first test,
and then the flag is set. -/
theorem quiet_of_executes (hs : Consistent priority callerPriority s) {k : ℕ}
    (hexecutes : Executes priority callerPriority s (.own k))
    (habsent : (s.tasks k).pc.stage ≠ .absent) (hdormant : (s.tasks k).pc.stage ≠ .dormant) :
    (∀ t, ¬ (s.calls t).exclusive) ∧ s.running = true ∧ (s.tasks k).pc.stage.active := by
  have hnone : ∀ t, ¬ (s.calls t).exclusive := by
    intro t hexclusive
    have hduring := hs.during t
    have hnotPrepared : ¬ Prepared s := by
      rintro ⟨j, hpresent, hstage⟩
      obtain rfl := hpresent.1 k habsent
      exact hdormant hstage
    have hnotStoppable : ¬ Stoppable priority callerPriority s t := by
      rintro ⟨j, hpresent, -, hshields⟩
      obtain rfl := hpresent.1 k habsent
      exact hshields.not_executing (by simp) hexecutes
    cases hpc : s.calls t <;> simp only [During, hpc] at hduring
    case idle => exact hexclusive.1 hpc
    case loadNotify => exact hexclusive.2 (.inl hpc)
    case sendNotify ref => exact hexclusive.2 (.inr ⟨ref, hpc⟩)
    case taskCreate => exact habsent (hduring.2.2 k)
    case resetFailed | resetId => exact habsent (hduring.2 k)
    case setRunning | loadStart | startFailed | loadFailed =>
      exact hnotPrepared hduring.2
    case taskStart | deleteFailed => exact hnotPrepared hduring.2.1
    case clearRunning | testId | loadSend | loadDelete => exact hnotStoppable hduring.2
    case sendStop | taskDelete => exact hnotStoppable hduring.2.1
  refine ⟨hnone, ?_⟩
  rcases hs.quiet hnone with ⟨hrunning, j, hpresent, hactive⟩ | ⟨-, -, hgone⟩
  · obtain rfl := hpresent.1 k habsent
    exact ⟨hrunning, hactive⟩
  · exact absurd (hgone k) habsent

theorem drift_task (hs : Consistent priority callerPriority s) {k : ℕ}
    (hexecutes : Executes priority callerPriority s (.own k)) (heffect : TaskEffect s k s') :
    Drift s s' := by
  have hstarted : (s.tasks k).pc.stage ≠ .absent ∧ (s.tasks k).pc.stage ≠ .dormant := by
    cases heffect <;> rename_i hpc <;> simp_all [TaskPc.stage]
  obtain ⟨hnone, hrunning, hactive⟩ := quiet_of_executes hs hexecutes hstarted.1 hstarted.2
  have hblock : ∀ t, (s.calls t).busy → Agent.own k ≠ .caller t := by simp
  cases heffect with
  | loop hpc _ =>
      exact drift_setTask hs.held k _ _ rfl (.inr ⟨hnone, hactive, .inl rfl⟩) (.inl rfl)
  | loopEnds hpc hstopped => simp [hrunning] at hstopped
  | receive rest hpc _ =>
      exact drift_setTask hs.held k _ _ rfl (.inr ⟨hnone, hactive, .inl rfl⟩) (.inl rfl)
  | wait hpc _ =>
      exact drift_setTask hs.held k _ _ rfl (.inr ⟨hnone, hactive, .inl rfl⟩)
        (.inr (.inr ⟨_, rfl, hblock⟩))
  | enterCallback hpc _ =>
      exact drift_setTask hs.held k _ _ rfl (.inr ⟨hnone, hactive, .inr rfl⟩) (.inl rfl)
  | breakLoop hpc hstopped => simp [hrunning] at hstopped
  | leaveCallback hpc =>
      exact drift_setTask hs.held k _ _ rfl (.inr ⟨hnone, hactive, .inl rfl⟩) (.inl rfl)
  | blockInCallback hpc =>
      exact drift_setTask hs.held k _ _ rfl (.inr ⟨hnone, hactive, .inr rfl⟩)
        (.inr (.inr ⟨_, rfl, hblock⟩))
  | deleteSelf hpc =>
      rcases hactive with hactive | hactive <;> simp [hpc, TaskPc.stage] at hactive

/-! ## The steps of the calls -/

section Present

variable {k : ℕ} (hheld : Held s) (hpresent : Present s k)
  (hstage : (s.tasks k).pc.stage ≠ .absent)

include hpresent hstage

theorem stale_of_present : s.stale s.taskId = false := by
  have hpc : (s.tasks k).pc ≠ .deleted := by
    intro hdeleted
    simp [hdeleted, TaskPc.stage] at hstage
  simp [LifeState.stale, hpresent.2, hpc]

include hheld

/-- The id leads to the task. -/
theorem holder_of_present : s.holder s.taskId.id = some (.own k) := by
  rw [hpresent.2]
  exact (hheld k hstage).2

theorem taskId_ne_none : s.taskId.id ≠ rtemsIdNone := by
  rw [hpresent.2]
  exact (hheld k hstage).1

theorem eventSend_of_present : s.eventSend s.taskId = s.sendTask k := by
  simp [LifeState.eventSend, stale_of_present hpresent hstage,
    holder_of_present hheld hpresent hstage]

theorem taskDelete_of_present : s.taskDelete s.taskId = s.deleteTask k := by
  simp [LifeState.taskDelete, stale_of_present hpresent hstage,
    holder_of_present hheld hpresent hstage]

theorem drift_eventSend : Drift s (s.eventSend s.taskId) := by
  rw [eventSend_of_present hheld hpresent hstage]
  exact drift_sendTask hheld k

end Present

theorem absent_deleteTask {k : ℕ} (hpresent : Present s k) : Absent (s.deleteTask k) := by
  intro j
  by_cases hjk : j = k
  · subst hjk
    simp [LifeState.deleteTask, LifeState.setPc, LifeState.setTask, TaskPc.stage]
  · have habsent : (s.tasks j).pc.stage = .absent := by
      by_contra hstage
      exact hjk (hpresent.1 j hstage)
    simpa [LifeState.deleteTask, LifeState.setPc, LifeState.setTask, hjk] using habsent

theorem held_of_absent (habsent : Absent s) : Held s :=
  fun k hk => absurd (habsent k) hk

theorem others_idle (hs : Consistent priority callerPriority s) {t : ℕ}
    (hexclusive : (s.calls t).exclusive) (u : ℕ) (hne : u ≠ t) : s.calls u = .idle := by
  by_contra hbusy
  exact hne (hs.alone t u hexclusive hbusy)

theorem live_of_busy (hs : Consistent priority callerPriority s) {t : ℕ}
    (hbusy : (s.calls t).busy) : s.destroyed = false := by
  cases hdestroyed : s.destroyed with
  | false => rfl
  | true => exact absurd hbusy ((hs.destroyed hdestroyed).2 t)

section Advance

variable {t : ℕ} {calls : ℕ → CallPc} {pc : CallPc}

/-- One call goes on, past its first test, and no other one is under way. -/
theorem consistent_exclusive (hothers : ∀ u, u ≠ t → calls u = .idle)
    (hheld : Held s') (hlive : s'.destroyed = false) (hfaults : s'.faults = [])
    (hexclusive : pc.exclusive) (hduring : During priority callerPriority s' t pc) :
    Consistent priority callerPriority
      { s' with calls := Function.update calls t pc } where
  held := hheld
  alone := by
    intro first second hfirst hsecond
    have honly : ∀ u, (Function.update calls t pc u).busy → u = t := by
      intro u hbusy
      by_contra hne
      simp [CallPc.busy, hne, hothers u hne] at hbusy
    exact (honly second hsecond).trans (honly first hfirst.1).symm
  quiet := fun hnone => absurd hexclusive (by simpa using hnone t)
  during := by
    intro u
    by_cases hne : u = t
    · subst hne
      simp only [Function.update_self]
      cases pc <;> exact hduring
    · simp only [Function.update_of_ne hne, hothers u hne]
      trivial
  destroyed := by simp [hlive]
  faults := hfaults

/-- The only call goes on, and at most the flag changes. -/
theorem consistent_advance (hs : Consistent priority callerPriority s)
    (hexclusive : (s.calls t).exclusive) (running : Bool) (hnext : pc.exclusive)
    (hduring : During priority callerPriority { s with running := running } t pc) :
    Consistent priority callerPriority
      { s with running := running, calls := Function.update s.calls t pc } := by
  have hheld : Held { s with running := running } := hs.held
  have hlive := live_of_busy hs hexclusive.1
  exact consistent_exclusive (others_idle hs hexclusive) hheld hlive hs.faults hnext hduring

/-- The only call returns. -/
theorem consistent_return (hothers : ∀ u, u ≠ t → calls u = .idle) (hheld : Held s')
    (hfaults : s'.faults = []) (hquiet : Quiet s')
    (hdestroyed : s'.destroyed = true → s'.running = false) :
    Consistent priority callerPriority
      { s' with calls := Function.update calls t .idle } := by
  have hidle : ∀ u, Function.update calls t .idle u = .idle := by
    intro u
    by_cases hne : u = t
    · simp [hne]
    · simp [hne, hothers u hne]
  exact {
    held := hheld
    alone := fun first _ hfirst _ => absurd (hidle first) hfirst.1
    quiet := fun _ => hquiet
    during := fun u => by simp only [hidle u]; trivial
    destroyed := fun hgone => ⟨hdestroyed hgone, fun u hbusy => hbusy (hidle u)⟩
    faults := hfaults }

/-- A `notify` goes on or returns while no other kind of call is under way. -/
theorem consistent_notifying (hs : Consistent priority callerPriority s')
    (hnone : ∀ u, ¬ (s'.calls u).exclusive)
    (hpc : pc = .idle ∨ pc.notifies ∧ s'.destroyed = false)
    (hduring : During priority callerPriority s' t pc) :
    Consistent priority callerPriority
      { s' with calls := Function.update s'.calls t pc } where
  held := hs.held
  alone := by
    intro u _ hu
    by_cases hut : u = t
    · subst hut
      simp only [Function.update_self] at hu
      rcases hpc with hidle | ⟨hnotifies, -⟩
      · exact absurd hidle hu.1
      · exact absurd hnotifies hu.2
    · simp only [Function.update_of_ne hut] at hu
      exact absurd hu (hnone u)
  quiet := fun _ => hs.quiet hnone
  during := by
    intro u
    by_cases hut : u = t
    · subst hut
      simp only [Function.update_self]
      cases pc <;> exact hduring
    · simp only [Function.update_of_ne hut]
      have hother := hs.during u
      cases hcall : s'.calls u <;> rw [hcall] at hother <;> exact hother
  destroyed := by
    intro hgone
    obtain ⟨hrunning, hidle⟩ := hs.destroyed hgone
    refine ⟨hrunning, fun u hbusy => ?_⟩
    by_cases hut : u = t
    · subst hut
      simp only [Function.update_self] at hbusy
      exact absurd (hgone.symm.trans (hpc.resolve_left hbusy).2) (by simp)
    · exact hidle u (by simpa [hut] using hbusy)
  faults := hs.faults

/-- A call that finds nothing to do. -/
theorem consistent_same (hs : Consistent priority callerPriority s) (t : ℕ) :
    Consistent priority callerPriority
      { s with calls := Function.update s.calls t (s.calls t) } := by
  rw [Function.update_eq_self]
  exact hs

/-- The task the object has prepared begins its loop. -/
theorem quiet_taskStart (hheld : Held s) {k : ℕ} (hrunning : s.running = true)
    (hpresent : Present s k) (hdormant : (s.tasks k).pc.stage = .dormant)
    (ready : List Agent) :
    Held { s.setPc k .atLoop with ready := ready } ∧
      Quiet { s.setPc k .atLoop with ready := ready } := by
  have hids : ∀ j, (Function.update s.tasks k { s.tasks k with pc := .atLoop } j).id =
      (s.tasks j).id := by
    intro j
    by_cases hjk : j = k
    · simp [hjk]
    · simp [hjk]
  have hstages : ∀ j,
      (Function.update s.tasks k { s.tasks k with pc := .atLoop } j).pc.stage ≠ .absent →
      (s.tasks j).pc.stage ≠ .absent := by
    intro j hj
    by_cases hjk : j = k
    · simp [hjk, hdormant]
    · simpa [hjk] using hj
  constructor
  · intro j hj
    have hfound := hheld j (hstages j hj)
    simp only [LifeState.setPc, LifeState.setTask]
    rwa [hids j]
  · left
    refine ⟨hrunning, k, ⟨fun j hj => hpresent.1 j (hstages j hj), ?_⟩, ?_⟩
    · simp only [LifeState.setPc, LifeState.setTask]
      rw [hids k]
      exact hpresent.2
    · left
      simp [LifeState.setPc, LifeState.setTask, TaskPc.stage]

/-- The deletion that `start` and `stop` come to. -/
theorem consistent_delete (hs : Consistent priority callerPriority s) {k : ℕ}
    (hexclusive : (s.calls t).exclusive) (hrunning : s.running = false)
    (hpresent : Present s k) (hstage : (s.tasks k).pc.stage ≠ .absent)
    (hcallback : (s.tasks k).pc.stage ≠ .inCallback)
    (hpc : pc = .resetFailed ∨ ∃ destroys, pc = .resetId destroys) :
    Consistent priority callerPriority
      { s.taskDelete s.taskId with calls := Function.update s.calls t pc } := by
  have hbefore := live_of_busy hs hexclusive.1
  have habsent := absent_deleteTask hpresent
  have hfaults : (s.deleteTask k).faults = [] := by
    simp [LifeState.deleteTask, hcallback, LifeState.setPc, LifeState.setTask, hs.faults]
  rw [taskDelete_of_present hs.held hpresent hstage]
  rcases hpc with rfl | ⟨destroys, rfl⟩
  · exact consistent_exclusive (others_idle hs hexclusive) (held_of_absent habsent) hbefore
      hfaults (by simp [CallPc.exclusive_iff]) ⟨hrunning, habsent⟩
  · exact consistent_exclusive (others_idle hs hexclusive) (held_of_absent habsent) hbefore
      hfaults (by simp [CallPc.exclusive_iff]) ⟨hrunning, habsent⟩

/-- The steps of `start` past its test, up to the start of the task. -/
theorem consistent_start (hs : Consistent priority callerPriority s)
    (heffect : CallEffect s t .advance (s.calls t) s' pc)
    (hstart : s.calls t = .taskCreate ∨ s.calls t = .setRunning ∨
      s.calls t = .loadStart ∨ ∃ ref, s.calls t = .taskStart ref) :
    Consistent priority callerPriority
      { s' with calls := Function.update s.calls t pc } := by
  have hexclusive : (s.calls t).exclusive := by
    rcases hstart with hpc | hpc | hpc | ⟨ref, hpc⟩ <;>
      simp [hpc, CallPc.exclusive_iff]
  have hothers := others_idle hs hexclusive
  have hlive := live_of_busy hs hexclusive.1
  have hduring := hs.during t
  rcases hstart with hpc | hpc | hpc | ⟨ref, hpc⟩ <;> rw [hpc] at heffect hduring
  · obtain ⟨hrunning, hid, habsent⟩ := hduring
    cases heffect with
    | taskCreate k id hnew hidNone hfree =>
        have honly : ∀ j, (Function.update s.tasks k ⟨id, .dormant, noEvents⟩ j).pc.stage ≠
            .absent → j = k := by
          intro j hj
          by_contra hne
          simp [hne, habsent j] at hj
        refine consistent_exclusive hothers (fun j hj => ?_) hlive hs.faults
          (by simp [CallPc.exclusive_iff])
          ⟨hrunning, k, ⟨honly, ?_⟩, ?_⟩
        · obtain rfl := honly j hj
          simp [LifeState.setTask, hidNone]
        · simp [LifeState.setTask]
        · simp [LifeState.setTask, TaskPc.stage]
    | taskCreateFails =>
        exact consistent_return hothers hs.held hs.faults (.inr ⟨hrunning, hid, habsent⟩)
          fun _ => hrunning
    | deleteCaller _ _ _ hpc => simp at hpc
  · cases heffect with
    | setRunning =>
        exact consistent_advance hs hexclusive _ (by simp [CallPc.exclusive_iff])
          ⟨rfl, hduring.2⟩
    | deleteCaller _ _ _ hpc => simp at hpc
  · cases heffect with
    | loadStart =>
        exact consistent_advance hs hexclusive s.running (by simp [CallPc.exclusive_iff])
          ⟨hduring.1, hduring.2, rfl⟩
    | deleteCaller _ _ _ hpc => simp at hpc
  · obtain ⟨hrunning, ⟨j, hpresent, hdormant⟩, rfl⟩ := hduring
    cases heffect with
    | taskStart _ k hholder _ =>
        have hstage : (s.tasks j).pc.stage ≠ .absent := by simp [hdormant]
        have hsame := hholder.symm.trans (holder_of_present hs.held hpresent hstage)
        cases hsame
        obtain ⟨hheld, hquiet⟩ := quiet_taskStart hs.held hrunning hpresent hdormant
          (wake (.own j) s.ready)
        exact consistent_return hothers hheld hs.faults hquiet
          fun hgone => absurd (hlive.symm.trans hgone) (by simp)
    | taskStartFails _ =>
        exact consistent_advance hs hexclusive s.running (by simp [CallPc.exclusive_iff])
          ⟨hrunning, j, hpresent, hdormant⟩
    | deleteCaller _ _ _ hpc => simp at hpc

/-- The clean-up of `start` where the task could not be started. -/
theorem consistent_cleanUp (hs : Consistent priority callerPriority s)
    (heffect : CallEffect s t .advance (s.calls t) s' pc)
    (hcleanUp : s.calls t = .startFailed ∨ s.calls t = .loadFailed ∨
      (∃ ref, s.calls t = .deleteFailed ref) ∨ s.calls t = .resetFailed) :
    Consistent priority callerPriority
      { s' with calls := Function.update s.calls t pc } := by
  have hexclusive : (s.calls t).exclusive := by
    rcases hcleanUp with hpc | hpc | ⟨ref, hpc⟩ | hpc <;>
      simp [hpc, CallPc.exclusive_iff]
  have hduring := hs.during t
  rcases hcleanUp with hpc | hpc | ⟨ref, hpc⟩ | hpc <;> rw [hpc] at heffect hduring
  · cases heffect with
    | startFailed =>
        exact consistent_advance hs hexclusive _ (by simp [CallPc.exclusive_iff])
          ⟨rfl, hduring.2⟩
    | deleteCaller _ _ _ hpc => simp at hpc
  · cases heffect with
    | loadFailed =>
        exact consistent_advance hs hexclusive s.running (by simp [CallPc.exclusive_iff])
          ⟨hduring.1, hduring.2, rfl⟩
    | deleteCaller _ _ _ hpc => simp at hpc
  · obtain ⟨hrunning, ⟨k, hpresent, hdormant⟩, rfl⟩ := hduring
    have hstage : (s.tasks k).pc.stage ≠ .absent := by simp [hdormant]
    cases heffect with
    | deleteFailed _ _ =>
        exact consistent_delete hs hexclusive hrunning hpresent hstage (by simp [hdormant])
          (.inl rfl)
    | deleteCaller _ ref hnone hpc =>
        have hid := taskId_ne_none hs.held hpresent hstage
        simp only [CallPc.deleteFailed.injEq, reduceCtorEq, exists_false, or_false] at hpc
        exact absurd (hpc ▸ hnone) hid
  · cases heffect with
    | resetFailed =>
        exact consistent_return (others_idle hs hexclusive) (held_of_absent hduring.2)
          hs.faults (.inr ⟨hduring.1, rfl, hduring.2⟩) fun _ => hduring.1
    | deleteCaller _ _ _ hpc => simp at hpc

/-- The steps of `stop` past its test, up to its event. -/
theorem consistent_stop (hs : Consistent priority callerPriority s)
    (heffect : CallEffect s t .advance (s.calls t) s' pc) (destroys : Bool)
    (hstop : s.calls t = .clearRunning destroys ∨ s.calls t = .testId destroys ∨
      s.calls t = .loadSend destroys ∨ ∃ ref, s.calls t = .sendStop destroys ref) :
    Consistent priority callerPriority
      { s' with calls := Function.update s.calls t pc } := by
  have hexclusive : (s.calls t).exclusive := by
    rcases hstop with hpc | hpc | hpc | ⟨ref, hpc⟩ <;>
      simp [hpc, CallPc.exclusive_iff]
  have hothers := others_idle hs hexclusive
  have hlive := live_of_busy hs hexclusive.1
  have hduring := hs.during t
  rcases hstop with hpc | hpc | hpc | ⟨ref, hpc⟩ <;> rw [hpc] at heffect hduring
  · cases heffect with
    | clearRunning _ =>
        exact consistent_advance hs hexclusive _ (by simp [CallPc.exclusive_iff])
          ⟨rfl, hduring.2⟩
    | deleteCaller _ _ _ hpc => simp at hpc
  · cases heffect with
    | testIdNone _ hnone =>
        obtain ⟨k, hpresent, hlooping, -⟩ := hduring.2
        exact absurd hnone (taskId_ne_none hs.held hpresent (by simp [hlooping]))
    | testIdSome _ _ =>
        exact consistent_advance hs hexclusive s.running (by simp [CallPc.exclusive_iff])
          hduring
    | deleteCaller _ _ _ hpc => simp at hpc
  · cases heffect with
    | loadSend _ =>
        exact consistent_advance hs hexclusive s.running (by simp [CallPc.exclusive_iff])
          ⟨hduring.1, hduring.2, rfl⟩
    | deleteCaller _ _ _ hpc => simp at hpc
  · obtain ⟨hrunning, ⟨k, hpresent, hlooping, hshields⟩, rfl⟩ := hduring
    have hdrift := drift_eventSend hs.held hpresent (by simp [hlooping])
    cases heffect with
    | sendStop _ _ =>
        exact consistent_exclusive hothers hdrift.held (hdrift.destroyed.trans hlive)
          (hdrift.faults.trans hs.faults)
          (by simp [CallPc.exclusive_iff])
          ⟨hdrift.running.trans hrunning,
            hdrift.stoppable hexclusive ⟨k, hpresent, hlooping, hshields⟩⟩
    | deleteCaller _ _ _ hpc => simp at hpc

/-- The rest of `stop`: the task has not run since the test. -/
theorem consistent_stopDelete (hs : Consistent priority callerPriority s)
    (heffect : CallEffect s t .advance (s.calls t) s' pc) (destroys : Bool)
    (hstop : s.calls t = .loadDelete destroys ∨
      (∃ ref, s.calls t = .taskDelete destroys ref) ∨ s.calls t = .resetId destroys) :
    Consistent priority callerPriority
      { s' with calls := Function.update s.calls t pc } := by
  have hexclusive : (s.calls t).exclusive := by
    rcases hstop with hpc | ⟨ref, hpc⟩ | hpc <;>
      simp [hpc, CallPc.exclusive_iff]
  have hduring := hs.during t
  rcases hstop with hpc | ⟨ref, hpc⟩ | hpc <;> rw [hpc] at heffect hduring
  · cases heffect with
    | loadDelete _ =>
        exact consistent_advance hs hexclusive s.running (by simp [CallPc.exclusive_iff])
          ⟨hduring.1, hduring.2, rfl⟩
    | deleteCaller _ _ _ hpc => simp at hpc
  · obtain ⟨hrunning, ⟨k, hpresent, hlooping, -⟩, rfl⟩ := hduring
    have hstage : (s.tasks k).pc.stage ≠ .absent := by simp [hlooping]
    cases heffect with
    | taskDelete _ _ _ =>
        exact consistent_delete hs hexclusive hrunning hpresent hstage (by simp [hlooping])
          (.inr ⟨destroys, rfl⟩)
    | deleteCaller _ ref hnone hpc =>
        have hid := taskId_ne_none hs.held hpresent hstage
        simp only [reduceCtorEq, CallPc.taskDelete.injEq, false_or, exists_and_right] at hpc
        exact absurd (hpc.2 ▸ hnone) hid
  · cases heffect with
    | resetId _ =>
        exact consistent_return (others_idle hs hexclusive) (held_of_absent hduring.2)
          hs.faults (.inr ⟨hduring.1, rfl, hduring.2⟩) fun _ => hduring.1
    | deleteCaller _ _ _ hpc => simp at hpc

/-- The first tests of the calls. -/
theorem consistent_call (hs : Consistent priority callerPriority s) {label : CallLabel}
    (hexecutes : Executes priority callerPriority s (.caller t))
    (heffect : CallEffect s t label (s.calls t) s' pc) (hidle : s.calls t = .idle)
    (horderly : Orderly priority callerPriority s (.call t label)) :
    Consistent priority callerPriority
      { s' with calls := Function.update s.calls t pc } := by
  have hsame := consistent_same hs t
  rw [hidle] at heffect hsame
  have hnone : (∀ u, ¬ (s.calls u).busy) → ∀ u, ¬ (s.calls u).exclusive :=
    fun hbusy u hexclusive => hbusy u hexclusive.1
  have hothers : (∀ u, ¬ (s.calls u).busy) → ∀ u, u ≠ t → s.calls u = .idle :=
    fun hbusy u _ => not_not.mp (hbusy u)
  cases heffect with
  | startRunning _ _ => exact hsame
  | startNew hlive hrunning =>
      have hbusy := horderly hrunning
      rcases hs.quiet (hnone hbusy) with ⟨htrue, -⟩ | hquiet
      · simp [hrunning] at htrue
      · exact consistent_exclusive (hothers hbusy) hs.held hlive hs.faults
          (by simp [CallPc.exclusive_iff]) hquiet
  | stopIdle destroys hlive hrunning =>
      cases destroys with
      | false =>
          have hunchanged : { s with destroyed := false } = s := by rw [← hlive]
          rw [hunchanged]
          exact hsame
      | true =>
          have hbusy := horderly.1 (.inr rfl)
          exact consistent_return (hothers hbusy) hs.held hs.faults
            (hs.quiet (hnone hbusy)) fun _ => hrunning
  | stopRunning destroys hlive hrunning =>
      have hbusy := horderly.1 (.inl hrunning)
      obtain ⟨houtranked, houtside⟩ := horderly.2 hrunning
      rcases hs.quiet (hnone hbusy) with ⟨-, k, hpresent, hactive⟩ | ⟨hfalse, -⟩
      · have hlooping := hactive.resolve_right (houtside k)
        exact consistent_exclusive (hothers hbusy) hs.held hlive hs.faults
          (by simp [CallPc.exclusive_iff])
          ⟨hrunning, k, hpresent, hlooping, shields_of_executing hexecutes houtranked⟩
      · simp [hrunning] at hfalse
  | deleteCaller _ _ _ hpc => simp at hpc
  | notifyNone _ _ => exact hsame
  | notifySome hlive hid =>
      have hfree := horderly hid
      rcases hs.quiet hfree with ⟨hrunning, -⟩ | ⟨-, hnoTask, -⟩
      · exact consistent_notifying hs hfree (.inr ⟨.inl rfl, hlive⟩) hrunning
      · exact absurd (congrArg TaskRef.id hnoTask) hid

theorem consistent_notify (hs : Consistent priority callerPriority s)
    (heffect : CallEffect s t .advance (s.calls t) s' pc) (hnotify : (s.calls t).notifies) :
    Consistent priority callerPriority
      { s' with calls := Function.update s.calls t pc } := by
  have hbusy : (s.calls t).busy := by
    rcases hnotify with hpc | ⟨ref, hpc⟩ <;> simp [CallPc.busy, hpc]
  have hfree : ∀ u, ¬ (s.calls u).exclusive := by
    intro u hexclusive
    obtain rfl := hs.alone u t hexclusive hbusy
    exact hexclusive.2 hnotify
  have hlive := live_of_busy hs hbusy
  have hduring := hs.during t
  rcases hnotify with hpc | ⟨ref, hpc⟩ <;> rw [hpc] at heffect hduring
  · cases heffect with
    | loadNotify =>
        exact consistent_notifying hs hfree (.inr ⟨.inr ⟨_, rfl⟩, hlive⟩) ⟨hduring, rfl⟩
    | deleteCaller _ _ _ hpc => simp at hpc
  · obtain ⟨hrunning, rfl⟩ := hduring
    cases heffect with
    | sendNotify _ =>
        rcases hs.quiet hfree with ⟨-, k, hpresent, hactive⟩ | ⟨hfalse, -⟩
        · have hstage : (s.tasks k).pc.stage ≠ .absent := by
            rcases hactive with hactive | hactive <;> simp [hactive]
          have hdrift := drift_eventSend hs.held hpresent hstage
          have hsent := hs.drift hdrift
          rw [← hdrift.calls] at hfree ⊢
          exact consistent_notifying hsent hfree (.inl rfl) trivial
        · simp [hrunning] at hfalse
    | deleteCaller _ _ _ hpc => simp at hpc

end Advance

theorem advance_of_busy {t : ℕ} {label : CallLabel} {pc : CallPc}
    (heffect : CallEffect s t label (s.calls t) s' pc) (hbusy : (s.calls t).busy) :
    label = .advance := by
  generalize hcall : s.calls t = before at heffect
  cases heffect <;> first | rfl | exact absurd hcall hbusy

theorem consistent_step (hs : Consistent priority callerPriority s) {label : LifeLabel}
    (horderly : Orderly priority callerPriority s label)
    (hstep : LifeStep priority callerPriority s label s') :
    Consistent priority callerPriority s' := by
  cases hstep with
  | call t label after pc hexecutes heffect =>
      by_cases hidle : s.calls t = .idle
      · exact consistent_call hs hexecutes heffect hidle horderly
      obtain rfl := advance_of_busy heffect hidle
      cases hcall : s.calls t with
      | idle => exact absurd hcall hidle
      | taskCreate | setRunning | loadStart | taskStart ref =>
          exact consistent_start hs heffect (by simp [hcall])
      | startFailed | loadFailed | deleteFailed ref | resetFailed =>
          exact consistent_cleanUp hs heffect (by simp [hcall])
      | clearRunning destroys | testId destroys | loadSend destroys
      | sendStop destroys ref => exact consistent_stop hs heffect destroys (by simp [hcall])
      | loadDelete destroys | taskDelete destroys ref
      | resetId destroys => exact consistent_stopDelete hs heffect destroys (by simp [hcall])
      | loadNotify | sendNotify ref =>
          exact consistent_notify hs heffect (by simp [hcall, CallPc.notifies])
      | ended =>
          have hduring := hs.during t
          rw [hcall] at hduring
          exact hduring.elim
  | task k after hexecutes heffect => exact hs.drift (drift_task hs hexecutes heffect)
  | other after heffect => exact hs.drift (drift_other hs.held heffect)

end Steps

/-- In every run in which the calls are orderly, whatever the priorities and the
interleaving, the life of the object stays sound. -/
theorem sound_of_orderly (priority : ℕ) (callerPriority : ℕ → ℕ)
    (trace : List (Move LifeState LifeLabel)) (finish : LifeState)
    (hrun : Run (LifeStep priority callerPriority) constructed trace finish)
    (horderly : Admitted (Orderly priority callerPriority) trace) :
    Throughout Sound constructed trace :=
  hrun.throughout (fun _ hs => hs.sound)
    (fun _ _ _ hs hadmit hstep => consistent_step hs hadmit hstep)
    (consistent_constructed priority callerPriority) horderly

/-- A caller that outranks the task starts it, notifies it, blocks while it runs its
callback, and destroys the object. -/
theorem sound_started_and_destroyed :
    ∃ trace finish, Run (LifeStep 5 fun _ => 1) constructed trace finish ∧
      finish.destroyed = true ∧ (finish.tasks 0).pc = .deleted ∧
      Throughout Sound constructed trace := by
  have hrun : ∃ trace finish, Run (LifeStep 5 fun _ => 1) constructed trace finish ∧
      Admitted (Orderly 5 fun _ => 1) trace ∧ finish.destroyed = true ∧
      (finish.tasks 0).pc = .deleted := by
    refine ⟨_, _,
      .cons (.other _ _ (.wakeCaller 0 rfl)) <|
      .cons (.call _ 0 .start _ _ rfl (.startNew rfl rfl)) <|
      .cons (.call _ 0 .advance _ _ rfl (.taskCreate 0 1 rfl (by decide) rfl)) <|
      .cons (.call _ 0 .advance _ _ rfl .setRunning) <|
      .cons (.call _ 0 .advance _ _ rfl .loadStart) <|
      .cons (.call _ 0 .advance _ _ rfl (.taskStart _ 0 rfl rfl)) <|
      .cons (.call _ 0 .notify _ _ rfl (.notifySome rfl (by decide))) <|
      .cons (.call _ 0 .advance _ _ rfl .loadNotify) <|
      .cons (.call _ 0 .advance _ _ rfl (.sendNotify _)) <|
      .cons (.other _ _ (.blockCaller 0 rfl)) <|
      .cons (.task _ 0 _ rfl (.loop rfl rfl)) <|
      .cons (.task _ 0 _ rfl (.receive _ rfl rfl)) <|
      .cons (.task _ 0 _ rfl (.enterCallback rfl rfl)) <|
      .cons (.task _ 0 _ rfl (.leaveCallback rfl)) <|
      .cons (.task _ 0 _ rfl (.loop rfl rfl)) <|
      .cons (.task _ 0 _ rfl (.wait rfl rfl)) <|
      .cons (.other _ _ (.wakeCaller 0 rfl)) <|
      .cons (.call _ 0 (.stop true) _ _ rfl (.stopRunning true rfl rfl)) <|
      .cons (.call _ 0 .advance _ _ rfl (.clearRunning true)) <|
      .cons (.call _ 0 .advance _ _ rfl (.testIdSome true (by decide))) <|
      .cons (.call _ 0 .advance _ _ rfl (.loadSend true)) <|
      .cons (.call _ 0 .advance _ _ rfl (.sendStop true _)) <|
      .cons (.call _ 0 .advance _ _ rfl (.loadDelete true)) <|
      .cons (.call _ 0 .advance _ _ rfl (.taskDelete true _ (by decide))) <|
      .cons (.call _ 0 .advance _ _ rfl (.resetId true)) <|
      .nil _, ?_, rfl, rfl⟩
    -- the first tests of the three calls are the steps with a condition
    refine
      .cons trivial <|
      .cons (fun _ u hbusy => hbusy rfl) <|
      .cons trivial <| .cons trivial <| .cons trivial <| .cons trivial <|
      .cons (fun _ u hexclusive => ?_) <|
      .cons trivial <| .cons trivial <| .cons trivial <| .cons trivial <|
      .cons trivial <| .cons trivial <| .cons trivial <| .cons trivial <|
      .cons trivial <| .cons trivial <|
      .cons ⟨fun _ u hbusy => ?_, fun _ => ⟨by decide, fun k => ?_⟩⟩ <|
      .cons trivial <| .cons trivial <| .cons trivial <| .cons trivial <|
      .cons trivial <| .cons trivial <| .cons trivial <| .nil _
    · cases u <;> exact hexclusive.1 rfl
    · cases u <;> exact hbusy rfl
    · cases k <;> exact Stage.noConfusion
  obtain ⟨trace, finish, hrun, horderly, hdestroyed, hdeleted⟩ := hrun
  exact ⟨trace, finish, hrun, hdestroyed, hdeleted,
    sound_of_orderly 5 (fun _ => 1) trace finish hrun horderly⟩

/-- The stop event lets a task that outranks the caller delete itself before `stop`
does, and by then another task may have the id.  A task that does not outrank the caller
may be deleted inside its callback. -/
theorem stop_deletes_twice_or_inside :
    (∃ trace finish, Run (LifeStep 5 fun _ => 10) constructed trace finish ∧
      finish.faults = [.staleDelete] ∧ finish.calls 0 = .resetId false ∧
      ¬ Throughout Sound constructed trace) ∧
    ∃ trace finish, Run (LifeStep 5 fun _ => 1) constructed trace finish ∧
      finish.faults = [.deletedInCallback] ∧ finish.calls 0 = .resetId false ∧
      ¬ Throughout Sound constructed trace := by
  have hfaulty : ∀ {callerPriority : ℕ → ℕ} {trace finish} {fault : Fault},
      Run (LifeStep 5 callerPriority) constructed trace finish → finish.faults = [fault] →
        ¬ Throughout Sound constructed trace := by
    intro callerPriority trace finish fault hrun hfaults hsound
    have hclean := (hrun.finish_of_throughout hsound).faults
    rw [hfaults] at hclean
    cases hclean
  constructor
  · have hrun : ∃ trace finish, Run (LifeStep 5 fun _ => 10) constructed trace finish ∧
        finish.faults = [.staleDelete] ∧ finish.calls 0 = .resetId false :=
      ⟨_, _,
        .cons (.other _ _ (.wakeCaller 0 rfl)) <|
        .cons (.call _ 0 .start _ _ rfl (.startNew rfl rfl)) <|
        .cons (.call _ 0 .advance _ _ rfl (.taskCreate 0 1 rfl (by decide) rfl)) <|
        .cons (.call _ 0 .advance _ _ rfl .setRunning) <|
        .cons (.call _ 0 .advance _ _ rfl .loadStart) <|
        .cons (.call _ 0 .advance _ _ rfl (.taskStart _ 0 rfl rfl)) <|
        .cons (.task _ 0 _ rfl (.loop rfl rfl)) <|
        .cons (.task _ 0 _ rfl (.wait rfl rfl)) <|
        .cons (.call _ 0 (.stop false) _ _ rfl (.stopRunning false rfl rfl)) <|
        .cons (.call _ 0 .advance _ _ rfl (.clearRunning false)) <|
        .cons (.call _ 0 .advance _ _ rfl (.testIdSome false (by decide))) <|
        .cons (.call _ 0 .advance _ _ rfl (.loadSend false)) <|
        .cons (.call _ 0 .advance _ _ rfl (.sendStop false _)) <|
        .cons (.task _ 0 _ rfl (.receive _ rfl rfl)) <|
        .cons (.task _ 0 _ rfl (.breakLoop rfl rfl)) <|
        .cons (.task _ 0 _ rfl (.deleteSelf rfl)) <|
        .cons (.other _ _ (.foreignCreate 1 (by decide) rfl)) <|
        .cons (.call _ 0 .advance _ _ rfl (.loadDelete false)) <|
        .cons (.call _ 0 .advance _ _ rfl (.taskDelete false _ (by decide))) <|
        .nil _, rfl, rfl⟩
    obtain ⟨trace, finish, hrun, hfaults, hcall⟩ := hrun
    exact ⟨trace, finish, hrun, hfaults, hcall, hfaulty hrun hfaults⟩
  · have hrun : ∃ trace finish, Run (LifeStep 5 fun _ => 1) constructed trace finish ∧
        finish.faults = [.deletedInCallback] ∧ finish.calls 0 = .resetId false :=
      ⟨_, _,
        .cons (.other _ _ (.wakeCaller 0 rfl)) <|
        .cons (.call _ 0 .start _ _ rfl (.startNew rfl rfl)) <|
        .cons (.call _ 0 .advance _ _ rfl (.taskCreate 0 1 rfl (by decide) rfl)) <|
        .cons (.call _ 0 .advance _ _ rfl .setRunning) <|
        .cons (.call _ 0 .advance _ _ rfl .loadStart) <|
        .cons (.call _ 0 .advance _ _ rfl (.taskStart _ 0 rfl rfl)) <|
        .cons (.other _ _ (.event 0 (by decide))) <|
        .cons (.other _ _ (.blockCaller 0 rfl)) <|
        .cons (.task _ 0 _ rfl (.loop rfl rfl)) <|
        .cons (.task _ 0 _ rfl (.receive _ rfl rfl)) <|
        .cons (.task _ 0 _ rfl (.enterCallback rfl rfl)) <|
        .cons (.other _ _ (.wakeCaller 0 rfl)) <|
        .cons (.call _ 0 (.stop false) _ _ rfl (.stopRunning false rfl rfl)) <|
        .cons (.call _ 0 .advance _ _ rfl (.clearRunning false)) <|
        .cons (.call _ 0 .advance _ _ rfl (.testIdSome false (by decide))) <|
        .cons (.call _ 0 .advance _ _ rfl (.loadSend false)) <|
        .cons (.call _ 0 .advance _ _ rfl (.sendStop false _)) <|
        .cons (.call _ 0 .advance _ _ rfl (.loadDelete false)) <|
        .cons (.call _ 0 .advance _ _ rfl (.taskDelete false _ (by decide))) <|
        .nil _, rfl, rfl⟩
    obtain ⟨trace, finish, hrun, hfaults, hcall⟩ := hrun
    exact ⟨trace, finish, hrun, hfaults, hcall, hfaulty hrun hfaults⟩

end RosRtems.TaskLifetime
