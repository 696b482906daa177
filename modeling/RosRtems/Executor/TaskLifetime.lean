import RosRtems.Core.FixedPriority
import RosRtems.Driver.TimerDriver
import RosRtems.Executor.CallbackLoop

/-!
# The life of a callback task

A `CallbackTask` object creates, notifies and deletes an RTEMS task, which runs the
object's loop and deletes itself when the loop ends.  The callers and the tasks are
scheduled by fixed priorities, step by step.  The kernel hands the ids of deleted tasks
out again; the tasks of the object are therefore told apart by their creation.
-/

namespace RosRtems.TaskLifetime

open RosRtems.EventSet RosRtems.Runs RosRtems.FixedPriority RosRtems.TimerDriver
  RosRtems.CallbackLoop

/-! ## State -/

/-- Where a task of the object is.  `woken` is past the receive and before the second
look at the flag, `leaving` before the deletion of itself. -/
inductive TaskPc
  | notCreated
  | dormant
  | atLoop
  | atReceive
  | waiting
  | woken
  | inCallback
  | callbackBlocked
  | leaving
  | deleted
  deriving DecidableEq

/-- What matters about a task to those who stop it. -/
inductive Stage
  | absent
  | dormant
  | looping
  | inCallback
  | leaving
  deriving DecidableEq

def TaskPc.stage : TaskPc → Stage
  | .notCreated | .deleted => .absent
  | .dormant => .dormant
  | .atLoop | .atReceive | .waiting | .woken => .looping
  | .inCallback | .callbackBlocked => .inCallback
  | .leaving => .leaving

structure OwnTask where
  id : RtemsId
  pc : TaskPc
  events : Events RtemsEvent

/-- An id, and the task of the object whose creation returned it. -/
structure TaskRef where
  id : RtemsId
  source : ℕ
  deriving DecidableEq

def noTask : TaskRef := ⟨rtemsIdNone, 0⟩

/-- Where a call on the object is, named by what comes next: the load of `task_id_` and
the kernel call that is given what was loaded are two steps.  `destroys` is true for the
`stop` of the destructor, and `ended` is a caller that deleted itself. -/
inductive CallPc
  | idle
  | taskCreate
  | setRunning
  | loadStart
  | taskStart (ref : TaskRef)
  | startFailed
  | loadFailed
  | deleteFailed (ref : TaskRef)
  | resetFailed
  | clearRunning (destroys : Bool)
  | testId (destroys : Bool)
  | loadSend (destroys : Bool)
  | sendStop (destroys : Bool) (ref : TaskRef)
  | loadDelete (destroys : Bool)
  | taskDelete (destroys : Bool) (ref : TaskRef)
  | resetId (destroys : Bool)
  | loadNotify
  | sendNotify (ref : TaskRef)
  | ended
  deriving DecidableEq

inductive Agent
  | caller (t : ℕ)
  | own (k : ℕ)
  deriving DecidableEq

/-- Who has an id: the `k`-th task of the object or a task of somebody else. -/
inductive Holder
  | own (k : ℕ)
  | foreign
  deriving DecidableEq

inductive Fault
  | staleSend
  | staleDelete
  | deletedInCallback
  deriving DecidableEq

/-- The object (`running`, `taskId`, `destroyed`), its tasks, the kernel's table of ids
and its ready tasks, and the callers. -/
structure LifeState where
  running : Bool
  taskId : TaskRef
  destroyed : Bool
  tasks : ℕ → OwnTask
  holder : RtemsId → Option Holder
  ready : List Agent
  calls : ℕ → CallPc
  faults : List Fault

/-- What the constructor leaves behind. -/
def constructed : LifeState where
  running := false
  taskId := noTask
  destroyed := false
  tasks := fun _ => ⟨rtemsIdNone, .notCreated, noEvents⟩
  holder := fun _ => none
  ready := []
  calls := fun _ => .idle
  faults := []

/-! ## The kernel -/

def LifeState.setTask (s : LifeState) (k : ℕ) (task : OwnTask) : LifeState :=
  { s with tasks := Function.update s.tasks k task }

def LifeState.setPc (s : LifeState) (k : ℕ) (pc : TaskPc) : LifeState :=
  s.setTask k { s.tasks k with pc := pc }

/-- The event becomes pending; a task that waits for it goes back to its receive. -/
def LifeState.sendTask (s : LifeState) (k : ℕ) : LifeState :=
  let task := { s.tasks k with events := send event1 (s.tasks k).events }
  if task.pc = .waiting then
    { s.setTask k { task with pc := .atReceive } with ready := wake (.own k) s.ready }
  else s.setTask k task

def LifeState.deleteTask (s : LifeState) (k : ℕ) : LifeState :=
  { s.setPc k .deleted with
    holder := Function.update s.holder (s.tasks k).id none
    ready := block (.own k) s.ready
    faults := s.faults ++
      if (s.tasks k).pc.stage = .inCallback then [.deletedInCallback] else [] }

/-- The id is the id of a task that was deleted. -/
def LifeState.stale (s : LifeState) (ref : TaskRef) : Bool :=
  ref.id != rtemsIdNone && (s.tasks ref.source).pc == .deleted

/-- `rtems_event_send` of `RTEMS_EVENT_1`; the event of another task is not followed
further. -/
def LifeState.eventSend (s : LifeState) (ref : TaskRef) : LifeState :=
  let s := if s.stale ref then { s with faults := s.faults ++ [.staleSend] } else s
  match s.holder ref.id with
  | some (.own k) => s.sendTask k
  | _ => s

/-- `rtems_task_delete`. -/
def LifeState.taskDelete (s : LifeState) (ref : TaskRef) : LifeState :=
  let s := if s.stale ref then { s with faults := s.faults ++ [.staleDelete] } else s
  match s.holder ref.id with
  | some (.own k) => s.deleteTask k
  | some .foreign => { s with holder := Function.update s.holder ref.id none }
  | none => s

/-! ## Steps -/

/-- The calls, with their first test, and every further statement of one. -/
inductive CallLabel
  | start
  | stop (destroys : Bool)
  | notify
  | advance
  deriving DecidableEq

/-- One step of a call by the caller `t`, from one place of it to the next. -/
inductive CallEffect (s : LifeState) (t : ℕ) :
    CallLabel → CallPc → LifeState → CallPc → Prop
  | startRunning (hlive : s.destroyed = false) (hrunning : s.running = true) :
      CallEffect s t .start .idle s .idle
  | startNew (hlive : s.destroyed = false) (hrunning : s.running = false) :
      CallEffect s t .start .idle s .taskCreate
  | taskCreate (k : ℕ) (id : RtemsId) (hnew : (s.tasks k).pc = .notCreated)
      (hid : id ≠ rtemsIdNone) (hfree : s.holder id = none) :
      CallEffect s t .advance .taskCreate
        { s.setTask k ⟨id, .dormant, noEvents⟩ with
          taskId := ⟨id, k⟩
          holder := Function.update s.holder id (some (.own k)) }
        .setRunning
  | taskCreateFails : CallEffect s t .advance .taskCreate s .idle
  | setRunning : CallEffect s t .advance .setRunning { s with running := true } .loadStart
  | loadStart : CallEffect s t .advance .loadStart s (.taskStart s.taskId)
  | taskStart (ref : TaskRef) (k : ℕ) (hholder : s.holder ref.id = some (.own k))
      (hdormant : (s.tasks k).pc = .dormant) :
      CallEffect s t .advance (.taskStart ref)
        { s.setPc k .atLoop with ready := wake (.own k) s.ready } .idle
  | taskStartFails (ref : TaskRef) :
      CallEffect s t .advance (.taskStart ref) s .startFailed
  | startFailed :
      CallEffect s t .advance .startFailed { s with running := false } .loadFailed
  | loadFailed : CallEffect s t .advance .loadFailed s (.deleteFailed s.taskId)
  | deleteFailed (ref : TaskRef) (hid : ref.id ≠ rtemsIdNone) :
      CallEffect s t .advance (.deleteFailed ref) (s.taskDelete ref) .resetFailed
  | resetFailed : CallEffect s t .advance .resetFailed { s with taskId := noTask } .idle
  | stopIdle (destroys : Bool) (hlive : s.destroyed = false) (hrunning : s.running = false) :
      CallEffect s t (.stop destroys) .idle { s with destroyed := destroys } .idle
  | stopRunning (destroys : Bool) (hlive : s.destroyed = false)
      (hrunning : s.running = true) :
      CallEffect s t (.stop destroys) .idle s (.clearRunning destroys)
  | clearRunning (destroys : Bool) :
      CallEffect s t .advance (.clearRunning destroys) { s with running := false }
        (.testId destroys)
  | testIdNone (destroys : Bool) (hnone : s.taskId.id = rtemsIdNone) :
      CallEffect s t .advance (.testId destroys)
        { s with destroyed := s.destroyed || destroys } .idle
  | testIdSome (destroys : Bool) (hid : s.taskId.id ≠ rtemsIdNone) :
      CallEffect s t .advance (.testId destroys) s (.loadSend destroys)
  | loadSend (destroys : Bool) :
      CallEffect s t .advance (.loadSend destroys) s (.sendStop destroys s.taskId)
  | sendStop (destroys : Bool) (ref : TaskRef) :
      CallEffect s t .advance (.sendStop destroys ref) (s.eventSend ref)
        (.loadDelete destroys)
  | loadDelete (destroys : Bool) :
      CallEffect s t .advance (.loadDelete destroys) s (.taskDelete destroys s.taskId)
  | taskDelete (destroys : Bool) (ref : TaskRef) (hid : ref.id ≠ rtemsIdNone) :
      CallEffect s t .advance (.taskDelete destroys ref) (s.taskDelete ref)
        (.resetId destroys)
  -- the id is `RTEMS_SELF`
  | deleteCaller (pc : CallPc) (ref : TaskRef) (hnone : ref.id = rtemsIdNone)
      (hpc : pc = .deleteFailed ref ∨ ∃ destroys, pc = .taskDelete destroys ref) :
      CallEffect s t .advance pc { s with ready := block (.caller t) s.ready } .ended
  | resetId (destroys : Bool) :
      CallEffect s t .advance (.resetId destroys)
        { s with taskId := noTask, destroyed := s.destroyed || destroys } .idle
  | notifyNone (hlive : s.destroyed = false) (hnone : s.taskId.id = rtemsIdNone) :
      CallEffect s t .notify .idle s .idle
  | notifySome (hlive : s.destroyed = false) (hid : s.taskId.id ≠ rtemsIdNone) :
      CallEffect s t .notify .idle s .loadNotify
  | loadNotify : CallEffect s t .advance .loadNotify s (.sendNotify s.taskId)
  | sendNotify (ref : TaskRef) :
      CallEffect s t .advance (.sendNotify ref) (s.eventSend ref) .idle

/-- One step of `run_loop` and `entry_point` by the `k`-th task. -/
inductive TaskEffect (s : LifeState) (k : ℕ) : LifeState → Prop
  | loop (hpc : (s.tasks k).pc = .atLoop) (hrunning : s.running = true) :
      TaskEffect s k (s.setPc k .atReceive)
  | loopEnds (hpc : (s.tasks k).pc = .atLoop) (hrunning : s.running = false) :
      TaskEffect s k (s.setPc k .leaving)
  | receive (rest : Events RtemsEvent) (hpc : (s.tasks k).pc = .atReceive)
      (hreceive : receive event1 (s.tasks k).events = some rest) :
      TaskEffect s k (s.setTask k { s.tasks k with pc := .woken, events := rest })
  | wait (hpc : (s.tasks k).pc = .atReceive)
      (hreceive : EventSet.receive event1 (s.tasks k).events = none) :
      TaskEffect s k { s.setPc k .waiting with ready := block (.own k) s.ready }
  | enterCallback (hpc : (s.tasks k).pc = .woken) (hrunning : s.running = true) :
      TaskEffect s k (s.setPc k .inCallback)
  | breakLoop (hpc : (s.tasks k).pc = .woken) (hrunning : s.running = false) :
      TaskEffect s k (s.setPc k .leaving)
  | leaveCallback (hpc : (s.tasks k).pc = .inCallback) :
      TaskEffect s k (s.setPc k .atLoop)
  | blockInCallback (hpc : (s.tasks k).pc = .inCallback) :
      TaskEffect s k { s.setPc k .callbackBlocked with ready := block (.own k) s.ready }
  | deleteSelf (hpc : (s.tasks k).pc = .leaving) : TaskEffect s k (s.deleteTask k)

/-- What happens besides: callers come and go between their calls, the driver and the
hooks send the event, a callback that blocked goes on, and the ids that nobody has are
given to other tasks. -/
inductive OtherEffect (s : LifeState) : LifeState → Prop
  | wakeCaller (t : ℕ) (hidle : s.calls t = .idle) :
      OtherEffect s { s with ready := wake (.caller t) s.ready }
  | blockCaller (t : ℕ) (hidle : s.calls t = .idle) :
      OtherEffect s { s with ready := block (.caller t) s.ready }
  | event (k : ℕ) (halive : (s.tasks k).pc.stage ≠ .absent) : OtherEffect s (s.sendTask k)
  | unblock (k : ℕ) (hpc : (s.tasks k).pc = .callbackBlocked) :
      OtherEffect s { s.setPc k .inCallback with ready := wake (.own k) s.ready }
  | foreignCreate (id : RtemsId) (hid : id ≠ rtemsIdNone) (hfree : s.holder id = none) :
      OtherEffect s { s with holder := Function.update s.holder id (some .foreign) }
  | foreignDelete (id : RtemsId) (hholder : s.holder id = some .foreign) :
      OtherEffect s { s with holder := Function.update s.holder id none }

inductive LifeLabel
  | call (t : ℕ) (label : CallLabel)
  | task (k : ℕ)
  | other
  deriving DecidableEq

section Priorities

variable (priority : ℕ) (callerPriority : ℕ → ℕ)

/-- All tasks of the object have the priority it was constructed with. -/
def agentPriority : Agent → ℕ
  | .caller t => callerPriority t
  | .own _ => priority

def Executes (s : LifeState) (agent : Agent) : Prop :=
  executing (agentPriority priority callerPriority) s.ready = some agent

inductive LifeStep : LifeState → LifeLabel → LifeState → Prop
  | call (s : LifeState) (t : ℕ) (label : CallLabel) (s' : LifeState) (pc : CallPc)
      (hexecutes : Executes priority callerPriority s (.caller t))
      (heffect : CallEffect s t label (s.calls t) s' pc) :
      LifeStep s (.call t label) { s' with calls := Function.update s.calls t pc }
  | task (s : LifeState) (k : ℕ) (s' : LifeState)
      (hexecutes : Executes priority callerPriority s (.own k))
      (heffect : TaskEffect s k s') : LifeStep s (.task k) s'
  | other (s s' : LifeState) (heffect : OtherEffect s s') : LifeStep s .other s'

end Priorities

/-! ## A sound life -/

/-- Nothing was sent to or asked of a deleted task, no task was deleted inside its
callback, and no task is left that could run the loop of a destroyed object. -/
structure Sound (s : LifeState) : Prop where
  faults : s.faults = []
  gone : s.destroyed = true → ∀ k, (s.tasks k).pc = .notCreated ∨ (s.tasks k).pc = .deleted

/-- The call has found something to do and has not returned. -/
def CallPc.busy (pc : CallPc) : Prop := pc ≠ .idle

def CallPc.notifies (pc : CallPc) : Prop := pc = .loadNotify ∨ ∃ ref, pc = .sendNotify ref

def CallPc.exclusive (pc : CallPc) : Prop := pc.busy ∧ ¬ pc.notifies

/-- What the object relies on: a call that finds something to do finds no other one
under way, except a `notify` another `notify`, and the caller whose `stop` finds the
task running is not outranked by the task, which is not inside its callback. -/
def Orderly (priority : ℕ) (callerPriority : ℕ → ℕ) (s : LifeState) : LifeLabel → Prop
  | .call _ .start => s.running = false → ∀ u, ¬ (s.calls u).busy
  | .call t (.stop destroys) =>
      (s.running = true ∨ destroys = true → ∀ u, ¬ (s.calls u).busy) ∧
        (s.running = true → callerPriority t ≤ priority ∧
          ∀ k, (s.tasks k).pc.stage ≠ .inCallback)
  | .call _ .notify => s.taskId.id ≠ rtemsIdNone → ∀ u, ¬ (s.calls u).exclusive
  | _ => True

end RosRtems.TaskLifetime
