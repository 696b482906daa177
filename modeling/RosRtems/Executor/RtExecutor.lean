import RosRtems.Driver.DeviceClients
import RosRtems.Executor.RtSubscription

/-!
# The executor and what it installs

A timer registration waits for its channel until `spin` opens the device; a
subscription registration starts its task and installs the hooks at once.  Tasks are
named by the attempt that created them, so that a task which is gone is never taken
for a later one with the same id.
-/

namespace RosRtems.RtExecutor

open RosRtems.TimerDriver RosRtems.DeviceClients RosRtems.RtSubscription

variable {Message : Type*}

/-! ## Tasks -/

/-- How `rtems_task_create` and `rtems_task_start` end. -/
inductive StartOutcome
  | createFails
  | startFails
  | starts
  deriving DecidableEq

/-- The attempts to create a task so far, and the tasks deleted among them. -/
structure TaskTable where
  attempts : ℕ
  deleted : List RtemsId

structure CallbackTask where
  taskId : RtemsId
  running : Bool
  runningId : running = true → taskId ≠ rtemsIdNone

def newCallbackTask : CallbackTask := ⟨rtemsIdNone, false, by simp⟩

/-- `outcome` says how each attempt ends. -/
def CallbackTask.start (outcome : ℕ → StartOutcome) (task : CallbackTask)
    (tasks : TaskTable) : Bool × CallbackTask × TaskTable :=
  if task.running then (true, task, tasks)
  else
    let id := tasks.attempts + 1
    match outcome tasks.attempts with
    | .createFails => (false, task, { tasks with attempts := id })
    | .startFails => (false, newCallbackTask, ⟨id, tasks.deleted ++ [id]⟩)
    | .starts => (true, ⟨id, true, fun _ => Nat.succ_ne_zero _⟩, { tasks with attempts := id })

def CallbackTask.stop (task : CallbackTask) (tasks : TaskTable) :
    CallbackTask × TaskTable :=
  if task.running then
    if task.taskId ≠ rtemsIdNone then
      (newCallbackTask, { tasks with deleted := tasks.deleted ++ [task.taskId] })
    else (⟨task.taskId, false, by simp⟩, tasks)
  else (task, tasks)

/-! ## The executor -/

structure TimerReg where
  channel : ℤ
  periodTicks : Interval
  task : CallbackTask

structure SubReg where
  subscription : ℕ
  task : CallbackTask

structure Executor where
  timerRegs : List TimerReg
  nextChannel : ℤ
  subRegs : List SubReg
  devFd : ℤ

def rtExecutor : Executor where
  timerRegs := []
  nextChannel := 0
  subRegs := []
  devFd := -1

/-- The executor, the device, the tasks and the subscriptions of the program. -/
structure World (Message : Type*) where
  executor : Executor
  driver : Driver
  tasks : TaskTable
  subscriptions : ℕ → Subscription Message

/-- `rt_ms_to_ticks`. -/
def rtMsToTicks (tps : Interval) (ms : UInt32) : Interval :=
  UInt32.ofNat (ms.toNat * tps.toNat / 1000)

def registerRtTimer (tps : Interval) (periodMs : UInt32) (executor : Executor) :
    ℤ × Executor :=
  if executor.nextChannel ≥ rtssTimerMaxChannels then (-1, executor)
  else
    let ch := executor.nextChannel
    (ch, { executor with
      nextChannel := ch + 1
      timerRegs := executor.timerRegs ++
        [⟨ch, rtMsToTicks tps periodMs, newCallbackTask⟩] })

section Operations

variable (outcome : ℕ → StartOutcome) (tps : Interval)

/-- `none` is a null pointer. -/
def registerRtSubscription (subscription : Option ℕ) (w : World Message) :
    ℤ × World Message :=
  match subscription with
  | none => (-1, w)
  | some sub =>
      match newCallbackTask.start outcome w.tasks with
      | (false, _, tasks) => (-1, { w with tasks := tasks })
      | (true, task, tasks) =>
          (w.executor.subRegs.length,
            { w with
              tasks := tasks
              subscriptions := Function.update w.subscriptions sub
                (installHooks (w.subscriptions sub) task.taskId)
              executor := { w.executor with
                subRegs := w.executor.subRegs ++ [⟨sub, task⟩] } })

/-- The loop of `start_all_tasks`. -/
def startTimerTasks : List TimerReg → TaskTable → List TimerReg × TaskTable
  | [], tasks => ([], tasks)
  | reg :: regs, tasks =>
      let (_, task, tasks) := reg.task.start outcome tasks
      let (started, tasks) := startTimerTasks regs tasks
      ({ reg with task := task } :: started, tasks)

def startAllTasks (w : World Message) : World Message :=
  let (regs, tasks) := startTimerTasks outcome w.executor.timerRegs w.tasks
  { w with executor := { w.executor with timerRegs := regs }, tasks := tasks }

/-- The channel loop of `setup_timer_driver`. -/
def setupChannels (now : ℤ) :
    List TimerReg → TaskTable → Driver → List TimerReg × TaskTable × Driver
  | [], tasks, d => ([], tasks, d)
  | reg :: regs, tasks, d =>
      let (started, task, tasks) := reg.task.start outcome tasks
      let d :=
        if started then
          setupTimerChannel tps now d ⟨reg.channel, reg.periodTicks, task.taskId, true⟩
        else d
      let (rest, tasks, d) := setupChannels now regs tasks d
      ({ reg with task := task } :: rest, tasks, d)

/-- `open` of the device: `none` is a call that fails before it reaches the driver; the
others have the descriptor it would return and the result of
`rtems_interrupt_handler_install`. -/
def openDevice (attempt : Option (ℕ × StatusCode)) (d : Driver) : ℤ × Driver :=
  match attempt with
  | none => (-1, d)
  | some (fd, sc) =>
      match rtssOpen sc d with
      | (.successful, opened) => (fd, opened)
      | (_, unchanged) => (-1, unchanged)

def setupTimerDriver (attempt : Option (ℕ × StatusCode)) (now : ℤ) (w : World Message) :
    Bool × World Message :=
  if w.executor.timerRegs.isEmpty then (true, w)
  else
    let (fd, d) := openDevice attempt w.driver
    if fd < 0 then
      (false, { w with executor := { w.executor with devFd := fd }, driver := d })
    else
      match ioctl tps now (.setMode .event) d with
      | (false, d) =>
          (false, { w with executor := { w.executor with devFd := fd }, driver := d })
      | (true, d) =>
          let (regs, tasks, d) :=
            setupChannels outcome tps now w.executor.timerRegs w.tasks d
          (true,
            { w with
              executor := { w.executor with timerRegs := regs, devFd := fd }
              tasks := tasks
              driver := d })

/-- What a round of `spin` and `cancel` does to the executor and to the device: `spin`
ignores whether the device was set up, and nothing is torn down when it returns. -/
def spinRound (attempt : Option (ℕ × StatusCode)) (now : ℤ) (w : World Message) :
    World Message :=
  (setupTimerDriver outcome tps attempt now (startAllTasks outcome w)).2

end Operations

/-- The tasks in the order of `stop_all_tasks`. -/
def Executor.allTasks (executor : Executor) : List CallbackTask :=
  executor.timerRegs.map TimerReg.task ++ executor.subRegs.map SubReg.task

/-! ## What the operations keep -/

section Spec

variable {outcome : ℕ → StartOutcome} {tps : Interval}

/-- A running task is not started again. -/
theorem start_of_running {task : CallbackTask} (hrunning : task.running = true)
    (tasks : TaskTable) : task.start outcome tasks = (true, task, tasks) := by
  rw [CallbackTask.start, if_pos hrunning]

theorem running_of_start {task started : CallbackTask} {tasks after : TaskTable}
    (hstart : task.start outcome tasks = (true, started, after)) :
    started.running = true := by
  rw [CallbackTask.start] at hstart
  split at hstart
  · rename_i hrunning
    cases hstart
    exact hrunning
  · simp only at hstart
    split at hstart <;> cases hstart
    rfl

theorem stop_of_running {task : CallbackTask} (hrunning : task.running = true)
    (tasks : TaskTable) :
    (task.stop tasks).2 = { tasks with deleted := tasks.deleted ++ [task.taskId] } := by
  rw [CallbackTask.stop, if_pos hrunning, if_pos (task.runningId hrunning)]

theorem deleted_stop (task : CallbackTask) (tasks : TaskTable) {id : RtemsId}
    (hdeleted : id ∈ tasks.deleted) : id ∈ (task.stop tasks).2.deleted := by
  rw [CallbackTask.stop]
  split
  · split
    · exact List.mem_append_left _ hdeleted
    · exact hdeleted
  · exact hdeleted

theorem startTimerTasks_running {regs : List TimerReg} {reg : TimerReg}
    (hmem : reg ∈ regs) (hrunning : reg.task.running = true) (tasks : TaskTable) :
    ∃ kept ∈ (startTimerTasks outcome regs tasks).1, kept.task = reg.task := by
  induction regs generalizing tasks with
  | nil => cases hmem
  | cons head regs ih =>
      rcases List.mem_cons.mp hmem with rfl | hlater
      · simp only [startTimerTasks, start_of_running hrunning]
        exact ⟨reg, List.mem_cons_self .., rfl⟩
      · obtain ⟨kept, hkept, htask⟩ := ih hlater (head.task.start outcome tasks).2.2
        exact ⟨kept, List.mem_cons_of_mem _ hkept, htask⟩

theorem setupChannels_opened (now : ℤ) (regs : List TimerReg) (tasks : TaskTable)
    (d : Driver) :
    (setupChannels outcome tps now regs tasks d).2.2.opened = d.opened := by
  induction regs generalizing tasks d with
  | nil => rfl
  | cons reg regs ih =>
      simp only [setupChannels]
      rw [ih]
      split
      · exact setupTimerChannel_opened ..
      · rfl

/-- After the channel loop a channel that was not active before targets the running
task of a registration, or is not active. -/
theorem setupChannels_target (now : ℤ) (regs : List TimerReg) (tasks : TaskTable)
    (d : Driver) (i : Channel) :
    (∃ reg ∈ (setupChannels outcome tps now regs tasks d).1, reg.task.running = true ∧
      ((setupChannels outcome tps now regs tasks d).2.2.channels i).targetTask =
        reg.task.taskId) ∨
      ((setupChannels outcome tps now regs tasks d).2.2.channels i).active =
        (d.channels i).active ∧
      ((setupChannels outcome tps now regs tasks d).2.2.channels i).targetTask =
        (d.channels i).targetTask := by
  induction regs generalizing tasks d with
  | nil => exact .inr ⟨rfl, rfl⟩
  | cons reg regs ih =>
      simp only [setupChannels]
      cases hstart : reg.task.start outcome tasks with
      | mk started result =>
          obtain ⟨task, after⟩ := result
          simp only
          cases started with
          | false =>
              rcases ih after d with ⟨other, hother, htarget⟩ | hsame
              · exact .inl ⟨other, List.mem_cons_of_mem _ hother, htarget⟩
              · exact .inr hsame
          | true =>
              let d' := setupTimerChannel tps now d
                ⟨reg.channel, reg.periodTicks, task.taskId, true⟩
              have hhead := setupTimerChannel_target tps now d
                ⟨reg.channel, reg.periodTicks, task.taskId, true⟩ rfl i
              rcases ih after d' with ⟨other, hother, htarget⟩ | ⟨hactive, htarget⟩
              · exact .inl ⟨other, List.mem_cons_of_mem _ hother, htarget⟩
              · rcases hhead with hself | hsame
                · left
                  exact ⟨{ reg with task := task }, List.mem_cons_self ..,
                    running_of_start hstart, htarget.trans hself⟩
                · exact .inr ⟨hactive.trans hsame.1, htarget.trans hsame.2⟩

/-- The device is opened only when it was closed; a failed call changes nothing. -/
theorem openDevice_cases (attempt : Option (ℕ × StatusCode)) (d : Driver) :
    ((openDevice attempt d).1 < 0 ∧ (openDevice attempt d).2 = d) ∨
      (0 ≤ (openDevice attempt d).1 ∧ d.opened = false ∧
        (openDevice attempt d).2.opened = true ∧
        (openDevice attempt d).2.channels = d.channels) := by
  cases attempt with
  | none => left; simp [openDevice]
  | some call =>
      obtain ⟨fd, sc⟩ := call
      cases hopened : d.opened with
      | true => left; simp [openDevice, rtssOpen, hopened]
      | false =>
          cases hinstalled : d.isrInstalled with
          | true => right; simp [openDevice, rtssOpen, installPtIsr, hopened, hinstalled]
          | false =>
              by_cases hsc : sc = .successful
              · right
                simp [openDevice, rtssOpen, installPtIsr, hopened, hinstalled, hsc]
              · left
                simp [openDevice, rtssOpen, installPtIsr, hopened, hinstalled, hsc]

end Spec

end RosRtems.RtExecutor
