import RosRtems.Driver.DeviceClients

/-!
# The timer manager on the device

`TimeManager` has two tasks of its own.  The reader reads events from the device and
pushes the callback of the event's channel into a queue, and the worker, woken by an
event of the reader, executes what is in the queue.  The driver behind the device sends
its events to the target tasks of the channels; `read` is not one of its operations.
-/

namespace RosRtems.TimeManager

open RosRtems.TimerDriver RosRtems.Runs RosRtems.DriverRuns RosRtems.DeviceClients

/-! ## Registration -/

/-- `TimeManager::TimerInfo`; functions are numbered, and `none` is an empty one. -/
structure TimerInfo where
  channel : ℤ
  callback : Option ℕ
  periodTicks : Interval
  deriving DecidableEq

/-- `ms_to_ticks`. -/
def msToTicks (tps : Interval) (ms : UInt32) : Interval :=
  UInt32.ofNat (ms.toNat * tps.toNat / 1000)

/-- `next_channel_` counts the timers. -/
def registerTimer (tps : Interval) (callback : Option ℕ) (periodMs : UInt32)
    (timers : List TimerInfo) : ℤ × List TimerInfo :=
  if timers.length ≥ rtssTimerMaxChannels then (-1, timers)
  else
    (timers.length,
      timers ++ [⟨timers.length, callback, msToTicks tps periodMs⟩])

/-- The timers that a sequence of registrations leaves. -/
def registered (tps : Interval) (requests : List (Option ℕ × UInt32)) : List TimerInfo :=
  requests.foldl (fun timers request => (registerTimer tps request.1 request.2 timers).2) []

def TimerInfo.config (info : TimerInfo) : TimerConfig := ⟨info.channel, info.periodTicks⟩

/-! ## The reader and the worker -/

/-- What `read` on the device returned: an error, some other number of bytes than an
event has, or the event of a channel. -/
inductive ReadResult
  | failed
  | short
  | event (channel : ℤ)
  deriving DecidableEq

/-- A copy of a callback in the queue, with the channel whose event it answers. -/
structure Task where
  channel : ℤ
  callback : ℕ
  deriving DecidableEq

/-- The search of `reader_loop` for the callback of a channel. -/
def findCallback (timers : List TimerInfo) (channel : ℤ) : Option Task :=
  timers.findSome? fun info =>
    if info.channel = channel then info.callback.map (Task.mk channel) else none

/-- Where the reader stands: at `read`, at the semaphore of the queue, inside `push`, or
before the event for the worker. -/
inductive ReaderPc
  | reading
  | obtaining (task : Task)
  | pushing (task : Task)
  | notifying
  deriving DecidableEq

/-- Where the worker stands: in `rtems_event_receive`, before or inside `try_pop`, or in a
callback. -/
inductive WorkerPc
  | receiving
  | obtaining
  | popping
  | executing (task : Task)
  deriving DecidableEq

/-- The two tasks from `start` until `stop`, with `running_` set.  `workerEvent` is the
`RTEMS_EVENT_1` pending on the worker; the last three fields are the record of what
happened: the reads that returned, the events among them, and the executed callbacks. -/
structure Manager where
  reader : ReaderPc
  worker : WorkerPc
  semaphoreFree : Bool
  queue : List Task
  workerEvent : Bool
  reads : ℕ
  readEvents : List ℤ
  executed : List Task

/-- The tasks when they have been started. -/
def startedManager : Manager where
  reader := .reading
  worker := .receiving
  semaphoreFree := true
  queue := []
  workerEvent := false
  reads := 0
  readEvents := []
  executed := []

/-- What a completed `read` makes the reader do. -/
def Manager.afterRead (timers : List TimerInfo) (m : Manager) : ReadResult → Manager
  | .failed | .short => { m with reads := m.reads + 1 }
  | .event channel =>
      { m with
        reads := m.reads + 1
        readEvents := m.readEvents ++ [channel]
        reader := match findCallback timers channel with
          | some task => .obtaining task
          | none => .reading }

inductive ManagerLabel
  | read (result : ReadResult)
  | obtain
  | push
  | notify
  | receive
  | popObtain
  | popRefused
  | pop
  | execute
  deriving DecidableEq

/-- `returns` says what a `read` may return. -/
inductive ManagerStep (timers : List TimerInfo) (returns : ReadResult → Prop) :
    Manager → ManagerLabel → Manager → Prop
  | read (m : Manager) (result : ReadResult) (hreader : m.reader = .reading)
      (hresult : returns result) :
      ManagerStep timers returns m (.read result) (m.afterRead timers result)
  | obtain (m : Manager) (task : Task) (hreader : m.reader = .obtaining task)
      (hfree : m.semaphoreFree = true) :
      ManagerStep timers returns m .obtain
        { m with reader := .pushing task, semaphoreFree := false }
  | push (m : Manager) (task : Task) (hreader : m.reader = .pushing task) :
      ManagerStep timers returns m .push
        { m with
          reader := .notifying, queue := m.queue ++ [task], semaphoreFree := true }
  | notify (m : Manager) (hreader : m.reader = .notifying) :
      ManagerStep timers returns m .notify { m with reader := .reading, workerEvent := true }
  | receive (m : Manager) (hworker : m.worker = .receiving) (hevent : m.workerEvent = true) :
      ManagerStep timers returns m .receive
        { m with worker := .obtaining, workerEvent := false }
  | popObtain (m : Manager) (hworker : m.worker = .obtaining)
      (hfree : m.semaphoreFree = true) :
      ManagerStep timers returns m .popObtain
        { m with worker := .popping, semaphoreFree := false }
  | popRefused (m : Manager) (hworker : m.worker = .obtaining)
      (hheld : m.semaphoreFree = false) :
      ManagerStep timers returns m .popRefused { m with worker := .receiving }
  | popEmpty (m : Manager) (hworker : m.worker = .popping) (hqueue : m.queue = []) :
      ManagerStep timers returns m .pop
        { m with worker := .receiving, semaphoreFree := true }
  | pop (m : Manager) (task : Task) (rest : List Task) (hworker : m.worker = .popping)
      (hqueue : m.queue = task :: rest) :
      ManagerStep timers returns m .pop
        { m with worker := .executing task, queue := rest, semaphoreFree := true }
  | execute (m : Manager) (task : Task) (hworker : m.worker = .executing task) :
      ManagerStep timers returns m .execute
        { m with worker := .obtaining, executed := m.executed ++ [task] }

/-! ## With the device -/

/-- `rtss_read`. -/
def rtssRead : StatusCode := .notDefined

/-- What `read` makes of the driver's answer, which never counts a byte as moved. -/
def readDevice : ReadResult :=
  if rtssRead = .successful then .short else .failed

/-- The device, the manager, and the expirations that interrupts have found so far: a
channel, and the time it was due. -/
structure EndToEnd where
  device : System
  manager : Manager
  expirations : List (Channel × ℤ)

/-- The active channels whose time has come. -/
def expiredAt (now : ℤ) (d : Driver) : List (Channel × ℤ) :=
  ((List.finRange rtssTimerMaxChannels).filter fun i =>
      (d.channels i).active && (d.channels i).expired now).map
    fun i => (i, (d.channels i).nextFireNs)

inductive EndToEndLabel
  | interrupt (now armNow : Uptime)
  | manager (label : ManagerLabel)

inductive EndToEndStep (timers : List TimerInfo) :
    EndToEnd → EndToEndLabel → EndToEnd → Prop
  | interrupt (s : EndToEnd) (now armNow : Uptime) (device : System)
      (hinterrupt : DriverRuns.Step s.device (.interrupt now armNow) device) :
      EndToEndStep timers s (.interrupt now armNow)
        { s with
          device := device
          expirations := s.expirations ++
            (expiredAt now.ns s.device.driver).filter fun found => found ∉ s.expirations }
  | manager (s : EndToEnd) (label : ManagerLabel) (manager : Manager)
      (hmanager : ManagerStep timers (fun result => result = readDevice) s.manager label
        manager) :
      EndToEndStep timers s (.manager label) { s with manager := manager }

/-- When `start` returns.  The record of the driver's events begins here. -/
def startedSystem (tps : Interval) (clock : Uptime) (mode : TriggerMode)
    (timers : List TimerInfo) (opened : Driver) : EndToEnd where
  device :=
    { driver :=
        { timeManagerStart tps clock.ns mode (timers.map TimerInfo.config) opened with
          sent := [] }
      closing := none
      clock := clock }
  manager := startedManager
  expirations := []

/-! ## Agreement -/

/-- The expirations of a channel. -/
def EndToEnd.expired (s : EndToEnd) (i : Channel) : ℕ :=
  (s.expirations.filter fun found => found.1 = i).length

/-- The events delivered for a channel, by the driver or through `read`. -/
def EndToEnd.delivered (s : EndToEnd) (i : Channel) : ℕ :=
  (s.device.driver.sent.filter fun event => event.channel = i).length +
    s.manager.readEvents.count ((i : ℕ) : ℤ)

/-- The callbacks of a channel that are on their way to the worker, or in it. -/
def Manager.underWay (m : Manager) : List Task :=
  (match m.reader with
    | .obtaining task | .pushing task => [task]
    | .reading | .notifying => []) ++ m.queue ++
  (match m.worker with
    | .executing task => [task]
    | .receiving | .obtaining | .popping => [])

/-- Every expiration of a channel is delivered, every delivered one is executed once or
is on its way, and the reader has not returned from `read` more often than an event was
delivered. -/
structure Agrees (s : EndToEnd) : Prop where
  delivered : ∀ i, s.delivered i = s.expired i
  executed : ∀ i : Channel, ((s.manager.executed ++ s.manager.underWay).filter fun task =>
    task.channel = ((i : ℕ) : ℤ)).length = s.delivered i
  reads : s.manager.reads ≤ s.device.driver.sent.length + s.manager.readEvents.length

/-- No interrupt finds an active channel whose time has come, and no `read` returns. -/
def Undisturbed (s : EndToEnd) : EndToEndLabel → Prop
  | .interrupt now _ => ∀ i, (s.device.driver.channels i).active = true →
      now.ns < (s.device.driver.channels i).nextFireNs
  | .manager (.read _) => False
  | .manager _ => True

/-! ## What `start` sets up -/

section Start

variable (tps : Interval) (now : ℤ)

/-- Only `SET_TASK` changes the target of a channel. -/
theorem ioctl_target (cmd : Command) (hcmd : ∀ cfg, cmd ≠ .setTask cfg) (d : Driver)
    (i : Channel) :
    ((ioctl tps now cmd d).2.channels i).targetTask = (d.channels i).targetTask := by
  have heffect := rtssControl_effect d tps now now cmd
  simp only [ioctl]
  generalize (rtssControl d tps now now cmd).driver = after at heffect
  cases heffect with
  | unchanged => rfl
  | setTask cfg => exact absurd rfl (hcmd _)
  | setPeriod | setPeriodNs =>
      rw [setChannel_channels]
      split
      · rename_i hij
        rw [hij]
      · rfl
  | start | stop =>
      rw [rearmPt_channels, setChannel_channels]
      split
      · rename_i hij
        rw [hij]
      · rfl

theorem timeManagerStart_target (mode : TriggerMode) (configs : List TimerConfig)
    (d : Driver) (i : Channel) :
    ((timeManagerStart tps now mode configs d).channels i).targetTask =
      (d.channels i).targetTask := by
  rw [timeManagerStart]
  have hmode := ioctl_target tps now (.setMode mode) (by simp) d i
  rw [← hmode]
  generalize (ioctl tps now (.setMode mode) d).2 = d
  induction configs generalizing d with
  | nil => rfl
  | cons cfg configs ih =>
      rw [List.foldl_cons, ih, timeManagerChannel]
      have hperiod := ioctl_target tps now (.setPeriod (some cfg)) (by simp) d i
      split
      · rename_i heq
        rwa [heq] at hperiod
      · rename_i heq
        rw [heq] at hperiod
        rw [ioctl_target tps now (.start (some cfg)) (by simp), hperiod]

end Start

/-! ## What a run comes to -/

section Idle

variable {timers : List TimerInfo} {s s' : EndToEnd}

/-- No channel has a target, so the driver has sent nothing; no `read` has returned an
event, so nothing is in the queue or in the worker. -/
structure Unserved (s : EndToEnd) : Prop where
  untargeted : ∀ i, (s.device.driver.channels i).targetTask = rtemsIdNone
  sent : s.device.driver.sent = []
  readEvents : s.manager.readEvents = []
  reader : s.manager.reader = .reading
  worker : s.manager.worker = .receiving
  queue : s.manager.queue = []
  workerEvent : s.manager.workerEvent = false
  executed : s.manager.executed = []

theorem unserved_started (tps : Interval) (clock : Uptime) (mode : TriggerMode)
    (timers : List TimerInfo) {opened : Driver}
    (hclear : ∀ i, (opened.channels i).targetTask = rtemsIdNone) :
    Unserved (startedSystem tps clock mode timers opened) where
  untargeted := fun i =>
    (timeManagerStart_target tps clock.ns mode _ opened i).trans (hclear i)
  sent := rfl
  readEvents := rfl
  reader := rfl
  worker := rfl
  queue := rfl
  workerEvent := rfl
  executed := rfl

/-- An interrupt sends nothing to a channel without a target. -/
theorem sent_of_untargeted {fuel : ℕ} {now armNow : ℤ} {d after : Driver}
    (huntargeted : ∀ i, (d.channels i).targetTask = rtemsIdNone)
    (hisr : ptIsr fuel now armNow d = some after) : after.sent = d.sent := by
  obtain ⟨looped, hlooped, rfl⟩ := Option.map_eq_some_iff.mp hisr
  rw [rearmPt_sent, isrLoop_sent (List.nodup_finRange _) hlooped, List.append_right_eq_self,
    List.map_eq_nil_iff, List.filter_eq_nil_iff]
  intro i _ hdue
  exact (due_iff.mp hdue).2.1 (huntargeted i)

/-- The only step of the manager is a failed `read`. -/
theorem manager_step_of_unserved {label : ManagerLabel} {manager : Manager}
    (hs : Unserved s)
    (hmanager : ManagerStep timers (fun result => result = readDevice) s.manager label
      manager) :
    label = .read .failed ∧ manager = { s.manager with reads := s.manager.reads + 1 } := by
  cases hmanager with
  | read result _ hresult =>
      subst hresult
      exact ⟨rfl, rfl⟩
  | obtain task hreader _ => simp [hs.reader] at hreader
  | push task hreader => simp [hs.reader] at hreader
  | notify hreader => simp [hs.reader] at hreader
  | receive _ hevent => simp [hs.workerEvent] at hevent
  | popObtain hworker _ => simp [hs.worker] at hworker
  | popRefused hworker _ => simp [hs.worker] at hworker
  | popEmpty hworker _ => simp [hs.worker] at hworker
  | pop task rest hworker _ => simp [hs.worker] at hworker
  | execute task hworker => simp [hs.worker] at hworker

theorem unserved_step (s : EndToEnd) (label : EndToEndLabel) (s' : EndToEnd)
    (hs : Unserved s) (hstep : EndToEndStep timers s label s') : Unserved s' := by
  cases hstep with
  | interrupt now armNow device hinterrupt =>
      cases hinterrupt with
      | interrupt fuel _ _ after _ _ _ hisr =>
          exact
            { hs with
              untargeted := fun i =>
                ((ptIsr_configuration hisr).2 i).2.trans (hs.untargeted i)
              sent := (sent_of_untargeted hs.untargeted hisr).trans hs.sent }
  | manager label manager hmanager =>
      obtain ⟨rfl, rfl⟩ := manager_step_of_unserved hs hmanager
      exact { hs with }

def NothingYet (s : EndToEnd) : Prop := s.expirations = [] ∧ s.manager.reads = 0

/-- Nothing having been delivered, the parts agree as long as nothing has happened. -/
theorem agrees_iff (hs : Unserved s) : Agrees s ↔ NothingYet s := by
  have hdelivered : ∀ i, s.delivered i = 0 := by
    intro i
    rw [EndToEnd.delivered, hs.sent, hs.readEvents]
    rfl
  constructor
  · intro hagrees
    refine ⟨?_, ?_⟩
    · rw [List.eq_nil_iff_forall_not_mem]
      rintro ⟨i, due⟩ hfound
      have hcount := (hagrees.delivered i).symm.trans (hdelivered i)
      rw [EndToEnd.expired, List.length_eq_zero_iff, List.filter_eq_nil_iff] at hcount
      exact hcount _ hfound (by simp)
    · have hreads := hagrees.reads
      rw [hs.sent, hs.readEvents] at hreads
      exact Nat.le_zero.mp hreads
  · rintro ⟨hexpirations, hreads⟩
    refine ⟨fun i => ?_, fun i => ?_, hreads.trans_le (Nat.zero_le _)⟩
    · rw [hdelivered, EndToEnd.expired, hexpirations]
      rfl
    · rw [hdelivered, Manager.underWay, hs.executed, hs.reader, hs.queue, hs.worker]
      rfl

theorem expiredAt_eq_nil_iff {now : ℤ} {d : Driver} :
    expiredAt now d = [] ↔ ∀ i, (d.channels i).active = true → now < (d.channels i).nextFireNs := by
  rw [expiredAt, List.map_eq_nil_iff, List.filter_eq_nil_iff]
  constructor
  · intro hnone i hactive
    have hfuture := hnone i (List.mem_finRange i)
    rw [hactive, Bool.true_and, ChannelState.expired, decide_eq_true_eq, not_le] at hfuture
    exact hfuture
  · intro hfuture i _
    rw [Bool.and_eq_true, ChannelState.expired, decide_eq_true_eq]
    rintro ⟨hactive, hexpired⟩
    exact absurd (hfuture i hactive) (not_lt.mpr hexpired)

/-- A step from a state in which nothing has happened is an undisturbed one exactly when
nothing has happened after it. -/
theorem undisturbed_iff {label : EndToEndLabel} (hs : Unserved s) (hnothing : NothingYet s)
    (hstep : EndToEndStep timers s label s') : Undisturbed s label ↔ NothingYet s' := by
  obtain ⟨hexpirations, hreads⟩ := hnothing
  cases hstep with
  | interrupt now armNow device hinterrupt =>
      rw [Undisturbed, ← expiredAt_eq_nil_iff]
      simp [NothingYet, hexpirations, hreads]
  | manager label manager hmanager =>
      obtain ⟨rfl, rfl⟩ := manager_step_of_unserved hs hmanager
      simp [Undisturbed, NothingYet]

end Idle

/-- Whatever timers were registered, in whatever mode, no callback is ever executed. -/
theorem nothing_executed {tps : Interval} {clock : Uptime} {mode : TriggerMode}
    {requests : List (Option ℕ × UInt32)} {opened : Driver}
    (hclear : ∀ i, (opened.channels i).targetTask = rtemsIdNone)
    {trace : List (Move EndToEnd EndToEndLabel)} {finish : EndToEnd}
    (hrun : Run (EndToEndStep (registered tps requests))
      (startedSystem tps clock mode (registered tps requests) opened) trace finish) :
    finish.manager.executed = [] :=
  (hrun.always unserved_step (unserved_started tps clock mode _ hclear)).executed

/-- The manager and the device agree throughout a run exactly when the run has neither an
expiration nor a `read` that returned. -/
theorem agrees_throughout_iff {tps : Interval} {clock : Uptime} {mode : TriggerMode}
    {requests : List (Option ℕ × UInt32)} {opened : Driver}
    (hclear : ∀ i, (opened.channels i).targetTask = rtemsIdNone)
    {trace : List (Move EndToEnd EndToEndLabel)} {finish : EndToEnd}
    (hrun : Run (EndToEndStep (registered tps requests))
      (startedSystem tps clock mode (registered tps requests) opened) trace finish) :
    Throughout Agrees (startedSystem tps clock mode (registered tps requests) opened) trace ↔
      Admitted Undisturbed trace := by
  have hstart : Unserved (startedSystem tps clock mode (registered tps requests) opened) :=
    unserved_started tps clock mode _ hclear
  have hagrees : ∀ s, Unserved s ∧ NothingYet s → Agrees s :=
    fun s hs => (agrees_iff hs.1).mpr hs.2
  refine hrun.throughout_iff_admitted hagrees ?_ ?_ ⟨hstart, rfl, rfl⟩
  · intro s label s' hs hadmitted hstep
    exact ⟨unserved_step s label s' hs.1 hstep,
      (undisturbed_iff hs.1 hs.2 hstep).mp hadmitted⟩
  · intro s label s' hs hstep hafter
    have hunserved := unserved_step s label s' hs.1 hstep
    exact (undisturbed_iff hs.1 hs.2 hstep).mpr ((agrees_iff hunserved).mp hafter)

/-! ## One timer -/

/-- The device as `start` finds it after `rtss_init`. -/
def openedDevice : Driver := (rtssOpen .successful rtssInit).2

def oneTimer (periodMs : UInt32) : List TimerInfo := registered 100 [(some 0, periodMs)]

def startedWith (periodMs : UInt32) : EndToEnd :=
  startedSystem 100 atBoot .binarySemaphore (oneTimer periodMs) openedDevice

/-- The countdown of a timer of 20 ms is found to be still running after 10 ms. -/
theorem agrees_before_expiration : ∃ trace finish,
    Run (EndToEndStep (oneTimer 20)) (startedWith 20) trace finish ∧
    trace.map Move.label = [.interrupt atTenMs atTenMs] ∧
    Throughout Agrees (startedWith 20) trace := by
  have hrun : ∃ trace finish, Run (EndToEndStep (oneTimer 20)) (startedWith 20) trace finish ∧
      trace.map Move.label = [.interrupt atTenMs atTenMs] ∧ Admitted Undisturbed trace := by
    refine ⟨_, _,
      .cons (.interrupt _ atTenMs atTenMs _
        (.interrupt _ 1 atTenMs atTenMs _ rfl (by decide) le_rfl rfl)) <|
      .nil _, rfl, .cons ?_ (.nil _)⟩
    change ∀ i, _ → _
    decide
  obtain ⟨trace, finish, hrun, hlabels, hadmitted⟩ := hrun
  exact ⟨trace, finish, hrun, hlabels,
    (agrees_throughout_iff (fun _ => rfl) hrun).mpr hadmitted⟩

/-- The channel of a timer of 10 ms expires, and nobody learns of it; `read` returns with
an error, and the reader goes on to the next one. -/
theorem expiration_reaches_nobody : ∃ trace finish,
    Run (EndToEndStep (oneTimer 10)) (startedWith 10) trace finish ∧
    trace.map Move.label =
      [.interrupt atTenMs atTenMs, .manager (.read .failed), .manager (.read .failed)] ∧
    finish.expirations = [(0, 10000000)] ∧ finish.device.driver.sent = [] ∧
    finish.manager.executed = [] ∧ finish.manager.reads = 2 ∧ ¬ Agrees finish := by
  refine ⟨_, _,
    .cons (.interrupt _ atTenMs atTenMs _
      (.interrupt _ 1 atTenMs atTenMs _ rfl (by decide) le_rfl rfl)) <|
    .cons (.manager _ _ _ (.read _ .failed rfl rfl)) <|
    .cons (.manager _ _ _ (.read _ .failed rfl rfl)) <|
    .nil _, rfl, by decide, by decide, rfl, rfl, fun hagrees => ?_⟩
  exact absurd hagrees.reads (by decide)

end RosRtems.TimeManager
