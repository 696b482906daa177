import RosRtems.Executor.RtExecutor

/-!
# Destroying the executor

The destructor first stops the tasks, one after another, and then stops the channels
and closes the device, if the executor still holds its descriptor.  Interrupts come at
any moment.  Whether the program is left clean depends on what the executor has
installed by then, and that on its whole history.
-/

namespace RosRtems.Shutdown

open RosRtems.TimerDriver RosRtems.DeviceClients RosRtems.RtSubscription
  RosRtems.RtExecutor RosRtems.Runs

variable {Message : Type*}

/-! ## The life of the executor -/

inductive UseLabel
  | registerRtTimer (periodMs : UInt32)
  | registerRtSubscription (subscription : Option ℕ)
  | spinRound (attempt : Option (ℕ × StatusCode)) (now : ℤ)
  | interrupt (now armNow : ℤ)

/-- The program when the executor has been constructed. -/
def constructed (subscriptions : ℕ → Subscription Message) : World Message where
  executor := rtExecutor
  driver := rtssInit
  tasks := ⟨0, []⟩
  subscriptions := subscriptions

inductive UseStep (outcome : ℕ → StartOutcome) (tps : Interval) :
    World Message → UseLabel → World Message → Prop
  | registerRtTimer (w : World Message) (periodMs : UInt32) :
      UseStep outcome tps w (.registerRtTimer periodMs)
        { w with executor := (registerRtTimer tps periodMs w.executor).2 }
  | registerRtSubscription (w : World Message) (subscription : Option ℕ) :
      UseStep outcome tps w (.registerRtSubscription subscription)
        (registerRtSubscription outcome subscription w).2
  | spinRound (w : World Message) (attempt : Option (ℕ × StatusCode)) (now : ℤ) :
      UseStep outcome tps w (.spinRound attempt now) (spinRound outcome tps attempt now w)
  | interrupt (w : World Message) (fuel : ℕ) (now armNow : ℤ) (after : Driver)
      (hinstalled : w.driver.isrInstalled = true)
      (hisr : ptIsr fuel now armNow w.driver = some after) :
      UseStep outcome tps w (.interrupt now armNow) { w with driver := after }

/-! ## The destructor -/

/-- What `teardown_timer_driver` has still to do: the `STOP` calls, the turns of the
loop in `rtss_close`, and the rest of it. -/
inductive TeardownAction
  | stopChannel (channel : ℤ)
  | closeVisit (i : Channel)
  | closeFinish
  deriving DecidableEq

def teardownActions (executor : Executor) : List TeardownAction :=
  if executor.devFd < 0 then []
  else
    executor.timerRegs.map (fun reg => .stopChannel reg.channel) ++
      (List.finRange rtssTimerMaxChannels).map .closeVisit ++ [.closeFinish]

def teardown (tps : Interval) (now : ℤ) (w : World Message) :
    TeardownAction → World Message
  | .stopChannel channel =>
      { w with driver := (ioctl tps now (.stop (some ⟨channel, 0⟩)) w.driver).2 }
  | .closeVisit i => { w with driver := closeVisit w.driver i }
  | .closeFinish =>
      { w with
        driver := closeFinish w.driver
        executor := { w.executor with devFd := -1 } }

/-- Where the destructor is: the tasks it has still to stop, or what is left of the
teardown. -/
inductive Phase
  | stopping (tasks : List CallbackTask)
  | tearingDown (actions : List TeardownAction)

structure Destruction (Message : Type*) where
  world : World Message
  phase : Phase

inductive DestroyLabel
  | stopTask
  | stopped
  | teardown (now : ℤ)
  | interrupt (now armNow : ℤ)

inductive DestroyStep (tps : Interval) :
    Destruction Message → DestroyLabel → Destruction Message → Prop
  | stopTask (w : World Message) (task : CallbackTask) (tasks : List CallbackTask) :
      DestroyStep tps ⟨w, .stopping (task :: tasks)⟩ .stopTask
        ⟨{ w with tasks := (task.stop w.tasks).2 }, .stopping tasks⟩
  | stopped (w : World Message) :
      DestroyStep tps ⟨w, .stopping []⟩ .stopped
        ⟨w, .tearingDown (teardownActions w.executor)⟩
  | teardown (w : World Message) (now : ℤ) (action : TeardownAction)
      (actions : List TeardownAction) :
      DestroyStep tps ⟨w, .tearingDown (action :: actions)⟩ (.teardown now)
        ⟨teardown tps now w action, .tearingDown actions⟩
  | interrupt (w : World Message) (phase : Phase) (fuel : ℕ) (now armNow : ℤ)
      (after : Driver) (hinstalled : w.driver.isrInstalled = true)
      (hisr : ptIsr fuel now armNow w.driver = some after) :
      DestroyStep tps ⟨w, phase⟩ (.interrupt now armNow)
        ⟨{ w with driver := after }, phase⟩

/-- `~RTExecutor` is entered. -/
def destroying (w : World Message) : Destruction Message :=
  ⟨w, .stopping w.executor.allTasks⟩

/-! ## Being clean -/

/-- No active channel targets a task that was deleted. -/
def NoDanglingTarget (s : Destruction Message) : Prop :=
  ∀ i, (s.world.driver.channels i).active = true →
    (s.world.driver.channels i).targetTask ∉ s.world.tasks.deleted

/-- A hook of the subscription sends the event to this task. -/
def RefersTo (sub : Subscription Message) (id : TaskId) : Prop :=
  id ∈ sub.onNewMessageHooks ∨
    ∃ inner, sub.intraProcess = some inner ∧ inner.directNotifyCallback = some id

/-- What the executor has installed outside itself is gone.  Nobody else sets targets,
so a channel that targets no task of the executor has none.  `lives` says which
subscriptions outlive the executor. -/
structure ShutDown (lives : ℕ → Prop) (w : World Message) : Prop where
  closed : w.driver.opened = false
  channels : ∀ i, (w.driver.channels i).active = false ∧
    (w.driver.channels i).targetTask = rtemsIdNone
  hooks : ∀ sub, lives sub → ∀ id ∈ w.tasks.deleted, ¬ RefersTo (w.subscriptions sub) id

/-- Before the destruction no channel is active, the executor holds the descriptor of
the device if it is open, and the registered subscriptions go with the executor. -/
structure ReadyToDestroy (lives : ℕ → Prop) (w : World Message) : Prop where
  idle : ∀ i, (w.driver.channels i).active = false
  held : w.driver.opened = true → 0 ≤ w.executor.devFd
  released : ∀ reg ∈ w.executor.subRegs, ¬ lives reg.subscription

/-! ## What the executor has installed -/

/-- The channels of a closed device are clear, an active channel targets the running
task of a timer registration, and the hooks are those of the subscription
registrations. -/
structure Installed (w : World Message) : Prop where
  idle : w.driver.opened = false → ∀ i, (w.driver.channels i).active = false ∧
    (w.driver.channels i).targetTask = rtemsIdNone
  targeted : ∀ i, (w.driver.channels i).active = true →
    ∃ reg ∈ w.executor.timerRegs, reg.task.running = true ∧
      (w.driver.channels i).targetTask = reg.task.taskId
  hooked : ∀ reg ∈ w.executor.subRegs, reg.task.running = true ∧
    reg.task.taskId ∈ (w.subscriptions reg.subscription).onNewMessageHooks
  foreign : ∀ sub id, RefersTo (w.subscriptions sub) id →
    ∃ reg ∈ w.executor.subRegs, reg.subscription = sub

section Steps

variable {outcome : ℕ → StartOutcome} {tps : Interval} {w w' : World Message}

theorem installed_interrupt {fuel : ℕ} {now armNow : ℤ} {after : Driver}
    (hw : Installed w) (hisr : ptIsr fuel now armNow w.driver = some after) :
    Installed { w with driver := after } := by
  obtain ⟨hopened, hchannels⟩ := ptIsr_configuration hisr
  refine ⟨fun hclosed i => ?_, fun i hactive => ?_, hw.hooked, hw.foreign⟩
  · have hidle := hw.idle (hopened.symm.trans hclosed) i
    exact ⟨(hchannels i).1.trans hidle.1, (hchannels i).2.trans hidle.2⟩
  · obtain ⟨reg, hreg, hrunning, htarget⟩ := hw.targeted i ((hchannels i).1.symm.trans hactive)
    exact ⟨reg, hreg, hrunning, (hchannels i).2.trans htarget⟩

theorem installed_registerRtTimer (hw : Installed w) (periodMs : UInt32) :
    Installed { w with executor := (registerRtTimer tps periodMs w.executor).2 } := by
  rw [registerRtTimer]
  split
  · exact hw
  · refine ⟨hw.idle, fun i hactive => ?_, hw.hooked, hw.foreign⟩
    obtain ⟨reg, hreg, hrunning, htarget⟩ := hw.targeted i hactive
    exact ⟨reg, List.mem_append_left _ hreg, hrunning, htarget⟩

theorem installed_registerRtSubscription (hw : Installed w) (subscription : Option ℕ) :
    Installed (registerRtSubscription outcome subscription w).2 := by
  cases subscription with
  | none => exact hw
  | some sub =>
      rw [registerRtSubscription]
      split
      · exact ⟨hw.idle, hw.targeted, hw.hooked, hw.foreign⟩
      · rename_i task tasks hstart
        refine ⟨hw.idle, hw.targeted, fun reg hreg => ?_, fun other id hrefers => ?_⟩
        · rcases List.mem_append.mp hreg with hold | hnew
          · obtain ⟨hrunning, hhook⟩ := hw.hooked reg hold
            refine ⟨hrunning, ?_⟩
            by_cases hsame : reg.subscription = sub
            · subst hsame
              simpa [installHooks] using Or.inr hhook
            · simpa [hsame] using hhook
          · obtain rfl := List.mem_singleton.mp hnew
            exact ⟨running_of_start hstart, by simp [installHooks]⟩
        · by_cases hsame : other = sub
          · exact ⟨⟨sub, task⟩, by simp, hsame.symm⟩
          · simp only [Function.update_of_ne hsame] at hrefers
            obtain ⟨reg, hreg, hsub⟩ := hw.foreign other id hrefers
            exact ⟨reg, List.mem_append_left _ hreg, hsub⟩

theorem installed_startAllTasks (hw : Installed w) :
    Installed (startAllTasks outcome w) := by
  refine ⟨hw.idle, fun i hactive => ?_, hw.hooked, hw.foreign⟩
  obtain ⟨reg, hreg, hrunning, htarget⟩ := hw.targeted i hactive
  obtain ⟨kept, hkept, htask⟩ := startTimerTasks_running hreg hrunning w.tasks
  exact ⟨kept, hkept, by rwa [htask], by rwa [htask]⟩

theorem installed_setupTimerDriver (hw : Installed w)
    (attempt : Option (ℕ × StatusCode)) (now : ℤ) :
    Installed (setupTimerDriver outcome tps attempt now w).2 := by
  rw [setupTimerDriver]
  split
  · exact hw
  · rcases openDevice_cases attempt w.driver with ⟨hfd, hsame⟩ |
        ⟨hfd, hclosed, hopened, hchannels⟩
    · simp only [if_pos hfd, hsame]
      exact ⟨hw.idle, hw.targeted, hw.hooked, hw.foreign⟩
    · simp only [if_neg (not_lt.mpr hfd)]
      have hmode : ioctl tps now (.setMode .event) (openDevice attempt w.driver).2 =
          (true, (openDevice attempt w.driver).2) := rfl
      simp only [hmode]
      refine ⟨fun hstill => ?_, fun i hactive => ?_, hw.hooked, hw.foreign⟩
      · have hopen := (setupChannels_opened now w.executor.timerRegs w.tasks
          (openDevice attempt w.driver).2).symm.trans hstill
        simp [hopened] at hopen
      · rcases setupChannels_target now w.executor.timerRegs w.tasks
          (openDevice attempt w.driver).2 i with htarget | ⟨hsame, -⟩
        · exact htarget
        · have hbefore := hsame.symm.trans hactive
          rw [hchannels, (hw.idle hclosed i).1] at hbefore
          cases hbefore

theorem installed_step (w : World Message) (label : UseLabel) (w' : World Message)
    (hw : Installed w) (hstep : UseStep outcome tps w label w') : Installed w' := by
  cases hstep with
  | registerRtTimer periodMs => exact installed_registerRtTimer hw periodMs
  | registerRtSubscription subscription =>
      exact installed_registerRtSubscription hw subscription
  | spinRound attempt now =>
      exact installed_setupTimerDriver (installed_startAllTasks hw) attempt now
  | interrupt fuel now armNow after _ hisr => exact installed_interrupt hw hisr

theorem installed_constructed {subscriptions : ℕ → Subscription Message}
    (hfresh : ∀ sub id, ¬ RefersTo (subscriptions sub) id) :
    Installed (constructed subscriptions) where
  idle := fun _ _ => ⟨rfl, rfl⟩
  targeted := by simp [constructed, rtssInit]
  hooked := by simp [constructed, rtExecutor]
  foreign := fun sub id hrefers => absurd hrefers (hfresh sub id)

end Steps

/-! ## The destruction, step by step -/

section Destroying

variable {tps : Interval} {s s' : Destruction Message} {label : DestroyLabel}

/-- A task that is running is stopped sooner or later, and then it is deleted. -/
def Doomed (task : CallbackTask) (s : Destruction Message) : Prop :=
  task.taskId ∈ s.world.tasks.deleted ∨ ∃ tasks, s.phase = .stopping tasks ∧ task ∈ tasks

theorem doomed_step {task : CallbackTask} (hrunning : task.running = true)
    (hs : Doomed task s) (hstep : DestroyStep tps s label s') : Doomed task s' := by
  cases hstep with
  | stopTask w head tasks =>
      rcases hs with hdeleted | ⟨_, ⟨⟩, hmem⟩
      · exact .inl (deleted_stop head w.tasks hdeleted)
      · rcases List.mem_cons.mp hmem with rfl | hlater
        · left
          simp [stop_of_running hrunning]
        · exact .inr ⟨tasks, rfl, hlater⟩
  | stopped w =>
      rcases hs with hdeleted | ⟨_, ⟨⟩, hmem⟩
      · exact .inl hdeleted
      · cases hmem
  | teardown w now action actions =>
      rcases hs with hdeleted | ⟨_, hphase, _⟩
      · left
        cases action <;> exact hdeleted
      · cases hphase
  | interrupt w phase fuel now armNow after _ _ => exact hs

/-- A channel that is still active while the task it targets is to be stopped. -/
structure Exposed (i : Channel) (task : CallbackTask) (s : Destruction Message) : Prop where
  active : (s.world.driver.channels i).active = true
  target : (s.world.driver.channels i).targetTask = task.taskId
  pending : ∃ tasks, s.phase = .stopping tasks ∧ task ∈ tasks

/-- The channel stays exposed until its task is gone. -/
theorem exposed_step {i : Channel} {task : CallbackTask} (hrunning : task.running = true)
    (hs : Exposed i task s) (hstep : DestroyStep tps s label s')
    (hnone : NoDanglingTarget s') : Exposed i task s' := by
  obtain ⟨hactive, htarget, pending, hphase, hmem⟩ := hs
  cases hstep with
  | stopTask w head tasks =>
      cases hphase
      refine ⟨hactive, htarget, tasks, rfl, ?_⟩
      rcases List.mem_cons.mp hmem with rfl | hlater
      · have hkept := hnone i hactive
        simp only [stop_of_running hrunning] at hkept
        exact absurd (List.mem_append_right _ (List.mem_singleton.mpr htarget)) hkept
      · exact hlater
  | stopped w =>
      cases hphase
      cases hmem
  | teardown w now action actions => cases hphase
  | interrupt w phase fuel now armNow after _ hisr =>
      have hchannel := (ptIsr_configuration hisr).2 i
      exact ⟨hchannel.1.trans hactive, hchannel.2.trans htarget, pending, hphase, hmem⟩

/-- A device whose descriptor was lost is left open. -/
structure LeftOpen (s : Destruction Message) : Prop where
  opened : s.world.driver.opened = true
  lost : s.world.executor.devFd < 0
  phase : (∃ tasks, s.phase = .stopping tasks) ∨ s.phase = .tearingDown []

theorem leftOpen_step (hs : LeftOpen s) (hstep : DestroyStep tps s label s') :
    LeftOpen s' := by
  obtain ⟨hopened, hlost, hphase⟩ := hs
  cases hstep with
  | stopTask w head tasks => exact ⟨hopened, hlost, .inl ⟨tasks, rfl⟩⟩
  | stopped w => exact ⟨hopened, hlost, .inr (by rw [teardownActions, if_pos hlost])⟩
  | teardown w now action actions => rcases hphase with ⟨_, ⟨⟩⟩ | hphase; cases hphase
  | interrupt w phase fuel now armNow after _ hisr =>
      exact ⟨(ptIsr_configuration hisr).1.trans hopened, hlost, hphase⟩

/-- Nothing is active any more, and the teardown that is still to come, or the state
the device is in, clears the rest. -/
structure Clearing (s : Destruction Message) : Prop where
  idle : ∀ i, (s.world.driver.channels i).active = false
  stopping : ∀ tasks, s.phase = .stopping tasks →
    0 ≤ s.world.executor.devFd ∨ (s.world.driver.opened = false ∧
      ∀ i, (s.world.driver.channels i).targetTask = rtemsIdNone)
  closing : ∀ actions, s.phase = .tearingDown actions →
    (s.world.driver.opened = false ∨ .closeFinish ∈ actions) ∧
      ∀ i, (s.world.driver.channels i).targetTask = rtemsIdNone ∨ .closeVisit i ∈ actions

theorem teardown_inactive (w : World Message) (now : ℤ) (action : TeardownAction)
    {i : Channel} (hidle : (w.driver.channels i).active = false) :
    ((teardown tps now w action).driver.channels i).active = false := by
  cases action with
  | stopChannel channel => exact (ioctl_stop_target ..).2 hidle
  | closeVisit j =>
      simp only [teardown, closeVisit, setChannel_channels]
      split
      · rfl
      · exact hidle
  | closeFinish => exact hidle

/-- Each action leaves its own part of the device clear and undoes no other. -/
theorem teardown_opened (w : World Message) (now : ℤ) (action : TeardownAction)
    {actions : List TeardownAction}
    (hopened : w.driver.opened = false ∨ .closeFinish ∈ action :: actions) :
    (teardown tps now w action).driver.opened = false ∨ .closeFinish ∈ actions := by
  cases action with
  | stopChannel channel =>
      simp only [teardown, ioctl_opened]
      simpa using hopened
  | closeVisit j =>
      simp only [teardown, closeVisit, setChannel_opened]
      simpa using hopened
  | closeFinish => exact .inl rfl

theorem teardown_target (w : World Message) (now : ℤ) (action : TeardownAction)
    {actions : List TeardownAction} {i : Channel}
    (htarget : (w.driver.channels i).targetTask = rtemsIdNone ∨
      .closeVisit i ∈ action :: actions) :
    ((teardown tps now w action).driver.channels i).targetTask = rtemsIdNone ∨
      .closeVisit i ∈ actions := by
  cases action with
  | stopChannel channel =>
      simp only [teardown, ioctl_stop_target]
      simpa using htarget
  | closeVisit j =>
      simp only [teardown, closeVisit, setChannel_channels]
      split
      · exact .inl rfl
      · rename_i hij
        simpa [hij] using htarget
  | closeFinish => simpa [teardown, closeFinish, ptDisable] using htarget

theorem clearing_step (hs : Clearing s) (hstep : DestroyStep tps s label s') :
    Clearing s' := by
  obtain ⟨hidle, hstopping, hclosing⟩ := hs
  cases hstep with
  | stopTask w head tasks =>
      refine ⟨hidle, fun _ _ => hstopping _ rfl, fun _ hphase => ?_⟩
      cases hphase
  | stopped w =>
      refine ⟨hidle, fun _ hphase => ?_, fun actions hphase => ?_⟩
      · cases hphase
      · cases hphase
        rcases hstopping _ rfl with hheld | ⟨hclosed, htargets⟩
        · rw [teardownActions, if_neg (not_lt.mpr hheld)]
          exact ⟨.inr (by simp), fun i => .inr (by simp)⟩
        · exact ⟨.inl hclosed, fun i => .inl (htargets i)⟩
  | teardown w now action actions =>
      obtain ⟨hopened, htargets⟩ := hclosing _ rfl
      refine ⟨fun i => ?_, fun _ hphase => (nomatch hphase), fun rest hphase => ?_⟩
      · exact teardown_inactive w now action (hidle i)
      · cases hphase
        exact ⟨teardown_opened w now action hopened,
          fun i => teardown_target w now action (htargets i)⟩
  | interrupt w phase fuel now armNow after _ hisr =>
      obtain ⟨hopened, hchannels⟩ := ptIsr_configuration hisr
      refine ⟨fun i => (hchannels i).1.trans (hidle i), fun tasks hphase => ?_,
        fun actions hphase => ?_⟩
      · rcases hstopping tasks hphase with hheld | ⟨hclosed, htargets⟩
        · exact .inl hheld
        · exact .inr ⟨hopened.trans hclosed, fun i => (hchannels i).2.trans (htargets i)⟩
      · obtain ⟨hclosed, htargets⟩ := hclosing actions hphase
        exact ⟨hclosed.imp_left hopened.trans,
          fun i => (htargets i).imp_left (hchannels i).2.trans⟩

/-- The hooks stay as they were installed. -/
theorem subscriptions_step (hstep : DestroyStep tps s label s') :
    s'.world.subscriptions = s.world.subscriptions := by
  cases hstep with
  | teardown w now action actions => cases action <;> rfl
  | _ => rfl

theorem teardown_run (actions : List TeardownAction) (w : World Message) :
    ∃ trace finish, Run (DestroyStep tps) ⟨w, .tearingDown actions⟩ trace finish ∧
      finish.phase = .tearingDown [] := by
  induction actions generalizing w with
  | nil => exact ⟨[], _, .nil _, rfl⟩
  | cons action actions ih =>
      obtain ⟨trace, finish, hrun, hdone⟩ := ih (teardown tps 0 w action)
      exact ⟨_, finish, .cons (.teardown w 0 action actions) hrun, hdone⟩

theorem stopping_run (tasks : List CallbackTask) (w : World Message) :
    ∃ trace finish, Run (DestroyStep tps) ⟨w, .stopping tasks⟩ trace finish ∧
      finish.phase = .tearingDown [] := by
  induction tasks generalizing w with
  | nil =>
      obtain ⟨trace, finish, hrun, hdone⟩ := teardown_run (teardownActions w.executor) w
      exact ⟨_, finish, .cons (.stopped w) hrun, hdone⟩
  | cons task tasks ih =>
      obtain ⟨trace, finish, hrun, hdone⟩ := ih { w with tasks := (task.stop w.tasks).2 }
      exact ⟨_, finish, .cons (.stopTask w task tasks) hrun, hdone⟩

/-- The destructor gets to its end. -/
theorem destroying_run (tps : Interval) (w : World Message) :
    ∃ trace finish, Run (DestroyStep tps) (destroying w) trace finish ∧
      finish.phase = .tearingDown [] :=
  stopping_run w.executor.allTasks w

end Destroying

/-! ## When the destruction leaves the program clean -/

section Result

variable {outcome : ℕ → StartOutcome} {tps : Interval} {w : World Message}
variable {trace : List (Move (Destruction Message) DestroyLabel)}
variable {finish : Destruction Message}

theorem subscriptions_kept (hrun : Run (DestroyStep tps) (destroying w) trace finish) :
    finish.world.subscriptions = w.subscriptions := by
  let kept : Destruction Message → Prop := fun s => s.world.subscriptions = w.subscriptions
  have hkept : kept finish :=
    hrun.always (fun _ _ _ hs hstep => (subscriptions_step hstep).trans hs) rfl
  exact hkept

theorem idle_of_noDanglingTarget (hw : Installed w)
    (hrun : Run (DestroyStep tps) (destroying w) trace finish)
    (hdone : finish.phase = .tearingDown [])
    (hnone : Throughout NoDanglingTarget (destroying w) trace) (i : Channel) :
    (w.driver.channels i).active = false := by
  by_contra hactive
  obtain ⟨reg, hreg, hrunning, htarget⟩ := hw.targeted i (Bool.eq_true_of_not_eq_false hactive)
  have hstart : Exposed i reg.task (destroying w) :=
    ⟨Bool.eq_true_of_not_eq_false hactive, htarget, _, rfl,
      List.mem_append_left _ (List.mem_map_of_mem hreg)⟩
  have hexposed : Exposed i reg.task finish :=
    hrun.invariant_of_throughout
      (fun _ _ _ hs hstep hsafe => exposed_step hrunning hs hstep hsafe) hstart hnone
  obtain ⟨tasks, hphase, -⟩ := hexposed.pending
  rw [hdone] at hphase
  cases hphase

theorem held_of_closed (hrun : Run (DestroyStep tps) (destroying w) trace finish)
    (hclosed : finish.world.driver.opened = false) (hopened : w.driver.opened = true) :
    0 ≤ w.executor.devFd := by
  by_contra hlost
  have hstart : LeftOpen (destroying w) :=
    ⟨hopened, not_le.mp hlost, .inl ⟨_, rfl⟩⟩
  have hleft : LeftOpen finish :=
    hrun.always (fun _ _ _ hs hstep => leftOpen_step hs hstep) hstart
  simp [hleft.opened] at hclosed

theorem released_of_unhooked {lives : ℕ → Prop} (hw : Installed w)
    (hrun : Run (DestroyStep tps) (destroying w) trace finish)
    (hdone : finish.phase = .tearingDown [])
    (hhooks : ∀ sub, lives sub → ∀ id ∈ finish.world.tasks.deleted,
      ¬ RefersTo (finish.world.subscriptions sub) id) {reg : SubReg}
    (hreg : reg ∈ w.executor.subRegs) : ¬ lives reg.subscription := by
  intro hlives
  obtain ⟨hrunning, hhook⟩ := hw.hooked reg hreg
  have hstart : Doomed reg.task (destroying w) :=
    .inr ⟨_, rfl, List.mem_append_right _ (List.mem_map_of_mem hreg)⟩
  have hdoomed : Doomed reg.task finish :=
    hrun.always (fun _ _ _ hs hstep => doomed_step hrunning hs hstep) hstart
  rcases hdoomed with hdeleted | ⟨tasks, hphase, -⟩
  · apply hhooks reg.subscription hlives _ hdeleted
    rw [subscriptions_kept hrun]
    exact .inl hhook
  · rw [hdone] at hphase
    cases hphase

theorem shutDown_of_ready {lives : ℕ → Prop} (hw : Installed w)
    (hready : ReadyToDestroy lives w)
    (hrun : Run (DestroyStep tps) (destroying w) trace finish)
    (hdone : finish.phase = .tearingDown []) :
    Throughout NoDanglingTarget (destroying w) trace ∧ ShutDown lives finish.world := by
  have hstart : Clearing (destroying w) := by
    refine ⟨hready.idle, fun tasks _ => ?_, fun _ hphase => nomatch hphase⟩
    cases hopened : w.driver.opened with
    | true => exact .inl (hready.held hopened)
    | false => exact .inr ⟨hopened, fun i => (hw.idle hopened i).2⟩
  have hclearing : ∀ (s : Destruction Message) (label : DestroyLabel)
      (s' : Destruction Message), Clearing s → True → DestroyStep tps s label s' →
      Clearing s' := fun _ _ _ hs _ hstep => clearing_step hs hstep
  constructor
  · apply hrun.throughout _ hclearing hstart fun _ _ => trivial
    intro s hs i hactive
    simp [hs.idle i] at hactive
  · have hfinish := hrun.invariant hclearing hstart fun _ _ => trivial
    obtain ⟨hclosed, htargets⟩ := hfinish.closing [] hdone
    refine ⟨by simpa using hclosed, fun i => ⟨hfinish.idle i, by simpa using htargets i⟩, ?_⟩
    intro sub hlives id _ hrefers
    rw [subscriptions_kept hrun] at hrefers
    obtain ⟨reg, hreg, hsub⟩ := hw.foreign sub id hrefers
    exact hready.released reg hreg (hsub ▸ hlives)

end Result

/-- Whatever was registered and however the rounds went, the destruction is clean
exactly when the program was ready for it. -/
theorem shutDown_iff_ready (outcome : ℕ → StartOutcome) (tps : Interval)
    (subscriptions : ℕ → Subscription Message)
    (hfresh : ∀ sub id, ¬ RefersTo (subscriptions sub) id) (lives : ℕ → Prop)
    (history : List (Move (World Message) UseLabel)) (before : World Message)
    (hhistory : Run (UseStep outcome tps) (constructed subscriptions) history before)
    (trace : List (Move (Destruction Message) DestroyLabel)) (finish : Destruction Message)
    (hrun : Run (DestroyStep tps) (destroying before) trace finish)
    (hdone : finish.phase = .tearingDown []) :
    (Throughout NoDanglingTarget (destroying before) trace ∧
      ShutDown lives finish.world) ↔ ReadyToDestroy lives before := by
  have hinstalled : Installed before :=
    hhistory.always (fun w label w' => installed_step w label w')
      (installed_constructed hfresh)
  constructor
  · rintro ⟨hnone, hshut⟩
    exact ⟨idle_of_noDanglingTarget hinstalled hrun hdone hnone,
      held_of_closed hrun hshut.closed,
      fun reg hreg => released_of_unhooked hinstalled hrun hdone hshut.hooks hreg⟩
  · intro hready
    exact shutDown_of_ready hinstalled hready hrun hdone

/-- Subscriptions without intra-process communication and without hooks. -/
def unhooked : ℕ → Subscription ℕ := fun _ =>
  { isSerialized := false
    canLoanMessages := false
    intraProcess := none
    reader := []
    readerDepth := 10
    onNewMessageHooks := [] }

theorem unhooked_fresh (sub : ℕ) (id : TaskId) : ¬ RefersTo (unhooked sub) id := by
  simp [RefersTo, unhooked]

/-- The device is opened in a round whose timer task cannot be created, and closed
again; the registered subscription goes with the executor. -/
theorem shutDown_after_failed_start : ∃ history before trace finish,
    Run (UseStep (fun n => if n < 2 then .createFails else .starts) 100)
      (constructed unhooked) history before ∧
    history.map Move.label = [.registerRtTimer 10, .spinRound (some (3, .successful)) 0,
      .registerRtSubscription (some 0)] ∧
    before.driver.opened = true ∧ before.executor.subRegs.length = 1 ∧
    Run (DestroyStep 100) (destroying before) trace finish ∧
    Throughout NoDanglingTarget (destroying before) trace ∧
    ShutDown (fun sub => sub = 1) finish.world := by
  have hhistory : ∃ history before,
      Run (UseStep (fun n => if n < 2 then .createFails else .starts) 100)
        (constructed unhooked) history before ∧
      history.map Move.label = [.registerRtTimer 10, .spinRound (some (3, .successful)) 0,
        .registerRtSubscription (some 0)] ∧
      before.driver.opened = true ∧ before.executor.subRegs.length = 1 ∧
      ReadyToDestroy (fun sub => sub = 1) before :=
    ⟨_, _,
      .cons (.registerRtTimer _ 10) <|
      .cons (.spinRound _ (some (3, .successful)) 0) <|
      .cons (.registerRtSubscription _ (some 0)) <|
      .nil _, rfl, rfl, rfl, by decide, by decide, by decide⟩
  obtain ⟨history, before, hhistory, hlabels, hopened, hlength, hready⟩ := hhistory
  obtain ⟨trace, finish, hrun, hdone⟩ := destroying_run 100 before
  have hclean := (shutDown_iff_ready _ 100 unhooked unhooked_fresh _ history before hhistory
    trace finish hrun hdone).mpr hready
  exact ⟨history, before, trace, finish, hhistory, hlabels, hopened, hlength, hrun, hclean⟩

/-- Three histories after which no destruction is clean: one round with a timer, a
second round, which loses the descriptor, and a subscription that lives on. -/
theorem unclean_shutdowns :
    (∃ history before, Run (UseStep (fun _ => .starts) 100) (constructed unhooked)
        history before ∧
      history.map Move.label = [.registerRtTimer 10, .spinRound (some (3, .successful)) 0] ∧
      ∀ trace finish, Run (DestroyStep 100) (destroying before) trace finish →
        finish.phase = .tearingDown [] →
        ¬ Throughout NoDanglingTarget (destroying before) trace) ∧
    (∃ history before, Run (UseStep (fun _ => .starts) 100) (constructed unhooked)
        history before ∧
      history.map Move.label = [.registerRtTimer 10, .spinRound (some (3, .successful)) 0,
        .spinRound (some (4, .successful)) 1] ∧
      ∀ trace finish, Run (DestroyStep 100) (destroying before) trace finish →
        finish.phase = .tearingDown [] → finish.world.driver.opened = true) ∧
    ∃ history before, Run (UseStep (fun _ => .starts) 100) (constructed unhooked)
        history before ∧
      history.map Move.label = [.registerRtSubscription (some 0)] ∧
      ∀ trace finish, Run (DestroyStep 100) (destroying before) trace finish →
        finish.phase = .tearingDown [] →
        ¬ ShutDown (fun sub => sub = 0) finish.world := by
  refine ⟨?_, ?_, ?_⟩
  · have hhistory : ∃ history before,
        Run (UseStep (fun _ => .starts) 100) (constructed unhooked) history before ∧
        history.map Move.label =
          [.registerRtTimer 10, .spinRound (some (3, .successful)) 0] ∧
        (before.driver.channels 0).active = true :=
      ⟨_, _,
        .cons (.registerRtTimer _ 10) <|
        .cons (.spinRound _ (some (3, .successful)) 0) <|
        .nil _, rfl, by decide⟩
    obtain ⟨history, before, hhistory, hlabels, hactive⟩ := hhistory
    refine ⟨history, before, hhistory, hlabels, fun trace finish hrun hdone hnone => ?_⟩
    have hinstalled := hhistory.always (fun w label w' => installed_step w label w')
      (installed_constructed unhooked_fresh)
    have hidle := idle_of_noDanglingTarget hinstalled hrun hdone hnone 0
    simp [hactive] at hidle
  · have hhistory : ∃ history before,
        Run (UseStep (fun _ => .starts) 100) (constructed unhooked) history before ∧
        history.map Move.label =
          [.registerRtTimer 10, .spinRound (some (3, .successful)) 0,
            .spinRound (some (4, .successful)) 1] ∧
        before.driver.opened = true ∧ before.executor.devFd = -1 :=
      ⟨_, _,
        .cons (.registerRtTimer _ 10) <|
        .cons (.spinRound _ (some (3, .successful)) 0) <|
        .cons (.spinRound _ (some (4, .successful)) 1) <|
        .nil _, rfl, by decide, by decide⟩
    obtain ⟨history, before, hhistory, hlabels, hopened, hlost⟩ := hhistory
    refine ⟨history, before, hhistory, hlabels, fun trace finish hrun _ => ?_⟩
    by_contra hclosed
    have hheld := held_of_closed hrun (Bool.eq_false_of_not_eq_true hclosed) hopened
    simp [hlost] at hheld
  · have hhistory : ∃ history before,
        Run (UseStep (fun _ => .starts) 100) (constructed unhooked) history before ∧
        history.map Move.label = [.registerRtSubscription (some 0)] ∧
        ∃ reg ∈ before.executor.subRegs, reg.subscription = 0 :=
      ⟨_, _, .cons (.registerRtSubscription _ (some 0)) (.nil _), rfl,
        _, List.mem_singleton_self _, rfl⟩
    obtain ⟨history, before, hhistory, hlabels, reg, hreg, hsub⟩ := hhistory
    refine ⟨history, before, hhistory, hlabels, fun trace finish hrun hdone hshut => ?_⟩
    have hinstalled := hhistory.always (fun w label w' => installed_step w label w')
      (installed_constructed unhooked_fresh)
    exact released_of_unhooked hinstalled hrun hdone hshut.hooks hreg hsub

end RosRtems.Shutdown
