import RosRtems.Driver.DriverRuns

/-!
# The programs that configure the device

`TimeManager::start` and `RTExecutor::setup_timer_driver` open the device and then
configure and start one channel after another.  Both are sequences of control
operations, so a run of either is a run of the driver.
-/

namespace RosRtems.DeviceClients

open RosRtems.TimerDriver RosRtems.Runs RosRtems.DriverRuns

/-- `ioctl` on the device: it reports failure where the driver refuses. -/
def ioctl (tps : Interval) (now : ℤ) (cmd : Command) (d : Driver) : Bool × Driver :=
  let outcome := rtssControl d tps now now cmd
  (decide (outcome.status = .successful), outcome.driver)

section Clients

variable (tps : Interval) (now : ℤ)

/-- One turn of the channel loop of `TimeManager::start`. -/
def timeManagerChannel (d : Driver) (cfg : TimerConfig) : Driver :=
  match ioctl tps now (.setPeriod (some cfg)) d with
  | (false, d) => d
  | (true, d) => (ioctl tps now (.start (some cfg)) d).2

/-- The calls of `TimeManager::start` on the opened device. -/
def timeManagerStart (mode : TriggerMode) (timers : List TimerConfig) (d : Driver) :
    Driver :=
  timers.foldl (timeManagerChannel tps now) (ioctl tps now (.setMode mode) d).2

/-- A timer registration as `setup_timer_driver` finds it once the `CallbackTask`
runs: `setTaskReaches` is false where the `SET_TASK` call fails. -/
structure TimerChannel where
  channel : ℤ
  periodTicks : Interval
  taskId : RtemsId
  setTaskReaches : Bool

/-- One turn of the channel loop of `setup_timer_driver`, past the start of the
task: a failed `SET_TASK` is reported and followed by `START` all the same. -/
def setupTimerChannel (d : Driver) (reg : TimerChannel) : Driver :=
  let cfg : TimerConfig := ⟨reg.channel, reg.periodTicks⟩
  match ioctl tps now (.setPeriod (some cfg)) d with
  | (false, d) => d
  | (true, d) =>
      let targeted :=
        if reg.setTaskReaches then
          (ioctl tps now (.setTask (some ⟨reg.channel, reg.taskId⟩)) d).2
        else d
      (ioctl tps now (.start (some cfg)) targeted).2

end Clients

/-! ## What the calls change -/

section Effects

variable (tps : Interval) (now : ℤ) (d : Driver)

theorem ioctl_opened (cmd : Command) : (ioctl tps now cmd d).2.opened = d.opened := by
  have heffect := rtssControl_effect d tps now now cmd
  simp only [ioctl]
  generalize (rtssControl d tps now now cmd).driver = after at heffect
  cases heffect <;> simp

theorem setupTimerChannel_opened (reg : TimerChannel) :
    (setupTimerChannel tps now d reg).opened = d.opened := by
  have hperiod := ioctl_opened tps now d (.setPeriod (some ⟨reg.channel, reg.periodTicks⟩))
  simp only [setupTimerChannel]
  split
  · rename_i heq
    rwa [heq] at hperiod
  · rename_i heq
    rw [heq] at hperiod
    rw [ioctl_opened]
    split
    · rwa [ioctl_opened]
    · exact hperiod

theorem ioctl_setPeriod_target (cfg : Option TimerConfig) (i : Channel) :
    ((ioctl tps now (.setPeriod cfg) d).2.channels i).active = (d.channels i).active ∧
      ((ioctl tps now (.setPeriod cfg) d).2.channels i).targetTask =
        (d.channels i).targetTask := by
  have heffect := rtssControl_effect d tps now now (.setPeriod cfg)
  simp only [ioctl]
  generalize (rtssControl d tps now now (.setPeriod cfg)).driver = after at heffect
  cases heffect with
  | unchanged _ => exact ⟨rfl, rfl⟩
  | setPeriod cfg j _ _ =>
      rw [setChannel_channels]
      split
      · rename_i hij
        subst hij
        exact ⟨rfl, rfl⟩
      · exact ⟨rfl, rfl⟩

theorem ioctl_setTask_accepted (cfg : TimerTaskConfig) {j : Channel}
    (hchannel : channelOf cfg.channel = some j) :
    (ioctl tps now (.setTask (some cfg)) d).2 =
      d.setChannel j { d.channels j with targetTask := cfg.targetTask } := by
  simp [ioctl, rtssControl, controlSetTask, withChannel, hchannel, accept]

theorem ioctl_stop_target (cfg : Option TimerConfig) (i : Channel) :
    ((ioctl tps now (.stop cfg) d).2.channels i).targetTask = (d.channels i).targetTask ∧
      ((d.channels i).active = false →
        ((ioctl tps now (.stop cfg) d).2.channels i).active = false) := by
  have heffect := rtssControl_effect d tps now now (.stop cfg)
  simp only [ioctl]
  generalize (rtssControl d tps now now (.stop cfg)).driver = after at heffect
  cases heffect with
  | unchanged _ => exact ⟨rfl, id⟩
  | stop cfg j _ =>
      rw [rearmPt_channels, setChannel_channels]
      split
      · rename_i hij
        subst hij
        exact ⟨rfl, fun _ => rfl⟩
      · exact ⟨rfl, id⟩

theorem ioctl_start_target (cfg : TimerConfig) {j : Channel}
    (hchannel : channelOf cfg.channel = some j) (i : Channel) :
    ((ioctl tps now (.start (some cfg)) d).2.channels i).targetTask =
        (d.channels i).targetTask ∧
      (i ≠ j → (ioctl tps now (.start (some cfg)) d).2.channels i = d.channels i) := by
  simp only [ioctl, rtssControl, controlStart, withChannel, hchannel]
  split
  · exact ⟨rfl, fun _ => rfl⟩
  · simp only [accept, rearmPt_channels, setChannel_channels]
    split
    · rename_i hij
      exact ⟨by rw [hij], fun hne => absurd hij hne⟩
    · exact ⟨rfl, fun _ => rfl⟩

theorem setupTimerChannel_unmatched (reg : TimerChannel)
    (hchannel : channelOf reg.channel = none) : setupTimerChannel tps now d reg = d := by
  have hrejected : ioctl tps now (.setPeriod (some ⟨reg.channel, reg.periodTicks⟩)) d =
      (false, d) := by
    simp [ioctl, rtssControl, controlSetPeriod, withChannel, hchannel, reject]
  simp only [setupTimerChannel, hrejected]

/-- A channel that the loop body sets up targets the task of the registration; any
other stays as it was. -/
theorem setupTimerChannel_target (reg : TimerChannel) (hreaches : reg.setTaskReaches = true)
    (i : Channel) :
    ((setupTimerChannel tps now d reg).channels i).targetTask = reg.taskId ∨
      ((setupTimerChannel tps now d reg).channels i).active = (d.channels i).active ∧
      ((setupTimerChannel tps now d reg).channels i).targetTask =
        (d.channels i).targetTask := by
  cases hchannel : channelOf reg.channel with
  | none =>
      rw [setupTimerChannel_unmatched tps now d reg hchannel]
      exact .inr ⟨rfl, rfl⟩
  | some j =>
      have hperiod :=
        ioctl_setPeriod_target tps now d (some ⟨reg.channel, reg.periodTicks⟩) i
      simp only [setupTimerChannel, hreaches, if_true]
      split
      · rename_i heq
        rw [heq] at hperiod
        exact .inr hperiod
      · rename_i after heq
        rw [heq] at hperiod
        rw [ioctl_setTask_accepted tps now after _ hchannel]
        have hstart := ioctl_start_target tps now
          (after.setChannel j { after.channels j with targetTask := reg.taskId })
          ⟨reg.channel, reg.periodTicks⟩ hchannel i
        by_cases hij : i = j
        · left
          rw [hstart.1, hij, setChannel_same]
        · right
          rw [hstart.2 hij, setChannel_other _ _ hij]
          exact hperiod

/-- The loop body reaches no channel but the one its registration names. -/
theorem setupTimerChannel_other (reg : TimerChannel) {i : Channel}
    (hother : channelOf reg.channel ≠ some i) :
    (setupTimerChannel tps now d reg).channels i = d.channels i := by
  cases hchannel : channelOf reg.channel with
  | none => rw [setupTimerChannel_unmatched tps now d reg hchannel]
  | some j =>
      have hne : i ≠ j := fun hij => hother (hij ▸ hchannel)
      have hstart : ∀ d : Driver,
          (ioctl tps now (.start (some ⟨reg.channel, reg.periodTicks⟩)) d).2.channels i =
            d.channels i :=
        fun d => (ioctl_start_target tps now d ⟨reg.channel, reg.periodTicks⟩ hchannel i).2 hne
      have htask : ∀ d : Driver,
          (ioctl tps now (.setTask (some ⟨reg.channel, reg.taskId⟩)) d).2.channels i =
            d.channels i := by
        intro d
        rw [ioctl_setTask_accepted tps now d _ hchannel, setChannel_other _ _ hne]
      simp only [setupTimerChannel]
      split
      · rename_i heq
        simp only [ioctl, rtssControl, controlSetPeriod, withChannel, hchannel] at heq
        split at heq <;> simp [reject, accept] at heq
        rw [heq]
      · rename_i heq
        simp only [ioctl, rtssControl, controlSetPeriod, withChannel, hchannel] at heq
        split at heq <;> simp [reject, accept] at heq
        rw [hstart]
        split
        · rw [htask, ← heq, setChannel_other _ _ hne]
        · rw [← heq, setChannel_other _ _ hne]

/-- The channel that the registration names gets the period, and it is started unless
that period is zero. -/
theorem setupTimerChannel_own (htps : tps ≠ 0) (reg : TimerChannel)
    (hreaches : reg.setTaskReaches = true) {i : Channel}
    (hchannel : channelOf reg.channel = some i) :
    ((setupTimerChannel tps now d reg).channels i).periodNs =
        ticksToNs reg.periodTicks tps ∧
      ((setupTimerChannel tps now d reg).channels i).active =
        ((d.channels i).active || ticksToNs reg.periodTicks tps != 0) := by
  have hperiod : ioctl tps now (.setPeriod (some ⟨reg.channel, reg.periodTicks⟩)) d =
      (true, d.setChannel i
        { d.channels i with periodNs := ticksToNs reg.periodTicks tps }) := by
    simp [ioctl, rtssControl, controlSetPeriod, withChannel, hchannel, htps, accept]
  simp only [setupTimerChannel, hperiod, hreaches, if_true]
  rw [ioctl_setTask_accepted tps now _ _ hchannel]
  simp only [ioctl, rtssControl, controlStart, withChannel, hchannel]
  split
  · rename_i hzero
    simp only [setChannel_same] at hzero
    simp [reject, hzero]
  · rename_i hnonzero
    simp only [setChannel_same] at hnonzero
    simp [accept, rearmPt_channels, hnonzero]

end Effects

/-! ## Clients are runs of the driver -/

/-- The run from `s` consists of control operations that all read the clock value
the system already has. -/
def ControlRun (s : System) (d : Driver) : Prop :=
  ∃ trace, Run Step s trace { s with driver := d }

section ControlRuns

variable {s : System} (tps : Interval)

theorem ControlRun.refl : ControlRun s s.driver := ⟨[], .nil s⟩

theorem ControlRun.ioctl {d : Driver} (hidle : s.closing = none)
    (hrun : ControlRun s d) (cmd : Command) :
    ControlRun s (ioctl tps s.clock.ns cmd d).2 := by
  obtain ⟨trace, hrun⟩ := hrun
  have hstep := Step.control { s with driver := d } cmd tps s.clock s.clock hidle
    le_rfl le_rfl
  exact ⟨_, hrun.snoc hstep⟩

theorem ControlRun.timeManagerChannel {d : Driver} (hidle : s.closing = none)
    (hrun : ControlRun s d) (cfg : TimerConfig) :
    ControlRun s (timeManagerChannel tps s.clock.ns d cfg) := by
  have hperiod := hrun.ioctl tps hidle (.setPeriod (some cfg))
  rw [DeviceClients.timeManagerChannel]
  split
  · rename_i heq
    rwa [heq] at hperiod
  · rename_i heq
    rw [heq] at hperiod
    exact hperiod.ioctl tps hidle _

theorem ControlRun.setupTimerChannel {d : Driver} (hidle : s.closing = none)
    (hrun : ControlRun s d) (reg : TimerChannel) :
    ControlRun s (setupTimerChannel tps s.clock.ns d reg) := by
  have hperiod := hrun.ioctl tps hidle (.setPeriod (some ⟨reg.channel, reg.periodTicks⟩))
  simp only [DeviceClients.setupTimerChannel]
  split
  · rename_i heq
    rwa [heq] at hperiod
  · rename_i heq
    rw [heq] at hperiod
    apply ControlRun.ioctl tps hidle
    split
    · exact hperiod.ioctl tps hidle _
    · exact hperiod

theorem ControlRun.timeManagerStart (hidle : s.closing = none) (mode : TriggerMode)
    (timers : List TimerConfig) :
    ControlRun s (timeManagerStart tps s.clock.ns mode timers s.driver) := by
  have hmode := (ControlRun.refl (s := s)).ioctl tps hidle (.setMode mode)
  rw [DeviceClients.timeManagerStart]
  generalize (DeviceClients.ioctl tps s.clock.ns (.setMode mode) s.driver).2 = d at hmode
  induction timers generalizing d with
  | nil => exact hmode
  | cons cfg timers ih => exact ih _ (hmode.timeManagerChannel tps hidle cfg)

end ControlRuns

end RosRtems.DeviceClients
