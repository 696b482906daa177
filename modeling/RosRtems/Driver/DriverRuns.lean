import RosRtems.Core.Runs
import RosRtems.Driver.TimerDriverSpec

/-!
# Runs of the timer driver

Driver operations come one after another from the tasks that hold the device,
and interrupts come at any moment between them, also between the turns of the
loop in `rtss_close`.  Every invariant of a channel is derived from the list of
what a single step can do to it.
-/

namespace RosRtems.DriverRuns

open RosRtems.TimerDriver RosRtems.Runs

/-- The longest period that `SET_PERIOD` can store: `UINT32_MAX` ticks of one
second each. -/
def longestPeriodNs : ℤ := 4294967295 * 1000000000

/-- A reading of the uptime clock, early enough (by some 155 years) that no sum of
a reading and a period leaves `int64_t`. -/
structure Uptime where
  ns : ℤ
  nonneg : 0 ≤ ns
  fits : ns + longestPeriodNs < int64Max

/-- The driver, the channels an unfinished `rtss_close` has still to clear, and
the latest clock reading. -/
structure System where
  driver : Driver
  closing : Option (List Channel)
  clock : Uptime

inductive Label
  | openDevice (sc : StatusCode)
  | closeDevice
  | closeStep
  | control (cmd : Command) (tps : Interval) (now armNow : Uptime)
  | interrupt (now armNow : Uptime)

inductive Step : System → Label → System → Prop
  | openDevice (s : System) (sc : StatusCode) (hidle : s.closing = none) :
      Step s (.openDevice sc) { s with driver := (rtssOpen sc s.driver).2 }
  | closeDevice (s : System) (hidle : s.closing = none) :
      Step s .closeDevice
        { s with closing := some (List.finRange rtssTimerMaxChannels) }
  | closeStep (s : System) (i : Channel) (is : List Channel)
      (hclosing : s.closing = some (i :: is)) :
      Step s .closeStep
        { s with driver := closeVisit s.driver i, closing := some is }
  | closeFinish (s : System) (hclosing : s.closing = some []) :
      Step s .closeStep { s with driver := closeFinish s.driver, closing := none }
  | control (s : System) (cmd : Command) (tps : Interval) (now armNow : Uptime)
      (hidle : s.closing = none) (hnow : s.clock.ns ≤ now.ns)
      (harm : now.ns ≤ armNow.ns) :
      Step s (.control cmd tps now armNow)
        { s with
          driver := (rtssControl s.driver tps now.ns armNow.ns cmd).driver
          clock := armNow }
  | interrupt (s : System) (fuel : ℕ) (now armNow : Uptime) (after : Driver)
      (hinstalled : s.driver.isrInstalled = true) (hnow : s.clock.ns ≤ now.ns)
      (harm : now.ns ≤ armNow.ns)
      (hisr : ptIsr fuel now.ns armNow.ns s.driver = some after) :
      Step s (.interrupt now armNow) { s with driver := after, clock := armNow }

/-- The system when `rtss_init` returns. -/
def booted (clock : Uptime) : System where
  driver := rtssInit
  closing := none
  clock := clock

/-- The turns of the loop in `rtss_close`, with no interrupt between them, make up
`rtssClose`. -/
theorem closeSteps_run (s : System) (is : List Channel) (hclosing : s.closing = some is) :
    ∃ trace, Run Step s trace
      { s with driver := closeFinish (is.foldl closeVisit s.driver), closing := none } := by
  induction is generalizing s with
  | nil => exact ⟨_, .cons (.closeFinish s hclosing) (.nil _)⟩
  | cons i is ih =>
      obtain ⟨trace, hrun⟩ :=
        ih { s with driver := closeVisit s.driver i, closing := some is } rfl
      exact ⟨_, .cons (.closeStep s i is hclosing) hrun⟩

theorem rtssClose_run (s : System) (hidle : s.closing = none) :
    ∃ trace, Run Step s trace { s with driver := rtssClose s.driver } := by
  obtain ⟨trace, hrun⟩ := closeSteps_run
    { s with closing := some (List.finRange rtssTimerMaxChannels) } _ rfl
  rw [hidle]
  exact ⟨_, .cons (.closeDevice s hidle) hrun⟩

/-! ## What a step does to a channel -/

inductive ChannelChange (label : Label) (i : Channel) (before : ChannelState) :
    ChannelState → Prop
  | unchanged : ChannelChange label i before before
  | dispatched (fuel : ℕ) (now armNow : Uptime) (after : ChannelState)
      (hlabel : label = .interrupt now armNow)
      (hdispatched : Dispatched fuel now.ns before after) :
      ChannelChange label i before after
  | periodTicks (cfg : TimerConfig) (tps : Interval) (now armNow : Uptime)
      (hlabel : label = .control (.setPeriod (some cfg)) tps now armNow)
      (hchannel : channelOf cfg.channel = some i) (htps : tps ≠ 0) :
      ChannelChange label i before
        { before with periodNs := ticksToNs cfg.periodTicks tps }
  | periodNs (periodNs : ℤ) (hmin : rtssTimerMinPeriodNs ≤ periodNs)
      (hmax : periodNs ≤ rtssTimerMaxPeriodNs) :
      ChannelChange label i before { before with periodNs := periodNs }
  | started (cfg : TimerConfig) (tps : Interval) (now armNow : Uptime)
      (hlabel : label = .control (.start (some cfg)) tps now armNow)
      (hchannel : channelOf cfg.channel = some i) (hperiod : before.periodNs ≠ 0) :
      ChannelChange label i before
        { before with active := true, nextFireNs := now.ns + before.periodNs }
  | stopped (targetTask : RtemsId) :
      ChannelChange label i before
        { before with
          active := false, nextFireNs := int64Max, targetTask := targetTask }
  | retargeted (cfg : TimerTaskConfig) (tps : Interval) (now armNow : Uptime)
      (hlabel : label = .control (.setTask (some cfg)) tps now armNow)
      (hchannel : channelOf cfg.channel = some i) :
      ChannelChange label i before { before with targetTask := cfg.targetTask }

/-- A change of the channel a command names leaves every other channel alone. -/
theorem ChannelChange.of_setChannel {label : Label} {d : Driver} {i : Channel}
    {ch : ChannelState} (hchange : ChannelChange label i (d.channels i) ch)
    (j : Channel) :
    ChannelChange label j (d.channels j) ((d.setChannel i ch).channels j) := by
  by_cases hne : j = i
  · subst hne
    rwa [setChannel_same]
  · rw [setChannel_other d ch hne]
    exact .unchanged

theorem rtssOpen_channels (sc : StatusCode) (d : Driver) :
    (rtssOpen sc d).2.channels = d.channels := by
  grind [rtssOpen, installPtIsr]

theorem control_channelChange {d d' : Driver} {cmd : Command} {tps : Interval}
    {now armNow : Uptime}
    (heffect : ControlEffect d tps now.ns armNow.ns cmd d') (j : Channel) :
    ChannelChange (.control cmd tps now armNow) j (d.channels j) (d'.channels j) := by
  cases heffect with
  | unchanged => exact .unchanged
  | setPeriod cfg i hchannel htps =>
      exact .of_setChannel (.periodTicks cfg tps now armNow rfl hchannel htps) j
  | setPeriodNs cfg i hchannel hmin hmax =>
      exact .of_setChannel (.periodNs cfg.periodNs hmin hmax) j
  | start cfg i hchannel hperiod =>
      rw [rearmPt_channels]
      exact .of_setChannel (.started cfg tps now armNow rfl hchannel hperiod) j
  | stop cfg i hchannel =>
      rw [rearmPt_channels]
      exact .of_setChannel (.stopped (d.channels i).targetTask) j
  | setTask cfg i hchannel =>
      exact .of_setChannel (.retargeted cfg tps now armNow rfl hchannel) j

theorem step_channelChange {s s' : System} {label : Label} (hstep : Step s label s')
    (j : Channel) :
    ChannelChange label j (s.driver.channels j) (s'.driver.channels j) := by
  cases hstep with
  | openDevice sc _ =>
      rw [rtssOpen_channels]
      exact .unchanged
  | closeDevice _ => exact .unchanged
  | closeStep i is _ => exact .of_setChannel (.stopped rtemsIdNone) j
  | closeFinish _ => exact .unchanged
  | control cmd tps now armNow _ _ _ =>
      exact control_channelChange (rtssControl_effect _ _ _ _ _) j
  | interrupt fuel now armNow after _ _ _ hisr =>
      exact .dispatched fuel now armNow _ rfl (ptIsr_dispatched hisr j)

/-! ## Periods and expirations stay within their ranges -/

theorem ticksToNs_eq (periodTicks tps : Interval) :
    ticksToNs periodTicks tps = (periodTicks.toNat * 1000000000 : ℕ) / (tps.toNat : ℤ) := by
  rw [ticksToNs, nsPerSecond, Int.tdiv_eq_ediv_of_nonneg (by positivity)]
  push_cast
  rfl

theorem ticksToNs_nonneg (periodTicks tps : Interval) :
    0 ≤ ticksToNs periodTicks tps := by
  rw [ticksToNs_eq]
  positivity

theorem ticksToNs_le (periodTicks tps : Interval) :
    ticksToNs periodTicks tps ≤ longestPeriodNs := by
  have hticks := periodTicks.toNat_lt
  rw [ticksToNs_eq]
  calc ((periodTicks.toNat * 1000000000 : ℕ) : ℤ) / (tps.toNat : ℤ)
      ≤ (periodTicks.toNat * 1000000000 : ℕ) :=
        Int.ediv_le_self _ (by positivity)
    _ ≤ longestPeriodNs := by
        rw [longestPeriodNs]
        omega

/-- The period rounds to zero exactly when it is shorter than a nanosecond. -/
theorem ticksToNs_pos_iff {periodTicks tps : Interval} (htps : tps ≠ 0) :
    0 < ticksToNs periodTicks tps ↔
      tps.toNat ≤ periodTicks.toNat * 1000000000 := by
  have hpositive : 0 < tps.toNat := by
    rw [Nat.pos_iff_ne_zero]
    exact fun hzero => htps (UInt32.toNat_inj.mp hzero)
  rw [ticksToNs_eq]
  norm_cast
  exact Nat.div_pos_iff.trans ⟨And.right, And.intro hpositive⟩

/-- What holds of a channel whatever commands have been given. -/
structure ChannelWellFormed (ch : ChannelState) : Prop where
  period_nonneg : 0 ≤ ch.periodNs
  period_le : ch.periodNs ≤ longestPeriodNs
  next_lt : ch.active = true → ch.nextFireNs < int64Max

theorem ChannelWellFormed.change {label : Label} {i : Channel}
    {before after : ChannelState} (hbefore : ChannelWellFormed before)
    (hchange : ChannelChange label i before after) : ChannelWellFormed after := by
  obtain ⟨hnonneg, hle, hnext⟩ := hbefore
  cases hchange with
  | unchanged => exact ⟨hnonneg, hle, hnext⟩
  | dispatched fuel now armNow after _ hdispatched =>
      cases hdue : before.due now.ns with
      | true =>
          have hcaught := hdispatched.caughtUp hdue
          have hnear := hcaught.near
          have hfits := now.fits
          rw [← hcaught.periodNs] at hnonneg hle hnear
          exact ⟨hnonneg, hle, fun _ => by omega⟩
      | false =>
          rw [hdispatched.unchanged hdue]
          exact ⟨hnonneg, hle, hnext⟩
  | periodTicks cfg tps now armNow _ _ _ =>
      exact ⟨ticksToNs_nonneg _ _, ticksToNs_le _ _, hnext⟩
  | periodNs period hmin hmax =>
      rw [rtssTimerMinPeriodNs] at hmin
      rw [rtssTimerMaxPeriodNs] at hmax
      exact ⟨by simp only; omega, by simp only [longestPeriodNs]; omega, hnext⟩
  | started cfg tps now armNow _ _ _ =>
      have hfits := now.fits
      exact ⟨hnonneg, hle, fun _ => by simp only; omega⟩
  | stopped _ => exact ⟨hnonneg, hle, by simp⟩
  | retargeted cfg tps now armNow _ _ => exact ⟨hnonneg, hle, hnext⟩

def WellFormed (s : System) : Prop :=
  ∀ i, ChannelWellFormed (s.driver.channels i)

theorem wellFormed_booted (clock : Uptime) : WellFormed (booted clock) := by
  intro i
  exact ⟨le_rfl, by simp [booted, rtssInit, longestPeriodNs], by simp [booted, rtssInit]⟩

theorem wellFormed_step {s s' : System} {label : Label} (hs : WellFormed s)
    (hstep : Step s label s') : WellFormed s' :=
  fun i => (hs i).change (step_channelChange hstep i)

/-! ## The handler terminates -/

/-- Every active channel has a positive period, and the handler returns at every
clock value it can still read. -/
def InterruptSafe (s : System) : Prop :=
  (∀ i, (s.driver.channels i).active = true → 0 < (s.driver.channels i).periodNs) ∧
    ∀ now : Uptime, s.clock.ns ≤ now.ns → IsrTerminates s.driver now.ns

/-- The step is not a `SET_PERIOD` that the driver accepts for an active channel
although the period is shorter than a nanosecond. -/
def KeepsPeriods (s : System) (label : Label) : Prop :=
  ∀ cfg tps now armNow i, label = .control (.setPeriod (some cfg)) tps now armNow →
    channelOf cfg.channel = some i → tps ≠ 0 →
    (s.driver.channels i).active = true →
    tps.toNat ≤ cfg.periodTicks.toNat * 1000000000

/-- The invariant that bounds the catch-up loop. -/
def PeriodsPositive (s : System) : Prop :=
  WellFormed s ∧
    ∀ i, (s.driver.channels i).active = true → 0 < (s.driver.channels i).periodNs

theorem interruptSafe_of_periodsPositive (s : System) (hs : PeriodsPositive s) :
    InterruptSafe s := by
  refine ⟨hs.2, fun now _ => ?_⟩
  rw [isrTerminates_iff]
  exact fun i hdue => hs.2 i (due_iff.mp hdue).1

theorem periodsPositive_step (s : System) (label : Label) (s' : System)
    (hs : PeriodsPositive s) (hkeeps : KeepsPeriods s label)
    (hstep : Step s label s') : PeriodsPositive s' := by
  refine ⟨wellFormed_step hs.1 hstep, fun i => ?_⟩
  have hchange := step_channelChange hstep i
  have hpositive := hs.2 i
  have hnonneg := (hs.1 i).period_nonneg
  generalize hafter : s'.driver.channels i = after at hchange
  generalize hbefore : s.driver.channels i = before at *
  intro hactive
  cases hchange with
  | unchanged => exact hpositive hactive
  | dispatched fuel now armNow after _ hdispatched =>
      obtain ⟨hsame, hperiod, -⟩ := hdispatched.configuration
      rw [hperiod]
      exact hpositive (hsame ▸ hactive)
  | periodTicks cfg tps now armNow hlabel hchannel htps =>
      apply (ticksToNs_pos_iff htps).mpr
      exact hkeeps cfg tps now armNow i hlabel hchannel htps (by rwa [hbefore])
  | periodNs period hmin _ =>
      rw [rtssTimerMinPeriodNs] at hmin
      simp only
      omega
  | started cfg tps now armNow _ _ hperiod =>
      exact lt_of_le_of_ne hnonneg hperiod.symm
  | stopped _ => simp at hactive
  | retargeted cfg tps now armNow _ _ => exact hpositive hactive

theorem keepsPeriods_of_interruptSafe (s : System) (label : Label) (s' : System)
    (hstep : Step s label s') (hsafe : InterruptSafe s') : KeepsPeriods s label := by
  rintro cfg tps now armNow i rfl hchannel htps hactive
  have haccepted : (rtssControl s.driver tps now.ns armNow.ns
      (.setPeriod (some cfg))).driver =
        s.driver.setChannel i
          { s.driver.channels i with periodNs := ticksToNs cfg.periodTicks tps } := by
    simp [rtssControl, controlSetPeriod, withChannel, hchannel, htps, accept]
  cases hstep
  rw [← ticksToNs_pos_iff htps]
  have hpositive := hsafe.1 i
  simp only [haccepted, setChannel_same] at hpositive
  exact hpositive hactive

/-- The interrupt handler terminates throughout a run exactly when no accepted
`SET_PERIOD` of the run gives an active channel a period that rounds to zero. -/
theorem interruptSafe_throughout_iff (clock : Uptime) (trace : List (Move System Label))
    (finish : System) (hrun : Run Step (booted clock) trace finish) :
    Throughout InterruptSafe (booted clock) trace ↔ Admitted KeepsPeriods trace := by
  refine hrun.throughout_iff_admitted interruptSafe_of_periodsPositive
    periodsPositive_step ?_ ⟨wellFormed_booted clock, ?_⟩
  · intro s label s' _ hstep hsafe
    exact keepsPeriods_of_interruptSafe s label s' hstep hsafe
  · simp [booted, rtssInit]

/-! ## The device in use -/

def atBoot : Uptime := ⟨0, by decide, by decide⟩

def atTenMs : Uptime := ⟨10000000, by decide, by decide⟩

/-- Channel 0 is started for task 1 with a period of one 10 ms tick. -/
theorem periodicChannel_run : ∃ trace finish,
    Run Step (booted atBoot) trace finish ∧ Admitted KeepsPeriods trace ∧
      finish.driver.channels 0 = ⟨true, 10000000, 10000000, 1⟩ ∧
      finish.closing = none ∧ finish.clock = atBoot := by
  refine ⟨_, _,
    .cons (.openDevice _ .successful rfl) <|
    .cons (.control _ (.setPeriod (some ⟨0, 1⟩)) 100 atBoot atBoot rfl le_rfl le_rfl) <|
    .cons (.control _ (.setTask (some ⟨0, 1⟩)) 100 atBoot atBoot rfl le_rfl le_rfl) <|
    .cons (.control _ (.start (some ⟨0, 0⟩)) 100 atBoot atBoot rfl le_rfl le_rfl) <|
    .nil _, ?_, by decide, rfl, rfl⟩
  intro move hmove cfg tps now armNow i hlabel _ _ _
  simp only [List.mem_cons, List.not_mem_nil, or_false] at hmove
  rcases hmove with rfl | rfl | rfl | rfl <;> cases hlabel
  decide

theorem interruptSafe_throughout_periodic : ∃ trace finish,
    Run Step (booted atBoot) trace finish ∧
      Throughout InterruptSafe (booted atBoot) trace ∧
      (finish.driver.channels 0).due atTenMs.ns = true ∧
      IsrTerminates finish.driver atTenMs.ns := by
  obtain ⟨trace, finish, hrun, hadmitted, hchannel, -, hclock⟩ := periodicChannel_run
  have hsafe := (interruptSafe_throughout_iff atBoot trace finish hrun).mpr hadmitted
  have hfinish := hrun.invariant periodsPositive_step
    ⟨wellFormed_booted atBoot, by simp [booted, rtssInit]⟩ hadmitted
  refine ⟨trace, finish, hrun, hsafe, by rw [hchannel]; decide, ?_⟩
  exact (interruptSafe_of_periodsPositive finish hfinish).2 atTenMs
    (by rw [hclock]; decide)

/-- `SET_PERIOD` with zero ticks reaches the active channel: the interrupt that is
due ten milliseconds after boot never returns. -/
theorem zeroPeriod_never_returns : ∃ trace finish,
    Run Step (booted atBoot) trace finish ∧
      (finish.driver.channels 0).active = true ∧
      (finish.driver.channels 0).periodNs = 0 ∧
      finish.clock.ns ≤ atTenMs.ns ∧ ¬ IsrTerminates finish.driver atTenMs.ns ∧
      ¬ Throughout InterruptSafe (booted atBoot) trace := by
  obtain ⟨trace, finish, hrun, -, hchannel, hclosing, hclock⟩ := periodicChannel_run
  have hstep := Step.control finish (.setPeriod (some ⟨0, 0⟩)) 100 atBoot atBoot hclosing
    (by rw [hclock]) le_rfl
  have hafter : ((rtssControl finish.driver 100 atBoot.ns atBoot.ns
      (.setPeriod (some ⟨0, 0⟩))).driver.channels 0) = ⟨true, 0, 10000000, 1⟩ := by
    change (finish.driver.setChannel 0
      { finish.driver.channels 0 with periodNs := ticksToNs 0 100 }).channels 0 = _
    rw [setChannel_same, hchannel]
    rfl
  refine ⟨_, _, hrun.snoc hstep, by rw [hafter], by rw [hafter],
    (by decide : atBoot.ns ≤ atTenMs.ns), ?_, ?_⟩
  · rw [isrTerminates_iff]
    intro hpositive
    have hzero := hpositive 0 (by rw [hafter]; decide)
    rw [hafter] at hzero
    exact absurd hzero (by decide)
  · rintro ⟨-, hall⟩
    have hzero := (hall _ (List.mem_append_right _ (List.mem_singleton_self _))).1 0
      (by rw [hafter])
    rw [hafter] at hzero
    exact absurd hzero (by decide)

end RosRtems.DriverRuns
