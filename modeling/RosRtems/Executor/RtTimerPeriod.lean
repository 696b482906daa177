import RosRtems.Executor.Shutdown

/-!
# The period of a registered timer

A period is asked for in milliseconds.  The registration keeps it as a 32-bit number of
ticks, `setup_timer_driver` hands the ticks to the device, and the device turns them
into nanoseconds and refuses to start a channel whose period is zero.  Both conversions
round down, so the question is how much is lost on the way, and whether the number of
ticks is still the one that was meant.
-/

namespace RosRtems.RtTimerPeriod

open RosRtems.TimerDriver RosRtems.DriverRuns RosRtems.DeviceClients RosRtems.RtSubscription
  RosRtems.RtExecutor RosRtems.Shutdown RosRtems.Runs

variable {Message : Type*}

/-! ## What was asked for -/

/-- One clock tick in nanoseconds, rounded up. -/
def tickNs (tps : Interval) : ℕ := (1000000000 + tps.toNat - 1) / tps.toNat

/-- The channel runs, and its period is the requested one up to a tick. -/
structure RunsAtPeriod (tps : Interval) (periodMs : UInt32) (ch : ChannelState) : Prop where
  active : ch.active = true
  near : |ch.periodNs - periodMs.toNat * 1000000| < tickNs tps

/-- The whole ticks of the period. -/
def wholeTicks (tps : Interval) (periodMs : UInt32) : ℕ := periodMs.toNat * tps.toNat / 1000

/-- What the period loses below a whole tick, in nanoseconds rounded up. -/
def lostNs (tps : Interval) (periodMs : UInt32) : ℕ :=
  (periodMs.toNat * tps.toNat % 1000 * 1000000 + tps.toNat - 1) / tps.toNat

/-- The period is at least a tick, its ticks fit in 32 bits, and what it loses is less
than a tick also when it is rounded up to a nanosecond. -/
structure PeriodFits (tps : Interval) (periodMs : UInt32) : Prop where
  tick : 1 ≤ wholeTicks tps periodMs
  word : wholeTicks tps periodMs < 2 ^ 32
  loss : lostNs tps periodMs * tps.toNat < 1000000000

/-! ## The two conversions -/

section Arithmetic

variable {tps : Interval} {periodMs : UInt32}

theorem tps_pos (htps : tps ≠ 0) : 0 < tps.toNat := by
  rw [Nat.pos_iff_ne_zero]
  exact fun hzero => htps (UInt32.toNat_inj.mp hzero)

theorem lt_tickNs_iff (htps : tps ≠ 0) (ns : ℕ) :
    ns < tickNs tps ↔ ns * tps.toNat < 1000000000 := by
  have hpos := tps_pos htps
  rw [tickNs, ← Nat.succ_le_iff, Nat.le_div_iff_mul_le hpos, Nat.succ_mul]
  omega

/-- What a division rounds down is what the remainder's division rounds up. -/
theorem div_add_ceil {divisor period lost : ℕ} (hpos : 0 < divisor)
    (hlost : lost ≤ divisor * period) :
    (divisor * period - lost) / divisor + (lost + divisor - 1) / divisor = period := by
  cases lost with
  | zero =>
      have hzero : (0 + divisor - 1) / divisor = 0 := Nat.div_eq_of_lt (by omega)
      rw [Nat.sub_zero, Nat.mul_div_cancel_left period hpos, hzero, Nat.add_zero]
  | succ rest =>
      have hup : (rest + 1 + divisor - 1) / divisor = rest / divisor + 1 := by
        rw [Nat.add_right_comm, Nat.add_sub_cancel, Nat.add_div_right rest hpos]
      have hle : rest / divisor < period := Nat.div_lt_of_lt_mul hlost
      rw [Nat.mul_sub_div rest divisor period hlost, hup]
      omega

variable (periodMs) in
/-- The ticks make up the period less what is lost. -/
theorem wholeTicks_ns (htps : tps ≠ 0) :
    wholeTicks tps periodMs * 1000000000 / tps.toNat + lostNs tps periodMs =
      periodMs.toNat * 1000000 := by
  have hsplit := Nat.div_add_mod (periodMs.toNat * tps.toNat) 1000
  have hscaled : tps.toNat * (periodMs.toNat * 1000000) =
      periodMs.toNat * tps.toNat * 1000000 := by ring
  have hlost : periodMs.toNat * tps.toNat % 1000 * 1000000 ≤
      tps.toNat * (periodMs.toNat * 1000000) := by
    rw [hscaled]
    exact Nat.mul_le_mul_right _ (Nat.mod_le _ _)
  have hkept : wholeTicks tps periodMs * 1000000000 =
      tps.toNat * (periodMs.toNat * 1000000) -
        periodMs.toNat * tps.toNat % 1000 * 1000000 := by
    rw [wholeTicks]
    omega
  rw [hkept, lostNs]
  exact div_add_ceil (tps_pos htps) hlost

/-- A period that fits in a word of ticks reaches the device short of what is lost. -/
theorem ticksToNs_of_fits (htps : tps ≠ 0) (hword : wholeTicks tps periodMs < 2 ^ 32) :
    ticksToNs (rtMsToTicks tps periodMs) tps =
      periodMs.toNat * 1000000 - lostNs tps periodMs := by
  have hns := wholeTicks_ns periodMs htps
  have hticks : (rtMsToTicks tps periodMs).toNat = wholeTicks tps periodMs :=
    UInt32.toNat_ofNat_of_lt' hword
  rw [eq_sub_iff_add_eq, ticksToNs_eq, hticks]
  exact_mod_cast hns

/-- A number of ticks that does not fit loses at least the word that is cut off. -/
theorem ticksToNs_of_wraps (htps : tps ≠ 0) (hword : 2 ^ 32 ≤ wholeTicks tps periodMs) :
    ticksToNs (rtMsToTicks tps periodMs) tps + 1000000000 ≤ periodMs.toNat * 1000000 := by
  have hns := wholeTicks_ns periodMs htps
  have hpos := tps_pos htps
  have htpsLt := tps.toNat_lt
  have hticks : (rtMsToTicks tps periodMs).toNat + 2 ^ 32 ≤ wholeTicks tps periodMs := by
    rw [rtMsToTicks, UInt32.toNat_ofNat', ← wholeTicks]
    omega
  have hcut : (rtMsToTicks tps periodMs).toNat * 1000000000 / tps.toNat + 1000000000 ≤
      wholeTicks tps periodMs * 1000000000 / tps.toNat := by
    rw [← Nat.add_mul_div_left _ _ hpos]
    apply Nat.div_le_div_right
    omega
  rw [ticksToNs_eq]
  norm_cast
  omega

/-- A whole tick is a nanosecond at least: a clock that ticks faster gives a millisecond
many ticks. -/
theorem tps_le_of_tick (htick : 1 ≤ wholeTicks tps periodMs) :
    tps.toNat ≤ wholeTicks tps periodMs * 1000000000 := by
  have htpsLt := tps.toNat_lt
  rw [wholeTicks] at htick ⊢
  have hms : 0 < periodMs.toNat := by
    rw [Nat.pos_iff_ne_zero]
    rintro hzero
    rw [hzero, Nat.zero_mul] at htick
    omega
  have hticks := Nat.le_mul_of_pos_left tps.toNat hms
  omega

theorem tickNs_le_second (htps : tps ≠ 0) : tickNs tps ≤ 1000000000 := by
  have hpos := tps_pos htps
  have hiff := lt_tickNs_iff htps 1000000000
  omega

/-- The device can start on the period that it is given and that period is near the
requested one, exactly when the requested one fits. -/
theorem ticksToNs_near_iff (htps : tps ≠ 0) :
    (0 < ticksToNs (rtMsToTicks tps periodMs) tps ∧
      |ticksToNs (rtMsToTicks tps periodMs) tps - periodMs.toNat * 1000000| < tickNs tps) ↔
      PeriodFits tps periodMs := by
  by_cases hword : wholeTicks tps periodMs < 2 ^ 32
  · have hticks : (rtMsToTicks tps periodMs).toNat = wholeTicks tps periodMs :=
      UInt32.toNat_ofNat_of_lt' hword
    have hdistance : |ticksToNs (rtMsToTicks tps periodMs) tps - periodMs.toNat * 1000000| =
        lostNs tps periodMs := by
      rw [ticksToNs_of_fits htps hword, abs_sub_comm, sub_sub_cancel, Nat.abs_cast]
    rw [hdistance, Nat.cast_lt, lt_tickNs_iff htps, ticksToNs_pos_iff htps, hticks]
    constructor
    · rintro ⟨hpositive, hloss⟩
      have hpos := tps_pos htps
      exact ⟨by omega, hword, hloss⟩
    · intro hfits
      exact ⟨tps_le_of_tick hfits.tick, hfits.loss⟩
  · have hcut := ticksToNs_of_wraps htps (not_lt.mp hword)
    have hsecond := tickNs_le_second htps
    constructor
    · rintro ⟨-, hnear⟩
      have hbelow := (abs_lt.mp hnear).1
      omega
    · exact fun hfits => absurd hfits.word hword

/-- With at most a million ticks in a second the last condition is no condition. -/
theorem periodFits_of_slowClock (htps : tps ≠ 0) (hslow : tps.toNat ≤ 1000000)
    (htick : 1 ≤ wholeTicks tps periodMs) (hword : wholeTicks tps periodMs < 2 ^ 32) :
    PeriodFits tps periodMs := by
  refine ⟨htick, hword, ?_⟩
  have hpos := tps_pos htps
  have hrest := Nat.mod_lt (periodMs.toNat * tps.toNat) (y := 1000) (by omega)
  have hfloor := Nat.div_mul_le_self
    (periodMs.toNat * tps.toNat % 1000 * 1000000 + tps.toNat - 1) tps.toNat
  rw [lostNs]
  omega

end Arithmetic

/-! ## What the executor hands to the device -/

section Setup

variable (outcome : ℕ → StartOutcome) (tps : Interval)

/-- `start` succeeds where the task runs afterwards. -/
theorem start_eq_running (task : CallbackTask) (tasks : TaskTable) :
    (task.start outcome tasks).1 = (task.start outcome tasks).2.1.running := by
  rw [CallbackTask.start]
  split
  · rename_i hrunning
    exact hrunning.symm
  · rename_i hstopped
    simp only
    split
    · exact (Bool.eq_false_of_not_eq_true hstopped).symm
    · rfl
    · rfl

/-- The channels and their ticks, as they were registered. -/
def registered (executor : Executor) : List (ℤ × Interval) :=
  executor.timerRegs.map fun reg => (reg.channel, reg.periodTicks)

theorem startTimerTasks_registered (regs : List TimerReg) (tasks : TaskTable) :
    (startTimerTasks outcome regs tasks).1.map (fun reg => (reg.channel, reg.periodTicks)) =
      regs.map fun reg => (reg.channel, reg.periodTicks) := by
  induction regs generalizing tasks with
  | nil => rfl
  | cons reg regs ih =>
      simp only [startTimerTasks, List.map_cons]
      rw [ih]

theorem setupChannels_registered (now : ℤ) (regs : List TimerReg) (tasks : TaskTable)
    (d : Driver) :
    (setupChannels outcome tps now regs tasks d).1.map
        (fun reg => (reg.channel, reg.periodTicks)) =
      regs.map fun reg => (reg.channel, reg.periodTicks) := by
  induction regs generalizing tasks d with
  | nil => rfl
  | cons reg regs ih =>
      simp only [setupChannels, List.map_cons]
      rw [ih]

/-- The channel loop leaves a channel alone that no registration names. -/
theorem setupChannels_other (now : ℤ) {regs : List TimerReg} {i : Channel}
    (hother : ∀ reg ∈ regs, channelOf reg.channel ≠ some i) (tasks : TaskTable)
    (d : Driver) :
    (setupChannels outcome tps now regs tasks d).2.2.channels i = d.channels i := by
  induction regs generalizing tasks d with
  | nil => rfl
  | cons reg regs ih =>
      simp only [setupChannels]
      rw [ih (fun other hmem => hother other (List.mem_cons_of_mem _ hmem))]
      split
      · exact setupTimerChannel_other tps now d _ (hother reg (List.mem_cons_self ..))
      · rfl

/-- The loop gives a channel the period of the one registration that names it, if the
task of that registration runs. -/
theorem setupChannels_own {outcome tps} (now : ℤ) (htps : tps ≠ 0) {regs : List TimerReg} {i : Channel}
    (hnodup : (regs.map TimerReg.channel).Nodup) (tasks : TaskTable) (d : Driver)
    {reg : TimerReg} (hreg : reg ∈ (setupChannels outcome tps now regs tasks d).1)
    (hrunning : reg.task.running = true) (hchannel : channelOf reg.channel = some i) :
    ((setupChannels outcome tps now regs tasks d).2.2.channels i).periodNs =
        ticksToNs reg.periodTicks tps ∧
      ((setupChannels outcome tps now regs tasks d).2.2.channels i).active =
        ((d.channels i).active || ticksToNs reg.periodTicks tps != 0) := by
  induction regs generalizing tasks d with
  | nil => cases hreg
  | cons head regs ih =>
      obtain ⟨hfresh, hrest⟩ := List.nodup_cons.mp hnodup
      simp only [setupChannels] at hreg ⊢
      rcases List.mem_cons.mp hreg with rfl | hlater
      · have hothers : ∀ other ∈ regs, channelOf other.channel ≠ some i := by
          intro other hmem hsame
          have heq := (eq_of_channelOf hsame).trans (eq_of_channelOf hchannel).symm
          exact hfresh (heq ▸ List.mem_map_of_mem hmem)
        rw [setupChannels_other outcome tps now hothers, start_eq_running, if_pos hrunning]
        exact setupTimerChannel_own tps now d htps _ rfl hchannel
      · have hchannels : reg.channel ∈ regs.map TimerReg.channel := by
          have hmem : (reg.channel, reg.periodTicks) ∈
              regs.map fun reg => (reg.channel, reg.periodTicks) := by
            rw [← setupChannels_registered outcome tps now]
            exact List.mem_map.mpr ⟨reg, hlater, rfl⟩
          obtain ⟨other, hother, hsame⟩ := List.mem_map.mp hmem
          exact List.mem_map.mpr ⟨other, hother, (Prod.mk.inj hsame).1⟩
        have hhead : channelOf head.channel ≠ some i := by
          intro hsame
          have heq := (eq_of_channelOf hsame).trans (eq_of_channelOf hchannel).symm
          exact hfresh (heq ▸ hchannels)
        have hown := ih hrest _ _ hlater
        refine ⟨hown.1, hown.2.trans ?_⟩
        congr 2
        split
        · rw [setupTimerChannel_other tps now d _ hhead]
        · rfl

theorem spinRound_registered (attempt : Option (ℕ × StatusCode)) (now : ℤ)
    (w : World Message) :
    registered (spinRound outcome tps attempt now w).executor = registered w.executor := by
  have hstarted : registered (startAllTasks outcome w).executor = registered w.executor :=
    startTimerTasks_registered outcome w.executor.timerRegs w.tasks
  rw [← hstarted, spinRound, setupTimerDriver]
  split
  · rfl
  · split
    rename_i fd d hopen
    split
    · rfl
    · split
      · rfl
      · exact setupChannels_registered ..

theorem spinRound_nextChannel (attempt : Option (ℕ × StatusCode)) (now : ℤ)
    (w : World Message) :
    (spinRound outcome tps attempt now w).executor.nextChannel = w.executor.nextChannel := by
  rw [spinRound, setupTimerDriver]
  split
  · rfl
  · split
    split
    · rfl
    · split <;> rfl

/-- A round that does not open the device leaves it as it was. -/
theorem spinRound_unopened {attempt : Option (ℕ × StatusCode)} (now : ℤ) {w : World Message}
    (hunopened : registered w.executor = [] ∨ (openDevice attempt w.driver).1 < 0) :
    (spinRound outcome tps attempt now w).driver = w.driver := by
  rw [spinRound, setupTimerDriver]
  split
  · rfl
  · rename_i hregs
    rcases hunopened with hnone | hfailed
    · have hlist := startTimerTasks_registered outcome w.executor.timerRegs w.tasks
      rw [← registered, hnone] at hlist
      exact absurd (List.isEmpty_iff.mpr (List.map_eq_nil_iff.mp hlist)) hregs
    · have hsame : (openDevice attempt w.driver).2 = w.driver := by
        rcases openDevice_cases attempt w.driver with ⟨-, hsame⟩ | ⟨hfd, -⟩
        · exact hsame
        · exact absurd hfd (not_le.mpr hfailed)
      simp only [startAllTasks, if_pos hfailed, hsame]

/-- Once the device is open, the round ends with the channel loop. -/
theorem spinRound_opened {attempt : Option (ℕ × StatusCode)} (now : ℤ) {w : World Message}
    (hregs : registered w.executor ≠ []) (hopened : 0 ≤ (openDevice attempt w.driver).1) :
    let started := startTimerTasks outcome w.executor.timerRegs w.tasks
    let configured := setupChannels outcome tps now started.1 started.2
      (openDevice attempt w.driver).2
    (spinRound outcome tps attempt now w).executor.timerRegs = configured.1 ∧
      (spinRound outcome tps attempt now w).driver = configured.2.2 := by
  have hsome : (startTimerTasks outcome w.executor.timerRegs w.tasks).1.isEmpty = false := by
    rw [List.isEmpty_eq_false_iff]
    intro hnil
    have hlist := startTimerTasks_registered outcome w.executor.timerRegs w.tasks
    rw [hnil] at hlist
    exact hregs hlist.symm
  have hmode : ∀ d : Driver, ioctl tps now (.setMode .event) d = (true, d) := fun _ => rfl
  simp only [spinRound, startAllTasks, setupTimerDriver, hsome, if_neg (not_lt.mpr hopened),
    hmode]
  exact ⟨rfl, rfl⟩

end Setup

/-! ## Over the life of the executor -/

section Life

variable {outcome : ℕ → StartOutcome} {tps : Interval} {w w' : World Message}

/-- No channel of a closed device is active, and the registrations have the channels
`0, 1, …` in order. -/
structure Numbered (w : World Message) : Prop where
  idle : w.driver.opened = false → ∀ i, (w.driver.channels i).active = false
  channels : (registered w.executor).map Prod.fst =
    (List.range (registered w.executor).length).map Nat.cast
  next : w.executor.nextChannel = (registered w.executor).length

theorem numbered_rtExecutor (hnew : w.executor = rtExecutor)
    (hidle : w.driver.opened = false → ∀ i, (w.driver.channels i).active = false) :
    Numbered w := by
  refine ⟨hidle, ?_, ?_⟩ <;> rw [hnew] <;> rfl

theorem numbered_registerRtTimer (hw : Numbered w) (periodMs : UInt32) :
    Numbered { w with executor := (registerRtTimer tps periodMs w.executor).2 } := by
  rw [registerRtTimer]
  split
  · exact hw
  · have hregs := hw.channels
    have hnext := hw.next
    refine ⟨hw.idle, ?_, ?_⟩
    · simp only [registered, List.map_append, List.length_append, List.length_map] at hregs ⊢
      rw [hregs]
      simp [List.range_succ, hnext, registered]
    · simp [registered, hnext]

theorem numbered_spinRound (hw : Numbered w) (attempt : Option (ℕ × StatusCode)) (now : ℤ) :
    Numbered (spinRound outcome tps attempt now w) := by
  refine ⟨fun hclosed => ?_, ?_, ?_⟩
  · by_cases hregs : registered w.executor = []
    · rw [spinRound_unopened outcome tps now (.inl hregs)] at hclosed ⊢
      exact hw.idle hclosed
    · rcases openDevice_cases attempt w.driver with ⟨hfd, -⟩ | ⟨hfd, -, hopened, -⟩
      · rw [spinRound_unopened outcome tps now (.inr hfd)] at hclosed ⊢
        exact hw.idle hclosed
      · rw [(spinRound_opened outcome tps now hregs hfd).2, setupChannels_opened, hopened] at hclosed
        cases hclosed
  · rw [spinRound_registered]
    exact hw.channels
  · rw [spinRound_registered, spinRound_nextChannel]
    exact hw.next

theorem numbered_step (w : World Message) (label : UseLabel) (w' : World Message)
    (hw : Numbered w) (hstep : UseStep outcome tps w label w') : Numbered w' := by
  cases hstep with
  | registerRtTimer periodMs => exact numbered_registerRtTimer hw periodMs
  | registerRtSubscription subscription =>
      cases subscription with
      | none => exact hw
      | some sub =>
          rw [registerRtSubscription]
          split <;> exact ⟨hw.idle, hw.channels, hw.next⟩
  | spinRound attempt now => exact numbered_spinRound hw attempt now
  | interrupt fuel now armNow after _ hisr =>
      obtain ⟨hopened, hchannels⟩ := ptIsr_configuration hisr
      refine ⟨fun hclosed i => ?_, hw.channels, hw.next⟩
      exact (hchannels i).1.trans (hw.idle (hopened.symm.trans hclosed) i)

/-- What is registered stays registered. -/
theorem registered_step {entry : ℤ × Interval} {label : UseLabel}
    (hentry : entry ∈ registered w.executor) (hstep : UseStep outcome tps w label w') :
    entry ∈ registered w'.executor := by
  cases hstep with
  | registerRtTimer periodMs =>
      rw [registerRtTimer]
      split
      · exact hentry
      · rw [registered, List.map_append]
        exact List.mem_append_left _ hentry
  | registerRtSubscription subscription =>
      cases subscription with
      | none => exact hentry
      | some sub =>
          rw [registerRtSubscription]
          split <;> exact hentry
  | spinRound attempt now => rwa [spinRound_registered]
  | interrupt fuel now armNow after _ _ => exact hentry

theorem registered_run {entry : ℤ × Interval} {trace : List (Move (World Message) UseLabel)}
    (hrun : Run (UseStep outcome tps) w trace w') (hentry : entry ∈ registered w.executor) :
    entry ∈ registered w'.executor := by
  induction hrun with
  | nil => exact hentry
  | cons hstep _ ih => exact ih (registered_step hentry hstep)

/-- Registrations that have the channels of a numbered executor have distinct ones. -/
theorem channels_nodup (hw : Numbered w) {regs : List TimerReg}
    (hregs : regs.map (fun reg => (reg.channel, reg.periodTicks)) = registered w.executor) :
    (regs.map TimerReg.channel).Nodup := by
  have hchannels : regs.map TimerReg.channel =
      (List.range (registered w.executor).length).map Nat.cast := by
    rw [← hw.channels, ← hregs, List.map_map]
    rfl
  rw [hchannels]
  exact List.nodup_range.map Nat.cast_injective

/-- A registration that returns a channel returns one of the device's. -/
theorem registerRtTimer_accepted {periodMs : UInt32} {ch : ℤ} {executor : Executor}
    (hregister : registerRtTimer tps periodMs w.executor = (ch, executor))
    (hreturned : 0 ≤ ch) :
    (∃ i, channelOf ch = some i) ∧ (ch, rtMsToTicks tps periodMs) ∈ registered executor := by
  rw [registerRtTimer] at hregister
  split at hregister
  · cases hregister
    cases hreturned
  · rename_i hbelow
    obtain ⟨rfl, rfl⟩ := Prod.mk.inj hregister
    refine ⟨⟨_, dif_pos ⟨hreturned, not_le.mp hbelow⟩⟩, ?_⟩
    simp [registered]

/-- What a round that opens the device makes of a registered channel whose task runs. -/
theorem spinRound_channel {attempt : Option (ℕ × StatusCode)} {now : ℤ} {ch : ℤ}
    {ticks : Interval} {i : Channel} (hw : Numbered w) (htps : tps ≠ 0)
    (hentry : (ch, ticks) ∈ registered w.executor)
    (hopened : 0 ≤ (openDevice attempt w.driver).1)
    (hstarted : ∃ reg ∈ (spinRound outcome tps attempt now w).executor.timerRegs,
      reg.channel = ch ∧ reg.task.running = true)
    (hchannel : channelOf ch = some i) :
    ((spinRound outcome tps attempt now w).driver.channels i).periodNs = ticksToNs ticks tps ∧
      ((spinRound outcome tps attempt now w).driver.channels i).active =
        (ticksToNs ticks tps != 0) := by
  obtain ⟨hregs, hdriver⟩ := spinRound_opened outcome tps now
    (List.ne_nil_of_mem hentry) hopened
  obtain ⟨reg, hreg, rfl, hrunning⟩ := hstarted
  have hticks : reg.periodTicks = ticks := by
    have hkept := hentry
    rw [← spinRound_registered outcome tps attempt now] at hkept
    obtain ⟨other, hother, hsame⟩ := List.mem_map.mp hkept
    obtain ⟨hnumber, rfl⟩ := Prod.mk.inj hsame
    have hnodup := channels_nodup hw (spinRound_registered outcome tps attempt now w)
    rw [List.inj_on_of_nodup_map hnodup hreg hother hnumber.symm]
  subst hticks
  have hnodup := channels_nodup hw
    (startTimerTasks_registered outcome w.executor.timerRegs w.tasks)
  rw [hregs] at hreg
  rw [hdriver]
  have hown := setupChannels_own now htps hnodup _ _ hreg hrunning hchannel
  refine ⟨hown.1, hown.2.trans ?_⟩
  rcases openDevice_cases attempt w.driver with ⟨hfd, -⟩ | ⟨-, hclosed, -, hchannels⟩
  · exact absurd hopened (not_le.mpr hfd)
  · rw [hchannels, hw.idle hclosed i, Bool.false_or]

end Life

/-- Whatever the executor did before the registration and after it, once the device is
open and the task started, the channel runs at the requested period exactly when that
period fits. -/
theorem runsAtPeriod_iff_fits {outcome : ℕ → StartOutcome} {tps : Interval} (htps : tps ≠ 0)
    {start w later : World Message} {before after : List (Move (World Message) UseLabel)}
    (hnew : start.executor = rtExecutor)
    (hidle : start.driver.opened = false → ∀ i, (start.driver.channels i).active = false)
    (hbefore : Run (UseStep outcome tps) start before w)
    {periodMs : UInt32} {ch : ℤ} {executor : Executor}
    (hregister : registerRtTimer tps periodMs w.executor = (ch, executor)) (hreturned : 0 ≤ ch)
    (hafter : Run (UseStep outcome tps) { w with executor := executor } after later)
    {attempt : Option (ℕ × StatusCode)} {now : ℤ}
    (hopened : 0 ≤ (openDevice attempt later.driver).1)
    (hstarted : ∃ reg ∈ (spinRound outcome tps attempt now later).executor.timerRegs,
      reg.channel = ch ∧ reg.task.running = true) :
    ∃ i, channelOf ch = some i ∧
      (RunsAtPeriod tps periodMs ((spinRound outcome tps attempt now later).driver.channels i) ↔
        PeriodFits tps periodMs) := by
  have hnumbered : Numbered w :=
    hbefore.always numbered_step (numbered_rtExecutor hnew hidle)
  obtain ⟨⟨i, hchannel⟩, hentry⟩ := registerRtTimer_accepted hregister hreturned
  have hregistered : Numbered { w with executor := executor } := by
    have hexecutor : (registerRtTimer tps periodMs w.executor).2 = executor := by
      rw [hregister]
    exact hexecutor ▸ numbered_registerRtTimer hnumbered periodMs
  have hlater : Numbered later := hafter.always numbered_step hregistered
  have hkept := registered_run hafter hentry
  obtain ⟨hperiod, hactive⟩ :=
    spinRound_channel hlater htps hkept hopened hstarted hchannel
  refine ⟨i, hchannel, ?_⟩
  rw [← ticksToNs_near_iff htps]
  have hnonneg := ticksToNs_nonneg (rtMsToTicks tps periodMs) tps
  constructor
  · intro hruns
    have hnonzero : ticksToNs (rtMsToTicks tps periodMs) tps ≠ 0 := by
      simpa using hactive.symm.trans hruns.active
    exact ⟨lt_of_le_of_ne hnonneg hnonzero.symm, hperiod ▸ hruns.near⟩
  · rintro ⟨hpositive, hnear⟩
    exact ⟨hactive.trans (bne_iff_ne.mpr hpositive.ne'), hperiod.symm ▸ hnear⟩

/-! ## On a clock of 100 ticks a second -/

/-- The executor with a timer of 10 ms. -/
def tenMs : World ℕ :=
  { constructed unhooked with executor := (registerRtTimer 100 10 rtExecutor).2 }

/-- The first round with a second timer, on channel 1. -/
def firstRound (periodMs : UInt32) : World ℕ :=
  spinRound (fun _ => .starts) 100 (some (3, .successful)) 0
    { tenMs with executor := (registerRtTimer 100 periodMs tenMs.executor).2 }

theorem tenMs_run : ∃ before, Run (UseStep (fun _ => .starts) 100) (constructed unhooked)
    before tenMs ∧ before.map Move.label = [.registerRtTimer 10] :=
  ⟨_, .cons (.registerRtTimer _ 10) (.nil _), rfl⟩

theorem runsAtPeriod_twentyMs :
    (registerRtTimer 100 20 tenMs.executor).1 = 1 ∧
      RunsAtPeriod 100 20 ((firstRound 20).driver.channels 1) := by
  refine ⟨rfl, ?_⟩
  obtain ⟨before, hbefore, -⟩ := tenMs_run
  have hopened : 0 ≤ (openDevice (some (3, .successful)) tenMs.driver).1 := by decide
  have hstarted : ∃ reg ∈ (firstRound 20).executor.timerRegs,
      reg.channel = 1 ∧ reg.task.running = true := by decide
  obtain ⟨i, hchannel, hiff⟩ := runsAtPeriod_iff_fits (by decide) rfl (fun _ _ => rfl)
    hbefore rfl (by decide) (.nil _) hopened hstarted
  cases hchannel
  exact hiff.mpr ⟨by decide, by decide, by decide⟩

/-- A timer of 5 ms is accepted and its task is started, but its channel never becomes
active: the ticks round to zero, and the refused `START` is passed over. -/
theorem fiveMs_stays_inactive :
    (registerRtTimer 100 5 tenMs.executor).1 = 1 ∧
      0 ≤ (openDevice (some (3, .successful)) tenMs.driver).1 ∧
      (∃ reg ∈ (firstRound 5).executor.timerRegs,
        reg.channel = 1 ∧ reg.task.running = true) ∧
      ¬ RunsAtPeriod 100 5 ((firstRound 5).driver.channels 1) := by
  refine ⟨rfl, by decide, by decide, fun hruns => ?_⟩
  have hinactive : ((firstRound 5).driver.channels 1).active = false := by decide
  rw [hruns.active] at hinactive
  cases hinactive

end RosRtems.RtTimerPeriod
