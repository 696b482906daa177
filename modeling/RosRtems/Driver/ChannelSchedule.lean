import RosRtems.Core.PeriodicGrid
import RosRtems.Driver.DriverRuns

/-!
# Channels keep their schedule

A channel that was started at an instant expires at whole periods after it, however late
the interrupts come: an interrupt that finds it expired sends one event and leaves it at
the next expiration.  One thing can keep a channel from being served, a due channel
without a period, in which the handler stays.
-/

namespace RosRtems.ChannelSchedule

open RosRtems.PeriodicGrid RosRtems.TimerDriver RosRtems.Runs RosRtems.DriverRuns

/-! ## What is promised of a channel -/

/-- The interrupt handler at clock value `now` returns, and it sends one event for the
channel if the channel's time has come and none otherwise, leaves the channel at its next
expiration, and makes of the others what it would make of them whatever the channel is. -/
structure ServedAt (i : Channel) (start period : ℤ) (d : Driver) (now armNow : ℤ) :
    Prop where
  returns : ∃ fuel after, ptIsr fuel now armNow d = some after
  sent : ∀ fuel after, ptIsr fuel now armNow d = some after →
    after.sent.filter (fun event => event.channel = i) =
      d.sent.filter (fun event => event.channel = i) ++
        if (d.channels i).nextFireNs ≤ now then [notificationAt now d i] else []
  next : ∀ fuel after, ptIsr fuel now armNow d = some after →
    IsNext start period now (after.channels i).nextFireNs
  others : ∀ fuel after, ptIsr fuel now armNow d = some after →
    ∀ ch fuel' after', ptIsr fuel' now armNow (d.setChannel i ch) = some after' →
      ∀ j, j ≠ i → after'.channels j = after.channels j

/-- The channel is at one of its expirations, and served as promised by any interrupt
that comes next. -/
structure NeverDrifts (i : Channel) (start period : ℤ) (s : System) : Prop where
  onGrid : OnGrid start period (s.driver.channels i).nextFireNs
  served : ∀ now armNow : Uptime, s.clock.ns ≤ now.ns → now.ns ≤ armNow.ns →
    ServedAt i start period s.driver now.ns armNow.ns

/-- Every channel that an interrupt can find due has a period. -/
def PeriodsServable (s : System) : Prop :=
  ∀ now : Uptime, s.clock.ns ≤ now.ns → ∀ j, (s.driver.channels j).due now.ns = true →
    0 < (s.driver.channels j).periodNs

/-- The label is a `START` of the channel. -/
def Restarts (i : Channel) : Label → Prop
  | .control (.start (some cfg)) _ _ _ => channelOf cfg.channel = some i
  | _ => False

/-- The channel is active with a target and has the period. -/
def Configured (i : Channel) (period : ℤ) (s : System) : Prop :=
  (s.driver.channels i).active = true ∧ (s.driver.channels i).targetTask ≠ rtemsIdNone ∧
    (s.driver.channels i).periodNs = period

instance (i : Channel) (period : ℤ) (s : System) : Decidable (Configured i period s) :=
  inferInstanceAs (Decidable (_ ∧ _ ∧ _))

/-- Throughout the run the channel stays configured, and it is not started again. -/
structure LeftUnchanged (i : Channel) (period : ℤ) (s : System)
    (trace : List (Move System Label)) : Prop where
  configured : Throughout (Configured i period) s trace
  notRestarted : Admitted (fun _ label => ¬ Restarts i label) trace

theorem periodsServable_of_active {s : System}
    (hpositive : ∀ j, (s.driver.channels j).active = true →
      0 < (s.driver.channels j).periodNs) : PeriodsServable s :=
  fun _ _ j hdue => hpositive j (due_iff.mp hdue).1

/-! ## One interrupt -/

section Interrupt

variable {fuel fuel' : ℕ} {now : ℤ} {before after after' : ChannelState}

/-- How far the catch-up loop has to go does not depend on the fuel. -/
theorem dispatched_unique (hfirst : Dispatched fuel now before after)
    (hsecond : Dispatched fuel' now before after') : after' = after := by
  rw [Dispatched] at hfirst hsecond
  split at hfirst
  · rename_i hdue
    rw [if_pos hdue] at hsecond
    have hmore := WhileLoop.whileLoop_mono (Nat.le_max_left fuel fuel') hfirst
    have hmore' := WhileLoop.whileLoop_mono (Nat.le_max_right fuel fuel') hsecond
    exact Option.some.inj (hmore'.symm.trans hmore)
  · rename_i hdue
    rw [if_neg hdue] at hsecond
    rw [hfirst, hsecond]

/-- An interrupt leaves the channel at its next expiration. -/
theorem dispatched_isNext {start period : ℤ} (hdispatched : Dispatched fuel now before after)
    (hperiod : before.periodNs = period) (hpositive : 0 < period)
    (hactive : before.active = true) (htarget : before.targetTask ≠ rtemsIdNone)
    (hgrid : OnGrid start period before.nextFireNs)
    (hnear : before.nextFireNs ≤ now + period) :
    IsNext start period now after.nextFireNs := by
  cases hdue : before.due now with
  | true =>
      have hcaught := hdispatched.caughtUp hdue
      obtain ⟨turns, hturns⟩ := hcaught.schedule
      rw [hperiod] at hturns
      have hafter : OnGrid start period after.nextFireNs := by
        rw [hturns]
        exact hgrid.add_turns turns
      exact hafter.isNext hpositive hcaught.future (hperiod ▸ hcaught.near)
  | false =>
      rw [hdispatched.unchanged hdue]
      refine hgrid.isNext hpositive ?_ hnear
      by_contra hexpired
      rw [due_iff.mpr ⟨hactive, htarget, not_lt.mp hexpired⟩] at hdue
      cases hdue

end Interrupt

/-! ## The invariant -/

/-- The channel is at an expiration that lies at most a period ahead. -/
structure OnSchedule (i : Channel) (start period : ℤ) (s : System) : Prop where
  active : (s.driver.channels i).active = true
  target : (s.driver.channels i).targetTask ≠ rtemsIdNone
  periodNs : (s.driver.channels i).periodNs = period
  onGrid : OnGrid start period (s.driver.channels i).nextFireNs
  near : (s.driver.channels i).nextFireNs ≤ s.clock.ns + period

section Schedule

variable {i : Channel} {start period : ℤ} {s s' : System}

theorem OnSchedule.due_iff (hs : OnSchedule i start period s) (now : ℤ) :
    (s.driver.channels i).due now = true ↔ (s.driver.channels i).nextFireNs ≤ now := by
  rw [TimerDriver.due_iff]
  exact ⟨fun hdue => hdue.2.2, fun hexpired => ⟨hs.active, hs.target, hexpired⟩⟩

theorem OnSchedule.servedAt (hs : OnSchedule i start period s) (hpositive : 0 < period)
    (hservable : PeriodsServable s) {now armNow : Uptime} (hnow : s.clock.ns ≤ now.ns) :
    ServedAt i start period s.driver now.ns armNow.ns where
  returns := by
    obtain ⟨fuel, hsome⟩ := (isrTerminates_iff s.driver now.ns).mpr (hservable now hnow)
    exact ⟨fuel, Option.isSome_iff_exists.mp (hsome armNow.ns)⟩
  sent fuel after hafter := by
    rw [ptIsr_sent hafter i]
    simp only [hs.due_iff]
  next fuel after hafter := by
    have hnear := hs.near
    exact dispatched_isNext (ptIsr_dispatched hafter i) hs.periodNs hpositive hs.active
      hs.target hs.onGrid (by omega)
  others fuel after hafter ch fuel' after' hafter' j hj := by
    have hsame := ptIsr_dispatched hafter' j
    rw [setChannel_other _ _ hj] at hsame
    exact dispatched_unique (ptIsr_dispatched hafter j) hsame

theorem OnSchedule.neverDrifts (hs : OnSchedule i start period s) (hpositive : 0 < period)
    (hservable : PeriodsServable s) : NeverDrifts i start period s :=
  ⟨hs.onGrid, fun _ _ hnow _ => hs.servedAt hpositive hservable hnow⟩

/-- Whoever is served finds the handler returning. -/
theorem NeverDrifts.periodsServable (hs : NeverDrifts i start period s) :
    PeriodsServable s := by
  intro now hnow j hdue
  obtain ⟨fuel, after, hafter⟩ := (hs.served now now hnow le_rfl).returns
  by_contra hperiod
  have hdispatched := ptIsr_dispatched hafter j
  rw [Dispatched, if_pos hdue,
    catchUp_eq_none (not_lt.mp hperiod) (TimerDriver.due_iff.mp hdue).2.2] at hdispatched
  cases hdispatched

theorem step_clock_le {label : Label} (hstep : Step s label s') :
    s.clock.ns ≤ s'.clock.ns := by
  cases hstep with
  | control _ _ now armNow _ hnow harm => exact hnow.trans harm
  | interrupt _ now armNow _ _ hnow harm _ => exact hnow.trans harm
  | openDevice _ _ | closeDevice _ | closeStep _ _ _ | closeFinish _ => exact le_rfl

theorem interrupt_reads {now armNow : Uptime} (hstep : Step s (.interrupt now armNow) s') :
    s.clock.ns ≤ now.ns ∧ now.ns ≤ s'.clock.ns := by
  cases hstep with
  | interrupt _ _ _ _ _ hnow harm _ => exact ⟨hnow, harm⟩

/-- No step but a `START` moves the channel off its schedule while it stays configured. -/
theorem OnSchedule.step {label : Label} (hs : OnSchedule i start period s)
    (hstep : Step s label s') (hlabel : ¬ Restarts i label)
    (hkept : Configured i period s') : OnSchedule i start period s' := by
  have hclock := step_clock_le hstep
  rw [Configured] at hkept
  suffices hnext : OnGrid start period (s'.driver.channels i).nextFireNs ∧
      (s'.driver.channels i).nextFireNs ≤ s'.clock.ns + period from
    ⟨hkept.1, hkept.2.1, hkept.2.2, hnext.1, hnext.2⟩
  obtain ⟨hactive, htarget, hperiod, hgrid, hnear⟩ := hs
  have hchange := step_channelChange hstep i
  generalize hafter : s'.driver.channels i = after at hchange hkept ⊢
  generalize s.driver.channels i = before at *
  have hstays : before.nextFireNs ≤ s'.clock.ns + period := by omega
  cases hchange with
  | unchanged => exact ⟨hgrid, hstays⟩
  | dispatched fuel now armNow after hinterrupt hdispatched =>
      subst hinterrupt
      obtain ⟨-, harm⟩ := interrupt_reads hstep
      cases hdue : before.due now.ns with
      | true =>
          have hcaught := hdispatched.caughtUp hdue
          obtain ⟨turns, hturns⟩ := hcaught.schedule
          rw [hperiod] at hturns
          have hfar := hcaught.near
          exact ⟨hturns ▸ hgrid.add_turns turns, by omega⟩
      | false =>
          rw [hdispatched.unchanged hdue]
          exact ⟨hgrid, hstays⟩
  | periodTicks cfg tps now armNow _ _ _ => exact ⟨hgrid, hstays⟩
  | periodNs _ _ _ => exact ⟨hgrid, hstays⟩
  | started cfg tps now armNow hstart hchannel _ =>
      subst hstart
      exact absurd hchannel hlabel
  | stopped _ => simp at hkept
  | retargeted cfg tps now armNow _ _ => exact ⟨hgrid, hstays⟩

/-- The accepted `START` puts the channel on its schedule. -/
theorem OnSchedule.of_start {cfg : TimerConfig} {tps : Interval} {now armNow : Uptime}
    (hstep : Step s (.control (.start (some cfg)) tps now armNow) s')
    (hchannel : channelOf cfg.channel = some i)
    (hkept : Configured i period s') (hpositive : 0 < period) :
    OnSchedule i now.ns period s' := by
  rw [Configured] at hkept
  cases hstep with
  | control _ _ _ _ hidle hnow harm =>
      simp only [rtssControl, controlStart, withChannel, hchannel] at hkept ⊢
      by_cases hzero : (s.driver.channels i).periodNs = 0
      · simp only [if_pos hzero, reject] at hkept
        omega
      · simp only [if_neg hzero, accept, rearmPt_channels, setChannel_same] at hkept ⊢
        obtain ⟨-, htarget, hperiod⟩ := hkept
        constructor
        case active => simp
        case target => simpa using htarget
        case periodNs => simpa using hperiod
        case onGrid =>
          simp only [rearmPt_channels, setChannel_same, hperiod]
          exact onGrid_first now.ns period
        case near =>
          simp only [rearmPt_channels, setChannel_same, hperiod]
          linarith

/-- A channel that has been started and is left unchanged never drifts throughout a run
exactly when every channel that an interrupt can find due has a period. -/
theorem neverDrifts_throughout_iff {cfg : TimerConfig} {tps : Interval}
    {now armNow : Uptime} {trace : List (Move System Label)} {finish : System}
    (hstart : Step s (.control (.start (some cfg)) tps now armNow) s')
    (hchannel : channelOf cfg.channel = some i) (hpositive : 0 < period)
    (hrun : Run Step s' trace finish) (hunchanged : LeftUnchanged i period s' trace) :
    Throughout (NeverDrifts i now.ns period) s' trace ↔ Throughout PeriodsServable s' trace := by
  constructor
  · exact Throughout.mono fun _ => NeverDrifts.periodsServable
  · intro hservable
    have hfirst := OnSchedule.of_start hstart hchannel hunchanged.configured.1 hpositive
    have hkeep : ∀ source label target, OnSchedule i now.ns period source →
        ¬ Restarts i label → Step source label target → Configured i period target →
          OnSchedule i now.ns period target :=
      fun _ _ _ hs hlabel hstep hkept => hs.step hstep hlabel hkept
    have hschedule := hrun.throughout_of_kept hkeep hfirst hunchanged.notRestarted
      hunchanged.configured
    exact (hschedule.and hservable).mono
      fun _ hs => hs.1.neverDrifts hpositive hs.2

end Schedule

/-! ## A late interrupt, and a handler that stays in another channel -/

def atTwentyFiveMs : Uptime := ⟨25000000, by decide, by decide⟩

/-- The opened device after the commands, given at boot. -/
def commanded (cmds : List Command) : System :=
  { booted atBoot with
    driver := cmds.foldl (fun d cmd => (rtssControl d 100 0 0 cmd).driver)
      (rtssOpen .successful rtssInit).2 }

theorem commanded_snoc (cmds : List Command) (cmd : Command) :
    Step (commanded cmds) (.control cmd 100 atBoot atBoot) (commanded (cmds ++ [cmd])) := by
  have hstep := Step.control (commanded cmds) cmd 100 atBoot atBoot rfl le_rfl le_rfl
  rw [commanded, commanded, List.foldl_append]
  exact hstep

theorem commanded_run (cmds : List Command) :
    ∃ trace, Run Step (booted atBoot) trace (commanded cmds) := by
  induction cmds using List.reverseRecOn with
  | nil => exact ⟨_, .cons (.openDevice _ .successful rfl) (.nil _)⟩
  | append_singleton cmds cmd ih =>
      obtain ⟨trace, hrun⟩ := ih
      exact ⟨_, hrun.snoc (commanded_snoc cmds cmd)⟩

/-- Channel 0 has a period of one 10 ms tick and a target. -/
def configureFirst : List Command := [.setPeriod (some ⟨0, 1⟩), .setTask (some ⟨0, 1⟩)]

/-- An interrupt that comes two periods late sends one event and leaves the channel at
the expiration after it. -/
theorem lateInterrupt_neverDrifts : ∃ trace finish,
    Run Step (commanded (configureFirst ++ [.start (some ⟨0, 0⟩)])) trace finish ∧
      Throughout (NeverDrifts 0 0 10000000)
        (commanded (configureFirst ++ [.start (some ⟨0, 0⟩)])) trace ∧
      (finish.driver.channels 0).nextFireNs = 30000000 ∧
      finish.driver.sent = [⟨0, 1, 10000000, 25000000⟩] := by
  have hrun : Run Step (commanded (configureFirst ++ [.start (some ⟨0, 0⟩)])) _ _ :=
    .cons (.interrupt _ 3 atTwentyFiveMs atTwentyFiveMs _ rfl (by decide) le_rfl rfl) (.nil _)
  refine ⟨_, _, hrun, ?_, by decide, by decide⟩
  refine (neverDrifts_throughout_iff (i := 0) (commanded_snoc configureFirst _) rfl
    (by decide) hrun ⟨⟨by decide, ?_⟩, .cons id (.nil _)⟩).mpr ⟨?_, ?_⟩
  · intro move hmove
    obtain rfl := List.mem_singleton.mp hmove
    decide
  · exact periodsServable_of_active (by decide)
  · intro move hmove
    obtain rfl := List.mem_singleton.mp hmove
    exact periodsServable_of_active (by decide)

/-- Channel 0 is started and channel 1 is configured. -/
def configureBoth : List Command :=
  configureFirst ++ [.start (some ⟨0, 0⟩), .setPeriod (some ⟨1, 1⟩), .setTask (some ⟨1, 1⟩)]

/-- An accepted `SET_PERIOD` with zero ticks leaves channel 0 without a period: the next
interrupt stays in its catch-up loop, and no event is sent for channel 1, whose time has
come and whose own period is unchanged since its `START`. -/
theorem zeroPeriod_starves_other : ∃ before trace finish,
    Run Step (booted atBoot) before (commanded (configureBoth ++ [.start (some ⟨1, 0⟩)])) ∧
    Run Step (commanded (configureBoth ++ [.start (some ⟨1, 0⟩)])) trace finish ∧
      LeftUnchanged 1 10000000 (commanded (configureBoth ++ [.start (some ⟨1, 0⟩)])) trace ∧
      (finish.driver.channels 1).nextFireNs = atTenMs.ns ∧
      (∀ fuel, isrVisit fuel atTenMs.ns finish.driver 0 = none) ∧
      (∀ fuel armNow, ptIsr fuel atTenMs.ns armNow finish.driver = none) ∧
      ¬ Throughout (NeverDrifts 1 0 10000000)
        (commanded (configureBoth ++ [.start (some ⟨1, 0⟩)])) trace := by
  have hrun : Run Step (commanded (configureBoth ++ [.start (some ⟨1, 0⟩)])) _
      (commanded (configureBoth ++ [.start (some ⟨1, 0⟩)] ++ [.setPeriod (some ⟨0, 0⟩)])) :=
    .cons (commanded_snoc _ (.setPeriod (some ⟨0, 0⟩))) (.nil _)
  have hstuck : ∀ fuel, isrVisit fuel atTenMs.ns
      (commanded (configureBoth ++ [.start (some ⟨1, 0⟩)] ++ [.setPeriod (some ⟨0, 0⟩)])).driver
        0 = none := by
    intro fuel
    rw [isrVisit, if_pos (by decide), catchUp_eq_none (by decide) (by decide)]
    rfl
  have hnever : ∀ fuel armNow, ptIsr fuel atTenMs.ns armNow
      (commanded (configureBoth ++ [.start (some ⟨1, 0⟩)] ++
        [.setPeriod (some ⟨0, 0⟩)])).driver = none := by
    intro fuel armNow
    rw [ptIsr, isrLoop, List.finRange_succ, List.foldlM_cons, hstuck]
    rfl
  obtain ⟨before, hbefore⟩ := commanded_run (configureBoth ++ [.start (some ⟨1, 0⟩)])
  refine ⟨before, _, _, hbefore, hrun, ⟨⟨by decide, ?_⟩, .cons id (.nil _)⟩, by decide,
    hstuck, hnever, fun hall => ?_⟩
  · intro move hmove
    obtain rfl := List.mem_singleton.mp hmove
    decide
  · obtain ⟨fuel, after, hafter⟩ := ((hrun.finish_of_throughout hall).served atTenMs atTenMs
      (by decide) le_rfl).returns
    rw [hnever] at hafter
    cases hafter

end RosRtems.ChannelSchedule
