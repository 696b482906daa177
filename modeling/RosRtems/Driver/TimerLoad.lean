import RosRtems.Driver.ChannelSchedule

/-!
# The load of the private timer

Re-arming programs the delay to the nearest expiration in whole timer periods.  The
conversion multiplies before it divides, in `int64_t`, so it is exact for delays up to
some 92 seconds.  `SET_PERIOD_NS` admits no longer period, `SET_PERIOD` does.
-/

namespace RosRtems.TimerLoad

open RosRtems.TimerDriver RosRtems.Runs RosRtems.DriverRuns RosRtems.ChannelSchedule

/-- The channel is active, and no active channel expires before it. -/
structure Nearest (d : Driver) (i : Channel) : Prop where
  active : (d.channels i).active = true
  next_lt : (d.channels i).nextFireNs < int64Max
  least : ∀ j, (d.channels j).active = true →
    (d.channels i).nextFireNs ≤ (d.channels j).nextFireNs

/-- What `pt_arm_absolute` passes on: the time that is left, or one nanosecond. -/
def delayNs (now next : ℤ) : ℤ := max (next - now) 1

/-- The timer is programmed with the delay in periods of 10 ns, at least one and at most
`UINT32_MAX`, and the product of the conversion is one of `int64_t`. -/
structure ArmedFor (now next : ℤ) (pt : PrivateTimer) : Prop where
  enabled : pt.enabled = true
  load : (pt.load : ℤ) = min (max (delayNs now next / 10) 1) (2 ^ 32 - 1)
  fits : delayNs now next * ptPeriphclk ≤ int64Max

/-- Whenever `rearm_pt` runs next, it arms the timer for the nearest expiration. -/
def ArmsExactly (s : System) : Prop :=
  ∀ now : ℤ, s.clock.ns ≤ now → ∀ i, Nearest s.driver i →
    ArmedFor now (s.driver.channels i).nextFireNs (rearmPt now s.driver).pt

/-- The longest delay whose product with the peripheral clock is one of `int64_t`. -/
def longestDelayNs : ℤ := 92233720368

/-- The nearest expiration is at most the longest delay ahead. -/
def NearestInRange (s : System) : Prop :=
  ∀ i, Nearest s.driver i → (s.driver.channels i).nextFireNs ≤ s.clock.ns + longestDelayNs

/-- An accepted `SET_PERIOD` sets at most the longest delay. -/
def ShortPeriods (_ : System) (label : Label) : Prop :=
  ∀ cfg tps now armNow i, label = .control (.setPeriod (some cfg)) tps now armNow →
    channelOf cfg.channel = some i → tps ≠ 0 →
      ticksToNs cfg.periodTicks tps ≤ longestDelayNs

/-! ## Delays that fit -/

section Delay

variable {now next : ℤ} {d : Driver} {i : Channel}

theorem delay_fits_iff :
    delayNs now next * ptPeriphclk ≤ int64Max ↔ next ≤ now + longestDelayNs := by
  rw [delayNs, ptPeriphclk, int64Max, longestDelayNs]
  omega

/-- The nearest channel is the one that `rearm_pt` finds. -/
theorem rearmPt_nearest (hnearest : Nearest d i) (now : ℤ) :
    (rearmPt now d).pt =
      { enabled := true
        load := nsToPtLoad (delayNs now (d.channels i).nextFireNs)
        armedNs := now } := by
  rcases rearmPt_cases d now with ⟨-, hall⟩ | ⟨j, hactive, -, hleast, hpt⟩
  · exact absurd (hall i hnearest.active) (not_le.mpr hnearest.next_lt)
  · have hsame : (d.channels j).nextFireNs = (d.channels i).nextFireNs :=
      le_antisymm (hleast i hnearest.active) (hnearest.least j hactive)
    rw [hpt, hsame, delayNs]

theorem armedFor_iff (hnearest : Nearest d i) (now : ℤ) :
    ArmedFor now (d.channels i).nextFireNs (rearmPt now d).pt ↔
      (d.channels i).nextFireNs ≤ now + longestDelayNs := by
  rw [← delay_fits_iff]
  refine ⟨ArmedFor.fits, fun hfits => ?_⟩
  have hpositive : 1 ≤ delayNs now (d.channels i).nextFireNs := le_max_right _ _
  have hload := nsToPtLoad_eq hpositive (by rw [int64Max] at hfits; omega)
  rw [rearmPt_nearest hnearest now]
  exact ⟨rfl, hload, hfits⟩

/-- The delay is longest for the earliest clock value. -/
theorem armsExactly_iff (s : System) : ArmsExactly s ↔ NearestInRange s := by
  constructor
  · intro harms i hnearest
    exact (armedFor_iff hnearest s.clock.ns).mp (harms s.clock.ns le_rfl i hnearest)
  · intro hrange now hnow i hnearest
    have hnear := hrange i hnearest
    exact (armedFor_iff hnearest now).mpr (by omega)

end Delay

/-! ## Configurations that keep the delays short -/

/-- No channel has a longer period, and none expires later than that. -/
def DelaysShort (s : System) : Prop :=
  ∀ i, (s.driver.channels i).periodNs ≤ longestDelayNs ∧
    ((s.driver.channels i).active = true →
      (s.driver.channels i).nextFireNs ≤ s.clock.ns + longestDelayNs)

theorem delaysShort_booted (clock : Uptime) : DelaysShort (booted clock) := by
  intro i
  simp [booted, rtssInit, longestDelayNs]

theorem control_reads {s s' : System} {cmd : Command} {tps : Interval}
    {now armNow : Uptime} (hstep : Step s (.control cmd tps now armNow) s') :
    now.ns ≤ s'.clock.ns := by
  cases hstep with
  | control _ _ _ _ _ _ harm => exact harm

theorem delaysShort_step (s : System) (label : Label) (s' : System) (hs : DelaysShort s)
    (hshort : ShortPeriods s label) (hstep : Step s label s') : DelaysShort s' := by
  intro i
  have hclock := step_clock_le hstep
  obtain ⟨hperiod, hnext⟩ := hs i
  have hchange := step_channelChange hstep i
  generalize s'.driver.channels i = after at hchange ⊢
  generalize s.driver.channels i = before at *
  have hstays : before.active = true →
      before.nextFireNs ≤ s'.clock.ns + longestDelayNs := by
    intro hactive
    have hnear := hnext hactive
    omega
  cases hchange with
  | unchanged => exact ⟨hperiod, hstays⟩
  | dispatched fuel now armNow after hlabel hdispatched =>
      subst hlabel
      have harm := (interrupt_reads hstep).2
      cases hdue : before.due now.ns with
      | true =>
          have hcaught := hdispatched.caughtUp hdue
          have hnear := hcaught.near
          exact ⟨hcaught.periodNs ▸ hperiod, fun _ => by omega⟩
      | false =>
          rw [hdispatched.unchanged hdue]
          exact ⟨hperiod, hstays⟩
  | periodTicks cfg tps now armNow hlabel hchannel htps =>
      exact ⟨hshort cfg tps now armNow i hlabel hchannel htps, hstays⟩
  | periodNs period _ hmax =>
      rw [rtssTimerMaxPeriodNs] at hmax
      exact ⟨by simp only [longestDelayNs]; omega, hstays⟩
  | started cfg tps now armNow hlabel _ _ =>
      subst hlabel
      have harm := control_reads hstep
      exact ⟨hperiod, fun _ => by simp only; omega⟩
  | stopped _ => exact ⟨hperiod, by simp⟩
  | retargeted cfg tps now armNow _ _ => exact ⟨hperiod, hstays⟩

/-- Short periods keep the nearest expiration in range. -/
theorem nearestInRange_of_shortPeriods {clock : Uptime} {trace : List (Move System Label)}
    {finish : System} (hrun : Run Step (booted clock) trace finish)
    (hshort : Admitted ShortPeriods trace) :
    Throughout NearestInRange (booted clock) trace :=
  hrun.throughout (fun _ hs i hnearest => (hs i).2 hnearest.active) delaysShort_step
    (delaysShort_booted clock) hshort

/-- Re-arming is exact throughout a run exactly when the nearest expiration always lies
within the longest delay. -/
theorem armsExactly_throughout_iff {clock : Uptime} {trace : List (Move System Label)}
    {finish : System} (hrun : Run Step (booted clock) trace finish) :
    (Throughout ArmsExactly (booted clock) trace ↔
      Throughout NearestInRange (booted clock) trace) ∧
    (Admitted ShortPeriods trace → Throughout NearestInRange (booted clock) trace) :=
  ⟨⟨Throughout.mono fun s => (armsExactly_iff s).mp,
    Throughout.mono fun s => (armsExactly_iff s).mpr⟩, nearestInRange_of_shortPeriods hrun⟩

/-! ## A period of 92 seconds and one of 93 -/

/-- Channel 0 is started at boot with a period in ticks of 10 ms. -/
def startWithTicks (ticks : Interval) : List Command :=
  [.setPeriod (some ⟨0, ticks⟩), .start (some ⟨0, 0⟩)]

theorem startWithTicks_run (ticks : Interval) :
    Run Step (booted atBoot)
      [⟨booted atBoot, .openDevice .successful, commanded []⟩,
        ⟨commanded [], .control (.setPeriod (some ⟨0, ticks⟩)) 100 atBoot atBoot,
          commanded [.setPeriod (some ⟨0, ticks⟩)]⟩,
        ⟨commanded [.setPeriod (some ⟨0, ticks⟩)],
          .control (.start (some ⟨0, 0⟩)) 100 atBoot atBoot,
          commanded (startWithTicks ticks)⟩]
      (commanded (startWithTicks ticks)) :=
  .cons (.openDevice _ .successful rfl) <|
  .cons (commanded_snoc [] _) <| .cons (commanded_snoc [_] _) <| .nil _

/-- With a period of 92 s the timer is armed as far ahead as it can count. -/
theorem armsExactly_ninetyTwo : ∃ trace,
    Run Step (booted atBoot) trace (commanded (startWithTicks 9200)) ∧
      Throughout ArmsExactly (booted atBoot) trace ∧
      (commanded (startWithTicks 9200)).driver.pt = ⟨true, 4294967295, 0⟩ := by
  have hrun := startWithTicks_run 9200
  have hexact := armsExactly_throughout_iff hrun
  refine ⟨_, hrun, hexact.1.mpr (hexact.2 ?_), by decide⟩
  intro move hmove cfg tps now armNow i hlabel _ _
  simp only [List.mem_cons, List.not_mem_nil, or_false] at hmove
  rcases hmove with rfl | rfl | rfl <;> cases hlabel
  decide

/-- A period of 93 s is accepted, and the product of the conversion is none of `int64_t`. -/
theorem ninetyThree_overflows : ∃ trace,
    Run Step (booted atBoot) trace (commanded (startWithTicks 9300)) ∧
      Nearest (commanded (startWithTicks 9300)).driver 0 ∧
      ((commanded (startWithTicks 9300)).driver.channels 0).nextFireNs = 93000000000 ∧
      int64Max < delayNs 0 93000000000 * ptPeriphclk ∧
      ¬ Throughout ArmsExactly (booted atBoot) trace := by
  have hrun := startWithTicks_run 9300
  have hnearest : Nearest (commanded (startWithTicks 9300)).driver 0 :=
    ⟨by decide, by decide, by decide⟩
  refine ⟨_, hrun, hnearest, by decide, by decide, fun hall => ?_⟩
  have harmed := hrun.finish_of_throughout hall 0 (by decide) 0 hnearest
  exact absurd harmed.fits (by decide)

end RosRtems.TimerLoad
