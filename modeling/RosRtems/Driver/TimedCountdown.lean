import RosRtems.Driver.DriverRuns

/-!
# One countdown serves all channels on time

The private timer raises its interrupt `load` periods of the 100 MHz clock after
it was armed, and the handler runs in no time.  Every operation and every
interrupt arms the one countdown anew, with the delay cut to whole timer periods
and at least one of them.  The bound on the delay of a channel is an invariant of
this timed system: a countdown armed by an interrupt starts before every expiration,
and one armed by an operation at most nine nanoseconds after it.
-/

namespace RosRtems.TimedCountdown

open RosRtems.TimerDriver RosRtems.Runs RosRtems.DriverRuns

/-- The driver, the present instant and the instant of the latest operation. -/
structure TimedState where
  driver : Driver
  now : Uptime
  lastOpNs : ℤ

/-- When the armed countdown raises its interrupt. -/
def fireNs (d : Driver) : ℤ := d.pt.armedNs + 10 * d.pt.load

/-- The operations in question.  The period needs no condition of its own: without
`SET_PERIOD` it was set by `SET_PERIOD_NS`, or `START` refuses the channel. -/
def Allowed (d : Driver) : Command → Prop
  | .start (some cfg) => ∀ i, channelOf cfg.channel = some i →
      (d.channels i).targetTask ≠ rtemsIdNone
  | .setTask (some cfg) => cfg.targetTask ≠ rtemsIdNone
  | .start none | .setTask none | .stop _ | .setPeriodNs _ => True
  | .setMode _ | .setPeriod _ | .unknown => False

inductive TimedLabel
  | tick
  | interrupt
  | operate (cmd : Command)

inductive TimedStep : TimedState → TimedLabel → TimedState → Prop
  | tick (s : TimedState) (later : Uptime) (hlater : s.now.ns ≤ later.ns)
      (hcountdown : s.driver.pt.enabled = true → later.ns ≤ fireNs s.driver) :
      TimedStep s .tick { s with now := later }
  | interrupt (s : TimedState) (fuel : ℕ) (after : Driver)
      (henabled : s.driver.pt.enabled = true) (hfire : s.now.ns = fireNs s.driver)
      (hisr : ptIsr fuel s.now.ns s.now.ns s.driver = some after) :
      TimedStep s .interrupt { s with driver := after }
  | operate (s : TimedState) (tps : Interval) (cmd : Command)
      (hspaced : s.lastOpNs + 20 ≤ s.now.ns) (hallowed : Allowed s.driver cmd) :
      TimedStep s (.operate cmd)
        { s with
          driver := (rtssControl s.driver tps s.now.ns s.now.ns cmd).driver
          lastOpNs := s.now.ns }

/-- The device just opened; the first operation may come at once. -/
def opened (now : Uptime) : TimedState where
  driver := (rtssOpen .successful rtssInit).2
  now := now
  lastOpNs := now.ns - 20

/-! ## The invariant -/

/-- An active channel of a countdown armed at `armed`. -/
structure OnSchedule (now armed lastOp : ℤ) (ch : ChannelState) : Prop where
  target : ch.targetTask ≠ rtemsIdNone
  period_min : rtssTimerMinPeriodNs ≤ ch.periodNs
  period_max : ch.periodNs ≤ rtssTimerMaxPeriodNs
  near : ch.nextFireNs ≤ now + rtssTimerMaxPeriodNs
  ahead : armed < ch.nextFireNs ∨ armed = lastOp ∧ armed ≤ ch.nextFireNs + 9

/-- The countdown ends no later than the expiration of `ch`, or after the one timer
period that it takes at least. -/
structure CountsDownTo (d : Driver) (now : ℤ) (ch : ChannelState) : Prop where
  pending : now ≤ fireNs d
  reaches : fireNs d ≤ max ch.nextFireNs (d.pt.armedNs + 10)

/-- A period that was never set, or one that `SET_PERIOD_NS` has accepted. -/
def PeriodSet (ch : ChannelState) : Prop :=
  ch.periodNs = 0 ∨
    rtssTimerMinPeriodNs ≤ ch.periodNs ∧ ch.periodNs ≤ rtssTimerMaxPeriodNs

/-- An event was sent for an expiration that had come, less than 20 ns before. -/
def SentOnTime (event : Notification) : Prop :=
  event.dueNs ≤ event.sentNs ∧ event.sentNs < event.dueNs + 20

structure CountdownInvariant (s : TimedState) : Prop where
  periodSet : ∀ i, PeriodSet (s.driver.channels i)
  onSchedule : ∀ i, (s.driver.channels i).active = true →
    OnSchedule s.now.ns s.driver.pt.armedNs s.lastOpNs (s.driver.channels i)
  countsDown : ∀ i, (s.driver.channels i).active = true →
    CountsDownTo s.driver s.now.ns (s.driver.channels i)
  enabled : s.driver.pt.enabled = true ↔ s.driver.AnyActive
  sent : ∀ event ∈ s.driver.sent, SentOnTime event

section Channel

variable {d : Driver} {now armed lastOp : ℤ} {ch : ChannelState}

/-- The bound: a countdown that has not ended leaves a channel less than two timer
periods overdue. -/
theorem OnSchedule.overdue_lt (hschedule : OnSchedule now d.pt.armedNs lastOp ch)
    (hcounts : CountsDownTo d now ch) : now < ch.nextFireNs + 20 := by
  have hpending := hcounts.pending
  have hreaches := hcounts.reaches
  rcases hschedule.ahead with hbefore | ⟨-, hafter⟩ <;> omega

/-- An operation two timer periods after the one before finds the channel at most
nine nanoseconds overdue. -/
theorem OnSchedule.overdue_le_of_spaced
    (hschedule : OnSchedule now d.pt.armedNs lastOp ch)
    (hcounts : CountsDownTo d now ch) (hspaced : lastOp + 20 ≤ now) :
    now ≤ ch.nextFireNs + 9 := by
  have hpending := hcounts.pending
  have hreaches := hcounts.reaches
  rcases hschedule.ahead with hbefore | ⟨hsame, hafter⟩ <;> omega

/-- After an operation that leaves the countdown alone, the countdown counts as one
that started before the expiration. -/
theorem OnSchedule.keepCountdown
    (hschedule : OnSchedule now d.pt.armedNs lastOp ch)
    (hcounts : CountsDownTo d now ch) (hspaced : lastOp + 20 ≤ now) :
    OnSchedule now d.pt.armedNs now ch := by
  have hpending := hcounts.pending
  have hreaches := hcounts.reaches
  refine { hschedule with ahead := .inl ?_ }
  rcases hschedule.ahead with hbefore | ⟨hsame, hafter⟩ <;> omega

theorem OnSchedule.restartCountdown
    (hschedule : OnSchedule now d.pt.armedNs lastOp ch)
    (hcounts : CountsDownTo d now ch) (hspaced : lastOp + 20 ≤ now) :
    OnSchedule now now now ch :=
  { hschedule with
    ahead := .inr ⟨rfl, hschedule.overdue_le_of_spaced hcounts hspaced⟩ }

end Channel

/-! ## Arming anew -/

theorem load_le {delta : ℤ} (hpositive : 1 ≤ delta)
    (hfits : delta ≤ rtssTimerMaxPeriodNs) : 10 * (nsToPtLoad delta : ℤ) ≤ max delta 10 := by
  rw [rtssTimerMaxPeriodNs] at hfits
  rw [nsToPtLoad_eq hpositive (by rw [ptPeriphclk]; omega)]
  omega

/-- Arming the countdown for channels that are on schedule. -/
theorem rearmPt_countdown {d : Driver} {now : Uptime} {lastOp : ℤ}
    (hschedule : ∀ i, (d.channels i).active = true →
      OnSchedule now.ns now.ns lastOp (d.channels i)) :
    (∀ i, (d.channels i).active = true →
      (rearmPt now.ns d).pt.armedNs = now.ns ∧
        CountsDownTo (rearmPt now.ns d) now.ns (d.channels i)) ∧
      ((rearmPt now.ns d).pt.enabled = true ↔ (rearmPt now.ns d).AnyActive) := by
  have hfits := now.fits
  rcases rearmPt_cases d now.ns with ⟨hoff, hall⟩ | ⟨j, hactive, -, hnearest, hpt⟩
  · have hinactive : ∀ i, (d.channels i).active ≠ true := by
      intro i hi
      have hfar := hall i hi
      have hnear := (hschedule i hi).near
      rw [rtssTimerMaxPeriodNs] at hnear
      rw [longestPeriodNs] at hfits
      omega
    refine ⟨fun i hi => absurd hi (hinactive i), ?_⟩
    simp only [hoff, Driver.AnyActive, rearmPt_channels, Bool.false_eq_true, false_iff,
      not_exists]
    exact hinactive
  · have hnear := (hschedule j hactive).near
    have hload : 10 * (nsToPtLoad (max ((d.channels j).nextFireNs - now.ns) 1) : ℤ) ≤
        max (max ((d.channels j).nextFireNs - now.ns) 1) 10 :=
      load_le (by omega) (by rw [rtssTimerMaxPeriodNs] at hnear ⊢; omega)
    have hone := one_le_nsToPtLoad (max ((d.channels j).nextFireNs - now.ns) 1)
    refine ⟨fun i hi => ⟨by rw [hpt], ?_, ?_⟩, ?_⟩
    · simp only [fireNs, hpt]
      omega
    · have hless := hnearest i hi
      simp only [fireNs, hpt]
      omega
    · simp only [hpt, Driver.AnyActive, rearmPt_channels, true_iff]
      exact ⟨j, hactive⟩

/-! ## Every step keeps the invariant -/

theorem tick_invariant {s : TimedState} (hs : CountdownInvariant s) {later : Uptime}
    (hlater : s.now.ns ≤ later.ns)
    (hcountdown : s.driver.pt.enabled = true → later.ns ≤ fireNs s.driver) :
    CountdownInvariant { s with now := later } where
  periodSet := hs.periodSet
  onSchedule i hactive := by
    have hschedule := hs.onSchedule i hactive
    exact { hschedule with near := by have := hschedule.near; simp only; omega }
  countsDown i hactive :=
    { pending := hcountdown (hs.enabled.mpr ⟨i, hactive⟩)
      reaches := (hs.countsDown i hactive).reaches }
  enabled := hs.enabled
  sent := hs.sent

/-- A channel that the handler has gone over, seen from a countdown armed now. -/
theorem OnSchedule.dispatched {fuel : ℕ} {now armed lastOp : ℤ}
    {before after : ChannelState} (hschedule : OnSchedule now armed lastOp before)
    (hactive : before.active = true) (hdispatched : Dispatched fuel now before after) :
    OnSchedule now now lastOp after := by
  cases hdue : before.due now with
  | true =>
      have hcaught := hdispatched.caughtUp hdue
      constructor
      case target => rw [hcaught.targetTask]; exact hschedule.target
      case period_min => rw [hcaught.periodNs]; exact hschedule.period_min
      case period_max => rw [hcaught.periodNs]; exact hschedule.period_max
      case near =>
        have hnear := hcaught.near
        have hmax := hschedule.period_max
        omega
      case ahead => exact .inl hcaught.future
  | false =>
      rw [hdispatched.unchanged hdue]
      refine { hschedule with ahead := .inl ?_ }
      by_contra hexpired
      have hmustBeDue :=
        due_iff.mpr ⟨hactive, hschedule.target, not_lt.mp hexpired⟩
      simp [hdue] at hmustBeDue

theorem interrupt_invariant {s : TimedState} (hs : CountdownInvariant s) {fuel : ℕ}
    {after : Driver} (hisr : ptIsr fuel s.now.ns s.now.ns s.driver = some after) :
    CountdownInvariant { s with driver := after } := by
  obtain ⟨looped, hlooped, rfl⟩ := ptIsr_result hisr
  have hdispatched : ∀ i,
      Dispatched fuel s.now.ns (s.driver.channels i) (looped.channels i) :=
    fun i => hlooped.dispatched i (List.mem_finRange i)
  have hschedule : ∀ i, (looped.channels i).active = true →
      OnSchedule s.now.ns s.now.ns s.lastOpNs (looped.channels i) := by
    intro i hactive
    have hwasActive := (hdispatched i).configuration.1 ▸ hactive
    exact (hs.onSchedule i hwasActive).dispatched hwasActive (hdispatched i)
  obtain ⟨hcounts, henabled⟩ := rearmPt_countdown hschedule
  constructor
  case periodSet =>
    intro i
    simp only [rearmPt_channels, PeriodSet, (hdispatched i).configuration.2.1]
    exact hs.periodSet i
  case onSchedule =>
    intro i hactive
    rw [rearmPt_channels] at hactive ⊢
    rw [(hcounts i hactive).1]
    exact hschedule i hactive
  case countsDown =>
    intro i hactive
    rw [rearmPt_channels] at hactive ⊢
    exact (hcounts i hactive).2
  case enabled => exact henabled
  case sent =>
    obtain ⟨added, hsent, hadded⟩ := hlooped.sent
    intro event hevent
    rw [rearmPt_sent, hsent] at hevent
    rcases List.mem_append.mp hevent with hold | hnew
    · exact hs.sent event hold
    · obtain ⟨-, hsentNs, hdue, hdueNs, -⟩ := hadded event hnew
      obtain ⟨hactive, -, hexpired⟩ := due_iff.mp hdue
      have hbound := (hs.onSchedule _ hactive).overdue_lt (hs.countsDown _ hactive)
      exact ⟨by omega, by omega⟩

/-- An operation that changes one channel and leaves the countdown alone. -/
theorem configure_invariant {s : TimedState} (hs : CountdownInvariant s)
    (hspaced : s.lastOpNs + 20 ≤ s.now.ns) (i : Channel) {ch : ChannelState}
    (hsameActive : ch.active = (s.driver.channels i).active)
    (hsameNext : ch.nextFireNs = (s.driver.channels i).nextFireNs)
    (hperiod : PeriodSet ch)
    (hconfigured : ch.active = true → ch.targetTask ≠ rtemsIdNone ∧
      rtssTimerMinPeriodNs ≤ ch.periodNs ∧ ch.periodNs ≤ rtssTimerMaxPeriodNs) :
    CountdownInvariant
      { s with driver := s.driver.setChannel i ch, lastOpNs := s.now.ns } := by
  constructor
  case periodSet =>
    intro j
    rw [setChannel_channels]
    split
    · exact hperiod
    · exact hs.periodSet j
  case onSchedule =>
    intro j hactive
    simp only [setChannel_channels, setChannel_pt] at hactive ⊢
    split at hactive
    · rename_i hsame
      have hwas := hsameActive ▸ hactive
      have hkept :=
        (hs.onSchedule i hwas).keepCountdown (hs.countsDown i hwas) hspaced
      obtain ⟨htarget, hmin, hmax⟩ := hconfigured hactive
      rw [if_pos hsame]
      exact ⟨htarget, hmin, hmax, hsameNext ▸ hkept.near, hsameNext ▸ hkept.ahead⟩
    · rename_i hother
      rw [if_neg hother]
      exact (hs.onSchedule j hactive).keepCountdown (hs.countsDown j hactive) hspaced
  case countsDown =>
    intro j hactive
    simp only [setChannel_channels] at hactive ⊢
    split at hactive
    · rename_i hsame
      have hcounts := hs.countsDown i (hsameActive ▸ hactive)
      rw [if_pos hsame]
      exact ⟨hcounts.pending, hsameNext ▸ hcounts.reaches⟩
    · rename_i hother
      rw [if_neg hother]
      exact ⟨(hs.countsDown j hactive).pending, (hs.countsDown j hactive).reaches⟩
  case enabled =>
    rw [setChannel_pt, hs.enabled]
    refine exists_congr fun j => ?_
    rw [setChannel_channels]
    split
    · rename_i hsame
      rw [hsame, hsameActive]
    · rfl
  case sent => exact hs.sent

/-- An operation that changes one channel and arms the countdown anew. -/
theorem rearm_invariant {s : TimedState} (hs : CountdownInvariant s)
    (hspaced : s.lastOpNs + 20 ≤ s.now.ns) (i : Channel) {ch : ChannelState}
    (hperiod : PeriodSet ch)
    (hschedule : ch.active = true → OnSchedule s.now.ns s.now.ns s.now.ns ch) :
    CountdownInvariant
      { s with
        driver := rearmPt s.now.ns (s.driver.setChannel i ch)
        lastOpNs := s.now.ns } := by
  have hall : ∀ j, ((s.driver.setChannel i ch).channels j).active = true →
      OnSchedule s.now.ns s.now.ns s.now.ns ((s.driver.setChannel i ch).channels j) := by
    intro j hactive
    rw [setChannel_channels] at hactive ⊢
    split at hactive
    · rename_i hsame
      rw [if_pos hsame]
      exact hschedule hactive
    · rename_i hother
      rw [if_neg hother]
      exact (hs.onSchedule j hactive).restartCountdown (hs.countsDown j hactive) hspaced
  obtain ⟨hcounts, henabled⟩ := rearmPt_countdown hall
  constructor
  case periodSet =>
    intro j
    simp only [rearmPt_channels, setChannel_channels]
    split
    · exact hperiod
    · exact hs.periodSet j
  case onSchedule =>
    intro j hactive
    rw [rearmPt_channels] at hactive ⊢
    rw [(hcounts j hactive).1]
    exact hall j hactive
  case countsDown =>
    intro j hactive
    rw [rearmPt_channels] at hactive ⊢
    exact (hcounts j hactive).2
  case enabled => exact henabled
  case sent =>
    intro event hevent
    rw [rearmPt_sent] at hevent
    exact hs.sent event hevent

/-- A command that the driver refuses or ignores still counts as an operation. -/
theorem refused_invariant {s : TimedState} (hs : CountdownInvariant s)
    (hspaced : s.lastOpNs + 20 ≤ s.now.ns) :
    CountdownInvariant { s with lastOpNs := s.now.ns } :=
  { hs with
    onSchedule := fun i hactive =>
      (hs.onSchedule i hactive).keepCountdown (hs.countsDown i hactive) hspaced
    countsDown := fun i hactive =>
      ⟨(hs.countsDown i hactive).pending, (hs.countsDown i hactive).reaches⟩ }

theorem operate_invariant {s : TimedState} (hs : CountdownInvariant s) {tps : Interval}
    {cmd : Command} {after : Driver} (hspaced : s.lastOpNs + 20 ≤ s.now.ns)
    (hallowed : Allowed s.driver cmd)
    (heffect : ControlEffect s.driver tps s.now.ns s.now.ns cmd after) :
    CountdownInvariant { s with driver := after, lastOpNs := s.now.ns } := by
  cases heffect with
  | unchanged => exact refused_invariant hs hspaced
  | setPeriod cfg i _ _ => exact absurd hallowed (by simp [Allowed])
  | setPeriodNs cfg i _ hmin hmax =>
      refine configure_invariant hs hspaced i rfl rfl (.inr ⟨hmin, hmax⟩) fun hactive => ?_
      exact ⟨(hs.onSchedule i hactive).target, hmin, hmax⟩
  | start cfg i hchannel hperiod =>
      obtain ⟨hmin, hmax⟩ := (hs.periodSet i).resolve_left hperiod
      refine rearm_invariant hs hspaced i (hs.periodSet i) fun _ => ?_
      have hpositive : 0 < rtssTimerMinPeriodNs := by decide
      exact ⟨hallowed i hchannel, hmin, hmax, by simp only; omega,
        .inl (by simp only; omega)⟩
  | stop cfg i _ =>
      exact rearm_invariant hs hspaced i (hs.periodSet i) (by simp)
  | setTask cfg i _ =>
      refine configure_invariant hs hspaced i rfl rfl (hs.periodSet i) fun hactive => ?_
      have hschedule := hs.onSchedule i hactive
      exact ⟨hallowed, hschedule.period_min, hschedule.period_max⟩

theorem countdownInvariant_step (s : TimedState) (label : TimedLabel) (s' : TimedState)
    (hs : CountdownInvariant s) (hstep : TimedStep s label s') : CountdownInvariant s' := by
  cases hstep with
  | tick later hlater hcountdown => exact tick_invariant hs hlater hcountdown
  | interrupt fuel after _ _ hisr => exact interrupt_invariant hs hisr
  | operate tps cmd hspaced hallowed =>
      exact operate_invariant hs hspaced hallowed (rtssControl_effect _ _ _ _ _)

theorem countdownInvariant_opened (now : Uptime) : CountdownInvariant (opened now) where
  periodSet i := .inl rfl
  onSchedule i hactive := absurd hactive (by simp [opened, rtssOpen, installPtIsr, rtssInit])
  countsDown i hactive := absurd hactive (by simp [opened, rtssOpen, installPtIsr, rtssInit])
  enabled := by simp [opened, rtssOpen, installPtIsr, rtssInit, Driver.AnyActive]
  sent := by simp [opened, rtssOpen, installPtIsr, rtssInit]

/-! ## Timeliness -/

/-- What holds at every instant: no active channel is overdue by 20 ns, every event
was sent on time, and the handler returns if it runs now. -/
structure OnTime (s : TimedState) : Prop where
  overdue : ∀ i, (s.driver.channels i).active = true →
    s.now.ns < (s.driver.channels i).nextFireNs + 20
  sent : ∀ event ∈ s.driver.sent, SentOnTime event
  returns : IsrTerminates s.driver s.now.ns

theorem CountdownInvariant.onTime (s : TimedState) (hs : CountdownInvariant s) :
    OnTime s := by
  refine ⟨fun i hactive => ?_, hs.sent, ?_⟩
  · exact (hs.onSchedule i hactive).overdue_lt (hs.countsDown i hactive)
  · rw [isrTerminates_iff]
    intro i hdue
    have hmin := (hs.onSchedule i (due_iff.mp hdue).1).period_min
    rw [rtssTimerMinPeriodNs] at hmin
    omega

/-- The channel that a command names. -/
def commandChannel : Command → Option Channel
  | .setPeriod (some cfg) | .start (some cfg) | .stop (some cfg) =>
      channelOf cfg.channel
  | .setPeriodNs (some cfg) => channelOf cfg.channel
  | .setTask (some cfg) => channelOf cfg.channel
  | _ => none

/-- A step that is not an operation on the channel moves its expiration by whole
periods only, and only once it has expired. -/
def Undisturbed (move : Move TimedState TimedLabel) : Prop :=
  ∀ i, (∀ cmd, move.label = .operate cmd → commandChannel cmd ≠ some i) →
    ∃ turns : ℕ, move.target.driver.channels i =
      { move.source.driver.channels i with
        nextFireNs := (move.source.driver.channels i).nextFireNs +
          turns * (move.source.driver.channels i).periodNs } ∧
      (turns ≠ 0 → (move.source.driver.channels i).nextFireNs ≤ move.source.now.ns)

theorem undisturbed_of_same {move : Move TimedState TimedLabel} {i : Channel}
    (hsame : move.target.driver.channels i = move.source.driver.channels i) :
    ∃ turns : ℕ, move.target.driver.channels i =
      { move.source.driver.channels i with
        nextFireNs := (move.source.driver.channels i).nextFireNs +
          turns * (move.source.driver.channels i).periodNs } ∧
      (turns ≠ 0 → (move.source.driver.channels i).nextFireNs ≤ move.source.now.ns) :=
  ⟨0, by simp [hsame], by simp⟩

theorem control_other {d after : Driver} {tps : Interval} {now armNow : ℤ}
    {cmd : Command} (heffect : ControlEffect d tps now armNow cmd after) {i : Channel}
    (hother : commandChannel cmd ≠ some i) : after.channels i = d.channels i := by
  have hne : ∀ j, commandChannel cmd = some j → i ≠ j := by
    rintro j hnamed rfl
    exact hother hnamed
  cases heffect with
  | unchanged => rfl
  | setPeriod cfg j hchannel _ => exact setChannel_other d _ (hne j hchannel)
  | setPeriodNs cfg j hchannel _ _ => exact setChannel_other d _ (hne j hchannel)
  | start cfg j hchannel _ =>
      rw [rearmPt_channels, setChannel_other d _ (hne j hchannel)]
  | stop cfg j hchannel =>
      rw [rearmPt_channels, setChannel_other d _ (hne j hchannel)]
  | setTask cfg j hchannel => exact setChannel_other d _ (hne j hchannel)

theorem step_undisturbed {s s' : TimedState} {label : TimedLabel}
    (hstep : TimedStep s label s') : Undisturbed ⟨s, label, s'⟩ := by
  intro i hother
  cases hstep with
  | tick later _ _ => exact undisturbed_of_same rfl
  | operate tps cmd _ _ =>
      exact undisturbed_of_same
        (control_other (rtssControl_effect _ _ _ _ _) (hother cmd rfl))
  | interrupt fuel after _ _ hisr =>
      have hdispatched := ptIsr_dispatched hisr i
      cases hdue : (s.driver.channels i).due s.now.ns with
      | false => exact undisturbed_of_same (hdispatched.unchanged hdue)
      | true =>
          have hcaught := hdispatched.caughtUp hdue
          obtain ⟨turns, hturns⟩ := hcaught.schedule
          refine ⟨turns, ?_, fun _ => (due_iff.mp hdue).2.2⟩
          simp only [← hturns]
          simp only [← hcaught.active, ← hcaught.periodNs, ← hcaught.targetTask]

/-- One hardware timer serves all channels on time: in every run of operations at
least two timer periods apart, no channel is ever overdue by 20 ns, no event is
sent early, and no channel is delayed or advanced by what is done to the others. -/
theorem countdown_on_time (start : Uptime) (trace : List (Move TimedState TimedLabel))
    (finish : TimedState) (hrun : Run TimedStep (opened start) trace finish) :
    Throughout OnTime (opened start) trace ∧ ∀ move ∈ trace, Undisturbed move := by
  have hmoves := hrun.moves_always countdownInvariant_step (countdownInvariant_opened start)
  refine ⟨⟨(countdownInvariant_opened start).onTime, fun move hmove => ?_⟩,
    fun move hmove => ?_⟩
  · exact (hmoves move hmove).2.2.onTime
  · exact step_undisturbed (hmoves move hmove).1

theorem early_fits {ns : ℕ} (hearly : ns < 2000) :
    (ns : ℤ) + longestPeriodNs < int64Max := by
  rw [longestPeriodNs, int64Max]
  omega

/-- An instant of the first two microseconds. -/
def instant (ns : Fin 2000) : Uptime where
  ns := ns.val
  nonneg := Int.natCast_nonneg ns.val
  fits := early_fits ns.isLt

/-- Two channels with one countdown.  The start of the second one cuts the delay of the first
to 930 ns, so that an interrupt comes 5 ns early and the one that is armed then 5 ns late. -/
theorem countdown_on_time_two_channels : ∃ trace finish,
    Run TimedStep (opened (instant 0)) trace finish ∧
      finish.driver.sent = [⟨0, 1, 1040, 1045⟩, ⟨1, 2, 1605, 1605⟩] ∧
      Throughout OnTime (opened (instant 0)) trace ∧
      ∀ move ∈ trace, Undisturbed move := by
  have hrun : ∃ trace finish, Run TimedStep (opened (instant 0)) trace finish ∧
      finish.driver.sent = [⟨0, 1, 1040, 1045⟩, ⟨1, 2, 1605, 1605⟩] := by
    refine ⟨_, _,
      .cons (.operate _ 100 (.setPeriodNs (some ⟨0, 1000⟩)) (by decide) trivial) <|
      .cons (.tick _ (instant 20) (by decide) (by decide)) <|
      .cons (.operate _ 100 (.setTask (some ⟨0, 1⟩)) (by decide)
        (by rw [Allowed]; decide)) <|
      .cons (.tick _ (instant 40) (by decide) (by decide)) <|
      .cons (.operate _ 100 (.start (some ⟨0, 0⟩)) (by decide)
        (by rintro i ⟨⟩; decide)) <|
      .cons (.tick _ (instant 60) (by decide) (by decide)) <|
      .cons (.operate _ 100 (.setPeriodNs (some ⟨1, 1500⟩)) (by decide) trivial) <|
      .cons (.tick _ (instant 80) (by decide) (by decide)) <|
      .cons (.operate _ 100 (.setTask (some ⟨1, 2⟩)) (by decide)
        (by rw [Allowed]; decide)) <|
      .cons (.tick _ (instant 105) (by decide) (by decide)) <|
      .cons (.operate _ 100 (.start (some ⟨1, 0⟩)) (by decide)
        (by rintro i ⟨⟩; decide)) <|
      .cons (.tick _ (instant 1035) (by decide) (by decide)) <|
      .cons (.interrupt _ 2 _ (by decide) (by decide) rfl) <|
      .cons (.tick _ (instant 1045) (by decide) (by decide)) <|
      .cons (.interrupt _ 2 _ (by decide) (by decide) rfl) <|
      .cons (.tick _ (instant 1605) (by decide) (by decide)) <|
      .cons (.interrupt _ 2 _ (by decide) (by decide) rfl) <|
      .nil _, by decide⟩
  obtain ⟨trace, finish, hrun, hsent⟩ := hrun
  exact ⟨trace, finish, hrun, hsent, countdown_on_time (instant 0) trace finish hrun⟩

end RosRtems.TimedCountdown
