import RosRtems.Driver.DeviceClients

/-!
# When the handler leaves nothing overdue

The handler advances the channels that are active and have a target, and re-arms
the countdown for the channels that are active.  An active channel without a
target falls between the two: it stays overdue, and the countdown is armed for an
expiration that is already past.
-/

namespace RosRtems.InterruptStorm

open RosRtems.TimerDriver RosRtems.Runs RosRtems.DriverRuns RosRtems.DeviceClients

/-- What the handler should leave when it has read `now`. -/
def Quiet (now : ℤ) (d : Driver) : Prop :=
  (∀ i, (d.channels i).active = true → now < (d.channels i).nextFireNs) ∧
    (d.pt.enabled = true ↔ d.AnyActive)

/-- Every interrupt of the run left the driver quiet. -/
def NoStorm (trace : List (Move System Label)) : Prop :=
  ∀ move ∈ trace, ∀ now armNow, move.label = .interrupt now armNow →
    Quiet now.ns move.target.driver

/-- An interrupt finds a target on every active channel that has expired. -/
def ExpiredTargeted (s : System) (label : Label) : Prop :=
  ∀ now armNow, label = .interrupt now armNow → ∀ i,
    (s.driver.channels i).active = true → (s.driver.channels i).nextFireNs ≤ now.ns →
      (s.driver.channels i).targetTask ≠ rtemsIdNone

/-- The countdown runs exactly while some channel is active. -/
theorem rearmPt_enabled_iff_anyActive {d : Driver} (now : ℤ)
    (hchannels : ∀ i, ChannelWellFormed (d.channels i)) :
    (rearmPt now d).pt.enabled = true ↔ d.AnyActive := by
  rw [rearmPt_enabled_iff]
  constructor
  · rintro ⟨i, hactive, -⟩
    exact ⟨i, hactive⟩
  · rintro ⟨i, hactive⟩
    exact ⟨i, hactive, (hchannels i).next_lt hactive⟩

/-- The step lemma: one interrupt leaves the driver quiet exactly when it finds
the expired channels targeted. -/
theorem interrupt_quiet_iff {s : System} {fuel : ℕ} {now armNow : Uptime}
    {after : Driver}
    (hisr : ptIsr fuel now.ns armNow.ns s.driver = some after)
    (hafter : ∀ i, ChannelWellFormed (after.channels i)) :
    Quiet now.ns after ↔ ExpiredTargeted s (.interrupt now armNow) := by
  have henabled : after.pt.enabled = true ↔ after.AnyActive := by
    obtain ⟨looped, -, rfl⟩ := ptIsr_result hisr
    rw [rearmPt_channels] at hafter
    simpa [Driver.AnyActive] using rearmPt_enabled_iff_anyActive armNow.ns hafter
  constructor
  · rintro ⟨hfuture, -⟩ now' armNow' hlabel i hactive hexpired hnone
    cases hlabel
    have hidle : (s.driver.channels i).due now.ns = false := by
      simp [ChannelState.due, hnone]
    have hsame := (ptIsr_dispatched hisr i).unchanged hidle
    have hlate := hfuture i (by rwa [hsame])
    rw [hsame] at hlate
    omega
  · intro htargeted
    refine ⟨fun i hactive => ?_, henabled⟩
    have hdispatched := ptIsr_dispatched hisr i
    have hwasActive := hdispatched.configuration.1 ▸ hactive
    cases hdue : (s.driver.channels i).due now.ns with
    | true => exact (hdispatched.caughtUp hdue).future
    | false =>
        rw [hdispatched.unchanged hdue]
        by_contra hexpired
        have htarget := htargeted now armNow rfl i hwasActive (not_lt.mp hexpired)
        have hmustBeDue := due_iff.mpr ⟨hwasActive, htarget, not_lt.mp hexpired⟩
        simp [hdue] at hmustBeDue

theorem move_quiet_iff {s s' : System} {label : Label} (hs' : WellFormed s')
    (hstep : Step s label s') :
    (∀ now armNow, label = .interrupt now armNow → Quiet now.ns s'.driver) ↔
      ExpiredTargeted s label := by
  cases hstep with
  | interrupt fuel now armNow after _ _ _ hisr =>
      rw [← interrupt_quiet_iff hisr hs']
      constructor
      · exact fun hall => hall now armNow rfl
      · rintro hquiet now' armNow' hlabel
        cases hlabel
        exact hquiet
  | _ => simp [ExpiredTargeted]

/-- A run is free of interrupt storms exactly when every interrupt of it finds a
target on every active channel that has expired. -/
theorem noStorm_iff (clock : Uptime) (trace : List (Move System Label))
    (finish : System) (hrun : Run Step (booted clock) trace finish) :
    NoStorm trace ↔ Admitted ExpiredTargeted trace := by
  have hmoves := hrun.moves_always
    (fun s label s' hs hstep => wellFormed_step hs hstep) (wellFormed_booted clock)
  have hiff : ∀ move ∈ trace, (∀ now armNow, move.label = .interrupt now armNow →
      Quiet now.ns move.target.driver) ↔ ExpiredTargeted move.source move.label := by
    intro move hmove
    obtain ⟨hstep, -, htarget⟩ := hmoves move hmove
    exact move_quiet_iff htarget hstep
  exact forall₂_congr hiff

/-! ## Callers that set the target first -/

/-- `START` addresses a channel that has a target, and the target of an active
channel is not taken away. -/
def TargetedUse (s : System) (label : Label) : Prop :=
  ∀ tps now armNow i,
    (∀ cfg : TimerConfig, label = .control (.start (some cfg)) tps now armNow →
      channelOf cfg.channel = some i →
      (s.driver.channels i).targetTask ≠ rtemsIdNone) ∧
    ∀ cfg : TimerTaskConfig, label = .control (.setTask (some cfg)) tps now armNow →
      channelOf cfg.channel = some i → (s.driver.channels i).active = true →
      cfg.targetTask ≠ rtemsIdNone

def ActiveTargeted (s : System) : Prop :=
  ∀ i, (s.driver.channels i).active = true →
    (s.driver.channels i).targetTask ≠ rtemsIdNone

theorem activeTargeted_step (s : System) (label : Label) (s' : System)
    (hs : ActiveTargeted s) (huse : TargetedUse s label) (hstep : Step s label s') :
    ActiveTargeted s' := by
  intro i
  have htargeted := hs i
  have hchange := step_channelChange hstep i
  generalize hafter : s'.driver.channels i = after at hchange
  generalize hbefore : s.driver.channels i = before at *
  intro hactive
  cases hchange with
  | unchanged => exact htargeted hactive
  | dispatched fuel now armNow after _ hdispatched =>
      obtain ⟨hsame, -, htarget⟩ := hdispatched.configuration
      rw [htarget]
      exact htargeted (hsame ▸ hactive)
  | periodTicks cfg tps now armNow _ _ _ => exact htargeted hactive
  | periodNs period _ _ => exact htargeted hactive
  | started cfg tps now armNow hlabel hchannel _ =>
      exact hbefore ▸ (huse tps now armNow i).1 cfg hlabel hchannel
  | stopped _ => simp at hactive
  | retargeted cfg tps now armNow hlabel hchannel =>
      exact (huse tps now armNow i).2 cfg hlabel hchannel (by rwa [hbefore])

/-- Setting targets before `START` is enough. -/
theorem expiredTargeted_of_targetedUse {clock : Uptime}
    {trace : List (Move System Label)} {finish : System}
    (hrun : Run Step (booted clock) trace finish)
    (huse : Admitted TargetedUse trace) : Admitted ExpiredTargeted trace := by
  have hstart : ActiveTargeted (booted clock) := by
    intro i hactive
    simp [booted, rtssInit] at hactive
  intro move hmove now armNow _ i hactive _
  exact (hrun.moves activeTargeted_step hstart huse move hmove).2.1 i hactive

theorem noStorm_periodic : ∃ trace finish,
    Run Step (booted atBoot) trace finish ∧ NoStorm trace ∧
      finish.driver.sent = [⟨0, 1, 10000000, 10000000⟩] := by
  have hrun : ∃ trace finish, Run Step (booted atBoot) trace finish ∧
      Admitted TargetedUse trace ∧
      finish.driver.sent = [⟨0, 1, 10000000, 10000000⟩] := by
    refine ⟨_, _,
      .cons (.openDevice _ .successful rfl) <|
      .cons (.control _ (.setPeriod (some ⟨0, 1⟩)) 100 atBoot atBoot rfl le_rfl le_rfl) <|
      .cons (.control _ (.setTask (some ⟨0, 1⟩)) 100 atBoot atBoot rfl le_rfl le_rfl) <|
      .cons (.control _ (.start (some ⟨0, 0⟩)) 100 atBoot atBoot rfl le_rfl le_rfl) <|
      .cons (.interrupt _ 2 atTenMs atTenMs _ rfl (by decide) le_rfl rfl) <|
      .nil _, ?_, by decide⟩
    intro move hmove tps now armNow i
    simp only [List.mem_cons, List.not_mem_nil, or_false] at hmove
    rcases hmove with rfl | rfl | rfl | rfl | rfl <;>
      refine ⟨fun cfg hlabel hchannel => ?_, fun cfg hlabel hchannel hactive => ?_⟩ <;>
      cases hlabel <;> cases hchannel <;> decide
  obtain ⟨trace, finish, hrun, huse, hsent⟩ := hrun
  exact ⟨trace, finish, hrun,
    (noStorm_iff atBoot trace finish hrun).mpr (expiredTargeted_of_targetedUse hrun huse),
    hsent⟩

/-! ## Callers that do not -/

/-- The opened device, before a client has configured anything. -/
def justOpened : System :=
  { booted atBoot with driver := (rtssOpen .successful rtssInit).2 }

/-- A client that leaves channel 0 active, untargeted and due gets an interrupt that
arms the countdown for ten nanoseconds and leaves the channel overdue. -/
theorem not_noStorm_of_untargeted {d after : Driver} (hclient : ControlRun justOpened d)
    (hinstalled : d.isrInstalled = true)
    (hisr : ptIsr 1 atTenMs.ns atTenMs.ns d = some after)
    (hactive : (after.channels 0).active = true)
    (hexpired : (after.channels 0).nextFireNs ≤ atTenMs.ns) :
    ∃ trace finish, Run Step (booted atBoot) trace finish ∧ finish.driver = after ∧
      ¬ NoStorm trace := by
  obtain ⟨trace, hclient⟩ := hclient
  have hstep := Step.interrupt { justOpened with driver := d } 1 atTenMs atTenMs after
    hinstalled (by decide : atBoot.ns ≤ atTenMs.ns) le_rfl hisr
  have hopen : Step (booted atBoot) (.openDevice .successful) justOpened :=
    .openDevice _ .successful rfl
  refine ⟨_, _, .cons hopen (hclient.snoc hstep), rfl, fun hnoStorm => ?_⟩
  have hquiet := hnoStorm _ (List.mem_cons_of_mem _
    (List.mem_append_right _ (List.mem_singleton_self _))) atTenMs atTenMs rfl
  exact absurd (hquiet.1 0 hactive) (not_lt.mpr hexpired)

/-- Both callers of the repository reach a storm: `TimeManager::start`, which never
sends `SET_TASK`, and `setup_timer_driver` when its `SET_TASK` has failed. -/
theorem untargeted_clients_storm :
    (∃ trace finish, Run Step (booted atBoot) trace finish ∧
      finish.driver = rearmPt atTenMs.ns
        (timeManagerStart 100 0 .event [⟨0, 1⟩] justOpened.driver) ∧
      finish.driver.pt = ⟨true, 1, 10000000⟩ ∧ ¬ NoStorm trace) ∧
    ∃ trace finish, Run Step (booted atBoot) trace finish ∧
      finish.driver = rearmPt atTenMs.ns
        (setupTimerChannel 100 0 justOpened.driver ⟨0, 1, 7, false⟩) ∧
      finish.driver.pt = ⟨true, 1, 10000000⟩ ∧ ¬ NoStorm trace := by
  constructor
  · obtain ⟨trace, finish, hrun, hfinish, hstorm⟩ := not_noStorm_of_untargeted
      (ControlRun.timeManagerStart (s := justOpened) 100 rfl .event [⟨0, 1⟩])
      rfl rfl rfl (by decide)
    exact ⟨trace, finish, hrun, hfinish, by rw [hfinish]; decide, hstorm⟩
  · obtain ⟨trace, finish, hrun, hfinish, hstorm⟩ := not_noStorm_of_untargeted
      (ControlRun.setupTimerChannel (s := justOpened) 100 rfl .refl ⟨0, 1, 7, false⟩)
      rfl rfl rfl (by decide)
    exact ⟨trace, finish, hrun, hfinish, by rw [hfinish]; decide, hstorm⟩

end RosRtems.InterruptStorm
