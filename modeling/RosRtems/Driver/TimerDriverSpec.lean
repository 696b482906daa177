import RosRtems.Driver.TimerDriver
import Mathlib.Data.Int.Order.Basic
import Mathlib.Data.Finset.Lattice.Fold
import Mathlib.Data.Fintype.Basic
import Mathlib.Tactic.Linarith
import Mathlib.Tactic.Ring

/-!
# What each driver function does

One specification for each function of the driver.  The later modules reason
from these and never unfold the functions themselves.
-/

namespace RosRtems.TimerDriver

open RosRtems.WhileLoop

/-! ## Channel updates -/

@[simp]
theorem setChannel_same (d : Driver) (i : Channel) (ch : ChannelState) :
    (d.setChannel i ch).channels i = ch := by
  simp [Driver.setChannel]

theorem setChannel_other (d : Driver) {i j : Channel} (ch : ChannelState)
    (hne : j ≠ i) : (d.setChannel i ch).channels j = d.channels j := by
  simp [Driver.setChannel, hne]

theorem setChannel_channels (d : Driver) (i j : Channel) (ch : ChannelState) :
    (d.setChannel i ch).channels j = if j = i then ch else d.channels j := by
  by_cases hne : j = i
  · subst hne
    simp
  · simp [setChannel_other d ch hne, hne]

@[simp]
theorem setChannel_opened (d : Driver) (i : Channel) (ch : ChannelState) :
    (d.setChannel i ch).opened = d.opened := rfl

@[simp]
theorem setChannel_pt (d : Driver) (i : Channel) (ch : ChannelState) :
    (d.setChannel i ch).pt = d.pt := rfl

/-! ## The load of the private timer -/

theorem one_le_nsToPtLoad (ns : ℤ) : 1 ≤ nsToPtLoad ns := by
  rw [nsToPtLoad]
  grind

theorem toInt64_of_mem {value : ℤ} (hlower : -2 ^ 63 ≤ value)
    (hupper : value < 2 ^ 63) : toInt64 value = value := by
  rw [toInt64]
  exact Int.bmod_eq_of_le (by omega) (by omega)

/-- Where the product fits `int64_t`, the load is the delay in whole timer
periods, at least one and at most `UINT32_MAX`. -/
theorem nsToPtLoad_eq {ns : ℤ} (hpositive : 1 ≤ ns)
    (hfits : ns * ptPeriphclk < 2 ^ 63) :
    (nsToPtLoad ns : ℤ) = min (max (ns / 10) 1) 0xFFFFFFFF := by
  have hproduct : toInt64 (ns * ptPeriphclk) = ns * ptPeriphclk :=
    toInt64_of_mem (by rw [ptPeriphclk]; omega) hfits
  have hquotient : (ns * ptPeriphclk).tdiv nsPerSecond = ns / 10 := by
    rw [Int.tdiv_eq_ediv_of_nonneg (by rw [ptPeriphclk]; omega)]
    rw [ptPeriphclk, nsPerSecond]
    omega
  simp only [nsToPtLoad, hproduct, hquotient]
  grind

/-! ## Arming -/

section Arming

variable (d : Driver) (now : ℤ)

/-- The invariant of the search loop: what it holds is below every active channel
seen so far, and is one of them unless it is still the initial value. -/
theorem foldl_nearestVisit (is : List Channel) (best : Option Channel × ℤ) :
    (is.foldl (nearestVisit d) best).2 ≤ best.2 ∧
      (∀ i ∈ is, (d.channels i).active = true →
        (is.foldl (nearestVisit d) best).2 ≤ (d.channels i).nextFireNs) ∧
      (is.foldl (nearestVisit d) best = best ∨
        ∃ i ∈ is, (d.channels i).active = true ∧
          (d.channels i).nextFireNs < best.2 ∧
          is.foldl (nearestVisit d) best = (some i, (d.channels i).nextFireNs)) := by
  induction is generalizing best with
  | nil => simp
  | cons i is ih =>
      obtain ⟨hbelow, hall, hone⟩ := ih (nearestVisit d best i)
      simp only [List.foldl_cons]
      by_cases hcloser : (d.channels i).active = true ∧
          (d.channels i).nextFireNs < best.2
      · have hvisit : nearestVisit d best i =
            (some i, (d.channels i).nextFireNs) := by
          simp [nearestVisit, hcloser.1, hcloser.2]
        rw [hvisit] at hbelow hall hone ⊢
        refine ⟨hbelow.trans hcloser.2.le, ?_, ?_⟩
        · intro j hj hactive
          rcases List.mem_cons.mp hj with rfl | hj
          · exact hbelow
          · exact hall j hj hactive
        · rcases hone with hsame | ⟨j, hj, hactive, hless, hresult⟩
          · exact .inr ⟨i, List.mem_cons_self .., hcloser.1, hcloser.2, hsame⟩
          · exact .inr ⟨j, List.mem_cons_of_mem _ hj, hactive,
              hless.trans hcloser.2, hresult⟩
      · have hvisit : nearestVisit d best i = best := by
          simp only [nearestVisit, Bool.and_eq_true, decide_eq_true_eq]
          rw [if_neg hcloser]
        rw [hvisit] at hbelow hall hone ⊢
        refine ⟨hbelow, ?_, ?_⟩
        · intro j hj hactive
          rcases List.mem_cons.mp hj with rfl | hj
          · exact hbelow.trans (not_lt.mp fun hless => hcloser ⟨hactive, hless⟩)
          · exact hall j hj hactive
        · rcases hone with hsame | ⟨j, hj, hrest⟩
          · exact .inl hsame
          · exact .inr ⟨j, List.mem_cons_of_mem _ hj, hrest⟩

/-- `find_nearest_expiration` finds nothing, and then no active channel expires
before `INT64_MAX`, or it finds an active channel that none precedes. -/
theorem findNearestExpiration_cases :
    ((findNearestExpiration d).1 = none ∧
      ∀ i, (d.channels i).active = true → int64Max ≤ (d.channels i).nextFireNs) ∨
    ∃ i, (d.channels i).active = true ∧ (d.channels i).nextFireNs < int64Max ∧
      findNearestExpiration d = (some i, (d.channels i).nextFireNs) ∧
      ∀ j, (d.channels j).active = true →
        (d.channels i).nextFireNs ≤ (d.channels j).nextFireNs := by
  obtain ⟨-, hall, hone⟩ :=
    foldl_nearestVisit d (List.finRange rtssTimerMaxChannels) (none, int64Max)
  rcases hone with hsame | ⟨i, -, hactive, hless, hresult⟩
  · left
    refine ⟨congrArg Prod.fst hsame, fun i hactive => ?_⟩
    have := hall i (List.mem_finRange i) hactive
    rwa [hsame] at this
  · right
    refine ⟨i, hactive, hless, hresult, fun j hj => ?_⟩
    have := hall j (List.mem_finRange j) hj
    rwa [hresult] at this

@[simp]
theorem rearmPt_channels : (rearmPt now d).channels = d.channels := by
  rw [rearmPt]
  split <;> rfl

@[simp]
theorem rearmPt_opened : (rearmPt now d).opened = d.opened := by
  rw [rearmPt]
  split <;> rfl

@[simp]
theorem rearmPt_sent : (rearmPt now d).sent = d.sent := by
  rw [rearmPt]
  split <;> rfl

/-- Re-arming leaves the timer off when no active channel expires before
`INT64_MAX`, and otherwise counting down to the nearest expiration. -/
theorem rearmPt_cases :
    ((rearmPt now d).pt.enabled = false ∧
      ∀ i, (d.channels i).active = true → int64Max ≤ (d.channels i).nextFireNs) ∨
    ∃ i, (d.channels i).active = true ∧ (d.channels i).nextFireNs < int64Max ∧
      (∀ j, (d.channels j).active = true →
        (d.channels i).nextFireNs ≤ (d.channels j).nextFireNs) ∧
      (rearmPt now d).pt =
        { enabled := true
          load := nsToPtLoad (max ((d.channels i).nextFireNs - now) 1)
          armedNs := now } := by
  rcases findNearestExpiration_cases d with ⟨hnone, hall⟩ |
      ⟨i, hactive, hless, hfound, hall⟩
  · left
    refine ⟨?_, hall⟩
    rw [rearmPt]
    split
    · rfl
    · rename_i hsome
      simp [hsome] at hnone
  · right
    refine ⟨i, hactive, hless, hall, ?_⟩
    have hdelta : (if (d.channels i).nextFireNs - now < 1 then 1
        else (d.channels i).nextFireNs - now) =
        max ((d.channels i).nextFireNs - now) 1 := by
      split <;> omega
    simp only [rearmPt, hfound, ptArmAbsolute, ptArmDelta, hdelta]

theorem rearmPt_enabled_iff :
    (rearmPt now d).pt.enabled = true ↔
      ∃ i, (d.channels i).active = true ∧ (d.channels i).nextFireNs < int64Max := by
  rcases rearmPt_cases d now with ⟨hoff, hall⟩ | ⟨i, hactive, hless, -, hpt⟩
  · simp only [hoff, Bool.false_eq_true, false_iff, not_exists, not_and, not_lt]
    exact hall
  · simp only [hpt, true_iff]
    exact ⟨i, hactive, hless⟩

end Arming

/-! ## The catch-up loop -/

section CatchUp

variable {now : ℤ} {ch : ChannelState}

theorem catchUp_isSome_of_period_pos (hperiod : 0 < ch.periodNs) :
    ∃ fuel, (catchUp fuel now ch).isSome := by
  have hkeep : ∀ ch : ChannelState, 0 < ch.periodNs → ch.expired now = true →
      0 < ch.skipPeriod.periodNs := fun ch hch _ => hch
  have hlower : ∀ ch : ChannelState, 0 < ch.periodNs → ch.expired now = true →
      (now + 1 - ch.skipPeriod.nextFireNs).toNat < (now + 1 - ch.nextFireNs).toNat := by
    intro ch hch hexpired
    simp only [ChannelState.expired, decide_eq_true_eq] at hexpired
    simp only [ChannelState.skipPeriod]
    omega
  obtain ⟨fuel, result, hresult⟩ :=
    terminates_of_measure (fun ch : ChannelState => (now + 1 - ch.nextFireNs).toNat)
      hkeep hlower hperiod
  exact ⟨fuel, by simp [catchUp, hresult]⟩

/-- Without a positive period the loop is stuck at or below the clock value. -/
theorem catchUp_eq_none (hperiod : ch.periodNs ≤ 0) (hexpired : ch.nextFireNs ≤ now)
    (fuel : ℕ) : catchUp fuel now ch = none := by
  have hkeep : ∀ ch : ChannelState, ch.periodNs ≤ 0 ∧ ch.nextFireNs ≤ now →
      ch.skipPeriod.periodNs ≤ 0 ∧ ch.skipPeriod.nextFireNs ≤ now := by
    intro ch ⟨hch, hle⟩
    simp only [ChannelState.skipPeriod]
    omega
  by_contra hsome
  obtain ⟨result, hresult⟩ := Option.ne_none_iff_exists'.mp hsome
  exact not_terminates_of_stuck (fun ch hch => decide_eq_true hch.2) hkeep
    ⟨hperiod, hexpired⟩ ⟨fuel, result, hresult⟩

/-- What the catch-up loop makes of an expired channel: whole periods are added
until the expiration is in the future, and not more of them than that takes. -/
structure CaughtUp (now : ℤ) (before after : ChannelState) : Prop where
  active : after.active = before.active
  periodNs : after.periodNs = before.periodNs
  targetTask : after.targetTask = before.targetTask
  future : now < after.nextFireNs
  near : after.nextFireNs ≤ now + before.periodNs
  schedule : ∃ turns : ℕ, after.nextFireNs = before.nextFireNs + turns * before.periodNs

theorem catchUp_caughtUp {fuel : ℕ} {after : ChannelState}
    (hexpired : ch.nextFireNs ≤ now) (hresult : catchUp fuel now ch = some after) :
    CaughtUp now ch after := by
  let invariant : ChannelState → Prop := fun value =>
    value.active = ch.active ∧ value.periodNs = ch.periodNs ∧
      value.targetTask = ch.targetTask ∧
      (value.nextFireNs ≤ now ∨ value.nextFireNs ≤ now + ch.periodNs) ∧
      ∃ turns : ℕ, value.nextFireNs = ch.nextFireNs + turns * ch.periodNs
  have hkeep : ∀ value, invariant value → value.expired now = true →
      invariant value.skipPeriod := by
    rintro value ⟨hactive, hperiod, htarget, -, turns, hturns⟩ hvalue
    simp only [ChannelState.expired, decide_eq_true_eq] at hvalue
    refine ⟨hactive, hperiod, htarget, .inr ?_, turns + 1, ?_⟩
    · simp only [ChannelState.skipPeriod, hperiod]
      omega
    · simp only [ChannelState.skipPeriod, hturns, hperiod]
      push_cast
      ring
  have hstart : invariant ch := ⟨rfl, rfl, rfl, .inl hexpired, 0, by simp⟩
  have hexit : now < after.nextFireNs := by
    simpa [ChannelState.expired] using whileLoop_exit hresult
  obtain ⟨hactive, hperiod, htarget, hnear, hschedule⟩ :=
    whileLoop_invariant hkeep hstart hresult
  exact ⟨hactive, hperiod, htarget, hexit, by omega, hschedule⟩

end CatchUp

/-! ## The interrupt handler -/

/-- What the channel loop of `pt_isr` does to one channel. -/
def Dispatched (fuel : ℕ) (now : ℤ) (before after : ChannelState) : Prop :=
  if before.due now then catchUp fuel now before = some after else after = before

theorem due_iff {now : ℤ} {ch : ChannelState} :
    ch.due now = true ↔
      ch.active = true ∧ ch.targetTask ≠ rtemsIdNone ∧ ch.nextFireNs ≤ now := by
  simp [ChannelState.due, ChannelState.expired, and_assoc]

theorem Dispatched.caughtUp {fuel : ℕ} {now : ℤ} {before after : ChannelState}
    (hdispatched : Dispatched fuel now before after) (hdue : before.due now = true) :
    CaughtUp now before after := by
  rw [Dispatched, if_pos hdue] at hdispatched
  exact catchUp_caughtUp (due_iff.mp hdue).2.2 hdispatched

theorem Dispatched.unchanged {fuel : ℕ} {now : ℤ} {before after : ChannelState}
    (hdispatched : Dispatched fuel now before after) (hdue : before.due now = false) :
    after = before := by
  rwa [Dispatched, if_neg (by simp [hdue])] at hdispatched

/-- The handler never touches what a channel is configured to be. -/
theorem Dispatched.configuration {fuel : ℕ} {now : ℤ} {before after : ChannelState}
    (hdispatched : Dispatched fuel now before after) :
    after.active = before.active ∧ after.periodNs = before.periodNs ∧
      after.targetTask = before.targetTask := by
  cases hdue : before.due now with
  | true =>
      have hcaught := hdispatched.caughtUp hdue
      exact ⟨hcaught.active, hcaught.periodNs, hcaught.targetTask⟩
  | false =>
      rw [hdispatched.unchanged hdue]
      exact ⟨rfl, rfl, rfl⟩

/-- What a visited part of the channel table has become, and what is left alone. -/
structure LoopResult (fuel : ℕ) (now : ℤ) (visited : List Channel)
    (before after : Driver) : Prop where
  dispatched : ∀ i ∈ visited,
    Dispatched fuel now (before.channels i) (after.channels i)
  frame : ∀ i ∉ visited, after.channels i = before.channels i
  initialized : after.initialized = before.initialized
  opened : after.opened = before.opened
  isrInstalled : after.isrInstalled = before.isrInstalled
  pt : after.pt = before.pt
  sent : ∃ added, after.sent = before.sent ++ added ∧
    ∀ event ∈ added, event.channel ∈ visited ∧ event.sentNs = now ∧
      (before.channels event.channel).due now = true ∧
      event.dueNs = (before.channels event.channel).nextFireNs ∧
      event.target = (before.channels event.channel).targetTask

theorem isrVisit_result {fuel : ℕ} {now : ℤ} {d after : Driver} {i : Channel}
    (hresult : isrVisit fuel now d i = some after) :
    LoopResult fuel now [i] d after := by
  simp only [isrVisit] at hresult
  split at hresult
  · rename_i hdue
    obtain ⟨advanced, hadvanced, rfl⟩ := Option.map_eq_some_iff.mp hresult
    refine ⟨?_, ?_, rfl, rfl, rfl, rfl, _, rfl, ?_⟩
    · intro j hj
      obtain rfl := List.mem_singleton.mp hj
      simp [Dispatched, hdue, hadvanced, Driver.setChannel]
    · intro j hj
      exact setChannel_other d advanced (List.mem_singleton.not.mp hj)
    · intro event hevent
      obtain rfl := List.mem_singleton.mp hevent
      exact ⟨List.mem_singleton_self i, rfl, hdue, rfl, rfl⟩
  · rename_i hidle
    obtain rfl := Option.some.inj hresult
    refine ⟨?_, fun _ _ => rfl, rfl, rfl, rfl, rfl, [], by simp, by simp⟩
    intro j hj
    obtain rfl := List.mem_singleton.mp hj
    simp [Dispatched, hidle]

/-- The loop lemma: a channel is visited once, so each one is dispatched from the
state the handler found it in. -/
theorem isrLoop_result {fuel : ℕ} {now : ℤ} {d after : Driver} {is : List Channel}
    (hnodup : is.Nodup) (hresult : isrLoop fuel now d is = some after) :
    LoopResult fuel now is d after := by
  induction is generalizing d with
  | nil =>
      obtain rfl : d = after := by simpa [isrLoop] using hresult
      exact ⟨by simp, fun _ _ => rfl, rfl, rfl, rfl, rfl, [], by simp, by simp⟩
  | cons i is ih =>
      obtain ⟨hfresh, hrest⟩ := List.nodup_cons.mp hnodup
      rw [isrLoop, List.foldlM_cons] at hresult
      obtain ⟨middle, hfirst, hlater⟩ := Option.bind_eq_some_iff.mp hresult
      have hvisit := isrVisit_result hfirst
      have hloop := ih hrest hlater
      have hsame : ∀ j ∈ is, middle.channels j = d.channels j := by
        intro j hj
        apply hvisit.frame
        rintro hi
        exact hfresh (List.mem_singleton.mp hi ▸ hj)
      constructor
      case dispatched =>
        intro j hj
        rcases List.mem_cons.mp hj with rfl | hj
        · rw [hloop.frame j hfresh]
          exact hvisit.dispatched j (List.mem_singleton_self j)
        · rw [← hsame j hj]
          exact hloop.dispatched j hj
      case frame =>
        intro j hj
        obtain ⟨hne, hnot⟩ := not_or.mp (List.mem_cons.not.mp hj)
        rw [hloop.frame j hnot, hvisit.frame j (List.mem_singleton.not.mpr hne)]
      case initialized => exact hloop.initialized.trans hvisit.initialized
      case opened => exact hloop.opened.trans hvisit.opened
      case isrInstalled => exact hloop.isrInstalled.trans hvisit.isrInstalled
      case pt => exact hloop.pt.trans hvisit.pt
      case sent =>
        obtain ⟨first, hsentFirst, hfirstAll⟩ := hvisit.sent
        obtain ⟨later, hsentLater, hlaterAll⟩ := hloop.sent
        refine ⟨first ++ later, by rw [hsentLater, hsentFirst, List.append_assoc], ?_⟩
        intro event hevent
        rcases List.mem_append.mp hevent with hmem | hmem
        · obtain ⟨hchannel, hfacts⟩ := hfirstAll event hmem
          exact ⟨by simp_all, hfacts⟩
        · obtain ⟨hchannel, hfacts⟩ := hlaterAll event hmem
          rw [hsame _ hchannel] at hfacts
          exact ⟨List.mem_cons_of_mem _ hchannel, hfacts⟩

/-- The event that the handler sends for a channel. -/
def notificationAt (now : ℤ) (d : Driver) (i : Channel) : Notification :=
  ⟨i, (d.channels i).targetTask, (d.channels i).nextFireNs, now⟩

/-- One event is sent for every due channel, in the order of the channels. -/
theorem isrLoop_sent {fuel : ℕ} {now : ℤ} {d after : Driver} {is : List Channel}
    (hnodup : is.Nodup) (hresult : isrLoop fuel now d is = some after) :
    after.sent = d.sent ++
      (is.filter fun i => (d.channels i).due now).map (notificationAt now d) := by
  induction is generalizing d with
  | nil =>
      obtain rfl : d = after := by simpa [isrLoop] using hresult
      simp
  | cons i is ih =>
      obtain ⟨hfresh, hrest⟩ := List.nodup_cons.mp hnodup
      rw [isrLoop, List.foldlM_cons] at hresult
      obtain ⟨middle, hfirst, hlater⟩ := Option.bind_eq_some_iff.mp hresult
      have hsame : ∀ j ∈ is, middle.channels j = d.channels j := by
        intro j hj
        apply (isrVisit_result hfirst).frame
        exact fun hmem => hfresh (List.mem_singleton.mp hmem ▸ hj)
      have hevents : (is.filter fun j => (middle.channels j).due now).map
          (notificationAt now middle) =
          (is.filter fun j => (d.channels j).due now).map (notificationAt now d) := by
        rw [List.filter_congr fun j hj => by rw [hsame j hj]]
        apply List.map_congr_left
        intro j hj
        rw [notificationAt, notificationAt, hsame j (List.mem_filter.mp hj).1]
      rw [ih hrest hlater, hevents]
      simp only [isrVisit] at hfirst
      cases hdue : (d.channels i).due now with
      | true =>
          rw [if_pos hdue] at hfirst
          obtain ⟨advanced, -, rfl⟩ := Option.map_eq_some_iff.mp hfirst
          simp [hdue, notificationAt]
      | false =>
          rw [if_neg (by simp [hdue])] at hfirst
          obtain rfl := Option.some.inj hfirst
          simp [hdue]

/-- The channel loop gets through when the catch-up loop of every due channel
does. -/
theorem isrLoop_isSome {fuel : ℕ} {now : ℤ} {d : Driver} {is : List Channel}
    (hnodup : is.Nodup)
    (hcatch : ∀ i ∈ is, (d.channels i).due now = true →
      (catchUp fuel now (d.channels i)).isSome) :
    (isrLoop fuel now d is).isSome := by
  induction is generalizing d with
  | nil => simp [isrLoop]
  | cons i is ih =>
      obtain ⟨hfresh, hrest⟩ := List.nodup_cons.mp hnodup
      have hvisit : ∃ middle, isrVisit fuel now d i = some middle := by
        cases hdue : (d.channels i).due now with
        | true =>
            obtain ⟨advanced, hadvanced⟩ := Option.isSome_iff_exists.mp
              (hcatch i (List.mem_cons_self ..) hdue)
            simp [isrVisit, hdue, hadvanced]
        | false => simp [isrVisit, hdue]
      obtain ⟨middle, hmiddle⟩ := hvisit
      rw [isrLoop, List.foldlM_cons, hmiddle]
      apply ih hrest
      intro j hj
      have hne : j ∉ [i] := fun hmem => hfresh (List.mem_singleton.mp hmem ▸ hj)
      rw [(isrVisit_result hmiddle).frame j hne]
      exact hcatch j (List.mem_cons_of_mem _ hj)

theorem ptIsr_result {fuel : ℕ} {now armNow : ℤ} {d after : Driver}
    (hresult : ptIsr fuel now armNow d = some after) :
    ∃ looped, LoopResult fuel now (List.finRange rtssTimerMaxChannels) d looped ∧
      after = rearmPt armNow looped := by
  obtain ⟨looped, hlooped, rfl⟩ := Option.map_eq_some_iff.mp hresult
  exact ⟨looped, isrLoop_result (List.nodup_finRange _) hlooped, rfl⟩

theorem ptIsr_dispatched {fuel : ℕ} {now armNow : ℤ} {d after : Driver}
    (hresult : ptIsr fuel now armNow d = some after) (i : Channel) :
    Dispatched fuel now (d.channels i) (after.channels i) := by
  obtain ⟨looped, hlooped, rfl⟩ := ptIsr_result hresult
  rw [rearmPt_channels]
  exact hlooped.dispatched i (List.mem_finRange i)

/-- The events that an interrupt sends for one channel: one where the channel is due, and
none otherwise. -/
theorem ptIsr_sent {fuel : ℕ} {now armNow : ℤ} {d after : Driver}
    (hresult : ptIsr fuel now armNow d = some after) (i : Channel) :
    after.sent.filter (fun event => event.channel = i) =
      d.sent.filter (fun event => event.channel = i) ++
        if (d.channels i).due now then [notificationAt now d i] else [] := by
  obtain ⟨looped, hlooped, rfl⟩ := Option.map_eq_some_iff.mp hresult
  rw [rearmPt_sent, isrLoop_sent (List.nodup_finRange _) hlooped, List.filter_append]
  congr 1
  have hmine : (List.finRange rtssTimerMaxChannels).filter (fun j => decide (j = i)) =
      [i] := by
    rw [List.filter_eq, List.count_eq_one_of_mem (List.nodup_finRange _) (List.mem_finRange i)]
    rfl
  calc (((List.finRange rtssTimerMaxChannels).filter
        fun j => (d.channels j).due now).map (notificationAt now d)).filter
          (fun event => event.channel = i)
      = (((List.finRange rtssTimerMaxChannels).filter (fun j => decide (j = i))).filter
          fun j => (d.channels j).due now).map (notificationAt now d) := by
        rw [List.filter_map, List.filter_filter, List.filter_filter]
        congr 1
        apply List.filter_congr
        intro j _
        exact Bool.and_comm _ _
    _ = if (d.channels i).due now then [notificationAt now d i] else [] := by
        rw [hmine, List.filter_singleton]
        cases (d.channels i).due now <;> rfl

/-- An interrupt reconfigures no channel. -/
theorem ptIsr_configuration {fuel : ℕ} {now armNow : ℤ} {d after : Driver}
    (hresult : ptIsr fuel now armNow d = some after) :
    after.opened = d.opened ∧
      ∀ i, (after.channels i).active = (d.channels i).active ∧
        (after.channels i).targetTask = (d.channels i).targetTask := by
  constructor
  · obtain ⟨looped, hlooped, rfl⟩ := ptIsr_result hresult
    rw [rearmPt_opened]
    exact hlooped.opened
  · intro i
    have hconfiguration := (ptIsr_dispatched hresult i).configuration
    exact ⟨hconfiguration.1, hconfiguration.2.2⟩

/-- The handler returns exactly when every channel it has to dispatch has a
positive period. -/
theorem isrTerminates_iff (d : Driver) (now : ℤ) :
    IsrTerminates d now ↔
      ∀ i, (d.channels i).due now = true → 0 < (d.channels i).periodNs := by
  constructor
  · rintro ⟨fuel, hisSome⟩ i hdue
    obtain ⟨after, hafter⟩ := Option.isSome_iff_exists.mp (hisSome 0)
    by_contra hperiod
    have hdispatched := ptIsr_dispatched hafter i
    rw [Dispatched, if_pos hdue,
      catchUp_eq_none (not_lt.mp hperiod) (due_iff.mp hdue).2.2] at hdispatched
    cases hdispatched
  · intro hpositive
    have hfuel : ∀ i, ∃ fuel, (d.channels i).due now = true →
        (catchUp fuel now (d.channels i)).isSome := by
      intro i
      by_cases hdue : (d.channels i).due now = true
      · obtain ⟨fuel, hsome⟩ := catchUp_isSome_of_period_pos (hpositive i hdue)
        exact ⟨fuel, fun _ => hsome⟩
      · exact ⟨0, fun h => absurd h hdue⟩
    choose fuel hfuel using hfuel
    refine ⟨Finset.univ.sup fuel, fun armNow => ?_⟩
    have hloop : (isrLoop (Finset.univ.sup fuel) now d
        (List.finRange rtssTimerMaxChannels)).isSome := by
      apply isrLoop_isSome (List.nodup_finRange _)
      intro i _ hdue
      obtain ⟨advanced, hadvanced⟩ := Option.isSome_iff_exists.mp (hfuel i hdue)
      have hmore : fuel i ≤ Finset.univ.sup fuel :=
        Finset.le_sup (Finset.mem_univ i)
      exact Option.isSome_iff_exists.mpr ⟨advanced, whileLoop_mono hmore hadvanced⟩
    simpa [ptIsr] using hloop

/-! ## Control operations -/

/-- The driver a command leaves: itself where the command is refused or ignored,
and otherwise the one changed in the channel the command names. -/
inductive ControlEffect (d : Driver) (tps : Interval) (now armNow : ℤ) :
    Command → Driver → Prop
  | unchanged (cmd : Command) : ControlEffect d tps now armNow cmd d
  | setPeriod (cfg : TimerConfig) (i : Channel)
      (hchannel : channelOf cfg.channel = some i) (htps : tps ≠ 0) :
      ControlEffect d tps now armNow (.setPeriod (some cfg))
        (d.setChannel i
          { d.channels i with periodNs := ticksToNs cfg.periodTicks tps })
  | setPeriodNs (cfg : TimerNsConfig) (i : Channel)
      (hchannel : channelOf cfg.channel = some i)
      (hmin : rtssTimerMinPeriodNs ≤ cfg.periodNs)
      (hmax : cfg.periodNs ≤ rtssTimerMaxPeriodNs) :
      ControlEffect d tps now armNow (.setPeriodNs (some cfg))
        (d.setChannel i { d.channels i with periodNs := cfg.periodNs })
  | start (cfg : TimerConfig) (i : Channel)
      (hchannel : channelOf cfg.channel = some i)
      (hperiod : (d.channels i).periodNs ≠ 0) :
      ControlEffect d tps now armNow (.start (some cfg))
        (rearmPt armNow (d.setChannel i
          { d.channels i with
            active := true, nextFireNs := now + (d.channels i).periodNs }))
  | stop (cfg : TimerConfig) (i : Channel)
      (hchannel : channelOf cfg.channel = some i) :
      ControlEffect d tps now armNow (.stop (some cfg))
        (rearmPt armNow (d.setChannel i
          { d.channels i with active := false, nextFireNs := int64Max }))
  | setTask (cfg : TimerTaskConfig) (i : Channel)
      (hchannel : channelOf cfg.channel = some i) :
      ControlEffect d tps now armNow (.setTask (some cfg))
        (d.setChannel i { d.channels i with targetTask := cfg.targetTask })

theorem eq_of_channelOf {channel : ℤ} {i : Channel} (hchannel : channelOf channel = some i) :
    channel = (i : ℕ) := by
  rw [channelOf] at hchannel
  split at hchannel
  · rename_i hrange
    obtain rfl := Option.some.inj hchannel
    exact (Int.toNat_of_nonneg hrange.1).symm
  · cases hchannel

/-- The inversion of `withChannel`: the driver is unchanged, or the command was
carried out on the channel that its configuration names. -/
theorem withChannel_cases {Config : Type} (d : Driver) (cfg : Option Config)
    (channel : Config → ℤ) (action : Config → Channel → ControlOutcome) :
    (withChannel d cfg channel action).driver = d ∨
      ∃ config i, cfg = some config ∧ channelOf (channel config) = some i ∧
        withChannel d cfg channel action = action config i := by
  cases cfg with
  | none => exact .inl rfl
  | some config =>
      cases hchannel : channelOf (channel config) with
      | none => left; simp [withChannel, hchannel, reject]
      | some i => exact .inr ⟨config, i, rfl, hchannel, by simp [withChannel, hchannel]⟩

theorem rtssControl_effect (d : Driver) (tps : Interval) (now armNow : ℤ)
    (cmd : Command) :
    ControlEffect d tps now armNow cmd (rtssControl d tps now armNow cmd).driver := by
  cases cmd with
  | setMode mode => exact .unchanged _
  | unknown => exact .unchanged _
  | setPeriod cfg =>
      rcases withChannel_cases d cfg _ _ with hsame | ⟨config, i, rfl, hchannel, haction⟩
      · rw [rtssControl, controlSetPeriod, hsame]
        exact .unchanged _
      · rw [rtssControl, controlSetPeriod, haction]
        split
        · exact .unchanged _
        · rename_i htps
          exact .setPeriod config i hchannel htps
  | setPeriodNs cfg =>
      rcases withChannel_cases d cfg _ _ with hsame | ⟨config, i, rfl, hchannel, haction⟩
      · rw [rtssControl, controlSetPeriodNs, hsame]
        exact .unchanged _
      · rw [rtssControl, controlSetPeriodNs, haction]
        split
        · exact .unchanged _
        · split
          · exact .unchanged _
          · rename_i hmin hmax
            exact .setPeriodNs config i hchannel (not_lt.mp hmin) (not_lt.mp hmax)
  | start cfg =>
      rcases withChannel_cases d cfg _ _ with hsame | ⟨config, i, rfl, hchannel, haction⟩
      · rw [rtssControl, controlStart, hsame]
        exact .unchanged _
      · rw [rtssControl, controlStart, haction]
        simp only
        split
        · exact .unchanged _
        · rename_i hperiod
          exact .start config i hchannel hperiod
  | stop cfg =>
      rcases withChannel_cases d cfg _ _ with hsame | ⟨config, i, rfl, hchannel, haction⟩
      · rw [rtssControl, controlStop, hsame]
        exact .unchanged _
      · rw [rtssControl, controlStop, haction]
        exact .stop config i hchannel
  | setTask cfg =>
      rcases withChannel_cases d cfg _ _ with hsame | ⟨config, i, rfl, hchannel, haction⟩
      · rw [rtssControl, controlSetTask, hsame]
        exact .unchanged _
      · rw [rtssControl, controlSetTask, haction]
        exact .setTask config i hchannel

end RosRtems.TimerDriver
