import RosRtems.Core.PeriodicGrid
import RosRtems.Core.Runs

/-!
# Timers of the client library

A timer has the instant of its next call, which a call moves on by whole periods: by one,
or by as many as it takes to reach the present.  Whoever calls a timer serves the instant
that was due.  Times are nanoseconds in an `int64_t`; what an operation does is undefined
where one of its sums is none.
-/

namespace RosRtems.RclTimer

open RosRtems.PeriodicGrid RosRtems.Runs

/-! ## Signed arithmetic -/

/-- The result of an `int64_t` operation, which is undefined where it overflows. -/
def int64 (value : ℤ) : Option ℤ :=
  if -2 ^ 63 ≤ value ∧ value < 2 ^ 63 then some value else none

theorem int64_eq_some {value result : ℤ} (hresult : int64 value = some result) :
    result = value := by
  rw [int64] at hresult
  split at hresult
  · exact (Option.some.inj hresult).symm
  · cases hresult

theorem int64_lt {value result : ℤ} (hresult : int64 value = some result) :
    result < 2 ^ 63 := by
  rw [int64] at hresult
  split at hresult
  · rename_i hrange
    exact Option.some.inj hresult ▸ hrange.2
  · cases hresult

theorem int64_of_nonneg {value : ℤ} (hlow : 0 ≤ value) (hhigh : value < 2 ^ 63) :
    int64 value = some value := by
  rw [int64, if_pos ⟨by omega, hhigh⟩]

/-! ## The timer and its operations -/

/-- `rcl_timer_impl_t`; `callback` says that there is one in C, and `wakeUps` counts how
often the guard condition was triggered. -/
structure Timer where
  callback : Bool
  period : ℤ
  lastCallTime : ℤ
  nextCallTime : ℤ
  timeCredit : ℤ
  canceled : Bool
  wakeUps : ℕ
  deriving DecidableEq

inductive RclError
  | invalidArgument
  | timerCanceled
  | error
  deriving DecidableEq

def timerInit (callback : Bool) (now period : ℤ) : Option (Except RclError Timer) :=
  if period < 0 then some (.error .invalidArgument)
  else do
    let nextCallTime ← int64 (now + period)
    return .ok
      { callback := callback
        period := period
        lastCallTime := now
        nextCallTime := nextCallTime
        timeCredit := 0
        canceled := false
        wakeUps := 0 }

/-- The instant after the call of the instant `next`.  A timer without a period is always
ready. -/
def advanced (period next now : ℤ) : Option ℤ := do
  let next ← int64 (next + period)
  if next < now then
    if period = 0 then return now
    else
      let nowAhead ← int64 (now - next)
      let periodsAhead ← int64 (1 + (nowAhead - 1).tdiv period)
      let distance ← int64 (periodsAhead * period)
      int64 (next + distance)
  else return next

/-- The time since the last call, which the callback is given. -/
def sinceLastCall (t : Timer) (now : ℤ) : Option (Option ℤ) :=
  if t.callback then (int64 (now - t.lastCallTime)).map some else some none

def timerCall (t : Timer) (now : ℤ) : Option (Except RclError (Timer × Option ℤ)) :=
  if t.canceled then some (.error .timerCanceled)
  else if now < 0 then some (.error .error)
  else do
    let nextCallTime ← advanced t.period t.nextCallTime now
    let given ← sinceLastCall t now
    return .ok ({ t with lastCallTime := now, nextCallTime := nextCallTime }, given)

/-- The difference is taken as it is. -/
def timeUntilNextCall (t : Timer) (now : ℤ) : Except RclError ℤ :=
  if t.canceled then .error .timerCanceled else .ok (t.nextCallTime - now)

def isReady (t : Timer) (now : ℤ) : Bool :=
  match timeUntilNextCall t now with
  | .ok timeUntilNextCall => timeUntilNextCall ≤ 0
  | .error _ => false

/-- Nobody checks the new period. -/
def exchangePeriod (t : Timer) (newPeriod : ℤ) : Timer :=
  { t with period := newPeriod }

def timerCancel (t : Timer) : Timer :=
  { t with canceled := true }

def timerReset (t : Timer) (now : ℤ) : Option Timer :=
  (int64 (now + t.period)).map fun nextCallTime =>
    { t with
      nextCallTime := nextCallTime
      canceled := false
      wakeUps := t.wakeUps + 1 }

/-- `_rcl_timer_time_jump` before the jump. -/
def beforeJump (t : Timer) (clockChange : Bool) (now : ℤ) : Option Timer :=
  if clockChange ∧ now ≠ 0 then
    (int64 (t.nextCallTime - now)).map fun timeCredit => { t with timeCredit := timeCredit }
  else some t

/-- `_rcl_timer_time_jump` after the jump. -/
def afterJump (t : Timer) (clockChange : Bool) (now : ℤ) : Option Timer :=
  if clockChange then
    if now = 0 ∨ t.timeCredit = 0 then some t
    else do
      let lastCallTime ← int64 (now - t.timeCredit)
      let nextCallTime ← int64 (lastCallTime + t.period)
      return { t with
        timeCredit := 0
        nextCallTime := nextCallTime
        lastCallTime := lastCallTime }
  else if t.nextCallTime ≤ now then some { t with wakeUps := t.wakeUps + 1 }
  else if now < t.lastCallTime then
    (int64 (now + t.period)).map fun nextCallTime =>
      { t with
        nextCallTime := nextCallTime
        lastCallTime := now }
  else some t

/-! ## Runs of a timer -/

inductive TimerAction
  | call (now : ℤ)
  | cancel
  | reset (now : ℤ)
  | exchangePeriod (newPeriod : ℤ)
  | jump (clockChange : Bool) (before after : ℤ)
  deriving DecidableEq

def perform (t : Timer) : TimerAction → Option Timer
  | .call now => (timerCall t now).map fun
      | .ok (called, _) => called
      | .error _ => t
  | .cancel => some (timerCancel t)
  | .reset now => timerReset t now
  | .exchangePeriod newPeriod => some (exchangePeriod t newPeriod)
  | .jump clockChange before after =>
      (beforeJump t clockChange before).bind fun t => afterJump t clockChange after

/-- The action is defined, and does this. -/
def TimerStep (t : Timer) (action : TimerAction) (t' : Timer) : Prop :=
  perform t action = some t'

/-- The instant that a move serves: the one that was next, if the timer is called. -/
def slotOf (move : Move Timer TimerAction) : Option ℤ :=
  match move.label with
  | .call now => match timerCall move.source now with
    | some (.ok _) => some move.source.nextCallTime
    | _ => none
  | _ => none

/-- The action leaves the schedule of the timer alone. -/
def KeepsSchedule (t : Timer) : TimerAction → Prop
  | .call _ | .cancel => True
  | .reset _ => False
  | .exchangePeriod newPeriod => newPeriod = t.period
  | .jump clockChange _ after => clockChange = false ∧ t.lastCallTime ≤ after

/-- A call after the instant has passed a later instant, and does not serve that one. -/
def Skips (slot : ℤ) (move : Move Timer TimerAction) : Prop :=
  ∃ now served, move.label = .call now ∧ slotOf move = some served ∧ served < slot ∧ slot < now

section Schedule

variable {start period now : ℤ} {t t' : Timer}

/-- Where nothing overflows, the next instant is the first of the grid that is neither the
one that was served nor past. -/
theorem advanced_isLeast (hperiod : 0 < period) {next after : ℤ}
    (hgrid : OnGrid start period next) (hafter : advanced period next now = some after) :
    IsLeast {time | OnGrid start period time ∧ next < time ∧ now ≤ time} after := by
  have hlater : ∀ time, OnGrid start period time → next < time → next + period ≤ time := by
    intro time htime hless
    by_contra hnear
    have hle := htime.le_of_lt_add hperiod hgrid (not_le.mp hnear)
    exact absurd hless (not_lt.mpr hle)
  have hnext : OnGrid start period (next + period) := by
    simpa using hgrid.add_turns 1
  obtain ⟨due, hdue, hrest⟩ := Option.bind_eq_some_iff.mp hafter
  obtain rfl := int64_eq_some hdue
  split at hrest
  case isFalse hmissed =>
    obtain rfl : next + period = after := by simpa using hrest
    exact ⟨⟨hnext, by linarith, not_lt.mp hmissed⟩,
      fun time htime => hlater time htime.1 htime.2.1⟩
  case isTrue hmissed =>
    rw [if_neg hperiod.ne'] at hrest
    obtain ⟨nowAhead, hahead, hrest⟩ := Option.bind_eq_some_iff.mp hrest
    obtain rfl := int64_eq_some hahead
    obtain ⟨periodsAhead, hperiods, hrest⟩ := Option.bind_eq_some_iff.mp hrest
    obtain rfl := int64_eq_some hperiods
    obtain ⟨distance, hdistance, hrest⟩ := Option.bind_eq_some_iff.mp hrest
    obtain rfl := int64_eq_some hdistance
    obtain rfl := int64_eq_some hrest
    have hahead : 0 ≤ now - (next + period) - 1 := by omega
    rw [Int.tdiv_eq_ediv_of_nonneg hahead]
    have hturns : 0 ≤ (now - (next + period) - 1) / period := Int.ediv_nonneg hahead hperiod.le
    have hbelow : (now - (next + period) - 1) / period * period ≤ now - (next + period) - 1 :=
      Int.ediv_mul_le _ hperiod.ne'
    have habove : now - (next + period) - 1 <
        ((now - (next + period) - 1) / period + 1) * period :=
      Int.lt_ediv_add_one_mul_self _ hperiod
    generalize (now - (next + period) - 1) / period = turns at *
    obtain ⟨turns, rfl⟩ := Int.eq_ofNat_of_zero_le hturns
    have honGrid : OnGrid start period (next + period + (1 + turns) * period) := by
      have hadd := hnext.add_turns (1 + turns)
      push_cast at hadd
      exact hadd
    have hexpand : (1 + (turns : ℤ)) * period = turns * period + period := by ring
    have hexpand' : ((turns : ℤ) + 1) * period = turns * period + period := by ring
    refine ⟨⟨honGrid, by rw [hexpand]; linarith [mul_nonneg hturns hperiod.le],
      by rw [hexpand]; linarith⟩, fun time htime => ?_⟩
    apply honGrid.le_of_lt_add hperiod htime.1
    rw [hexpand]
    linarith [htime.2.2]

theorem advanced_lt (hperiod : 0 < period) {next after : ℤ}
    (hafter : advanced period next now = some after) : after < 2 ^ 63 := by
  obtain ⟨due, hdue, hrest⟩ := Option.bind_eq_some_iff.mp hafter
  split at hrest
  case isFalse => exact Option.some.inj hrest ▸ int64_lt hdue
  case isTrue =>
    rw [if_neg hperiod.ne'] at hrest
    obtain ⟨nowAhead, -, hrest⟩ := Option.bind_eq_some_iff.mp hrest
    obtain ⟨periodsAhead, -, hrest⟩ := Option.bind_eq_some_iff.mp hrest
    obtain ⟨distance, -, hrest⟩ := Option.bind_eq_some_iff.mp hrest
    exact int64_lt hrest

theorem timerCall_eq_ok {called : Timer × Option ℤ}
    (hcall : timerCall t now = some (.ok called)) :
    0 ≤ now ∧ ∃ after, advanced t.period t.nextCallTime now = some after ∧
      called.1 = { t with lastCallTime := now, nextCallTime := after } := by
  rw [timerCall] at hcall
  split at hcall
  · cases hcall
  · split at hcall
    · cases hcall
    · rename_i hpositive
      obtain ⟨after, hafter, hrest⟩ := Option.bind_eq_some_iff.mp hcall
      obtain ⟨given, -, hcalled⟩ := Option.bind_eq_some_iff.mp hrest
      obtain rfl := Except.ok.inj (Option.some.inj hcalled)
      exact ⟨not_lt.mp hpositive, after, hafter, rfl⟩

/-- On schedule: the next call is at an instant of the grid.  A timer that was created at a
time which is not negative has not been called at one. -/
structure Scheduled (start period : ℤ) (t : Timer) : Prop where
  period_eq : t.period = period
  onGrid : OnGrid start period t.nextCallTime
  called : 0 ≤ start → 0 ≤ t.lastCallTime ∧ t.lastCallTime < 2 ^ 63

/-- An action that leaves the schedule alone serves the next instant and moves on to the
first one that is not past, or does not change the next instant. -/
theorem scheduled_step (hperiod : 0 < period) (ht : Scheduled start period t)
    {action : TimerAction} (hkeeps : KeepsSchedule t action) (hstep : TimerStep t action t') :
    Scheduled start period t' ∧
      (slotOf ⟨t, action, t'⟩ = none ∧ t'.nextCallTime = t.nextCallTime ∨
        slotOf ⟨t, action, t'⟩ = some t.nextCallTime ∧
          ∃ now, action = .call now ∧
            IsLeast {time | OnGrid start period time ∧ t.nextCallTime < time ∧ now ≤ time}
              t'.nextCallTime) := by
  cases action with
  | call now =>
      obtain ⟨outcome, hcall, houtcome⟩ := Option.map_eq_some_iff.mp hstep
      cases outcome with
      | error reason =>
          obtain rfl : t = t' := houtcome
          exact ⟨ht, .inl ⟨by simp [slotOf, hcall], rfl⟩⟩
      | ok called =>
          obtain rfl : called.1 = t' := houtcome
          obtain ⟨hpositive, after, hafter, hcalled⟩ := timerCall_eq_ok hcall
          rw [ht.period_eq] at hafter
          have hleast := advanced_isLeast hperiod ht.onGrid hafter
          have hlate := advanced_lt hperiod hafter
          rw [hcalled]
          exact ⟨⟨ht.period_eq, hleast.1.1, fun _ => ⟨hpositive, hleast.1.2.2.trans_lt hlate⟩⟩,
            .inr ⟨by simp [slotOf, hcall], now, rfl, hleast⟩⟩
  | cancel =>
      obtain rfl := Option.some.inj hstep
      exact ⟨⟨ht.period_eq, ht.onGrid, ht.called⟩, .inl ⟨rfl, rfl⟩⟩
  | reset now => exact hkeeps.elim
  | exchangePeriod newPeriod =>
      obtain rfl := Option.some.inj hstep
      exact ⟨⟨hkeeps.trans ht.period_eq, ht.onGrid, ht.called⟩, .inl ⟨rfl, rfl⟩⟩
  | jump clockChange before after =>
      obtain ⟨rfl, hlast⟩ := hkeeps
      have hjump : (if t.nextCallTime ≤ after then { t with wakeUps := t.wakeUps + 1 }
          else t) = t' := by
        simpa [TimerStep, perform, beforeJump, afterJump, not_lt.mpr hlast, ← apply_ite some]
          using hstep
      rw [← hjump]
      split
      · exact ⟨⟨ht.period_eq, ht.onGrid, ht.called⟩, .inl ⟨rfl, rfl⟩⟩
      · exact ⟨ht, .inl ⟨rfl, rfl⟩⟩

variable {trace : List (Move Timer TimerAction)}

/-- From a timer on schedule: the served instants come in order, each once, from the next
one on, and an instant that is not served was past when an earlier one was. -/
theorem served_from (hperiod : 0 < period) (hrun : Run TimerStep t trace t')
    (ht : Scheduled start period t) (hkeeps : Admitted KeepsSchedule trace) :
    Scheduled start period t' ∧ t.nextCallTime ≤ t'.nextCallTime ∧
      (trace.filterMap slotOf).Pairwise (· < ·) ∧
      (∀ slot ∈ trace.filterMap slotOf, OnGrid start period slot ∧ t.nextCallTime ≤ slot ∧
        slot < t'.nextCallTime) ∧
      (∀ slot, OnGrid start period slot → t.nextCallTime ≤ slot → slot < t'.nextCallTime →
        slot ∈ trace.filterMap slotOf ∨ ∃ move ∈ trace, Skips slot move) ∧
      ∀ slot, ∀ move ∈ trace, Skips slot move →
        t.nextCallTime < slot ∧ slot ∉ trace.filterMap slotOf := by
  induction hrun with
  | nil t =>
      exact ⟨ht, le_rfl, .nil, by simp,
        fun slot _ hle hlt => absurd hlt (not_lt.mpr hle), by simp⟩
  | @cons t middle t' action trace hstep _ ih =>
      obtain ⟨hhead, hrest⟩ := admitted_cons_iff.mp hkeeps
      obtain ⟨hmiddle, hserves⟩ := scheduled_step hperiod ht hhead hstep
      obtain ⟨ht', hle, hsorted, hserved, hskipped, hunserved⟩ := ih hmiddle hrest
      rcases hserves with ⟨hnone, hsame⟩ | ⟨hsome, now, rfl, hleast⟩
      · rw [hsame] at hle hserved hskipped hunserved
        rw [List.filterMap_cons_none hnone]
        refine ⟨ht', hle, hsorted, hserved, fun slot hgrid hfrom hto => ?_,
          fun slot move hmem hskips => ?_⟩
        · rcases hskipped slot hgrid hfrom hto with hmem | ⟨move, hmem, hskips⟩
          · exact .inl hmem
          · exact .inr ⟨move, List.mem_cons_of_mem _ hmem, hskips⟩
        · rcases List.mem_cons.mp hmem with rfl | hmem
          · obtain ⟨now, served, -, hserves, -⟩ := hskips
            rw [hnone] at hserves
            cases hserves
          · exact hunserved slot move hmem hskips
      · have hless := hleast.1.2.1
        rw [List.filterMap_cons_some hsome]
        refine ⟨ht', hless.le.trans hle, ?_, ?_, ?_, ?_⟩
        · exact List.pairwise_cons.mpr
            ⟨fun slot hmem => hless.trans_le (hserved slot hmem).2.1, hsorted⟩
        · intro slot hmem
          rcases List.mem_cons.mp hmem with rfl | hmem
          · exact ⟨ht.onGrid, le_rfl, hless.trans_le hle⟩
          · obtain ⟨hgrid, hfrom, hto⟩ := hserved slot hmem
            exact ⟨hgrid, hless.le.trans hfrom, hto⟩
        · intro slot hgrid hfrom hto
          rcases hfrom.eq_or_lt with rfl | hlater
          · exact .inl List.mem_cons_self
          rcases le_or_gt middle.nextCallTime slot with hreached | hpassed
          · rcases hskipped slot hgrid hreached hto with hmem | ⟨move, hmem, hskips⟩
            · exact .inl (List.mem_cons_of_mem _ hmem)
            · exact .inr ⟨move, List.mem_cons_of_mem _ hmem, hskips⟩
          · have hpast : slot < now := by
              by_contra hnow
              exact absurd (hleast.2 ⟨hgrid, hlater, not_lt.mp hnow⟩) (not_le.mpr hpassed)
            exact .inr ⟨_, List.mem_cons_self, now, t.nextCallTime, rfl, hsome, hlater, hpast⟩
        · intro slot move hmem hskips
          rcases List.mem_cons.mp hmem with rfl | hmem
          · obtain ⟨now', served, hcall, hserves, hearlier, hpast⟩ := hskips
            cases hcall
            rw [hsome] at hserves
            cases hserves
            refine ⟨hearlier, fun hmem => ?_⟩
            rcases List.mem_cons.mp hmem with rfl | hmem
            · exact lt_irrefl _ hearlier
            · have hfrom := (hserved slot hmem).2.1
              linarith [hleast.1.2.2]
          · obtain ⟨hlater, habsent⟩ := hunserved slot move hmem hskips
            refine ⟨hless.trans hlater, fun hmem => ?_⟩
            rcases List.mem_cons.mp hmem with rfl | hmem
            · exact absurd (hless.trans hlater) (lt_irrefl _)
            · exact habsent hmem

end Schedule

/-! ## Calls that are defined -/

section Defined

variable {period next now : ℤ} {t : Timer}

theorem advanced_defined (hperiod : 0 < period) (hnext : 0 ≤ next)
    (hdue : next + period < 2 ^ 63) (hnow : now + period < 2 ^ 63) :
    ∃ after, advanced period next now = some after := by
  rw [advanced, int64_of_nonneg (by omega) hdue, Option.bind_eq_bind, Option.bind_some]
  split
  case isFalse => exact ⟨_, rfl⟩
  case isTrue hmissed =>
    have hahead : 0 ≤ now - (next + period) - 1 := by omega
    have hturns := Int.ediv_nonneg hahead hperiod.le
    have hbelow := Int.ediv_mul_le (now - (next + period) - 1) hperiod.ne'
    have hless := Int.ediv_le_self period hahead
    rw [← Int.tdiv_eq_ediv_of_nonneg hahead] at hturns hbelow hless
    generalize hperiods : (now - (next + period) - 1).tdiv period = turns at *
    have hdistance : (1 + turns) * period = turns * period + period := by ring
    have hpositive : 0 ≤ turns * period := mul_nonneg hturns hperiod.le
    refine ⟨next + period + (turns * period + period), ?_⟩
    rw [if_neg hperiod.ne', int64_of_nonneg (by omega) (by omega), Option.bind_some, hperiods,
      int64_of_nonneg (by omega) (by omega), Option.bind_some, hdistance,
      int64_of_nonneg (by omega) (by omega), Option.bind_some,
      int64_of_nonneg (by omega) (by omega)]

theorem sinceLastCall_defined (hlast : 0 ≤ t.lastCallTime) (hnow : 0 ≤ now)
    (hlate : now < 2 ^ 63) (hcalled : t.lastCallTime < 2 ^ 63) :
    ∃ given, sinceLastCall t now = some given := by
  have hsince : int64 (now - t.lastCallTime) = some (now - t.lastCallTime) := by
    rw [int64, if_pos]
    omega
  rw [sinceLastCall, hsince]
  split <;> exact ⟨_, rfl⟩

/-- A call overflows at most where the next instant or the clock is within a period of
the largest time. -/
theorem call_defined (hperiod : 0 < t.period) (hlast : 0 ≤ t.lastCallTime)
    (hcalled : t.lastCallTime < 2 ^ 63) (hnext : 0 ≤ t.nextCallTime)
    (hdue : t.nextCallTime + t.period < 2 ^ 63) (hnow : now + t.period < 2 ^ 63) :
    ∃ t', TimerStep t (.call now) t' := by
  have hdefined : ∃ outcome, timerCall t now = some outcome := by
    rw [timerCall]
    split
    · exact ⟨_, rfl⟩
    split
    · exact ⟨_, rfl⟩
    rename_i hpositive
    obtain ⟨after, hafter⟩ := advanced_defined hperiod hnext hdue hnow
    obtain ⟨given, hgiven⟩ :=
      sinceLastCall_defined hlast (not_lt.mp hpositive) (by omega) hcalled
    rw [hafter, hgiven]
    exact ⟨_, rfl⟩
  obtain ⟨outcome, hcall⟩ := hdefined
  exact ⟨_, Option.map_eq_some_iff.mpr ⟨outcome, hcall, rfl⟩⟩

end Defined

/-- The calls of a timer serve the instants at whole periods after its creation, in order
and each once, and leave out exactly those that were past when an earlier one was served:
late calls do not make the schedule drift.  Nothing overflows while the next instant and
the clock stay more than a period below the largest time. -/
theorem timer_serves_schedule {callback : Bool} {start period : ℤ} {t t' : Timer}
    {trace : List (Move Timer TimerAction)} (hperiod : 0 < period)
    (hinit : timerInit callback start period = some (.ok t)) (hrun : Run TimerStep t trace t')
    (hkeeps : Admitted KeepsSchedule trace) :
    OnGrid start period t'.nextCallTime ∧
      (trace.filterMap slotOf).Pairwise (· < ·) ∧
      (∀ slot ∈ trace.filterMap slotOf, OnGrid start period slot ∧ slot < t'.nextCallTime) ∧
      (∀ slot, OnGrid start period slot → slot < t'.nextCallTime →
        (slot ∉ trace.filterMap slotOf ↔ ∃ move ∈ trace, Skips slot move)) ∧
      (0 ≤ start → t'.nextCallTime + period < 2 ^ 63 → ∀ now, now + period < 2 ^ 63 →
        ∃ called, TimerStep t' (.call now) called) := by
  have ht : Scheduled start period t ∧ t.nextCallTime = start + period := by
    rw [timerInit, if_neg (not_lt.mpr hperiod.le)] at hinit
    obtain ⟨nextCallTime, hnext, hcreated⟩ := Option.bind_eq_some_iff.mp hinit
    have hlate := int64_lt hnext
    obtain rfl := int64_eq_some hnext
    obtain rfl := Except.ok.inj (Option.some.inj hcreated)
    have hnow : start < 2 ^ 63 := by omega
    exact ⟨⟨rfl, onGrid_first start period, fun hstart => ⟨hstart, hnow⟩⟩, rfl⟩
  obtain ⟨ht', -, hsorted, hserved, hskipped, hunserved⟩ := served_from hperiod hrun ht.1 hkeeps
  refine ⟨ht'.onGrid, hsorted, fun slot hmem => ?_,
    fun slot hgrid hto => ⟨fun habsent => ?_, ?_⟩, fun hstart hdue now hnow => ?_⟩
  · obtain ⟨hgrid, -, hto⟩ := hserved slot hmem
    exact ⟨hgrid, hto⟩
  · apply (hskipped slot hgrid _ hto).resolve_left habsent
    obtain ⟨k, hk, rfl⟩ := hgrid
    rw [ht.2]
    have hone : (1 : ℤ) ≤ k := by exact_mod_cast hk
    linarith [mul_le_mul_of_nonneg_right hone hperiod.le]
  · rintro ⟨move, hmem, hskips⟩
    exact (hunserved slot move hmem hskips).2
  · obtain ⟨hlast, hcalled⟩ := ht'.called hstart
    have hnext : 0 ≤ t'.nextCallTime := by
      obtain ⟨k, -, hk⟩ := ht'.onGrid
      rw [hk]
      exact add_nonneg hstart (mul_nonneg (Int.natCast_nonneg k) hperiod.le)
    rw [← ht'.period_eq] at hperiod hdue hnow
    exact call_defined hperiod hlast hcalled hnext hdue hnow

/-- A timer of ten is called in time, and then, after a jump of the clock, so late that two
instants are left out. -/
theorem late_call_skips :
    ∃ (trace : List (Move Timer TimerAction)) (t' : Timer),
      Run TimerStep ⟨true, 10, 0, 10, 0, false, 0⟩ trace t' ∧
        trace.filterMap slotOf = [10, 20] ∧ t'.nextCallTime = 50 ∧
        (∃ move ∈ trace, Skips 30 move) ∧ OnGrid 0 10 50 := by
  have hinit : timerInit true 0 10 = some (.ok ⟨true, 10, 0, 10, 0, false, 0⟩) := by decide
  have hrun : Run TimerStep ⟨true, 10, 0, 10, 0, false, 0⟩ _
      ⟨true, 10, 45, 50, 0, false, 1⟩ :=
    .cons (show TimerStep _ (.call 11) ⟨true, 10, 11, 20, 0, false, 0⟩ from rfl) <|
      .cons (show TimerStep _ (.jump false 12 44) ⟨true, 10, 11, 20, 0, false, 1⟩ from rfl) <|
      .cons (show TimerStep _ (.call 45) _ from rfl) <| .nil _
  obtain ⟨hgrid, -, -, hskipped, -⟩ := timer_serves_schedule (by decide) hinit hrun
    (.cons trivial (.cons ⟨rfl, by decide⟩ (.cons trivial (.nil _))))
  refine ⟨_, _, hrun, by decide, by decide, ?_, hgrid⟩
  exact (hskipped 30 ⟨3, by decide, by decide⟩ (by decide)).mp (by decide)

end RosRtems.RclTimer
