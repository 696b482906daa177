import RosRtems.Core.WhileLoop
import Mathlib.Algebra.Group.Int.Defs
import Mathlib.Algebra.Group.Nat.Defs
import Mathlib.Logic.Function.Basic
import Mathlib.Data.Fintype.Basic
import Mathlib.Data.List.FinRange
import Mathlib.Tactic.DeriveFintype

/-!
# The multiplexed timer device

This module is the driver behind `/dev/rtss_timer`: eight channels share the
single countdown of the private timer.  The interrupt handler dispatches the
expired channels, and every change of the set of active channels re-arms the
countdown for the nearest expiration.

Clock values and periods are nanoseconds.  Sums of them are taken in `ℤ`.  The product
that `ns_to_pt_load` forms may leave `int64_t`, where C leaves the load undefined; the
model has what a two's-complement register keeps of it.
-/

namespace RosRtems.TimerDriver

open RosRtems.WhileLoop

/-! ## Constants and words -/

/-- `rtems_id`. -/
abbrev RtemsId := ℕ

/-- `rtems_interval`. -/
abbrev Interval := UInt32

/-- `RTEMS_ID_NONE`, which is also the id `RTEMS_SELF`. -/
def rtemsIdNone : RtemsId := 0

/-- `RTSS_TIMER_MAX_CHANNELS`. -/
abbrev rtssTimerMaxChannels : ℕ := 8

abbrev Channel := Fin rtssTimerMaxChannels

/-- `RTSS_TIMER_MIN_PERIOD_NS`. -/
def rtssTimerMinPeriodNs : ℤ := 1000

/-- `RTSS_TIMER_MAX_PERIOD_NS`. -/
def rtssTimerMaxPeriodNs : ℤ := 4294967295 * 10

/-- `PT_PERIPHCLK`, the 100 MHz peripheral clock. -/
def ptPeriphclk : ℤ := 100000000

def nsPerSecond : ℤ := 1000000000

/-- `INT64_MAX`. -/
def int64Max : ℤ := 2 ^ 63 - 1

/-- The value a 64-bit two's-complement register keeps of an integer. -/
def toInt64 (value : ℤ) : ℤ := value.bmod (2 ^ 64)

/-- The `rtems_status_code` values the driver returns; `other` stands for a code
handed through from `rtems_interrupt_handler_install`. -/
inductive StatusCode
  | successful
  | invalidAddress
  | invalidNumber
  | notDefined
  | tooMany
  | other (code : ℕ)
  deriving DecidableEq, Repr

/-! ## State -/

/-- `rtss_channel_state`. -/
structure ChannelState where
  active : Bool
  periodNs : ℤ
  nextFireNs : ℤ
  targetTask : RtemsId
  deriving DecidableEq

/-- What the driver last wrote to the private timer, and when it did: `enabled`
is the control register with `IRQ_EN | TMR_EN` or zero. -/
structure PrivateTimer where
  enabled : Bool
  load : ℕ
  armedNs : ℤ
  deriving DecidableEq

/-- One `rtems_event_send` of the interrupt handler, with the expiration it was
sent for and the clock value the handler had read. -/
structure Notification where
  channel : Channel
  target : RtemsId
  dueNs : ℤ
  sentNs : ℤ
  deriving DecidableEq

/-- The driver instance `drv`, the array `rtss_isr_fire_ns`, the private timer
and the events sent so far. -/
structure Driver where
  initialized : Bool
  opened : Bool
  isrInstalled : Bool
  channels : Channel → ChannelState
  isrFireNs : Channel → ℤ
  pt : PrivateTimer
  sent : List Notification
  deriving DecidableEq

def Driver.setChannel (d : Driver) (i : Channel) (ch : ChannelState) : Driver :=
  { d with channels := Function.update d.channels i ch }

/-- Some channel is active. -/
def Driver.AnyActive (d : Driver) : Prop :=
  ∃ i, (d.channels i).active = true

/-! ## Arming the private timer -/

def nsToPtLoad (ns : ℤ) : ℕ :=
  let load := (toInt64 (ns * ptPeriphclk)).tdiv nsPerSecond
  let load := if load < 1 then 1 else load
  let load := if load > 0xFFFFFFFF then 0xFFFFFFFF else load
  load.toNat

def ptDisable (d : Driver) : Driver :=
  { d with pt := { d.pt with enabled := false } }

/-- `now` is the instant at which the control register is written. -/
def ptArmDelta (now deltaNs : ℤ) (d : Driver) : Driver :=
  { d with pt := { enabled := true, load := nsToPtLoad deltaNs, armedNs := now } }

def ptArmAbsolute (now targetNs : ℤ) (d : Driver) : Driver :=
  let delta := targetNs - now
  ptArmDelta now (if delta < 1 then 1 else delta) d

/-- One turn of the search loop: the nearest channel so far and its time. -/
def nearestVisit (d : Driver) (best : Option Channel × ℤ) (i : Channel) :
    Option Channel × ℤ :=
  let ch := d.channels i
  if ch.active && decide (ch.nextFireNs < best.2) then (some i, ch.nextFireNs)
  else best

def findNearestExpiration (d : Driver) : Option Channel × ℤ :=
  (List.finRange rtssTimerMaxChannels).foldl (nearestVisit d) (none, int64Max)

def rearmPt (now : ℤ) (d : Driver) : Driver :=
  match findNearestExpiration d with
  | (none, _) => ptDisable d
  | (some _, nearest) => ptArmAbsolute now nearest d

/-! ## The interrupt handler -/

def ChannelState.expired (now : ℤ) (ch : ChannelState) : Bool :=
  decide (ch.nextFireNs ≤ now)

def ChannelState.skipPeriod (ch : ChannelState) : ChannelState :=
  { ch with nextFireNs := ch.nextFireNs + ch.periodNs }

/-- `while (ch->next_fire_ns <= now) ch->next_fire_ns += ch->period_ns`. -/
def catchUp (fuel : ℕ) (now : ℤ) (ch : ChannelState) : Option ChannelState :=
  whileLoop (ChannelState.expired now) ChannelState.skipPeriod fuel ch

/-- The channels the handler dispatches at clock value `now`. -/
def ChannelState.due (now : ℤ) (ch : ChannelState) : Bool :=
  ch.active && ch.targetTask != rtemsIdNone && ch.expired now

/-- The body of the channel loop of `pt_isr`. -/
def isrVisit (fuel : ℕ) (now : ℤ) (d : Driver) (i : Channel) : Option Driver :=
  let ch := d.channels i
  if ch.due now then
    (catchUp fuel now ch).map fun advanced =>
      { d.setChannel i advanced with
        isrFireNs := Function.update d.isrFireNs i now
        sent := d.sent ++ [⟨i, ch.targetTask, ch.nextFireNs, now⟩] }
  else some d

def isrLoop (fuel : ℕ) (now : ℤ) (d : Driver) (is : List Channel) : Option Driver :=
  is.foldlM (isrVisit fuel now) d

/-- `now` is the clock value the handler reads, `armNow` the one `rearm_pt`
reads after it.  `none` means that a catch-up loop was still running. -/
def ptIsr (fuel : ℕ) (now armNow : ℤ) (d : Driver) : Option Driver :=
  (isrLoop fuel now d (List.finRange rtssTimerMaxChannels)).map (rearmPt armNow)

/-- The handler returns when it reads `now`. -/
def IsrTerminates (d : Driver) (now : ℤ) : Prop :=
  ∃ fuel, ∀ armNow, (ptIsr fuel now armNow d).isSome

/-! ## Driver operations -/

/-- The state `rtss_init` leaves behind. -/
def rtssInit : Driver where
  initialized := true
  opened := false
  isrInstalled := false
  channels := fun _ =>
    { active := false, periodNs := 0, nextFireNs := int64Max,
      targetTask := rtemsIdNone }
  isrFireNs := fun _ => 0
  pt := { enabled := false, load := 0, armedNs := 0 }
  sent := []

/-- `sc` is what `rtems_interrupt_handler_install` would return. -/
def installPtIsr (sc : StatusCode) (d : Driver) : StatusCode × Driver :=
  if d.isrInstalled then (.successful, d)
  else if sc = .successful then (sc, { d with isrInstalled := true })
  else (sc, d)

def rtssOpen (sc : StatusCode) (d : Driver) : StatusCode × Driver :=
  if d.opened then (.tooMany, d)
  else
    match installPtIsr sc d with
    | (.successful, installed) => (.successful, { installed with opened := true })
    | (failure, unchanged) => (failure, unchanged)

/-- The body of the channel loop of `rtss_close`. -/
def closeVisit (d : Driver) (i : Channel) : Driver :=
  d.setChannel i
    { d.channels i with
      active := false, targetTask := rtemsIdNone, nextFireNs := int64Max }

/-- What follows the loop in `rtss_close`. -/
def closeFinish (d : Driver) : Driver :=
  { ptDisable d with opened := false }

def rtssClose (d : Driver) : Driver :=
  closeFinish ((List.finRange rtssTimerMaxChannels).foldl closeVisit d)

/-! ## Control operations -/

/-- `rtss_trigger_mode`. -/
inductive TriggerMode
  | event
  | binarySemaphore
  | messageQueue
  deriving DecidableEq, Repr

/-- `rtss_timer_config`. -/
structure TimerConfig where
  channel : ℤ
  periodTicks : Interval
  deriving DecidableEq

/-- `rtss_timer_ns_config`. -/
structure TimerNsConfig where
  channel : ℤ
  periodNs : ℤ
  deriving DecidableEq

/-- `rtss_timer_task_config`. -/
structure TimerTaskConfig where
  channel : ℤ
  targetTask : RtemsId
  deriving DecidableEq

/-- An `ioctl` command with its buffer, `none` being a null pointer. -/
inductive Command
  | setMode (mode : TriggerMode)
  | setPeriod (cfg : Option TimerConfig)
  | setPeriodNs (cfg : Option TimerNsConfig)
  | start (cfg : Option TimerConfig)
  | stop (cfg : Option TimerConfig)
  | setTask (cfg : Option TimerTaskConfig)
  | unknown
  deriving DecidableEq

/-- What `rtss_control` returns, what it stores in `ioctl_return` (`none` where it
stores nothing) and the driver it leaves. -/
structure ControlOutcome where
  status : StatusCode
  ioctlReturn : Option ℤ
  driver : Driver

def accept (d : Driver) : ControlOutcome := ⟨.successful, some 0, d⟩

def reject (status : StatusCode) (d : Driver) : ControlOutcome := ⟨status, none, d⟩

/-- The channel a configuration names, if it is within range. -/
def channelOf (channel : ℤ) : Option Channel :=
  if h : 0 ≤ channel ∧ channel < rtssTimerMaxChannels then
    some ⟨channel.toNat, by omega⟩
  else none

/-- The two checks every configuring command starts with: the buffer is there and
its channel is within range. -/
def withChannel {Config : Type} (d : Driver) (cfg : Option Config)
    (channel : Config → ℤ) (action : Config → Channel → ControlOutcome) :
    ControlOutcome :=
  match cfg with
  | none => reject .invalidAddress d
  | some cfg =>
      match channelOf (channel cfg) with
      | none => reject .invalidNumber d
      | some i => action cfg i

/-- `(int64_t)period_ticks * 1000000000LL / tps`. -/
def ticksToNs (periodTicks tps : Interval) : ℤ :=
  ((periodTicks.toNat : ℤ) * nsPerSecond).tdiv tps.toNat

def controlSetPeriod (d : Driver) (tps : Interval) (cfg : Option TimerConfig) :
    ControlOutcome :=
  withChannel d cfg (·.channel) fun cfg i =>
    if tps = 0 then reject .notDefined d
    else accept (d.setChannel i
      { d.channels i with periodNs := ticksToNs cfg.periodTicks tps })

def controlSetPeriodNs (d : Driver) (cfg : Option TimerNsConfig) : ControlOutcome :=
  withChannel d cfg (·.channel) fun cfg i =>
    if cfg.periodNs < rtssTimerMinPeriodNs then reject .invalidNumber d
    else if cfg.periodNs > rtssTimerMaxPeriodNs then reject .invalidNumber d
    else accept (d.setChannel i { d.channels i with periodNs := cfg.periodNs })

/-- `now` is read for the first expiration, `armNow` by `rearm_pt`; interrupts are
disabled from the first reading on. -/
def controlStart (d : Driver) (now armNow : ℤ) (cfg : Option TimerConfig) :
    ControlOutcome :=
  withChannel d cfg (·.channel) fun _ i =>
    let ch := d.channels i
    if ch.periodNs = 0 then reject .notDefined d
    else accept (rearmPt armNow (d.setChannel i
      { ch with active := true, nextFireNs := now + ch.periodNs }))

def controlStop (d : Driver) (armNow : ℤ) (cfg : Option TimerConfig) :
    ControlOutcome :=
  withChannel d cfg (·.channel) fun _ i =>
    accept (rearmPt armNow (d.setChannel i
      { d.channels i with active := false, nextFireNs := int64Max }))

def controlSetTask (d : Driver) (cfg : Option TimerTaskConfig) : ControlOutcome :=
  withChannel d cfg (·.channel) fun cfg i =>
    accept (d.setChannel i { d.channels i with targetTask := cfg.targetTask })

/-- `tps` is the value of `rtems_clock_get_ticks_per_second`. -/
def rtssControl (d : Driver) (tps : Interval) (now armNow : ℤ) :
    Command → ControlOutcome
  | .setMode _ => accept d
  | .setPeriod cfg => controlSetPeriod d tps cfg
  | .setPeriodNs cfg => controlSetPeriodNs d cfg
  | .start cfg => controlStart d now armNow cfg
  | .stop cfg => controlStop d armNow cfg
  | .setTask cfg => controlSetTask d cfg
  | .unknown => ⟨.notDefined, some (-1), d⟩

end RosRtems.TimerDriver
