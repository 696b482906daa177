import RosRtems.Core.Runs
import Mathlib.Data.List.Basic
import Mathlib.Data.List.Nodup
import Mathlib.Logic.Function.Basic

/-!
# The POSIX timers of the executor without a loop

`add_node` registers a `PosixTimer` for every timer of the node, `start` creates and
arms a timer of the operating system for each, and `stop` disarms them.  They follow
the executor exactly where it is started only while stopped, and with a timer of the
operating system for each of its own, nodes with timers join it only while stopped, it
is stopped only with timers that exist, and no timer expires that is not armed again.
-/

namespace RosRtems.NoExecutor

open RosRtems.Runs

variable {Node Timer Group : Type*}

inductive Build
  | rtems
  | linux
  deriving DecidableEq

/-- `timerid` is zero until `start` has created the timer. -/
structure PosixTimer (Timer Group : Type*) where
  period : ℕ
  timer : Timer
  callbackGroup : Group
  timerid : ℕ
  index : ℕ

/-- A timer of a node, with the period that `get_period_from_timer` reads. -/
structure NodeTimer (Timer Group : Type*) where
  period : ℕ
  timer : Timer
  callbackGroup : Group

/-- A timer of the operating system: the position of the `PosixTimer` whose address
is its signal value, and the interval it is armed with. -/
structure OsTimer where
  sigev : ℕ
  interval : Option ℕ
  deriving DecidableEq

/-! ## The operating system -/

/-- The timers that exist, by their identifiers; zero may be one. -/
abbrev OsTimers := ℕ → Option OsTimer

/-- What `timer_create` returns for the timer at each position: nothing where it fails,
and otherwise an identifier of its own that no timer has. -/
structure Fresh (osTimers : OsTimers) (results : ℕ → Option ℕ) : Prop where
  unused : ∀ position timerid, results position = some timerid → osTimers timerid = none
  apart : ∀ position other timerid, results position = some timerid →
    results other = some timerid → other = position

/-- `timer_create`, where it succeeds. -/
def timerCreate (osTimers : OsTimers) (timerid sigev : ℕ) : OsTimers :=
  Function.update osTimers timerid (some ⟨sigev, none⟩)

/-- `timer_settime`, which fails where no timer has the identifier. -/
def timerSettime (osTimers : OsTimers) (timerid : ℕ) (interval : Option ℕ) :
    Option OsTimers :=
  (osTimers timerid).map fun os =>
    Function.update osTimers timerid (some { os with interval := interval })

/-- The timer is disarmed, where there is one. -/
def disarm (osTimers : OsTimers) (timerid : ℕ) : OsTimers :=
  (timerSettime osTimers timerid none).getD osTimers

/-- An expired timer is armed again for its interval, and disarmed where that is zero. -/
def timerExpire (osTimers : OsTimers) (timerid : ℕ) : OsTimers :=
  if (osTimers timerid).bind (·.interval) = some 0 then disarm osTimers timerid
  else osTimers

/-! ## The executor -/

/-- `nodes` are the nodes associated with the executor.  `aborted` says that an
asserted call has failed. -/
structure TimerState (Node Timer Group : Type*) where
  timers : List (PosixTimer Timer Group)
  osTimers : OsTimers
  started : Bool
  nodes : List Node
  destroyed : Bool
  aborted : Bool

def TimerState.initial : TimerState Node Timer Group where
  timers := []
  osTimers := fun _ => none
  started := false
  nodes := []
  destroyed := false
  aborted := false

/-- The `push_back` of `add_node`, for one timer after another. -/
def registerTimers (timers : List (PosixTimer Timer Group)) :
    List (NodeTimer Timer Group) → List (PosixTimer Timer Group)
  | [] => timers
  | new :: rest =>
      registerTimers
        (timers ++ [⟨new.period, new.timer, new.callbackGroup, 0, timers.length⟩]) rest

/-- The first loop of `start`, with whether all its assertions have passed. -/
def createTimers (results : ℕ → Option ℕ) : List (PosixTimer Timer Group) → ℕ → OsTimers →
    List (PosixTimer Timer Group) × OsTimers × Bool
  | [], _, osTimers => ([], osTimers, true)
  | timer :: rest, position, osTimers =>
      match results position with
      | none => (timer :: rest, osTimers, false)
      | some timerid =>
          let (timers, all, asserted) :=
            createTimers results rest (position + 1) (timerCreate osTimers timerid position)
          ({ timer with timerid := timerid } :: timers, all, asserted)

/-- The second loop of `start` and the loop of `stop`. -/
def settimeAll (interval : PosixTimer Timer Group → Option ℕ) :
    List (PosixTimer Timer Group) → OsTimers → Option OsTimers
  | [], osTimers => some osTimers
  | timer :: rest, osTimers =>
      (timerSettime osTimers timer.timerid (interval timer)).bind
        (settimeAll interval rest)

namespace TimerState

variable (s : TimerState Node Timer Group)

def addNode [DecidableEq Node] (node : Node) (new : List (NodeTimer Timer Group)) :
    TimerState Node Timer Group :=
  if node ∈ s.nodes then s
  else { s with nodes := s.nodes ++ [node], timers := registerTimers s.timers new }

/-- The timers stay registered. -/
def removeNode [DecidableEq Node] (node : Node) : TimerState Node Timer Group :=
  { s with nodes := s.nodes.erase node }

def start (results : ℕ → Option ℕ) : TimerState Node Timer Group :=
  match createTimers results s.timers 0 s.osTimers with
  | (timers, osTimers, false) =>
      { s with timers := timers, osTimers := osTimers, aborted := true }
  | (timers, created, true) =>
      match settimeAll (fun timer => some timer.period) timers created with
      | some osTimers => { s with timers := timers, osTimers := osTimers, started := true }
      | none =>
          { s with timers := timers, osTimers := created, started := true, aborted := true }

def stop : TimerState Node Timer Group :=
  match settimeAll (fun _ => none) s.timers s.osTimers with
  | some osTimers => { s with osTimers := osTimers, started := false }
  | none => { s with started := false, aborted := true }

def destroy : TimerState Node Timer Group :=
  { s.stop with destroyed := true }

/-- A timer expires and signals; on Linux `handle_timer` disarms the timer where it finds
that of the node cancelled. -/
def expire (build : Build) (timerid : ℕ) (ptimer : PosixTimer Timer Group)
    (canceled : Bool) : TimerState Node Timer Group :=
  let osTimers := timerExpire s.osTimers timerid
  match build with
  | .rtems => { s with osTimers := osTimers }
  | .linux =>
      { s with
        osTimers :=
          if s.started && canceled then disarm osTimers ptimer.timerid else osTimers }

end TimerState

/-- `spin` is a `start` and, once the context is shut down, a `stop`. -/
inductive TimerLabel (Node Timer Group : Type*)
  | addNode (node : Node) (new : List (NodeTimer Timer Group))
  | removeNode (node : Node)
  | start (results : ℕ → Option ℕ)
  | stop
  | destroy

/-- The calls.  The executor is used until it is destroyed or an assertion has failed. -/
inductive TimerStep [DecidableEq Node] : TimerState Node Timer Group →
    TimerLabel Node Timer Group → TimerState Node Timer Group → Prop
  | addNode (s : TimerState Node Timer Group) (node : Node)
      (new : List (NodeTimer Timer Group)) (hlive : s.destroyed = false)
      (hrunning : s.aborted = false) : TimerStep s (.addNode node new) (s.addNode node new)
  | removeNode (s : TimerState Node Timer Group) (node : Node)
      (hlive : s.destroyed = false) (hrunning : s.aborted = false) :
      TimerStep s (.removeNode node) (s.removeNode node)
  | start (s : TimerState Node Timer Group) (results : ℕ → Option ℕ)
      (hlive : s.destroyed = false) (hrunning : s.aborted = false)
      (hfresh : Fresh s.osTimers results) : TimerStep s (.start results) (s.start results)
  | stop (s : TimerState Node Timer Group) (hlive : s.destroyed = false)
      (hrunning : s.aborted = false) : TimerStep s .stop s.stop
  | destroy (s : TimerState Node Timer Group) (hlive : s.destroyed = false)
      (hrunning : s.aborted = false) : TimerStep s .destroy s.destroy

inductive ClockLabel (Node Timer Group : Type*)
  | call (label : TimerLabel Node Timer Group)
  | expire (timerid : ℕ) (canceled : Bool)

/-- Calls and expirations in any order.  The signal of a timer may come late, after the
timer has been disarmed. -/
inductive ClockStep [DecidableEq Node] (build : Build) : TimerState Node Timer Group →
    ClockLabel Node Timer Group → TimerState Node Timer Group → Prop
  | call (s : TimerState Node Timer Group) (label : TimerLabel Node Timer Group)
      (t : TimerState Node Timer Group) (hstep : TimerStep s label t) :
      ClockStep build s (.call label) t
  | expire (s : TimerState Node Timer Group) (timerid : ℕ) (canceled : Bool) (os : OsTimer)
      (ptimer : PosixTimer Timer Group) (hlive : s.destroyed = false)
      (hrunning : s.aborted = false) (hos : s.osTimers timerid = some os)
      (hptimer : s.timers[os.sigev]? = some ptimer) :
      ClockStep build s (.expire timerid canceled) (s.expire build timerid ptimer canceled)

/-- The timer of the operating system is armed and signals the timer of the node. -/
def ArmedFor (s : TimerState Node Timer Group) (timer : Timer) (timerid : ℕ) : Prop :=
  ∃ os registered, s.osTimers timerid = some os ∧ os.interval ≠ none ∧
    s.timers[os.sigev]? = some registered ∧ registered.timer = timer

/-- While started every registered timer has one armed timer of the operating system,
with its period; while stopped none is armed; an armed one is known by its identifier;
and no assertion has failed. -/
structure FollowsLifeCycle (s : TimerState Node Timer Group) : Prop where
  armed : s.started = true → ∀ (position : ℕ) (registered : PosixTimer Timer Group),
    s.timers[position]? = some registered →
      ∃ timerid : ℕ, s.osTimers timerid = some ⟨position, some registered.period⟩ ∧
        ∀ other, ArmedFor s registered.timer other → other = timerid
  unarmed : s.started = false → ∀ timerid os, s.osTimers timerid = some os →
    os.interval = none
  known : ∀ timerid os, s.osTimers timerid = some os → os.interval ≠ none →
    ∃ registered ∈ s.timers, registered.timerid = timerid
  asserted : s.aborted = false

/-- `start` comes to a stopped executor or to one without timers, registered no timer
twice, and creates them all; a node that brings timers joins while stopped; `stop` finds
a timer of the operating system for each; none expires that was armed with period zero;
and on Linux none expires that is cancelled. -/
def Orderly (build : Build) (s : TimerState Node Timer Group) :
    ClockLabel Node Timer Group → Prop
  | .call (.addNode node new) => s.started = true → node ∉ s.nodes → new = []
  | .call (.removeNode _) => True
  | .call (.start results) => (s.started = true → s.timers = []) ∧
      (s.timers.map (·.timer)).Nodup ∧
        ∀ position < s.timers.length, results position ≠ none
  | .call .stop | .call .destroy =>
      ∀ registered ∈ s.timers, s.osTimers registered.timerid ≠ none
  | .expire timerid canceled =>
      (∀ os, s.osTimers timerid = some os → os.interval ≠ some 0) ∧
        (build = .linux → s.started = true → canceled = false)

/-! ## The operating system's timers -/

section OperatingSystem

variable {osTimers after : OsTimers} {timerid : ℕ}

theorem timerSettime_of_some {os : OsTimer} (hos : osTimers timerid = some os)
    (interval : Option ℕ) : timerSettime osTimers timerid interval =
      some (Function.update osTimers timerid (some { os with interval := interval })) := by
  rw [timerSettime, hos, Option.map_some]

theorem timerSettime_eq_some {interval : Option ℕ}
    (hset : timerSettime osTimers timerid interval = some after) :
    ∃ os, osTimers timerid = some os ∧
      after = Function.update osTimers timerid (some { os with interval := interval }) := by
  obtain ⟨os, hos, hafter⟩ := Option.map_eq_some_iff.mp hset
  exact ⟨os, hos, hafter.symm⟩

/-- What is armed after a timer has been disarmed is another timer, armed before. -/
theorem armed_of_disarm {other : ℕ} {os : OsTimer}
    (hos : disarm osTimers timerid other = some os) (hset : os.interval ≠ none) :
    other ≠ timerid ∧ osTimers other = some os := by
  rw [disarm] at hos
  cases hbefore : osTimers timerid with
  | none =>
      rw [timerSettime, hbefore, Option.map_none, Option.getD_none] at hos
      refine ⟨?_, hos⟩
      rintro rfl
      rw [hbefore] at hos
      cases hos
  | some old =>
      rw [timerSettime_of_some hbefore, Option.getD_some] at hos
      by_cases hother : other = timerid
      · rw [hother, Function.update_self, Option.some.injEq] at hos
        exact absurd (by rw [← hos]) hset
      · rw [Function.update_of_ne hother] at hos
        exact ⟨hother, hos⟩

theorem armed_of_timerExpire {other : ℕ} {os : OsTimer}
    (hos : timerExpire osTimers timerid other = some os) (hset : os.interval ≠ none) :
    (other = timerid → os.interval ≠ some 0) ∧ osTimers other = some os := by
  rw [timerExpire] at hos
  split at hos
  · obtain ⟨hother, hbefore⟩ := armed_of_disarm hos hset
    exact ⟨fun hsame => absurd hsame hother, hbefore⟩
  · rename_i hperiodic
    refine ⟨?_, hos⟩
    rintro rfl hzero
    rw [hos, Option.bind_some] at hperiodic
    exact hperiodic hzero

theorem timerExpire_eq_self
    (hperiodic : ∀ os, osTimers timerid = some os → os.interval ≠ some 0) :
    timerExpire osTimers timerid = osTimers := by
  rw [timerExpire, if_neg]
  intro hzero
  obtain ⟨os, hos, hinterval⟩ := Option.bind_eq_some_iff.mp hzero
  exact hperiodic os hos hinterval

end OperatingSystem

/-! ## The loops -/

section Loops

theorem registerTimers_eq (timers : List (PosixTimer Timer Group))
    (new : List (NodeTimer Timer Group)) :
    ∃ added, registerTimers timers new = timers ++ added ∧ added.length = new.length := by
  induction new generalizing timers with
  | nil => exact ⟨[], by simp [registerTimers]⟩
  | cons first rest ih =>
      let pushed : PosixTimer Timer Group :=
        ⟨first.period, first.timer, first.callbackGroup, 0, timers.length⟩
      obtain ⟨added, hadded, hlength⟩ := ih (timers ++ [pushed])
      refine ⟨pushed :: added, ?_, by simp [hlength]⟩
      rw [registerTimers, hadded, List.append_assoc, List.singleton_append]

/-- The loop changes nothing of a registered timer but its identifier. -/
theorem map_createTimers {α : Type*} (f : PosixTimer Timer Group → α)
    (hf : ∀ timer timerid, f { timer with timerid := timerid } = f timer)
    (results : ℕ → Option ℕ) (timers : List (PosixTimer Timer Group)) (position : ℕ)
    (osTimers : OsTimers) :
    (createTimers results timers position osTimers).1.map f = timers.map f := by
  induction timers generalizing position osTimers with
  | nil => rfl
  | cons timer rest ih =>
      rw [createTimers]
      cases results position with
      | none => rfl
      | some timerid =>
          rw [List.map_cons, List.map_cons, hf]
          exact congrArg _ (ih (position + 1) (timerCreate osTimers timerid position))

/-- The assertions of the loop pass exactly where every timer is created. -/
theorem createTimers_asserted_iff (results : ℕ → Option ℕ)
    (timers : List (PosixTimer Timer Group)) (position : ℕ) (osTimers : OsTimers) :
    (createTimers results timers position osTimers).2.2 = true ↔
      ∀ i < timers.length, results (position + i) ≠ none := by
  induction timers generalizing position osTimers with
  | nil => simp [createTimers]
  | cons timer rest ih =>
      have hfirst : (∀ i < (timer :: rest).length, results (position + i) ≠ none) ↔
          results position ≠ none ∧ ∀ i < rest.length, results (position + 1 + i) ≠ none := by
        rw [List.length_cons, Nat.forall_lt_succ_left]
        simp only [Nat.add_zero, Nat.add_assoc, Nat.add_comm 1]
      rw [hfirst, createTimers]
      cases results position with
      | none => simp
      | some timerid =>
          simpa using ih (position + 1) (timerCreate osTimers timerid position)

/-- The registered timers take the identifiers that they are given. -/
theorem createTimers_timers {results : ℕ → Option ℕ}
    {timers : List (PosixTimer Timer Group)} {position : ℕ} {osTimers : OsTimers}
    (hasserted : (createTimers results timers position osTimers).2.2 = true) (i : ℕ) :
    (createTimers results timers position osTimers).1[i]? =
      timers[i]?.map fun timer =>
        { timer with timerid := (results (position + i)).getD 0 } := by
  induction timers generalizing position osTimers i with
  | nil => rfl
  | cons timer rest ih =>
      cases hresult : results position with
      | none => simp [createTimers, hresult] at hasserted
      | some timerid =>
          simp only [createTimers, hresult] at hasserted ⊢
          cases i with
          | zero => simp [hresult]
          | succ i =>
              rw [List.getElem?_cons_succ, List.getElem?_cons_succ, ih hasserted i,
                Nat.add_right_comm, Nat.add_assoc]

/-- The loop creates an unarmed timer for each position, and leaves the others alone. -/
theorem createTimers_osTimers {results : ℕ → Option ℕ}
    (hapart : ∀ i j timerid, results i = some timerid → results j = some timerid → j = i)
    {timers : List (PosixTimer Timer Group)} {position : ℕ} {osTimers : OsTimers}
    (hasserted : (createTimers results timers position osTimers).2.2 = true)
    (timerid : ℕ) :
    (∀ i < timers.length, results (position + i) = some timerid →
      (createTimers results timers position osTimers).2.1 timerid =
        some ⟨position + i, none⟩) ∧
    ((∀ i < timers.length, results (position + i) ≠ some timerid) →
      (createTimers results timers position osTimers).2.1 timerid = osTimers timerid) := by
  induction timers generalizing position osTimers with
  | nil => simp [createTimers]
  | cons timer rest ih =>
      cases hresult : results position with
      | none => simp [createTimers, hresult] at hasserted
      | some created =>
          simp only [createTimers, hresult] at hasserted ⊢
          obtain ⟨hcreated, hkept⟩ := ih hasserted
          constructor
          · intro i hi hmine
            cases i with
            | zero =>
                obtain rfl : created = timerid := by simpa [hresult] using hmine
                have hnone : ∀ j < rest.length, results (position + 1 + j) ≠ some created := by
                  intro j _ hlater
                  have hsame := hapart _ _ _ hresult hlater
                  omega
                rw [hkept hnone, timerCreate, Function.update_self, Nat.add_zero]
            | succ i =>
                have hnext : position + (i + 1) = position + 1 + i := by omega
                rw [hnext] at hmine ⊢
                exact hcreated i (by simpa using hi) hmine
          · intro hother
            have hne : timerid ≠ created := by
              rintro rfl
              exact hother 0 (by simp) hresult
            rw [hkept, timerCreate, Function.update_of_ne hne]
            intro i hi hlater
            apply hother (i + 1) (by simpa using hi)
            rw [← hlater]
            congr 1
            omega

/-- The loop sets every timer that has an identifier of the list, and no other. -/
theorem settimeAll_spec {interval : PosixTimer Timer Group → Option ℕ}
    {timers : List (PosixTimer Timer Group)} {osTimers after : OsTimers}
    (hset : settimeAll interval timers osTimers = some after) (timerid : ℕ) :
    ((∀ timer ∈ timers, timer.timerid ≠ timerid) → after timerid = osTimers timerid) ∧
    ∀ value, (∀ timer ∈ timers, timer.timerid = timerid → interval timer = value) →
      (∃ timer ∈ timers, timer.timerid = timerid) →
        ∃ os, osTimers timerid = some os ∧
          after timerid = some { os with interval := value } := by
  induction timers generalizing osTimers with
  | nil =>
      obtain rfl : osTimers = after := by simpa [settimeAll] using hset
      simp
  | cons timer rest ih =>
      obtain ⟨middle, hfirst, hrest⟩ := Option.bind_eq_some_iff.mp hset
      obtain ⟨first, hos, rfl⟩ := timerSettime_eq_some hfirst
      obtain ⟨hoff, hon⟩ := ih hrest
      constructor
      · intro hnone
        obtain ⟨hne, hnoneRest⟩ := List.forall_mem_cons.mp hnone
        rw [hoff hnoneRest, Function.update_of_ne hne.symm]
      · intro value hvalue hsome
        obtain ⟨hmine, hvalueRest⟩ := List.forall_mem_cons.mp hvalue
        by_cases hlater : ∃ later ∈ rest, later.timerid = timerid
        · obtain ⟨os, hmiddle, hafter⟩ := hon value hvalueRest hlater
          by_cases hid : timerid = timer.timerid
          · subst hid
            rw [Function.update_self, Option.some.injEq] at hmiddle
            exact ⟨first, hos, by rw [hafter, ← hmiddle]⟩
          · rw [Function.update_of_ne hid] at hmiddle
            exact ⟨os, hmiddle, hafter⟩
        · have hnone : ∀ later ∈ rest, later.timerid ≠ timerid :=
            fun later hmem hid => hlater ⟨later, hmem, hid⟩
          have hid : timer.timerid = timerid := by
            obtain ⟨other, hmem, hid⟩ := hsome
            rcases List.mem_cons.mp hmem with rfl | htail
            · exact hid
            · exact absurd hid (hnone other htail)
          subst hid
          exact ⟨first, hos, by rw [hoff hnone, Function.update_self, hmine rfl]⟩

/-- The loop passes its assertions exactly where every identifier is that of a timer. -/
theorem settimeAll_isSome_iff (interval : PosixTimer Timer Group → Option ℕ)
    (timers : List (PosixTimer Timer Group)) (osTimers : OsTimers) :
    (∃ after, settimeAll interval timers osTimers = some after) ↔
      ∀ timer ∈ timers, osTimers timer.timerid ≠ none := by
  induction timers generalizing osTimers with
  | nil => simp [settimeAll]
  | cons timer rest ih =>
      rw [List.forall_mem_cons, settimeAll]
      cases hos : osTimers timer.timerid with
      | none => simp [timerSettime, hos]
      | some os =>
          rw [timerSettime_of_some hos, Option.bind_some, ih]
          have hsame : ∀ other : PosixTimer Timer Group,
              Function.update osTimers timer.timerid
                (some { os with interval := interval timer }) other.timerid = none ↔
              osTimers other.timerid = none := by
            intro other
            by_cases hother : other.timerid = timer.timerid
            · simp [hother, hos]
            · rw [Function.update_of_ne hother]
          simp only [ne_eq, hsame, reduceCtorEq, not_false_eq_true, true_and]

end Loops

/-! ## The invariant -/

section Invariant

variable {s : TimerState Node Timer Group}

/-- Every armed timer is that of the registered timer it signals, and while started each
registered timer has been created and is armed with its period. -/
structure TimerInvariant (s : TimerState Node Timer Group) : Prop where
  armed : ∀ timerid os, s.osTimers timerid = some os → os.interval ≠ none →
    s.started = true ∧ ∃ registered, s.timers[os.sigev]? = some registered ∧
      registered.timerid = timerid
  running : s.started = true → ∀ (position : ℕ) (registered : PosixTimer Timer Group),
    s.timers[position]? = some registered →
      s.osTimers registered.timerid = some ⟨position, some registered.period⟩
  distinct : s.started = true → (s.timers.map (·.timer)).Nodup
  asserted : s.aborted = false

theorem timerInvariant_initial :
    TimerInvariant (.initial : TimerState Node Timer Group) where
  armed := by simp [TimerState.initial]
  running := by simp [TimerState.initial]
  distinct := by simp [TimerState.initial]
  asserted := rfl

/-- Positions whose timers are the same are the same where no timer is registered twice. -/
theorem position_unique (hdistinct : (s.timers.map (·.timer)).Nodup) {i j : ℕ}
    {first second : PosixTimer Timer Group} (hfirst : s.timers[i]? = some first)
    (hsecond : s.timers[j]? = some second) (htimer : first.timer = second.timer) :
    i = j := by
  have hi : (s.timers.map (·.timer))[i]? = some first.timer := by simp [hfirst]
  have hj : (s.timers.map (·.timer))[j]? = some first.timer := by simp [hsecond, htimer]
  have hlt : i < (s.timers.map (·.timer)).length := (List.getElem?_eq_some_iff.mp hi).1
  exact (List.getElem?_inj hlt hdistinct).mp (hi.trans hj.symm)

theorem TimerInvariant.followsLifeCycle (h : TimerInvariant s) : FollowsLifeCycle s where
  armed := by
    intro hstarted position registered hregistered
    refine ⟨registered.timerid, h.running hstarted position registered hregistered, ?_⟩
    rintro other ⟨os, found, hos, hset, hfound, htimer⟩
    obtain ⟨-, signalled, hsignalled, hid⟩ := h.armed other os hos hset
    have hsame := position_unique (h.distinct hstarted) hfound hregistered htimer
    rw [hsame, hregistered, Option.some.injEq] at hsignalled
    rw [hsignalled, hid]
  unarmed := by
    intro hstopped timerid os hos
    by_contra hset
    have hstarted := (h.armed timerid os hos hset).1
    rw [hstopped] at hstarted
    cases hstarted
  known := by
    intro timerid os hos hset
    obtain ⟨-, registered, hregistered, hid⟩ := h.armed timerid os hos hset
    exact ⟨registered, List.mem_of_getElem? hregistered, hid⟩
  asserted := h.asserted

/-- An executor that follows its life cycle has registered no timer twice. -/
theorem FollowsLifeCycle.distinct (h : FollowsLifeCycle s) (hstarted : s.started = true) :
    (s.timers.map (·.timer)).Nodup := by
  rw [List.nodup_iff_injective_get]
  intro i j hsame
  have hi : i.val < s.timers.length := by simpa using i.isLt
  have hj : j.val < s.timers.length := by simpa using j.isLt
  have htimer : s.timers[j.val].timer = s.timers[i.val].timer := by simpa using hsame.symm
  obtain ⟨timerid, hos, honly⟩ :=
    h.armed hstarted i.val s.timers[i.val] (List.getElem?_eq_getElem hi)
  obtain ⟨other, hother, -⟩ :=
    h.armed hstarted j.val s.timers[j.val] (List.getElem?_eq_getElem hj)
  have hsame : other = timerid := by
    apply honly
    exact ⟨_, _, hother, nofun, List.getElem?_eq_getElem hj, htimer⟩
  subst hsame
  rw [hos, Option.some.injEq, OsTimer.mk.injEq] at hother
  exact Fin.ext hother.1

end Invariant

/-! ## The calls -/

section Calls

variable {s : TimerState Node Timer Group} {results : ℕ → Option ℕ}

theorem timerInvariant_addNode [DecidableEq Node] {node : Node}
    {new : List (NodeTimer Timer Group)} (h : TimerInvariant s)
    (hnew : s.started = true → node ∉ s.nodes → new = []) :
    TimerInvariant (s.addNode node new) := by
  rw [TimerState.addNode]
  split
  · exact h
  · rename_i habsent
    obtain ⟨added, hadded, hlength⟩ := registerTimers_eq s.timers new
    have hnone : s.started = true → registerTimers s.timers new = s.timers := by
      intro hstarted
      have hempty : added = [] := by
        rw [← List.length_eq_zero_iff, hlength, hnew hstarted habsent, List.length_nil]
      rw [hadded, hempty, List.append_nil]
    constructor
    · intro timerid os hos hset
      obtain ⟨hstarted, registered, hregistered, hid⟩ := h.armed timerid os hos hset
      exact ⟨hstarted, registered, by rwa [hnone hstarted], hid⟩
    · intro hstarted
      change ∀ (position : ℕ) registered,
        (registerTimers s.timers new)[position]? = some registered → _
      rw [hnone hstarted]
      exact h.running hstarted
    · intro hstarted
      change ((registerTimers s.timers new).map _).Nodup
      rw [hnone hstarted]
      exact h.distinct hstarted
    · exact h.asserted

variable (s results) in
/-- Whatever `start` does, it changes nothing of a registered timer but its identifier. -/
theorem map_start {α : Type*} (f : PosixTimer Timer Group → α)
    (hf : ∀ timer timerid, f { timer with timerid := timerid } = f timer) :
    (s.start results).nodes = s.nodes ∧ (s.start results).timers.map f = s.timers.map f := by
  have hmap := map_createTimers f hf results s.timers 0 s.osTimers
  rcases hloop : createTimers results s.timers 0 s.osTimers with ⟨timers, created, _ | _⟩
  · simpa only [TimerState.start, hloop, true_and] using hmap
  · cases hset : settimeAll (fun timer => some timer.period) timers created <;>
      simpa only [TimerState.start, hloop, hset, true_and] using hmap

/-- A `start` whose assertions pass has created every timer. -/
theorem created_of_start (hasserted : (s.start results).aborted = false) :
    ∀ position < s.timers.length, results position ≠ none := by
  have hiff := createTimers_asserted_iff results s.timers 0 s.osTimers
  simp only [Nat.zero_add] at hiff
  rw [← hiff]
  rcases hloop : createTimers results s.timers 0 s.osTimers with ⟨timers, created, _ | _⟩
  · simp [TimerState.start, hloop] at hasserted
  · rfl

/-- What `start` leaves where it creates every timer: those that existed before are as
they were, and each registered timer has one of its own, armed with its period. -/
theorem start_spec (hfresh : Fresh s.osTimers results)
    (hresults : ∀ position < s.timers.length, results position ≠ none) :
    ∃ (created : List (PosixTimer Timer Group)) (osTimers : OsTimers),
      s.start results =
        { s with timers := created, osTimers := osTimers, started := true } ∧
      (∀ (i : ℕ) (registered : PosixTimer Timer Group), created[i]? = some registered →
        ∃ timer, s.timers[i]? = some timer ∧ results i = some registered.timerid ∧
          registered.period = timer.period) ∧
      (∀ timerid, (∀ registered ∈ created, registered.timerid ≠ timerid) →
        osTimers timerid = s.osTimers timerid) ∧
      ∀ (i : ℕ) (registered : PosixTimer Timer Group), created[i]? = some registered →
        osTimers registered.timerid = some ⟨i, some registered.period⟩ := by
  have hasserted := (createTimers_asserted_iff results s.timers 0 s.osTimers).mpr
    (by simpa only [Nat.zero_add] using hresults)
  have htimers := createTimers_timers hasserted
  have hos := createTimers_osTimers hfresh.apart hasserted
  rcases hloop : createTimers results s.timers 0 s.osTimers with ⟨created, made, asserted⟩
  simp only [hloop, Nat.zero_add] at hasserted htimers hos
  subst hasserted
  have hcreated : ∀ (i : ℕ) (registered : PosixTimer Timer Group),
      created[i]? = some registered → ∃ timer, s.timers[i]? = some timer ∧
        results i = some registered.timerid ∧ registered.period = timer.period := by
    intro i registered hregistered
    rw [htimers, Option.map_eq_some_iff] at hregistered
    obtain ⟨timer, htimer, rfl⟩ := hregistered
    have hlt := (List.getElem?_eq_some_iff.mp htimer).1
    obtain ⟨timerid, hresult⟩ := Option.ne_none_iff_exists'.mp (hresults i hlt)
    exact ⟨timer, htimer, by rw [hresult, Option.getD_some], rfl⟩
  have hmade : ∀ (i : ℕ) (registered : PosixTimer Timer Group),
      created[i]? = some registered → made registered.timerid = some ⟨i, none⟩ := by
    intro i registered hregistered
    obtain ⟨timer, htimer, hresult, -⟩ := hcreated i registered hregistered
    exact (hos registered.timerid).1 i (List.getElem?_eq_some_iff.mp htimer).1 hresult
  obtain ⟨osTimers, hset⟩ :=
    (settimeAll_isSome_iff (fun timer => some timer.period) created made).mpr (by
      intro registered hmem
      obtain ⟨i, hi⟩ := List.mem_iff_getElem?.mp hmem
      simp [hmade i registered hi])
  refine ⟨created, osTimers, by simp only [TimerState.start, hloop, hset], hcreated, ?_, ?_⟩
  · intro timerid hnone
    rw [(settimeAll_spec hset timerid).1 hnone]
    apply (hos timerid).2
    intro i hi hresult
    have hi' : s.timers[i]? = some s.timers[i] := List.getElem?_eq_getElem hi
    refine hnone _ (List.mem_of_getElem? (by rw [htimers, hi', Option.map_some])) ?_
    rw [hresult, Option.getD_some]
  · intro i registered hregistered
    obtain ⟨os, hbefore, hafter⟩ :=
      (settimeAll_spec hset registered.timerid).2 (some registered.period) (by
        intro other hmem hid
        obtain ⟨j, hj⟩ := List.mem_iff_getElem?.mp hmem
        obtain ⟨-, -, hresult, -⟩ := hcreated i registered hregistered
        obtain ⟨-, -, hother, -⟩ := hcreated j other hj
        rw [hfresh.apart i j _ hresult (hid ▸ hother), hregistered, Option.some.injEq] at hj
        rw [hj]) ⟨registered, List.mem_of_getElem? hregistered, rfl⟩
    rw [hmade i registered hregistered, Option.some.injEq] at hbefore
    rw [hafter, ← hbefore]

theorem timerInvariant_start (h : TimerInvariant s) (hfresh : Fresh s.osTimers results)
    (hfirst : s.started = true → s.timers = [])
    (hdistinct : (s.timers.map (·.timer)).Nodup)
    (hresults : ∀ position < s.timers.length, results position ≠ none) :
    TimerInvariant (s.start results) := by
  have hmap := (map_start s results (·.timer) fun _ _ => rfl).2
  obtain ⟨created, osTimers, hstart, -, hold, hnew⟩ := start_spec hfresh hresults
  have hquiet : ∀ timerid os, s.osTimers timerid = some os → os.interval = none := by
    intro timerid os hos
    by_contra hset
    obtain ⟨hstarted, registered, hregistered, -⟩ := h.armed timerid os hos hset
    rw [hfirst hstarted, List.getElem?_nil] at hregistered
    cases hregistered
  rw [hstart] at hmap ⊢
  constructor
  · intro timerid os hos hset
    change osTimers timerid = some os at hos
    by_cases hmine : ∃ registered ∈ created, registered.timerid = timerid
    · obtain ⟨registered, hmem, rfl⟩ := hmine
      obtain ⟨i, hi⟩ := List.mem_iff_getElem?.mp hmem
      rw [hnew i registered hi, Option.some.injEq] at hos
      exact ⟨rfl, registered, by rw [← hos]; exact hi, rfl⟩
    · rw [hold timerid fun registered hmem hid => hmine ⟨registered, hmem, hid⟩] at hos
      exact absurd (hquiet timerid os hos) hset
  · exact fun _ => hnew
  · intro _
    rw [hmap]
    exact hdistinct
  · exact h.asserted

theorem created_of_stop (hasserted : s.stop.aborted = false) :
    ∀ registered ∈ s.timers, s.osTimers registered.timerid ≠ none := by
  rw [← settimeAll_isSome_iff fun _ => none]
  rcases hset : settimeAll (fun _ => none) s.timers s.osTimers with _ | osTimers
  · simp [TimerState.stop, hset] at hasserted
  · exact ⟨osTimers, rfl⟩

/-- `stop` disarms every timer. -/
theorem TimerInvariant.stop_spec (h : TimerInvariant s)
    (hexists : ∀ registered ∈ s.timers, s.osTimers registered.timerid ≠ none) :
    ∃ osTimers, s.stop = { s with osTimers := osTimers, started := false } ∧
      ∀ timerid os, osTimers timerid = some os → os.interval = none := by
  obtain ⟨osTimers, hset⟩ := (settimeAll_isSome_iff (fun _ => none) _ _).mpr hexists
  refine ⟨osTimers, by simp only [TimerState.stop, hset], ?_⟩
  intro timerid os hos
  obtain ⟨hoff, hon⟩ := settimeAll_spec hset timerid
  by_cases hmine : ∃ registered ∈ s.timers, registered.timerid = timerid
  · obtain ⟨before, -, hafter⟩ := hon none (fun _ _ _ => rfl) hmine
    rw [hos, Option.some.injEq] at hafter
    rw [hafter]
  · by_contra hset
    rw [hoff fun registered hmem hid => hmine ⟨registered, hmem, hid⟩] at hos
    obtain ⟨-, registered, hregistered, hid⟩ := h.armed timerid os hos hset
    exact hmine ⟨registered, List.mem_of_getElem? hregistered, hid⟩

theorem timerInvariant_stop (h : TimerInvariant s)
    (hexists : ∀ registered ∈ s.timers, s.osTimers registered.timerid ≠ none) :
    TimerInvariant s.stop := by
  obtain ⟨osTimers, hstop, hnone⟩ := h.stop_spec hexists
  rw [hstop]
  exact ⟨fun timerid os hos hset => absurd (hnone timerid os hos) hset, nofun, nofun,
    h.asserted⟩

theorem timerInvariant_call [DecidableEq Node] {build : Build}
    {label : TimerLabel Node Timer Group} {t : TimerState Node Timer Group}
    (h : TimerInvariant s) (hadmits : Orderly build s (.call label))
    (hstep : TimerStep s label t) : TimerInvariant t := by
  cases hstep with
  | addNode node new _ _ => exact timerInvariant_addNode h hadmits
  | removeNode node _ _ => exact ⟨h.armed, h.running, h.distinct, h.asserted⟩
  | start results _ _ hfresh =>
      obtain ⟨hfirst, hdistinct, hresults⟩ := hadmits
      exact timerInvariant_start h hfresh hfirst hdistinct hresults
  | stop _ _ => exact timerInvariant_stop h hadmits
  | destroy _ _ =>
      have hstop := timerInvariant_stop h hadmits
      exact ⟨hstop.armed, hstop.running, hstop.distinct, hstop.asserted⟩

/-- A `start` of a started executor with timers forgets the timers it had armed. -/
theorem FollowsLifeCycle.of_start (h : TimerInvariant s)
    (hfresh : Fresh s.osTimers results) (ht : FollowsLifeCycle (s.start results)) :
    (s.started = true → s.timers = []) ∧ (s.timers.map (·.timer)).Nodup ∧
      ∀ position < s.timers.length, results position ≠ none := by
  have hresults := created_of_start ht.asserted
  have hmap := (map_start s results (·.timer) fun _ _ => rfl).2
  obtain ⟨created, osTimers, hstart, hcreated, hold, -⟩ := start_spec hfresh hresults
  refine ⟨?_, by rw [← hmap]; exact ht.distinct (by rw [hstart]), hresults⟩
  intro hstarted
  cases htimers : s.timers with
  | nil => rfl
  | cons first rest =>
      have hos := h.running hstarted 0 first (by rw [htimers]; rfl)
      have hforgotten : ∀ registered ∈ created, registered.timerid ≠ first.timerid := by
        intro registered hmem hid
        obtain ⟨i, hi⟩ := List.mem_iff_getElem?.mp hmem
        obtain ⟨timer, -, hresult, -⟩ := hcreated i registered hi
        have hunused := hfresh.unused i _ hresult
        rw [hid, hos] at hunused
        cases hunused
      rw [hstart] at ht
      obtain ⟨registered, hmem, hid⟩ := ht.known first.timerid _
        ((hold _ hforgotten).trans hos) nofun
      exact absurd hid (hforgotten registered hmem)

theorem FollowsLifeCycle.of_call [DecidableEq Node] {build : Build}
    {label : TimerLabel Node Timer Group} {t : TimerState Node Timer Group}
    (h : TimerInvariant s) (hstep : TimerStep s label t) (ht : FollowsLifeCycle t) :
    Orderly build s (.call label) := by
  cases hstep with
  | addNode node new _ _ =>
      intro hstarted habsent
      obtain ⟨added, hadded, hlength⟩ := registerTimers_eq s.timers new
      rw [TimerState.addNode, if_neg habsent, hadded] at ht
      cases added with
      | nil => exact List.length_eq_zero_iff.mp hlength.symm
      | cons first rest =>
          -- no timer of the operating system signals the position of the new timer
          obtain ⟨timerid, hos, -⟩ := ht.armed hstarted s.timers.length first (by simp)
          obtain ⟨-, registered, hregistered, -⟩ := h.armed timerid _ hos nofun
          have hlt := (List.getElem?_eq_some_iff.mp hregistered).1
          exact absurd hlt (Nat.lt_irrefl _)
  | removeNode node _ _ => exact trivial
  | start results _ _ hfresh => exact ht.of_start h hfresh
  | stop _ _ => exact created_of_stop ht.asserted
  | destroy _ _ => exact created_of_stop ht.asserted

end Calls

/-! ## The expirations -/

section Expirations

variable {s : TimerState Node Timer Group} {build : Build} {timerid : ℕ}
  {ptimer : PosixTimer Timer Group} {canceled : Bool}

/-- A periodic timer that the handler does not disarm stays as it is. -/
theorem expire_eq_self
    (hperiodic : ∀ os, s.osTimers timerid = some os → os.interval ≠ some 0)
    (hactive : build = .linux → s.started = true → canceled = false) :
    s.expire build timerid ptimer canceled = s := by
  have hexpired := timerExpire_eq_self hperiodic
  cases build with
  | rtems => simp only [TimerState.expire, hexpired]
  | linux =>
      have hkept : ¬ (s.started && canceled) = true := by
        rw [Bool.and_eq_true]
        rintro ⟨hstarted, hcanceled⟩
        rw [hactive rfl hstarted] at hcanceled
        cases hcanceled
      simp only [TimerState.expire, hexpired, if_neg hkept]

/-- An expiration arms nothing: what is armed after it was so before, is not the expired
timer if that had period zero, and is not the one that the handler disarms. -/
theorem armed_of_expire {other : ℕ} {os : OsTimer}
    (hos : (s.expire build timerid ptimer canceled).osTimers other = some os)
    (hset : os.interval ≠ none) :
    (other = timerid → os.interval ≠ some 0) ∧ s.osTimers other = some os ∧
      (build = .linux → s.started = true → canceled = true → other ≠ ptimer.timerid) := by
  cases build with
  | rtems =>
      obtain ⟨hperiodic, hbefore⟩ := armed_of_timerExpire hos hset
      exact ⟨hperiodic, hbefore, nofun⟩
  | linux =>
      simp only [TimerState.expire] at hos
      split at hos
      · obtain ⟨hother, hrest⟩ := armed_of_disarm hos hset
        obtain ⟨hperiodic, hbefore⟩ := armed_of_timerExpire hrest hset
        exact ⟨hperiodic, hbefore, fun _ _ _ => hother⟩
      · rename_i hkept
        obtain ⟨hperiodic, hbefore⟩ := armed_of_timerExpire hos hset
        refine ⟨hperiodic, hbefore, fun _ hstarted hcanceled => ?_⟩
        rw [hstarted, hcanceled] at hkept
        exact absurd rfl hkept

variable (s build timerid ptimer canceled) in
theorem expire_started : (s.expire build timerid ptimer canceled).started = s.started ∧
    (s.expire build timerid ptimer canceled).timers = s.timers := by
  cases build <;> exact ⟨rfl, rfl⟩

/-- An expiration that leaves the life cycle intact leaves the timer of each registered
one armed. -/
theorem FollowsLifeCycle.still_armed (h : TimerInvariant s)
    (ht : FollowsLifeCycle (s.expire build timerid ptimer canceled))
    (hstarted : s.started = true) {position : ℕ} {registered : PosixTimer Timer Group}
    (hregistered : s.timers[position]? = some registered) :
    (s.expire build timerid ptimer canceled).osTimers registered.timerid =
      some ⟨position, some registered.period⟩ := by
  obtain ⟨hsame, htimers⟩ := expire_started s build timerid ptimer canceled
  obtain ⟨other, hos, -⟩ := ht.armed (hsame.trans hstarted) position registered
    (by rw [htimers, hregistered])
  obtain ⟨-, hbefore, -⟩ := armed_of_expire hos nofun
  obtain ⟨-, signalled, hsignalled, hid⟩ := h.armed other _ hbefore nofun
  rw [hregistered, Option.some.injEq] at hsignalled
  rw [hsignalled, hid, ← hsignalled, hos]

theorem FollowsLifeCycle.of_expire (h : TimerInvariant s) {os : OsTimer}
    (hos : s.osTimers timerid = some os) (hptimer : s.timers[os.sigev]? = some ptimer)
    (ht : FollowsLifeCycle (s.expire build timerid ptimer canceled)) :
    Orderly build s (.expire timerid canceled) := by
  constructor
  · intro expired hexpired hzero
    obtain ⟨hstarted, registered, hregistered, rfl⟩ :=
      h.armed timerid expired hexpired (by rw [hzero]; nofun)
    have hafter := ht.still_armed h hstarted hregistered
    obtain ⟨hperiodic, hbefore, -⟩ := armed_of_expire hafter nofun
    rw [hexpired, Option.some.injEq] at hbefore
    exact hperiodic rfl (by rw [← hbefore, hzero])
  · intro hlinux hstarted
    have hafter := ht.still_armed h hstarted hptimer
    obtain ⟨-, -, hkept⟩ := armed_of_expire hafter nofun
    cases hcanceled : canceled with
    | false => rfl
    | true => exact absurd rfl (hkept hlinux hstarted hcanceled)

end Expirations

/-! ## The life cycle -/

section LifeCycle

variable [DecidableEq Node] {build : Build}

theorem timerInvariant_step (s : TimerState Node Timer Group)
    (label : ClockLabel Node Timer Group) (t : TimerState Node Timer Group)
    (h : TimerInvariant s) (hadmits : Orderly build s label)
    (hstep : ClockStep build s label t) : TimerInvariant t := by
  cases hstep with
  | call label _ hstep => exact timerInvariant_call h hadmits hstep
  | expire timerid canceled os ptimer _ _ hos hptimer =>
      rw [expire_eq_self hadmits.1 hadmits.2]
      exact h

theorem orderly_of_followsLifeCycle (s : TimerState Node Timer Group)
    (label : ClockLabel Node Timer Group) (t : TimerState Node Timer Group)
    (h : TimerInvariant s) (hstep : ClockStep build s label t) (ht : FollowsLifeCycle t) :
    Orderly build s label := by
  cases hstep with
  | call label _ hstep => exact ht.of_call h hstep
  | expire timerid canceled os ptimer _ _ hos hptimer => exact ht.of_expire h hos hptimer

/-- The POSIX timers follow the executor in exactly the orderly runs. -/
theorem followsLifeCycle_iff_orderly
    {trace : List (Move (TimerState Node Timer Group) (ClockLabel Node Timer Group))}
    {finish : TimerState Node Timer Group}
    (hrun : Run (ClockStep build) TimerState.initial trace finish) :
    Throughout FollowsLifeCycle TimerState.initial trace ↔ Admitted (Orderly build) trace :=
  hrun.throughout_iff_admitted (fun _ => TimerInvariant.followsLifeCycle)
    timerInvariant_step orderly_of_followsLifeCycle timerInvariant_initial

end LifeCycle

/-- `timer_create` that numbers its timers one after another, as many as there may be. -/
def numbered (first count : ℕ) (position : ℕ) : Option ℕ :=
  if position < count then some (first + position) else none

theorem fresh_numbered {osTimers : OsTimers} {first count : ℕ}
    (hfree : ∀ i < count, osTimers (first + i) = none) :
    Fresh osTimers (numbered first count) := by
  constructor
  · intro position timerid hresult
    obtain ⟨hlt, rfl⟩ : position < count ∧ first + position = timerid := by
      simpa [numbered] using hresult
    exact hfree position hlt
  · intro position other timerid hresult hother
    obtain ⟨-, rfl⟩ : position < count ∧ first + position = timerid := by
      simpa [numbered] using hresult
    obtain ⟨-, hsame⟩ : other < count ∧ first + other = first + position := by
      simpa [numbered] using hother
    exact Nat.add_left_cancel hsame

/-- A node with two timers joins, and the executor is started, stopped, started once more
and destroyed, on Linux, where the first timer has the identifier zero.  A timer expires
while started, and the signal of another comes after the stop, when it is cancelled. -/
theorem restarted_followsLifeCycle :
    ∃ (trace : List (Move (TimerState ℕ ℕ ℕ) (ClockLabel ℕ ℕ ℕ)))
      (finish : TimerState ℕ ℕ ℕ), Run (ClockStep .linux) TimerState.initial trace finish ∧
        Throughout FollowsLifeCycle TimerState.initial trace ∧
          finish.timers.map (·.timerid) = [2, 3] ∧ finish.destroyed = true := by
  have hrun : Run (ClockStep .linux) (.initial : TimerState ℕ ℕ ℕ) _ _ :=
    .cons (.call _ _ _ (.addNode _ 0 [⟨10, 0, 0⟩, ⟨20, 1, 0⟩] rfl rfl)) <|
    .cons (.call _ _ _ (.start _ (numbered 0 2) rfl rfl (fresh_numbered (by decide)))) <|
    .cons (.expire _ 0 false ⟨0, some 10⟩ ⟨10, 0, 0, 0, 0⟩ rfl rfl rfl rfl) <|
    .cons (.call _ _ _ (.stop _ rfl rfl)) <|
    .cons (.expire _ 1 true ⟨1, none⟩ ⟨20, 1, 0, 1, 1⟩ rfl rfl rfl rfl) <|
    .cons (.call _ _ _ (.start _ (numbered 2 2) rfl rfl (fresh_numbered (by decide)))) <|
    .cons (.call _ _ _ (.destroy _ rfl rfl)) <| .nil _
  refine ⟨_, _, hrun, (followsLifeCycle_iff_orderly hrun).mpr ?_, rfl, rfl⟩
  exact .cons nofun <| .cons ⟨nofun, by decide, by decide⟩ <|
    .cons ⟨by rintro os ⟨⟩ ⟨⟩, fun _ _ => rfl⟩ <|
    .cons (by change ∀ registered ∈ _, _; decide) <| .cons ⟨by rintro os ⟨⟩ ⟨⟩, nofun⟩ <|
    .cons ⟨nofun, by decide, by decide⟩ <|
    .cons (by change ∀ registered ∈ _, _; decide) <| .nil _

/-- Started twice without a stop, the executor forgets the timer it has armed first. -/
theorem started_twice_forgets_timer :
    ∃ (trace : List (Move (TimerState ℕ ℕ ℕ) (ClockLabel ℕ ℕ ℕ)))
      (finish : TimerState ℕ ℕ ℕ), Run (ClockStep .rtems) TimerState.initial trace finish ∧
        finish.osTimers 5 = some ⟨0, some 10⟩ ∧ finish.osTimers 6 = some ⟨0, some 10⟩ ∧
          finish.timers.map (·.timerid) = [6] ∧
            ¬ Throughout FollowsLifeCycle TimerState.initial trace := by
  have hrun : Run (ClockStep .rtems) (.initial : TimerState ℕ ℕ ℕ) _ _ :=
    .cons (.call _ _ _ (.addNode _ 0 [⟨10, 0, 0⟩] rfl rfl)) <|
    .cons (.call _ _ _ (.start _ (numbered 5 1) rfl rfl (fresh_numbered (by decide)))) <|
    .cons (.call _ _ _ (.start _ (numbered 6 1) rfl rfl (fresh_numbered (by decide)))) <|
    .nil _
  refine ⟨_, _, hrun, rfl, rfl, rfl, ?_⟩
  intro hall
  obtain ⟨registered, hmem, hid⟩ :=
    (hrun.finish_of_throughout hall).known 5 ⟨0, some 10⟩ rfl nofun
  have hsix : registered.timerid = 6 := by
    rw [List.mem_singleton.mp hmem]
  omega

end RosRtems.NoExecutor
