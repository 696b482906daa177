import RosRtems.NoExecutor.TimerSignals
import Mathlib.Data.List.Nodup

/-!
# Waiting for work

A worker waits on a `Condition` until its flag is no longer zero.  Both builds load the
flag in a loop and wait in the kernel while it has the value; they differ in what they
do with the outcome of the wait.  The RTEMS build loads the flag again after a timeout,
the Linux build returns on every error of the futex, and one of them says nothing about
the flag: a signal.
-/

namespace RosRtems.Condition

open RosRtems.Runs
open RosRtems.NoExecutor (Build)

variable {Task : Type*}

/-! ## The two builds -/

/-- A status of `rtems_event_receive`, or the result of `FUTEX_WAIT` with its `errno`. -/
inductive Outcome
  | successful
  | timeout
  | unsatisfied
  | invalidAddress
  | woken
  | again
  | interrupted
  deriving DecidableEq

/-- What `wait_on` returns after the outcome; `none` where it goes back to its load. -/
def Outcome.result : Outcome → Option ℤ
  | .successful | .timeout | .woken => none
  | .unsatisfied | .invalidAddress | .again | .interrupted => some (-1)

/-- The receive waits, and has a place for the events; the futex call compares the
value with the expected one. -/
def Outcome.Possible (build : Build) (futex expected : UInt32) : Outcome → Prop
  | .successful | .timeout => build = .rtems
  | .unsatisfied | .invalidAddress => False
  | .woken | .interrupted => build = .linux
  | .again => build = .linux ∧ futex ≠ expected

/-- The value that was compared last: by the kernel, or by the load before the wait. -/
def Outcome.seen (futex expected : UInt32) : Outcome → UInt32
  | .again => futex
  | .successful | .timeout | .unsatisfied | .invalidAddress | .woken | .interrupted =>
      expected

/-- Where a task is in `wait_on`: outside, before the load, or in the kernel. -/
inductive WaiterPc
  | outside
  | testing (expected : UInt32)
  | blocked (expected : UInt32)
  deriving DecidableEq

structure Return (Task : Type*) where
  task : Task
  expected : UInt32
  seen : UInt32
  result : ℤ

/-- `events` are the tasks with RTEMS_EVENT_1 pending, `returns` the calls of `wait_on`
that have returned. -/
structure ConditionState (Task : Type*) where
  futex : UInt32
  waiterTask : Option Task
  events : Task → Bool
  waiter : Task → WaiterPc
  returns : List (Return Task)

/-- The constructor leaves the value as it is in memory. -/
def ConditionState.initial (futex : UInt32) : ConditionState Task where
  futex := futex
  waiterTask := none
  events := fun _ => false
  waiter := fun _ => .outside
  returns := []

inductive ConditionLabel (Task : Type*)
  | setVal (value : UInt32) (wakeup : Bool)
  | event (task : Task)
  | waitOn (task : Task) (expected : UInt32)
  | load (task : Task)
  | outcome (task : Task) (outcome : Outcome)

namespace ConditionState

variable [DecidableEq Task] (s : ConditionState Task)

def moveWaiter (task : Task) (pc : WaiterPc) : ConditionState Task :=
  { s with waiter := Function.update s.waiter task pc }

def sendEvent (task : Task) : ConditionState Task :=
  { s with events := Function.update s.events task true }

/-- On Linux, the wake-up is an outcome of the waiter's call. -/
def futexWake : Build → ConditionState Task
  | .rtems => s.waiterTask.elim s s.sendEvent
  | .linux => s

def setVal (build : Build) (value : UInt32) (wakeup : Bool) : ConditionState Task :=
  if wakeup then ({ s with futex := value } : ConditionState Task).futexWake build
  else { s with futex := value }

/-- RTEMS keeps the task that waits. -/
def setWaiterTask (waiterTask : Option Task) : Build → ConditionState Task
  | .rtems => { s with waiterTask := waiterTask }
  | .linux => s

/-- A receive that succeeds takes the event. -/
def takeEvent (task : Task) : Outcome → ConditionState Task
  | .successful => { s with events := Function.update s.events task false }
  | .timeout | .unsatisfied | .invalidAddress | .woken | .again | .interrupted => s

def returned (task : Task) (expected seen : UInt32) (result : ℤ) : ConditionState Task :=
  { s.moveWaiter task .outside with
    returns := s.returns ++ [⟨task, expected, seen, result⟩] }

end ConditionState

section Steps

variable [DecidableEq Task] (build : Build)

/-- Any order of calls of `set_val`, of events from elsewhere, and of the steps of the
tasks in `wait_on`, with any outcome that the wait may have. -/
inductive ConditionStep : ConditionState Task → ConditionLabel Task →
    ConditionState Task → Prop
  | setVal (s : ConditionState Task) (value : UInt32) (wakeup : Bool) :
      ConditionStep s (.setVal value wakeup) (s.setVal build value wakeup)
  | event (s : ConditionState Task) (task : Task) :
      ConditionStep s (.event task) (s.sendEvent task)
  | waitOn (s : ConditionState Task) (task : Task) (expected : UInt32)
      (hpc : s.waiter task = .outside) :
      ConditionStep s (.waitOn task expected)
        ((s.setWaiterTask (some task) build).moveWaiter task (.testing expected))
  | block (s : ConditionState Task) (task : Task) (expected : UInt32)
      (hpc : s.waiter task = .testing expected) (hfutex : s.futex = expected) :
      ConditionStep s (.load task) (s.moveWaiter task (.blocked expected))
  | leave (s : ConditionState Task) (task : Task) (expected : UInt32)
      (hpc : s.waiter task = .testing expected) (hfutex : s.futex ≠ expected) :
      ConditionStep s (.load task) (s.returned task expected s.futex 0)
  | again (s : ConditionState Task) (task : Task) (expected : UInt32) (outcome : Outcome)
      (hpc : s.waiter task = .blocked expected)
      (hpossible : outcome.Possible build s.futex expected)
      (hevent : outcome = .successful → s.events task = true)
      (hresult : outcome.result = none) :
      ConditionStep s (.outcome task outcome)
        ((s.takeEvent task outcome).moveWaiter task (.testing expected))
  | fail (s : ConditionState Task) (task : Task) (expected : UInt32) (outcome : Outcome)
      (result : ℤ) (hpc : s.waiter task = .blocked expected)
      (hpossible : outcome.Possible build s.futex expected)
      (hresult : outcome.result = some result) :
      ConditionStep s (.outcome task outcome)
        ((s.setWaiterTask none build).returned task expected
          (outcome.seen s.futex expected) result)

end Steps

/-- Every call of `wait_on` that has returned has seen another value. -/
def AllSeen (s : ConditionState Task) : Prop :=
  ∀ r ∈ s.returns, r.seen ≠ r.expected

/-- No wait is ended by a signal. -/
def Uninterrupted : ConditionLabel Task → Prop
  | .outcome _ outcome => outcome ≠ .interrupted
  | .setVal _ _ | .event _ | .waitOn _ _ | .load _ => True

/-! ## What a call of `wait_on` has seen -/

section Seen

variable [DecidableEq Task] {s s' : ConditionState Task} {build : Build}

/-- A call of `set_val` may send an event. -/
theorem setVal_eq (s : ConditionState Task) (build : Build) (value : UInt32)
    (wakeup : Bool) :
    ∃ events, s.setVal build value wakeup = { s with futex := value, events := events } := by
  unfold ConditionState.setVal
  split
  · cases build with
    | rtems => cases hwaiter : s.waiterTask <;> exact ⟨_, rfl⟩
    | linux => exact ⟨_, rfl⟩
  · exact ⟨_, rfl⟩

@[simp]
theorem setVal_futex (value : UInt32) (wakeup : Bool) :
    (s.setVal build value wakeup).futex = value := by
  obtain ⟨events, hset⟩ := setVal_eq s build value wakeup
  rw [hset]

@[simp]
theorem setVal_waiter (value : UInt32) (wakeup : Bool) :
    (s.setVal build value wakeup).waiter = s.waiter := by
  obtain ⟨events, hset⟩ := setVal_eq s build value wakeup
  rw [hset]

@[simp]
theorem setVal_returns (value : UInt32) (wakeup : Bool) :
    (s.setVal build value wakeup).returns = s.returns := by
  obtain ⟨events, hset⟩ := setVal_eq s build value wakeup
  rw [hset]

@[simp]
theorem moveWaiter_waiter (s : ConditionState Task) (task : Task) (pc : WaiterPc) :
    (s.moveWaiter task pc).waiter task = pc := Function.update_self ..

@[simp]
theorem returned_waiter (s : ConditionState Task) (task : Task) (expected seen : UInt32)
    (result : ℤ) : (s.returned task expected seen result).waiter task = .outside :=
  Function.update_self ..

omit [DecidableEq Task] in
@[simp]
theorem setWaiterTask_returns (waiterTask : Option Task) :
    (s.setWaiterTask waiterTask build).returns = s.returns := by
  cases build <;> rfl

@[simp]
theorem takeEvent_returns (task : Task) (outcome : Outcome) :
    (s.takeEvent task outcome).returns = s.returns := by
  cases outcome <;> rfl

/-- An error that is not a signal has compared the value. -/
theorem Outcome.seen_ne_iff {outcome : Outcome} {futex expected : UInt32} {result : ℤ}
    (hpossible : outcome.Possible build futex expected)
    (hresult : outcome.result = some result) :
    outcome.seen futex expected ≠ expected ↔ outcome ≠ .interrupted := by
  cases outcome with
  | successful | timeout | woken => cases hresult
  | unsatisfied | invalidAddress => exact hpossible.elim
  | again => exact iff_of_true hpossible.2 (by simp)
  | interrupted => exact iff_of_false (fun hseen => hseen rfl) fun hne => hne rfl

/-- A step keeps what has been seen exactly if it is not the end of a wait by a signal. -/
theorem allSeen_step_iff {label : ConditionLabel Task} (hs : AllSeen s)
    (hstep : ConditionStep build s label s') : AllSeen s' ↔ Uninterrupted label := by
  have happend : ∀ r : Return Task, AllSeen { s with returns := s.returns ++ [r] } ↔
      r.seen ≠ r.expected := by
    intro r
    simp only [AllSeen, List.forall_mem_append, List.forall_mem_singleton]
    exact and_iff_right hs
  cases hstep with
  | setVal value wakeup =>
      refine iff_of_true ?_ trivial
      rw [AllSeen, setVal_returns]
      exact hs
  | event task => exact iff_of_true hs trivial
  | waitOn task expected hpc =>
      refine iff_of_true ?_ trivial
      rw [AllSeen, ConditionState.moveWaiter, setWaiterTask_returns]
      exact hs
  | block task expected hpc hfutex => exact iff_of_true hs trivial
  | leave task expected hpc hfutex =>
      exact iff_of_true ((happend ⟨task, expected, s.futex, 0⟩).mpr hfutex) trivial
  | again task expected outcome hpc hpossible hevent hresult =>
      refine iff_of_true ?_ ?_
      · rw [AllSeen, ConditionState.moveWaiter, takeEvent_returns]
        exact hs
      · rintro rfl
        cases hresult
  | fail task expected outcome result hpc hpossible hresult =>
      have hreturns : (((s.setWaiterTask none build).returned task expected
          (outcome.seen s.futex expected) result).returns) =
          s.returns ++ [⟨task, expected, outcome.seen s.futex expected, result⟩] := by
        rw [ConditionState.returned, setWaiterTask_returns]
      rw [AllSeen, hreturns]
      exact (happend _).trans (Outcome.seen_ne_iff hpossible hresult)

variable {start finish : ConditionState Task}
  {trace : List (Move (ConditionState Task) (ConditionLabel Task))}

/-- The calls of `wait_on` of a run have all seen another value exactly if none of them
was ended by a signal. -/
theorem allSeen_iff (hrun : Run (ConditionStep build) start trace finish)
    (hstart : AllSeen start) :
    Throughout AllSeen start trace ↔ Admitted (fun _ label => Uninterrupted label) trace :=
  hrun.throughout_iff_admitted (fun _ hs => hs)
    (fun _ _ _ hs hlabel hstep => (allSeen_step_iff hs hstep).mpr hlabel)
    (fun _ _ _ hs hstep htarget => (allSeen_step_iff hs hstep).mp htarget) hstart

/-- The waits of the RTEMS build end with an event or a timeout. -/
theorem uninterrupted_of_rtems {label : ConditionLabel Task}
    (hstep : ConditionStep .rtems s label s') : Uninterrupted label := by
  cases hstep with
  | setVal _ _ | event _ | waitOn _ _ _ | block _ _ _ _ | leave _ _ _ _ => trivial
  | again task expected outcome hpc hpossible _ _ =>
      rintro rfl
      cases hpossible
  | fail task expected outcome result hpc hpossible _ =>
      rintro rfl
      cases hpossible

end Seen

/-! ## The thread of a worker -/

/-- Where the thread is in the loop of `thread_start`: before its next wait, in it, past
it, after the callback, or before the push. -/
inductive ThreadPc
  | idle
  | inWait
  | woken
  | executed
  | cleared
  deriving DecidableEq

/-- Who has the thread data: the thread itself, the idle stack, or a dispatcher that has
popped it, before or after it has written the executable. -/
inductive Place
  | working
  | onStack
  | popped
  | written
  deriving DecidableEq

/-- `executable` is the job in the slot and `handed` counts the jobs so far. -/
structure ThreadState where
  isBusy : ConditionState Unit
  pc : ThreadPc
  place : Place
  executable : ℕ
  handed : ℕ
  executions : List ℕ

/-- The thread has copied its first executable and set its flag. -/
def ThreadState.created : ThreadState where
  isBusy := .initial 1
  pc := .idle
  place := .working
  executable := 0
  handed := 1
  executions := []

inductive ThreadLabel
  | condition (label : ConditionLabel Unit)
  | thread
  | dispatcher

/-- A step within `wait_on`. -/
def ConditionLabel.InWait : ConditionLabel Task → Prop
  | .load _ | .outcome _ _ => True
  | .setVal _ _ | .event _ | .waitOn _ _ => False

/-- Any order of the steps of a worker's thread, which ignores what `wait_on` returns, and
of the dispatchers that hand it jobs. -/
inductive ThreadStep (build : Build) : ThreadState → ThreadLabel → ThreadState → Prop
  | waitOn (s : ThreadState) (isBusy : ConditionState Unit) (hpc : s.pc = .idle)
      (hstep : ConditionStep build s.isBusy (.waitOn () 0) isBusy) :
      ThreadStep build s (.condition (.waitOn () 0)) { s with isBusy := isBusy, pc := .inWait }
  | wait (s : ThreadState) (label : ConditionLabel Unit) (isBusy : ConditionState Unit)
      (hpc : s.pc = .inWait) (hlabel : label.InWait)
      (hstep : ConditionStep build s.isBusy label isBusy) :
      ThreadStep build s (.condition label) { s with isBusy := isBusy }
  | leave (s : ThreadState) (hpc : s.pc = .inWait)
      (hreturned : s.isBusy.waiter () = .outside) :
      ThreadStep build s .thread { s with pc := .woken }
  | execute (s : ThreadState) (hpc : s.pc = .woken) :
      ThreadStep build s .thread
        { s with pc := .executed, executions := s.executions ++ [s.executable] }
  | clear (s : ThreadState) (isBusy : ConditionState Unit) (hpc : s.pc = .executed)
      (hstep : ConditionStep build s.isBusy (.setVal 0 false) isBusy) :
      ThreadStep build s (.condition (.setVal 0 false))
        { s with isBusy := isBusy, pc := .cleared }
  | push (s : ThreadState) (hpc : s.pc = .cleared) :
      ThreadStep build s .thread { s with pc := .idle, place := .onStack }
  | pop (s : ThreadState) (hplace : s.place = .onStack) :
      ThreadStep build s .dispatcher { s with place := .popped }
  | write (s : ThreadState) (hplace : s.place = .popped) :
      ThreadStep build s .dispatcher
        { s with place := .written, executable := s.handed, handed := s.handed + 1 }
  | wake (s : ThreadState) (isBusy : ConditionState Unit) (hplace : s.place = .written)
      (hstep : ConditionStep build s.isBusy (.setVal 1 true) isBusy) :
      ThreadStep build s (.condition (.setVal 1 true))
        { s with isBusy := isBusy, place := .working }
  | event (s : ThreadState) (isBusy : ConditionState Unit)
      (hstep : ConditionStep build s.isBusy (.event ()) isBusy) :
      ThreadStep build s (.condition (.event ())) { s with isBusy := isBusy }

def ThreadUninterrupted : ThreadLabel → Prop
  | .condition label => Uninterrupted label
  | .thread | .dispatcher => True

/-- No wait was left without work, and no job was executed from a stale slot. -/
def LeavesWithWork (s : ThreadState) : Prop :=
  AllSeen s.isBusy ∧ s.executions.Nodup

/-- The job in the slot is still to be executed. -/
def HasWork (s : ThreadState) : Prop :=
  s.place = .written ∨
    (s.place = .working ∧ (s.pc = .idle ∨ s.pc = .inWait ∨ s.pc = .woken))

/-- The thread is in its wait, or on the way there. -/
def Waits (s : ThreadState) : Prop :=
  s.pc = .idle ∨ (s.pc = .inWait ∧ s.isBusy.waiter () ≠ .outside)

/-- While the thread data is not its own, the thread waits and its flag is zero. -/
structure ThreadInvariant (s : ThreadState) : Prop where
  seen : AllSeen s.isBusy
  expected : s.isBusy.waiter () = .outside ∨ s.isBusy.waiter () = .testing 0 ∨
    s.isBusy.waiter () = .blocked 0
  parked : s.place ≠ .working → s.isBusy.futex = 0 ∧ Waits s
  cleared : s.pc = .cleared → s.isBusy.futex = 0
  fresh : HasWork s → s.executable ∉ s.executions
  slot : s.executable < s.handed
  issued : ∀ job ∈ s.executions, job < s.handed
  nodup : s.executions.Nodup

section Thread

variable {s s' : ThreadState} {build : Build}

theorem ThreadInvariant.created : ThreadInvariant .created := by
  constructor <;> simp [ThreadState.created, ConditionState.initial, AllSeen]

theorem ThreadInvariant.working (hs : ThreadInvariant s) (hwaits : ¬ Waits s) :
    s.place = .working :=
  not_not.mp fun hplace => hwaits (hs.parked hplace).2

/-- A step within `wait_on(0)` that is not the end of a wait by a signal leaves it only
where the flag is set. -/
theorem wait_step {condition condition' : ConditionState Unit} {label : ConditionLabel Unit}
    (hexpected : condition.waiter () = .outside ∨ condition.waiter () = .testing 0 ∨
      condition.waiter () = .blocked 0)
    (hinWait : label.InWait) (huninterrupted : Uninterrupted label)
    (hstep : ConditionStep build condition label condition') :
    condition'.futex = condition.futex ∧
      ((condition'.waiter () = .outside ∧ condition.futex ≠ 0) ∨
        condition'.waiter () = .testing 0 ∨ condition'.waiter () = .blocked 0) := by
  have hzero : ∀ expected, condition.waiter () = .testing expected ∨
      condition.waiter () = .blocked expected → expected = 0 := by
    rintro expected (hpc | hpc) <;> simpa [hpc] using hexpected
  cases hstep with
  | setVal _ _ | event _ | waitOn _ _ _ => exact hinWait.elim
  | block task expected hpc hfutex =>
      obtain rfl := hzero expected (.inl hpc)
      exact ⟨rfl, .inr (.inr (moveWaiter_waiter ..))⟩
  | leave task expected hpc hfutex =>
      obtain rfl := hzero expected (.inl hpc)
      exact ⟨rfl, .inl ⟨returned_waiter .., hfutex⟩⟩
  | again task expected outcome hpc hpossible hevent hresult =>
      obtain rfl := hzero expected (.inr hpc)
      refine ⟨?_, .inr (.inl (moveWaiter_waiter ..))⟩
      cases outcome <;> rfl
  | fail task expected outcome result hpc hpossible hresult =>
      obtain rfl := hzero expected (.inr hpc)
      refine ⟨by cases build <;> rfl, .inl ⟨returned_waiter .., ?_⟩⟩
      have hseen := (Outcome.seen_ne_iff hpossible hresult).mpr huninterrupted
      cases outcome with
      | again => exact hseen
      | successful | timeout | unsatisfied | invalidAddress | woken | interrupted =>
          exact absurd rfl hseen

namespace ThreadInvariant

variable {isBusy : ConditionState Unit}

theorem waitOn (hs : ThreadInvariant s) (hpc : s.pc = .idle)
    (hstep : ConditionStep build s.isBusy (.waitOn () 0) isBusy) :
    ThreadInvariant { s with isBusy := isBusy, pc := .inWait } := by
  have hseen := (allSeen_step_iff hs.seen hstep).mpr trivial
  cases hstep with
  | waitOn _ _ hpc' =>
      have hfutex : (s.isBusy.setWaiterTask (some ()) build).futex = s.isBusy.futex := by
        cases build <;> rfl
      refine { hs with seen := hseen, expected := ?_, parked := ?_, cleared := ?_, fresh := ?_ }
      · exact .inr (.inl (moveWaiter_waiter ..))
      · intro hplace
        refine ⟨hfutex.trans (hs.parked hplace).1, .inr ⟨rfl, ?_⟩⟩
        simp
      · simp
      · intro hwork
        apply hs.fresh
        simpa [HasWork, hpc] using hwork

/-- While the thread data is not its own, a thread goes on waiting. -/
theorem wait (hs : ThreadInvariant s) {label : ConditionLabel Unit} (hpc : s.pc = .inWait)
    (hinWait : label.InWait) (hlabel : Uninterrupted label)
    (hstep : ConditionStep build s.isBusy label isBusy) :
    ThreadInvariant { s with isBusy := isBusy } := by
  obtain ⟨hfutex, hwaiter⟩ := wait_step hs.expected hinWait hlabel hstep
  have hseen := (allSeen_step_iff hs.seen hstep).mpr hlabel
  refine { hs with seen := hseen, expected := ?_, parked := ?_, cleared := ?_ }
  · exact hwaiter.imp_left And.left
  · intro hplace
    have hzero := (hs.parked hplace).1
    refine ⟨hfutex.trans hzero, .inr ⟨hpc, ?_⟩⟩
    rcases hwaiter with ⟨-, hset⟩ | htesting | hblocked
    · exact absurd hzero hset
    · simp [htesting]
    · simp [hblocked]
  · simp [hpc]

theorem leave (hs : ThreadInvariant s) (hpc : s.pc = .inWait)
    (hreturned : s.isBusy.waiter () = .outside) : ThreadInvariant { s with pc := .woken } := by
  have hplace := hs.working (by simp [Waits, hpc, hreturned])
  refine { hs with parked := ?_, cleared := ?_, fresh := ?_ }
  · exact fun hother => absurd hplace hother
  · simp
  · intro _
    exact hs.fresh (.inr ⟨hplace, .inr (.inl hpc)⟩)

theorem execute (hs : ThreadInvariant s) (hpc : s.pc = .woken) :
    ThreadInvariant
      { s with pc := .executed, executions := s.executions ++ [s.executable] } := by
  have hplace := hs.working (by simp [Waits, hpc])
  have hfresh := hs.fresh (.inr ⟨hplace, .inr (.inr hpc)⟩)
  refine { hs with parked := ?_, cleared := ?_, fresh := ?_, issued := ?_, nodup := ?_ }
  · exact fun hother => absurd hplace hother
  · simp
  · simp [HasWork, hplace]
  · exact List.forall_mem_append.mpr ⟨hs.issued, by simpa using hs.slot⟩
  · rw [← List.concat_eq_append]
    exact hs.nodup.concat hfresh

theorem clear (hs : ThreadInvariant s) (hpc : s.pc = .executed)
    (hstep : ConditionStep build s.isBusy (.setVal 0 false) isBusy) :
    ThreadInvariant { s with isBusy := isBusy, pc := .cleared } := by
  have hplace := hs.working (by simp [Waits, hpc])
  have hseen := (allSeen_step_iff hs.seen hstep).mpr trivial
  cases hstep with
  | setVal _ _ =>
      refine { hs with seen := hseen, expected := ?_, parked := ?_, cleared := ?_, fresh := ?_ }
      · simpa using hs.expected
      · exact fun hother => absurd hplace hother
      · simp
      · simp [HasWork, hplace]

theorem write (hs : ThreadInvariant s) (hplace : s.place = .popped) :
    ThreadInvariant
      { s with place := .written, executable := s.handed, handed := s.handed + 1 } := by
  refine { hs with parked := ?_, fresh := ?_, slot := ?_, issued := ?_ }
  · exact fun _ => hs.parked (by simp [hplace])
  · exact fun _ hmem => Nat.lt_irrefl _ (hs.issued _ hmem)
  · exact Nat.lt_succ_self _
  · exact fun job hjob => Nat.lt_succ_of_lt (hs.issued job hjob)

/-- The flag is set while the thread waits, with the job in its slot. -/
theorem wake (hs : ThreadInvariant s) (hplace : s.place = .written)
    (hstep : ConditionStep build s.isBusy (.setVal 1 true) isBusy) :
    ThreadInvariant { s with isBusy := isBusy, place := .working } := by
  obtain ⟨-, hwaits⟩ := hs.parked (by simp [hplace])
  have hseen := (allSeen_step_iff hs.seen hstep).mpr trivial
  cases hstep with
  | setVal _ _ =>
      refine { hs with seen := hseen, expected := ?_, parked := ?_, cleared := ?_, fresh := ?_ }
      · simpa using hs.expected
      · simp
      · intro hpc
        simp [Waits, show s.pc = .cleared from hpc] at hwaits
      · exact fun _ => hs.fresh (.inl hplace)

end ThreadInvariant

theorem threadInvariant_step (s : ThreadState) (label : ThreadLabel) (s' : ThreadState)
    (hs : ThreadInvariant s) (hlabel : ThreadUninterrupted label)
    (hstep : ThreadStep build s label s') : ThreadInvariant s' := by
  cases hstep with
  | waitOn isBusy hpc hstep => exact hs.waitOn hpc hstep
  | wait label isBusy hpc hinWait hstep => exact hs.wait hpc hinWait hlabel hstep
  | leave hpc hreturned => exact hs.leave hpc hreturned
  | execute hpc => exact hs.execute hpc
  | clear isBusy hpc hstep => exact hs.clear hpc hstep
  | push hpc =>
      refine { hs with parked := ?_, cleared := ?_, fresh := ?_ }
      · exact fun _ => ⟨hs.cleared hpc, .inl rfl⟩
      · simp
      · simp [HasWork]
  | pop hplace =>
      refine { hs with parked := ?_, fresh := ?_ }
      · exact fun _ => hs.parked (by simp [hplace])
      · simp [HasWork]
  | write hplace => exact hs.write hplace
  | wake isBusy hplace hstep => exact hs.wake hplace hstep
  | event isBusy hstep =>
      have hseen := (allSeen_step_iff hs.seen hstep).mpr trivial
      cases hstep with
      | event _ => exact { hs with seen := hseen }

/-- A step that leaves what has been seen intact was not the end of a wait by a signal. -/
theorem uninterrupted_of_allSeen {label : ThreadLabel} (hs : AllSeen s.isBusy)
    (hstep : ThreadStep build s label s') (hs' : AllSeen s'.isBusy) :
    ThreadUninterrupted label := by
  cases hstep with
  | waitOn _ _ _ | clear _ _ _ | wake _ _ _ | event _ _ => trivial
  | wait label isBusy hpc hinWait hstep => exact (allSeen_step_iff hs hstep).mp hs'
  | leave _ _ | execute _ | push _ | pop _ | write _ => trivial

/-- In both builds, the calls of `wait_on` of a run have all seen another value, and a
thread has left its waits with work, exactly if no wait was ended by a signal; on RTEMS
none is. -/
theorem waits_end_with_work [DecidableEq Task] (build : Build) :
    (∀ futex trace finish,
      Run (ConditionStep build) (.initial futex : ConditionState Task) trace finish →
        (Throughout AllSeen (.initial futex) trace ↔
          Admitted (fun _ label => Uninterrupted label) trace)) ∧
      (∀ trace finish, Run (ThreadStep build) .created trace finish →
        (Throughout LeavesWithWork .created trace ↔
          Admitted (fun _ label => ThreadUninterrupted label) trace)) ∧
      ∀ (s s' : ConditionState Task) label, build = .rtems →
        ConditionStep build s label s' → Uninterrupted label := by
  refine ⟨fun futex trace finish hrun => ?_, fun trace finish hrun => ?_, ?_⟩
  · exact allSeen_iff hrun (by simp [AllSeen, ConditionState.initial])
  · exact hrun.throughout_iff_admitted (fun _ hs => ⟨hs.seen, hs.nodup⟩)
      threadInvariant_step
      (fun _ _ _ hs hstep htarget => uninterrupted_of_allSeen hs.seen hstep htarget.1)
      .created
  · rintro s s' label rfl hstep
    exact uninterrupted_of_rtems hstep

/-- A thread whose wait has a timeout before it is woken for its second job. -/
theorem timed_out_thread_waits_on :
    ∃ trace finish, Run (ThreadStep .rtems) .created trace finish ∧
      finish.executions = [0, 1] ∧ Throughout LeavesWithWork .created trace := by
  have hrun : Run (ThreadStep .rtems) .created _ _ :=
    .cons (.waitOn _ _ rfl (.waitOn _ () 0 rfl)) <|
    .cons (.wait _ (.load ()) _ rfl trivial (.leave _ () 0 rfl (by decide))) <|
    .cons (.leave _ rfl rfl) <|
    .cons (.execute _ rfl) <|
    .cons (.clear _ _ rfl (.setVal _ 0 false)) <|
    .cons (.push _ rfl) <|
    .cons (.waitOn _ _ rfl (.waitOn _ () 0 rfl)) <|
    .cons (.wait _ (.load ()) _ rfl trivial (.block _ () 0 rfl rfl)) <|
    .cons (.wait _ (.outcome () .timeout) _ rfl trivial
      (.again _ () 0 .timeout rfl rfl (by decide) rfl)) <|
    .cons (.wait _ (.load ()) _ rfl trivial (.block _ () 0 rfl rfl)) <|
    .cons (.pop _ rfl) <|
    .cons (.write _ rfl) <|
    .cons (.wake _ _ rfl (.setVal _ 1 true)) <|
    .cons (.wait _ (.outcome () .successful) _ rfl trivial
      (.again _ () 0 .successful rfl rfl (fun _ => rfl) rfl)) <|
    .cons (.wait _ (.load ()) _ rfl trivial (.leave _ () 0 rfl (by decide))) <|
    .cons (.leave _ rfl rfl) <|
    .cons (.execute _ rfl) <|
    .nil _
  refine ⟨_, _, hrun, rfl, ((@waits_end_with_work Unit _ .rtems).2.1 _ _ hrun).mpr ?_⟩
  simp [Admitted, ThreadUninterrupted, Uninterrupted]

/-- A signal ends the wait of a thread on the idle stack: it executes its last job
again. -/
theorem signal_repeats_job :
    ∃ trace finish, Run (ThreadStep .linux) .created trace finish ∧
      finish.executions = [0, 0] ∧ ¬ AllSeen finish.isBusy ∧
      ¬ Throughout LeavesWithWork .created trace := by
  have hrun : Run (ThreadStep .linux) .created _ _ :=
    .cons (.waitOn _ _ rfl (.waitOn _ () 0 rfl)) <|
    .cons (.wait _ (.load ()) _ rfl trivial (.leave _ () 0 rfl (by decide))) <|
    .cons (.leave _ rfl rfl) <|
    .cons (.execute _ rfl) <|
    .cons (.clear _ _ rfl (.setVal _ 0 false)) <|
    .cons (.push _ rfl) <|
    .cons (.waitOn _ _ rfl (.waitOn _ () 0 rfl)) <|
    .cons (.wait _ (.load ()) _ rfl trivial (.block _ () 0 rfl rfl)) <|
    .cons (.wait _ (.outcome () .interrupted) _ rfl trivial
      (.fail _ () 0 .interrupted (-1) rfl rfl rfl)) <|
    .cons (.leave _ rfl rfl) <|
    .cons (.execute _ rfl) <|
    .nil _
  have hstale : ¬ Throughout LeavesWithWork .created _ := fun hall => by
    have hnodup := (hrun.finish_of_throughout hall).2
    revert hnodup
    change ¬ [0, 0].Nodup
    decide
  refine ⟨_, _, hrun, rfl, ?_, hstale⟩
  intro hseen
  exact hseen _ (List.mem_append_right _ (List.mem_singleton_self _)) rfl

end Thread

end RosRtems.Condition
