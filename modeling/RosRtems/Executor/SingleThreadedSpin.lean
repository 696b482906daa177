import RosRtems.Executor.MemoryStrategy
import Mathlib.Data.List.Infix

/-!
# The spin of the single-threaded executor

On RTEMS `spin` claims the flag `spinning` and calls `spin_some_impl` in a loop, which
claims the same flag and throws where it is set; and the selection that
`spin_some_impl` calls is overridden by one that finds nothing.  The base executor selects
and executes in its own loop.  The two do the same exactly where nothing is executed: the
loop is not entered, or the flag is cleared between the two claims.
-/

namespace RosRtems.SingleThreadedSpin

open RosRtems.MemoryStrategy

variable {Handle Entity Group Node : Type*}

/-- The build for RTEMS, and the loop of `get_next_executable` and
`execute_any_executable` of the base class. -/
inductive Build
  | rtems
  | base
  deriving DecidableEq

/-- What a step of the spinning thread finds: whether `cancel` has been called just
before, the context, the clock, and the timers that have not been canceled. -/
structure Moment (Entity : Type*) where
  cancel : Bool
  contextOk : Bool
  maxDurationElapsed : Bool
  timerCall : Entity → Bool

/-- The moments of the steps, and the ready sets of the waits. -/
structure Environment (Handle Entity : Type*) where
  moment : ℕ → Moment Entity
  readySet : ℕ → Kind → List Handle

/-- Where the thread is.  After the exchange and the two tests of `spin` come the steps
of the base loop, then those of `spin_some_impl`, with `work` for `work_available`; an
executable is destroyed before the next turn of a loop, or before the loop is left. -/
inductive SpinPc (Entity Group Node : Type*)
  | exchanging
  | testingContext
  | testingFlag
  | selecting (any : AnyExecutable Entity Group Node) (again : Bool)
  | waiting (any : AnyExecutable Entity Group Node)
  | testingAfterWait (any : AnyExecutable Entity Group Node)
  | executing (any : AnyExecutable Entity Group Node)
  | destroying (any : AnyExecutable Entity Group Node)
  | nestedExchanging
  | nestedTestingContext (work : Bool)
  | nestedTestingFlag (work : Bool)
  | nestedTestingDuration (work : Bool)
  | nestedWaiting
  | nestedSelecting (work : Bool)
  | nestedExecuting (any : AnyExecutable Entity Group Node)
  | nestedDestroying (any : AnyExecutable Entity Group Node) (next : Option Bool)
  | nestedLeaving
  | leaving (thrown : Bool)
  | finished (thrown : Bool)

structure SpinState (Handle Entity Group Node : Type*) where
  spinning : Bool
  memory : Memory Handle Group
  waits : ℕ
  executed : List (AnyExecutable Entity Group Node)
  pc : SpinPc Entity Group Node

/-- An executor that is not spinning calls `spin`. -/
def starting (memory : Memory Handle Group) : SpinState Handle Entity Group Node where
  spinning := false
  memory := memory
  waits := 0
  executed := []
  pc := .exchanging

section Steps

variable [DecidableEq Group] (registry : Registry Handle Entity Group Node) (build : Build)
  (readySet : ℕ → Kind → List Handle) (moment : Moment Entity)
  (s : SpinState Handle Entity Group Node)

/-- `can_be_taken_from().store(true)` for the recorded group. -/
def release (memory : Memory Handle Group) (any : AnyExecutable Entity Group Node) :
    Memory Handle Group :=
  match any.callbackGroup with
  | some group =>
      { memory with canBeTakenFrom := Function.update memory.canBeTakenFrom group true }
  | none => memory

/-- The RTEMS build overrides `get_next_ready_executable_from_map`. -/
def getNextReadyExecutable (memory : Memory Handle Group)
    (any : AnyExecutable Entity Group Node) :
    Bool × AnyExecutable Entity Group Node × Memory Handle Group :=
  match build with
  | .rtems => (false, any, memory)
  | .base => getNextReadyExecutableFromMap registry moment.timerCall memory any

/-- The state in which the step is taken, after the call of `cancel` if there is one. -/
def SpinState.met : SpinState Handle Entity Group Node :=
  { s with spinning := s.spinning && !moment.cancel }

def SpinState.goto (pc : SpinPc Entity Group Node) : SpinState Handle Entity Group Node :=
  { s with pc := pc }

/-- A selection, and where the thread goes from it. -/
def SpinState.select (any : AnyExecutable Entity Group Node)
    (found absent : AnyExecutable Entity Group Node → SpinPc Entity Group Node) :
    SpinState Handle Entity Group Node :=
  let (success, any, memory) := getNextReadyExecutable registry build moment s.memory any
  { s with memory := memory, pc := if success then found any else absent any }

def SpinState.waitForWork (pc : SpinPc Entity Group Node) :
    SpinState Handle Entity Group Node :=
  { s with
    memory := { s.memory with handles := readySet s.waits }
    waits := s.waits + 1
    pc := pc }

/-- `execute_any_executable` returns at once when the flag has been cleared. -/
def SpinState.execute (any : AnyExecutable Entity Group Node)
    (pc : SpinPc Entity Group Node) : SpinState Handle Entity Group Node :=
  if s.spinning then
    { s with
      memory := release s.memory any
      executed := s.executed ++ [any]
      pc := pc }
  else s.goto pc

/-- The destructor of `AnyExecutable`. -/
def SpinState.destroy (any : AnyExecutable Entity Group Node)
    (pc : SpinPc Entity Group Node) : SpinState Handle Entity Group Node :=
  { s with memory := release s.memory any, pc := pc }

def Build.body : Build → SpinPc Entity Group Node
  | .rtems => .nestedExchanging
  | .base => .selecting .empty false

def SpinState.act : SpinState Handle Entity Group Node :=
  match s.pc with
  | .exchanging =>
      -- `spin() called while already spinning`
      if s.spinning then s.goto (.finished true)
      else { s with spinning := true, pc := .testingContext }
  | .testingContext => s.goto (if moment.contextOk then .testingFlag else .leaving false)
  | .testingFlag => s.goto (if s.spinning then build.body else .leaving false)
  | .selecting any again =>
      s.select registry build moment any .executing
        (if again then .destroying else .waiting)
  | .waiting any => s.waitForWork readySet (.testingAfterWait any)
  | .testingAfterWait any =>
      s.goto (if s.spinning then .selecting any true else .destroying any)
  | .executing any => s.execute any (.destroying any)
  | .destroying any => s.destroy any .testingContext
  | .nestedExchanging =>
      -- `spin_some() called while already spinning`
      if s.spinning then s.goto (.leaving true)
      else { s with spinning := true, pc := .nestedTestingContext false }
  | .nestedTestingContext work =>
      s.goto (if moment.contextOk then .nestedTestingFlag work else .nestedLeaving)
  | .nestedTestingFlag work =>
      s.goto (if s.spinning then .nestedTestingDuration work else .nestedLeaving)
  | .nestedTestingDuration work =>
      s.goto (if moment.maxDurationElapsed then .nestedLeaving
        else if work then .nestedSelecting true else .nestedWaiting)
  | .nestedWaiting => s.waitForWork readySet (.nestedSelecting false)
  | .nestedSelecting work =>
      -- the spin is exhaustive: only without work before it is left
      s.select registry build moment .empty .nestedExecuting
        (.nestedDestroying · (if work then some false else none))
  | .nestedExecuting any => s.execute any (.nestedDestroying any (some true))
  | .nestedDestroying any next =>
      s.destroy any (match next with
        | some work => .nestedTestingContext work
        | none => .nestedLeaving)
  | .nestedLeaving => { s with spinning := false, pc := .testingContext }
  | .leaving thrown => { s with spinning := false, pc := .finished thrown }
  | .finished _ => s

def SpinState.step : SpinState Handle Entity Group Node :=
  (s.met moment).act registry build readySet moment

def run (environment : Environment Handle Entity) : ℕ → SpinState Handle Entity Group Node
  | 0 => s
  | n + 1 => (run environment n).step registry build environment.readySet
      (environment.moment n)

/-- The RTEMS build does not throw, and executes what the base loop executes. -/
structure BehavesAsBase (environment : Environment Handle Entity)
    (memory : Memory Handle Group) : Prop where
  returns : ∀ n, (run registry .rtems (starting memory) environment n).pc ≠ .finished true
  executes : ∀ executed,
    (∃ n, (run registry .rtems (starting memory) environment n).executed = executed) ↔
      ∃ n, (run registry .base (starting memory) environment n).executed = executed

/-- The context is not ok when it is tested for the first time, or `cancel` clears the
flag after the first exchange and before the second one. -/
def NeverStarts (environment : Environment Handle Entity) : Prop :=
  (environment.moment 1).contextOk = false ∨
    ∃ n, 0 < n ∧ n ≤ 3 ∧ (environment.moment n).cancel = true

end Steps

section Rules

variable [DecidableEq Group] {registry : Registry Handle Entity Group Node} {build : Build}
  {readySet : ℕ → Kind → List Handle} {moment : Moment Entity}
  {environment : Environment Handle Entity} {memory : Memory Handle Group}
  {s : SpinState Handle Entity Group Node}

/-! ## The overridden selection -/

/-- An executable is about to be executed. -/
def SpinPc.Executes : SpinPc Entity Group Node → Prop
  | .executing _ | .nestedExecuting _ => True
  | _ => False

/-- Only an executable that is about to be executed is executed, and only while the flag
is set. -/
theorem executed_act (hidle : s.pc.Executes → s.spinning = false) :
    (s.act registry build readySet moment).executed = s.executed := by
  rcases s with ⟨spinning, memory, waits, executed, pc⟩
  cases pc with
  | executing any | nestedExecuting any =>
      obtain rfl : spinning = false := hidle trivial
      rfl
  | exchanging | nestedExchanging => cases spinning <;> rfl
  | _ => rfl

/-- Nothing is ever selected on RTEMS. -/
theorem not_executes_act (hidle : ¬ s.pc.Executes) :
    ¬ (s.act registry .rtems readySet moment).pc.Executes := by
  rcases s with ⟨spinning, memory, waits, executed, pc⟩
  cases pc with
  | executing any | nestedExecuting any => exact absurd trivial hidle
  | selecting any again => cases again <;> exact id
  | nestedDestroying any next => cases next <;> exact id
  | exchanging | testingFlag | testingAfterWait any | nestedExchanging
  | nestedTestingFlag work => cases spinning <;> exact id
  | testingContext | nestedTestingContext work =>
      simp only [SpinState.act, SpinState.goto]
      split <;> exact id
  | nestedTestingDuration work =>
      simp only [SpinState.act, SpinState.goto]
      cases moment.maxDurationElapsed <;> cases work <;> exact id
  | _ => exact id

/-- Nothing is executed on RTEMS, whatever the waits find. -/
theorem rtems_executes_nothing (n : ℕ) :
    (run registry .rtems (starting memory) environment n).executed = [] ∧
      ¬ (run registry .rtems (starting memory) environment n).pc.Executes := by
  induction n with
  | zero => exact ⟨rfl, id⟩
  | succ n ih =>
      obtain ⟨hexecuted, hidle⟩ := ih
      have hmet : ¬ ((run registry .rtems (starting memory) environment n).met
          (environment.moment n)).pc.Executes := hidle
      rw [run, SpinState.step]
      exact ⟨(executed_act fun h => absurd h hmet).trans hexecuted, not_executes_act hmet⟩

/-! ## Spins that are over -/

/-- In the loop of `spin` the flag is cleared; `spin_some_impl` is only in progress on
RTEMS, and has not found any work; and nothing has been thrown. -/
def SpinPc.Calm (build : Build) (spinning : Bool) : SpinPc Entity Group Node → Prop
  | .exchanging | .nestedExchanging | .nestedExecuting _ => False
  | .testingContext | .testingFlag | .selecting _ _ | .waiting _ | .testingAfterWait _
  | .executing _ | .destroying _ => spinning = false
  | .nestedTestingContext work | .nestedTestingFlag work | .nestedTestingDuration work
  | .nestedSelecting work => build = .rtems ∧ work = false
  | .nestedDestroying _ next => build = .rtems ∧ next = none
  | .nestedWaiting | .nestedLeaving => build = .rtems
  | .leaving thrown | .finished thrown => thrown = false

/-- Nothing has been executed, and nothing will be. -/
structure Calm (build : Build) (s : SpinState Handle Entity Group Node) : Prop where
  executed : s.executed = []
  pc : s.pc.Calm build s.spinning

omit [DecidableEq Group] in
theorem Calm.met (h : Calm build s) : Calm build (s.met moment) := by
  rcases s with ⟨spinning, memory, waits, executed, pc⟩
  refine ⟨h.executed, ?_⟩
  have hpc := h.pc
  cases pc with
  | testingContext | testingFlag | selecting any again | waiting any | testingAfterWait any
  | executing any | destroying any =>
      obtain rfl : spinning = false := hpc
      rfl
  | _ => exact hpc

theorem Calm.act (h : Calm build s) : Calm build (s.act registry build readySet moment) := by
  have hidle : s.pc.Executes → s.spinning = false := by
    rcases s with ⟨spinning, memory, waits, executed, pc⟩
    cases pc with
    | executing any => exact fun _ => h.pc
    | nestedExecuting any => exact h.pc.elim
    | _ => exact False.elim
  refine ⟨(executed_act hidle).trans h.executed, ?_⟩
  rcases s with ⟨spinning, memory, waits, executed, pc⟩
  have hpc := h.pc
  cases pc with
  | exchanging | nestedExchanging | nestedExecuting any => exact hpc.elim
  | testingContext =>
      simp only [SpinState.act, SpinState.goto]
      split
      · exact hpc
      · rfl
  | testingFlag | testingAfterWait any =>
      obtain rfl : spinning = false := hpc
      rfl
  | selecting any again =>
      obtain rfl : spinning = false := hpc
      simp only [SpinState.act, SpinState.select]
      cases again <;> split <;> rfl
  | executing any =>
      obtain rfl : spinning = false := hpc
      rfl
  | nestedTestingContext work | nestedTestingFlag work =>
      simp only [SpinState.act, SpinState.goto]
      split
      · exact hpc
      · exact hpc.1
  | nestedTestingDuration work =>
      obtain ⟨rfl, rfl⟩ : build = .rtems ∧ work = false := hpc
      simp only [SpinState.act, SpinState.goto]
      split <;> rfl
  | nestedSelecting work =>
      obtain ⟨rfl, rfl⟩ : build = .rtems ∧ work = false := hpc
      exact ⟨rfl, rfl⟩
  | nestedDestroying any next =>
      obtain ⟨rfl, rfl⟩ : build = .rtems ∧ next = none := hpc
      rfl
  | nestedWaiting => exact ⟨hpc, rfl⟩
  | nestedLeaving => rfl
  | waiting any | destroying any | leaving thrown | finished thrown => exact hpc

theorem calm_run {n : ℕ} (h : Calm build (run registry build s environment n)) (m : ℕ) :
    Calm build (run registry build s environment (n + m)) := by
  induction m with
  | zero => exact h
  | succ m ih => exact ih.met.act

theorem executed_prefix_act :
    s.executed <+: (s.act registry build readySet moment).executed := by
  rcases s with ⟨spinning, memory, waits, executed, pc⟩
  cases pc with
  | executing any | nestedExecuting any =>
      cases spinning with
      | false => exact List.prefix_rfl
      | true => exact List.prefix_append executed [any]
  | exchanging | nestedExchanging => cases spinning <;> exact List.prefix_rfl
  | _ => exact List.prefix_rfl

theorem executed_prefix_step :
    s.executed <+: (s.step registry build readySet moment).executed :=
  executed_prefix_act (s := s.met moment)

theorem executed_run (n m : ℕ) : (run registry build s environment n).executed <+:
    (run registry build s environment (n + m)).executed := by
  induction m with
  | zero => exact List.prefix_rfl
  | succ m ih => exact ih.trans executed_prefix_step

theorem finished_run {n : ℕ} {thrown : Bool}
    (h : (run registry build s environment n).pc = .finished thrown) (m : ℕ) :
    (run registry build s environment (n + m)).pc = .finished thrown := by
  induction m with
  | zero => exact h
  | succ m ih =>
      rw [← Nat.add_assoc, run, SpinState.step, SpinState.act]
      have hpc : ((run registry build s environment (n + m)).met
          (environment.moment (n + m))).pc = .finished thrown := ih
      rw [hpc]
      exact ih

/-- A spin that is calm at some time has executed nothing and not thrown, at any time. -/
theorem never_of_calm {n : ℕ} (h : Calm build (run registry build s environment n)) (m : ℕ) :
    (run registry build s environment m).executed = [] ∧
      (run registry build s environment m).pc ≠ .finished true := by
  rcases Nat.le_total n m with hle | hle
  · obtain ⟨later, rfl⟩ := Nat.exists_eq_add_of_le hle
    have hcalm := calm_run h later
    refine ⟨hcalm.executed, fun hthrown => ?_⟩
    have hpc := hcalm.pc
    rw [hthrown] at hpc
    cases hpc
  · obtain ⟨later, rfl⟩ := Nat.exists_eq_add_of_le hle
    refine ⟨List.prefix_nil.mp (h.executed ▸ executed_run m later), fun hthrown => ?_⟩
    have hpc := h.pc
    rw [finished_run hthrown later] at hpc
    cases hpc

theorem behavesAsBase_of_calm {n m : ℕ}
    (hrtems : Calm .rtems (run registry .rtems (starting memory) environment n))
    (hbase : Calm .base (run registry .base (starting memory) environment m)) :
    BehavesAsBase registry environment memory := by
  constructor
  · exact fun k => (never_of_calm hrtems k).2
  · intro executed
    constructor
    · rintro ⟨k, rfl⟩
      exact ⟨0, (rtems_executes_nothing k).1.symm⟩
    · rintro ⟨k, rfl⟩
      exact ⟨0, (never_of_calm hbase k).1.symm⟩

/-! ## The first steps -/

/-- The state after the exchange of `spin`. -/
def opening (memory : Memory Handle Group) (pc : SpinPc Entity Group Node) :
    SpinState Handle Entity Group Node :=
  { starting memory with spinning := true, pc := pc }

theorem run_one : run registry build (starting memory) environment 1 =
    opening memory .testingContext := rfl

omit [DecidableEq Group] in
theorem met_opening (hcancel : moment.cancel = false) (pc : SpinPc Entity Group Node) :
    (opening memory pc).met moment = opening memory pc := by
  rw [SpinState.met, hcancel]
  rfl

theorem run_two (hok : (environment.moment 1).contextOk = true)
    (hcancel : (environment.moment 1).cancel = false) :
    run registry build (starting memory) environment 2 = opening memory .testingFlag := by
  rw [run, run_one, SpinState.step, met_opening hcancel, SpinState.act]
  simp only [opening, SpinState.goto, hok, if_true]

theorem run_three (hok : (environment.moment 1).contextOk = true)
    (hcancel : ∀ n, 0 < n → n ≤ 2 → (environment.moment n).cancel = false) :
    run registry build (starting memory) environment 3 = opening memory build.body := by
  rw [run, run_two hok (hcancel 1 (by decide) (by decide)), SpinState.step,
    met_opening (hcancel 2 (by decide) (by decide))]
  rfl

/-- The nested exchange finds the flag set. -/
theorem run_five_rtems (hok : (environment.moment 1).contextOk = true)
    (hcancel : ∀ n, 0 < n → n ≤ 3 → (environment.moment n).cancel = false) :
    (run registry .rtems (starting memory) environment 5).pc = .finished true := by
  have hthree : run registry .rtems (starting memory) environment 3 =
      opening memory .nestedExchanging :=
    run_three hok fun n hpos hle => hcancel n hpos (hle.trans (by decide))
  have hfour : run registry .rtems (starting memory) environment 4 =
      opening memory (.leaving true) := by
    rw [run, hthree, SpinState.step, met_opening (hcancel 3 (by decide) (by decide))]
    rfl
  rw [run, hfour]
  rfl

/-- A call of `cancel` before the step at which the spin opens ends it. -/
theorem calm_of_cancel (hcancel : moment.cancel = true) {pc : SpinPc Entity Group Node}
    (hpc : pc = .testingContext ∨ pc = .testingFlag ∨ pc = build.body) :
    Calm build ((opening memory pc).step registry build readySet moment) := by
  have hmet : (opening memory pc).met moment =
      { (opening memory pc : SpinState Handle Entity Group Node) with
        spinning := false } := by
    rw [SpinState.met, hcancel, Bool.not_true, Bool.and_false]
  rw [SpinState.step, hmet]
  rcases hpc with rfl | rfl | rfl
  · exact Calm.act ⟨rfl, rfl⟩
  · exact Calm.act ⟨rfl, rfl⟩
  · cases build with
    | rtems => exact ⟨rfl, rfl, rfl⟩
    | base => exact Calm.act ⟨rfl, rfl⟩

variable (registry memory) in
theorem calm_of_neverStarts (hnever : NeverStarts environment) (build : Build) :
    ∃ n, Calm build (run registry build (starting memory) environment n) := by
  by_cases hok : (environment.moment 1).contextOk = true
  · by_cases hfirst : (environment.moment 1).cancel = true
    · exact ⟨2, calm_of_cancel hfirst (.inl rfl)⟩
    · by_cases hsecond : (environment.moment 2).cancel = true
      · refine ⟨3, ?_⟩
        rw [run, run_two hok (by simpa using hfirst)]
        exact calm_of_cancel hsecond (.inr (.inl rfl))
      · have hthree : run registry build (starting memory) environment 3 =
            opening memory build.body := by
          apply run_three hok
          intro n hpos hle
          obtain rfl | rfl : n = 1 ∨ n = 2 := by omega
          · simpa using hfirst
          · simpa using hsecond
        refine ⟨4, ?_⟩
        rw [run, hthree]
        rcases hnever with hnotok | ⟨n, hpos, hle, hcancel⟩
        · rw [hok] at hnotok
          cases hnotok
        · obtain rfl | rfl | rfl : n = 1 ∨ n = 2 ∨ n = 3 := by omega
          · exact absurd hcancel hfirst
          · exact absurd hcancel hsecond
          · exact calm_of_cancel hcancel (.inr (.inr rfl))
  · refine ⟨2, ?_⟩
    rw [run, run_one, SpinState.step]
    constructor
    · rfl
    · simp [SpinState.act, SpinState.met, opening, SpinState.goto, SpinPc.Calm, hok]

/-- The RTEMS build does what the base executor does exactly where the spin ends before
anything is selected. -/
theorem behavesAsBase_iff_neverStarts (registry : Registry Handle Entity Group Node)
    (environment : Environment Handle Entity) (memory : Memory Handle Group) :
    BehavesAsBase registry environment memory ↔ NeverStarts environment := by
  constructor
  · intro hbehaves
    by_contra hstarts
    simp only [NeverStarts, not_or, not_exists, not_and, Bool.not_eq_false,
      Bool.not_eq_true] at hstarts
    exact hbehaves.returns 5 (run_five_rtems hstarts.1 hstarts.2)
  · intro hnever
    obtain ⟨n, hrtems⟩ := calm_of_neverStarts registry memory hnever .rtems
    obtain ⟨m, hbase⟩ := calm_of_neverStarts registry memory hnever .base
    exact behavesAsBase_of_calm hrtems hbase

end Rules

/-- One subscription in a mutually exclusive group. -/
def oneSubscription : Registry ℕ ℕ ℕ ℕ where
  byHandle _ handle := some handle
  groupOf _ _ := some 0
  nodeOf group := some group
  exclusive _ := true
  mapped _ _ _ _ := nofun

/-- Every wait finds the subscription ready, and nobody cancels the spin. -/
def undisturbed : Environment ℕ ℕ where
  moment _ := ⟨false, true, false, fun _ => true⟩
  readySet _ kind := if kind = .subscription then [0] else []

def nothingReady : Memory ℕ ℕ := ⟨fun _ => [], fun _ => true⟩

/-- The spin throws where the base executor executes the subscription. -/
theorem spin_throws :
    (run oneSubscription .rtems (starting nothingReady) undisturbed 5).pc = .finished true ∧
      (run oneSubscription .base (starting nothingReady) undisturbed 8).executed.map
        (fun any => any.pointer .subscription) = [some 0] ∧
      ¬ BehavesAsBase oneSubscription undisturbed nothingReady :=
  ⟨rfl, rfl, fun hbehaves => hbehaves.returns 5 rfl⟩

end RosRtems.SingleThreadedSpin
