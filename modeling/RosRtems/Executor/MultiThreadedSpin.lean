import RosRtems.Core.Claims
import RosRtems.Core.Runs
import RosRtems.Executor.MemoryStrategy

/-!
# The worker threads of the multi-threaded executor

A worker selects an executable while it has the wait mutex, and the selection marks the
group.  Executing it frees the group again, and then the worker resets the group pointer,
so that the destructor does not free the group a second time.  A worker that finds the
executor cancelled when it is about to execute resets the pointer all the same, and the
group stays marked.
-/

namespace RosRtems.MultiThreadedExecutor

open RosRtems.Runs RosRtems.Claims RosRtems.MemoryStrategy

variable {Handle Entity Group Node : Type*}

/-- Where a worker thread is in `run`: at the condition of the loop, at the wait mutex, at
the second look at the condition, in the two selections of `get_next_executable` and
between them, past the mutex with what it has found, in the callback, before and after the
group is freed. -/
inductive WorkerPc (Entity Group Node : Type*)
  | notStarted
  | looping
  | locking
  | checking
  | selecting (again : Bool) (any : AnyExecutable Entity Group Node)
  | waiting (any : AnyExecutable Entity Group Node)
  | waited (any : AnyExecutable Entity Group Node)
  | discarding (any : AnyExecutable Entity Group Node)
  | taken (any : AnyExecutable Entity Group Node)
  | executing (any : AnyExecutable Entity Group Node)
  | executed (any : AnyExecutable Entity Group Node)
  | released
  | left

/-- Where a call of `spin` is: before the wait mutex, while it creates its threads, and
while it joins them. -/
inductive SpinPc
  | notCalled
  | locking
  | starting (created : ℕ)
  | joining
  | returned

/-- A worker is named by the call of `spin` that has created it, and its number there. -/
structure ExecutorState (Entity Group Node : Type*) where
  canBeTakenFrom : Group → Bool
  spinning : Bool
  contextOk : Bool
  waitLocked : Bool
  spin : ℕ → SpinPc
  worker : ℕ × ℕ → WorkerPc Entity Group Node

namespace ExecutorState

def constructed : ExecutorState Entity Group Node where
  canBeTakenFrom := fun _ => true
  spinning := false
  contextOk := true
  waitLocked := false
  spin := fun _ => .notCalled
  worker := fun _ => .notStarted

variable (s : ExecutorState Entity Group Node) (w : ℕ × ℕ)

def move (pc : WorkerPc Entity Group Node) : ExecutorState Entity Group Node :=
  { s with worker := Function.update s.worker w pc }

def moveSpin (call : ℕ) (pc : SpinPc) : ExecutorState Entity Group Node :=
  { s with spin := Function.update s.spin call pc }

/-- `callback_group->can_be_taken_from().store(true)`, if there is a group. -/
def free [DecidableEq Group] (any : AnyExecutable Entity Group Node) :
    ExecutorState Entity Group Node :=
  match any.callbackGroup with
  | some group => { s with canBeTakenFrom := Function.update s.canBeTakenFrom group true }
  | none => s

/-- `get_next_ready_executable` in `get_next_executable`.  The wait mutex is dropped when
an executable is found, and after the second selection. -/
def select [DecidableEq Group] (registry : Registry Handle Entity Group Node)
    (call : Entity → Bool) (handles : Kind → List Handle) (again : Bool)
    (any : AnyExecutable Entity Group Node) : ExecutorState Entity Group Node :=
  let (success, found, memory) :=
    getNextReadyExecutableFromMap registry call ⟨handles, s.canBeTakenFrom⟩ any
  let selected := { s with canBeTakenFrom := memory.canBeTakenFrom }
  if success then { selected with waitLocked := false }.move w (.taken found)
  else if again then { selected with waitLocked := false }.move w (.discarding found)
  else selected.move w (.waiting found)

/-- The condition of the loop of `run`. -/
def goesOn : Bool :=
  s.contextOk && s.spinning

end ExecutorState

inductive ExecutorLabel (Handle Entity Group Node : Type*)
  | spin (call : ℕ)
  | select (w : ℕ × ℕ) (registry : Registry Handle Entity Group Node)
      (call : Entity → Bool) (handles : Kind → List Handle)
  | step (w : ℕ × ℕ)
  | cancel
  | context (ok : Bool)

section Step

variable [DecidableEq Group] (numberOfThreads : ℕ) (exclusive : Group → Bool)

/-- Any order of the steps of the workers and of the calls of `spin` and `cancel`, with any
result of each wait, on any nodes.  A call of `spin` may begin before an earlier one has
returned, if that one has been cancelled. -/
inductive ExecutorStep : ExecutorState Entity Group Node →
    ExecutorLabel Handle Entity Group Node → ExecutorState Entity Group Node → Prop
  | spin (s : ExecutorState Entity Group Node) (call : ℕ)
      (hpc : s.spin call = .notCalled) (hspin : s.spinning = false) :
      ExecutorStep s (.spin call) ({ s with spinning := true }.moveSpin call .locking)
  | spinThrows (s : ExecutorState Entity Group Node) (call : ℕ)
      (hpc : s.spin call = .notCalled) (hspin : s.spinning = true) :
      ExecutorStep s (.spin call) (s.moveSpin call .returned)
  | lockForThreads (s : ExecutorState Entity Group Node) (call : ℕ)
      (hpc : s.spin call = .locking) (hfree : s.waitLocked = false) :
      ExecutorStep s (.spin call) ({ s with waitLocked := true }.moveSpin call (.starting 0))
  | startThread (s : ExecutorState Entity Group Node) (call created : ℕ)
      (hpc : s.spin call = .starting created) (hmore : created < numberOfThreads)
      (hnew : s.worker (call, created) = .notStarted) :
      ExecutorStep s (.spin call)
        ((s.moveSpin call (.starting (created + 1))).move (call, created) .looping)
  | threadsStarted (s : ExecutorState Entity Group Node) (call created : ℕ)
      (hpc : s.spin call = .starting created) (hall : numberOfThreads ≤ created) :
      ExecutorStep s (.spin call) ({ s with waitLocked := false }.moveSpin call .joining)
  | spinReturns (s : ExecutorState Entity Group Node) (call : ℕ)
      (hpc : s.spin call = .joining)
      (hleft : ∀ thread < numberOfThreads, s.worker (call, thread) = .left) :
      ExecutorStep s (.spin call) ({ s with spinning := false }.moveSpin call .returned)
  | enter (s : ExecutorState Entity Group Node) (w : ℕ × ℕ) (hpc : s.worker w = .looping)
      (hgo : s.goesOn = true) : ExecutorStep s (.step w) (s.move w .locking)
  | leave (s : ExecutorState Entity Group Node) (w : ℕ × ℕ) (hpc : s.worker w = .looping)
      (hstop : s.goesOn = false) : ExecutorStep s (.step w) (s.move w .left)
  | lock (s : ExecutorState Entity Group Node) (w : ℕ × ℕ) (hpc : s.worker w = .locking)
      (hfree : s.waitLocked = false) :
      ExecutorStep s (.step w) ({ s with waitLocked := true }.move w .checking)
  | proceed (s : ExecutorState Entity Group Node) (w : ℕ × ℕ) (hpc : s.worker w = .checking)
      (hgo : s.goesOn = true) :
      ExecutorStep s (.step w) (s.move w (.selecting false .empty))
  | leaveLocked (s : ExecutorState Entity Group Node) (w : ℕ × ℕ)
      (hpc : s.worker w = .checking) (hstop : s.goesOn = false) :
      ExecutorStep s (.step w) ({ s with waitLocked := false }.move w .left)
  | select (s : ExecutorState Entity Group Node) (w : ℕ × ℕ)
      (registry : Registry Handle Entity Group Node) (call : Entity → Bool)
      (handles : Kind → List Handle) (again : Bool) (any : AnyExecutable Entity Group Node)
      (hgroups : registry.exclusive = exclusive) (hpc : s.worker w = .selecting again any) :
      ExecutorStep s (.select w registry call handles)
        (s.select w registry call handles again any)
  | waitForWork (s : ExecutorState Entity Group Node) (w : ℕ × ℕ)
      (any : AnyExecutable Entity Group Node) (hpc : s.worker w = .waiting any) :
      ExecutorStep s (.step w) (s.move w (.waited any))
  | giveUp (s : ExecutorState Entity Group Node) (w : ℕ × ℕ)
      (any : AnyExecutable Entity Group Node) (hpc : s.worker w = .waited any)
      (hspin : s.spinning = false) :
      ExecutorStep s (.step w) ({ s with waitLocked := false }.move w (.discarding any))
  | tryAgain (s : ExecutorState Entity Group Node) (w : ℕ × ℕ)
      (any : AnyExecutable Entity Group Node) (hpc : s.worker w = .waited any)
      (hspin : s.spinning = true) :
      ExecutorStep s (.step w) (s.move w (.selecting true any))
  | destroy (s : ExecutorState Entity Group Node) (w : ℕ × ℕ)
      (any : AnyExecutable Entity Group Node) (hpc : s.worker w = .discarding any) :
      ExecutorStep s (.step w) ((s.free any).move w .looping)
  | execute (s : ExecutorState Entity Group Node) (w : ℕ × ℕ)
      (any : AnyExecutable Entity Group Node) (hpc : s.worker w = .taken any)
      (hspin : s.spinning = true) :
      ExecutorStep s (.step w) (s.move w (.executing any))
  -- `execute_any_executable` returns at once, and `run` resets the group pointer.
  | skip (s : ExecutorState Entity Group Node) (w : ℕ × ℕ)
      (any : AnyExecutable Entity Group Node) (hpc : s.worker w = .taken any)
      (hspin : s.spinning = false) :
      ExecutorStep s (.step w) (s.move w .looping)
  | callbackReturns (s : ExecutorState Entity Group Node) (w : ℕ × ℕ)
      (any : AnyExecutable Entity Group Node) (hpc : s.worker w = .executing any) :
      ExecutorStep s (.step w) (s.move w (.executed any))
  | release (s : ExecutorState Entity Group Node) (w : ℕ × ℕ)
      (any : AnyExecutable Entity Group Node) (hpc : s.worker w = .executed any) :
      ExecutorStep s (.step w) ((s.free any).move w .released)
  | finish (s : ExecutorState Entity Group Node) (w : ℕ × ℕ)
      (hpc : s.worker w = .released) :
      ExecutorStep s (.step w) (s.move w .looping)
  | cancel (s : ExecutorState Entity Group Node) :
      ExecutorStep s .cancel { s with spinning := false }
  | context (s : ExecutorState Entity Group Node) (ok : Bool) :
      ExecutorStep s (.context ok) { s with contextOk := ok }

end Step

/-! ## Claims -/

/-- The group of the executable that a worker has taken and not released. -/
def WorkerPc.claim : WorkerPc Entity Group Node → Option Group
  | .taken any | .executing any | .executed any => any.callbackGroup
  | _ => none

def WorkerPc.inSpin : WorkerPc Entity Group Node → Prop
  | .notStarted | .left => False
  | _ => True

/-- A mutually exclusive group is marked exactly while one worker has an executable of it,
and once all workers have left `spin`, every group can be taken from. -/
structure ClaimsBalanced (exclusive : Group → Bool) (s : ExecutorState Entity Group Node) :
    Prop where
  marked : ∀ group, exclusive group = true →
    (s.canBeTakenFrom group = false ↔ ∃! w, (s.worker w).claim = some group)
  allLeft : (∀ w, ¬ (s.worker w).inSpin) → ∀ group, s.canBeTakenFrom group = true

/-- A worker that is about to execute an executable of a mutually exclusive group finds the
executor spinning. -/
def NotCancelledBefore (exclusive : Group → Bool) (s : ExecutorState Entity Group Node) :
    ExecutorLabel Handle Entity Group Node → Prop
  | .step w => ∀ any group, s.worker w = .taken any → any.callbackGroup = some group →
      exclusive group = true → s.spinning = true
  | _ => True

/-! ## The invariant -/

/-- An executable for which nothing has been selected yet. -/
def WorkerPc.unselected :
    WorkerPc Entity Group Node → Option (AnyExecutable Entity Group Node)
  | .selecting _ any | .waiting any | .waited any | .discarding any => some any
  | _ => none

def ExecutorState.marks (s : ExecutorState Entity Group Node) : Marks (ℕ × ℕ) Group where
  free := s.canBeTakenFrom
  holds := fun w => (s.worker w).claim

/-- Executables start out empty. -/
def StartsEmpty (worker : ℕ × ℕ → WorkerPc Entity Group Node) : Prop :=
  ∀ w any, (worker w).unselected = some any → any = .empty

structure SpinInvariant (exclusive : Group → Bool) (s : ExecutorState Entity Group Node) :
    Prop where
  exact : s.marks.Exact exclusive
  empty : StartsEmpty s.worker

section Invariant

variable {exclusive : Group → Bool} {s s' : ExecutorState Entity Group Node} {w : ℕ × ℕ}
  {any : AnyExecutable Entity Group Node}

theorem spinInvariant_constructed : SpinInvariant exclusive
    (ExecutorState.constructed : ExecutorState Entity Group Node) where
  exact := Marks.exact_of_unclaimed (fun _ => rfl) fun _ => rfl
  empty := fun _ _ hany => nomatch hany

theorem claim_of_not_inSpin {pc : WorkerPc Entity Group Node} (hout : ¬ pc.inSpin) :
    pc.claim = none := by
  cases pc with
  | notStarted | left => rfl
  | _ => exact absurd trivial hout

theorem SpinInvariant.claimsBalanced (h : SpinInvariant exclusive s) :
    ClaimsBalanced exclusive s where
  marked := fun _ hexclusive => h.exact.existsUnique_iff hexclusive
  allLeft := fun hout => h.exact.free_of_unheld fun w => claim_of_not_inSpin (hout w)

theorem marks_move (s : ExecutorState Entity Group Node) (w : ℕ × ℕ)
    (pc : WorkerPc Entity Group Node) :
    (s.move w pc).marks = ⟨s.canBeTakenFrom, Function.update s.marks.holds w pc.claim⟩ := by
  rw [ExecutorState.marks, ExecutorState.marks, ExecutorState.move, Marks.mk.injEq]
  refine ⟨rfl, funext fun other => ?_⟩
  by_cases hsame : other = w
  · simp [hsame]
  · simp [hsame]

theorem StartsEmpty.update {worker : ℕ × ℕ → WorkerPc Entity Group Node}
    (hworker : StartsEmpty worker) (w : ℕ × ℕ) {pc : WorkerPc Entity Group Node}
    (hempty : ∀ any, pc.unselected = some any → any = .empty) :
    StartsEmpty (Function.update worker w pc) := by
  intro other any hany
  by_cases hsame : other = w
  · subst hsame
    rw [Function.update_self] at hany
    exact hempty any hany
  · rw [Function.update_of_ne hsame] at hany
    exact hworker other any hany

/-- A worker goes on and keeps what it holds. -/
theorem SpinInvariant.move (h : SpinInvariant exclusive s) {pc : WorkerPc Entity Group Node}
    (hclaim : pc.claim = (s.worker w).claim)
    (hempty : ∀ any, pc.unselected = some any → any = .empty) :
    SpinInvariant exclusive (s.move w pc) := by
  refine ⟨?_, h.empty.update w hempty⟩
  rw [marks_move, hclaim]
  have hsame : Function.update s.marks.holds w (s.worker w).claim = s.marks.holds :=
    Function.update_eq_self w s.marks.holds
  rw [hsame]
  exact h.exact

/-- A worker lets go of an executable of a reentrant group. -/
theorem SpinInvariant.skip (h : SpinInvariant exclusive s) (hpc : s.worker w = .taken any)
    (hshared : ∀ group, any.callbackGroup = some group → exclusive group = false) :
    SpinInvariant exclusive (s.move w .looping) := by
  have hheld : s.marks.holds w = any.callbackGroup := congrArg WorkerPc.claim hpc
  refine ⟨?_, h.empty.update w (by simp [WorkerPc.unselected])⟩
  rw [marks_move]
  exact h.exact.drop fun group hgroup => hshared group (hheld.symm.trans hgroup)

variable [DecidableEq Group]

theorem SpinInvariant.select (h : SpinInvariant exclusive s)
    {registry : Registry Handle Entity Group Node} (hgroups : registry.exclusive = exclusive)
    (call : Entity → Bool) (handles : Kind → List Handle) {again : Bool}
    (hpc : s.worker w = .selecting again any) :
    SpinInvariant exclusive (s.select w registry call handles again any) := by
  have hnothing : s.marks.holds w = none := congrArg WorkerPc.claim hpc
  obtain rfl : any = .empty := h.empty w any (congrArg WorkerPc.unselected hpc)
  have hnone : ∀ kind, (AnyExecutable.empty : AnyExecutable Entity Group Node).pointer kind =
      none := fun _ => rfl
  rw [ExecutorState.select]
  rcases getNextReadyExecutableFromMap_cases registry call hnone ⟨handles, s.canBeTakenFrom⟩ with
    ⟨kept, hresult⟩ | ⟨kept, found, group, hrecorded, hfree, hresult⟩
  · have hempty : ∀ any : AnyExecutable Entity Group Node,
        some AnyExecutable.empty = some any → any = .empty :=
      fun any hany => (Option.some.inj hany).symm
    simp only [hresult]
    cases again with
    | true =>
        have hunlocked : SpinInvariant exclusive { s with waitLocked := false } :=
          ⟨h.exact, h.empty⟩
        exact hunlocked.move (congrArg WorkerPc.claim hpc).symm hempty
    | false => exact h.move (congrArg WorkerPc.claim hpc).symm hempty
  · simp only [hresult, if_true, hgroups]
    refine ⟨?_, h.empty.update w (by simp [WorkerPc.unselected])⟩
    rw [marks_move, WorkerPc.claim, hrecorded]
    exact h.exact.claim hnothing hfree

theorem SpinInvariant.release (h : SpinInvariant exclusive s)
    (hpc : s.worker w = .executed any) :
    SpinInvariant exclusive ((s.free any).move w .released) := by
  have hheld : s.marks.holds w = any.callbackGroup := congrArg WorkerPc.claim hpc
  rw [ExecutorState.free]
  split
  · rename_i group hgroup
    refine ⟨?_, h.empty.update w (by simp [WorkerPc.unselected])⟩
    rw [marks_move]
    exact h.exact.release (hheld.trans hgroup)
  · rename_i hnone
    refine h.move ?_ (by simp [WorkerPc.unselected])
    exact (hheld.trans hnone).symm

/-- What is discarded has no group. -/
theorem SpinInvariant.destroy (h : SpinInvariant exclusive s)
    (hpc : s.worker w = .discarding any) :
    SpinInvariant exclusive ((s.free any).move w .looping) := by
  obtain rfl : any = .empty := h.empty w any (congrArg WorkerPc.unselected hpc)
  exact h.move (congrArg WorkerPc.claim hpc).symm (by simp [WorkerPc.unselected])

variable {numberOfThreads : ℕ} {label : ExecutorLabel Handle Entity Group Node}

theorem spinInvariant_step (h : SpinInvariant exclusive s)
    (hadmits : NotCancelledBefore exclusive s label)
    (hstep : ExecutorStep numberOfThreads exclusive s label s') : SpinInvariant exclusive s' := by
  have hunlocked : ∀ locked, SpinInvariant exclusive { s with waitLocked := locked } :=
    fun _ => ⟨h.exact, h.empty⟩
  cases hstep with
  | spin | spinThrows | lockForThreads | threadsStarted | spinReturns | cancel | context =>
      exact ⟨h.exact, h.empty⟩
  | startThread call created hpc hmore hnew =>
      have hmoved : SpinInvariant exclusive (s.moveSpin call (.starting (created + 1))) :=
        ⟨h.exact, h.empty⟩
      exact hmoved.move (congrArg WorkerPc.claim hnew).symm (by simp [WorkerPc.unselected])
  | enter w hpc | leave w hpc | finish w hpc | execute w any hpc | callbackReturns w any hpc =>
      exact h.move (congrArg WorkerPc.claim hpc).symm (by simp [WorkerPc.unselected])
  | lock w hpc | leaveLocked w hpc =>
      exact (hunlocked _).move (congrArg WorkerPc.claim hpc).symm (by simp [WorkerPc.unselected])
  | proceed w hpc =>
      exact h.move (congrArg WorkerPc.claim hpc).symm fun _ hany => (Option.some.inj hany).symm
  | waitForWork w any hpc | tryAgain w any hpc =>
      obtain rfl : any = .empty := h.empty w any (congrArg WorkerPc.unselected hpc)
      exact h.move (congrArg WorkerPc.claim hpc).symm fun _ hany => (Option.some.inj hany).symm
  | giveUp w any hpc =>
      obtain rfl : any = .empty := h.empty w any (congrArg WorkerPc.unselected hpc)
      exact (hunlocked false).move (congrArg WorkerPc.claim hpc).symm
        fun _ hany => (Option.some.inj hany).symm
  | select w registry call handles again any hgroups hpc => exact h.select hgroups call handles hpc
  | destroy w any hpc => exact h.destroy hpc
  | release w any hpc => exact h.release hpc
  | skip w any hpc hspin =>
      refine h.skip hpc fun group hgroup => ?_
      by_contra hexclusive
      have hspinning := hadmits any group hpc hgroup (by simpa using hexclusive)
      rw [hspin] at hspinning
      cases hspinning

/-- A worker that is about to execute has found the executor spinning, or it has dropped
what it held. -/
theorem notCancelledBefore_of_balanced (h : SpinInvariant exclusive s)
    (hstep : ExecutorStep numberOfThreads exclusive s label s')
    (hbalanced : ClaimsBalanced exclusive s') : NotCancelledBefore exclusive s label := by
  have hother : ∀ {w : ℕ × ℕ} {pc : WorkerPc Entity Group Node}, s.worker w = pc →
      (∀ any, pc ≠ .taken any) →
        NotCancelledBefore exclusive s (.step w : ExecutorLabel Handle Entity Group Node) := by
    rintro w pc rfl hpc any group htaken
    exact absurd htaken (hpc any)
  cases hstep with
  | spin | spinThrows | lockForThreads | startThread | threadsStarted | spinReturns | select
  | cancel | context => trivial
  | execute w any hpc hspin => exact fun _ _ _ _ _ => hspin
  | skip w any hpc hspin =>
      intro any' group htaken hgroup hexclusive
      obtain rfl := WorkerPc.taken.inj (hpc.symm.trans htaken)
      have hheld : s.marks.holds w = some group := (congrArg WorkerPc.claim hpc).trans hgroup
      obtain ⟨hmarked, hnobody⟩ := h.exact.dropped hexclusive hheld
      obtain ⟨other, hother, -⟩ := (hbalanced.marked group hexclusive).mp hmarked
      have hholds := congrArg Marks.holds (marks_move s w .looping)
      exact absurd ((congrFun hholds other).symm.trans hother) (hnobody other)
  | enter w hpc | leave w hpc | lock w hpc | proceed w hpc | leaveLocked w hpc
  | finish w hpc => exact hother hpc fun _ htaken => nomatch htaken
  | waitForWork w any hpc | giveUp w any hpc | tryAgain w any hpc | destroy w any hpc
  | callbackReturns w any hpc | release w any hpc =>
      exact hother hpc fun _ htaken => nomatch htaken

end Invariant

/-- The claims are balanced throughout a run exactly when no worker of the run finds the
executor cancelled between taking an executable of a mutually exclusive group and
executing it. -/
theorem claimsBalanced_throughout_iff [DecidableEq Group] (numberOfThreads : ℕ)
    (exclusive : Group → Bool) {finish : ExecutorState Entity Group Node}
    {trace : List (Move (ExecutorState Entity Group Node)
      (ExecutorLabel Handle Entity Group Node))}
    (hrun : Run (ExecutorStep numberOfThreads exclusive) .constructed trace finish) :
    Throughout (ClaimsBalanced exclusive) .constructed trace ↔
      Admitted (NotCancelledBefore exclusive) trace :=
  hrun.throughout_iff_admitted (fun _ h => h.claimsBalanced)
    (fun _ _ _ h hadmits hstep => spinInvariant_step h hadmits hstep)
    (fun _ _ _ h hstep hbalanced => notCancelledBefore_of_balanced h hstep hbalanced)
    spinInvariant_constructed

/-! ## One worker and one group -/

/-- All handles are of entities of one mutually exclusive group. -/
def oneGroup : Registry Unit Unit Unit Unit where
  byHandle := fun _ _ => some ()
  groupOf := fun _ _ => some ()
  nodeOf := fun _ => some ()
  exclusive := fun _ => true
  mapped := by simp

/-- A timer is ready. -/
def timerReady : Kind → List Unit
  | .timer => [()]
  | _ => []

abbrev UnitStep : ExecutorState Unit Unit Unit → ExecutorLabel Unit Unit Unit Unit →
    ExecutorState Unit Unit Unit → Prop :=
  ExecutorStep 1 fun _ => true

/-- A label of the first call of `spin` or of its worker, or a cancellation. -/
def OfFirstSpin : ExecutorLabel Unit Unit Unit Unit → Prop
  | .spin call => call = 0
  | .select w .. | .step w => w = (0, 0)
  | .cancel | .context _ => True

/-- Nobody else is started. -/
theorem worker_of_first {s s' : ExecutorState Unit Unit Unit}
    {label : ExecutorLabel Unit Unit Unit Unit}
    (hs : ∀ w, w ≠ (0, 0) → s.worker w = .notStarted) (hfirst : OfFirstSpin label)
    (hstep : UnitStep s label s') (w : ℕ × ℕ) (hother : w ≠ (0, 0)) :
    s'.worker w = .notStarted := by
  have hmove : ∀ t : ExecutorState Unit Unit Unit, t.worker = s.worker → ∀ v pc, v = (0, 0) →
      (t.move v pc).worker w = .notStarted := by
    rintro t hkept v pc rfl
    rw [ExecutorState.move, hkept]
    exact (Function.update_of_ne hother _ _).trans (hs w hother)
  cases hstep with
  | spin | spinThrows | lockForThreads | threadsStarted | spinReturns | cancel | context =>
      exact hs w hother
  | startThread call created _ hmore =>
      exact hmove (s.moveSpin call _) rfl _ _
        (Prod.ext hfirst (Nat.lt_one_iff.mp hmore))
  | select v registry call handles again any =>
      rw [ExecutorState.select]
      split
      split
      · exact hmove _ rfl v _ hfirst
      · split
        · exact hmove _ rfl v _ hfirst
        · exact hmove _ rfl v _ hfirst
  | destroy v any | release v any =>
      refine hmove (s.free any) ?_ v _ hfirst
      rw [ExecutorState.free]
      split <;> rfl
  | enter v | leave v | lock v | proceed v | leaveLocked v | waitForWork v | giveUp v
  | tryAgain v | execute v | skip v | callbackReturns v | finish v =>
      exact hmove _ rfl v _ hfirst

theorem others_notStarted {finish : ExecutorState Unit Unit Unit}
    {trace : List (Move (ExecutorState Unit Unit Unit) (ExecutorLabel Unit Unit Unit Unit))}
    (hrun : Run UnitStep .constructed trace finish)
    (hlabels : Admitted (fun _ => OfFirstSpin) trace) :
    ∀ w, w ≠ (0, 0) → finish.worker w = .notStarted := by
  have hkeep : ∀ (s : ExecutorState Unit Unit Unit) (label : ExecutorLabel Unit Unit Unit Unit)
      (s' : ExecutorState Unit Unit Unit), (∀ w, w ≠ (0, 0) → s.worker w = .notStarted) →
      OfFirstSpin label → UnitStep s label s' → ∀ w, w ≠ (0, 0) → s'.worker w = .notStarted :=
    fun s label s' hs hfirst hstep => worker_of_first hs hfirst hstep
  exact hrun.invariant hkeep (fun _ _ => rfl) hlabels

theorem allLeft_of_first {finish : ExecutorState Unit Unit Unit}
    {trace : List (Move (ExecutorState Unit Unit Unit) (ExecutorLabel Unit Unit Unit Unit))}
    (hrun : Run UnitStep .constructed trace finish)
    (hlabels : Admitted (fun _ => OfFirstSpin) trace) (hleft : finish.worker (0, 0) = .left)
    (w : ℕ × ℕ) : ¬ (finish.worker w).inSpin := by
  by_cases hsame : w = (0, 0)
  · rw [hsame, hleft]
    exact id
  · rw [others_notStarted hrun hlabels w hsame]
    exact id

/-- The worker has taken the timer. -/
theorem timer_taken : ∃ s trace any, Run UnitStep .constructed trace s ∧
    Admitted (NotCancelledBefore fun _ => true) trace ∧ Admitted (fun _ => OfFirstSpin) trace ∧
    s.worker (0, 0) = .taken any ∧ any.callbackGroup = some () ∧ s.spinning = true ∧
    s.canBeTakenFrom () = false := by
  refine ⟨_, _, _, .cons (.spin _ 0 rfl rfl) (.cons (.lockForThreads _ 0 rfl rfl)
    (.cons (.startThread _ 0 0 rfl Nat.zero_lt_one rfl)
      (.cons (.threadsStarted _ 0 1 rfl (Nat.le_refl 1))
        (.cons (.enter _ (0, 0) rfl rfl) (.cons (.lock _ (0, 0) rfl rfl)
          (.cons (.proceed _ (0, 0) rfl rfl)
            (.cons (.select _ (0, 0) oneGroup (fun _ => true) timerReady false .empty rfl rfl)
              (.nil _)))))))), ?_, by simp [Admitted, OfFirstSpin], rfl, rfl, rfl, rfl⟩
  have hspinning : ∀ {s : ExecutorState Unit Unit Unit}, s.spinning = true →
      NotCancelledBefore (fun _ => true) s (.step (0, 0) : ExecutorLabel Unit Unit Unit Unit) :=
    fun hspin _ _ _ _ _ => hspin
  exact .cons trivial (.cons trivial (.cons trivial (.cons trivial
    (.cons (hspinning rfl) (.cons (hspinning rfl) (.cons (hspinning rfl)
      (.cons trivial (.nil _))))))))

/-- The worker executes the timer, and leaves when the executor is cancelled. -/
theorem timer_executed_before_cancel : ∃ finish trace,
    Run UnitStep .constructed trace finish ∧
    Throughout (ClaimsBalanced fun _ => true) .constructed trace ∧
    (∀ w, ¬ (finish.worker w).inSpin) ∧ finish.canBeTakenFrom () = true := by
  obtain ⟨s, trace, any, hrun, hadmitted, hlabels, htaken, hgroup, hspin, -⟩ := timer_taken
  have hsteps := hrun.append (.cons (.execute s (0, 0) any htaken hspin)
    (.cons (.callbackReturns _ (0, 0) any rfl)
      (.cons (.release _ (0, 0) any rfl) (.cons (.finish _ (0, 0) rfl)
        (.cons (.cancel _) (.cons (.leave _ (0, 0) rfl (Bool.and_false _))
          (.nil _)))))))
  refine ⟨_, _, hsteps, (claimsBalanced_throughout_iff 1 (fun _ => true) hsteps).mpr ?_,
    allLeft_of_first hsteps ?_ rfl, ?_⟩
  · refine hadmitted.append (.cons (fun _ _ _ _ _ => hspin) (.cons (fun _ _ _ _ _ => hspin)
      (.cons ?_ (.cons ?_ (.cons trivial (.cons ?_ (.nil _)))))))
    · intro _ _ htaken
      cases htaken
    · intro _ _ htaken
      cases htaken
    · intro _ _ htaken
      cases htaken
  · exact hlabels.append (by simp [Admitted, OfFirstSpin])
  · simp [ExecutorState.move, ExecutorState.free, hgroup]

/-- The executor is cancelled when the worker has taken the timer: the worker leaves, and
the group stays marked. -/
theorem timer_dropped_after_cancel : ∃ finish trace,
    Run UnitStep .constructed trace finish ∧ (∀ w, ¬ (finish.worker w).inSpin) ∧
    finish.canBeTakenFrom () = false ∧ ¬ ClaimsBalanced (fun _ => true) finish := by
  obtain ⟨s, trace, any, hrun, -, hlabels, htaken, -, -, hmarked⟩ := timer_taken
  have hsteps := hrun.append (.cons (.cancel s) (.cons (.skip _ (0, 0) any htaken rfl)
    (.cons (.leave _ (0, 0) rfl (Bool.and_false _)) (.nil _))))
  have hleft := allLeft_of_first hsteps
    (hlabels.append (by simp [Admitted, OfFirstSpin])) rfl
  refine ⟨_, _, hsteps, hleft, hmarked, fun hbalanced => ?_⟩
  have hfree := hbalanced.allLeft hleft ()
  exact Bool.false_ne_true (hmarked.symm.trans hfree)

end RosRtems.MultiThreadedExecutor
