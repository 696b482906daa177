import RosRtems.Core.Runs
import RosRtems.NoExecutor.Executables
import Mathlib.Data.Fintype.Basic
import Mathlib.Logic.Function.Basic

/-!
# The worker pool

`assign_or_create` hands an executable to the worker it pops from the idle stack, or
to a new worker where the stack is empty.  A worker executes its slot, clears its
flag, pushes itself and waits for the flag.  Every executable is executed once: it is
with a dispatcher or in one worker's slot, and a worker is on the stack only while it
has nothing to execute.
-/

namespace RosRtems.NoExecutor

open RosRtems.Runs

variable {Group Entity : Type*} {dispatchers : ℕ}

/-- An executable and the call of `assign_or_create` that it was handed to. -/
structure Handed (Group Entity : Type*) where
  job : ℕ
  executable : Executable Group Entity

def Handed.stamped (handed : Handed Group Entity) (timing : Timing) :
    Handed Group Entity :=
  { handed with executable := handed.executable.stamped timing }

/-- Where a dispatching thread is in `assign_or_create`: outside, before the pop, with
a popped worker, after writing its slot, after waking it, or in `create_thread` before
and after the thread is started. -/
inductive DispatcherPc (Group Entity : Type*)
  | outside
  | entered (handed : Handed Group Entity)
  | popped (handed : Handed Group Entity) (w : ℕ)
  | written (w : ℕ)
  | woke (w : ℕ)
  | creating (handed : Handed Group Entity)
  | created (w : ℕ)

/-- Where a worker is in `thread_start`: not created, before its first two writes, in
`wait_on(0)`, past it, in the callback, after it, or before the push. -/
inductive WorkerPc (Group Entity : Type*)
  | absent
  | started (handed : Handed Group Entity)
  | copied
  | waiting
  | woken
  | executing
  | executed
  | pushing

/-- `handed` lists the calls of `assign_or_create` so far and `executions` what the
workers began to execute. -/
structure PoolState (Group Entity : Type*) (dispatchers : ℕ) where
  dispatcher : Fin dispatchers → DispatcherPc Group Entity
  worker : ℕ → WorkerPc Group Entity
  created : ℕ
  isBusy : ℕ → ℕ
  slot : ℕ → Option (Handed Group Entity)
  idleThreads : List ℕ
  groupMutex : Group → Option ℕ
  handed : List (Request Group Entity)
  executions : List (Handed Group Entity)

inductive PoolLabel (Group Entity : Type*) (dispatchers : ℕ)
  | call (d : Fin dispatchers) (request : Request Group Entity)
  | dispatcher (d : Fin dispatchers)
  | worker (w : ℕ)

/-- The next call of `assign_or_create` is up to the dispatchers; every other step has
to come once it is possible. -/
def PoolLabel.IsCall : PoolLabel Group Entity dispatchers → Prop
  | .call _ _ => True
  | .dispatcher _ | .worker _ => False

instance : ∀ label : PoolLabel Group Entity dispatchers, Decidable label.IsCall
  | .call _ _ => .isTrue trivial
  | .dispatcher _ | .worker _ => .isFalse id

def PoolState.initial : PoolState Group Entity dispatchers where
  dispatcher := fun _ => .outside
  worker := fun _ => .absent
  created := 0
  isBusy := fun _ => 0
  slot := fun _ => none
  idleThreads := []
  groupMutex := fun _ => none
  handed := []
  executions := []

namespace PoolState

def moveDispatcher (s : PoolState Group Entity dispatchers) (d : Fin dispatchers)
    (pc : DispatcherPc Group Entity) : PoolState Group Entity dispatchers :=
  { s with dispatcher := Function.update s.dispatcher d pc }

def moveWorker (s : PoolState Group Entity dispatchers) (w : ℕ)
    (pc : WorkerPc Group Entity) : PoolState Group Entity dispatchers :=
  { s with worker := Function.update s.worker w pc }

def setBusy (s : PoolState Group Entity dispatchers) (w value : ℕ) :
    PoolState Group Entity dispatchers :=
  { s with isBusy := Function.update s.isBusy w value }

def writeSlot (s : PoolState Group Entity dispatchers) (w : ℕ)
    (slot : Option (Handed Group Entity)) : PoolState Group Entity dispatchers :=
  { s with slot := Function.update s.slot w slot }

/-- The executable that `execute_executable` leaves in the slot. -/
def dropGroup (handed : Handed Group Entity) : Handed Group Entity :=
  { handed with executable := { handed.executable with callbackGroup := none } }

section Locks

variable [DecidableEq Group] (exclusive : Group → Bool)

/-- The lock of the mutex of a mutually exclusive group. -/
def lockGroup (s : PoolState Group Entity dispatchers) (w : ℕ) (group : Group) :
    PoolState Group Entity dispatchers :=
  { s with
    groupMutex :=
      if exclusive group then Function.update s.groupMutex group (some w)
      else s.groupMutex }

/-- The unlock, after which the executable loses the group. -/
def unlockGroup (s : PoolState Group Entity dispatchers) (w : ℕ) (group : Group) :
    PoolState Group Entity dispatchers :=
  { s with
    groupMutex :=
      if exclusive group then Function.update s.groupMutex group none
      else s.groupMutex
    slot :=
      if exclusive group then Function.update s.slot w ((s.slot w).map dropGroup)
      else s.slot }

theorem unlockGroup_slot {s : PoolState Group Entity dispatchers} {w other : ℕ}
    (hother : other ≠ w) (group : Group) :
    (s.unlockGroup exclusive w group).slot other = s.slot other := by
  rw [unlockGroup]
  split
  · exact Function.update_of_ne hother _ _
  · rfl

end Locks

end PoolState

open PoolState

section Steps

variable [DecidableEq Group] (exclusive : Group → Bool)

/-- Any order of the steps of the dispatchers and of the workers. -/
inductive PoolStep : PoolState Group Entity dispatchers →
    PoolLabel Group Entity dispatchers → PoolState Group Entity dispatchers → Prop
  | call (s : PoolState Group Entity dispatchers) (d : Fin dispatchers)
      (request : Request Group Entity) (hpc : s.dispatcher d = .outside) :
      PoolStep s (.call d request)
        { s.moveDispatcher d (.entered ⟨s.handed.length, request.executable⟩) with
          handed := s.handed ++ [request] }
  | pop (s : PoolState Group Entity dispatchers) (d : Fin dispatchers)
      (handed : Handed Group Entity) (w : ℕ) (rest : List ℕ)
      (hpc : s.dispatcher d = .entered handed) (hidle : s.idleThreads = w :: rest) :
      PoolStep s (.dispatcher d)
        { s.moveDispatcher d (.popped handed w) with idleThreads := rest }
  | popNull (s : PoolState Group Entity dispatchers) (d : Fin dispatchers)
      (handed : Handed Group Entity) (timing : Timing)
      (hpc : s.dispatcher d = .entered handed) (hidle : s.idleThreads = []) :
      PoolStep s (.dispatcher d) (s.moveDispatcher d (.creating (handed.stamped timing)))
  | write (s : PoolState Group Entity dispatchers) (d : Fin dispatchers)
      (handed : Handed Group Entity) (w : ℕ)
      (hpc : s.dispatcher d = .popped handed w) :
      PoolStep s (.dispatcher d)
        ((s.writeSlot w (some handed)).moveDispatcher d (.written w))
  | wake (s : PoolState Group Entity dispatchers) (d : Fin dispatchers) (w : ℕ)
      (hpc : s.dispatcher d = .written w) :
      PoolStep s (.dispatcher d) ((s.setBusy w 1).moveDispatcher d (.woke w))
  | stamp (s : PoolState Group Entity dispatchers) (d : Fin dispatchers) (w : ℕ)
      (timing : Timing) (hpc : s.dispatcher d = .woke w) :
      PoolStep s (.dispatcher d)
        ((s.writeSlot w ((s.slot w).map (·.stamped timing))).moveDispatcher d .outside)
  | create (s : PoolState Group Entity dispatchers) (d : Fin dispatchers)
      (handed : Handed Group Entity) (hpc : s.dispatcher d = .creating handed) :
      PoolStep s (.dispatcher d)
        { (s.moveWorker s.created (.started handed)).moveDispatcher d
            (.created s.created) with created := s.created + 1 }
  | detach (s : PoolState Group Entity dispatchers) (d : Fin dispatchers) (w : ℕ)
      (hpc : s.dispatcher d = .created w ∨ s.dispatcher d = .woke w) :
      PoolStep s (.dispatcher d) (s.moveDispatcher d .outside)
  | copy (s : PoolState Group Entity dispatchers) (w : ℕ)
      (handed : Handed Group Entity) (hpc : s.worker w = .started handed) :
      PoolStep s (.worker w) ((s.writeSlot w (some handed)).moveWorker w .copied)
  | begin (s : PoolState Group Entity dispatchers) (w : ℕ)
      (hpc : s.worker w = .copied) :
      PoolStep s (.worker w) ((s.setBusy w 1).moveWorker w .waiting)
  | pass (s : PoolState Group Entity dispatchers) (w : ℕ)
      (hpc : s.worker w = .waiting) (hbusy : s.isBusy w = 1) :
      PoolStep s (.worker w) (s.moveWorker w .woken)
  | execute (s : PoolState Group Entity dispatchers) (w : ℕ)
      (handed : Handed Group Entity) (group : Group) (hpc : s.worker w = .woken)
      (hslot : s.slot w = some handed)
      (hgroup : handed.executable.callbackGroup = some group)
      (hmutex : exclusive group = true → s.groupMutex group = none) :
      PoolStep s (.worker w)
        { (s.lockGroup exclusive w group).moveWorker w .executing with
          executions := s.executions ++ [handed] }
  | finish (s : PoolState Group Entity dispatchers) (w : ℕ)
      (handed : Handed Group Entity) (group : Group) (hpc : s.worker w = .executing)
      (hslot : s.slot w = some handed)
      (hgroup : handed.executable.callbackGroup = some group) :
      PoolStep s (.worker w) ((s.unlockGroup exclusive w group).moveWorker w .executed)
  | clear (s : PoolState Group Entity dispatchers) (w : ℕ)
      (hpc : s.worker w = .executed) :
      PoolStep s (.worker w) ((s.setBusy w 0).moveWorker w .pushing)
  | push (s : PoolState Group Entity dispatchers) (w : ℕ)
      (hpc : s.worker w = .pushing) :
      PoolStep s (.worker w)
        { s.moveWorker w .waiting with idleThreads := w :: s.idleThreads }

end Steps

/-! ## Where a worker is -/

/-- The worker has a job, from the moment its flag is set until it clears it. -/
def Busy (s : PoolState Group Entity dispatchers) (w : ℕ) : Prop :=
  match s.worker w with
  | .started _ | .copied | .woken | .executing | .executed => True
  | .waiting => s.isBusy w = 1
  | .absent | .pushing => False

/-- The job of a busy worker: that of its argument before it has copied it, and that of
its slot from then on. -/
def HasJob (s : PoolState Group Entity dispatchers) (w job : ℕ) : Prop :=
  match s.worker w with
  | .started handed => handed.job = job
  | _ => ∃ handed, s.slot w = some handed ∧ handed.job = job

/-- The worker that the dispatcher has popped and not woken yet. -/
def DispatcherPc.idleThread : DispatcherPc Group Entity → Option ℕ
  | .popped _ w | .written w => some w
  | .outside | .entered _ | .woke _ | .creating _ | .created _ => none

def HasPopped (s : PoolState Group Entity dispatchers) (d : Fin dispatchers) (w : ℕ) :
    Prop :=
  (s.dispatcher d).idleThread = some w

/-- The worker is in one place: busy with one job, about to push itself, on the idle
stack once, or popped by one dispatcher. -/
def InOnePlace (s : PoolState Group Entity dispatchers) (w : ℕ) : Prop :=
  ((Busy s w ∧ ∃! job, HasJob s w job) ∧ s.worker w ≠ .pushing ∧ w ∉ s.idleThreads ∧
    ∀ d, ¬ HasPopped s d w) ∨
  (¬ Busy s w ∧ s.worker w = .pushing ∧ w ∉ s.idleThreads ∧ ∀ d, ¬ HasPopped s d w) ∨
  (¬ Busy s w ∧ s.worker w ≠ .pushing ∧ s.idleThreads.count w = 1 ∧
    ∀ d, ¬ HasPopped s d w) ∨
  (¬ Busy s w ∧ s.worker w ≠ .pushing ∧ w ∉ s.idleThreads ∧ ∃! d, HasPopped s d w)

/-- The worker waits for its flag. -/
def Free (s : PoolState Group Entity dispatchers) (w : ℕ) : Prop :=
  s.worker w = .waiting ∧ s.isBusy w ≠ 1

def Parked (s : PoolState Group Entity dispatchers) (w : ℕ) : Prop :=
  w ∈ s.idleThreads ∨ ∃ d, HasPopped s d w

/-- The workers that wait for their flags are those on the stack or popped, and each
of them is in one of these places once. -/
structure PlaceInvariant (s : PoolState Group Entity dispatchers) : Prop where
  nodup : s.idleThreads.Nodup
  apart : ∀ d w, HasPopped s d w → w ∉ s.idleThreads
  single : ∀ d other w, HasPopped s d w → HasPopped s other w → other = d
  parked : ∀ w, Parked s w ↔ Free s w
  cleared : ∀ w, s.worker w = .pushing → s.isBusy w ≠ 1
  absent : ∀ w, s.worker w = .absent ↔ s.created ≤ w

section Places

variable {s s' : PoolState Group Entity dispatchers}

/-- The places depend on the stack, on the dispatchers that have popped a worker, and
on the workers that wait for their flags. -/
theorem PlaceInvariant.frame (hs : PlaceInvariant s)
    (hidle : s'.idleThreads = s.idleThreads)
    (hpopped : ∀ d, (s'.dispatcher d).idleThread = (s.dispatcher d).idleThread)
    (hfree : ∀ w, Free s' w ↔ Free s w)
    (hcleared : ∀ w, s'.worker w = .pushing → s'.isBusy w ≠ 1)
    (habsent : ∀ w, s'.worker w = .absent ↔ s'.created ≤ w) : PlaceInvariant s' := by
  have hhas : ∀ d w, HasPopped s' d w ↔ HasPopped s d w := by
    intro d w
    rw [HasPopped, HasPopped, hpopped]
  constructor
  case nodup => rw [hidle]; exact hs.nodup
  case apart =>
    intro d w hd
    rw [hidle]
    exact hs.apart d w ((hhas d w).mp hd)
  case single =>
    intro d other w hd hother
    exact hs.single d other w ((hhas d w).mp hd) ((hhas other w).mp hother)
  case parked =>
    intro w
    simp only [Parked, hidle, hhas, hfree]
    exact hs.parked w
  case cleared => exact hcleared
  case absent => exact habsent

theorem hasPopped_of_popped {d : Fin dispatchers} {handed : Handed Group Entity} {w : ℕ}
    (hpc : s.dispatcher d = .popped handed w) : HasPopped s d w := by
  rw [HasPopped, hpc]
  rfl

theorem hasPopped_of_written {d : Fin dispatchers} {w : ℕ}
    (hpc : s.dispatcher d = .written w) : HasPopped s d w := by
  rw [HasPopped, hpc]
  rfl

theorem PlaceInvariant.free_of_popped (hs : PlaceInvariant s) {d : Fin dispatchers} {w : ℕ}
    (hpopped : HasPopped s d w) : Free s w :=
  (hs.parked w).mp (.inr ⟨d, hpopped⟩)

/-- A dispatcher that goes on without popping or waking a worker. -/
theorem PlaceInvariant.dispatcher_moves (hs : PlaceInvariant s) {d : Fin dispatchers}
    {pc : DispatcherPc Group Entity} (hpc : pc.idleThread = (s.dispatcher d).idleThread)
    (hdispatcher : s'.dispatcher = Function.update s.dispatcher d pc)
    (hworker : s'.worker = s.worker) (hbusy : s'.isBusy = s.isBusy)
    (hidle : s'.idleThreads = s.idleThreads) (hcreated : s'.created = s.created) :
    PlaceInvariant s' := by
  apply hs.frame hidle
  · intro other
    rw [hdispatcher]
    by_cases hother : other = d
    · rw [hother, Function.update_self, hpc]
    · rw [Function.update_of_ne hother]
  · intro w
    rw [Free, Free, hworker, hbusy]
  · rw [hworker, hbusy]
    exact hs.cleared
  · rw [hworker, hcreated]
    exact hs.absent

/-- A worker that goes on without starting or ceasing to wait for its flag. -/
theorem PlaceInvariant.worker_moves (hs : PlaceInvariant s) {w : ℕ}
    {pc : WorkerPc Group Entity} {busy : ℕ} (hpresent : s.worker w ≠ .absent)
    (hstays : pc ≠ .absent) (hbefore : ¬ Free s w) (hwaiting : pc = .waiting → busy = 1)
    (hpushing : pc = .pushing → busy ≠ 1)
    (hworker : s'.worker = Function.update s.worker w pc)
    (hbusy : s'.isBusy = Function.update s.isBusy w busy)
    (hdispatcher : s'.dispatcher = s.dispatcher)
    (hidle : s'.idleThreads = s.idleThreads) (hsame : s'.created = s.created) :
    PlaceInvariant s' := by
  apply hs.frame hidle
  · intro d
    rw [hdispatcher]
  · intro other
    rw [Free, Free, hworker, hbusy]
    by_cases hother : other = w
    · subst hother
      simp only [Function.update_self]
      rw [Free] at hbefore
      tauto
    · rw [Function.update_of_ne hother, Function.update_of_ne hother]
  · intro other
    rw [hworker, hbusy]
    by_cases hother : other = w
    · subst hother
      simpa only [Function.update_self] using hpushing
    · rw [Function.update_of_ne hother, Function.update_of_ne hother]
      exact hs.cleared other
  · intro other
    rw [hworker, hsame, ← hs.absent other]
    by_cases hother : other = w
    · subst hother
      simp [hpresent, hstays]
    · rw [Function.update_of_ne hother]

theorem PlaceInvariant.pop (hs : PlaceInvariant s) {d : Fin dispatchers}
    {handed : Handed Group Entity} {w : ℕ} {rest : List ℕ}
    (hpc : s.dispatcher d = .entered handed) (hidle : s.idleThreads = w :: rest) :
    PlaceInvariant { s.moveDispatcher d (.popped handed w) with idleThreads := rest } := by
  have hhas : ∀ other v,
      HasPopped { s.moveDispatcher d (.popped handed w) with idleThreads := rest } other v ↔
        (other = d ∧ v = w) ∨ HasPopped s other v := by
    intro other v
    simp only [HasPopped, moveDispatcher]
    by_cases hother : other = d
    · subst hother
      simp [hpc, DispatcherPc.idleThread, eq_comm]
    · simp [hother]
  have hnodup := hs.nodup
  rw [hidle, List.nodup_cons] at hnodup
  have hmem : ∀ v, v ∈ s.idleThreads ↔ v = w ∨ v ∈ rest := by simp [hidle]
  have hnone : ∀ other, ¬ HasPopped s other w :=
    fun other hother => hs.apart other w hother ((hmem w).mpr (.inl rfl))
  constructor
  case nodup => exact hnodup.2
  case apart =>
    intro other v hother
    rcases (hhas other v).mp hother with ⟨-, rfl⟩ | hpopped
    · exact hnodup.1
    · exact fun hrest => hs.apart other v hpopped ((hmem v).mpr (.inr hrest))
  case single =>
    intro first second v hfirst hsecond
    rcases (hhas first v).mp hfirst with ⟨rfl, rfl⟩ | hheld
    · rcases (hhas second v).mp hsecond with ⟨rfl, -⟩ | hheld'
      · rfl
      · exact absurd hheld' (hnone second)
    · rcases (hhas second v).mp hsecond with ⟨-, rfl⟩ | hheld'
      · exact absurd hheld (hnone first)
      · exact hs.single first second v hheld hheld'
  case parked =>
    intro v
    refine Iff.trans ?_ (hs.parked v)
    simp only [Parked, hhas, hmem]
    constructor
    · rintro (hrest | ⟨other, ⟨-, rfl⟩ | hpopped⟩)
      · exact .inl (.inr hrest)
      · exact .inl (.inl rfl)
      · exact .inr ⟨other, hpopped⟩
    · rintro ((rfl | hrest) | ⟨other, hpopped⟩)
      · exact .inr ⟨d, .inl ⟨rfl, rfl⟩⟩
      · exact .inl hrest
      · exact .inr ⟨other, .inr hpopped⟩
  case cleared => exact hs.cleared
  case absent => exact hs.absent

theorem PlaceInvariant.wake (hs : PlaceInvariant s) {d : Fin dispatchers} {w : ℕ}
    (hpc : s.dispatcher d = .written w) :
    PlaceInvariant ((s.setBusy w 1).moveDispatcher d (.woke w)) := by
  have hmine := hasPopped_of_written hpc
  have hhas : ∀ other v,
      HasPopped ((s.setBusy w 1).moveDispatcher d (.woke w)) other v ↔
        other ≠ d ∧ HasPopped s other v := by
    intro other v
    simp only [HasPopped, moveDispatcher, setBusy]
    by_cases hother : other = d
    · subst hother
      simp [DispatcherPc.idleThread]
    · simp [hother]
  constructor
  case nodup => exact hs.nodup
  case apart => exact fun other v hother => hs.apart other v ((hhas other v).mp hother).2
  case single =>
    exact fun first second v hfirst hsecond => hs.single first second v
      ((hhas first v).mp hfirst).2 ((hhas second v).mp hsecond).2
  case parked =>
    intro v
    simp only [Parked, hhas]
    by_cases hv : v = w
    · subst hv
      have hstack : v ∉ s.idleThreads := hs.apart d v hmine
      have honly : ¬ ∃ other, other ≠ d ∧ HasPopped s other v := by
        rintro ⟨other, hne, hother⟩
        exact hne (hs.single d other v hmine hother)
      have hbusy : ¬ Free ((s.setBusy v 1).moveDispatcher d (.woke v)) v := by
        simp [Free, setBusy, moveDispatcher]
      exact iff_of_false (by rintro (h | h); exacts [hstack h, honly h]) hbusy
    · have hsame : Free ((s.setBusy w 1).moveDispatcher d (.woke w)) v ↔ Free s v := by
        simp [Free, setBusy, moveDispatcher, hv]
      have hother : ∀ other, HasPopped s other v → other ≠ d := by
        rintro other hpopped rfl
        rw [HasPopped] at hmine hpopped
        rw [hmine, Option.some.injEq] at hpopped
        exact hv hpopped.symm
      rw [hsame, ← hs.parked v, Parked]
      simp only [moveDispatcher, setBusy]
      exact or_congr_right
        (exists_congr fun other => and_iff_right_of_imp (hother other))
  case cleared =>
    intro v hpushing
    have hv : v ≠ w := by
      rintro rfl
      simp [moveDispatcher, setBusy, (hs.free_of_popped hmine).1] at hpushing
    simpa [moveDispatcher, setBusy, hv] using hs.cleared v hpushing
  case absent => exact hs.absent

theorem PlaceInvariant.push (hs : PlaceInvariant s) {w : ℕ}
    (hpc : s.worker w = .pushing) :
    PlaceInvariant { s.moveWorker w .waiting with idleThreads := w :: s.idleThreads } := by
  have hparked : ¬ Parked s w := by
    rw [hs.parked w, Free, hpc]
    simp
  have hstack : w ∉ s.idleThreads := fun hmem => hparked (.inl hmem)
  have hnone : ∀ d, ¬ HasPopped s d w := fun d hd => hparked (.inr ⟨d, hd⟩)
  constructor
  case nodup => exact List.nodup_cons.mpr ⟨hstack, hs.nodup⟩
  case apart =>
    intro d v hd
    rw [List.mem_cons, not_or]
    exact ⟨fun hv => hnone d (hv ▸ hd), hs.apart d v hd⟩
  case single => exact hs.single
  case parked =>
    intro v
    by_cases hv : v = w
    · subst hv
      refine iff_of_true (.inl (List.mem_cons_self ..)) ?_
      simpa [Free, moveWorker] using hs.cleared v hpc
    · have hsame := hs.parked v
      simp only [Parked, Free, HasPopped] at hsame
      simpa [Parked, Free, HasPopped, moveWorker, hv] using hsame
  case cleared =>
    intro v hpushing
    by_cases hv : v = w
    · subst hv
      exact hs.cleared v hpc
    · apply hs.cleared v
      simpa [moveWorker, hv] using hpushing
  case absent =>
    intro v
    refine Iff.trans ?_ (hs.absent v)
    by_cases hv : v = w
    · subst hv
      simp [moveWorker, hpc]
    · simp [moveWorker, hv]

theorem PlaceInvariant.create (hs : PlaceInvariant s) {d : Fin dispatchers}
    {handed : Handed Group Entity} (hpc : s.dispatcher d = .creating handed) :
    PlaceInvariant
      { (s.moveWorker s.created (.started handed)).moveDispatcher d (.created s.created)
        with created := s.created + 1 } := by
  have hnew := (hs.absent s.created).mpr le_rfl
  refine hs.frame rfl ?_ ?_ ?_ ?_
  · intro other
    by_cases hother : other = d
    · subst hother
      simp [moveDispatcher, hpc, DispatcherPc.idleThread]
    · simp [moveDispatcher, moveWorker, hother]
  · intro w
    by_cases hw : w = s.created
    · subst hw
      simp [Free, moveDispatcher, moveWorker, hnew]
    · simp [Free, moveDispatcher, moveWorker, hw]
  · intro w hpushing
    have hw : w ≠ s.created := by
      rintro rfl
      simp [moveDispatcher, moveWorker] at hpushing
    apply hs.cleared w
    simpa [moveDispatcher, moveWorker, hw] using hpushing
  · intro w
    have hbefore := hs.absent w
    by_cases hw : w = s.created
    · subst hw
      simp [moveDispatcher, moveWorker]
    · simp only [moveDispatcher, moveWorker, Function.update_of_ne hw, hbefore]
      omega

theorem placeInvariant_step [DecidableEq Group] {exclusive : Group → Bool}
    (s : PoolState Group Entity dispatchers) (label : PoolLabel Group Entity dispatchers)
    (s' : PoolState Group Entity dispatchers) (hs : PlaceInvariant s)
    (hstep : PoolStep exclusive s label s') :
    PlaceInvariant s' := by
  cases hstep with
  | call d request hpc =>
      exact hs.dispatcher_moves (by simp [hpc, DispatcherPc.idleThread]) rfl rfl rfl rfl rfl
  | pop d handed w rest hpc hidle => exact hs.pop hpc hidle
  | popNull d handed timing hpc hidle =>
      exact hs.dispatcher_moves (by simp [hpc, DispatcherPc.idleThread]) rfl rfl rfl rfl rfl
  | write d handed w hpc =>
      exact hs.dispatcher_moves (by simp [hpc, DispatcherPc.idleThread]) rfl rfl rfl rfl rfl
  | wake d w hpc => exact hs.wake hpc
  | stamp d w timing hpc =>
      exact hs.dispatcher_moves (by simp [hpc, DispatcherPc.idleThread]) rfl rfl rfl rfl rfl
  | create d handed hpc => exact hs.create hpc
  | detach d w hpc =>
      refine hs.dispatcher_moves ?_ rfl rfl rfl rfl rfl
      rcases hpc with hpc | hpc <;> simp [hpc, DispatcherPc.idleThread]
  | copy w handed hpc =>
      exact hs.worker_moves (by simp [hpc]) (by simp) (by simp [Free, hpc]) (by simp)
        (by simp) rfl (Function.update_eq_self w s.isBusy).symm rfl rfl rfl
  | begin w hpc =>
      exact hs.worker_moves (by simp [hpc]) (by simp) (by simp [Free, hpc]) (by simp)
        (by simp) rfl rfl rfl rfl rfl
  | pass w hpc hbusy =>
      exact hs.worker_moves (by simp [hpc]) (by simp) (by simp [Free, hpc, hbusy]) (by simp)
        (by simp) rfl (Function.update_eq_self w s.isBusy).symm rfl rfl rfl
  | execute w handed group hpc _ _ _ =>
      exact hs.worker_moves (by simp [hpc]) (by simp) (by simp [Free, hpc]) (by simp)
        (by simp) rfl (Function.update_eq_self w s.isBusy).symm rfl rfl rfl
  | finish w handed group hpc _ _ =>
      exact hs.worker_moves (by simp [hpc]) (by simp) (by simp [Free, hpc]) (by simp)
        (by simp) rfl (Function.update_eq_self w s.isBusy).symm rfl rfl rfl
  | clear w hpc =>
      exact hs.worker_moves (by simp [hpc]) (by simp) (by simp [Free, hpc]) (by simp)
        (by simp) rfl rfl rfl rfl rfl
  | push w hpc => exact hs.push hpc

theorem PlaceInvariant.inOnePlace (hs : PlaceInvariant s) {w : ℕ} (hw : w < s.created)
    (hjob : Busy s w → ∃! job, HasJob s w job) : InOnePlace s w := by
  have hpresent : s.worker w ≠ .absent := by
    rw [ne_eq, hs.absent w]
    omega
  have hunparked : ¬ Free s w → w ∉ s.idleThreads ∧ ∀ d, ¬ HasPopped s d w := by
    rw [← hs.parked w, Parked, not_or, not_exists]
    exact id
  by_cases hfree : Free s w
  · have hbusy : ¬ Busy s w := by simp [Busy, hfree.1, hfree.2]
    have hpushing : s.worker w ≠ .pushing := by simp [hfree.1]
    by_cases hstack : w ∈ s.idleThreads
    · exact .inr (.inr (.inl ⟨hbusy, hpushing, List.count_eq_one_of_mem hs.nodup hstack,
        fun d hd => hs.apart d w hd hstack⟩))
    · obtain ⟨d, hd⟩ := ((hs.parked w).mpr hfree).resolve_left hstack
      exact .inr (.inr (.inr ⟨hbusy, hpushing, hstack, d, hd,
        fun other hother => hs.single d other w hd hother⟩))
  · by_cases hpushing : s.worker w = .pushing
    · exact .inr (.inl ⟨by simp [Busy, hpushing], hpushing, hunparked hfree⟩)
    · have hbusy : Busy s w := by
        cases hpc : s.worker w with
        | absent => exact absurd hpc hpresent
        | pushing => exact absurd hpc hpushing
        | waiting => simpa [Busy, Free, hpc] using hfree
        | started _ | copied | woken | executing | executed => simp [Busy, hpc]
      exact .inl ⟨⟨hbusy, hjob hbusy⟩, hpushing, hunparked hfree⟩

end Places

end RosRtems.NoExecutor
