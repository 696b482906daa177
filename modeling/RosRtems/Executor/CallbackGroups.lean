import RosRtems.Core.Runs
import Mathlib.Logic.Function.Basic
import Mathlib.Data.Fin.Basic

/-!
# Callback groups shared by subscription tasks and a standard executor

The workers of a standard executor claim a mutually exclusive group by clearing its
flag and release it by setting the flag.  A subscription task neither tests nor
clears the flag: it runs its callback, and sets the flag afterwards.  The groups
are respected exactly where the tasks have them to themselves, one task for each.
-/

namespace RosRtems.CallbackGroups

open RosRtems.Runs

variable {Group Sub Entity : Type*}

/-- The groups, the subscriptions registered with tasks of their own, and the
entities of a standard executor.  `keepsGroup` says that a worker destroys an
executable together with its group, as the executors with a single worker do; the
multi-threaded executor takes the group out first. -/
structure GroupConfig (Group Sub Entity : Type*) where
  exclusive : Group → Bool
  subGroup : Sub → Group
  entityGroup : Entity → Group
  workers : ℕ
  keepsGroup : Bool
  workers_pos : 0 < workers
  workers_of_keepsGroup : keepsGroup = true → workers = 1

/-- Where a subscription task is: in its receive, before the take, in the user
callback, or before the release of the group. -/
inductive TaskPc
  | waiting
  | entered
  | handling
  | releasing
  deriving DecidableEq

/-- Where a worker is with its executable: none, claimed, in the user callback, after
it, released by `execute_any_executable`, or discarded without having been run. -/
inductive WorkerPc (Entity : Type*)
  | idle
  | claimed (entity : Entity)
  | running (entity : Entity)
  | ran (entity : Entity)
  | released (entity : Entity)
  | discarded (entity : Entity)

inductive Party (Sub : Type*) (workers : ℕ)
  | task (sub : Sub)
  | worker (w : Fin workers)

/-- The flags `can_be_taken_from`, who cleared each last, and the parties. -/
structure GroupState (Group Sub Entity : Type*) (workers : ℕ) where
  flag : Group → Bool
  claimant : Group → Option (Party Sub workers)
  task : Sub → TaskPc
  worker : Fin workers → WorkerPc Entity

/-- The party that takes the step, and for a claim the entity it is for. -/
inductive Label (Sub Entity : Type*) (workers : ℕ)
  | task (sub : Sub)
  | worker (w : Fin workers)
  | claim (w : Fin workers) (entity : Entity)

def Label.party {workers : ℕ} : Label Sub Entity workers → Party Sub workers
  | .task sub => .task sub
  | .worker w | .claim w _ => .worker w

section Steps

variable [DecidableEq Group] [DecidableEq Sub] (config : GroupConfig Group Sub Entity)

abbrev StateOf := GroupState Group Sub Entity config.workers

def initialState : StateOf config where
  flag := fun _ => true
  claimant := fun _ => none
  task := fun _ => .waiting
  worker := fun _ => .idle

def moveTask (s : StateOf config) (sub : Sub) (pc : TaskPc) : StateOf config :=
  { s with task := Function.update s.task sub pc }

def moveWorker (s : StateOf config) (w : Fin config.workers) (pc : WorkerPc Entity) :
    StateOf config :=
  { s with worker := Function.update s.worker w pc }

/-- `can_be_taken_from().store(true)`. -/
def setFlag (s : StateOf config) (group : Group) : StateOf config :=
  { s with flag := Function.update s.flag group true }

/-- The claim of `get_next_ready_executable_from_map`: only a mutually exclusive
group is marked. -/
def claimGroup (s : StateOf config) (w : Fin config.workers) (group : Group) :
    StateOf config :=
  if config.exclusive group then
    { s with
      flag := Function.update s.flag group false
      claimant := Function.update s.claimant group (some (.worker w)) }
  else s

/-- The release at the end of the task callback. -/
def releaseGroup (s : StateOf config) (group : Group) : StateOf config :=
  if config.exclusive group then setFlag config s group else s

/-- The destructor of `AnyExecutable`, where it still has its group. -/
def destroyExecutable (s : StateOf config) (group : Group) : StateOf config :=
  if config.keepsGroup then setFlag config s group else s

/-- Any order of the steps of the tasks and of the workers.  Messages arrive at any
time, and a take may find none. -/
inductive GroupStep :
    StateOf config → Label Sub Entity config.workers → StateOf config → Prop
  | wake (s : StateOf config) (sub : Sub) (hpc : s.task sub = .waiting) :
      GroupStep s (.task sub) (moveTask config s sub .entered)
  | take (s : StateOf config) (sub : Sub) (hpc : s.task sub = .entered) :
      GroupStep s (.task sub) (moveTask config s sub .handling)
  | takeFails (s : StateOf config) (sub : Sub) (hpc : s.task sub = .entered) :
      GroupStep s (.task sub) (moveTask config s sub .releasing)
  | throws (s : StateOf config) (sub : Sub)
      (hpc : s.task sub = .entered ∨ s.task sub = .handling) :
      GroupStep s (.task sub) (moveTask config s sub .waiting)
  | returns (s : StateOf config) (sub : Sub) (hpc : s.task sub = .handling) :
      GroupStep s (.task sub) (moveTask config s sub .releasing)
  | release (s : StateOf config) (sub : Sub) (hpc : s.task sub = .releasing) :
      GroupStep s (.task sub)
        (moveTask config (releaseGroup config s (config.subGroup sub)) sub .waiting)
  | claim (s : StateOf config) (w : Fin config.workers) (e : Entity)
      (hpc : s.worker w = .idle) (hflag : s.flag (config.entityGroup e) = true) :
      GroupStep s (.claim w e)
        (moveWorker config (claimGroup config s w (config.entityGroup e)) w (.claimed e))
  | beginCallback (s : StateOf config) (w : Fin config.workers) (e : Entity)
      (hpc : s.worker w = .claimed e) :
      GroupStep s (.worker w) (moveWorker config s w (.running e))
  | discard (s : StateOf config) (w : Fin config.workers) (e : Entity)
      (hpc : s.worker w = .claimed e) :
      GroupStep s (.worker w) (moveWorker config s w (.discarded e))
  | finish (s : StateOf config) (w : Fin config.workers) (e : Entity)
      (hpc : s.worker w = .running e) :
      GroupStep s (.worker w) (moveWorker config s w (.ran e))
  | unwind (s : StateOf config) (w : Fin config.workers) (e : Entity)
      (hpc : s.worker w = .running e) (hkeeps : config.keepsGroup = true) :
      GroupStep s (.worker w) (moveWorker config s w (.discarded e))
  | reset (s : StateOf config) (w : Fin config.workers) (e : Entity)
      (hpc : s.worker w = .ran e) :
      GroupStep s (.worker w)
        (moveWorker config (setFlag config s (config.entityGroup e)) w (.released e))
  | destroy (s : StateOf config) (w : Fin config.workers) (e : Entity)
      (hpc : s.worker w = .released e ∨ s.worker w = .discarded e) :
      GroupStep s (.worker w)
        (moveWorker config (destroyExecutable config s (config.entityGroup e)) w .idle)

/-! ## Exclusion -/

variable {config}

/-- The user callback of the party is in progress, and it belongs to the group. -/
def InProgress (s : StateOf config) : Party Sub config.workers → Group → Prop
  | .task sub, group => s.task sub = .handling ∧ config.subGroup sub = group
  | .worker w, group =>
      ∃ e, s.worker w = .running e ∧ config.entityGroup e = group

/-- No two callbacks of one mutually exclusive group are in progress. -/
def Excludes (s : StateOf config) : Prop :=
  ∀ first second group, config.exclusive group = true →
    InProgress s first group → InProgress s second group → first = second

/-- Whoever sets the flag of a group had cleared it. -/
def ReleasedByClaimant
    (trace : List (Move (StateOf config) (Label Sub Entity config.workers))) : Prop :=
  ∀ move ∈ trace, ∀ group, move.source.flag group = false →
    move.target.flag group = true →
      move.source.claimant group = some move.label.party

/-- A mutually exclusive group that has a subscription task has only that one, and no
entity of the standard executor. -/
def Separated (config : GroupConfig Group Sub Entity) : Prop :=
  ∀ sub, config.exclusive (config.subGroup sub) = true →
    (∀ other, config.subGroup other = config.subGroup sub → other = sub) ∧
      ∀ e, config.entityGroup e ≠ config.subGroup sub

/-- The worker has claimed the group of the entity and not released it. -/
def Holding (pc : WorkerPc Entity) (e : Entity) : Prop :=
  pc = .claimed e ∨ pc = .running e ∨ pc = .ran e ∨ pc = .discarded e

/-- A held group is marked by its holder, and a marked group was marked by a worker,
which still holds it unless it has dropped it on being cancelled. -/
structure GroupInvariant (s : StateOf config) : Prop where
  held : ∀ w e, Holding (s.worker w) e →
    config.exclusive (config.entityGroup e) = true →
      s.flag (config.entityGroup e) = false ∧
        s.claimant (config.entityGroup e) = some (.worker w)
  marked : ∀ group, s.flag group = false → config.exclusive group = true ∧
    (∃ e, config.entityGroup e = group) ∧
      ∃ w, s.claimant group = some (.worker w) ∧
        (config.keepsGroup = true →
          ∃ e, Holding (s.worker w) e ∧ config.entityGroup e = group)

end Steps

section Invariant

variable {config : GroupConfig Group Sub Entity} {s : StateOf config}

/-- A group that a task has to itself is never marked. -/
theorem GroupInvariant.task_flag (hs : GroupInvariant s) (hseparated : Separated config)
    {sub : Sub} (hexclusive : config.exclusive (config.subGroup sub) = true) :
    s.flag (config.subGroup sub) = true := by
  by_contra hflag
  obtain ⟨-, ⟨e, he⟩, -⟩ := hs.marked _ (Bool.eq_false_of_not_eq_true hflag)
  exact (hseparated sub hexclusive).2 e he

/-- A worker that goes on with what it holds. -/
theorem GroupInvariant.moveWorker_same (hs : GroupInvariant s) {w : Fin config.workers}
    {pc : WorkerPc Entity} (hsame : ∀ e, Holding pc e ↔ Holding (s.worker w) e) :
    GroupInvariant (moveWorker config s w pc) := by
  have hholding : ∀ w' e, Holding ((moveWorker config s w pc).worker w') e ↔
      Holding (s.worker w') e := by
    intro w' e
    by_cases hw : w' = w
    · subst hw
      simp [moveWorker, hsame e]
    · simp [moveWorker, hw]
  constructor
  case held => exact fun w' e hheld => hs.held w' e ((hholding w' e).mp hheld)
  case marked =>
    intro group hflag
    obtain ⟨hexclusive, he, w', hclaimant, hkeeps⟩ := hs.marked group hflag
    refine ⟨hexclusive, he, w', hclaimant, fun hkeep => ?_⟩
    obtain ⟨e, hheld, hgroup⟩ := hkeeps hkeep
    exact ⟨e, (hholding w' e).mpr hheld, hgroup⟩

variable [DecidableEq Group]

theorem setFlag_of_set {group : Group} (hflag : s.flag group = true) :
    setFlag config s group = s := by
  simp [setFlag, ← hflag]

theorem GroupInvariant.releaseGroup_eq (hs : GroupInvariant s)
    (hseparated : Separated config) (sub : Sub) :
    releaseGroup config s (config.subGroup sub) = s := by
  rw [releaseGroup]
  split
  · rename_i hexclusive
    exact setFlag_of_set (hs.task_flag hseparated hexclusive)
  · rfl

/-- A worker that sets the flag of the group it holds, and holds nothing after. -/
theorem GroupInvariant.moveWorker_release (hs : GroupInvariant s)
    {w : Fin config.workers} {e : Entity} {pc : WorkerPc Entity}
    (hheld : Holding (s.worker w) e) (hone : ∀ e', Holding (s.worker w) e' → e' = e)
    (hnone : ∀ e', ¬ Holding pc e') :
    GroupInvariant
      (moveWorker config (setFlag config s (config.entityGroup e)) w pc) := by
  constructor
  case held =>
    intro w' e' hheld' hexclusive
    by_cases hw : w' = w
    · subst hw
      simp only [moveWorker, setFlag, Function.update_self] at hheld'
      exact absurd hheld' (hnone e')
    · simp only [moveWorker, setFlag, Function.update_of_ne hw] at hheld' ⊢
      obtain ⟨hflag, hclaimant⟩ := hs.held w' e' hheld' hexclusive
      have hgroup : config.entityGroup e' ≠ config.entityGroup e := by
        intro hsame
        rw [hsame] at hclaimant hexclusive
        have hmine := (hs.held w e hheld hexclusive).2
        rw [hclaimant] at hmine
        cases hmine
        exact hw rfl
      exact ⟨by rw [Function.update_of_ne hgroup, hflag], hclaimant⟩
  case marked =>
    intro group hflag
    have hgroup : group ≠ config.entityGroup e := by
      rintro rfl
      simp [moveWorker, setFlag] at hflag
    simp only [moveWorker, setFlag, Function.update_of_ne hgroup] at hflag ⊢
    obtain ⟨hexclusive, he, w', hclaimant, hkeeps⟩ := hs.marked group hflag
    refine ⟨hexclusive, he, w', hclaimant, fun hkeep => ?_⟩
    obtain ⟨e', hheld', hgroup'⟩ := hkeeps hkeep
    have hw : w' ≠ w := by
      rintro rfl
      exact hgroup (hone e' hheld' ▸ hgroup'.symm)
    exact ⟨e', by rwa [Function.update_of_ne hw], hgroup'⟩

theorem GroupInvariant.claim (hs : GroupInvariant s) {w : Fin config.workers} {e : Entity}
    (hpc : s.worker w = .idle) (hflag : s.flag (config.entityGroup e) = true) :
    GroupInvariant (moveWorker config (claimGroup config s w (config.entityGroup e)) w
      (.claimed e)) := by
  have hidle : ∀ e', ¬ Holding (s.worker w) e' := by
    intro e'
    simp [hpc, Holding]
  have hother : ∀ w' e', w' ≠ w → Holding (s.worker w') e' →
      config.exclusive (config.entityGroup e') = true →
        config.entityGroup e' ≠ config.entityGroup e := by
    intro w' e' _ hheld hexclusive hsame
    have hmarked := (hs.held w' e' hheld hexclusive).1
    rw [hsame, hflag] at hmarked
    cases hmarked
  constructor
  case held =>
    intro w' e' hheld hexclusive
    by_cases hw : w' = w
    · subst hw
      obtain rfl : e = e' := by simpa [moveWorker, Holding] using hheld
      simp [moveWorker, claimGroup, hexclusive]
    · simp only [moveWorker, Function.update_of_ne hw] at hheld ⊢
      have hheldBefore : Holding (s.worker w') e' := by
        rw [claimGroup] at hheld
        split at hheld <;> exact hheld
      have hgroup := hother w' e' hw hheldBefore hexclusive
      have hbefore := hs.held w' e' hheldBefore hexclusive
      rw [claimGroup]
      split
      · simpa [Function.update_of_ne hgroup] using hbefore
      · exact hbefore
  case marked =>
    intro group hmarked
    by_cases hclaimed : config.exclusive (config.entityGroup e) = true ∧
        group = config.entityGroup e
    · obtain ⟨hexclusive, rfl⟩ := hclaimed
      refine ⟨hexclusive, ⟨e, rfl⟩, w, ?_, fun _ => ⟨e, ?_, rfl⟩⟩
      · simp [moveWorker, claimGroup, hexclusive]
      · simp [moveWorker, Holding]
    · have hsame : (claimGroup config s w (config.entityGroup e)).flag group =
          s.flag group ∧
          (claimGroup config s w (config.entityGroup e)).claimant group =
            s.claimant group := by
        rw [claimGroup]
        split
        · rename_i hexclusive
          have hne : group ≠ config.entityGroup e := fun h => hclaimed ⟨hexclusive, h⟩
          simp [Function.update_of_ne hne]
        · exact ⟨rfl, rfl⟩
      have hworker : (claimGroup config s w (config.entityGroup e)).worker = s.worker := by
        rw [claimGroup]
        split <;> rfl
      simp only [moveWorker, hsame.1, hsame.2, hworker] at hmarked ⊢
      obtain ⟨hexclusive, he, w', hclaimant, hkeeps⟩ := hs.marked group hmarked
      refine ⟨hexclusive, he, w', hclaimant, fun hkeep => ?_⟩
      obtain ⟨e', hheld, hgroup⟩ := hkeeps hkeep
      have hw : w' ≠ w := by
        rintro rfl
        exact hidle e' hheld
      exact ⟨e', by rwa [Function.update_of_ne hw], hgroup⟩

omit [DecidableEq Group] in
/-- The only worker of an executor that keeps the groups of its executables has
nothing marked once it has released its executable. -/
theorem GroupInvariant.flag_of_released (hs : GroupInvariant s) {w : Fin config.workers}
    {e : Entity} (hpc : s.worker w = .released e) (hkeeps : config.keepsGroup = true)
    (group : Group) : s.flag group = true := by
  by_contra hflag
  obtain ⟨-, -, w', -, hholds⟩ := hs.marked group (Bool.eq_false_of_not_eq_true hflag)
  obtain ⟨e', hheld, -⟩ := hholds hkeeps
  have hone := config.workers_of_keepsGroup hkeeps
  have hsame : w' = w := Fin.ext (by have := w'.isLt; have := w.isLt; omega)
  rw [hsame, hpc] at hheld
  simp [Holding] at hheld

theorem GroupInvariant.destroy (hs : GroupInvariant s) {w : Fin config.workers}
    {e : Entity} (hpc : s.worker w = .released e ∨ s.worker w = .discarded e) :
    GroupInvariant (moveWorker config
      (destroyExecutable config s (config.entityGroup e)) w .idle) := by
  have hnone : ∀ e' : Entity, ¬ Holding .idle e' := by simp [Holding]
  cases hkeeps : config.keepsGroup with
  | true =>
      rw [destroyExecutable, if_pos hkeeps]
      rcases hpc with hreleased | hdiscarded
      · rw [setFlag_of_set (hs.flag_of_released hreleased hkeeps _)]
        exact hs.moveWorker_same fun e' => by simp [hreleased, Holding]
      · exact hs.moveWorker_release (by simp [hdiscarded, Holding])
          (fun e' hheld => by simpa [hdiscarded, Holding, eq_comm] using hheld) hnone
  | false =>
      rw [destroyExecutable, if_neg (by simp [hkeeps])]
      constructor
      case held =>
        intro w' e' hheld hexclusive
        by_cases hw : w' = w
        · subst hw
          simp [moveWorker, Holding] at hheld
        · simp only [moveWorker, Function.update_of_ne hw] at hheld
          exact hs.held w' e' hheld hexclusive
      case marked =>
        intro group hflag
        obtain ⟨hexclusive, he, w', hclaimant, -⟩ := hs.marked group hflag
        exact ⟨hexclusive, he, w', hclaimant, by simp [hkeeps]⟩

variable [DecidableEq Sub]

omit [DecidableEq Group] in
theorem GroupInvariant.moveTask (hs : GroupInvariant s) (sub : Sub) (pc : TaskPc) :
    GroupInvariant (moveTask config s sub pc) where
  held := hs.held
  marked := hs.marked

theorem groupInvariant_step (hseparated : Separated config) (s : StateOf config)
    (label : Label Sub Entity config.workers) (s' : StateOf config)
    (hs : GroupInvariant s) (hstep : GroupStep config s label s') : GroupInvariant s' := by
  cases hstep with
  | wake sub _ => exact hs.moveTask sub .entered
  | take sub _ => exact hs.moveTask sub .handling
  | takeFails sub _ => exact hs.moveTask sub .releasing
  | throws sub _ => exact hs.moveTask sub .waiting
  | returns sub _ => exact hs.moveTask sub .releasing
  | release sub _ =>
      rw [hs.releaseGroup_eq hseparated]
      exact hs.moveTask sub .waiting
  | claim w e hpc hflag => exact hs.claim hpc hflag
  | beginCallback w e hpc => exact hs.moveWorker_same fun e' => by simp [hpc, Holding]
  | discard w e hpc => exact hs.moveWorker_same fun e' => by simp [hpc, Holding]
  | finish w e hpc => exact hs.moveWorker_same fun e' => by simp [hpc, Holding]
  | unwind w e hpc _ => exact hs.moveWorker_same fun e' => by simp [hpc, Holding]
  | reset w e hpc =>
      exact hs.moveWorker_release (by simp [hpc, Holding])
        (fun e' hheld => by simpa [hpc, Holding, eq_comm] using hheld)
        (by simp [Holding])
  | destroy w e hpc => exact hs.destroy hpc

/-- Setting a cleared flag is the claimant's doing. -/
theorem step_releasedByClaimant (hseparated : Separated config) {s s' : StateOf config}
    {label : Label Sub Entity config.workers} (hs : GroupInvariant s)
    (hstep : GroupStep config s label s') {group : Group} (hcleared : s.flag group = false)
    (hset : s'.flag group = true) : s.claimant group = some label.party := by
  have hsame : s'.flag ≠ s.flag := fun h => by simp [h, hcleared] at hset
  have hholder : ∀ w e, Holding (s.worker w) e →
      (setFlag config s (config.entityGroup e)).flag group = true →
        s.claimant group = some (.worker w) := by
    intro w e hheld hflag
    obtain rfl : group = config.entityGroup e := by
      by_contra hne
      simp [setFlag, Function.update_of_ne hne, hcleared] at hflag
    exact (hs.held w e hheld (hs.marked _ hcleared).1).2
  cases hstep with
  | wake | take | takeFails | throws | returns => exact absurd rfl hsame
  | release sub _ =>
      rw [hs.releaseGroup_eq hseparated] at hsame
      exact absurd rfl hsame
  | claim w e _ hflag =>
      simp only [moveWorker, claimGroup] at hset
      split at hset
      · by_cases hgroup : group = config.entityGroup e
        · simp [hgroup] at hset
        · simp [Function.update_of_ne hgroup, hcleared] at hset
      · simp [hcleared] at hset
  | beginCallback | discard | finish | unwind => exact absurd rfl hsame
  | reset w e hpc => exact hholder w e (by simp [hpc, Holding]) hset
  | destroy w e hpc =>
      cases hkeeps : config.keepsGroup with
      | false =>
          simp only [destroyExecutable, hkeeps] at hsame
          exact absurd rfl hsame
      | true =>
          simp only [destroyExecutable, hkeeps, if_true] at hset
          rcases hpc with hreleased | hdiscarded
          · simp [hs.flag_of_released hreleased hkeeps group] at hcleared
          · exact hholder w e (by simp [hdiscarded, Holding]) hset

omit [DecidableEq Group] [DecidableEq Sub] in
/-- A task that has its group to itself meets no other callback of the group, and two
workers cannot both hold it. -/
theorem GroupInvariant.excludes (hs : GroupInvariant s) (hseparated : Separated config) :
    Excludes s := by
  intro first second group hexclusive hfirst hsecond
  cases first with
  | task sub =>
      obtain ⟨-, rfl⟩ := hfirst
      cases second with
      | task other =>
          rw [(hseparated sub hexclusive).1 other hsecond.2]
      | worker w =>
          obtain ⟨e, -, he⟩ := hsecond
          exact absurd he ((hseparated sub hexclusive).2 e)
  | worker w =>
      obtain ⟨e, hrunning, rfl⟩ := hfirst
      cases second with
      | task sub =>
          obtain ⟨-, hsub⟩ := hsecond
          rw [← hsub] at hexclusive
          exact absurd hsub.symm ((hseparated sub hexclusive).2 e)
      | worker w' =>
          obtain ⟨e', hrunning', he'⟩ := hsecond
          have hmine := (hs.held w e (by simp [hrunning, Holding]) hexclusive).2
          have hother := (hs.held w' e' (by simp [hrunning', Holding])
            (he' ▸ hexclusive)).2
          rw [he', hmine] at hother
          cases hother
          rfl

omit [DecidableEq Group] [DecidableEq Sub] in
theorem groupInvariant_initial : GroupInvariant (initialState config) where
  held w e hheld := by simp [initialState, Holding] at hheld
  marked group hflag := by simp [initialState] at hflag

end Invariant

/-! ## The condition is exact -/

section Exactness

variable [DecidableEq Group] [DecidableEq Sub] (config : GroupConfig Group Sub Entity)

/-- Two tasks of one group can both be in their callbacks. -/
theorem tasks_overlap {first second : Sub} (hne : first ≠ second) :
    ∃ trace finish, Run (GroupStep config) (initialState config) trace finish ∧
      finish.task first = .handling ∧ finish.task second = .handling := by
  have hback : second ≠ first := hne.symm
  refine ⟨_, _,
    .cons (.wake _ first rfl) <|
    .cons (.take _ first (by simp [moveTask])) <|
    .cons (.wake _ second (by simp [moveTask, initialState, hback])) <|
    .cons (.take _ second (by simp [moveTask])) <|
    .nil _, ?_, ?_⟩
  · simp [moveTask, Function.update_of_ne hne]
  · simp [moveTask]

/-- So can a task and a worker with an entity of the group. -/
theorem task_overlaps_worker (sub : Sub) (e : Entity) :
    ∃ trace finish, Run (GroupStep config) (initialState config) trace finish ∧
      finish.task sub = .handling ∧
      finish.worker ⟨0, config.workers_pos⟩ = .running e := by
  have htask : ∀ group, (claimGroup config (initialState config)
      ⟨0, config.workers_pos⟩ group).task = fun _ => .waiting := by
    intro group
    rw [claimGroup]
    split <;> rfl
  refine ⟨_, _,
    .cons (.claim _ ⟨0, config.workers_pos⟩ e rfl rfl) <|
    .cons (.beginCallback _ ⟨0, config.workers_pos⟩ e (by simp [moveWorker])) <|
    .cons (.wake _ sub (by simp [moveWorker, htask])) <|
    .cons (.take _ sub (by simp [moveTask])) <|
    .nil _, ?_, ?_⟩
  · simp [moveTask]
  · simp [moveTask, moveWorker]

/-- The groups are respected in every interleaving exactly if each mutually exclusive
group with a subscription task has only that task and no entity of the standard
executor. -/
theorem groups_respected_iff :
    (∀ trace finish, Run (GroupStep config) (initialState config) trace finish →
      Throughout Excludes (initialState config) trace ∧ ReleasedByClaimant trace) ↔
      Separated config := by
  constructor
  · intro hall sub hexclusive
    constructor
    · intro other hgroup
      by_contra hne
      obtain ⟨trace, finish, hrun, hother, hsub⟩ := tasks_overlap config hne
      have hexcludes := hrun.finish_of_throughout (hall trace finish hrun).1
      have hsame := hexcludes (.task other) (.task sub) _ hexclusive ⟨hother, hgroup⟩
        ⟨hsub, rfl⟩
      cases hsame
      exact hne rfl
    · intro e hgroup
      obtain ⟨trace, finish, hrun, hsub, hworker⟩ := task_overlaps_worker config sub e
      have hexcludes := hrun.finish_of_throughout (hall trace finish hrun).1
      have hsame := hexcludes (.task sub) (.worker _) _ hexclusive ⟨hsub, rfl⟩
        ⟨e, hworker, hgroup⟩
      cases hsame
  · intro hseparated trace finish hrun
    have hmoves := hrun.moves_always (groupInvariant_step hseparated)
      groupInvariant_initial
    refine ⟨⟨groupInvariant_initial.excludes hseparated, fun move hmove => ?_⟩,
      fun move hmove group hcleared hset => ?_⟩
    · exact (hmoves move hmove).2.2.excludes hseparated
    · obtain ⟨hstep, hsource, -⟩ := hmoves move hmove
      exact step_releasedByClaimant hseparated hsource hstep hcleared hset

end Exactness

/-! ## A group that is shared -/

/-- Two subscription tasks and an entity of a single-threaded executor in one
mutually exclusive group. -/
def sharedGroup : GroupConfig Unit (Fin 2) Unit where
  exclusive := fun _ => true
  subGroup := fun _ => ()
  entityGroup := fun _ => ()
  workers := 1
  keepsGroup := true
  workers_pos := Nat.one_pos
  workers_of_keepsGroup := fun _ => rfl

def onlyWorker : Fin sharedGroup.workers := ⟨0, Nat.one_pos⟩

/-- The two tasks are in their callbacks at once; and a task that takes nothing sets
the flag that the executor had cleared. -/
theorem sharedGroup_not_respected :
    (∃ trace finish, Run (GroupStep sharedGroup) (initialState sharedGroup) trace finish ∧
      finish.task 0 = .handling ∧ finish.task 1 = .handling ∧
      ¬ Throughout Excludes (initialState sharedGroup) trace) ∧
    ∃ trace finish, Run (GroupStep sharedGroup) (initialState sharedGroup) trace finish ∧
      finish.worker onlyWorker = .running () ∧ finish.flag () = true ∧
      ¬ ReleasedByClaimant trace := by
  constructor
  · obtain ⟨trace, finish, hrun, hfirst, hsecond⟩ :=
      tasks_overlap sharedGroup (show (0 : Fin 2) ≠ 1 by decide)
    refine ⟨trace, finish, hrun, hfirst, hsecond, fun hall => ?_⟩
    have hsame := hrun.finish_of_throughout hall (.task 0) (.task 1) () rfl
      ⟨hfirst, rfl⟩ ⟨hsecond, rfl⟩
    cases hsame
  · refine ⟨_, _,
      .cons (.claim _ onlyWorker () rfl rfl) <|
      .cons (.beginCallback _ onlyWorker () rfl) <|
      .cons (.wake _ 0 rfl) <|
      .cons (.takeFails _ 0 rfl) <|
      .cons (.release _ 0 rfl) <|
      .nil _, rfl, rfl, fun hreleased => ?_⟩
    have hclaimant := hreleased _ (List.mem_cons_of_mem _ (List.mem_cons_of_mem _
      (List.mem_cons_of_mem _ (List.mem_cons_of_mem _ (List.mem_cons_self ..)))))
      () rfl rfl
    cases hclaimant

end RosRtems.CallbackGroups
