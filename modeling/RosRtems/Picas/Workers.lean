import RosRtems.Core.Runs
import RosRtems.Picas.Selection

/-!
# The workers of the priority-driven executor

A worker selects an executable under the wait mutex, which marks the recorded group as
taken, and releases the group when it has executed it.  A worker that discards what it
has selected sets the flag of the group once more when it has dropped the mutex.  The
groups stay exclusive where the recorded group is that of the selected entity, and where
nobody takes a group between its discarding and this last store.
-/

namespace RosRtems.Picas

open RosRtems.Runs RosRtems.FixedPriority
open RosRtems.MemoryStrategy (Kind AnyExecutable Memory markTaken markSelected)

variable {Worker Handle Entity Group Node : Type*}

/-- Where a worker is in the loop of `run`: before the wait mutex, past it with what it
has taken, in the callback, before and after the release of the group, or before the
destructor of what it has not executed. -/
inductive WorkerPc (Entity Group Node : Type*)
  | idle
  | taken (any : AnyExecutable Entity Group Node)
  | executing (any : AnyExecutable Entity Group Node)
  | executed (any : AnyExecutable Entity Group Node)
  | released (any : AnyExecutable Entity Group Node)
  | discarding (any : AnyExecutable Entity Group Node)

/-- The flags of the groups and the workers.  `claimant` is the worker that has marked a
group and not released it, and `freedByOther` records that a flag was made true by
another one. -/
structure WorkersState (Worker Entity Group Node : Type*) where
  canBeTakenFrom : Group → Bool
  claimant : Group → Option Worker
  scheduledTimers : List Entity
  worker : Worker → WorkerPc Entity Group Node
  spinning : Bool
  freedByOther : Bool

namespace WorkersState

def initial : WorkersState Worker Entity Group Node where
  canBeTakenFrom := fun _ => true
  claimant := fun _ => none
  scheduledTimers := []
  worker := fun _ => .idle
  spinning := true
  freedByOther := false

variable [DecidableEq Worker] [DecidableEq Entity] [DecidableEq Group]
  (registry : Registry Handle Entity Group Node) (s : WorkersState Worker Entity Group Node)
  (w : Worker)

def move (pc : WorkerPc Entity Group Node) : WorkersState Worker Entity Group Node :=
  { s with worker := Function.update s.worker w pc }

/-- `can_be_taken_from().store(true)`. -/
def store (group : Group) : WorkersState Worker Entity Group Node :=
  { s with
    canBeTakenFrom := Function.update s.canBeTakenFrom group true
    claimant := Function.update s.claimant group none
    freedByOther := s.freedByOther ||
      (!s.canBeTakenFrom group && decide (s.claimant group ≠ some w)) }

def storeRecorded (any : AnyExecutable Entity Group Node) :
    WorkersState Worker Entity Group Node :=
  match any.callbackGroup with
  | some group => s.store w group
  | none => s

/-- The flags after a successful selection, with the worker as the claimant of a mutually
exclusive group. -/
def claim (flags : Group → Bool) (any : AnyExecutable Entity Group Node) :
    WorkersState Worker Entity Group Node :=
  { s with
    canBeTakenFrom := flags
    claimant :=
      match any.callbackGroup with
      | some group =>
          if registry.exclusive group then Function.update s.claimant group (some w)
          else s.claimant
      | none => s.claimant }

/-- What a worker does while it has the wait mutex.  A timer that another worker has
scheduled is discarded, and its group set free before the mutex is dropped. -/
def select (handles : Kind → List Handle) : WorkersState Worker Entity Group Node :=
  let (success, any, memory) :=
    getNextReadyExecutableFromMap registry true ⟨handles, s.canBeTakenFrom⟩ .empty
  if success then
    let claimed := s.claim registry w memory.canBeTakenFrom any
    match any.pointer .timer with
    | some timer =>
        if timer ∈ s.scheduledTimers then
          (claimed.storeRecorded w any).move w (.discarding any)
        else
          { claimed with scheduledTimers := timer :: s.scheduledTimers }.move w (.taken any)
    | none => claimed.move w (.taken any)
  else s.move w (.discarding any)

/-- The timer is no longer scheduled, and the group is reset before the destructor. -/
def finish (any : AnyExecutable Entity Group Node) : WorkersState Worker Entity Group Node :=
  { s with
    scheduledTimers :=
      match any.pointer .timer with
      | some timer => s.scheduledTimers.erase timer
      | none => s.scheduledTimers }.move w .idle

end WorkersState

inductive WorkersLabel (Worker Handle : Type*)
  | select (w : Worker) (handles : Kind → List Handle)
  | step (w : Worker)
  | cancel

/-- Any order of the steps of the workers, with any result of each wait. -/
inductive WorkersStep [DecidableEq Worker] [DecidableEq Entity] [DecidableEq Group]
    (registry : Registry Handle Entity Group Node) : WorkersState Worker Entity Group Node →
      WorkersLabel Worker Handle → WorkersState Worker Entity Group Node → Prop
  | select (s : WorkersState Worker Entity Group Node) (w : Worker)
      (handles : Kind → List Handle) (hpc : s.worker w = .idle) (hspin : s.spinning = true) :
      WorkersStep registry s (.select w handles) (s.select registry w handles)
  | execute (s : WorkersState Worker Entity Group Node) (w : Worker)
      (any : AnyExecutable Entity Group Node) (hpc : s.worker w = .taken any)
      (hspin : s.spinning = true) :
      WorkersStep registry s (.step w) (s.move w (.executing any))
  | skip (s : WorkersState Worker Entity Group Node) (w : Worker)
      (any : AnyExecutable Entity Group Node) (hpc : s.worker w = .taken any)
      (hspin : s.spinning = false) :
      WorkersStep registry s (.step w) (s.move w (.released any))
  | returns (s : WorkersState Worker Entity Group Node) (w : Worker)
      (any : AnyExecutable Entity Group Node) (hpc : s.worker w = .executing any) :
      WorkersStep registry s (.step w) (s.move w (.executed any))
  | release (s : WorkersState Worker Entity Group Node) (w : Worker)
      (any : AnyExecutable Entity Group Node) (hpc : s.worker w = .executed any) :
      WorkersStep registry s (.step w) ((s.storeRecorded w any).move w (.released any))
  | finish (s : WorkersState Worker Entity Group Node) (w : Worker)
      (any : AnyExecutable Entity Group Node) (hpc : s.worker w = .released any) :
      WorkersStep registry s (.step w) (s.finish w any)
  | destroy (s : WorkersState Worker Entity Group Node) (w : Worker)
      (any : AnyExecutable Entity Group Node) (hpc : s.worker w = .discarding any) :
      WorkersStep registry s (.step w) ((s.storeRecorded w any).move w .idle)
  | cancel (s : WorkersState Worker Entity Group Node) :
      WorkersStep registry s .cancel { s with spinning := false }

/-- The callback of the entity is in progress in a worker. -/
def InProgress (s : WorkersState Worker Entity Group Node) (w : Worker) (kind : Kind)
    (entity : Entity) : Prop :=
  ∃ any, s.worker w = .executing any ∧ any.pointer kind = some entity

/-- Callbacks of one mutually exclusive group are in progress in one worker at most, and
no worker has made a flag true but the one that had claimed the group. -/
structure KeepsExclusive (registry : Registry Handle Entity Group Node)
    (s : WorkersState Worker Entity Group Node) : Prop where
  exclusive : ∀ group, registry.exclusive group = true → ∀ w kind entity,
    InProgress s w kind entity → registry.groupOf kind entity = some group →
      ∀ other kind' entity', InProgress s other kind' entity' →
        registry.groupOf kind' entity' = some group → other = w
  freed : s.freedByOther = false

/-- A selection that succeeds records the group of the entity it selects, where one of
the two groups is mutually exclusive; and an executable that was not executed is
destroyed while its group is free. -/
def RecordsOwnGroup (registry : Registry Handle Entity Group Node)
    (s : WorkersState Worker Entity Group Node) : WorkersLabel Worker Handle → Prop
  | .select _ handles => ∀ winner last,
      leader registry ⟨handles, s.canBeTakenFrom⟩ Kind.all = some winner →
      lastLeader registry ⟨handles, s.canBeTakenFrom⟩ Kind.all = some last →
      0 ≤ registry.callbackPriority winner.1 winner.2 →
        ∀ group, registry.exclusive group = true →
          (registry.groupOf last.1 last.2 = some group ↔
            registry.groupOf winner.1 winner.2 = some group)
  | .step w => ∀ any group, s.worker w = .discarding any →
      any.callbackGroup = some group → s.canBeTakenFrom group = true
  | .cancel => True

/-! ## The invariant -/

/-- What the worker has taken and not released yet. -/
def WorkerPc.held : WorkerPc Entity Group Node → Option (AnyExecutable Entity Group Node)
  | .taken any | .executing any | .executed any => some any
  | .idle | .released _ | .discarding _ => none

/-- A taken group has a claimant, which is the worker that holds it; and the group of a
selected entity is recorded, where it is mutually exclusive. -/
structure WorkersInvariant (registry : Registry Handle Entity Group Node)
    (s : WorkersState Worker Entity Group Node) : Prop where
  claimed : ∀ group, s.canBeTakenFrom group = false → ∃ w, s.claimant group = some w
  flagged : ∀ group w, s.claimant group = some w →
    s.canBeTakenFrom group = false ∧ registry.exclusive group = true
  holds : ∀ w any group, (s.worker w).held = some any → any.callbackGroup = some group →
    registry.exclusive group = true → s.claimant group = some w
  records : ∀ w any, (s.worker w).held = some any → ∀ kind entity group,
    any.pointer kind = some entity → registry.groupOf kind entity = some group →
      registry.exclusive group = true → any.callbackGroup = some group
  freed : s.freedByOther = false

section Invariant

variable {registry : Registry Handle Entity Group Node}
  {s : WorkersState Worker Entity Group Node} {w : Worker}
  {any : AnyExecutable Entity Group Node}

theorem workersInvariant_initial : WorkersInvariant registry
    (WorkersState.initial : WorkersState Worker Entity Group Node) where
  claimed := by simp [WorkersState.initial]
  flagged := by simp [WorkersState.initial]
  holds := by simp [WorkersState.initial, WorkerPc.held]
  records := by simp [WorkersState.initial, WorkerPc.held]
  freed := rfl

theorem WorkersInvariant.keepsExclusive (h : WorkersInvariant registry s) :
    KeepsExclusive registry s where
  exclusive := by
    rintro group hexclusive w kind entity ⟨any, hpc, hentity⟩ hgroup other kind' entity'
      ⟨any', hpc', hentity'⟩ hgroup'
    have hheld : (s.worker w).held = some any := by rw [hpc]; rfl
    have hheld' : (s.worker other).held = some any' := by rw [hpc']; rfl
    have hmine := h.records w any hheld kind entity group hentity hgroup hexclusive
    have hyours := h.records other any' hheld' kind' entity' group hentity' hgroup' hexclusive
    have hclaim := h.holds w any group hheld hmine hexclusive
    exact Option.some.inj
      ((h.holds other any' group hheld' hyours hexclusive).symm.trans hclaim)
  freed := h.freed

/-- Only a mutually exclusive group is ever taken. -/
theorem WorkersInvariant.free_of_shared (h : WorkersInvariant registry s) {group : Group}
    (hshared : ¬ registry.exclusive group = true) : s.canBeTakenFrom group = true := by
  by_contra htaken
  obtain ⟨claimant, hclaim⟩ := h.claimed group (by simpa using htaken)
  exact hshared (h.flagged group claimant hclaim).2

/-- A group that is free, or claimed by this worker, is not one another worker holds. -/
theorem WorkersInvariant.ne_of_own (h : WorkersInvariant registry s) {other : Worker}
    {group recorded : Group}
    (hown : s.canBeTakenFrom group = true ∨ s.claimant group = some w) (hother : other ≠ w)
    (hheld : (s.worker other).held = some any) (hrecorded : any.callbackGroup = some recorded)
    (hexclusive : registry.exclusive recorded = true) : recorded ≠ group := by
  rintro rfl
  have hclaim := h.holds other any recorded hheld hrecorded hexclusive
  rcases hown with hfree | hmine
  · rw [(h.flagged recorded other hclaim).1] at hfree
    cases hfree
  · exact hother (Option.some.inj (hclaim.symm.trans hmine))

theorem WorkersInvariant.schedule (h : WorkersInvariant registry s) (timers : List Entity) :
    WorkersInvariant registry { s with scheduledTimers := timers } :=
  ⟨h.claimed, h.flagged, h.holds, h.records, h.freed⟩

/-- A free group is claimed by a worker that holds nothing yet. -/
theorem WorkersInvariant.claim [DecidableEq Group] (h : WorkersInvariant registry s)
    (handles : Kind → List Handle) {group : Group}
    (hrecorded : any.callbackGroup = some group)
    (hfree : s.canBeTakenFrom group = true) :
    WorkersInvariant registry (s.claim registry w
      (markTaken registry.toRegistry ⟨handles, s.canBeTakenFrom⟩ group).canBeTakenFrom
      any) := by
  have hnobody : ∀ other, s.claimant group ≠ some other := by
    intro other hclaim
    rw [(h.flagged group other hclaim).1] at hfree
    cases hfree
  by_cases hexclusive : registry.exclusive group = true
  · have hclaim : s.claim registry w
        (markTaken registry.toRegistry ⟨handles, s.canBeTakenFrom⟩ group).canBeTakenFrom any =
        { s with
          canBeTakenFrom := Function.update s.canBeTakenFrom group false
          claimant := Function.update s.claimant group (some w) } := by
      simp [WorkersState.claim, markTaken, hrecorded, hexclusive]
    rw [hclaim]
    constructor
    · intro other hother
      by_cases hsame : other = group
      · subst hsame
        exact ⟨w, Function.update_self _ _ _⟩
      · simp only [Function.update_of_ne hsame] at hother ⊢
        exact h.claimed other hother
    · intro other claimant hother
      by_cases hsame : other = group
      · subst hsame
        exact ⟨Function.update_self _ _ _, hexclusive⟩
      · simp only [Function.update_of_ne hsame] at hother ⊢
        exact h.flagged other claimant hother
    · intro other any' recorded hany hgroup hmutex
      have hbefore := h.holds other any' recorded hany hgroup hmutex
      have hne : recorded ≠ group := by
        rintro rfl
        exact hnobody other hbefore
      simp only [Function.update_of_ne hne]
      exact hbefore
    · exact h.records
    · exact h.freed
  · have hclaim : s.claim registry w
        (markTaken registry.toRegistry ⟨handles, s.canBeTakenFrom⟩ group).canBeTakenFrom any =
          s := by
      simp [WorkersState.claim, markTaken, hrecorded, hexclusive]
    rwa [hclaim]

theorem claim_claimant [DecidableEq Group] {flags : Group → Bool} {group : Group}
    (hrecorded : any.callbackGroup = some group)
    (hexclusive : registry.exclusive group = true) :
    (s.claim registry w flags any).claimant group = some w := by
  simp [WorkersState.claim, hrecorded, hexclusive]

variable [DecidableEq Worker]

/-- A worker that goes on with what it holds, or holds nothing any more. -/
theorem WorkersInvariant.move (h : WorkersInvariant registry s)
    {pc : WorkerPc Entity Group Node}
    (hheld : ∀ any, pc.held = some any → (s.worker w).held = some any) :
    WorkersInvariant registry (s.move w pc) := by
  have hbefore : ∀ other any, ((s.move w pc).worker other).held = some any →
      (s.worker other).held = some any := by
    intro other any hany
    by_cases hsame : other = w
    · subst hsame
      simp only [WorkersState.move, Function.update_self] at hany
      exact hheld any hany
    · simpa only [WorkersState.move, Function.update_of_ne hsame] using hany
  exact ⟨h.claimed, h.flagged,
    fun other any group hany => h.holds other any group (hbefore other any hany),
    fun other any hany => h.records other any (hbefore other any hany), h.freed⟩

/-- A worker takes what it has claimed. -/
theorem WorkersInvariant.take (h : WorkersInvariant registry s)
    (hclaim : ∀ group, any.callbackGroup = some group → registry.exclusive group = true →
      s.claimant group = some w)
    (hrecords : ∀ kind entity group, any.pointer kind = some entity →
      registry.groupOf kind entity = some group → registry.exclusive group = true →
        any.callbackGroup = some group) :
    WorkersInvariant registry (s.move w (.taken any)) := by
  have hcases : ∀ other any', ((s.move w (.taken any)).worker other).held = some any' →
      (other = w ∧ any' = any) ∨ (s.worker other).held = some any' := by
    intro other any' hany
    by_cases hsame : other = w
    · subst hsame
      simp only [WorkersState.move, Function.update_self, WorkerPc.held,
        Option.some.injEq] at hany
      exact .inl ⟨rfl, hany.symm⟩
    · exact .inr (by simpa only [WorkersState.move, Function.update_of_ne hsame] using hany)
  refine ⟨h.claimed, h.flagged, ?_, ?_, h.freed⟩
  · intro other any' group hany
    rcases hcases other any' hany with ⟨rfl, rfl⟩ | hbefore
    · exact hclaim group
    · exact h.holds other any' group hbefore
  · intro other any' hany
    rcases hcases other any' hany with ⟨rfl, rfl⟩ | hbefore
    · exact hrecords
    · exact h.records other any' hbefore

variable [DecidableEq Group]

/-- A store of the claimant, or to a group that is free, by a worker that then holds
nothing. -/
theorem WorkersInvariant.storeRecorded (h : WorkersInvariant registry s)
    {pc : WorkerPc Entity Group Node} (hheld : pc.held = none)
    (hown : ∀ group, any.callbackGroup = some group →
      s.canBeTakenFrom group = true ∨ s.claimant group = some w) :
    WorkersInvariant registry ((s.storeRecorded w any).move w pc) := by
  rw [WorkersState.storeRecorded]
  rcases hgroup : any.callbackGroup with _ | group
  · exact h.move (by simp [hheld])
  have hmine : ∀ other any', (((s.store w group).move w pc).worker other).held = some any' →
      other ≠ w ∧ (s.worker other).held = some any' := by
    intro other any' hany
    by_cases hsame : other = w
    · subst hsame
      simp [WorkersState.move, hheld] at hany
    · have hsettled : ((s.store w group).move w pc).worker other = s.worker other :=
        Function.update_of_ne hsame _ _
      exact ⟨hsame, hsettled ▸ hany⟩
  constructor
  · intro other hother
    by_cases hsame : other = group
    · subst hsame
      simp [WorkersState.move, WorkersState.store] at hother
    · simp only [WorkersState.move, WorkersState.store, Function.update_of_ne hsame]
        at hother ⊢
      exact h.claimed other hother
  · intro other claimant hclaim
    by_cases hsame : other = group
    · subst hsame
      simp [WorkersState.move, WorkersState.store] at hclaim
    · simp only [WorkersState.move, WorkersState.store, Function.update_of_ne hsame]
        at hclaim ⊢
      exact h.flagged other claimant hclaim
  · intro other any' recorded hany hrecorded hexclusive
    obtain ⟨hother, hbefore⟩ := hmine other any' hany
    have hne := h.ne_of_own (hown group hgroup) hother hbefore hrecorded hexclusive
    simp only [WorkersState.move, WorkersState.store, Function.update_of_ne hne]
    exact h.holds other any' recorded hbefore hrecorded hexclusive
  · intro other any' hany kind entity recorded
    exact h.records other any' (hmine other any' hany).2 kind entity recorded
  · have hfreed :
        (!s.canBeTakenFrom group && decide (s.claimant group ≠ some w)) = false := by
      rcases hown group hgroup with hfree | hmine
      · simp [hfree]
      · simp [hmine]
    change (s.freedByOther || _) = false
    rw [h.freed, hfreed]
    rfl

variable [DecidableEq Entity]

theorem WorkersInvariant.select (h : WorkersInvariant registry s)
    {handles : Kind → List Handle}
    (hadmits : RecordsOwnGroup registry s (.select w handles)) :
    WorkersInvariant registry (s.select registry w handles) := by
  obtain ⟨hresult, hany, hmark⟩ :=
    getNextReadyExecutableFromMap_eq registry ⟨handles, s.canBeTakenFrom⟩
  rcases hselected : getNextReadyExecutableFromMap registry true
    ⟨handles, s.canBeTakenFrom⟩ .empty with ⟨success, any, after⟩
  rw [hselected] at hresult hany hmark
  change success = _ at hresult
  change any = _ at hany
  have hselect : s.select registry w handles =
      if success then
        match any.pointer .timer with
        | some timer =>
            if timer ∈ s.scheduledTimers then
              ((s.claim registry w after.canBeTakenFrom any).storeRecorded w any).move w
                (.discarding any)
            else { s.claim registry w after.canBeTakenFrom any with
              scheduledTimers := timer :: s.scheduledTimers }.move w (.taken any)
        | none => (s.claim registry w after.canBeTakenFrom any).move w (.taken any)
      else s.move w (.discarding any) := by
    rw [WorkersState.select, hselected]
  rw [hselect]
  by_cases hsuccess :
      0 ≤ (finalContest registry ⟨handles, s.canBeTakenFrom⟩).highestPriority
  · obtain ⟨group, hrecorded, hfree, hflags⟩ := hmark hsuccess
    obtain ⟨winner, hleader, hhighest, honly⟩ := leader_of_success hsuccess
    obtain ⟨last, hlast, -⟩ := exists_lastLeader hleader
    have hgroup := finalContest_group hlast
    rw [← hany] at hrecorded honly hgroup
    have hclaimed := h.claim (w := w) handles hrecorded hfree
    rw [← hflags] at hclaimed
    have hmine : ∀ other, any.callbackGroup = some other → registry.exclusive other = true →
        (s.claim registry w after.canBeTakenFrom any).claimant other = some w :=
      fun other => claim_claimant
    have hrecords : ∀ kind entity other, any.pointer kind = some entity →
        registry.groupOf kind entity = some other → registry.exclusive other = true →
          any.callbackGroup = some other := by
      intro kind entity other hentity hother hexclusive
      have hkind : kind = winner.1 := by
        by_contra hne
        cases (honly.2 kind hne).symm.trans hentity
      subst hkind
      obtain rfl : winner.2 = entity := Option.some.inj (honly.1.symm.trans hentity)
      rw [hgroup]
      exact (hadmits winner last hleader hlast (hhighest ▸ hsuccess) other hexclusive).mpr
        hother
    rw [hresult, decide_eq_true hsuccess, if_pos rfl]
    split
    · split
      · apply hclaimed.storeRecorded rfl
        intro other hother
        by_cases hexclusive : registry.exclusive other = true
        · exact .inr (hmine other hother hexclusive)
        · exact .inl (hclaimed.free_of_shared hexclusive)
      · exact (hclaimed.schedule _).take hmine hrecords
    · exact hclaimed.take hmine hrecords
  · rw [hresult, decide_eq_false hsuccess]
    exact h.move nofun

theorem workersInvariant_step (s : WorkersState Worker Entity Group Node)
    (label : WorkersLabel Worker Handle) (t : WorkersState Worker Entity Group Node)
    (h : WorkersInvariant registry s) (hadmits : RecordsOwnGroup registry s label)
    (hstep : WorkersStep registry s label t) : WorkersInvariant registry t := by
  cases hstep with
  | select w handles hpc hspin => exact h.select hadmits
  | execute w any hpc hspin =>
      apply h.move
      rw [hpc]
      exact fun _ hany => hany
  | skip w any hpc hspin => exact h.move nofun
  | returns w any hpc =>
      apply h.move
      rw [hpc]
      exact fun _ hany => hany
  | release w any hpc =>
      apply h.storeRecorded rfl
      intro group hgroup
      by_cases hexclusive : registry.exclusive group = true
      · exact .inr (h.holds w any group (by rw [hpc]; rfl) hgroup hexclusive)
      · exact .inl (h.free_of_shared hexclusive)
  | finish w any hpc => exact (h.schedule _).move nofun
  | destroy w any hpc =>
      exact h.storeRecorded rfl fun group hgroup => .inl (hadmits any group hpc hgroup)
  | cancel => exact ⟨h.claimed, h.flagged, h.holds, h.records, h.freed⟩

/-- Where every selection records the group of its entity, and nobody takes the group of an
executable that is to be destroyed, the groups stay exclusive. -/
theorem keepsExclusive_of_recordsOwnGroup
    {trace : List (Move (WorkersState Worker Entity Group Node)
      (WorkersLabel Worker Handle))}
    {finish : WorkersState Worker Entity Group Node}
    (hrun : Run (WorkersStep registry) WorkersState.initial trace finish)
    (hadmitted : Admitted (RecordsOwnGroup registry) trace) :
    Throughout (KeepsExclusive registry) WorkersState.initial trace :=
  hrun.throughout (fun _ => WorkersInvariant.keepsExclusive) workersInvariant_step
    workersInvariant_initial hadmitted

end Invariant

/-! ## Several workers -/

abbrev WorkersTrace (Worker : Type) :=
  List (Move (WorkersState Worker ℕ ℕ ℕ) (WorkersLabel Worker ℕ))

/-- A timer is executed while another worker executes a subscription of the group that a
ready service shares; and a third worker discards the timer while it is still scheduled. -/
theorem timer_keepsExclusive :
    ∃ (trace : WorkersTrace (Fin 3)) (finish : WorkersState (Fin 3) ℕ ℕ ℕ),
      Run (WorkersStep twoGroups) WorkersState.initial trace finish ∧
        Throughout (KeepsExclusive twoGroups) WorkersState.initial trace ∧
          (∃ move ∈ trace, InProgress move.target 0 .timer 0 ∧
            InProgress move.target 1 .subscription 0) ∧
          finish.canBeTakenFrom 0 = true ∧ finish.canBeTakenFrom 1 = true := by
  have hrun : Run (WorkersStep twoGroups)
      (.initial : WorkersState (Fin 3) ℕ ℕ ℕ) _ _ :=
    .cons (.select _ 0 (readyKinds [.timer]).handles rfl rfl) <|
    .cons (.select _ 1 (readyKinds [.subscription, .service]).handles rfl rfl) <|
    .cons (.execute _ 0 _ rfl rfl) <| .cons (.execute _ 1 _ rfl rfl) <|
    .cons (.returns _ 0 _ rfl) <| .cons (.release _ 0 _ rfl) <|
    .cons (.select _ 2 (readyKinds [.timer]).handles rfl rfl) <|
    .cons (.destroy _ 2 _ rfl) <| .cons (.finish _ 0 _ rfl) <|
    .cons (.returns _ 1 _ rfl) <| .cons (.release _ 1 _ rfl) <|
    .cons (.finish _ 1 _ rfl) <| .nil _
  refine ⟨_, _, hrun, keepsExclusive_of_recordsOwnGroup hrun ?_, ?_, ?_⟩
  · refine .cons ?_ <| .cons ?_ <| .cons nofun <| .cons nofun <| .cons nofun <| .cons nofun <|
      .cons ?_ <| .cons ?_ <| .cons nofun <| .cons nofun <| .cons nofun <| .cons nofun <| .nil _
    · rintro winner last ⟨⟩ ⟨⟩ _ group _
      exact Iff.rfl
    · rintro winner last ⟨⟩ ⟨⟩ _ group _
      exact Iff.rfl
    · rintro winner last ⟨⟩ ⟨⟩ _ group _
      exact Iff.rfl
    · rintro any group ⟨⟩ ⟨⟩
      rfl
  · refine ⟨_, .tail _ <| .tail _ <| .tail _ <| .head _, ⟨_, rfl, rfl⟩, ⟨_, rfl, rfl⟩⟩
  · exact ⟨rfl, rfl⟩

/-- The handles of a timer and of a subscription. -/
def timerAndSubscription : Kind → List ℕ := (readyKinds [.timer, .subscription]).handles

/-- Another timer of the same group. -/
def secondTimer : Kind → List ℕ := fun kind => if kind = .timer then [1] else []

/-- A timer selected with the group of a subscription leaves its own group to another
worker; and an executable that is destroyed after a selection that failed frees the
group that another worker has claimed. -/
theorem two_workers_break_groups :
    (∃ (trace : WorkersTrace Bool) (finish : WorkersState Bool ℕ ℕ ℕ),
      Run (WorkersStep twoGroups) WorkersState.initial trace finish ∧
        InProgress finish false .timer 0 ∧ InProgress finish true .timer 1 ∧
          ¬ Throughout (KeepsExclusive twoGroups) WorkersState.initial trace) ∧
    ∃ (trace : WorkersTrace Bool) (finish : WorkersState Bool ℕ ℕ ℕ),
      Run (WorkersStep twoGroups) WorkersState.initial trace finish ∧
        InProgress finish true .subscription 0 ∧ finish.canBeTakenFrom 1 = true ∧
          ¬ Throughout (KeepsExclusive twoGroups) WorkersState.initial trace := by
  constructor
  · have hrun : Run (WorkersStep twoGroups)
        (.initial : WorkersState Bool ℕ ℕ ℕ) _ _ :=
      .cons (.select _ false timerAndSubscription rfl rfl) <|
      .cons (.execute _ false _ rfl rfl) <| .cons (.select _ true secondTimer rfl rfl) <|
      .cons (.execute _ true _ rfl rfl) <| .nil _
    refine ⟨_, _, hrun, ⟨_, rfl, rfl⟩, ⟨_, rfl, rfl⟩, fun hall => ?_⟩
    have hsame := (hrun.finish_of_throughout hall).exclusive 0 rfl false .timer 0
      ⟨_, rfl, rfl⟩ rfl true .timer 1 ⟨_, rfl, rfl⟩ rfl
    cases hsame
  · have hrun : Run (WorkersStep twoGroups)
        (.initial : WorkersState Bool ℕ ℕ ℕ) _ _ :=
      .cons (.select _ false (readyKinds [.service]).handles rfl rfl) <|
      .cons (.select _ true (readyKinds [.subscription]).handles rfl rfl) <|
      .cons (.execute _ true _ rfl rfl) <| .cons (.destroy _ false _ rfl) <| .nil _
    refine ⟨_, _, hrun, ⟨_, rfl, rfl⟩, rfl, fun hall => ?_⟩
    cases (hrun.finish_of_throughout hall).freed

end RosRtems.Picas
