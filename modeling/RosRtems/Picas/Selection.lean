import RosRtems.Core.FixedPriority
import RosRtems.Executor.MemoryStrategy
import Mathlib.Algebra.Order.Group.Int
import Mathlib.Logic.Function.Basic

/-!
# The selection of the priority-driven executor

The executor searches the ready entities kind by kind for the highest priority.  Every
search records its entity with the entity's group and node, and an entity that loses the
comparison between the kinds is taken out again without them.  The selection is right
exactly where the entity that was recorded last is of the winner's group.
-/

namespace RosRtems.MemoryStrategy

variable {Handle Entity Group Node : Type*}

/-- The order in which the kinds are searched. -/
def Kind.rank : Kind → ℕ
  | .timer => 0
  | .subscription => 1
  | .service => 2
  | .client => 3
  | .waitable => 4

/-- The pointers of the kinds before are cleared. -/
def AnyExecutable.dropBefore (any : AnyExecutable Entity Group Node) (kind : Kind) :
    AnyExecutable Entity Group Node :=
  { any with
    pointer := fun other => if other.rank < kind.rank then none else any.pointer other }

def AnyExecutable.drop (any : AnyExecutable Entity Group Node) (kind : Kind) :
    AnyExecutable Entity Group Node :=
  { any with pointer := Function.update any.pointer kind none }

/-- The pointer of the kind is the only one, and it is to the entity. -/
def AnyExecutable.HoldsOnly (any : AnyExecutable Entity Group Node) (kind : Kind)
    (entity : Entity) : Prop :=
  any.pointer kind = some entity ∧ ∀ other, other ≠ kind → any.pointer other = none

/-- The executable with the entity that a search has found, if it has found one. -/
def AnyExecutable.pick (registry : Registry Handle Entity Group Node)
    (any : AnyExecutable Entity Group Node) (kind : Kind) :
    Option Entity → AnyExecutable Entity Group Node
  | none => any
  | some entity =>
      { any with
        pointer := Function.update any.pointer kind (some entity)
        callbackGroup := registry.groupOf kind entity
        nodeBase := (registry.groupOf kind entity).bind registry.nodeOf }

end RosRtems.MemoryStrategy

namespace RosRtems.Picas

open RosRtems.FixedPriority
open RosRtems.MemoryStrategy (Kind AnyExecutable Memory markTaken markSelected selectFirst)

variable {Handle Entity Group Node : Type*}

/-- The entities have priorities in addition to what the base executor looks up. -/
structure Registry (Handle Entity Group Node : Type*) extends
    MemoryStrategy.Registry Handle Entity Group Node where
  callbackPriority : Kind → Entity → ℤ

section Search

variable (registry : Registry Handle Entity Group Node)

/-- The loop of `get_next_timer` and its siblings.  Only the handles of groups that cannot be
taken from are left, and with priorities those of the losers are erased with the rest;
without priorities the first entity is taken. -/
def getNext (enabled : Bool) (free : Group → Bool) (kind : Kind) :
    ℤ → List Handle → AnyExecutable Entity Group Node →
      List Handle × AnyExecutable Entity Group Node
  | _, [], any => ([], any)
  | highest, handle :: rest, any =>
      match registry.byHandle kind handle with
      | none => getNext enabled free kind highest rest any
      | some entity =>
          match registry.groupOf kind entity with
          | none => getNext enabled free kind highest rest any
          | some group =>
              if free group then
                if enabled then
                  if any.pointer kind = none ∨
                      highest < registry.callbackPriority kind entity then
                    getNext enabled free kind (registry.callbackPriority kind entity) rest
                      (any.record registry.toRegistry kind entity group)
                  else getNext enabled free kind highest rest any
                else (rest, any.record registry.toRegistry kind entity group)
              else
                let (kept, found) := getNext enabled free kind highest rest any
                (handle :: kept, found)

def search (enabled : Bool) (kind : Kind) (memory : Memory Handle Group)
    (any : AnyExecutable Entity Group Node) :
    Memory Handle Group × AnyExecutable Entity Group Node :=
  let (kept, found) :=
    getNext registry enabled memory.canBeTakenFrom kind (-1) (memory.handles kind) any
  ({ memory with handles := Function.update memory.handles kind kept }, found)

/-- The selection under way. -/
structure Contest (Handle Entity Group Node : Type*) where
  memory : Memory Handle Group
  any : AnyExecutable Entity Group Node
  highestPriority : ℤ

/-- The block of a kind after the timers: its entity has to beat the priority so far, or
is taken out again. -/
def contest (kind : Kind) (state : Contest Handle Entity Group Node) :
    Contest Handle Entity Group Node :=
  let memory := (search registry true kind state.memory state.any).1
  let found := (search registry true kind state.memory state.any).2
  match found.pointer kind with
  | some entity =>
      if state.highestPriority < registry.callbackPriority kind entity then
        ⟨memory, (found.takeData kind).dropBefore kind,
          registry.callbackPriority kind entity⟩
      else ⟨memory, found.drop kind, state.highestPriority⟩
  | none => ⟨memory, found.drop kind, state.highestPriority⟩

/-- The block of the timers, whose entity is kept whatever its priority. -/
def openContest (memory : Memory Handle Group) (any : AnyExecutable Entity Group Node) :
    Contest Handle Entity Group Node :=
  let found := (search registry true .timer memory any).2
  let memory := (search registry true .timer memory any).1
  match found.pointer .timer with
  | some entity => ⟨memory, found, registry.callbackPriority .timer entity⟩
  | none => ⟨memory, found, -1⟩

def selectHighest (memory : Memory Handle Group) (any : AnyExecutable Entity Group Node) :
    Bool × AnyExecutable Entity Group Node × Memory Handle Group :=
  let state := contest registry .waitable <| contest registry .client <|
    contest registry .service <| contest registry .subscription <|
    openContest registry memory any
  (0 ≤ state.highestPriority, state.any, state.memory)

def getNextReadyExecutableFromMap [DecidableEq Group] (callbackPriorityEnabled : Bool)
    (memory : Memory Handle Group) (any : AnyExecutable Entity Group Node) :
    Bool × AnyExecutable Entity Group Node × Memory Handle Group :=
  markSelected registry.toRegistry <|
    if callbackPriorityEnabled then selectHighest registry memory any
    else selectFirst (search registry false) Kind.all memory any

end Search

/-! ## What the selection is to do -/

section Specification

variable (registry : Registry Handle Entity Group Node) (memory : Memory Handle Group)

/-- The entities of the handles whose groups can be taken from. -/
def readyOf (free : Group → Bool) (kind : Kind) (handles : List Handle) : List Entity :=
  handles.filterMap fun handle =>
    (registry.byHandle kind handle).filter fun entity =>
      (registry.groupOf kind entity).any free

def ready (kind : Kind) : List Entity :=
  readyOf registry memory.canBeTakenFrom kind (memory.handles kind)

/-- The executor is successful where an entity is ready, and holds one of the highest
priority, with its group and node. -/
def SelectsHighest [DecidableEq Group] : Prop :=
  let (success, any, _) := getNextReadyExecutableFromMap registry true memory .empty
  (success = true ↔ ∃ kind, ready registry memory kind ≠ []) ∧
    (success = true → ∃ kind entity, entity ∈ ready registry memory kind ∧
      any.HoldsOnly kind entity ∧
      (∀ other, ∀ rival ∈ ready registry memory other,
        registry.callbackPriority other rival ≤ registry.callbackPriority kind entity) ∧
      any.callbackGroup = registry.groupOf kind entity ∧
      any.nodeBase = (registry.groupOf kind entity).bind registry.nodeOf)

/-- A higher priority is more urgent. -/
def urgency (candidate : Kind × Entity) : ℤ :=
  -registry.callbackPriority candidate.1 candidate.2

def candidates (kind : Kind) : List (Kind × Entity) :=
  (ready registry memory kind).map (kind, ·)

/-- The first of the candidates with the highest priority. -/
def leader (kinds : List Kind) : Option (Kind × Entity) :=
  executing (urgency registry) (kinds.flatMap (candidates registry memory))

/-- The first of the candidates with the highest priority among those of the last kind
that has any. -/
def lastLeader (kinds : List Kind) : Option (Kind × Entity) :=
  kinds.reverse.findSome? fun kind => leader registry memory [kind]

/-- The highest priority of the candidates is not negative, and the candidate that is
recorded last has the group of the one that is selected. -/
def LastShares : Prop :=
  ∀ winner last, leader registry memory Kind.all = some winner →
    lastLeader registry memory Kind.all = some last →
      0 ≤ registry.callbackPriority winner.1 winner.2 ∧
        registry.groupOf last.1 last.2 = registry.groupOf winner.1 winner.2

end Specification

/-! ## One search -/

section Searches

variable {registry : Registry Handle Entity Group Node} {memory : Memory Handle Group}
  {free : Group → Bool} {kind : Kind} {any : AnyExecutable Entity Group Node}

theorem record_eq_pick {entity : Entity} {group : Group}
    (hgroup : registry.groupOf kind entity = some group) :
    any.record registry.toRegistry kind entity group =
      any.pick registry.toRegistry kind (some entity) := by
  rw [AnyExecutable.pick, hgroup]
  rfl

variable (registry kind any) in
@[simp]
theorem pick_pointer (entity : Entity) :
    (any.pick registry.toRegistry kind (some entity)).pointer kind = some entity := by
  simp [AnyExecutable.pick]

theorem pick_pick (first second : Entity) :
    (any.pick registry.toRegistry kind (some first)).pick registry.toRegistry kind
        (some second) =
      any.pick registry.toRegistry kind (some second) := by
  simp [AnyExecutable.pick]

variable (registry) in
/-- The first entity of the kind with the highest priority. -/
def best (kind : Kind) (entities : List Entity) : Option Entity :=
  executing (fun entity => -registry.callbackPriority kind entity) entities

theorem readyOf_cons (handle : Handle) (rest : List Handle) :
    readyOf registry free kind (handle :: rest) =
      match registry.byHandle kind handle with
      | none => readyOf registry free kind rest
      | some entity =>
          if (registry.groupOf kind entity).any free then
            entity :: readyOf registry free kind rest
          else readyOf registry free kind rest := by
  rw [readyOf, List.filterMap_cons]
  cases registry.byHandle kind handle with
  | none => rfl
  | some entity =>
      rw [Option.filter_some]
      split <;> rename_i hfree <;> split at hfree <;> simp_all [readyOf]

/-- A search that has found an entity goes on with the priority of this one. -/
theorem getNext_found (handles : List Handle) (entity : Entity) :
    (getNext registry true free kind (registry.callbackPriority kind entity) handles
        (any.pick registry.toRegistry kind (some entity))).2 =
      any.pick registry.toRegistry kind
        (preferred (fun entity => -registry.callbackPriority kind entity) (some entity)
          (best registry kind (readyOf registry free kind handles))) := by
  induction handles generalizing entity with
  | nil => rfl
  | cons handle rest ih =>
      rw [getNext, readyOf_cons]
      cases registry.byHandle kind handle with
      | none => exact ih entity
      | some other =>
          cases hgroup : registry.groupOf kind other with
          | none => simpa [hgroup] using ih entity
          | some group =>
              by_cases hfree : free group = true
              · have hnext : best registry kind
                    (other :: readyOf registry free kind rest) =
                      preferred (fun entity => -registry.callbackPriority kind entity)
                        (some other) (best registry kind (readyOf registry free kind rest)) :=
                  executing_cons _ _ _
                simp only [hgroup, hfree, if_true, Option.any_some, hnext, preferred_assoc]
                by_cases hless : registry.callbackPriority kind entity <
                    registry.callbackPriority kind other
                · have hbeats : preferred
                      (fun entity => -registry.callbackPriority kind entity) (some entity)
                        (some other) = some other := if_pos (by simpa using hless)
                  rw [if_pos (.inr hless), record_eq_pick hgroup, pick_pick, hbeats]
                  exact ih other
                · have hkeeps : preferred
                      (fun entity => -registry.callbackPriority kind entity) (some entity)
                        (some other) = some entity := if_neg (by simpa using hless)
                  have hpointer : ¬ ((any.pick registry.toRegistry kind
                        (some entity)).pointer kind = none ∨
                      registry.callbackPriority kind entity <
                        registry.callbackPriority kind other) := by
                    simp [AnyExecutable.pick, hless]
                  rw [if_neg hpointer, hkeeps]
                  exact ih entity
              · simpa [hgroup, hfree] using ih entity

/-- A search finds the first entity with the highest priority. -/
theorem getNext_eq (highest : ℤ) (handles : List Handle) (hnone : any.pointer kind = none) :
    (getNext registry true free kind highest handles any).2 =
      any.pick registry.toRegistry kind
        (best registry kind (readyOf registry free kind handles)) := by
  induction handles with
  | nil => rfl
  | cons handle rest ih =>
      rw [getNext, readyOf_cons]
      cases registry.byHandle kind handle with
      | none => exact ih
      | some entity =>
          cases hgroup : registry.groupOf kind entity with
          | none => simpa [hgroup] using ih
          | some group =>
              by_cases hfree : free group = true
              · simp only [hgroup, hfree, if_true, Option.any_some, hnone, true_or]
                rw [record_eq_pick hgroup, best, executing_cons]
                exact getNext_found rest entity
              · simpa [hgroup, hfree] using ih

variable (registry memory) in
theorem search_eq (hnone : any.pointer kind = none) :
    (search registry true kind memory any).2 =
      any.pick registry.toRegistry kind (best registry kind (ready registry memory kind)) :=
  getNext_eq (-1) (memory.handles kind) hnone

theorem search_memory : (search registry true kind memory any).1.canBeTakenFrom =
      memory.canBeTakenFrom ∧ ∀ other, other ≠ kind →
        (search registry true kind memory any).1.handles other = memory.handles other :=
  ⟨rfl, fun _ hother => Function.update_of_ne hother _ _⟩

end Searches

/-! ## The contest of the kinds -/

section Contests

variable {registry : Registry Handle Entity Group Node} {memory : Memory Handle Group}
  {done : List Kind} {state : Contest Handle Entity Group Node}

/-- The leader's pointer is the only one, and its priority the highest; or no priority so
far has beaten the initial one, and there is no pointer. -/
def Leads (registry : Registry Handle Entity Group Node)
    (state : Contest Handle Entity Group Node) : Option (Kind × Entity) → Prop
  | none => state.highestPriority = -1 ∧ ∀ kind, state.any.pointer kind = none
  | some winner =>
      (state.highestPriority = registry.callbackPriority winner.1 winner.2 ∧
        state.any.HoldsOnly winner.1 winner.2) ∨
      (state.highestPriority = -1 ∧ registry.callbackPriority winner.1 winner.2 ≤ -1 ∧
        ∀ kind, state.any.pointer kind = none)

/-- After the blocks of some kinds the leader of these leads, the group and the node are
those of the last leader, and the other kinds are as they were. -/
structure Standing (registry : Registry Handle Entity Group Node)
    (memory : Memory Handle Group) (done : List Kind)
    (state : Contest Handle Entity Group Node) : Prop where
  flags : state.memory.canBeTakenFrom = memory.canBeTakenFrom
  handles : ∀ kind ∉ done, state.memory.handles kind = memory.handles kind
  pointers : ∀ kind ∉ done, state.any.pointer kind = none
  leads : Leads registry state (leader registry memory done)
  group : state.any.callbackGroup =
    (lastLeader registry memory done).bind fun last => registry.groupOf last.1 last.2
  node : state.any.nodeBase = (lastLeader registry memory done).bind fun last =>
    (registry.groupOf last.1 last.2).bind registry.nodeOf

variable (registry memory) in
theorem leader_singleton (kind : Kind) :
    leader registry memory [kind] =
      (best registry kind (ready registry memory kind)).map (kind, ·) := by
  rw [leader, List.flatMap_singleton, candidates, executing_map]
  rfl

theorem leader_append (kind : Kind) :
    leader registry memory (done ++ [kind]) =
      preferred (urgency registry) (leader registry memory done)
        (leader registry memory [kind]) := by
  rw [leader, List.flatMap_append, executing_append]
  rfl

theorem lastLeader_append (kind : Kind) :
    lastLeader registry memory (done ++ [kind]) =
      (leader registry memory [kind]).or (lastLeader registry memory done) := by
  rw [lastLeader, List.reverse_append, List.reverse_singleton, List.singleton_append,
    List.findSome?_cons]
  cases leader registry memory [kind] <;> rfl

theorem Standing.ready_eq (h : Standing registry memory done state) {kind : Kind}
    (hkind : kind ∉ done) :
    ready registry state.memory kind = ready registry memory kind := by
  rw [ready, ready, h.flags, h.handles kind hkind]

theorem Kind.rank_injective {first second : Kind} (hrank : first.rank = second.rank) :
    first = second := by
  cases first <;> cases second <;> first | rfl | cases hrank

theorem drop_eq {any : AnyExecutable Entity Group Node} {kind : Kind}
    (hnone : any.pointer kind = none) : any.drop kind = any := by
  rw [AnyExecutable.drop, ← hnone, Function.update_eq_self]

variable (registry) in
theorem drop_pick {any : AnyExecutable Entity Group Node} {kind : Kind}
    (hnone : any.pointer kind = none) (entity : Entity) :
    ((any.pick registry.toRegistry kind (some entity)).drop kind).pointer = any.pointer := by
  rw [AnyExecutable.drop, AnyExecutable.pick]
  simp only [Function.update_idem]
  rw [← hnone, Function.update_eq_self]

variable (registry) in
/-- The entity that beats the others keeps the only pointer. -/
theorem holdsOnly_dropBefore {any : AnyExecutable Entity Group Node} {kind : Kind}
    (hlater : ∀ other, kind.rank < other.rank → any.pointer other = none) (entity : Entity) :
    (((any.pick registry.toRegistry kind (some entity)).takeData kind).dropBefore
      kind).HoldsOnly kind
      entity := by
  have hpointer : ((any.pick registry.toRegistry kind (some entity)).takeData kind).pointer =
      Function.update any.pointer kind (some entity) := by
    rw [AnyExecutable.takeData]
    split <;> rfl
  constructor
  · simp [AnyExecutable.dropBefore, hpointer]
  · intro other hother
    simp only [AnyExecutable.dropBefore, hpointer, Function.update_of_ne hother]
    split
    · rfl
    · rename_i hrank
      have hne : other.rank ≠ kind.rank := fun hsame => hother (Kind.rank_injective hsame)
      exact hlater other (by omega)

/-! What a block does, by the entity that its search has found. -/

theorem contest_none {kind : Kind} (hnone : state.any.pointer kind = none)
    (hbest : best registry kind (ready registry state.memory kind) = none) :
    contest registry kind state =
      { state with memory := (search registry true kind state.memory state.any).1 } := by
  have hfound := search_eq registry state.memory hnone
  rw [hbest] at hfound
  simp only [contest, hfound, AnyExecutable.pick, hnone, drop_eq]

theorem contest_of_lt {kind : Kind} {entity : Entity} (hnone : state.any.pointer kind = none)
    (hbest : best registry kind (ready registry state.memory kind) = some entity)
    (hbeats : state.highestPriority < registry.callbackPriority kind entity) :
    contest registry kind state =
      ⟨(search registry true kind state.memory state.any).1,
        ((state.any.pick registry.toRegistry kind (some entity)).takeData kind).dropBefore
          kind,
        registry.callbackPriority kind entity⟩ := by
  have hfound := search_eq registry state.memory hnone
  rw [hbest] at hfound
  simp only [contest, hfound, pick_pointer registry kind state.any entity, if_pos hbeats]

theorem contest_of_le {kind : Kind} {entity : Entity} (hnone : state.any.pointer kind = none)
    (hbest : best registry kind (ready registry state.memory kind) = some entity)
    (hloses : registry.callbackPriority kind entity ≤ state.highestPriority) :
    contest registry kind state =
      ⟨(search registry true kind state.memory state.any).1,
        (state.any.pick registry.toRegistry kind (some entity)).drop kind,
        state.highestPriority⟩ := by
  have hfound := search_eq registry state.memory hnone
  rw [hbest] at hfound
  simp only [contest, hfound, pick_pointer registry kind state.any entity,
    if_neg (not_lt.mpr hloses)]

/-! What the block does to the leader. -/

/-- Only the highest priority and the pointers matter. -/
theorem Leads.congr {winner : Option (Kind × Entity)} (h : Leads registry state winner)
    {after : Contest Handle Entity Group Node}
    (hpriority : after.highestPriority = state.highestPriority)
    (hpointer : after.any.pointer = state.any.pointer) : Leads registry after winner := by
  cases winner with
  | none => exact ⟨hpriority.trans h.1, by rw [hpointer]; exact h.2⟩
  | some winner =>
      simp only [Leads, AnyExecutable.HoldsOnly, hpriority, hpointer]
      exact h

theorem Leads.beaten {winner : Option (Kind × Entity)} (h : Leads registry state winner)
    {kind : Kind} {entity : Entity}
    (hbeats : state.highestPriority < registry.callbackPriority kind entity) :
    preferred (urgency registry) winner (some (kind, entity)) = some (kind, entity) := by
  cases winner with
  | none => rfl
  | some winner =>
      apply if_pos
      rcases h with ⟨hhighest, -⟩ | ⟨hhighest, hlow, -⟩ <;> simp only [urgency] <;> omega

/-- A candidate that does not beat the highest priority changes nothing: it does not beat
the leader either, or neither of the two has beaten the initial priority. -/
theorem Leads.kept {winner : Option (Kind × Entity)} (h : Leads registry state winner)
    {kind : Kind} {entity : Entity}
    (hloses : registry.callbackPriority kind entity ≤ state.highestPriority)
    {after : Contest Handle Entity Group Node}
    (hpriority : after.highestPriority = state.highestPriority)
    (hpointer : after.any.pointer = state.any.pointer) :
    Leads registry after (preferred (urgency registry) winner (some (kind, entity))) := by
  suffices hbefore : Leads registry state
      (preferred (urgency registry) winner (some (kind, entity))) from
    hbefore.congr hpriority hpointer
  cases winner with
  | none => exact .inr ⟨h.1, h.1 ▸ hloses, h.2⟩
  | some winner =>
      rcases h with ⟨hhighest, honly⟩ | ⟨hhighest, hlow, hempty⟩
      · have hkeeps : preferred (urgency registry) (some winner) (some (kind, entity)) =
            some winner := by
          apply if_neg
          simp only [urgency]
          omega
        rw [hkeeps]
        exact .inl ⟨hhighest, honly⟩
      · rw [preferred]
        split
        · exact .inr ⟨hhighest, hhighest ▸ hloses, hempty⟩
        · exact .inr ⟨hhighest, hlow, hempty⟩

/-- What one more block has to show. -/
theorem Standing.next (h : Standing registry memory done state) {kind : Kind}
    {after : Contest Handle Entity Group Node}
    (hmemory : after.memory = (search registry true kind state.memory state.any).1)
    (hpointers : ∀ other ∉ done ++ [kind], after.any.pointer other = none)
    (hleads : Leads registry after (preferred (urgency registry)
      (leader registry memory done) (leader registry memory [kind])))
    (hgroup : after.any.callbackGroup = ((leader registry memory [kind]).or
      (lastLeader registry memory done)).bind fun last => registry.groupOf last.1 last.2)
    (hnode : after.any.nodeBase = ((leader registry memory [kind]).or
      (lastLeader registry memory done)).bind fun last =>
        (registry.groupOf last.1 last.2).bind registry.nodeOf) :
    Standing registry memory (done ++ [kind]) after where
  flags := by
    rw [hmemory]
    exact h.flags
  handles := by
    intro other hother
    rw [List.mem_append, not_or, List.mem_singleton] at hother
    rw [hmemory, search_memory.2 other hother.2]
    exact h.handles other hother.1
  pointers := hpointers
  leads := by
    rw [leader_append]
    exact hleads
  group := by rw [lastLeader_append, hgroup]
  node := by rw [lastLeader_append, hnode]

/-- The block of a kind that comes after all kinds before. -/
theorem standing_contest (kind : Kind) (h : Standing registry memory done state)
    (hafter : ∀ other ∈ done, other.rank < kind.rank) :
    Standing registry memory (done ++ [kind]) (contest registry kind state) := by
  have hkind : kind ∉ done := fun hmem => Nat.lt_irrefl _ (hafter kind hmem)
  have hnone := h.pointers kind hkind
  have hothers : ∀ other ∉ done ++ [kind], state.any.pointer other = none :=
    fun other hother => h.pointers other fun hmem => hother (List.mem_append_left _ hmem)
  have hleader := leader_singleton registry memory kind
  rw [← h.ready_eq hkind] at hleader
  rcases hbest : best registry kind (ready registry state.memory kind) with _ | entity
  · rw [hbest, Option.map_none] at hleader
    rw [contest_none hnone hbest]
    apply h.next rfl
    · exact hothers
    · rw [hleader, preferred_none_right]
      exact h.leads.congr rfl rfl
    · rw [hleader]
      exact h.group
    · rw [hleader]
      exact h.node
  · rw [hbest, Option.map_some] at hleader
    rcases lt_or_ge state.highestPriority (registry.callbackPriority kind entity) with
      hbeats | hloses
    · have hlater : ∀ other, kind.rank < other.rank → state.any.pointer other = none := by
        intro other hrank
        apply h.pointers
        intro hmem
        exact Nat.lt_asymm hrank (hafter other hmem)
      have honly := holdsOnly_dropBefore registry hlater entity
      rw [contest_of_lt hnone hbest hbeats]
      apply h.next rfl
      · intro other hother
        apply honly.2
        rintro rfl
        exact hother (List.mem_append_right _ (List.mem_singleton_self _))
      · rw [hleader, h.leads.beaten hbeats]
        exact .inl ⟨rfl, honly⟩
      · rw [hleader, AnyExecutable.dropBefore, AnyExecutable.takeData]
        split <;> rfl
      · rw [hleader, AnyExecutable.dropBefore, AnyExecutable.takeData]
        split <;> rfl
    · have hsame := drop_pick registry hnone entity
      rw [contest_of_le hnone hbest hloses]
      apply h.next rfl
      · rw [hsame]
        exact hothers
      · rw [hleader]
        exact h.leads.kept hloses rfl hsame
      · rw [hleader]
        rfl
      · rw [hleader]
        rfl

variable (registry memory) in
theorem standing_openContest :
    Standing registry memory [.timer] (openContest registry memory .empty) := by
  have hnone :
      (AnyExecutable.empty : AnyExecutable Entity Group Node).pointer .timer = none := rfl
  have hfound := search_eq registry memory hnone
  have hleader := leader_singleton registry memory .timer
  have hflags : (search registry true .timer memory .empty).1.canBeTakenFrom =
      memory.canBeTakenFrom := rfl
  have hhandles : ∀ kind ∉ [Kind.timer],
      (search registry true .timer memory .empty).1.handles kind = memory.handles kind :=
    fun kind hkind => search_memory.2 kind fun hsame => hkind (List.mem_singleton.mpr hsame)
  have hlast : lastLeader registry memory [.timer] = leader registry memory [.timer] := by
    simp [lastLeader]
  rcases hbest : best registry .timer (ready registry memory .timer) with _ | entity
  · rw [hbest] at hfound hleader
    have hopen : openContest registry memory .empty =
        ⟨(search registry true .timer memory .empty).1, .empty, -1⟩ := by
      simp only [openContest, hfound, AnyExecutable.pick]
      rfl
    rw [hopen]
    refine ⟨hflags, hhandles, fun _ _ => rfl, ?_, ?_, ?_⟩
    · rw [hleader]
      exact ⟨rfl, fun _ => rfl⟩
    · rw [hlast, hleader]
      rfl
    · rw [hlast, hleader]
      rfl
  · rw [hbest] at hfound hleader
    have hpointer := pick_pointer registry .timer .empty entity
    have hopen : openContest registry memory .empty =
        ⟨(search registry true .timer memory .empty).1,
          AnyExecutable.empty.pick registry.toRegistry .timer (some entity),
          registry.callbackPriority .timer entity⟩ := by
      simp only [openContest, hfound, hpointer]
    have honly : ∀ other, other ≠ Kind.timer →
        (AnyExecutable.empty.pick registry.toRegistry .timer (some entity)).pointer other =
          none :=
      fun other hother => Function.update_of_ne hother _ _
    rw [hopen]
    refine ⟨hflags, hhandles, fun kind hkind => honly kind fun hsame =>
      hkind (List.mem_singleton.mpr hsame), ?_, ?_, ?_⟩
    · rw [hleader]
      exact .inl ⟨rfl, hpointer, honly⟩
    · rw [hlast, hleader]
      rfl
    · rw [hlast, hleader]
      rfl

/-- The state of the selection after the five blocks. -/
def finalContest (registry : Registry Handle Entity Group Node)
    (memory : Memory Handle Group) : Contest Handle Entity Group Node :=
  contest registry .waitable <| contest registry .client <| contest registry .service <|
    contest registry .subscription <| openContest registry memory .empty

variable (registry memory) in
theorem standing_finalContest :
    Standing registry memory Kind.all (finalContest registry memory) := by
  have hsubscription :=
    standing_contest .subscription (standing_openContest registry memory) (by decide)
  have hservice := standing_contest .service hsubscription (by decide)
  have hclient := standing_contest .client hservice (by decide)
  exact standing_contest .waitable hclient (by decide)

end Contests

/-! ## The selection -/

section Selections

variable {registry : Registry Handle Entity Group Node} {memory : Memory Handle Group}

theorem mem_candidates {kinds : List Kind} (candidate : Kind × Entity) :
    candidate ∈ kinds.flatMap (candidates registry memory) ↔
      candidate.1 ∈ kinds ∧ candidate.2 ∈ ready registry memory candidate.1 := by
  obtain ⟨kind, entity⟩ := candidate
  simp only [List.mem_flatMap, candidates, List.mem_map, Prod.mk.injEq]
  constructor
  · rintro ⟨other, hother, found, hfound, rfl, rfl⟩
    exact ⟨hother, hfound⟩
  · rintro ⟨hkind, hentity⟩
    exact ⟨kind, hkind, entity, hentity, rfl, rfl⟩

theorem leader_eq_none_iff :
    leader registry memory Kind.all = none ↔ ∀ kind, ready registry memory kind = [] := by
  constructor
  · intro hnone kind
    have hempty := executing_eq_none _ hnone
    rw [List.eq_nil_iff_forall_not_mem]
    intro entity hentity
    have hmem := (mem_candidates (kind, entity)).mpr
      ⟨Kind.mem_all kind, hentity⟩
    rw [hempty] at hmem
    cases hmem
  · intro hempty
    have hnone : Kind.all.flatMap (candidates registry memory) = [] := by
      rw [List.eq_nil_iff_forall_not_mem]
      intro candidate hmem
      have hready := ((mem_candidates _).mp hmem).2
      rw [hempty] at hready
      cases hready
    rw [leader, hnone]
    rfl

/-- A ready entity has a group, which can be taken from. -/
theorem groupOf_of_ready {kind : Kind} {entity : Entity}
    (hready : entity ∈ ready registry memory kind) :
    ∃ group, registry.groupOf kind entity = some group ∧
      memory.canBeTakenFrom group = true := by
  obtain ⟨handle, -, hfilter⟩ := List.mem_filterMap.mp hready
  obtain ⟨-, hany⟩ := Option.filter_eq_some_iff.mp hfilter
  rcases hgroup : registry.groupOf kind entity with _ | group
  · simp [hgroup] at hany
  · exact ⟨group, rfl, by simpa [hgroup] using hany⟩

theorem ready_of_leader {kinds : List Kind} {winner : Kind × Entity}
    (hleader : leader registry memory kinds = some winner) :
    winner.1 ∈ kinds ∧ winner.2 ∈ ready registry memory winner.1 :=
  (mem_candidates _).mp (mem_of_executing _ hleader)

/-- Where there is a leader there is a last one, which is ready. -/
theorem exists_lastLeader {winner : Kind × Entity}
    (hleader : leader registry memory Kind.all = some winner) :
    ∃ last, lastLeader registry memory Kind.all = some last ∧
      last.2 ∈ ready registry memory last.1 := by
  rcases hlast : lastLeader registry memory Kind.all with _ | last
  · have hnone := List.findSome?_eq_none_iff.mp hlast winner.1
      (List.mem_reverse.mpr (Kind.mem_all _))
    have hmem := (mem_candidates _).mpr
      ⟨List.mem_singleton_self winner.1, (ready_of_leader hleader).2⟩
    rw [executing_eq_none _ hnone] at hmem
    cases hmem
  · obtain ⟨kind, -, hkind⟩ := List.exists_of_findSome?_eq_some hlast
    exact ⟨last, rfl, (ready_of_leader hkind).2⟩

theorem finalContest_group {last : Kind × Entity}
    (hlast : lastLeader registry memory Kind.all = some last) :
    (finalContest registry memory).any.callbackGroup = registry.groupOf last.1 last.2 := by
  rw [(standing_finalContest registry memory).group, hlast, Option.bind_some]

theorem leader_of_success (hsuccess : 0 ≤ (finalContest registry memory).highestPriority) :
    ∃ winner, leader registry memory Kind.all = some winner ∧
      (finalContest registry memory).highestPriority =
        registry.callbackPriority winner.1 winner.2 ∧
      (finalContest registry memory).any.HoldsOnly winner.1 winner.2 := by
  have hleads := (standing_finalContest registry memory).leads
  rcases hleader : leader registry memory Kind.all with _ | winner
  · rw [hleader] at hleads
    have := hleads.1
    omega
  · rw [hleader] at hleads
    rcases hleads with ⟨hhighest, honly⟩ | ⟨hhighest, -⟩
    · exact ⟨winner, rfl, hhighest, honly⟩
    · omega

variable [DecidableEq Group]

variable (registry memory) in
/-- The executor is successful where the highest priority is not negative, and marks the
group that was recorded last. -/
theorem getNextReadyExecutableFromMap_eq :
    (getNextReadyExecutableFromMap registry true memory .empty).1 =
        decide (0 ≤ (finalContest registry memory).highestPriority) ∧
      (getNextReadyExecutableFromMap registry true memory .empty).2.1 =
        (finalContest registry memory).any ∧
      (0 ≤ (finalContest registry memory).highestPriority → ∃ group,
        (finalContest registry memory).any.callbackGroup = some group ∧
        memory.canBeTakenFrom group = true ∧
        (getNextReadyExecutableFromMap registry true memory .empty).2.2.canBeTakenFrom =
          (markTaken registry.toRegistry memory group).canBeTakenFrom) := by
  have hselect : selectHighest registry memory .empty =
      (decide (0 ≤ (finalContest registry memory).highestPriority),
        (finalContest registry memory).any, (finalContest registry memory).memory) := rfl
  by_cases hsuccess : 0 ≤ (finalContest registry memory).highestPriority
  · obtain ⟨winner, hleader, -, -⟩ := leader_of_success hsuccess
    obtain ⟨last, hlast, hready⟩ := exists_lastLeader hleader
    obtain ⟨group, hgroup, hfree⟩ := groupOf_of_ready hready
    have hrecorded := (finalContest_group hlast).trans hgroup
    have hmapped : (registry.nodeOf group).isSome = true := by
      rw [Option.isSome_iff_ne_none]
      exact registry.mapped _ _ group hgroup
    have hresult : getNextReadyExecutableFromMap registry true memory .empty =
        (true, (finalContest registry memory).any,
          markTaken registry.toRegistry (finalContest registry memory).memory group) := by
      simp only [getNextReadyExecutableFromMap, MemoryStrategy.markSelected, if_true, hselect,
        hsuccess, decide_true, hrecorded, hmapped]
    rw [hresult]
    dsimp only
    refine ⟨(decide_eq_true hsuccess).symm, rfl, fun _ => ⟨group, hrecorded, hfree, ?_⟩⟩
    have hflags := (standing_finalContest registry memory).flags
    simp only [markTaken]
    split <;> simp only [hflags]
  · have hresult : getNextReadyExecutableFromMap registry true memory .empty =
        (false, (finalContest registry memory).any,
          (finalContest registry memory).memory) := by
      simp only [getNextReadyExecutableFromMap, MemoryStrategy.markSelected, if_true, hselect,
        hsuccess, decide_false]
    rw [hresult]
    dsimp only
    exact ⟨(decide_eq_false hsuccess).symm, rfl, fun h => absurd h hsuccess⟩

/-- The executor selects what it should exactly where no entity is ready, or the highest
priority is not negative and the entity recorded last shares the winner's group. -/
theorem selectsHighest_iff_lastShares (registry : Registry Handle Entity Group Node)
    (memory : Memory Handle Group) :
    SelectsHighest registry memory ↔ LastShares registry memory := by
  obtain ⟨hresult, hany, -⟩ :=
    getNextReadyExecutableFromMap_eq registry memory
  have hstanding := standing_finalContest registry memory
  have hleads := hstanding.leads
  simp only [SelectsHighest, hresult, hany, decide_eq_true_eq]
  constructor
  · rintro ⟨hready, hselects⟩ winner last hleader hlast
    have hsuccess := hready.mpr
      ⟨winner.1, List.ne_nil_of_mem (ready_of_leader hleader).2⟩
    obtain ⟨found, hfound, hhighest, honly⟩ := leader_of_success hsuccess
    obtain rfl := Option.some.inj (hleader.symm.trans hfound)
    obtain ⟨kind, entity, -, hholds, -, hgroup, -⟩ := hselects hsuccess
    have hkind : kind = winner.1 := by
      by_contra hother
      cases (honly.2 kind hother).symm.trans hholds.1
    subst hkind
    obtain rfl : winner.2 = entity := Option.some.inj (honly.1.symm.trans hholds.1)
    exact ⟨hhighest ▸ hsuccess, (finalContest_group hlast).symm.trans hgroup⟩
  · intro hshares
    rcases hleader : leader registry memory Kind.all with _ | winner
    · rw [hleader] at hleads
      have hempty := leader_eq_none_iff.mp hleader
      have hfail : ¬ 0 ≤ (finalContest registry memory).highestPriority := by
        have := hleads.1
        omega
      exact ⟨⟨fun h => absurd h hfail, fun ⟨kind, hkind⟩ => absurd (hempty kind) hkind⟩,
        fun h => absurd h hfail⟩
    · obtain ⟨last, hlast, -⟩ := exists_lastLeader hleader
      obtain ⟨hpriority, hgroup⟩ := hshares winner last hleader hlast
      rw [hleader] at hleads
      have hready := (ready_of_leader hleader).2
      rcases hleads with ⟨hhighest, honly⟩ | ⟨-, hlow, -⟩
      · have hsuccess : 0 ≤ (finalContest registry memory).highestPriority :=
          hhighest ▸ hpriority
        refine ⟨⟨fun _ => ⟨winner.1, List.ne_nil_of_mem hready⟩, fun _ => hsuccess⟩,
          fun _ => ⟨winner.1, winner.2, hready, honly, ?_, ?_, ?_⟩⟩
        · intro other rival hrival
          have hle := executing_le _ hleader
            ((mem_candidates (other, rival)).mpr ⟨Kind.mem_all other, hrival⟩)
          simp only [urgency] at hle
          omega
        · rw [finalContest_group hlast, hgroup]
        · rw [hstanding.node, hlast, Option.bind_some, hgroup]
      · omega

/-- A timer of the first group outranks a subscription of the second; the services have a
negative priority. -/
def twoGroups : Registry ℕ ℕ ℕ ℕ where
  byHandle _ handle := some handle
  groupOf kind _ := some (if kind = .timer then 0 else 1)
  nodeOf group := some group
  exclusive _ := true
  callbackPriority kind _ :=
    match kind with
    | .timer => 10
    | .subscription => 5
    | .service | .client | .waitable => -3
  mapped _ _ _ _ := nofun

def readyKinds (kinds : List Kind) : Memory ℕ ℕ where
  handles kind := if kind ∈ kinds then [0] else []
  canBeTakenFrom _ := true

/-- The timer is selected with the group of the subscription, and a service that is the only
ready entity is not selected at all. -/
theorem selection_fails :
    (¬ SelectsHighest twoGroups (readyKinds [.timer, .subscription])) ∧
      ¬ SelectsHighest twoGroups (readyKinds [.service]) := by
  constructor
  · intro hselects
    obtain ⟨-, hright⟩ := hselects
    obtain ⟨kind, entity, -, hholds, -, hgroup, -⟩ := hright rfl
    cases kind with
    | timer => cases hgroup
    | subscription | service | client | waitable => cases hholds.1
  · intro hselects
    cases hselects.1.mpr ⟨.service, nofun⟩

end Selections

end RosRtems.Picas
