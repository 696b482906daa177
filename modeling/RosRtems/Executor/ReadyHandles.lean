import RosRtems.Executor.MemoryStrategy
import Mathlib.Data.List.ReduceOption

/-!
# Which of the ready handles are handed out

The memory strategy finds the entity of a handle in the groups that still exist, and the
group of an entity among those whose node exists too.  Called until it yields nothing,
`get_next_timer` or one of its siblings hands out the entity of every handle whose group
can be taken, once and in the order of the handles; it drops the handles that it finds no
entity or group for, and leaves the others in the list.
-/

namespace RosRtems.MemoryStrategy

variable {Handle Entity Group Node : Type*}

/-! ## The lookups -/

/-- An entry of `weak_groups_to_nodes`, with the entities that the group points to. -/
structure GroupEntry (Entity Group Node : Type*) where
  group : Group
  groupAlive : Bool
  node : Node
  nodeAlive : Bool
  ptrs : Kind → List Entity

/-- What exists while the executor looks for work.  The handle of a waitable is a pointer
to the waitable itself. -/
structure Existing (Handle Entity Group Node : Type*) where
  weakGroupsToNodes : List (GroupEntry Entity Group Node)
  alive : Entity → Bool
  handleOf : Entity → Handle
  waitableOf : Handle → Entity
  exclusive : Group → Bool
  keys : (weakGroupsToNodes.map GroupEntry.group).Nodup

/-- A key that occurs once is found where it is. -/
theorem find?_key_eq {α β : Type*} [DecidableEq β] {key : α → β} {entries : List α} {a : α}
    (hkeys : (entries.map key).Nodup) (ha : a ∈ entries) :
    (entries.find? fun b => key b = key a) = some a := by
  induction entries with
  | nil => cases ha
  | cons b entries ih =>
      rw [List.map_cons, List.nodup_cons] at hkeys
      rcases List.mem_cons.mp ha with rfl | hrest
      · simp
      · have hother : key b ≠ key a := fun hsame =>
          hkeys.1 (hsame ▸ List.mem_map_of_mem hrest)
        rw [List.find?_cons_of_neg (by simpa using hother)]
        exact ih hkeys.2 hrest

namespace Existing

variable (existing : Existing Handle Entity Group Node)

/-- `CallbackGroup::_find_ptrs_if_impl`. -/
def findPtrsIf (kind : Kind) (entry : GroupEntry Entity Group Node) (func : Entity → Bool) :
    Option Entity :=
  (entry.ptrs kind).find? fun entity => existing.alive entity && func entity

section Lookups

variable [DecidableEq Handle] [DecidableEq Entity] [DecidableEq Group] (kind : Kind)

/-- `get_subscription_by_handle` and its siblings; a waitable needs no lookup. -/
def getByHandle (handle : Handle) : Option Entity :=
  if kind = .waitable then some (existing.waitableOf handle)
  else
    existing.weakGroupsToNodes.findSome? fun entry =>
      if entry.groupAlive then
        existing.findPtrsIf kind entry fun entity => existing.handleOf entity = handle
      else none

/-- `get_group_by_subscription` and its siblings. -/
def getGroupBy (entity : Entity) : Option Group :=
  existing.weakGroupsToNodes.findSome? fun entry =>
    if entry.groupAlive && entry.nodeAlive then
      (existing.findPtrsIf kind entry fun other => other = entity).map fun _ => entry.group
    else none

/-- `get_node_by_group`. -/
def getNodeByGroup (group : Group) : Option Node :=
  (existing.weakGroupsToNodes.find? fun entry => entry.group = group).bind fun entry =>
    if entry.nodeAlive then some entry.node else none

omit [DecidableEq Handle] in
/-- The group that is found for an entity is one that points to it, and its node exists. -/
theorem getGroupBy_eq_some {entity : Entity} {group : Group}
    (hgroup : existing.getGroupBy kind entity = some group) :
    ∃ entry ∈ existing.weakGroupsToNodes, entry.group = group ∧ entry.groupAlive = true ∧
      entry.nodeAlive = true ∧ entity ∈ entry.ptrs kind ∧ existing.alive entity = true ∧
      existing.getNodeByGroup group = some entry.node := by
  obtain ⟨entry, hentry, hfound⟩ := List.exists_of_findSome?_eq_some hgroup
  split at hfound
  · rename_i hexist
    rw [Bool.and_eq_true] at hexist
    obtain ⟨other, hother, rfl⟩ := Option.map_eq_some_iff.mp hfound
    have hptr := List.mem_of_find?_eq_some hother
    have hfunc := List.find?_some hother
    simp only [Bool.and_eq_true, decide_eq_true_eq] at hfunc
    obtain ⟨halive, rfl⟩ := hfunc
    refine ⟨entry, hentry, rfl, hexist.1, hexist.2, hptr, halive, ?_⟩
    rw [getNodeByGroup, find?_key_eq existing.keys hentry, Option.bind_some,
      if_pos hexist.2]
  · cases hfound

omit [DecidableEq Handle] [DecidableEq Group] in
/-- No group for the entity: it does not exist, or each group that points to it has gone
or has lost its node. -/
theorem getGroupBy_eq_none {entity : Entity}
    (hgroup : existing.getGroupBy kind entity = none) (halive : existing.alive entity = true) :
    ∀ entry ∈ existing.weakGroupsToNodes, entity ∈ entry.ptrs kind →
      entry.groupAlive = false ∨ entry.nodeAlive = false := by
  intro entry hentry hptr
  have hmissed := List.findSome?_eq_none_iff.mp hgroup entry hentry
  rw [← Bool.and_eq_false_iff]
  by_contra hexist
  rw [Bool.not_eq_false] at hexist
  rw [if_pos hexist, Option.map_eq_none_iff, findPtrsIf, List.find?_eq_none] at hmissed
  exact hmissed entity hptr (by simp [halive])

omit [DecidableEq Entity] [DecidableEq Group] in
/-- No entity for the handle: it is not that of a waitable, and no entity that exists in a
group that exists has it. -/
theorem getByHandle_eq_none {handle : Handle}
    (hentity : existing.getByHandle kind handle = none) :
    kind ≠ .waitable ∧ ∀ entry ∈ existing.weakGroupsToNodes, entry.groupAlive = true →
      ∀ entity ∈ entry.ptrs kind, existing.alive entity = true →
        existing.handleOf entity ≠ handle := by
  rw [getByHandle] at hentity
  split at hentity
  · cases hentity
  · rename_i hkind
    refine ⟨hkind, fun entry hentry hgroup entity hptr halive hhandle => ?_⟩
    have hmissed := List.findSome?_eq_none_iff.mp hentity entry hentry
    rw [if_pos hgroup, findPtrsIf, List.find?_eq_none] at hmissed
    exact hmissed entity hptr (by simp [halive, hhandle])

/-- What the memory strategy looks up. -/
def registry : Registry Handle Entity Group Node where
  byHandle := existing.getByHandle
  groupOf := existing.getGroupBy
  nodeOf := existing.getNodeByGroup
  exclusive := existing.exclusive
  mapped := by
    intro kind entity group hgroup
    obtain ⟨entry, -, -, -, -, -, -, hnode⟩ := existing.getGroupBy_eq_some kind hgroup
    rw [hnode]
    exact Option.some_ne_none _

end Lookups

end Existing

/-! ## Handing out the ready entities -/

/-- The first part of `remove_null_handles`: the handles that the wait set, or the
waitable itself, does not report are reset. -/
def resetNull (isReady : ℕ → Bool) (handles : List Handle) : List (Option Handle) :=
  handles.mapIdx fun i handle => if isReady i then some handle else none

/-- The second part erases the null handles. -/
def removeNullHandles (waitSet : Kind → ℕ → Bool) (memory : Memory Handle Group) :
    Memory Handle Group :=
  { memory with
    handles := fun kind => (resetNull (waitSet kind) (memory.handles kind)).reduceOption }

section Drain

variable (registry : Registry Handle Entity Group Node) (call : Entity → Bool) (kind : Kind)
  (free : Group → Bool)

/-- The group can be taken, and a timer is not cancelled. -/
def takes (entity : Entity) (group : Group) : Bool :=
  free group && (kind != .timer || call entity)

/-- The entity and the group of a handle. -/
def located (handle : Handle) : Option (Entity × Group) :=
  (registry.byHandle kind handle).bind fun entity =>
    (registry.groupOf kind entity).map fun group => (entity, group)

/-- The executable that is handed out for a handle. -/
def handedOut (handle : Handle) : Option (AnyExecutable Entity Group Node) :=
  (located registry kind handle).bind fun place =>
    if takes call kind free place.1 place.2 then
      some (AnyExecutable.empty.record registry kind place.1 place.2)
    else none

/-- The handle has to wait in the list. -/
def keeps (handle : Handle) : Bool :=
  (located registry kind handle).any fun place => !takes call kind free place.1 place.2

variable {registry call kind free}

theorem located_eq_some_iff {handle : Handle} {entity : Entity} {group : Group} :
    located registry kind handle = some (entity, group) ↔
      registry.byHandle kind handle = some entity ∧
        registry.groupOf kind entity = some group := by
  rw [located, Option.bind_eq_some_iff]
  constructor
  · rintro ⟨found, hentity, hmapped⟩
    obtain ⟨other, hgroup, hpair⟩ := Option.map_eq_some_iff.mp hmapped
    obtain ⟨rfl, rfl⟩ := Prod.mk.inj hpair
    exact ⟨hentity, hgroup⟩
  · rintro ⟨hentity, hgroup⟩
    exact ⟨entity, hentity, by rw [hgroup]; rfl⟩

theorem handedOut_eq_some_iff {handle : Handle} {any : AnyExecutable Entity Group Node} :
    handedOut registry call kind free handle = some any ↔
      ∃ entity group, located registry kind handle = some (entity, group) ∧
        takes call kind free entity group = true ∧
        AnyExecutable.empty.record registry kind entity group = any := by
  rw [handedOut, Option.bind_eq_some_iff]
  constructor
  · rintro ⟨⟨entity, group⟩, hlocated, htaken⟩
    rw [Option.ite_none_right_eq_some, Option.some.injEq] at htaken
    exact ⟨entity, group, hlocated, htaken⟩
  · rintro ⟨entity, group, hlocated, htakes, rfl⟩
    exact ⟨(entity, group), hlocated, if_pos htakes⟩

theorem keeps_iff {handle : Handle} :
    keeps registry call kind free handle = true ↔
      ∃ entity group, located registry kind handle = some (entity, group) ∧
        takes call kind free entity group = false := by
  rw [keeps]
  cases hlocated : located registry kind handle with
  | none => simp
  | some place =>
      obtain ⟨entity, group⟩ := place
      simp

/-- A handle is handed out, or kept, or without an entity or a group. -/
theorem located_eq_none_of {handle : Handle}
    (hnot : handedOut registry call kind free handle = none)
    (hgone : keeps registry call kind free handle = false) :
    located registry kind handle = none := by
  cases hlocated : located registry kind handle with
  | none => rfl
  | some place =>
      exfalso
      rw [handedOut, hlocated, Option.bind_some] at hnot
      rw [keeps, hlocated, Option.any_some, Bool.not_eq_false'] at hgone
      rw [if_pos hgone] at hnot
      cases hnot

theorem keeps_eq_false_of_handedOut {handle : Handle}
    {any : AnyExecutable Entity Group Node}
    (htaken : handedOut registry call kind free handle = some any) :
    keeps registry call kind free handle = false := by
  obtain ⟨entity, group, hlocated, htakes, -⟩ := handedOut_eq_some_iff.mp htaken
  rw [keeps, hlocated, Option.any_some, htakes]
  rfl

/-- A search that comes to a handle that it does not take. -/
theorem getNext_cons_of_not {handle : Handle} (rest : List Handle)
    (any : AnyExecutable Entity Group Node)
    (hnot : handedOut registry call kind free handle = none) :
    getNext registry call free kind (handle :: rest) any =
      ([handle].filter (keeps registry call kind free) ++
          (getNext registry call free kind rest any).1,
        (getNext registry call free kind rest any).2) := by
  rw [getNext]
  cases hentity : registry.byHandle kind handle with
  | none => simp [keeps, located, hentity]
  | some entity =>
      cases hgroup : registry.groupOf kind entity with
      | none => simp [keeps, located, hentity, hgroup]
      | some group =>
          have htakes : takes call kind free entity group = false := by
            simpa [handedOut, located, hentity, hgroup] using hnot
          have hkeeps : keeps registry call kind free handle = true :=
            keeps_iff.mpr ⟨entity, group, located_eq_some_iff.mpr ⟨hentity, hgroup⟩, htakes⟩
          have hblocked : ¬ (free group = true ∧ (kind = .timer → call entity = true)) := by
            simpa [takes, imp_iff_not_or] using htakes
          simp only [hgroup, if_neg hblocked, List.filter_cons_of_pos hkeeps, List.filter_nil,
            List.singleton_append]

/-- A search that comes to a handle that it takes. -/
theorem getNext_cons_of_taken {handle : Handle} (rest : List Handle)
    {any : AnyExecutable Entity Group Node}
    (htaken : handedOut registry call kind free handle = some any) :
    getNext registry call free kind (handle :: rest) .empty = (rest, any) := by
  obtain ⟨entity, group, hlocated, htakes, rfl⟩ := handedOut_eq_some_iff.mp htaken
  obtain ⟨hentity, hgroup⟩ := located_eq_some_iff.mp hlocated
  have hfree : free group = true ∧ (kind = .timer → call entity = true) := by
    simpa [takes, imp_iff_not_or] using htakes
  simp only [getNext, hentity, hgroup, if_pos hfree]

/-- The handles before the first one that is taken. -/
theorem getNext_append_of_not {handles : List Handle} (rest : List Handle)
    (any : AnyExecutable Entity Group Node)
    (hnot : ∀ handle ∈ handles, handedOut registry call kind free handle = none) :
    getNext registry call free kind (handles ++ rest) any =
      (handles.filter (keeps registry call kind free) ++
          (getNext registry call free kind rest any).1,
        (getNext registry call free kind rest any).2) := by
  induction handles with
  | nil => rfl
  | cons handle handles ih =>
      obtain ⟨hhead, hrest⟩ := List.forall_mem_cons.mp hnot
      rw [List.cons_append, getNext_cons_of_not _ any hhead, ih hrest,
        ← List.singleton_append (l := handles), List.filter_append, List.append_assoc]

theorem handedOut_pointer {handle : Handle} {any : AnyExecutable Entity Group Node}
    (htaken : handedOut registry call kind free handle = some any) :
    (any.pointer kind).isSome = true := by
  obtain ⟨entity, group, -, -, rfl⟩ := handedOut_eq_some_iff.mp htaken
  simp [AnyExecutable.record]

/-- What a search finds and leaves where nothing can be taken. -/
theorem search_of_none {memory : Memory Handle Group}
    (hnone : (memory.handles kind).filterMap
      (handedOut registry call kind memory.canBeTakenFrom) = []) :
    search registry call kind memory .empty =
      ({ memory with
          handles := Function.update memory.handles kind
            ((memory.handles kind).filter (keeps registry call kind memory.canBeTakenFrom)) },
        .empty) := by
  have hmissed := getNext_append_of_not [] AnyExecutable.empty
    (List.filterMap_eq_nil_iff.mp hnone)
  rw [List.append_nil, getNext, List.append_nil] at hmissed
  rw [search, hmissed]

/-- A search finds the first handle that can be taken, and leaves the later ones. -/
theorem search_of_some {memory : Memory Handle Group}
    {any : AnyExecutable Entity Group Node} {others : List (AnyExecutable Entity Group Node)}
    (hready : (memory.handles kind).filterMap
      (handedOut registry call kind memory.canBeTakenFrom) = any :: others) :
    ∃ kept, search registry call kind memory .empty =
        ({ memory with handles := Function.update memory.handles kind kept }, any) ∧
      (any.pointer kind).isSome = true ∧
      kept.filterMap (handedOut registry call kind memory.canBeTakenFrom) = others ∧
      kept.filter (keeps registry call kind memory.canBeTakenFrom) =
        (memory.handles kind).filter (keeps registry call kind memory.canBeTakenFrom) := by
  obtain ⟨before, handle, after, hhandles, hnot, htaken, hothers⟩ :=
    List.filterMap_eq_cons_iff.mp hready
  have hfound := getNext_append_of_not (handle :: after) AnyExecutable.empty hnot
  rw [getNext_cons_of_taken after htaken] at hfound
  refine ⟨before.filter (keeps registry call kind memory.canBeTakenFrom) ++ after, ?_,
    handedOut_pointer htaken, ?_, ?_⟩
  · rw [search, hhandles, hfound]
  · have hnone : (before.filter (keeps registry call kind memory.canBeTakenFrom)).filterMap
        (handedOut registry call kind memory.canBeTakenFrom) = [] :=
      List.filterMap_eq_nil_iff.mpr fun other hother =>
        hnot other (List.mem_of_mem_filter hother)
    rw [List.filterMap_append, hnone, hothers, List.nil_append]
  · have hgone := keeps_eq_false_of_handedOut htaken
    rw [hhandles, List.filter_append, List.filter_append, List.filter_filter,
      List.filter_cons_of_neg (by simp [hgone])]
    simp

end Drain

/-! ## Calls in any order -/

section Calls

variable (registry : Registry Handle Entity Group Node) (call : Entity → Bool)

/-- Calls of `get_next_timer` and its siblings, each with a fresh executable: what they
have yielded, with the kind that was asked for, and the memory that they leave. -/
def handOut : List Kind → Memory Handle Group →
    List (Kind × AnyExecutable Entity Group Node) × Memory Handle Group
  | [], memory => ([], memory)
  | kind :: calls, memory =>
      let (memory, found) := search registry call kind memory .empty
      let (others, memory) := handOut calls memory
      (if (found.pointer kind).isSome then (kind, found) :: others else others, memory)

/-- What the calls for a kind have yielded. -/
def yielded (kind : Kind) (found : List (Kind × AnyExecutable Entity Group Node)) :
    List (AnyExecutable Entity Group Node) :=
  (found.filter fun entry => entry.1 = kind).map Prod.snd

variable {registry call} {kind : Kind}

variable (registry call) in
theorem search_canBeTakenFrom (other : Kind) (memory : Memory Handle Group) :
    (search registry call other memory .empty).1.canBeTakenFrom = memory.canBeTakenFrom := rfl

variable (registry call) in
theorem search_handles_of_ne {other : Kind} (hother : other ≠ kind)
    (memory : Memory Handle Group) :
    (search registry call other memory .empty).1.handles kind = memory.handles kind :=
  Function.update_of_ne hother.symm ..

theorem handOut_cons_handles (other : Kind) (calls : List Kind)
    (memory : Memory Handle Group) :
    (handOut registry call (other :: calls) memory).2.handles kind =
      (handOut registry call calls
        (search registry call other memory .empty).1).2.handles kind := rfl

theorem yielded_handOut_cons_of_none {other : Kind} {calls : List Kind}
    {memory : Memory Handle Group}
    (hnone : (search registry call other memory .empty).2 = .empty) :
    yielded kind (handOut registry call (other :: calls) memory).1 =
      yielded kind
        (handOut registry call calls (search registry call other memory .empty).1).1 := by
  rw [handOut]
  simp only [hnone]
  rfl

theorem yielded_handOut_cons_of_ne {other : Kind} (hother : other ≠ kind)
    (calls : List Kind) (memory : Memory Handle Group) :
    yielded kind (handOut registry call (other :: calls) memory).1 =
      yielded kind
        (handOut registry call calls (search registry call other memory .empty).1).1 := by
  rw [handOut]
  dsimp only
  split
  · rw [yielded, List.filter_cons_of_neg (by simpa using hother)]
    rfl
  · rfl

theorem yielded_handOut_cons_of_some {calls : List Kind} {memory : Memory Handle Group}
    (hfound : ((search registry call kind memory .empty).2.pointer kind).isSome = true) :
    yielded kind (handOut registry call (kind :: calls) memory).1 =
      (search registry call kind memory .empty).2 :: yielded kind
        (handOut registry call calls (search registry call kind memory .empty).1).1 := by
  rw [handOut]
  simp only [hfound, if_true]
  rw [yielded, List.filter_cons_of_pos (by simp)]
  rfl

/-- A call that yields nothing, or is for another kind, leaves what can be taken. -/
theorem filterMap_search {other : Kind} {memory : Memory Handle Group}
    (hother : other ≠ kind ∨ (memory.handles kind).filterMap
      (handedOut registry call kind memory.canBeTakenFrom) = []) :
    ((search registry call other memory .empty).1.handles kind).filterMap
        (handedOut registry call kind memory.canBeTakenFrom) =
      (memory.handles kind).filterMap
        (handedOut registry call kind memory.canBeTakenFrom) := by
  by_cases hsame : other = kind
  · subst hsame
    have hnone := hother.resolve_left (not_not.mpr rfl)
    rw [search_of_none hnone, hnone]
    dsimp only
    rw [Function.update_self, List.filterMap_eq_nil_iff]
    exact fun handle hmem =>
      List.filterMap_eq_nil_iff.mp hnone handle (List.mem_of_mem_filter hmem)
  · rw [search_handles_of_ne registry call hsame]

/-- The calls hand out the handles that can be taken, once and in their order. -/
theorem yielded_handOut (calls : List Kind) (memory : Memory Handle Group) :
    yielded kind (handOut registry call calls memory).1 =
      ((memory.handles kind).filterMap
        (handedOut registry call kind memory.canBeTakenFrom)).take (calls.count kind) := by
  induction calls generalizing memory with
  | nil => rfl
  | cons other calls ih =>
      have hnext := ih (search registry call other memory .empty).1
      rw [search_canBeTakenFrom] at hnext
      by_cases hother : other = kind
      · subst hother
        rw [List.count_cons_self]
        cases hready : (memory.handles other).filterMap
          (handedOut registry call other memory.canBeTakenFrom) with
        | nil =>
            rw [filterMap_search (.inr hready), hready] at hnext
            rw [yielded_handOut_cons_of_none (by rw [search_of_none hready]), hnext,
              List.take_nil, List.take_nil]
        | cons any others =>
            obtain ⟨kept, hsearch, hpointer, hrest, -⟩ := search_of_some hready
            have hfound : (search registry call other memory .empty).2 = any := by rw [hsearch]
            have hleft : (search registry call other memory .empty).1.handles other = kept := by
              rw [hsearch]
              exact Function.update_self ..
            rw [hleft, hrest] at hnext
            rw [yielded_handOut_cons_of_some (by rw [hfound]; exact hpointer), hfound, hnext,
              List.take_succ_cons]
      · rw [filterMap_search (.inl hother)] at hnext
        rw [yielded_handOut_cons_of_ne hother, List.count_cons_of_ne hother, hnext]

/-- A call leaves the handles that have to wait. -/
theorem filter_search (other : Kind) (memory : Memory Handle Group) :
    ((search registry call other memory .empty).1.handles kind).filter
        (keeps registry call kind memory.canBeTakenFrom) =
      (memory.handles kind).filter (keeps registry call kind memory.canBeTakenFrom) := by
  by_cases hother : other = kind
  · subst hother
    cases hready : (memory.handles other).filterMap
      (handedOut registry call other memory.canBeTakenFrom) with
    | nil =>
        rw [search_of_none hready]
        dsimp only
        rw [Function.update_self, List.filter_filter]
        simp
    | cons any others =>
        obtain ⟨kept, hsearch, -, -, hkept⟩ := search_of_some hready
        rw [hsearch]
        dsimp only
        rw [Function.update_self, hkept]
  · rw [search_handles_of_ne registry call hother]

/-- A handle that has to wait is not handed out. -/
theorem handedOut_of_keeps {handle : Handle} {free : Group → Bool}
    (hkeeps : keeps registry call kind free handle = true) :
    handedOut registry call kind free handle = none := by
  cases htaken : handedOut registry call kind free handle with
  | none => rfl
  | some any =>
      rw [keeps_eq_false_of_handedOut htaken] at hkeeps
      cases hkeeps

/-- Where all handles of the kind have to wait, the calls leave them. -/
theorem handles_handOut_of_keeps (calls : List Kind) {memory : Memory Handle Group}
    (hkeeps : ∀ handle ∈ memory.handles kind,
      keeps registry call kind memory.canBeTakenFrom handle = true) :
    (handOut registry call calls memory).2.handles kind = memory.handles kind := by
  induction calls generalizing memory with
  | nil => rfl
  | cons other calls ih =>
      have hsame : (search registry call other memory .empty).1.handles kind =
          memory.handles kind := by
        by_cases hother : other = kind
        · subst hother
          have hnone := List.filterMap_eq_nil_iff.mpr fun handle hmem =>
            handedOut_of_keeps (hkeeps handle hmem)
          rw [search_of_none hnone]
          dsimp only
          rw [Function.update_self, List.filter_eq_self.mpr hkeeps]
        · exact search_handles_of_ne registry call hother memory
      have hstill : ∀ handle ∈ (search registry call other memory .empty).1.handles kind,
          keeps registry call kind
            (search registry call other memory .empty).1.canBeTakenFrom handle = true := by
        rw [hsame]
        exact hkeeps
      rw [handOut_cons_handles, ih hstill, hsame]

/-- Once a call for the kind has yielded nothing, only the handles that have to wait are
left. -/
theorem handles_handOut {calls : List Kind} {memory : Memory Handle Group}
    (hcalls : ((memory.handles kind).filterMap
        (handedOut registry call kind memory.canBeTakenFrom)).length < calls.count kind) :
    (handOut registry call calls memory).2.handles kind =
      (memory.handles kind).filter (keeps registry call kind memory.canBeTakenFrom) := by
  induction calls generalizing memory with
  | nil => exact absurd hcalls (Nat.not_lt_zero _)
  | cons other calls ih =>
      have hnext := @ih (search registry call other memory .empty).1
      rw [search_canBeTakenFrom, filter_search] at hnext
      rw [handOut_cons_handles]
      by_cases hother : other = kind
      · subst hother
        cases hready : (memory.handles other).filterMap
          (handedOut registry call other memory.canBeTakenFrom) with
        | nil =>
            rw [search_of_none hready, handles_handOut_of_keeps]
            · exact Function.update_self ..
            · dsimp only
              rw [Function.update_self]
              exact fun handle hmem => (List.mem_filter.mp hmem).2
        | cons any others =>
            obtain ⟨kept, hsearch, -, hrest, -⟩ := search_of_some hready
            have hleft : (search registry call other memory .empty).1.handles other = kept := by
              rw [hsearch]
              exact Function.update_self ..
            rw [hready, List.length_cons, List.count_cons_self] at hcalls
            rw [hleft, hrest] at hnext
            exact hnext (Nat.lt_of_succ_lt_succ hcalls)
      · rw [List.count_cons_of_ne hother] at hcalls
        rw [filterMap_search (.inl hother)] at hnext
        exact hnext hcalls

end Calls

section HandingOut

variable [DecidableEq Handle] [DecidableEq Entity] [DecidableEq Group]
  (existing : Existing Handle Entity Group Node) (call : Entity → Bool) (free : Group → Bool)
  (kind : Kind)

/-- The executable is that of the entity of the handle, with a group and a node that
exist; the group points to the entity and can be taken. -/
def Existing.HandsOut (handle : Handle) (any : AnyExecutable Entity Group Node) : Prop :=
  ∃ entity, existing.getByHandle kind handle = some entity ∧
    existing.alive entity = true ∧ (kind = .timer → call entity = true) ∧
    ∃ entry ∈ existing.weakGroupsToNodes, entry.groupAlive = true ∧
      entry.nodeAlive = true ∧ entity ∈ entry.ptrs kind ∧ free entry.group = true ∧
      any = ⟨Function.update (fun _ => none) kind (some entity), some entry.group,
        some entry.node, none⟩

/-- The entity of the handle, or its group, or the node of its group does not exist any
more.  The handle of a waitable is the waitable. -/
def Existing.Gone (handle : Handle) : Prop :=
  (kind ≠ .waitable ∧ ∀ entry ∈ existing.weakGroupsToNodes, entry.groupAlive = true →
    ∀ entity ∈ entry.ptrs kind, existing.alive entity = true →
      existing.handleOf entity ≠ handle) ∨
  ∃ entity, existing.getByHandle kind handle = some entity ∧
    (existing.alive entity = false ∨
      ∀ entry ∈ existing.weakGroupsToNodes, entity ∈ entry.ptrs kind →
        entry.groupAlive = false ∨ entry.nodeAlive = false)

/-- The group of the entity cannot be taken now, or the timer is cancelled. -/
def Existing.Waits (handle : Handle) : Prop :=
  ∃ entity group, existing.getByHandle kind handle = some entity ∧
    existing.getGroupBy kind entity = some group ∧
    (free group = false ∨ (kind = .timer ∧ call entity = false))

variable {existing call free kind}

theorem handsOut_of_handedOut {handle : Handle} {any : AnyExecutable Entity Group Node}
    (htaken : handedOut existing.registry call kind free handle = some any) :
    existing.HandsOut call free kind handle any := by
  obtain ⟨entity, group, hlocated, htakes, rfl⟩ := handedOut_eq_some_iff.mp htaken
  obtain ⟨hentity, hgroup⟩ := located_eq_some_iff.mp hlocated
  obtain ⟨entry, hentry, rfl, hgroupAlive, hnodeAlive, hptr, halive, hnode⟩ :=
    existing.getGroupBy_eq_some kind hgroup
  have hfree : free entry.group = true ∧ (kind = .timer → call entity = true) := by
    simpa [takes, imp_iff_not_or] using htakes
  refine ⟨entity, hentity, halive, hfree.2, entry, hentry, hgroupAlive, hnodeAlive, hptr,
    hfree.1, ?_⟩
  have hnodeOf : existing.registry.nodeOf entry.group = some entry.node := hnode
  rw [AnyExecutable.record, hnodeOf]
  rfl

theorem keeps_iff_waits {handle : Handle} :
    keeps existing.registry call kind free handle = true ↔
      existing.Waits call free kind handle := by
  rw [keeps_iff]
  refine exists₂_congr fun entity group => ?_
  rw [located_eq_some_iff, and_assoc]
  refine and_congr_right fun _ => and_congr_right fun _ => ?_
  rw [takes]
  cases free group <;> simp

theorem gone_of_located {handle : Handle}
    (hnone : located existing.registry kind handle = none) : existing.Gone kind handle := by
  cases hentity : existing.getByHandle kind handle with
  | none => exact .inl (existing.getByHandle_eq_none kind hentity)
  | some entity =>
      refine .inr ⟨entity, hentity, ?_⟩
      have hgroup : existing.getGroupBy kind entity = none := by
        have hfound : existing.registry.byHandle kind handle = some entity := hentity
        rw [located, hfound, Option.bind_some, Option.map_eq_none_iff] at hnone
        exact hnone
      cases halive : existing.alive entity with
      | false => exact .inl rfl
      | true => exact .inr (existing.getGroupBy_eq_none kind hgroup halive)

omit [DecidableEq Handle] [DecidableEq Group] in
theorem length_removeNullHandles_le (waitSet : Kind → ℕ → Bool)
    (memory : Memory Handle Group) :
    ((removeNullHandles waitSet memory).handles kind).length ≤ (memory.handles kind).length :=
  le_of_le_of_eq (List.reduceOption_length_le _) List.length_mapIdx

variable (existing call) in
/-- After `remove_null_handles`, calls for the kinds are made in any order.  Each kind
yields nothing at the latest when there have been more calls for it than handles.  When it
does, the entity of each of its handles that an entity is found for, and whose group can
be taken, has been handed out, once and in the order of the handles, with its own group
and node; a handle has only been dropped if its entity, its group or the node has gone;
and exactly the handles that have to wait are left. -/
theorem ready_handed_out_once (waitSet : Kind → ℕ → Bool) (memory : Memory Handle Group)
    (calls : List Kind) :
    let ready := removeNullHandles waitSet memory
    let done := handOut existing.registry call calls ready
    ∀ kind, ((memory.handles kind).length < calls.count kind →
        (yielded kind done.1).length < calls.count kind) ∧
      ((yielded kind done.1).length < calls.count kind →
        let out := handedOut existing.registry call kind ready.canBeTakenFrom
        let left := done.2.handles kind
        yielded kind done.1 = (ready.handles kind).filterMap out ∧
        left.Sublist (ready.handles kind) ∧
        ∀ handle ∈ ready.handles kind,
          (∀ any, out handle = some any →
            existing.HandsOut call ready.canBeTakenFrom kind handle any) ∧
          (handle ∈ left ↔ existing.Waits call ready.canBeTakenFrom kind handle) ∧
          (out handle = none → handle ∉ left → existing.Gone kind handle)) := by
  intro ready done kind
  have hyielded : yielded kind done.1 = ((ready.handles kind).filterMap (handedOut
      existing.registry call kind ready.canBeTakenFrom)).take (calls.count kind) :=
    yielded_handOut calls ready
  refine ⟨fun hcalls => ?_, fun hcalls => ?_⟩
  · calc (yielded kind done.1).length
        ≤ ((ready.handles kind).filterMap _).length := by
          rw [hyielded]
          exact List.length_take_le' _ _
      _ ≤ (ready.handles kind).length := List.length_filterMap_le _ _
      _ ≤ (memory.handles kind).length := length_removeNullHandles_le waitSet memory
      _ < calls.count kind := hcalls
  intro out left
  have hfewer : ((ready.handles kind).filterMap out).length < calls.count kind := by
    rw [hyielded, List.length_take] at hcalls
    refine Nat.lt_of_not_le fun hle => ?_
    rw [Nat.min_eq_left hle] at hcalls
    exact Nat.lt_irrefl _ hcalls
  rw [show left = _ from handles_handOut hfewer]
  refine ⟨?_, List.filter_sublist, fun handle hmem => ⟨fun any htaken =>
    handsOut_of_handedOut htaken, ?_, fun hnot hgone => ?_⟩⟩
  · rw [hyielded]
    exact List.take_of_length_le (Nat.le_of_lt hfewer)
  · rw [List.mem_filter, and_iff_right hmem]
    exact keeps_iff_waits
  · refine gone_of_located (located_eq_none_of hnot ?_)
    rw [← Bool.not_eq_true]
    exact fun hkeeps => hgone (List.mem_filter.mpr ⟨hmem, hkeeps⟩)

end HandingOut

/-- A group with a subscription, a timer and a cancelled timer. -/
def oneGroup (nodeAlive : Bool) : Existing ℕ ℕ ℕ ℕ where
  weakGroupsToNodes := [⟨7, true, 9, nodeAlive, fun kind =>
    if kind = .timer then [1, 2] else if kind = .subscription then [3] else []⟩]
  alive := fun _ => true
  handleOf := id
  waitableOf := id
  exclusive := fun _ => true
  keys := by simp

/-- The handles of `oneGroup`, whose group can be taken. -/
def oneGroupMemory : Memory ℕ ℕ where
  handles := fun kind =>
    if kind = .timer then [1, 2] else if kind = .subscription then [3] else []
  canBeTakenFrom := fun _ => true

/-- Two calls for the subscriptions, three for the timers and one for each other kind. -/
def oneGroupCalls : List Kind :=
  [.timer, .subscription, .service, .timer, .client, .subscription, .timer, .waitable]

theorem cancelled_timer_waits :
    (yielded .timer (handOut (oneGroup true).registry (fun entity => entity = 2) oneGroupCalls
      (removeNullHandles (fun _ _ => true) oneGroupMemory)).1).length = 1 ∧
    (handOut (oneGroup true).registry (fun entity => entity = 2) oneGroupCalls
      (removeNullHandles (fun _ _ => true) oneGroupMemory)).2.handles .timer = [1] ∧
    (oneGroup true).Waits (fun entity => entity = 2) (fun _ => true) .timer 1 := by
  have hcalls : (oneGroupMemory.handles .timer).length < oneGroupCalls.count .timer := by decide
  obtain ⟨hends, hdone⟩ := ready_handed_out_once (oneGroup true) (fun entity => entity = 2)
    (fun _ _ => true) oneGroupMemory oneGroupCalls .timer
  refine ⟨by decide, by decide, ?_⟩
  exact ((hdone (hends hcalls)).2.2 1 (by decide)).2.1.mp (by decide)

/-- The node of a group goes, and a handle is dropped although its entity and the group
exist. -/
theorem node_gone_drops_handle :
    ¬ ∀ (existing : Existing ℕ ℕ ℕ ℕ) (call : ℕ → Bool) (waitSet : Kind → ℕ → Bool)
      (memory : Memory ℕ ℕ) (calls : List Kind),
      let ready := removeNullHandles waitSet memory
      let done := handOut existing.registry call calls ready
      ∀ kind, (yielded kind done.1).length < calls.count kind →
        ∀ handle ∈ ready.handles kind,
          handedOut existing.registry call kind ready.canBeTakenFrom handle = none →
          handle ∉ done.2.handles kind →
          ¬ ∃ entity, existing.getByHandle kind handle = some entity ∧
            existing.alive entity = true ∧
            ∃ entry ∈ existing.weakGroupsToNodes, entry.groupAlive = true ∧
              entity ∈ entry.ptrs kind := by
  intro hclaim
  refine hclaim (oneGroup false) (fun _ => true) (fun _ _ => true) oneGroupMemory oneGroupCalls
    .subscription (by decide) 3 (by decide) rfl (by decide) ⟨3, rfl, rfl, _, .head _, rfl, ?_⟩
  decide

end RosRtems.MemoryStrategy
