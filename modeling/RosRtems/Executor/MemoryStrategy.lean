import Mathlib.Logic.Function.Basic

/-!
# The selection of the base executor

A wait leaves the memory strategy with the handles of the entities that are ready, kind by
kind.  The executor takes the first entity whose group can be taken from, timers before
the other kinds, and marks its group as taken if this is mutually exclusive.
-/

namespace RosRtems.MemoryStrategy

variable {Handle Entity Group Node : Type*}

inductive Kind
  | timer
  | subscription
  | service
  | client
  | waitable
  deriving DecidableEq

/-- The kinds in the order in which they are searched. -/
def Kind.all : List Kind := [.timer, .subscription, .service, .client, .waitable]

theorem Kind.mem_all (kind : Kind) : kind ∈ Kind.all := by
  cases kind <;> decide

/-- `AnyExecutable`, with its pointers named by the kinds.  `data` names the waitable
whose data has been taken. -/
structure AnyExecutable (Entity Group Node : Type*) where
  pointer : Kind → Option Entity
  callbackGroup : Option Group
  nodeBase : Option Node
  data : Option Entity

def AnyExecutable.empty : AnyExecutable Entity Group Node where
  pointer := fun _ => none
  callbackGroup := none
  nodeBase := none
  data := none

/-- A waitable that is to be executed gives its data. -/
def AnyExecutable.takeData (any : AnyExecutable Entity Group Node) (kind : Kind) :
    AnyExecutable Entity Group Node :=
  if kind = .waitable then { any with data := any.pointer .waitable } else any

/-- What the memory strategy looks up: the entities by their handles, the groups of the
entities, which are groups of `weak_groups_to_nodes`, and the nodes of these. -/
structure Registry (Handle Entity Group Node : Type*) where
  byHandle : Kind → Handle → Option Entity
  groupOf : Kind → Entity → Option Group
  nodeOf : Group → Option Node
  exclusive : Group → Bool
  mapped : ∀ kind entity group, groupOf kind entity = some group → nodeOf group ≠ none

/-- The handles that a wait has left, and the flags of the groups. -/
structure Memory (Handle Group : Type*) where
  handles : Kind → List Handle
  canBeTakenFrom : Group → Bool

section Selection

variable (registry : Registry Handle Entity Group Node)

def AnyExecutable.record (any : AnyExecutable Entity Group Node) (kind : Kind)
    (entity : Entity) (group : Group) : AnyExecutable Entity Group Node :=
  { any with
    pointer := Function.update any.pointer kind (some entity)
    callbackGroup := some group
    nodeBase := registry.nodeOf group }

/-- The loop of `get_next_timer` and its siblings.  Handles without an entity or a group
are erased, and so is the handle of the entity that is taken.  A timer is only taken when
`call` succeeds. -/
def getNext (call : Entity → Bool) (free : Group → Bool) (kind : Kind) :
    List Handle → AnyExecutable Entity Group Node →
      List Handle × AnyExecutable Entity Group Node
  | [], any => ([], any)
  | handle :: rest, any =>
      match registry.byHandle kind handle with
      | none => getNext call free kind rest any
      | some entity =>
          match registry.groupOf kind entity with
          | none => getNext call free kind rest any
          | some group =>
              if free group ∧ (kind = .timer → call entity) then
                (rest, any.record registry kind entity group)
              else
                let (kept, found) := getNext call free kind rest any
                (handle :: kept, found)

def search (call : Entity → Bool) (kind : Kind) (memory : Memory Handle Group)
    (any : AnyExecutable Entity Group Node) :
    Memory Handle Group × AnyExecutable Entity Group Node :=
  let (kept, found) :=
    getNext registry call memory.canBeTakenFrom kind (memory.handles kind) any
  ({ memory with handles := Function.update memory.handles kind kept }, found)

/-- The first kind with an entity is taken. -/
def selectFirst (search : Kind → Memory Handle Group → AnyExecutable Entity Group Node →
    Memory Handle Group × AnyExecutable Entity Group Node) :
    List Kind → Memory Handle Group → AnyExecutable Entity Group Node →
      Bool × AnyExecutable Entity Group Node × Memory Handle Group
  | [], memory, any => (false, any, memory)
  | kind :: rest, memory, any =>
      let (memory, found) := search kind memory any
      match found.pointer kind with
      | some _ => (true, found.takeData kind, memory)
      | none => selectFirst search rest memory found

variable [DecidableEq Group]

/-- A mutually exclusive group is marked as taken. -/
def markTaken (memory : Memory Handle Group) (group : Group) : Memory Handle Group :=
  if registry.exclusive group then
    { memory with canBeTakenFrom := Function.update memory.canBeTakenFrom group false }
  else memory

/-- The end of `get_next_ready_executable_from_map`: the group has to be one of
`weak_groups_to_nodes`, and is marked. -/
def markSelected :
    Bool × AnyExecutable Entity Group Node × Memory Handle Group →
      Bool × AnyExecutable Entity Group Node × Memory Handle Group
  | (success, any, memory) =>
      match success, any.callbackGroup with
      | true, some group =>
          if (registry.nodeOf group).isSome then (true, any, markTaken registry memory group)
          else (false, any, memory)
      | _, _ => (false, any, memory)

def getNextReadyExecutableFromMap (call : Entity → Bool) (memory : Memory Handle Group)
    (any : AnyExecutable Entity Group Node) :
    Bool × AnyExecutable Entity Group Node × Memory Handle Group :=
  markSelected registry (selectFirst (search registry call) Kind.all memory any)

end Selection

/-! ## What a selection returns -/

section Outcome

variable (registry : Registry Handle Entity Group Node) (call : Entity → Bool)
  {any : AnyExecutable Entity Group Node}

/-- A search records an entity whose group is free, or nothing. -/
theorem getNext_cases (free : Group → Bool) (kind : Kind) (handles : List Handle)
    (any : AnyExecutable Entity Group Node) :
    (getNext registry call free kind handles any).2 = any ∨
      ∃ entity group, registry.groupOf kind entity = some group ∧ free group = true ∧
        (getNext registry call free kind handles any).2 =
          any.record registry kind entity group := by
  induction handles with
  | nil => exact .inl rfl
  | cons handle rest ih =>
      rw [getNext]
      split
      · exact ih
      · rename_i entity hentity
        split
        · exact ih
        · rename_i group hgroup
          split
          · rename_i htaken
            exact .inr ⟨entity, group, hgroup, htaken.1, rfl⟩
          · exact ih

/-- The selection finds an entity of a free group, or leaves the executable as it was. -/
theorem selectFirst_cases (hnone : ∀ kind, any.pointer kind = none) (kinds : List Kind)
    (memory : Memory Handle Group) :
    (∃ kept, selectFirst (search registry call) kinds memory any =
        (false, any, ⟨kept, memory.canBeTakenFrom⟩)) ∨
      ∃ kept kind entity group, registry.groupOf kind entity = some group ∧
        memory.canBeTakenFrom group = true ∧
        selectFirst (search registry call) kinds memory any =
          (true, (any.record registry kind entity group).takeData kind,
            ⟨kept, memory.canBeTakenFrom⟩) := by
  induction kinds generalizing memory with
  | nil => exact .inl ⟨memory.handles, rfl⟩
  | cons kind kinds ih =>
      simp only [selectFirst, search]
      rcases getNext_cases registry call memory.canBeTakenFrom kind (memory.handles kind) any with
        hmissed | ⟨entity, group, hgroup, hfree, hfound⟩
      · rw [hmissed, hnone kind]
        exact ih ⟨Function.update memory.handles kind _, memory.canBeTakenFrom⟩
      · have hpointer : (any.record registry kind entity group).pointer kind = some entity :=
          Function.update_self _ _ _
        rw [hfound, hpointer]
        exact .inr ⟨_, kind, entity, group, hgroup, hfree, rfl⟩

/-- The executor takes an executable of a free group and marks it where it is exclusive,
or leaves the flags and the executable as they were. -/
theorem getNextReadyExecutableFromMap_cases [DecidableEq Group]
    (hnone : ∀ kind, any.pointer kind = none) (memory : Memory Handle Group) :
    (∃ kept, getNextReadyExecutableFromMap registry call memory any =
        (false, any, ⟨kept, memory.canBeTakenFrom⟩)) ∨
      ∃ kept found group, found.callbackGroup = some group ∧
        memory.canBeTakenFrom group = true ∧
        getNextReadyExecutableFromMap registry call memory any =
          (true, found,
            ⟨kept, if registry.exclusive group then
              Function.update memory.canBeTakenFrom group false else memory.canBeTakenFrom⟩) := by
  rw [getNextReadyExecutableFromMap]
  rcases selectFirst_cases registry call hnone Kind.all memory with
    ⟨kept, hselect⟩ | ⟨kept, kind, entity, group, hgroup, hfree, hselect⟩
  · rw [hselect]
    exact .inl ⟨kept, rfl⟩
  · have hrecorded : ((any.record registry kind entity group).takeData kind).callbackGroup =
        some group := by
      rw [AnyExecutable.takeData]
      split <;> rfl
    have hmapped : (registry.nodeOf group).isSome = true :=
      Option.isSome_iff_ne_none.mpr (registry.mapped kind entity group hgroup)
    refine .inr ⟨kept, _, group, hrecorded, hfree, ?_⟩
    rw [hselect]
    simp only [markSelected, hrecorded, hmapped, if_true, markTaken]
    split <;> rfl

end Outcome

end RosRtems.MemoryStrategy
