import Mathlib.Data.List.AList
import Mathlib.Data.List.Sort
import RosRtems.Core.ThrowingLoop

/-!
# The executor's bookkeeping of nodes and callback groups

An executor keeps the callback groups it serves in two maps, one for the groups
added by hand and one for the groups that came with their node, and in a third map
for all of them.  A fourth map records each group's notify guard condition, which
the memory strategy lists for the wait set next to the executor's own two.  Groups
and nodes are known by their control blocks, guard conditions by their addresses.
-/

namespace RosRtems.Bookkeeping

open Function
open RosRtems.ThrowingLoop

/-- A guard condition: its address and the context it was created in. -/
structure GuardCondition where
  address : ℕ
  context : ℕ
deriving DecidableEq

structure CallbackGroup where
  alive : Bool
  automaticallyAddToExecutorWithNode : Bool
  associatedWithExecutor : Bool
  notifyGuardCondition : Option GuardCondition

structure Node where
  alive : Bool
  fullyQualifiedName : String
  context : ℕ
  associatedWithExecutor : Bool
  callbackGroups : List ℕ

/-- The two ways in which a group comes to an executor. -/
inductive Added
  | manually
  | automatically
deriving DecidableEq

abbrev NodeMap := AList fun _ : ℕ => ℕ

/-- The bookkeeping members of an executor and of its memory strategy, and the groups,
nodes and contexts that they point to.  `addedWhileValid` remembers of each group
whether the context of its node was valid when the group last came to the executor. -/
structure World where
  weakGroupsAdded : Added → NodeMap
  weakGroupsToNodes : NodeMap
  weakGroupsToGuardConditions : ℕ → Option ℕ
  weakNodes : List ℕ
  guardConditions : List ℕ
  shutdownGuardCondition : ℕ
  interruptGuardCondition : ℕ
  group : ℕ → CallbackGroup
  node : ℕ → Node
  contextIsValid : ℕ → Bool
  addedWhileValid : ℕ → Bool

section Calls

/-- A return code of `rcl` other than success, with the text of the error state. -/
inductive RclFailure
  | badAlloc
  | invalidArgument (message : String)
  | error (message : String)

/-- `throw_from_rcl_error`: the text of the exception. -/
def RclFailure.what (failure : RclFailure) (formattedPrefix : String) : String :=
  match failure with
  | .badAlloc => "std::bad_alloc"
  | .invalidArgument message => formattedPrefix ++ message
  | .error message => formattedPrefix ++ message

/-- What `rcl` answers to the calls made on behalf of one group: the creation of a notify
guard condition, the trigger of the one it replaces, and the trigger of the executor's. -/
structure Outside where
  created : Except RclFailure ℕ
  oldTriggered : Option RclFailure
  interruptTriggered : Option RclFailure

/-- The trigger of the executor's guard condition: an `RCLError` is thrown again under the
text of the operation, any other exception as it is. -/
def Outside.interrupt (outside : Outside) (notify : Bool) (operation : String) :
    Option String :=
  if notify then
    match outside.interruptTriggered with
    | none => none
    | some (.error message) => some (operation ++ message)
    | some failure => some (failure.what "")
  else none

/-- The strategy's `add_guard_condition`. -/
def addGuardCondition (guardConditions : List ℕ) (address : ℕ) : List ℕ :=
  if address ∈ guardConditions then guardConditions else guardConditions ++ [address]

/-- The strategy's `remove_guard_condition`. -/
def removeGuardCondition (guardConditions : List ℕ) (address : ℕ) : List ℕ :=
  guardConditions.erase address

def CallbackGroup.holding (group : CallbackGroup) (guardCondition : Option GuardCondition) :
    CallbackGroup :=
  { group with notifyGuardCondition := guardCondition }

/-- `CallbackGroup::get_notify_guard_condition`. -/
def CallbackGroup.getNotifyGuardCondition (group : CallbackGroup) (outside : Outside)
    (context : ℕ) : CallbackGroup × Except String ℕ :=
  let create : CallbackGroup × Except String ℕ :=
    match outside.created with
    | .error failure =>
        (group.holding none, .error (failure.what "failed to create guard condition: "))
    | .ok address => (group.holding (some ⟨address, context⟩), .ok address)
  match group.notifyGuardCondition with
  | none => create
  | some existing =>
      if existing.context = context then (group, .ok existing.address)
      else
        -- the old guard condition is triggered before it is given up
        match if group.associatedWithExecutor then outside.oldTriggered else none with
        | some failure => (group, .error (failure.what ""))
        | none => create

/-- The flag that `exchange(true)` leaves. -/
def CallbackGroup.associated (group : CallbackGroup) : CallbackGroup :=
  { group with associatedWithExecutor := true }

def CallbackGroup.dissociated (group : CallbackGroup) : CallbackGroup :=
  { group with associatedWithExecutor := false }

def World.setGroup (w : World) (g : ℕ) (group : CallbackGroup) : World :=
  { w with group := update w.group g group }

def World.setNodeAssociated (w : World) (n : ℕ) (associated : Bool) : World :=
  { w with node := update w.node n { w.node n with associatedWithExecutor := associated } }

/-- A `std::map` keeps the entry that is there. -/
def insertAbsent (map : NodeMap) (g n : ℕ) : NodeMap :=
  if g ∈ map then map else map.insert g n

/-- A group enters the map of its kind and the map of all groups. -/
def World.enter (w : World) (added : Added) (g n : ℕ) : World :=
  { w with
    weakGroupsAdded := update w.weakGroupsAdded added ((w.weakGroupsAdded added).insert g n)
    weakGroupsToNodes := insertAbsent w.weakGroupsToNodes g n
    addedWhileValid := update w.addedWhileValid g (w.contextIsValid (w.node n).context) }

/-- A group leaves the map of its kind and the map of all groups. -/
def World.leave (w : World) (added : Added) (g : ℕ) : World :=
  { w with
    weakGroupsAdded := update w.weakGroupsAdded added ((w.weakGroupsAdded added).erase g)
    weakGroupsToNodes := w.weakGroupsToNodes.erase g }

/-- A group leaves the maps and loses its flag. -/
def World.drop (w : World) (added : Added) (g : ℕ) : World :=
  (w.leave added g).setGroup g (w.group g).dissociated

/-- A group's guard condition is recorded and listed. -/
def World.watch (w : World) (g address : ℕ) : World :=
  { w with
    weakGroupsToGuardConditions := update w.weakGroupsToGuardConditions g (some address)
    guardConditions := addGuardCondition w.guardConditions address }

/-- The guard condition recorded for a group, if any, is taken off the list. -/
def World.unwatch (w : World) (g : ℕ) : World :=
  { w with
    weakGroupsToGuardConditions := update w.weakGroupsToGuardConditions g none
    guardConditions :=
      match w.weakGroupsToGuardConditions g with
      | none => w.guardConditions
      | some address => removeGuardCondition w.guardConditions address }

/-- `Executor::add_callback_group_to_map`. -/
def addCallbackGroupToMap (w : World) (outside : Outside) (added : Added) (g n : ℕ)
    (notify : Bool) : World × Option String :=
  if (w.group g).associatedWithExecutor then
    (w, some "Callback group has already been added to an executor.")
  else
    let group := (w.group g).associated
    if g ∈ w.weakGroupsAdded added then
      (w.setGroup g group, some "Callback group was already added to executor.")
    else
      let entered := (w.setGroup g group).enter added g n
      let context := (w.node n).context
      let interrupted :=
        outside.interrupt notify "Failed to trigger guard condition on callback group add: "
      if w.contextIsValid context then
        match group.getNotifyGuardCondition outside context with
        | (held, .error what) => (entered.setGroup g held, some what)
        | (held, .ok address) => ((entered.setGroup g held).watch g address, interrupted)
      else (entered, interrupted)

/-- What a weak pointer to a node locks. -/
def World.lockNode (w : World) (entry : Option ℕ) : Option ℕ :=
  entry.filter fun n => (w.node n).alive

/-- `Executor::has_node`. -/
def World.hasNode (w : World) (added : Added) (n : ℕ) : Bool :=
  (w.weakGroupsAdded added).keys.any fun g =>
    w.lockNode ((w.weakGroupsAdded added).lookup g) = some n

/-- `Executor::remove_callback_group_from_map`; the pointer to the group may be null. -/
def removeCallbackGroupFromMap (w : World) (outside : Outside) (added : Added)
    (groupPtr : Option ℕ) (notify : Bool) : World × Option String :=
  match groupPtr with
  | none => (w, some "Callback group needs to be associated with executor.")
  | some g =>
      match (w.weakGroupsAdded added).lookup g with
      | none => (w, some "Callback group needs to be associated with executor.")
      | some n =>
          if (w.node n).alive then
            let removed := w.drop added g
            if !removed.hasNode .automatically n && !removed.hasNode .manually n then
              (removed.unwatch g,
                outside.interrupt notify
                  "Failed to trigger guard condition on callback group remove: ")
            else (removed, none)
          else (w, some "Node must not be deleted before its callback group(s).")

end Calls

section Operations

/-- `Executor::add_callback_group`. -/
def addCallbackGroup (w : World) (outside : Outside) (g n : ℕ) (notify : Bool) :
    World × Option String :=
  addCallbackGroupToMap w outside .manually g n notify

/-- `Executor::remove_callback_group`. -/
def removeCallbackGroup (w : World) (outside : Outside) (g : ℕ) (notify : Bool) :
    World × Option String :=
  removeCallbackGroupFromMap w outside .manually (some g) notify

/-- The step that `add_node` and `wait_for_work` take for each group of a node: a live
group that asks for it and has no executor is added. -/
def addFreeGroup (outside : ℕ → Outside) (n : ℕ) (notify : Bool) (w : World) (g : ℕ) :
    World × Option String :=
  if (w.group g).alive && !(w.group g).associatedWithExecutor &&
      (w.group g).automaticallyAddToExecutorWithNode then
    addCallbackGroupToMap w (outside g) .automatically g n notify
  else (w, none)

/-- `Executor::add_node`. -/
def addNode (w : World) (outside : ℕ → Outside) (n : ℕ) (notify : Bool) :
    World × Option String :=
  if (w.node n).associatedWithExecutor then
    (w, some ("Node '" ++ (w.node n).fullyQualifiedName ++
      "' has already been added to an executor."))
  else
    match forEach (addFreeGroup outside n notify) (w.node n).callbackGroups
        (w.setNodeAssociated n true) with
    | (joined, some what) => (joined, some what)
    | (joined, none) => ({ joined with weakNodes := joined.weakNodes ++ [n] }, none)

/-- The keys of a map in the order of its iterator. -/
def sortedKeys (map : NodeMap) : List ℕ :=
  map.keys.insertionSort (· ≤ ·)

/-- What a weak pointer to a group locks. -/
def World.lockGroup (w : World) (g : ℕ) : Option ℕ :=
  if (w.group g).alive then some g else none

/-- The step that `remove_node` takes for each entry of the automatically added groups. -/
def removeGroupOfNode (outside : ℕ → Outside) (n : ℕ) (notify : Bool) (w : World) (g : ℕ) :
    World × Option String :=
  if w.lockNode ((w.weakGroupsAdded .automatically).lookup g) = some n then
    removeCallbackGroupFromMap w (outside g) .automatically (w.lockGroup g) notify
  else (w, none)

/-- Whether the executor's list of nodes leads to the node. -/
def World.listsNode (w : World) (n : ℕ) : Bool :=
  w.weakNodes.any fun m => w.lockNode (some m) = some n

def World.unlistNode (w : World) (n : ℕ) : World :=
  { w with weakNodes := w.weakNodes.filter fun m => w.lockNode (some m) ≠ some n }

/-- `Executor::remove_node`. -/
def removeNode (w : World) (outside : ℕ → Outside) (n : ℕ) (notify : Bool) :
    World × Option String :=
  if !(w.node n).associatedWithExecutor then
    (w, some "Node needs to be associated with an executor.")
  else if w.listsNode n then
    match forEach (removeGroupOfNode outside n notify)
        (sortedKeys (w.weakGroupsAdded .automatically)) (w.unlistNode n) with
    | (left, some what) => (left, some what)
    | (left, none) => (left.setNodeAssociated n false, none)
  else (w.unlistNode n, some "Node needs to be associated with this executor.")

/-- The step that `add_callback_groups_from_nodes_associated_to_executor` takes for each
node of the executor. -/
def addFreeGroupsOfNode (outside : ℕ → Outside) (w : World) (n : ℕ) :
    World × Option String :=
  if (w.node n).alive then
    forEach (addFreeGroup outside n true) (w.node n).callbackGroups w
  else (w, none)

/-- An entry of which the group or the node is gone. -/
def World.invalidEntry (w : World) (g : ℕ) : Bool :=
  !(w.group g).alive || (w.lockNode (w.weakGroupsToNodes.lookup g)).isNone

/-- The removal of one invalid group, from whichever map has it. -/
def removeInvalidGroup (w : World) (g : ℕ) : World :=
  { w with
    weakGroupsAdded := fun added => (w.weakGroupsAdded added).erase g
    weakGroupsToNodes := w.weakGroupsToNodes.erase g }.unwatch g

/-- The part of `Executor::wait_for_work` that keeps the books; `failure` is the text of an
exception of the wait set, which it fills afterwards. -/
def waitForWork (w : World) (outside : ℕ → Outside) (failure : Option String) :
    World × Option String :=
  match forEach (addFreeGroupsOfNode outside) w.weakNodes w with
  | (joined, some what) => (joined, some what)
  | (joined, none) =>
      let invalidGroups := (sortedKeys joined.weakGroupsToNodes).filter joined.invalidEntry
      (invalidGroups.foldl removeInvalidGroup joined, failure)

/-- The operations on an executor, and what else befalls the groups, nodes and contexts
it points to: they expire, are created and change, by other executors too. -/
inductive Operation
  | addNode (n : ℕ) (notify : Bool)
  | removeNode (n : ℕ) (notify : Bool)
  | addCallbackGroup (g n : ℕ) (notify : Bool)
  | removeCallbackGroup (g : ℕ) (notify : Bool)
  | waitForWork (failure : Option String)
  | expireGroup (g : ℕ)
  | expireNode (n : ℕ)
  | createCallbackGroup (n g : ℕ) (automatically : Bool)
  | changeContext (context : ℕ) (valid : Bool)
  | changeGroupElsewhere (g : ℕ) (associated : Bool)
      (notifyGuardCondition : Option GuardCondition)
  | changeNodeElsewhere (n : ℕ) (associated : Bool)

/-- An operation together with the answers of `rcl` to its calls for each group. -/
structure Call where
  operation : Operation
  outside : ℕ → Outside

/-- The caller of a method holds what it passes; a new group is at no control block that
the executor still points to; another executor changes no group or node of this one. -/
def Enabled (w : World) : Operation → Prop
  | .addNode n _ => (w.node n).alive = true
  | .removeNode n _ => (w.node n).alive = true
  | .addCallbackGroup g n _ => (w.group g).alive = true ∧ (w.node n).alive = true
  | .removeCallbackGroup g _ => (w.group g).alive = true
  | .createCallbackGroup n g _ =>
      (w.node n).alive = true ∧ g ∉ w.weakGroupsToNodes ∧
        w.weakGroupsToGuardConditions g = none
  | .changeGroupElsewhere g _ _ => g ∉ w.weakGroupsToNodes
  | .changeNodeElsewhere n _ => n ∉ w.weakNodes
  | .waitForWork _ => True
  | .expireGroup _ => True
  | .expireNode _ => True
  | .changeContext _ _ => True

def perform (w : World) (call : Call) : World :=
  match call.operation with
  | .addNode n notify => (addNode w call.outside n notify).1
  | .removeNode n notify => (removeNode w call.outside n notify).1
  | .addCallbackGroup g n notify => (addCallbackGroup w (call.outside g) g n notify).1
  | .removeCallbackGroup g notify => (removeCallbackGroup w (call.outside g) g notify).1
  | .waitForWork failure => (waitForWork w call.outside failure).1
  | .expireGroup g => w.setGroup g { w.group g with alive := false }
  | .expireNode n => { w with node := update w.node n { w.node n with alive := false } }
  | .createCallbackGroup n g automatically =>
      { w.setGroup g ⟨true, automatically, false, none⟩ with
        node := update w.node n
          { w.node n with callbackGroups := (w.node n).callbackGroups ++ [g] } }
  | .changeContext context valid =>
      { w with contextIsValid := update w.contextIsValid context valid }
  | .changeGroupElsewhere g associated notifyGuardCondition =>
      w.setGroup g { w.group g with
        associatedWithExecutor := associated
        notifyGuardCondition := notifyGuardCondition }
  | .changeNodeElsewhere n associated => w.setNodeAssociated n associated

/-- One operation, or one event around the executor. -/
def Step (w : World) (call : Call) (after : World) : Prop :=
  Enabled w call.operation ∧ after = perform w call

/-- An executor as its constructor leaves it. -/
structure Constructed (w : World) : Prop where
  noGroups : ∀ added, w.weakGroupsAdded added = ∅
  noGroup : w.weakGroupsToNodes = ∅
  noGuardCondition : ∀ g, w.weakGroupsToGuardConditions g = none
  noNode : w.weakNodes = []
  ownGuardConditions : w.guardConditions = [w.shutdownGuardCondition, w.interruptGuardCondition]
  distinct : w.shutdownGuardCondition ≠ w.interruptGuardCondition

end Operations

section Outcomes

variable {w : World} {outside : Outside} {added : Added} {g n context : ℕ} {notify : Bool}

/-- A returned guard condition is the one that the group holds from then on. -/
theorem getNotifyGuardCondition_ok {group : CallbackGroup} {address : ℕ}
    (hok : (group.getNotifyGuardCondition outside context).2 = .ok address) :
    (group.getNotifyGuardCondition outside context).1 =
      group.holding (some ⟨address, context⟩) := by
  simp only [CallbackGroup.getNotifyGuardCondition] at hok ⊢
  cases hnotify : group.notifyGuardCondition with
  | none =>
      simp only [hnotify] at hok ⊢
      cases hcreated : outside.created with
      | error failure => simp [hcreated] at hok
      | ok created => simp_all
  | some existing =>
      simp only [hnotify] at hok ⊢
      split at hok
      · rename_i hsame
        cases hok
        rw [if_pos hsame, ← hsame, ← hnotify]
        rfl
      · rename_i hother
        rw [if_neg hother]
        split at hok
        · cases hok
        · cases hcreated : outside.created with
          | error failure => simp [hcreated] at hok
          | ok created => simp_all

/-- Whatever the call does, it changes nothing of the group but its guard condition. -/
theorem getNotifyGuardCondition_group (group : CallbackGroup) (outside : Outside)
    (context : ℕ) :
    ∃ guardCondition, (group.getNotifyGuardCondition outside context).1 =
      group.holding guardCondition := by
  simp only [CallbackGroup.getNotifyGuardCondition]
  cases hnotify : group.notifyGuardCondition with
  | none => cases outside.created <;> exact ⟨_, rfl⟩
  | some existing =>
      simp only
      split
      · exact ⟨group.notifyGuardCondition, rfl⟩
      · split
        · exact ⟨group.notifyGuardCondition, rfl⟩
        · cases outside.created <;> exact ⟨_, rfl⟩

theorem addCallbackGroupToMap_of_associated
    (hflag : (w.group g).associatedWithExecutor = true) :
    addCallbackGroupToMap w outside added g n notify =
      (w, some "Callback group has already been added to an executor.") := by
  simp only [addCallbackGroupToMap, hflag, if_true]

variable (outside added n notify) in
/-- What becomes of a group that has no executor: it enters the maps, and where the
context of its node is valid, its guard condition is obtained and watched. -/
theorem addCallbackGroupToMap_cases
    (hfree : (w.group g).associatedWithExecutor = false)
    (habsent : g ∉ w.weakGroupsAdded added) :
    (w.contextIsValid (w.node n).context = false ∧
      addCallbackGroupToMap w outside added g n notify =
        ((w.setGroup g (w.group g).associated).enter added g n, outside.interrupt notify
          "Failed to trigger guard condition on callback group add: ")) ∨
    (w.contextIsValid (w.node n).context = true ∧ ∃ guardCondition what,
      ((w.group g).associated.getNotifyGuardCondition outside (w.node n).context).2 =
        .error what ∧
      addCallbackGroupToMap w outside added g n notify =
        ((w.setGroup g ((w.group g).associated.holding guardCondition)).enter added g n,
          some what)) ∨
    (w.contextIsValid (w.node n).context = true ∧ ∃ address,
      ((w.group g).associated.getNotifyGuardCondition outside (w.node n).context).2 =
        .ok address ∧
      addCallbackGroupToMap w outside added g n notify =
        (((w.setGroup g ((w.group g).associated.holding
            (some ⟨address, (w.node n).context⟩))).enter added g n).watch g address,
          outside.interrupt notify
            "Failed to trigger guard condition on callback group add: ")) := by
  have hagain : ∀ held : CallbackGroup,
      ((w.setGroup g (w.group g).associated).enter added g n).setGroup g held =
        (w.setGroup g held).enter added g n := by
    intro held
    simp [World.setGroup, World.enter]
  simp only [addCallbackGroupToMap, hfree, Bool.false_eq_true, if_false, habsent]
  cases hvalid : w.contextIsValid (w.node n).context with
  | false => exact .inl ⟨rfl, rfl⟩
  | true =>
      right
      have hheld := getNotifyGuardCondition_group (w.group g).associated outside
        (w.node n).context
      rcases hget : (w.group g).associated.getNotifyGuardCondition outside
        (w.node n).context with ⟨held, what | address⟩
      · left
        rw [hget] at hheld
        obtain ⟨guardCondition, rfl⟩ := hheld
        exact ⟨rfl, guardCondition, what, rfl, by simp only [if_true, hagain]⟩
      · right
        have hok := getNotifyGuardCondition_ok (congrArg Prod.snd hget)
        rw [hget] at hok
        obtain rfl := hok
        exact ⟨rfl, address, rfl, by simp only [if_true, hagain]⟩

variable (outside added notify) in
/-- What becomes of the group that a pointer leads to: a pointer to no group of the map is
refused, and so is a group of a node that is gone; any other group leaves the maps, and
its guard condition goes with the last group of the node only. -/
theorem removeCallbackGroupFromMap_cases (w : World) (groupPtr : Option ℕ) :
    ((∀ g n, groupPtr = some g → (w.weakGroupsAdded added).lookup g = some n →
        (w.node n).alive = false) ∧
      ∃ what, removeCallbackGroupFromMap w outside added groupPtr notify = (w, some what)) ∨
    ∃ g n, groupPtr = some g ∧ (w.weakGroupsAdded added).lookup g = some n ∧
      (w.node n).alive = true ∧
      (((w.drop added g).hasNode .automatically n = true ∨
          (w.drop added g).hasNode .manually n = true) ∧
        removeCallbackGroupFromMap w outside added groupPtr notify = (w.drop added g, none) ∨
      ((w.drop added g).hasNode .automatically n = false ∧
          (w.drop added g).hasNode .manually n = false) ∧
        removeCallbackGroupFromMap w outside added groupPtr notify =
          ((w.drop added g).unwatch g, outside.interrupt notify
            "Failed to trigger guard condition on callback group remove: ")) := by
  cases groupPtr with
  | none =>
      left
      exact ⟨fun g n hptr => absurd hptr (Option.some_ne_none g).symm, _, rfl⟩
  | some g =>
      cases hentry : (w.weakGroupsAdded added).lookup g with
      | none =>
          left
          refine ⟨fun h n hptr hlookup => ?_,
            "Callback group needs to be associated with executor.", ?_⟩
          · cases hptr
            rw [hentry] at hlookup
            cases hlookup
          · simp only [removeCallbackGroupFromMap, hentry]
      | some n =>
          cases halive : (w.node n).alive with
          | false =>
              left
              refine ⟨fun h m hptr hlookup => ?_,
                "Node must not be deleted before its callback group(s).", ?_⟩
              · cases hptr
                rw [hentry] at hlookup
                cases hlookup
                exact halive
              · simp only [removeCallbackGroupFromMap, hentry, halive, Bool.false_eq_true,
                  if_false]
          | true =>
              right
              refine ⟨g, n, rfl, hentry, halive, ?_⟩
              simp only [removeCallbackGroupFromMap, hentry, halive, if_true]
              cases (w.drop added g).hasNode .automatically n <;>
                cases (w.drop added g).hasNode .manually n <;> simp

/-- What an addition leaves alone. -/
structure SameNodes (before after : World) : Prop where
  node : after.node = before.node
  weakNodes : after.weakNodes = before.weakNodes
  contextIsValid : after.contextIsValid = before.contextIsValid

theorem SameNodes.refl (w : World) : SameNodes w w := ⟨rfl, rfl, rfl⟩

theorem SameNodes.trans {first second third : World} (hfirst : SameNodes first second)
    (hsecond : SameNodes second third) : SameNodes first third :=
  ⟨hsecond.node.trans hfirst.node, hsecond.weakNodes.trans hfirst.weakNodes,
    hsecond.contextIsValid.trans hfirst.contextIsValid⟩

variable (w outside added g n notify) in
theorem addCallbackGroupToMap_nodes :
    SameNodes w (addCallbackGroupToMap w outside added g n notify).1 := by
  simp only [addCallbackGroupToMap]
  split
  · exact .refl w
  · split
    · exact ⟨rfl, rfl, rfl⟩
    · split
      · split <;> exact ⟨rfl, rfl, rfl⟩
      · exact ⟨rfl, rfl, rfl⟩

variable (w outside added notify) in
theorem removeCallbackGroupFromMap_nodes (groupPtr : Option ℕ) :
    SameNodes w (removeCallbackGroupFromMap w outside added groupPtr notify).1 := by
  rcases removeCallbackGroupFromMap_cases outside added notify w groupPtr with
    ⟨-, what, hcall⟩ | ⟨g, n, -, -, -, ⟨-, hcall⟩ | ⟨-, hcall⟩⟩
  all_goals
    rw [hcall]
    exact ⟨rfl, rfl, rfl⟩

variable (w n notify g) in
theorem addFreeGroup_nodes (outside : ℕ → Outside) :
    SameNodes w (addFreeGroup outside n notify w g).1 := by
  rw [addFreeGroup]
  split
  · exact addCallbackGroupToMap_nodes w _ _ g n notify
  · exact .refl w

variable (w n notify g) in
theorem removeGroupOfNode_nodes (outside : ℕ → Outside) :
    SameNodes w (removeGroupOfNode outside n notify w g).1 := by
  rw [removeGroupOfNode]
  split
  · exact removeCallbackGroupFromMap_nodes w _ _ notify _
  · exact .refl w

variable (w n notify) in
/-- An addition of a node that is not refused comes to the end of its loop and lists the
node, or it ends with the exception of the loop. -/
theorem addNode_cases (outside : ℕ → Outside)
    (hflag : (w.node n).associatedWithExecutor = false) :
    let loop := forEach (addFreeGroup outside n notify) (w.node n).callbackGroups
      (w.setNodeAssociated n true)
    (loop.2 = none ∧ addNode w outside n notify =
      ({ loop.1 with weakNodes := loop.1.weakNodes ++ [n] }, none)) ∨
    ∃ what, loop.2 = some what ∧ addNode w outside n notify = (loop.1, some what) := by
  intro loop
  rw [addNode, if_neg (by simp [hflag])]
  rcases hloop : forEach (addFreeGroup outside n notify) (w.node n).callbackGroups
    (w.setNodeAssociated n true) with ⟨joined, what | what⟩
  · left
    simp only [loop, hloop, and_self]
  · right
    exact ⟨what, by simp only [loop, hloop], by simp only [loop, hloop]⟩

variable (w n notify) in
/-- A removal of a node that the executor has comes to the end of its loop and resets the
flag, or it ends with the exception of the loop. -/
theorem removeNode_cases (outside : ℕ → Outside)
    (hflag : (w.node n).associatedWithExecutor = true) (hlists : w.listsNode n = true) :
    let loop := forEach (removeGroupOfNode outside n notify)
      (sortedKeys (w.weakGroupsAdded .automatically)) (w.unlistNode n)
    (loop.2 = none ∧ removeNode w outside n notify =
      (loop.1.setNodeAssociated n false, none)) ∨
    ∃ what, loop.2 = some what ∧ removeNode w outside n notify = (loop.1, some what) := by
  intro loop
  rw [removeNode, if_neg (by simp [hflag]), if_pos hlists]
  rcases hloop : forEach (removeGroupOfNode outside n notify)
    (sortedKeys (w.weakGroupsAdded .automatically)) (w.unlistNode n) with ⟨left, what | what⟩
  · left
    simp only [loop, hloop, and_self]
  · right
    exact ⟨what, by simp only [loop, hloop], by simp only [loop, hloop]⟩

variable (w) in
/-- The books after `wait_for_work`: the free groups are added, and the invalid ones are
removed if no call for a free group threw. -/
theorem waitForWork_cases (outside : ℕ → Outside) (failure : Option String) :
    let loop := forEach (addFreeGroupsOfNode outside) w.weakNodes w
    (loop.2 = none ∧ (waitForWork w outside failure).1 =
      ((sortedKeys loop.1.weakGroupsToNodes).filter loop.1.invalidEntry).foldl
        removeInvalidGroup loop.1) ∨
    (waitForWork w outside failure).1 = loop.1 := by
  intro loop
  rw [waitForWork]
  rcases hloop : forEach (addFreeGroupsOfNode outside) w.weakNodes w with ⟨joined, what | what⟩
  · left
    simp only [loop, hloop, and_self]
  · right
    simp only [loop, hloop]

end Outcomes

section Lookups

theorem mem_iff_lookup {map : NodeMap} {g : ℕ} : g ∈ map ↔ ∃ n, map.lookup g = some n := by
  rw [← AList.lookup_isSome, Option.isSome_iff_exists]

variable (w : World) (added kind : Added) (g h n : ℕ)

theorem lockNode_eq_some_iff (entry : Option ℕ) :
    w.lockNode entry = some n ↔ entry = some n ∧ (w.node n).alive = true := by
  simp [World.lockNode, Option.filter_eq_some_iff]

theorem hasNode_iff :
    w.hasNode added n = true ↔
      (w.node n).alive = true ∧ ∃ g, (w.weakGroupsAdded added).lookup g = some n := by
  simp only [World.hasNode, List.any_eq_true, decide_eq_true_eq, lockNode_eq_some_iff]
  constructor
  · rintro ⟨g, -, hentry, halive⟩
    exact ⟨halive, g, hentry⟩
  · rintro ⟨halive, g, hentry⟩
    have hmem : g ∈ w.weakGroupsAdded added :=
      AList.lookup_isSome.mp (Option.isSome_of_eq_some hentry)
    exact ⟨g, AList.mem_keys.mp hmem, hentry, halive⟩

theorem lookup_enter :
    ((w.enter added g n).weakGroupsAdded kind).lookup h =
      if kind = added ∧ h = g then some n else (w.weakGroupsAdded kind).lookup h := by
  by_cases hkind : kind = added
  · subst hkind
    by_cases hsame : h = g
    · subst hsame
      simp [World.enter]
    · simp [World.enter, hsame]
  · simp [World.enter, hkind]

theorem lookup_enter_all (habsent : g ∉ w.weakGroupsToNodes) :
    (w.enter added g n).weakGroupsToNodes.lookup h =
      if h = g then some n else w.weakGroupsToNodes.lookup h := by
  simp only [World.enter, insertAbsent, if_neg habsent]
  by_cases hsame : h = g
  · subst hsame
    simp
  · simp [hsame]

theorem lookup_leave :
    ((w.leave added g).weakGroupsAdded kind).lookup h =
      if kind = added ∧ h = g then none else (w.weakGroupsAdded kind).lookup h := by
  by_cases hkind : kind = added
  · subst hkind
    by_cases hsame : h = g
    · subst hsame
      simp [World.leave]
    · simp [World.leave, hsame]
  · simp [World.leave, hkind]

theorem lookup_leave_all :
    (w.leave added g).weakGroupsToNodes.lookup h =
      if h = g then none else w.weakGroupsToNodes.lookup h := by
  by_cases hsame : h = g
  · subst hsame
    simp [World.leave]
  · simp [World.leave, hsame]

theorem mem_leave_all :
    h ∈ (w.leave added g).weakGroupsToNodes ↔ h ≠ g ∧ h ∈ w.weakGroupsToNodes :=
  AList.mem_erase

theorem mem_addGuardCondition {guardConditions : List ℕ} {address : ℕ} (other : ℕ)
    (hmem : address ∈ guardConditions) : address ∈ addGuardCondition guardConditions other := by
  rw [addGuardCondition]
  split
  · exact hmem
  · exact List.mem_append_left _ hmem

theorem mem_addGuardCondition_self (guardConditions : List ℕ) (address : ℕ) :
    address ∈ addGuardCondition guardConditions address := by
  rw [addGuardCondition]
  split
  · assumption
  · exact List.mem_append_right _ (List.mem_singleton.mpr rfl)

end Lookups

end RosRtems.Bookkeeping
