import RosRtems.NoExecutor.TimerSignals

/-!
# The registrations of the nodes

`add_node` binds a handler into the slot of every subscription, service, client and
waitable of the node, and adds its timers to a list.  `remove_node` empties the slots
and leaves the list, so that the executor serves exactly its nodes as long as no node
with timers is removed.
-/

namespace RosRtems.NoExecutor

open RosRtems.Runs

variable {Node Group Entity : Type*}

/-! ## The entities of the nodes -/

/-- A subscription, and the waitable that receives its messages from the same process,
where it has one. -/
structure SubscriptionEntity (Entity : Type*) where
  subscription : Entity
  intraProcess : Option Entity

/-- A callback group with its entities, and with the periods of its timers. -/
structure GroupEntities (Group Entity : Type*) where
  group : Group
  subscriptions : List (SubscriptionEntity Entity)
  services : List Entity
  clients : List Entity
  timers : List (Entity × ℕ)
  waitables : List Entity

/-- A handler, and the slot that it is bound into. -/
structure Hook (Group Entity : Type*) where
  slot : Entity
  handler : Request Group Entity

namespace GroupEntities

variable (entities : GroupEntities Group Entity)

def request (type : ExecutableType) (entity : Entity) : Request Group Entity :=
  ⟨type, entities.group, entity⟩

def hook (type : ExecutableType) (entity : Entity) : Hook Group Entity :=
  ⟨entity, entities.request type entity⟩

/-- A subscription has its own slot, and shares that of its waitable. -/
def subscriptionHooks (entity : SubscriptionEntity Entity) : List (Hook Group Entity) :=
  entities.hook .subscription entity.subscription ::
    entity.intraProcess.toList.map
      (⟨·, entities.request .subscription entity.subscription⟩)

/-- What `add_node` binds, in the order of `collect_all_ptrs`. -/
def hooks : List (Hook Group Entity) :=
  entities.subscriptions.flatMap entities.subscriptionHooks ++
    entities.services.map (entities.hook .service) ++
    entities.clients.map (entities.hook .client) ++
    entities.waitables.map (entities.hook .waitable)

def nodeTimers : List (NodeTimer Entity Group) :=
  entities.timers.map fun timer => ⟨timer.2, timer.1, entities.group⟩

/-- What each entity is to be dispatched as. -/
def requests : List (Request Group Entity) :=
  entities.subscriptions.map (fun entity =>
      entities.request .subscription entity.subscription) ++
    entities.services.map (entities.request .service) ++
    entities.clients.map (entities.request .client) ++
    entities.timers.map (fun timer => entities.request .timer timer.1) ++
    entities.waitables.map (entities.request .waitable)

end GroupEntities

/-- The nodes with their callback groups.  An entity belongs to one node and stands in it
once, and a group has the waitables of its subscriptions.  `reported` is how many events
a slot with unread ones reports when a handler is bound. -/
structure NodeGraph (Node Group Entity : Type*) where
  groups : Node → List (GroupEntities Group Entity)
  owner : Entity → Node
  reported : Entity → ℕ → ℕ
  owned : ∀ node, ∀ request ∈ (groups node).flatMap GroupEntities.requests,
    owner request.entity = node
  distinct : ∀ node,
    (((groups node).flatMap GroupEntities.requests).map Request.entity).Nodup
  shared : ∀ node, ∀ entities ∈ groups node, ∀ entity ∈ entities.subscriptions,
    ∀ waitable, entity.intraProcess = some waitable → waitable ∈ entities.waitables

namespace NodeGraph

variable (graph : NodeGraph Node Group Entity) (node : Node)

def hooks : List (Hook Group Entity) := (graph.groups node).flatMap GroupEntities.hooks

def timers : List (NodeTimer Entity Group) :=
  (graph.groups node).flatMap GroupEntities.nodeTimers

def requests : List (Request Group Entity) :=
  (graph.groups node).flatMap GroupEntities.requests

end NodeGraph

/-! ## The executor -/

/-- What was dispatched, and the nodes that the executor had. -/
structure Dispatched (Node Group Entity : Type*) where
  request : Request Group Entity
  nodes : List Node

/-- `unread` counts the events of a slot while it was empty. -/
structure RegistrationState (Node Group Entity : Type*) where
  signal : SignalState Node Entity Group
  hook : Entity → Option (Request Group Entity)
  unread : Entity → ℕ
  dispatched : List (Dispatched Node Group Entity)

namespace RegistrationState

def initial : RegistrationState Node Group Entity where
  signal := .initial
  hook := fun _ => none
  unread := fun _ => 0
  dispatched := []

variable (s : RegistrationState Node Group Entity)

def executor : TimerState Node Entity Group := s.signal.executor

def setExecutor (executor : TimerState Node Entity Group) :
    RegistrationState Node Group Entity :=
  { s with signal := { s.signal with executor := executor } }

def dispatch (requests : List (Request Group Entity)) : RegistrationState Node Group Entity :=
  { s with dispatched := s.dispatched ++ requests.map (⟨·, s.executor.nodes⟩) }

/-- The four handlers, which differ in the type of their executable. -/
def handle (request : Request Group Entity) (count : ℕ) :
    RegistrationState Node Group Entity :=
  if s.executor.started then s.dispatch (List.replicate count request) else s

variable [DecidableEq Entity]

def clearHook (slot : Entity) : RegistrationState Node Group Entity :=
  { s with hook := Function.update s.hook slot none }

variable (graph : NodeGraph Node Group Entity)

/-- The handler is called at once where the slot has unread events. -/
def setHook (hook : Hook Group Entity) : RegistrationState Node Group Entity :=
  let installed :=
    { s with hook := Function.update s.hook hook.slot (some hook.handler) }
  if 0 < s.unread hook.slot then
    { installed.handle hook.handler (graph.reported hook.slot (s.unread hook.slot)) with
      unread := Function.update s.unread hook.slot 0 }
  else installed

def setHooks (hooks : List (Hook Group Entity)) : RegistrationState Node Group Entity :=
  hooks.foldl (fun s hook => s.setHook graph hook) s

def clearHooks (hooks : List (Hook Group Entity)) : RegistrationState Node Group Entity :=
  hooks.foldl (fun s hook => s.clearHook hook.slot) s

/-- A node that has an executor is refused before anything is bound. -/
def addNode [DecidableEq Node] (node : Node) : RegistrationState Node Group Entity :=
  if node ∈ s.executor.nodes then s
  else (s.setExecutor (s.executor.addNode node (graph.timers node))).setHooks graph
    (graph.hooks node)

/-- The slots are emptied first, also those of a node that is then refused. -/
def removeNode [DecidableEq Node] (node : Node) : RegistrationState Node Group Entity :=
  let cleared := s.clearHooks (graph.hooks node)
  cleared.setExecutor (cleared.executor.removeNode node)

def notify (slot : Entity) (count : ℕ) : RegistrationState Node Group Entity :=
  match s.hook slot with
  | some request => s.handle request count
  | none => { s with unread := Function.update s.unread slot (s.unread slot + count) }

/-- The signals that the handler of the timers has treated in a step. -/
def afterSignals (signal : SignalState Node Entity Group) :
    RegistrationState Node Group Entity :=
  { s.dispatch ((signal.signals.drop s.signal.signals.length).flatMap (·.dispatched)) with
    signal := signal }

end RegistrationState

/-- `add_node` and `remove_node` also bind the handlers of the node. -/
def SignalLabel.IsNodeCall : SignalLabel Node Entity Group → Prop
  | .call (.addNode _ _) | .call (.removeNode _) => True
  | .call (.start _) | .call .stop | .call .destroy => False
  | .cancel _ | .reset _ | .expire _ => False

inductive RegistrationLabel (Node Group Entity : Type*)
  | addNode (node : Node)
  | removeNode (node : Node)
  | signal (label : SignalLabel Node Entity Group)
  | notify (slot : Entity) (count : ℕ)

inductive RegistrationStep [DecidableEq Node] [DecidableEq Entity] (build : Build)
    (graph : NodeGraph Node Group Entity) : RegistrationState Node Group Entity →
      RegistrationLabel Node Group Entity → RegistrationState Node Group Entity → Prop
  | addNode (s : RegistrationState Node Group Entity) (node : Node)
      (hlive : s.executor.destroyed = false) (hrunning : s.executor.aborted = false) :
      RegistrationStep build graph s (.addNode node) (s.addNode graph node)
  | removeNode (s : RegistrationState Node Group Entity) (node : Node)
      (hlive : s.executor.destroyed = false) (hrunning : s.executor.aborted = false) :
      RegistrationStep build graph s (.removeNode node) (s.removeNode graph node)
  | signal (s : RegistrationState Node Group Entity) (label : SignalLabel Node Entity Group)
      (signal : SignalState Node Entity Group) (hother : ¬ label.IsNodeCall)
      (hstep : SignalStep build s.signal label signal) :
      RegistrationStep build graph s (.signal label) (s.afterSignals signal)
  | notify (s : RegistrationState Node Group Entity) (slot : Entity) (count : ℕ) :
      RegistrationStep build graph s (.notify slot count) (s.notify slot count)

/-- Every entity of a node of the executor is registered once, in its slot or in the list of
timers, no entity of another node is, and what has been dispatched belonged to a node of the
executor. -/
structure ServesNodes [DecidableEq Node] [DecidableEq Group] [DecidableEq Entity]
    (graph : NodeGraph Node Group Entity) (s : RegistrationState Node Group Entity) :
    Prop where
  hooked : ∀ node, ∀ request ∈ graph.requests node, request.type ≠ .timer →
    s.hook request.entity = if node ∈ s.executor.nodes then some request else none
  timed : ∀ node, ∀ request ∈ graph.requests node, request.type = .timer →
    (s.executor.timers.map PosixTimer.request).count request =
      if node ∈ s.executor.nodes then 1 else 0
  served : ∀ dispatched ∈ s.dispatched,
    ∃ node ∈ dispatched.nodes, dispatched.request ∈ graph.requests node

/-- No node of the executor that has timers is removed. -/
def KeepsTimers (graph : NodeGraph Node Group Entity)
    (s : RegistrationState Node Group Entity) : RegistrationLabel Node Group Entity → Prop
  | .addNode _ | .signal _ | .notify _ _ => True
  | .removeNode node => node ∈ s.executor.nodes → graph.timers node = []

/-! ## The slots of a node -/

section Slots

/-- The entity of a request that stands once determines the request. -/
theorem request_unique {requests : List (Request Group Entity)}
    (hdistinct : (requests.map Request.entity).Nodup) {first second : Request Group Entity}
    (hfirst : first ∈ requests) (hsecond : second ∈ requests)
    (hentity : first.entity = second.entity) : first = second :=
  List.inj_on_of_nodup_map hdistinct hfirst hsecond hentity

/-- A handler is that of the entity whose slot it is bound into, or that of a subscription
that shares the slot of its waitable. -/
theorem mem_hooks {entities : GroupEntities Group Entity} {hook : Hook Group Entity}
    (hshared : ∀ entity ∈ entities.subscriptions, ∀ waitable,
      entity.intraProcess = some waitable → waitable ∈ entities.waitables)
    (hmem : hook ∈ entities.hooks) :
    hook.handler ∈ entities.requests ∧ (hook.handler.entity = hook.slot ∨
      entities.request .waitable hook.slot ∈ entities.requests) := by
  simp only [GroupEntities.hooks, List.mem_append, List.mem_flatMap, List.mem_map] at hmem
  rcases hmem with ((⟨entity, hentity, hhook⟩ | ⟨entity, hentity, rfl⟩) |
    ⟨entity, hentity, rfl⟩) | ⟨entity, hentity, rfl⟩
  · have hrequest : entities.request .subscription entity.subscription ∈
        entities.requests := by
      simp only [GroupEntities.requests, List.mem_append, List.mem_map]
      exact .inl (.inl (.inl (.inl ⟨entity, hentity, rfl⟩)))
    rcases List.mem_cons.mp hhook with rfl | hhook
    · exact ⟨hrequest, .inl rfl⟩
    · obtain ⟨waitable, hwaitable, rfl⟩ := List.mem_map.mp hhook
      have hmine := hshared entity hentity waitable (Option.mem_toList.mp hwaitable)
      refine ⟨hrequest, .inr ?_⟩
      simp only [GroupEntities.requests, List.mem_append, List.mem_map]
      exact .inr ⟨waitable, hmine, rfl⟩
  · refine ⟨?_, .inl rfl⟩
    simp only [GroupEntities.requests, List.mem_append, List.mem_map]
    exact .inl (.inl (.inl (.inr ⟨entity, hentity, rfl⟩)))
  · refine ⟨?_, .inl rfl⟩
    simp only [GroupEntities.requests, List.mem_append, List.mem_map]
    exact .inl (.inl (.inr ⟨entity, hentity, rfl⟩))
  · refine ⟨?_, .inl rfl⟩
    simp only [GroupEntities.requests, List.mem_append, List.mem_map]
    exact .inr ⟨entity, hentity, rfl⟩

/-- Every entity but a timer has its own handler bound into its slot. -/
theorem ownHook_mem {entities : GroupEntities Group Entity} {request : Request Group Entity}
    (hmem : request ∈ entities.requests) (htype : request.type ≠ .timer) :
    ⟨request.entity, request⟩ ∈ entities.hooks := by
  simp only [GroupEntities.requests, List.mem_append, List.mem_map] at hmem
  simp only [GroupEntities.hooks, List.mem_append, List.mem_flatMap, List.mem_map]
  rcases hmem with (((⟨entity, hentity, rfl⟩ | ⟨entity, hentity, rfl⟩) |
    ⟨entity, hentity, rfl⟩) | ⟨entity, hentity, rfl⟩) | ⟨entity, hentity, rfl⟩
  · exact .inl (.inl (.inl ⟨entity, hentity, List.mem_cons_self⟩))
  · exact .inl (.inl (.inr ⟨entity, hentity, rfl⟩))
  · exact .inl (.inr ⟨entity, hentity, rfl⟩)
  · exact absurd rfl htype
  · exact .inr ⟨entity, hentity, rfl⟩

variable [DecidableEq Entity]

/-- The handlers that are bound, one after another. -/
def bind (slots : Entity → Option (Request Group Entity)) (hooks : List (Hook Group Entity)) :
    Entity → Option (Request Group Entity) :=
  hooks.foldl (fun slots hook => Function.update slots hook.slot (some hook.handler)) slots

variable {slots : Entity → Option (Request Group Entity)}
  {hooks : List (Hook Group Entity)}

theorem bind_append (more : List (Hook Group Entity)) :
    bind slots (hooks ++ more) = bind (bind slots hooks) more :=
  List.foldl_append

theorem bind_of_not_mem {slot : Entity} (hnone : ∀ hook ∈ hooks, hook.slot ≠ slot) :
    bind slots hooks slot = slots slot := by
  induction hooks generalizing slots with
  | nil => rfl
  | cons hook rest ih =>
      obtain ⟨hfirst, hrest⟩ := List.forall_mem_cons.mp hnone
      rw [bind, List.foldl_cons]
      exact (ih hrest).trans (Function.update_of_ne hfirst.symm _ _)

theorem mem_of_bind {slot : Entity} {request : Request Group Entity}
    (hbind : bind slots hooks slot = some request) :
    ⟨slot, request⟩ ∈ hooks ∨ slots slot = some request := by
  induction hooks generalizing slots with
  | nil => exact .inr hbind
  | cons hook rest ih =>
      rw [bind, List.foldl_cons] at hbind
      rcases ih hbind with hlater | hfirst
      · exact .inl (List.mem_cons_of_mem _ hlater)
      · by_cases hslot : slot = hook.slot
        · rw [hslot, Function.update_self, Option.some.injEq] at hfirst
          rw [hslot, ← hfirst]
          exact .inl List.mem_cons_self
        · rw [Function.update_of_ne hslot] at hfirst
          exact .inr hfirst

/-- A slot into which only one handler is bound has that handler. -/
theorem bind_of_agree {slot : Entity} {request : Request Group Entity}
    (hmem : ⟨slot, request⟩ ∈ hooks)
    (hagree : ∀ hook ∈ hooks, hook.slot = slot → hook.handler = request) :
    bind slots hooks slot = some request := by
  induction hooks generalizing slots with
  | nil => cases hmem
  | cons hook rest ih =>
      obtain ⟨hfirst, hrest⟩ := List.forall_mem_cons.mp hagree
      rw [bind, List.foldl_cons]
      by_cases hlater : ⟨slot, request⟩ ∈ rest
      · exact ih hlater hrest
      · obtain rfl := (List.mem_cons.mp hmem).resolve_right hlater
        refine (bind_of_not_mem ?_).trans (Function.update_self _ _ _)
        rintro ⟨other, handler⟩ hother rfl
        obtain rfl : handler = request := hrest _ hother rfl
        exact hlater hother

/-- The handlers of a group leave every entity with its own. -/
theorem bind_group {entities : GroupEntities Group Entity}
    (hdistinct : (entities.requests.map Request.entity).Nodup)
    (hshared : ∀ entity ∈ entities.subscriptions, ∀ waitable,
      entity.intraProcess = some waitable → waitable ∈ entities.waitables)
    {request : Request Group Entity} (hmem : request ∈ entities.requests)
    (htype : request.type ≠ .timer) :
    bind slots entities.hooks request.entity = some request := by
  by_cases hwaitable : request.type = .waitable
  · -- the handlers of the waitables come last
    obtain ⟨entity, hentity, rfl⟩ : ∃ entity ∈ entities.waitables,
        entities.request .waitable entity = request := by
      simp only [GroupEntities.requests, List.mem_append, List.mem_map] at hmem
      rcases hmem with (((⟨entity, -, rfl⟩ | ⟨entity, -, rfl⟩) | ⟨entity, -, rfl⟩) |
        ⟨entity, -, rfl⟩) | hmem
      · cases hwaitable
      · cases hwaitable
      · cases hwaitable
      · cases hwaitable
      · exact hmem
    rw [GroupEntities.hooks, bind_append]
    apply bind_of_agree (List.mem_map.mpr ⟨entity, hentity, rfl⟩)
    intro hook hhook hslot
    obtain ⟨other, -, rfl⟩ := List.mem_map.mp hhook
    exact congrArg (entities.request .waitable) hslot
  · apply bind_of_agree (ownHook_mem hmem htype)
    intro hook hhook hslot
    obtain ⟨hhandler, hown | hother⟩ := mem_hooks hshared hhook
    · exact request_unique hdistinct hhandler hmem (hown.trans hslot)
    · have hsame := request_unique hdistinct hother hmem hslot
      exact absurd (congrArg Request.type hsame).symm hwaitable

/-- The groups of a node have different entities, so that no group takes a slot from
another. -/
theorem bind_groups {groups : List (GroupEntities Group Entity)}
    (hdistinct : ((groups.flatMap GroupEntities.requests).map Request.entity).Nodup)
    (hshared : ∀ entities ∈ groups, ∀ entity ∈ entities.subscriptions, ∀ waitable,
      entity.intraProcess = some waitable → waitable ∈ entities.waitables)
    {request : Request Group Entity}
    (hmem : request ∈ groups.flatMap GroupEntities.requests)
    (htype : request.type ≠ .timer) :
    bind slots (groups.flatMap GroupEntities.hooks) request.entity = some request := by
  induction groups generalizing slots with
  | nil => cases hmem
  | cons entities rest ih =>
      obtain ⟨hmine, hothers⟩ := List.forall_mem_cons.mp hshared
      rw [List.flatMap_cons, List.map_append] at hdistinct
      have hrest := List.Nodup.of_append_right hdistinct
      rw [List.flatMap_cons, bind_append]
      rcases List.mem_append.mp hmem with hfirst | hlater
      · rw [bind_of_not_mem]
        · exact bind_group (List.Nodup.of_append_left hdistinct) hmine hfirst htype
        · intro hook hhook hslot
          obtain ⟨other, hother, hhook⟩ := List.mem_flatMap.mp hhook
          have hentity : ∃ found ∈ other.requests, found.entity = request.entity := by
            obtain ⟨hhandler, hown | hshares⟩ := mem_hooks (hothers other hother) hhook
            · exact ⟨_, hhandler, hown.trans hslot⟩
            · exact ⟨_, hshares, hslot⟩
          obtain ⟨found, hfound, hsame⟩ := hentity
          exact (List.disjoint_of_nodup_append hdistinct)
            (List.mem_map_of_mem hfirst)
            (List.mem_map.mpr ⟨found, List.mem_flatMap.mpr ⟨other, hother, hfound⟩, hsame⟩)
      · exact ih hrest hothers hlater

end Slots

section Graph

variable {graph : NodeGraph Node Group Entity} {node : Node}

theorem NodeGraph.mem_hooks {hook : Hook Group Entity} (hmem : hook ∈ graph.hooks node) :
    hook.handler ∈ graph.requests node ∧ graph.owner hook.slot = node := by
  obtain ⟨entities, hentities, hhook⟩ := List.mem_flatMap.mp hmem
  obtain ⟨hhandler, hslot⟩ :=
    NoExecutor.mem_hooks (graph.shared node entities hentities) hhook
  have hrequest : ∀ request ∈ entities.requests, request ∈ graph.requests node :=
    fun request hrequest => List.mem_flatMap.mpr ⟨entities, hentities, hrequest⟩
  refine ⟨hrequest _ hhandler, ?_⟩
  rcases hslot with hown | hshares
  · rw [← hown]
    exact graph.owned node _ (hrequest _ hhandler)
  · exact graph.owned node _ (hrequest _ hshares)

theorem NodeGraph.ownHook_mem {request : Request Group Entity}
    (hmem : request ∈ graph.requests node) (htype : request.type ≠ .timer) :
    ⟨request.entity, request⟩ ∈ graph.hooks node := by
  obtain ⟨entities, hentities, hrequest⟩ := List.mem_flatMap.mp hmem
  exact List.mem_flatMap.mpr ⟨entities, hentities, NoExecutor.ownHook_mem hrequest htype⟩

/-- The requests of a node's timers, as `PosixTimer.request` reads them back. -/
def NodeTimer.request (timer : NodeTimer Entity Group) : Request Group Entity :=
  ⟨.timer, timer.callbackGroup, timer.timer⟩

theorem nodeTimers_eq_filter (entities : GroupEntities Group Entity) :
    entities.nodeTimers.map NodeTimer.request =
      entities.requests.filter (fun request => decide (request.type = .timer)) := by
  simp [GroupEntities.nodeTimers, GroupEntities.requests, List.filter_append,
    List.filter_map, Function.comp_def, GroupEntities.request, NodeTimer.request]

theorem NodeGraph.timers_eq_filter :
    (graph.timers node).map NodeTimer.request =
      (graph.requests node).filter (fun request => decide (request.type = .timer)) := by
  rw [NodeGraph.timers, NodeGraph.requests, List.filter_flatMap, List.map_flatMap]
  congr 1
  funext entities
  exact nodeTimers_eq_filter entities

theorem NodeGraph.mem_timers_iff {request : Request Group Entity} :
    request ∈ (graph.timers node).map NodeTimer.request ↔
      request ∈ graph.requests node ∧ request.type = .timer := by
  rw [graph.timers_eq_filter, List.mem_filter, decide_eq_true_iff]

variable [DecidableEq Node] [DecidableEq Group] [DecidableEq Entity]

/-- A timer stands once among the timers of its node, and nowhere else. -/
theorem NodeGraph.count_timers {request : Request Group Entity}
    (hmem : request ∈ graph.requests node) (htype : request.type = .timer) (other : Node) :
    ((graph.timers other).map NodeTimer.request).count request =
      if other = node then 1 else 0 := by
  rw [graph.timers_eq_filter]
  split
  · rename_i hsame
    subst hsame
    apply List.count_eq_one_of_mem
    · exact (List.Nodup.of_map _ (graph.distinct other)).filter _
    · exact List.mem_filter.mpr ⟨hmem, decide_eq_true htype⟩
  · rename_i hother
    apply List.count_eq_zero.mpr
    intro hin
    have howner := graph.owned other request (List.mem_filter.mp hin).1
    exact hother (howner.symm.trans (graph.owned node request hmem))

/-- The timers of different nodes have each timer of one of the nodes once. -/
theorem NodeGraph.count_flatMap_timers {request : Request Group Entity} {nodes : List Node}
    (hnodup : nodes.Nodup) (hmem : request ∈ graph.requests node)
    (htype : request.type = .timer) :
    (nodes.flatMap fun node => (graph.timers node).map NodeTimer.request).count request =
      if node ∈ nodes then 1 else 0 := by
  induction nodes with
  | nil => rfl
  | cons other rest ih =>
      obtain ⟨habsent, hrest⟩ := List.nodup_cons.mp hnodup
      rw [List.flatMap_cons, List.count_append, ih hrest,
        graph.count_timers hmem htype other]
      by_cases hsame : other = node
      · subst hsame
        simp [habsent]
      · simp [hsame, Ne.symm hsame]

end Graph

/-! ## The steps -/

section Steps

variable {graph : NodeGraph Node Group Entity} {s : RegistrationState Node Group Entity}

/-- What is registered follows from the nodes of the executor. -/
structure RegistrationInvariant [DecidableEq Node] (graph : NodeGraph Node Group Entity)
    (s : RegistrationState Node Group Entity) : Prop where
  hooked : ∀ node, ∀ request ∈ graph.requests node, request.type ≠ .timer →
    s.hook request.entity = if node ∈ s.executor.nodes then some request else none
  bound : ∀ slot request, s.hook slot = some request →
    ∃ node ∈ s.executor.nodes, ⟨slot, request⟩ ∈ graph.hooks node
  timers : s.executor.timers.map PosixTimer.request =
    s.executor.nodes.flatMap fun node => (graph.timers node).map NodeTimer.request
  nodup : s.executor.nodes.Nodup
  served : ∀ dispatched ∈ s.dispatched,
    ∃ node ∈ dispatched.nodes, dispatched.request ∈ graph.requests node

theorem mem_dispatch {requests : List (Request Group Entity)}
    {dispatched : Dispatched Node Group Entity}
    (hmem : dispatched ∈ (s.dispatch requests).dispatched) :
    dispatched ∈ s.dispatched ∨
      dispatched.request ∈ requests ∧ dispatched.nodes = s.executor.nodes := by
  rcases List.mem_append.mp hmem with hbefore | hnew
  · exact .inl hbefore
  · obtain ⟨request, hrequest, rfl⟩ := List.mem_map.mp hnew
    exact .inr ⟨hrequest, rfl⟩

@[simp]
theorem handle_signal (request : Request Group Entity) (count : ℕ) :
    (s.handle request count).signal = s.signal := by
  rw [RegistrationState.handle]
  split <;> rfl

@[simp]
theorem handle_hook (request : Request Group Entity) (count : ℕ) :
    (s.handle request count).hook = s.hook := by
  rw [RegistrationState.handle]
  split <;> rfl

theorem mem_handle {request : Request Group Entity} {count : ℕ}
    {dispatched : Dispatched Node Group Entity}
    (hmem : dispatched ∈ (s.handle request count).dispatched) :
    dispatched ∈ s.dispatched ∨
      dispatched.request = request ∧ dispatched.nodes = s.executor.nodes := by
  rw [RegistrationState.handle] at hmem
  split at hmem
  · exact (mem_dispatch hmem).imp_right fun ⟨hrequest, hnodes⟩ =>
      ⟨List.eq_of_mem_replicate hrequest, hnodes⟩
  · exact .inl hmem

section Hooks

variable [DecidableEq Entity]

variable (graph) in
theorem setHook_spec (hook : Hook Group Entity) :
    (s.setHook graph hook).signal = s.signal ∧
      (s.setHook graph hook).hook =
        Function.update s.hook hook.slot (some hook.handler) ∧
      ∀ dispatched ∈ (s.setHook graph hook).dispatched, dispatched ∈ s.dispatched ∨
        dispatched.request = hook.handler ∧ dispatched.nodes = s.executor.nodes := by
  let installed : RegistrationState Node Group Entity :=
    { s with hook := Function.update s.hook hook.slot (some hook.handler) }
  rw [RegistrationState.setHook]
  split
  · exact ⟨handle_signal _ _, handle_hook _ _, fun _ hmem => mem_handle (s := installed) hmem⟩
  · exact ⟨rfl, rfl, fun dispatched hmem => .inl hmem⟩

variable (graph) in
theorem setHooks_spec (hooks : List (Hook Group Entity)) :
    (s.setHooks graph hooks).signal = s.signal ∧
      (s.setHooks graph hooks).hook = bind s.hook hooks ∧
      ∀ dispatched ∈ (s.setHooks graph hooks).dispatched, dispatched ∈ s.dispatched ∨
        (∃ hook ∈ hooks, dispatched.request = hook.handler) ∧
          dispatched.nodes = s.executor.nodes := by
  induction hooks generalizing s with
  | nil => exact ⟨rfl, rfl, fun dispatched hmem => .inl hmem⟩
  | cons hook rest ih =>
      obtain ⟨hsignal, hhook, hdispatched⟩ := setHook_spec (s := s) graph hook
      obtain ⟨hsignals, hhooks, hall⟩ := ih (s := s.setHook graph hook)
      refine ⟨hsignals.trans hsignal, hhooks.trans (by rw [hhook]; rfl), ?_⟩
      intro dispatched hmem
      rcases hall dispatched hmem with hbefore | ⟨⟨later, hlater, hrequest⟩, hnodes⟩
      · exact (hdispatched dispatched hbefore).imp_right fun ⟨hrequest, hnodes⟩ =>
          ⟨⟨hook, List.mem_cons_self, hrequest⟩, hnodes⟩
      · refine .inr ⟨⟨later, List.mem_cons_of_mem _ hlater, hrequest⟩, hnodes.trans ?_⟩
        rw [RegistrationState.executor, hsignal]
        rfl

theorem clearHooks_spec (hooks : List (Hook Group Entity)) :
    (s.clearHooks hooks).signal = s.signal ∧
      (s.clearHooks hooks).dispatched = s.dispatched ∧
      (∀ hook ∈ hooks, (s.clearHooks hooks).hook hook.slot = none) ∧
      ∀ slot, (∀ hook ∈ hooks, hook.slot ≠ slot) →
        (s.clearHooks hooks).hook slot = s.hook slot := by
  induction hooks generalizing s with
  | nil => exact ⟨rfl, rfl, by simp, fun slot _ => rfl⟩
  | cons hook rest ih =>
      obtain ⟨hsignal, hdispatched, hcleared, hoff⟩ := ih (s := s.clearHook hook.slot)
      refine ⟨hsignal, hdispatched, List.forall_mem_cons.mpr ⟨?_, hcleared⟩, ?_⟩
      · by_cases hlater : ∃ later ∈ rest, later.slot = hook.slot
        · obtain ⟨later, hlater, hslot⟩ := hlater
          rw [← hslot]
          exact hcleared later hlater
        · refine (hoff hook.slot fun later hmem hslot => hlater ⟨later, hmem, hslot⟩).trans ?_
          exact Function.update_self _ _ _
      · intro slot hnone
        obtain ⟨hfirst, hrest⟩ := List.forall_mem_cons.mp hnone
        exact (hoff slot hrest).trans (Function.update_of_ne hfirst.symm _ _)

end Hooks

/-- The timers that a node brings follow those of the nodes before it. -/
theorem registerTimers_request (timers : List (PosixTimer Entity Group))
    (new : List (NodeTimer Entity Group)) :
    (registerTimers timers new).map PosixTimer.request =
      timers.map PosixTimer.request ++ new.map NodeTimer.request := by
  induction new generalizing timers with
  | nil => simp [registerTimers]
  | cons first rest ih =>
      rw [registerTimers, ih, List.map_append, List.append_assoc]
      rfl

/-- The calls that join no node keep the registered timers. -/
theorem executor_spec [DecidableEq Node] {executor after : TimerState Node Entity Group}
    {label : TimerLabel Node Entity Group}
    (hother : ¬ (SignalLabel.call label).IsNodeCall)
    (hstep : TimerStep executor label after) :
    after.nodes = executor.nodes ∧
      after.timers.map PosixTimer.request = executor.timers.map PosixTimer.request := by
  have hstop : executor.stop.nodes = executor.nodes ∧
      executor.stop.timers = executor.timers := by
    rw [TimerState.stop]
    split <;> exact ⟨rfl, rfl⟩
  cases hstep with
  | addNode node new _ _ => exact absurd trivial hother
  | removeNode node _ _ => exact absurd trivial hother
  | start results _ _ _ => exact map_start _ results PosixTimer.request fun _ _ => rfl
  | stop _ _ => exact ⟨hstop.1, congrArg _ hstop.2⟩
  | destroy _ _ => exact ⟨hstop.1, congrArg _ hstop.2⟩

/-- What the handler of the timers dispatches is registered. -/
theorem mem_dispatched {signal : SignalState Node Entity Group}
    {ptimer : PosixTimer Entity Group} (hmem : ptimer ∈ signal.executor.timers)
    (k : ℕ) (build : Build) {request : Request Group Entity}
    (hrequest : request ∈ (((signal.handleTimer k ptimer build).signals.drop
      signal.signals.length).flatMap (·.dispatched))) :
    request ∈ signal.executor.timers.map PosixTimer.request := by
  cases build with
  | rtems =>
      simp only [SignalState.handleTimer, SignalState.record, List.drop_left,
        List.flatMap_singleton, SignalState.dispatchAll] at hrequest
      split at hrequest
      · obtain ⟨timer, htimer, rfl⟩ := List.mem_map.mp hrequest
        exact List.mem_map_of_mem (List.mem_of_mem_filter htimer)
      · cases hrequest
  | linux =>
      simp only [SignalState.handleTimer, SignalState.record, List.drop_left,
        List.flatMap_singleton, dispatchOne_eq] at hrequest
      split at hrequest
      · rw [List.mem_singleton.mp hrequest]
        exact List.mem_map_of_mem hmem
      · cases hrequest

variable [DecidableEq Node] [DecidableEq Entity]

theorem signal_spec {build : Build} {signal after : SignalState Node Entity Group}
    {label : SignalLabel Node Entity Group} (hother : ¬ label.IsNodeCall)
    (hstep : SignalStep build signal label after) :
    after.executor.nodes = signal.executor.nodes ∧
      after.executor.timers.map PosixTimer.request =
        signal.executor.timers.map PosixTimer.request ∧
      ∀ request ∈ (after.signals.drop signal.signals.length).flatMap (·.dispatched),
        request ∈ signal.executor.timers.map PosixTimer.request := by
  cases hstep with
  | call label executor hstep =>
      obtain ⟨hnodes, htimers⟩ := executor_spec hother hstep
      exact ⟨hnodes, htimers, by simp⟩
  | cancel timer => exact ⟨rfl, rfl, by simp⟩
  | reset timer => exact ⟨rfl, rfl, by simp⟩
  | expire k os ptimer hos hptimer =>
      have hmem := List.mem_of_getElem? hptimer
      cases build with
      | rtems => exact ⟨rfl, rfl, fun request => mem_dispatched hmem k .rtems⟩
      | linux => exact ⟨rfl, rfl, fun request => mem_dispatched hmem k .linux⟩

variable (graph) in
theorem addNode_spec {node : Node} (habsent : node ∉ s.executor.nodes) :
    (s.addNode graph node).executor.nodes = s.executor.nodes ++ [node] ∧
      (s.addNode graph node).executor.timers =
        registerTimers s.executor.timers (graph.timers node) ∧
      (s.addNode graph node).hook = bind s.hook (graph.hooks node) ∧
      ∀ dispatched ∈ (s.addNode graph node).dispatched, dispatched ∈ s.dispatched ∨
        (∃ hook ∈ graph.hooks node, dispatched.request = hook.handler) ∧
          dispatched.nodes = s.executor.nodes ++ [node] := by
  let joined := s.executor.addNode node (graph.timers node)
  have hjoined : joined = { s.executor with
      nodes := s.executor.nodes ++ [node]
      timers := registerTimers s.executor.timers (graph.timers node) } := if_neg habsent
  obtain ⟨hsignal, hhook, hdispatched⟩ :=
    setHooks_spec (s := s.setExecutor joined) graph (graph.hooks node)
  have hexecutor : ((s.setExecutor joined).setHooks graph (graph.hooks node)).executor =
      joined := by
    rw [RegistrationState.executor, hsignal]
    rfl
  rw [RegistrationState.addNode, if_neg habsent]
  refine ⟨?_, ?_, hhook, ?_⟩
  · rw [hexecutor, hjoined]
  · rw [hexecutor, hjoined]
  · intro dispatched hmem
    refine (hdispatched dispatched hmem).imp_right fun ⟨hrequest, hnodes⟩ => ⟨hrequest, ?_⟩
    rw [hnodes]
    change joined.nodes = _
    rw [hjoined]

theorem RegistrationInvariant.addNode (h : RegistrationInvariant graph s) (node : Node) :
    RegistrationInvariant graph (s.addNode graph node) := by
  by_cases hpresent : node ∈ s.executor.nodes
  · rwa [RegistrationState.addNode, if_pos hpresent]
  obtain ⟨hnodes, htimers, hhook, hdispatched⟩ := addNode_spec graph hpresent
  constructor
  · intro other request hrequest htype
    rw [hhook, hnodes]
    by_cases hsame : other = node
    · subst hsame
      rw [if_pos (List.mem_append_right _ List.mem_cons_self)]
      exact bind_groups (graph.distinct other) (graph.shared other) hrequest htype
    · rw [bind_of_not_mem]
      · simpa [hsame] using h.hooked other request hrequest htype
      · intro hook hmem hslot
        rw [← graph.owned other request hrequest, ← hslot] at hsame
        exact hsame (NodeGraph.mem_hooks hmem).2
  · intro slot request hslot
    rw [hhook] at hslot
    rw [hnodes]
    rcases mem_of_bind hslot with hnew | hbefore
    · exact ⟨node, List.mem_append_right _ List.mem_cons_self, hnew⟩
    · obtain ⟨other, hother, hmem⟩ := h.bound slot request hbefore
      exact ⟨other, List.mem_append_left _ hother, hmem⟩
  · rw [htimers, hnodes, registerTimers_request, h.timers, List.flatMap_append,
      List.flatMap_singleton]
  · rw [hnodes]
    exact h.nodup.append (List.nodup_singleton node) (by simpa using hpresent)
  · intro dispatched hmem
    rcases hdispatched dispatched hmem with hbefore | ⟨⟨hook, hhook, hrequest⟩, hnow⟩
    · exact h.served dispatched hbefore
    · rw [hrequest, hnow]
      exact ⟨node, List.mem_append_right _ List.mem_cons_self, (NodeGraph.mem_hooks hhook).1⟩

/-- An element that brings nothing may be erased. -/
theorem flatMap_erase {α β : Type*} [DecidableEq α] {f : α → List β} {l : List α} {a : α}
    (hnil : a ∈ l → f a = []) : l.flatMap f = (l.erase a).flatMap f := by
  induction l with
  | nil => rfl
  | cons b rest ih =>
      by_cases hsame : b = a
      · subst hsame
        rw [List.erase_cons_head, List.flatMap_cons, hnil List.mem_cons_self, List.nil_append]
      · rw [List.erase_cons_tail (by simpa using hsame), List.flatMap_cons, List.flatMap_cons,
          ih fun hmem => hnil (List.mem_cons_of_mem _ hmem)]

variable (graph) in
theorem removeNode_executor (node : Node) :
    (s.removeNode graph node).executor = s.executor.removeNode node := by
  change (s.clearHooks (graph.hooks node)).executor.removeNode node = _
  rw [RegistrationState.executor, (clearHooks_spec (graph.hooks node)).1]
  rfl

theorem RegistrationInvariant.removeNode (h : RegistrationInvariant graph s) {node : Node}
    (hkeeps : node ∈ s.executor.nodes → graph.timers node = []) :
    RegistrationInvariant graph (s.removeNode graph node) := by
  obtain ⟨-, hdispatched, hcleared, hoff⟩ := clearHooks_spec (s := s) (graph.hooks node)
  have hexecutor := removeNode_executor (s := s) graph node
  have hother : ∀ other, other ≠ node →
      (other ∈ s.executor.nodes.erase node ↔ other ∈ s.executor.nodes) :=
    fun other hne => List.mem_erase_of_ne hne
  constructor
  · intro other request hrequest htype
    rw [hexecutor]
    change (s.clearHooks (graph.hooks node)).hook request.entity =
      if other ∈ s.executor.nodes.erase node then some request else none
    by_cases hsame : other = node
    · subst hsame
      rw [if_neg h.nodup.not_mem_erase]
      exact hcleared _ (NodeGraph.ownHook_mem hrequest htype)
    · rw [hoff]
      · simpa only [hother other hsame] using h.hooked other request hrequest htype
      · intro hook hmem hslot
        rw [← graph.owned other request hrequest, ← hslot] at hsame
        exact hsame (NodeGraph.mem_hooks hmem).2
  · intro slot request hslot
    change (s.clearHooks (graph.hooks node)).hook slot = some request at hslot
    rw [hexecutor]
    by_cases hmine : ∃ hook ∈ graph.hooks node, hook.slot = slot
    · obtain ⟨hook, hmem, rfl⟩ := hmine
      rw [hcleared hook hmem] at hslot
      cases hslot
    · have hnone : ∀ hook ∈ graph.hooks node, hook.slot ≠ slot :=
        fun hook hmem hsame => hmine ⟨hook, hmem, hsame⟩
      rw [hoff slot hnone] at hslot
      obtain ⟨other, hmember, hmem⟩ := h.bound slot request hslot
      refine ⟨other, (hother other ?_).mpr hmember, hmem⟩
      rintro rfl
      exact hnone _ hmem rfl
  · rw [hexecutor]
    change s.executor.timers.map _ = (s.executor.nodes.erase node).flatMap _
    rw [h.timers, flatMap_erase]
    intro hmem
    rw [hkeeps hmem, List.map_nil]
  · rw [hexecutor]
    exact h.nodup.erase node
  · intro dispatched hmem
    change dispatched ∈ (s.clearHooks (graph.hooks node)).dispatched at hmem
    rw [hdispatched] at hmem
    exact h.served dispatched hmem

theorem RegistrationInvariant.signal (h : RegistrationInvariant graph s) {build : Build}
    {label : SignalLabel Node Entity Group} {signal : SignalState Node Entity Group}
    (hother : ¬ label.IsNodeCall) (hstep : SignalStep build s.signal label signal) :
    RegistrationInvariant graph (s.afterSignals signal) := by
  obtain ⟨hnodes, htimers, hrequests⟩ := signal_spec hother hstep
  have hsame : (s.afterSignals signal).executor.nodes = s.executor.nodes := hnodes
  constructor
  · intro node request hrequest htype
    rw [hsame]
    exact h.hooked node request hrequest htype
  · rw [hsame]
    exact h.bound
  · rw [hsame]
    exact htimers.trans h.timers
  · rw [hsame]
    exact h.nodup
  · intro dispatched hmem
    rcases mem_dispatch hmem with hbefore | ⟨hrequest, hnow⟩
    · exact h.served dispatched hbefore
    · have hregistered := hrequests _ hrequest
      change dispatched.request ∈ s.executor.timers.map PosixTimer.request at hregistered
      rw [h.timers] at hregistered
      obtain ⟨node, hnode, htimer⟩ := List.mem_flatMap.mp hregistered
      rw [hnow]
      exact ⟨node, hnode, (NodeGraph.mem_timers_iff.mp htimer).1⟩

theorem RegistrationInvariant.notify (h : RegistrationInvariant graph s) (slot : Entity)
    (count : ℕ) : RegistrationInvariant graph (s.notify slot count) := by
  rw [RegistrationState.notify]
  split
  · rename_i request hslot
    have hexecutor : (s.handle request count).executor = s.executor := by
      rw [RegistrationState.executor, handle_signal]
      rfl
    constructor
    · rw [hexecutor, handle_hook]
      exact h.hooked
    · rw [hexecutor, handle_hook]
      exact h.bound
    · rw [hexecutor]
      exact h.timers
    · rw [hexecutor]
      exact h.nodup
    · intro dispatched hmem
      rcases mem_handle hmem with hbefore | ⟨hrequest, hnow⟩
      · exact h.served dispatched hbefore
      · obtain ⟨node, hnode, hhook⟩ := h.bound slot request hslot
        rw [hrequest, hnow]
        exact ⟨node, hnode, (NodeGraph.mem_hooks hhook).1⟩
  · exact ⟨h.hooked, h.bound, h.timers, h.nodup, h.served⟩

omit [DecidableEq Entity] in
theorem registrationInvariant_initial :
    RegistrationInvariant graph RegistrationState.initial where
  hooked := by simp [RegistrationState.initial, RegistrationState.executor,
    SignalState.initial, TimerState.initial]
  bound := by simp [RegistrationState.initial]
  timers := rfl
  nodup := List.nodup_nil
  served := by simp [RegistrationState.initial]

theorem registrationInvariant_step {build : Build} (s : RegistrationState Node Group Entity)
    (label : RegistrationLabel Node Group Entity) (t : RegistrationState Node Group Entity)
    (h : RegistrationInvariant graph s) (hadmits : KeepsTimers graph s label)
    (hstep : RegistrationStep build graph s label t) : RegistrationInvariant graph t := by
  cases hstep with
  | addNode node _ _ => exact h.addNode node
  | removeNode node _ _ => exact h.removeNode hadmits
  | signal label signal hother hstep => exact h.signal hother hstep
  | notify slot count => exact h.notify slot count

variable [DecidableEq Group]

theorem RegistrationInvariant.servesNodes (h : RegistrationInvariant graph s) :
    ServesNodes graph s where
  hooked := h.hooked
  timed := by
    intro node request hrequest htype
    rw [h.timers]
    exact graph.count_flatMap_timers h.nodup hrequest htype
  served := h.served

/-- The nodes of the executor determine what is registered, whatever has been removed and
added before. -/
theorem ServesNodes.determined {t : RegistrationState Node Group Entity}
    (hs : ServesNodes graph s) (ht : ServesNodes graph t)
    (hnodes : ∀ node, node ∈ s.executor.nodes ↔ node ∈ t.executor.nodes) (node : Node) :
    ∀ request ∈ graph.requests node,
      (request.type ≠ .timer → s.hook request.entity = t.hook request.entity) ∧
        (request.type = .timer →
          (s.executor.timers.map PosixTimer.request).count request =
            (t.executor.timers.map PosixTimer.request).count request) := by
  intro request hrequest
  constructor
  · intro htype
    rw [hs.hooked node request hrequest htype, ht.hooked node request hrequest htype]
    simp only [hnodes]
  · intro htype
    rw [hs.timed node request hrequest htype, ht.timed node request hrequest htype]
    simp only [hnodes]

/-- The timers of a node that is removed stay registered. -/
theorem keepsTimers_of_servesNodes {build : Build} (s : RegistrationState Node Group Entity)
    (label : RegistrationLabel Node Group Entity) (t : RegistrationState Node Group Entity)
    (h : RegistrationInvariant graph s) (hstep : RegistrationStep build graph s label t)
    (ht : ServesNodes graph t) : KeepsTimers graph s label := by
  cases hstep with
  | addNode node _ _ => exact trivial
  | signal label signal hother hstep => exact trivial
  | notify slot count => exact trivial
  | removeNode node _ _ =>
      intro hpresent
      by_contra htimers
      obtain ⟨timer, htimer⟩ := List.exists_mem_of_ne_nil _ htimers
      obtain ⟨hrequest, htype⟩ :=
        NodeGraph.mem_timers_iff.mp (List.mem_map_of_mem (f := NodeTimer.request) htimer)
      have hbefore := h.servesNodes.timed node _ hrequest htype
      have hafter := ht.timed node _ hrequest htype
      rw [removeNode_executor] at hafter
      change (s.executor.timers.map _).count _ =
        if node ∈ s.executor.nodes.erase node then 1 else 0 at hafter
      rw [hbefore, if_pos hpresent, if_neg h.nodup.not_mem_erase] at hafter
      cases hafter

/-- The executor serves exactly its nodes in the runs in which no node that has timers is
removed. -/
theorem servesNodes_iff_keepsTimers {build : Build}
    {trace : List (Move (RegistrationState Node Group Entity)
      (RegistrationLabel Node Group Entity))}
    {finish : RegistrationState Node Group Entity}
    (hrun : Run (RegistrationStep build graph) RegistrationState.initial trace finish) :
    Throughout (ServesNodes graph) RegistrationState.initial trace ↔
      Admitted (KeepsTimers graph) trace :=
  hrun.throughout_iff_admitted (fun _ => RegistrationInvariant.servesNodes)
    registrationInvariant_step keepsTimers_of_servesNodes registrationInvariant_initial

end Steps

/-! ## Two nodes -/

/-- A node with a timer and a subscription that has a waitable, and one with a service. -/
def twoNodes : NodeGraph ℕ ℕ ℕ where
  groups
    | 0 => [⟨0, [⟨0, some 1⟩], [], [], [(2, 10)], [1]⟩]
    | 1 => [⟨1, [], [3], [], [], []⟩]
    | _ => []
  owner entity := if entity = 3 then 1 else 0
  reported _ unread := unread
  owned
    | 0 => by decide
    | 1 => by decide
    | _ + 2 => by simp
  distinct
    | 0 => by decide
    | 1 => by decide
    | _ + 2 => by simp
  shared
    | 0 => by simp
    | 1 => by simp
    | _ + 2 => by simp

/-- The node without timers is removed from the started executor and added again. -/
theorem readded_servesNodes :
    ∃ (trace : List (Move (RegistrationState ℕ ℕ ℕ) (RegistrationLabel ℕ ℕ ℕ)))
      (finish : RegistrationState ℕ ℕ ℕ),
      Run (RegistrationStep .rtems twoNodes) RegistrationState.initial trace finish ∧
        Throughout (ServesNodes twoNodes) RegistrationState.initial trace ∧
          finish.executor.nodes = [0, 1] ∧ finish.hook 3 = some ⟨.service, 1, 3⟩ := by
  have hrun : Run (RegistrationStep .rtems twoNodes)
      (.initial : RegistrationState ℕ ℕ ℕ) _ _ :=
    .cons (.addNode _ 0 rfl rfl) <| .cons (.addNode _ 1 rfl rfl) <|
    .cons (.signal _ (.call (.start _)) _ id
      (.call _ _ _ (.start _ (numbered 1 1) rfl rfl (fresh_numbered (by decide))))) <|
    .cons (.removeNode _ 1 rfl rfl) <| .cons (.addNode _ 1 rfl rfl) <| .nil _
  refine ⟨_, _, hrun, (servesNodes_iff_keepsTimers hrun).mpr ?_, rfl, rfl⟩
  exact .cons trivial <| .cons trivial <| .cons trivial <| .cons (fun _ => rfl) <|
    .cons trivial <| .nil _

/-- The timer of the other node is dispatched after the node has been removed. -/
theorem removed_timer_is_dispatched :
    ∃ (trace : List (Move (RegistrationState ℕ ℕ ℕ) (RegistrationLabel ℕ ℕ ℕ)))
      (finish : RegistrationState ℕ ℕ ℕ),
      Run (RegistrationStep .rtems twoNodes) RegistrationState.initial trace finish ∧
        finish.dispatched = [⟨⟨.timer, 0, 2⟩, []⟩] ∧
          ¬ Throughout (ServesNodes twoNodes) RegistrationState.initial trace := by
  have hrun : Run (RegistrationStep .rtems twoNodes)
      (.initial : RegistrationState ℕ ℕ ℕ) _ _ :=
    .cons (.addNode _ 0 rfl rfl) <|
    .cons (.signal _ (.call (.start _)) _ id
      (.call _ _ _ (.start _ (numbered 1 1) rfl rfl (fresh_numbered (by decide))))) <|
    .cons (.removeNode _ 0 rfl rfl) <|
    .cons (.signal _ (.expire 1) _ id (.expire _ 1 ⟨0, some 10⟩ ⟨10, 2, 0, 1, 0⟩ rfl rfl)) <|
    .nil _
  refine ⟨_, _, hrun, rfl, ?_⟩
  intro hall
  obtain ⟨node, hnode, -⟩ :=
    (hrun.finish_of_throughout hall).served ⟨⟨.timer, 0, 2⟩, []⟩ List.mem_cons_self
  cases hnode

end RosRtems.NoExecutor
