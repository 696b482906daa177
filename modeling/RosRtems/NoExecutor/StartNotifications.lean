import RosRtems.Core.Runs
import RosRtems.IntraProcess.SubscriptionIntraProcess
import RosRtems.NoExecutor.Executables

/-!
# Notifications around the start

A subscription reports its messages to a handler that `add_node` installs, and counts
them while it has none.  The handlers drop what they are told while the executor is not
started, and the one that is installed first in the slot of the intra-process half
dispatches the other half.  No buffered message stays behind where both are avoided.
-/

namespace RosRtems.NoExecutor

open RosRtems.Runs RosRtems.KeepLast RosRtems.IntraProcess RosRtems.RingBuffer

variable {Node Sub Message : Type*}

/-! ## The two halves of a subscription -/

/-- The half that the middleware serves.  It counts the messages that arrive while no
handler is installed, and reports the count to the next one. -/
structure Reader (Message : Type*) where
  history : HistoryPolicy
  depth : ℕ
  messages : List Message
  hooked : Bool
  unreadCount : ℕ

/-- The history of the reader keeps all messages, or the last ones. -/
def Reader.store (reader : Reader Message) (message : Message) : Reader Message :=
  { reader with
    messages :=
      match reader.history with
      | .keepAll => reader.messages ++ [message]
      | .other => push reader.depth reader.messages message }

/-- A subscription with what is on its way: the notifications of messages that have been
stored, and the jobs that have been dispatched.  A handler of the intra-process half is
named by the type of its executable. -/
structure SubState (Message : Type*) where
  reader : Reader Message
  ipc : SubscriptionIntraProcess Message ExecutableType
  readerNotifications : ℕ
  ipcNotifications : ℕ
  jobs : ExecutableType → ℕ

namespace SubState

variable (sub : SubState Message)

/-- The handlers `handle_subscription` and `handle_waitable`. -/
def handle (started : Bool) (type : ExecutableType) (count : ℕ) : SubState Message :=
  if started then
    { sub with jobs := Function.update sub.jobs type (sub.jobs type + count) }
  else sub

def storeReader (message : Message) : SubState Message :=
  { sub with
    reader := sub.reader.store message
    readerNotifications := sub.readerNotifications + 1 }

def storeIpc (message : Message) : SubState Message :=
  { sub with
    ipc := { sub.ipc with buffer := addShared sub.ipc.buffer message }
    ipcNotifications := sub.ipcNotifications + 1 }

def notifyReader (started : Bool) : SubState Message :=
  let noted := { sub with readerNotifications := sub.readerNotifications - 1 }
  if sub.reader.hooked then noted.handle started .subscription 1
  else { noted with
    reader := { sub.reader with unreadCount := sub.reader.unreadCount + 1 } }

/-- The callbacks that the intra-process half calls; the executor waits for no guard
condition. -/
def runWakeUps (started : Bool) (wakeUps : List (WakeUp ExecutableType)) :
    SubState Message :=
  wakeUps.foldl (fun sub wakeUp =>
    match wakeUp with
    | .ready type count => sub.handle started type count
    | .direct _ | .guardCondition => sub) sub

def notifyIpc (started : Bool) : SubState Message :=
  let (ipc, wakeUps) := invokeOnNewMessage sub.ipc
  { sub with ipc := ipc, ipcNotifications := sub.ipcNotifications - 1 }.runWakeUps
    started wakeUps

/-- `set_on_new_message_callback`. -/
def hookReader (started : Bool) : SubState Message :=
  let hooked := { sub with reader := { sub.reader with hooked := true, unreadCount := 0 } }
  if 0 < sub.reader.unreadCount then
    hooked.handle started .subscription sub.reader.unreadCount
  else hooked

/-- `set_on_ready_callback`, of the subscription and of its waitable. -/
def hookIpc (started : Bool) (type : ExecutableType) : SubState Message :=
  match setOnReadyCallback sub.ipc (some type) with
  | .ok (ipc, wakeUps) => { sub with ipc := ipc }.runWakeUps started wakeUps
  | .error _ => sub

/-- `execute_subscription` takes a message from the middleware. -/
def executeSubscription : SubState Message :=
  { sub with
    reader := { sub.reader with messages := sub.reader.messages.tail }
    jobs := Function.update sub.jobs .subscription (sub.jobs .subscription - 1) }

/-- The `take_data` of the waitable, which has given the intra-process half. -/
def executeWaitable (ipc : SubscriptionIntraProcess Message ExecutableType) :
    SubState Message :=
  { sub with
    ipc := ipc
    jobs := Function.update sub.jobs .waitable (sub.jobs .waitable - 1) }

end SubState

/-! ## The executor -/

/-- What `add_node` has still to install. -/
inductive Install (Sub : Type*)
  | reader (sub : Sub)
  | ipc (sub : Sub)
  | waitable (sub : Sub)

def Install.sub : Install Sub → Sub
  | .reader sub | .ipc sub | .waitable sub => sub

/-- The subscriptions of the nodes, which of them use intra-process communication, and
what they were created with. -/
structure Subscriptions (Node Sub Message : Type*) where
  subs : Node → List Sub
  useIntraProcess : Sub → Bool
  history : Sub → HistoryPolicy
  depth : Sub → ℕ
  ipc : Sub → SubscriptionIntraProcess Message ExecutableType
  created : ∀ sub, ∃ bufferType takesShared,
    createSubscription bufferType takesShared (history sub) (depth sub) = .ok (ipc sub)

namespace Subscriptions

variable (system : Subscriptions Node Sub Message) (node : Node)

def subscriptionInstalls : List (Install Sub) :=
  (system.subs node).flatMap fun sub =>
    .reader sub :: if system.useIntraProcess sub then [.ipc sub] else []

def waitableInstalls : List (Install Sub) :=
  ((system.subs node).filter system.useIntraProcess).map .waitable

/-- In the order of `collect_all_ptrs`. -/
def installs : List (Install Sub) :=
  system.subscriptionInstalls node ++ system.waitableInstalls node

end Subscriptions

structure StartState (Node Sub Message : Type*) where
  started : Bool
  nodes : List Node
  installs : List (Install Sub)
  sub : Sub → SubState Message

def StartState.initial (system : Subscriptions Node Sub Message) :
    StartState Node Sub Message where
  started := false
  nodes := []
  installs := []
  sub sub := {
    reader := ⟨system.history sub, system.depth sub, [], false, 0⟩
    ipc := system.ipc sub
    readerNotifications := 0
    ipcNotifications := 0
    jobs := fun _ => 0 }

variable [DecidableEq Sub]

def StartState.setSub (s : StartState Node Sub Message) (sub : Sub)
    (state : SubState Message) : StartState Node Sub Message :=
  { s with sub := Function.update s.sub sub state }

def StartState.install (s : StartState Node Sub Message) :
    Install Sub → StartState Node Sub Message
  | .reader sub => s.setSub sub ((s.sub sub).hookReader s.started)
  | .ipc sub => s.setSub sub ((s.sub sub).hookIpc s.started .subscription)
  | .waitable sub => s.setSub sub ((s.sub sub).hookIpc s.started .waitable)

inductive StartLabel (Node Sub Message : Type*)
  | start
  | stop
  | addNode (node : Node)
  | install (install : Install Sub)
  | publishReader (sub : Sub) (message : Message)
  | publishIpc (sub : Sub) (message : Message)
  | notifyReader (sub : Sub)
  | notifyIpc (sub : Sub)
  | executeSubscription (sub : Sub)
  | executeWaitable (sub : Sub)

/-- Any order of the publications, of their notifications, of the jobs and of the calls,
where `add_node` takes a step for each handler that it installs. -/
inductive StartStep (system : Subscriptions Node Sub Message) :
    StartState Node Sub Message → StartLabel Node Sub Message →
      StartState Node Sub Message → Prop
  | start (s : StartState Node Sub Message) :
      StartStep system s .start { s with started := true }
  | stop (s : StartState Node Sub Message) :
      StartStep system s .stop { s with started := false }
  | addNode (s : StartState Node Sub Message) (node : Node) (hnew : node ∉ s.nodes)
      (hdone : s.installs = []) :
      StartStep system s (.addNode node)
        { s with nodes := s.nodes ++ [node], installs := system.installs node }
  | install (s : StartState Node Sub Message) (install : Install Sub)
      (rest : List (Install Sub)) (hnext : s.installs = install :: rest) :
      StartStep system s (.install install) { s.install install with installs := rest }
  | publishReader (s : StartState Node Sub Message) (sub : Sub) (message : Message) :
      StartStep system s (.publishReader sub message)
        (s.setSub sub ((s.sub sub).storeReader message))
  | publishIpc (s : StartState Node Sub Message) (sub : Sub) (message : Message)
      (huse : system.useIntraProcess sub = true) :
      StartStep system s (.publishIpc sub message)
        (s.setSub sub ((s.sub sub).storeIpc message))
  | notifyReader (s : StartState Node Sub Message) (sub : Sub)
      (hpending : 0 < (s.sub sub).readerNotifications) :
      StartStep system s (.notifyReader sub)
        (s.setSub sub ((s.sub sub).notifyReader s.started))
  | notifyIpc (s : StartState Node Sub Message) (sub : Sub)
      (hpending : 0 < (s.sub sub).ipcNotifications) :
      StartStep system s (.notifyIpc sub)
        (s.setSub sub ((s.sub sub).notifyIpc s.started))
  | executeSubscription (s : StartState Node Sub Message) (sub : Sub)
      (hjob : 0 < (s.sub sub).jobs .subscription) :
      StartStep system s (.executeSubscription sub)
        (s.setSub sub (s.sub sub).executeSubscription)
  | executeWaitable (s : StartState Node Sub Message) (sub : Sub) (message : Option Message)
      (ipc : SubscriptionIntraProcess Message ExecutableType)
      (wakeUps : List (WakeUp ExecutableType)) (hjob : 0 < (s.sub sub).jobs .waitable)
      (htake : takeData (s.sub sub).ipc = .ok (message, ipc, wakeUps)) :
      StartStep system s (.executeWaitable sub)
        (s.setSub sub ((s.sub sub).executeWaitable ipc))

/-- No notification of the subscription and no job is on its way. -/
def SubState.Settled (sub : SubState Message) : Prop :=
  sub.readerNotifications = 0 ∧ sub.ipcNotifications = 0 ∧ ∀ type, sub.jobs type = 0

/-- Once started, a subscription of an added node for which nothing is on its way has no
message left. -/
def NothingLeft (system : Subscriptions Node Sub Message)
    (s : StartState Node Sub Message) : Prop :=
  s.started = true → ∀ node ∈ s.nodes, ∀ sub ∈ system.subs node,
    (∀ install ∈ s.installs, install.sub ≠ sub) → (s.sub sub).Settled →
      (s.sub sub).reader.messages = [] ∧
        (system.useIntraProcess sub = true → isReady (s.sub sub).ipc = false)

/-- A handler is told of messages only while the executor is started, and of those of the
intra-process half only where it is the handler of the waitable. -/
def HandledStarted (s : StartState Node Sub Message) :
    StartLabel Node Sub Message → Prop
  | .notifyReader sub => (s.sub sub).reader.hooked = true → s.started = true
  | .notifyIpc sub => ∀ type, (s.sub sub).ipc.onNewMessageCallback = some type →
      type = .waitable ∧ s.started = true
  | .install (.reader sub) => 0 < (s.sub sub).reader.unreadCount → s.started = true
  | .install (.ipc sub) => (s.sub sub).ipc.unreadCount = 0
  | .install (.waitable _) => True
  | .start | .stop | .addNode _ => True
  | .publishReader _ _ | .publishIpc _ _ => True
  | .executeSubscription _ | .executeWaitable _ => True

/-! ## One subscription -/

section Subscription

variable {sub : SubState Message} {started : Bool}

/-- A stored message has a notification or a job, or is counted as unread, which none is
once there is a handler. -/
structure SubInvariant (sub : SubState Message) : Prop where
  reader : sub.reader.messages.length ≤
    sub.readerNotifications + sub.jobs .subscription + sub.reader.unreadCount
  readerTold : sub.reader.hooked = true → sub.reader.unreadCount = 0
  ipc : ∃ stored, Stores sub.ipc.buffer stored ∧
    stored.length ≤ sub.ipcNotifications + sub.jobs .waitable + sub.ipc.unreadCount
  ipcTold : sub.ipc.onNewMessageCallback ≠ none → sub.ipc.unreadCount = 0
  indirect : sub.ipc.directNotifyCallback = none

/-- The invariant holds after a step, and handlers that were installed still are. -/
structure Progress (before after : SubState Message) : Prop where
  invariant : SubInvariant after
  reader : before.reader.hooked = true → after.reader.hooked = true
  ipc : before.ipc.onNewMessageCallback ≠ none → after.ipc.onNewMessageCallback ≠ none

theorem push_length_le {A : Type*} (capacity : ℕ) (queue : List A) (item : A) :
    (push capacity queue item).length ≤ queue.length + 1 := by
  rw [push]
  split <;> simp

theorem progress_storeReader (h : SubInvariant sub) (message : Message) :
    Progress sub (sub.storeReader message) := by
  have hlength : (sub.reader.store message).messages.length ≤
      sub.reader.messages.length + 1 := by
    rw [Reader.store]
    split
    · simp
    · exact push_length_le _ _ _
  have hreader := h.reader
  refine ⟨⟨?_, h.readerTold, h.ipc, h.ipcTold, h.indirect⟩, id, id⟩
  change (sub.reader.store message).messages.length ≤
    sub.readerNotifications + 1 + sub.jobs .subscription + sub.reader.unreadCount
  omega

theorem progress_storeIpc (h : SubInvariant sub) (message : Message) :
    Progress sub (sub.storeIpc message) := by
  obtain ⟨stored, hstored, hlength⟩ := h.ipc
  have hmore := push_length_le sub.ipc.buffer.buffer.capacity stored message
  refine ⟨⟨h.reader, h.readerTold, ⟨_, addShared_stores hstored message, ?_⟩, h.ipcTold,
    h.indirect⟩, id, id⟩
  change _ ≤ sub.ipcNotifications + 1 + sub.jobs .waitable + sub.ipc.unreadCount
  omega

theorem progress_notifyReader (h : SubInvariant sub) (hpending : 0 < sub.readerNotifications)
    (hstarted : sub.reader.hooked = true → started = true) :
    Progress sub (sub.notifyReader started) := by
  have hreader := h.reader
  rw [SubState.notifyReader]
  split
  · rename_i hhooked
    rw [SubState.handle, if_pos (hstarted hhooked)]
    refine ⟨⟨?_, h.readerTold, h.ipc, h.ipcTold, h.indirect⟩, id, id⟩
    change sub.reader.messages.length ≤ sub.readerNotifications - 1 +
      Function.update sub.jobs .subscription (sub.jobs .subscription + 1) .subscription +
      sub.reader.unreadCount
    rw [Function.update_self]
    omega
  · rename_i hunhooked
    refine ⟨⟨?_, fun hhooked => absurd hhooked hunhooked, h.ipc, h.ipcTold, h.indirect⟩,
      id, id⟩
    change sub.reader.messages.length ≤ sub.readerNotifications - 1 +
      sub.jobs .subscription + (sub.reader.unreadCount + 1)
    omega

theorem progress_notifyIpc (h : SubInvariant sub) (hpending : 0 < sub.ipcNotifications)
    (hstarted : ∀ type, sub.ipc.onNewMessageCallback = some type →
      type = .waitable ∧ started = true) : Progress sub (sub.notifyIpc started) := by
  obtain ⟨stored, hstored, hlength⟩ := h.ipc
  rcases hhook : sub.ipc.onNewMessageCallback with _ | type
  · have hafter : sub.notifyIpc started = { sub with
        ipc := { sub.ipc with unreadCount := sub.ipc.unreadCount + 1 }
        ipcNotifications := sub.ipcNotifications - 1 } := by
      simp [SubState.notifyIpc, invokeOnNewMessage, h.indirect, hhook, SubState.runWakeUps]
    rw [hafter]
    refine ⟨⟨h.reader, h.readerTold, ⟨stored, hstored, ?_⟩, fun hset => absurd hhook hset,
      h.indirect⟩, id, id⟩
    change stored.length ≤ sub.ipcNotifications - 1 + sub.jobs .waitable +
      (sub.ipc.unreadCount + 1)
    omega
  · obtain ⟨rfl, rfl⟩ := hstarted type hhook
    have hafter : sub.notifyIpc true = { sub with
        ipcNotifications := sub.ipcNotifications - 1
        jobs := Function.update sub.jobs .waitable (sub.jobs .waitable + 1) } := by
      simp [SubState.notifyIpc, invokeOnNewMessage, h.indirect, hhook, SubState.runWakeUps,
        SubState.handle]
    rw [hafter]
    refine ⟨⟨?_, h.readerTold, ⟨stored, hstored, ?_⟩, h.ipcTold, h.indirect⟩, id, id⟩
    · change sub.reader.messages.length ≤ sub.readerNotifications +
        Function.update sub.jobs .waitable (sub.jobs .waitable + 1) .subscription +
        sub.reader.unreadCount
      rw [Function.update_of_ne (by decide)]
      exact h.reader
    · change stored.length ≤ sub.ipcNotifications - 1 +
        Function.update sub.jobs .waitable (sub.jobs .waitable + 1) .waitable +
        sub.ipc.unreadCount
      rw [Function.update_self]
      omega

theorem progress_hookReader (h : SubInvariant sub)
    (hstarted : 0 < sub.reader.unreadCount → started = true) :
    Progress sub (sub.hookReader started) ∧
      (sub.hookReader started).reader.hooked = true := by
  have hreader := h.reader
  rw [SubState.hookReader]
  split
  · rename_i hunread
    rw [SubState.handle, if_pos (hstarted hunread)]
    refine ⟨⟨⟨?_, fun _ => rfl, h.ipc, h.ipcTold, h.indirect⟩, fun _ => rfl, id⟩, rfl⟩
    change sub.reader.messages.length ≤ sub.readerNotifications + Function.update sub.jobs
      .subscription (sub.jobs .subscription + sub.reader.unreadCount) .subscription + 0
    rw [Function.update_self]
    omega
  · refine ⟨⟨⟨?_, fun _ => rfl, h.ipc, h.ipcTold, h.indirect⟩, fun _ => rfl, id⟩, rfl⟩
    change sub.reader.messages.length ≤ sub.readerNotifications + sub.jobs .subscription + 0
    omega

/-- A handler that finds nothing unread is installed and told nothing. -/
theorem hookIpc_eq (hunread : sub.ipc.unreadCount = 0) (type : ExecutableType) :
    sub.hookIpc started type =
      { sub with ipc := { sub.ipc with onNewMessageCallback := some type } } := by
  simp [SubState.hookIpc, setOnReadyCallback, hunread, SubState.runWakeUps]

theorem progress_hookIpc (started : Bool) (h : SubInvariant sub)
    (hunread : sub.ipc.unreadCount = 0) (type : ExecutableType) :
    Progress sub (sub.hookIpc started type) ∧
      (sub.hookIpc started type).ipc.onNewMessageCallback ≠ none := by
  rw [hookIpc_eq hunread]
  exact ⟨⟨⟨h.reader, h.readerTold, h.ipc, fun _ => hunread, h.indirect⟩, id, fun _ => nofun⟩,
    nofun⟩

theorem progress_executeSubscription (h : SubInvariant sub)
    (hjob : 0 < sub.jobs .subscription) : Progress sub sub.executeSubscription := by
  obtain ⟨stored, hstored, hlength⟩ := h.ipc
  have hreader := h.reader
  refine ⟨⟨?_, h.readerTold, ⟨stored, hstored, ?_⟩, h.ipcTold, h.indirect⟩, id, id⟩
  · change sub.reader.messages.tail.length ≤ sub.readerNotifications + Function.update
      sub.jobs .subscription (sub.jobs .subscription - 1) .subscription +
      sub.reader.unreadCount
    rw [Function.update_self, List.length_tail]
    omega
  · change stored.length ≤ sub.ipcNotifications + Function.update sub.jobs .subscription
      (sub.jobs .subscription - 1) .waitable + sub.ipc.unreadCount
    rwa [Function.update_of_ne (by decide)]

/-- A take removes the oldest message where there is one. -/
theorem takeData_stores {ipc after : SubscriptionIntraProcess Message ExecutableType}
    {stored : List Message} {message : Option Message}
    {wakeUps : List (WakeUp ExecutableType)} (hstored : Stores ipc.buffer stored)
    (htake : takeData ipc = .ok (message, after, wakeUps)) :
    ∃ buffer, after = { ipc with buffer := buffer } ∧ Stores buffer stored.tail := by
  cases stored with
  | nil =>
      rw [takeData_of_nil hstored] at htake
      split at htake
      · cases htake
      · simp only [Except.ok.injEq, Prod.mk.injEq] at htake
        exact ⟨ipc.buffer, htake.2.1.symm, hstored⟩
  | cons first rest =>
      obtain ⟨buffer, hrest, htaken⟩ := takeData_of_cons hstored
      rw [htaken] at htake
      simp only [Except.ok.injEq, Prod.mk.injEq] at htake
      exact ⟨buffer, htake.2.1.symm, hrest⟩

theorem progress_executeWaitable (h : SubInvariant sub) (hjob : 0 < sub.jobs .waitable)
    {message : Option Message} {ipc : SubscriptionIntraProcess Message ExecutableType}
    {wakeUps : List (WakeUp ExecutableType)}
    (htake : takeData sub.ipc = .ok (message, ipc, wakeUps)) :
    Progress sub (sub.executeWaitable ipc) := by
  obtain ⟨stored, hstored, hlength⟩ := h.ipc
  obtain ⟨buffer, rfl, hrest⟩ := takeData_stores hstored htake
  refine ⟨⟨?_, h.readerTold, ⟨_, hrest, ?_⟩, h.ipcTold, h.indirect⟩, id, id⟩
  · change sub.reader.messages.length ≤ sub.readerNotifications + Function.update sub.jobs
      .waitable (sub.jobs .waitable - 1) .subscription + sub.reader.unreadCount
    rw [Function.update_of_ne (by decide)]
    exact h.reader
  · change stored.tail.length ≤ sub.ipcNotifications + Function.update sub.jobs .waitable
      (sub.jobs .waitable - 1) .waitable + sub.ipc.unreadCount
    rw [Function.update_self, List.length_tail]
    omega

end Subscription

/-! ## The executor -/

section Executor

variable {system : Subscriptions Node Sub Message} {s : StartState Node Sub Message}

/-- Every subscription keeps its invariant, `add_node` comes to a waitable after its
subscription, and every handler of a node has been installed or is still to be. -/
structure StartInvariant (system : Subscriptions Node Sub Message)
    (s : StartState Node Sub Message) : Prop where
  subs : ∀ sub, SubInvariant (s.sub sub)
  ordered : ∀ before sub after, s.installs = before ++ .waitable sub :: after →
    .ipc sub ∈ before ∨ (s.sub sub).ipc.onNewMessageCallback ≠ none
  readers : ∀ node ∈ s.nodes, ∀ sub ∈ system.subs node,
    .reader sub ∈ s.installs ∨ (s.sub sub).reader.hooked = true
  ipcs : ∀ node ∈ s.nodes, ∀ sub ∈ system.subs node, system.useIntraProcess sub = true →
    .waitable sub ∈ s.installs ∨ (s.sub sub).ipc.onNewMessageCallback ≠ none

omit [DecidableEq Sub] in
theorem waitable_mem_iff {node : Node} {sub : Sub} :
    .waitable sub ∈ system.waitableInstalls node ↔
      sub ∈ system.subs node ∧ system.useIntraProcess sub = true := by
  simp [Subscriptions.waitableInstalls]

omit [DecidableEq Sub] in
theorem waitable_not_mem (node : Node) (sub : Sub) :
    .waitable sub ∉ system.subscriptionInstalls node := by
  intro hmem
  obtain ⟨other, -, hin⟩ := List.mem_flatMap.mp hmem
  split at hin <;> simp at hin

omit [DecidableEq Sub] in
/-- All subscriptions of a node come before the waitables. -/
theorem installs_ordered {node : Node} {before after : List (Install Sub)} {sub : Sub}
    (hsplit : system.installs node = before ++ .waitable sub :: after) :
    .ipc sub ∈ before := by
  have hfind : ∃ rest, before = system.subscriptionInstalls node ++ rest ∧
      .waitable sub ∈ system.waitableInstalls node := by
    obtain ⟨rest, hbefore, hrest⟩ | ⟨rest, hfirst, hrest⟩ :=
      List.append_eq_append_iff.mp hsplit
    · refine ⟨rest, hbefore, ?_⟩
      rw [hrest]
      exact List.mem_append_right _ List.mem_cons_self
    · cases rest with
      | nil =>
          refine ⟨[], by simpa using hfirst.symm, ?_⟩
          rw [← List.nil_append (system.waitableInstalls node), ← hrest]
          exact List.mem_cons_self
      | cons head rest =>
          obtain ⟨rfl, -⟩ := List.cons.inj hrest
          have hmem : .waitable sub ∈ system.subscriptionInstalls node := by
            rw [hfirst]
            exact List.mem_append_right _ List.mem_cons_self
          exact absurd hmem (waitable_not_mem node sub)
  obtain ⟨rest, hbefore, hmem⟩ := hfind
  obtain ⟨hsub, huse⟩ := waitable_mem_iff.mp hmem
  rw [hbefore]
  apply List.mem_append_left
  exact List.mem_flatMap.mpr ⟨sub, hsub, by simp [huse]⟩

/-- A subscription that makes progress leaves the others alone. -/
theorem StartInvariant.setSub (h : StartInvariant system s) {sub : Sub}
    {state : SubState Message} (hprogress : Progress (s.sub sub) state) :
    StartInvariant system (s.setSub sub state) := by
  have hreader : ∀ other, (s.sub other).reader.hooked = true →
      ((s.setSub sub state).sub other).reader.hooked = true :=
    (Function.forall_update_iff s.sub (p := fun other after =>
      (s.sub other).reader.hooked = true → after.reader.hooked = true)).mpr
        ⟨hprogress.reader, fun _ _ => id⟩
  have hipc : ∀ other, (s.sub other).ipc.onNewMessageCallback ≠ none →
      ((s.setSub sub state).sub other).ipc.onNewMessageCallback ≠ none :=
    (Function.forall_update_iff s.sub (p := fun other after =>
      (s.sub other).ipc.onNewMessageCallback ≠ none →
        after.ipc.onNewMessageCallback ≠ none)).mpr ⟨hprogress.ipc, fun _ _ => id⟩
  constructor
  · exact (Function.forall_update_iff s.sub (p := fun _ after => SubInvariant after)).mpr
      ⟨hprogress.invariant, fun other _ => h.subs other⟩
  · exact fun before other after hsplit =>
      (h.ordered before other after hsplit).imp_right (hipc other)
  · exact fun node hnode other hother =>
      (h.readers node hnode other hother).imp_right (hreader other)
  · exact fun node hnode other hother huse =>
      (h.ipcs node hnode other hother huse).imp_right (hipc other)

omit [DecidableEq Sub] in
/-- The first of the handlers to come is installed, the others are still to come. -/
theorem mem_or_of_head {first install : Install Sub} {rest : List (Install Sub)}
    {hooked : Prop} (hfirst : install = first → hooked)
    (h : install ∈ first :: rest ∨ hooked) : install ∈ rest ∨ hooked := by
  rcases h with hmem | hhooked
  · rcases List.mem_cons.mp hmem with hsame | hrest
    · exact .inr (hfirst hsame)
    · exact .inl hrest
  · exact .inr hhooked

/-- A subscription makes progress by the handler that comes next. -/
theorem StartInvariant.installed (h : StartInvariant system s) {install : Install Sub}
    {rest : List (Install Sub)} (hnext : s.installs = install :: rest) {sub : Sub}
    {state : SubState Message} (hinstall : s.install install = s.setSub sub state)
    (hprogress : Progress (s.sub sub) state)
    (hreader : ∀ other, install = .reader other →
      ((s.install install).sub other).reader.hooked = true)
    (hipc : ∀ other, install = .ipc other ∨ install = .waitable other →
      ((s.install install).sub other).ipc.onNewMessageCallback ≠ none) :
    StartInvariant system { s.install install with installs := rest } := by
  have hset := h.setSub hprogress
  rw [← hinstall] at hset
  have hbefore : (s.install install).installs = install :: rest := by
    rw [hinstall]
    exact hnext
  constructor
  · exact hset.subs
  · intro before other after hsplit
    change rest = before ++ .waitable other :: after at hsplit
    apply mem_or_of_head fun hsame => hipc other (.inl hsame.symm)
    apply hset.ordered (install :: before) other after
    rw [hbefore, hsplit, List.cons_append]
  · intro node hnode other hother
    apply mem_or_of_head fun hsame => hreader other hsame.symm
    rw [← hbefore]
    exact hset.readers node hnode other hother
  · intro node hnode other hother huse
    apply mem_or_of_head fun hsame => hipc other (.inr hsame.symm)
    rw [← hbefore]
    exact hset.ipcs node hnode other hother huse

/-- What comes next is installed. -/
theorem StartInvariant.install (h : StartInvariant system s) {install : Install Sub}
    {rest : List (Install Sub)} (hnext : s.installs = install :: rest)
    (hadmits : HandledStarted s (.install install)) :
    StartInvariant system { s.install install with installs := rest } := by
  cases install with
  | reader sub =>
      obtain ⟨hprogress, hhooked⟩ := progress_hookReader (h.subs sub) hadmits
      refine h.installed hnext rfl hprogress ?_ (by simp)
      rintro other ⟨⟩
      simpa [StartState.install, StartState.setSub] using hhooked
  | ipc sub =>
      obtain ⟨hprogress, hhooked⟩ :=
        progress_hookIpc s.started (h.subs sub) hadmits .subscription
      refine h.installed hnext rfl hprogress (by simp) ?_
      rintro other (hsame | hsame)
      · cases hsame
        simpa [StartState.install, StartState.setSub] using hhooked
      · cases hsame
  | waitable sub =>
      -- the slot has had a handler since its subscription came
      have hslot := (h.ordered [] sub rest hnext).resolve_left List.not_mem_nil
      obtain ⟨hprogress, hhooked⟩ := progress_hookIpc s.started (h.subs sub)
        ((h.subs sub).ipcTold hslot) .waitable
      refine h.installed hnext rfl hprogress (by simp) ?_
      rintro other (hsame | hsame)
      · cases hsame
      · cases hsame
        simpa [StartState.install, StartState.setSub] using hhooked

theorem startInvariant_step (s : StartState Node Sub Message)
    (label : StartLabel Node Sub Message) (t : StartState Node Sub Message)
    (h : StartInvariant system s) (hadmits : HandledStarted s label)
    (hstep : StartStep system s label t) : StartInvariant system t := by
  cases hstep with
  | start => exact ⟨h.subs, h.ordered, h.readers, h.ipcs⟩
  | stop => exact ⟨h.subs, h.ordered, h.readers, h.ipcs⟩
  | addNode node hnew hdone =>
      have hempty : ∀ install, install ∉ s.installs := by simp [hdone]
      refine ⟨h.subs, fun before sub after hsplit => .inl (installs_ordered hsplit), ?_, ?_⟩
      · intro other hother sub hsub
        rcases List.mem_append.mp hother with hbefore | hnow
        · exact .inr ((h.readers other hbefore sub hsub).resolve_left (hempty _))
        · rw [List.mem_singleton.mp hnow] at hsub
          apply Or.inl
          apply List.mem_append_left
          exact List.mem_flatMap.mpr ⟨sub, hsub, List.mem_cons_self⟩
      · intro other hother sub hsub huse
        rcases List.mem_append.mp hother with hbefore | hnow
        · exact .inr ((h.ipcs other hbefore sub hsub huse).resolve_left (hempty _))
        · rw [List.mem_singleton.mp hnow] at hsub
          apply Or.inl
          exact List.mem_append_right _ (waitable_mem_iff.mpr ⟨hsub, huse⟩)
  | install install rest hnext => exact h.install hnext hadmits
  | publishReader sub message => exact h.setSub (progress_storeReader (h.subs sub) message)
  | publishIpc sub message huse => exact h.setSub (progress_storeIpc (h.subs sub) message)
  | notifyReader sub hpending =>
      exact h.setSub (progress_notifyReader (h.subs sub) hpending hadmits)
  | notifyIpc sub hpending =>
      exact h.setSub (progress_notifyIpc (h.subs sub) hpending hadmits)
  | executeSubscription sub hjob =>
      exact h.setSub (progress_executeSubscription (h.subs sub) hjob)
  | executeWaitable sub message ipc wakeUps hjob htake =>
      exact h.setSub (progress_executeWaitable (h.subs sub) hjob htake)

omit [DecidableEq Sub] in
theorem StartInvariant.nothingLeft (h : StartInvariant system s) : NothingLeft system s := by
  intro _ node hnode sub hsub hinstalled ⟨hreaderNone, hipcNone, hjobs⟩
  have hinvariant := h.subs sub
  constructor
  · have hhooked := (h.readers node hnode sub hsub).resolve_left
      fun hmem => hinstalled _ hmem rfl
    have hlength := hinvariant.reader
    rw [hreaderNone, hjobs, hinvariant.readerTold hhooked] at hlength
    exact List.length_eq_zero_iff.mp (Nat.le_zero.mp hlength)
  · intro huse
    have hhooked := (h.ipcs node hnode sub hsub huse).resolve_left
      fun hmem => hinstalled _ hmem rfl
    obtain ⟨stored, hstored, hlength⟩ := hinvariant.ipc
    rw [hipcNone, hjobs, hinvariant.ipcTold hhooked] at hlength
    have hempty := List.length_eq_zero_iff.mp (Nat.le_zero.mp hlength)
    rw [← Bool.not_eq_true, isReady_iff hstored]
    exact not_not_intro hempty

omit [DecidableEq Sub] in
theorem startInvariant_initial : StartInvariant system (.initial system) where
  subs := by
    intro sub
    obtain ⟨bufferType, takesShared, hcreated⟩ := system.created sub
    rw [createSubscription] at hcreated
    rcases hbuffer : (create (system.depth sub) :
        Except String (RingBufferImplementation (Option Message))) with _ | buffer
    · simp [hbuffer, Except.map] at hcreated
    · simp only [hbuffer, Except.map, Except.ok.injEq] at hcreated
      obtain ⟨hwell, hcontents, -⟩ := create_wellFormed hbuffer
      constructor
      · simp [StartState.initial]
      · simp [StartState.initial]
      · refine ⟨[], ?_, Nat.zero_le _⟩
        simp only [StartState.initial, ← hcreated]
        exact ⟨hwell, by simpa using hcontents⟩
      · simp [StartState.initial, ← hcreated]
      · simp [StartState.initial, ← hcreated]
  ordered := by simp [StartState.initial]
  readers := by simp [StartState.initial]
  ipcs := by simp [StartState.initial]

/-- Where the handlers are told of messages only while the executor is started, and of those
of the intra-process half only as waitables, no buffered message stays behind. -/
theorem nothingLeft_of_handledStarted
    {trace : List (Move (StartState Node Sub Message) (StartLabel Node Sub Message))}
    {finish : StartState Node Sub Message}
    (hrun : Run (StartStep system) (.initial system) trace finish)
    (hadmitted : Admitted HandledStarted trace) :
    Throughout (NothingLeft system) (.initial system) trace :=
  hrun.throughout (fun _ => StartInvariant.nothingLeft) startInvariant_step
    startInvariant_initial hadmitted

end Executor

/-! ## One subscription of one node -/

def oneSubscription : Subscriptions ℕ ℕ ℕ where
  subs _ := [0]
  useIntraProcess _ := true
  history _ := .other
  depth _ := 2
  ipc _ := {
    buffer := ⟨.sharedPtr, ⟨2, fun _ => none, 1, 0, 0⟩⟩
    callbackTakesShared := true
    history := .other
    depth := 2
    onNewMessageCallback := none
    directNotifyCallback := none
    unreadCount := 0 }
  created _ := ⟨.sharedPtr, true, rfl⟩

/-- A message that came over the middleware before the node, and one that comes from the same
process after it, are taken. -/
theorem both_messages_taken :
    ∃ (trace : List (Move (StartState ℕ ℕ ℕ) (StartLabel ℕ ℕ ℕ)))
      (finish : StartState ℕ ℕ ℕ),
      Run (StartStep oneSubscription) (.initial oneSubscription) trace finish ∧
        Throughout (NothingLeft oneSubscription) (.initial oneSubscription) trace ∧
          finish.started = true ∧ finish.nodes = [0] ∧ finish.installs = [] ∧
            (finish.sub 0).reader.messages = [] ∧ isReady (finish.sub 0).ipc = false := by
  have hrun : Run (StartStep oneSubscription) (.initial oneSubscription) _ _ :=
    .cons (.publishReader _ 0 7) <| .cons (.notifyReader _ 0 (by decide)) <|
    .cons (.start _) <| .cons (.addNode _ 0 (by decide) rfl) <|
    .cons (.install _ (.reader 0) _ rfl) <| .cons (.install _ (.ipc 0) _ rfl) <|
    .cons (.install _ (.waitable 0) _ rfl) <| .cons (.executeSubscription _ 0 (by decide)) <|
    .cons (.publishIpc _ 0 8 rfl) <| .cons (.notifyIpc _ 0 (by decide)) <|
    .cons (.executeWaitable _ 0 (some 8) _ [] (by decide) rfl) <| .nil _
  refine ⟨_, _, hrun, nothingLeft_of_handledStarted hrun ?_, rfl, rfl, rfl, rfl, rfl⟩
  refine .cons trivial <| .cons nofun <| .cons trivial <| .cons trivial <|
    .cons (fun _ => rfl) <| .cons rfl <| .cons trivial <| .cons trivial <| .cons trivial <|
    .cons ?_ <| .cons trivial <| .nil _
  rintro type ⟨⟩
  exact ⟨rfl, rfl⟩

/-- A message whose notification comes before `start` stays behind; so does one that came
from the same process before the node, which is reported to the wrong handler. -/
theorem messages_left_behind :
    (∃ (trace : List (Move (StartState ℕ ℕ ℕ) (StartLabel ℕ ℕ ℕ)))
      (finish : StartState ℕ ℕ ℕ),
      Run (StartStep oneSubscription) (.initial oneSubscription) trace finish ∧
        (finish.sub 0).reader.messages = [7] ∧
          ¬ Throughout (NothingLeft oneSubscription) (.initial oneSubscription) trace) ∧
    ∃ (trace : List (Move (StartState ℕ ℕ ℕ) (StartLabel ℕ ℕ ℕ)))
      (finish : StartState ℕ ℕ ℕ),
      Run (StartStep oneSubscription) (.initial oneSubscription) trace finish ∧
        isReady (finish.sub 0).ipc = true ∧
          ¬ Throughout (NothingLeft oneSubscription) (.initial oneSubscription) trace := by
  constructor
  · have hrun : Run (StartStep oneSubscription) (.initial oneSubscription) _ _ :=
      .cons (.addNode _ 0 (by decide) rfl) <| .cons (.install _ (.reader 0) _ rfl) <|
      .cons (.install _ (.ipc 0) _ rfl) <| .cons (.install _ (.waitable 0) _ rfl) <|
      .cons (.publishReader _ 0 7) <| .cons (.notifyReader _ 0 (by decide)) <|
      .cons (.start _) <| .nil _
    refine ⟨_, _, hrun, rfl, fun hall => ?_⟩
    have hleft := hrun.finish_of_throughout hall rfl 0 (by decide) 0 (by decide) nofun
      ⟨rfl, rfl, by rintro ⟨⟩ <;> rfl⟩
    cases hleft.1
  · have hrun : Run (StartStep oneSubscription) (.initial oneSubscription) _ _ :=
      .cons (.publishIpc _ 0 8 rfl) <| .cons (.notifyIpc _ 0 (by decide)) <|
      .cons (.start _) <| .cons (.addNode _ 0 (by decide) rfl) <|
      .cons (.install _ (.reader 0) _ rfl) <| .cons (.install _ (.ipc 0) _ rfl) <|
      .cons (.install _ (.waitable 0) _ rfl) <|
      .cons (.executeSubscription _ 0 (by decide)) <| .nil _
    refine ⟨_, _, hrun, rfl, fun hall => ?_⟩
    have hleft := hrun.finish_of_throughout hall rfl 0 (by decide) 0 (by decide) nofun
      ⟨rfl, rfl, by rintro ⟨⟩ <;> rfl⟩
    cases hleft.2 rfl

end RosRtems.NoExecutor
