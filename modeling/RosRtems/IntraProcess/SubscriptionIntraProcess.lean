import RosRtems.IntraProcess.RingBuffer

/-!
# An intra-process subscription

The buffer of a subscription, the operations that publishers and executors call on
it, and the wake-ups these operations emit.  A publisher stores the message and
then wakes the consumer by whichever mechanism is installed: the direct-notify
callback, or else the guard condition together with the on-ready callback or the
unread count.
-/

namespace RosRtems.IntraProcess

open RosRtems.KeepLast RosRtems.RingBuffer

variable {Message Callback : Type*}

/-! ## The typed buffer -/

/-- `IntraProcessBufferType`. -/
inductive BufferType
  | sharedPtr
  | uniquePtr
  deriving DecidableEq, Repr

inductive Fault
  | nullDereference
  deriving DecidableEq, Repr

/-- `TypedIntraProcessBuffer`: a ring buffer of pointers, `none` being null. -/
structure TypedIntraProcessBuffer (Message : Type*) where
  bufferType : BufferType
  buffer : RingBufferImplementation (Option Message)

/-- A buffer of unique pointers stores a copy of the shared message. -/
def addShared (b : TypedIntraProcessBuffer Message) (message : Message) :
    TypedIntraProcessBuffer Message :=
  { b with buffer := enqueue b.buffer (some message) }

def addUnique (b : TypedIntraProcessBuffer Message) (message : Message) :
    TypedIntraProcessBuffer Message :=
  { b with buffer := enqueue b.buffer (some message) }

def consumeShared (b : TypedIntraProcessBuffer Message) :
    Option Message × TypedIntraProcessBuffer Message :=
  ((dequeue b.buffer).1, { b with buffer := (dequeue b.buffer).2 })

/-- From a buffer of shared pointers the message is copied, which dereferences the
pointer that `dequeue` has returned. -/
def consumeUnique (b : TypedIntraProcessBuffer Message) :
    Except Fault (Option Message × TypedIntraProcessBuffer Message) :=
  match b.bufferType, (dequeue b.buffer).1 with
  | .sharedPtr, none => .error .nullDereference
  | _, message => .ok (message, { b with buffer := (dequeue b.buffer).2 })

/-! ## The subscription -/

/-- The history policies that `set_on_ready_callback` tells apart. -/
inductive HistoryPolicy
  | keepAll
  | other
  deriving DecidableEq, Repr

/-- `SubscriptionIntraProcess`.  `callbackTakesShared` is
`any_callback_.use_take_shared_method()`; `history` and `depth` are those of the
profile. -/
structure SubscriptionIntraProcess (Message Callback : Type*) where
  buffer : TypedIntraProcessBuffer Message
  callbackTakesShared : Bool
  history : HistoryPolicy
  depth : ℕ
  onNewMessageCallback : Option Callback
  directNotifyCallback : Option Callback
  unreadCount : ℕ

/-- What a consumer can be woken by. -/
inductive WakeUp (Callback : Type*)
  | direct (callback : Callback)
  | ready (callback : Callback) (count : ℕ)
  | guardCondition
  deriving DecidableEq, Repr

/-- The constructor: `create_intra_process_buffer` gives the buffer the depth of the
profile as its capacity. -/
def createSubscription (bufferType : BufferType) (callbackTakesShared : Bool)
    (history : HistoryPolicy) (depth : ℕ) :
    Except String (SubscriptionIntraProcess Message Callback) :=
  (create depth).map fun buffer =>
    { buffer := ⟨bufferType, buffer⟩
      callbackTakesShared := callbackTakesShared
      history := history
      depth := depth
      onNewMessageCallback := none
      directNotifyCallback := none
      unreadCount := 0 }

section Operations

variable (sub : SubscriptionIntraProcess Message Callback)

def isReady : Bool := hasData sub.buffer.buffer

def triggerGuardCondition : List (WakeUp Callback) :=
  if sub.directNotifyCallback.isSome then [] else [.guardCondition]

def invokeOnNewMessage :
    SubscriptionIntraProcess Message Callback × List (WakeUp Callback) :=
  match sub.directNotifyCallback, sub.onNewMessageCallback with
  | some callback, _ => (sub, [.direct callback])
  | none, some callback => (sub, [.ready callback 1])
  | none, none => ({ sub with unreadCount := sub.unreadCount + 1 }, [])

/-- `provide_intra_process_message`, once the buffer holds the message. -/
def announceMessage (buffer : TypedIntraProcessBuffer Message) :
    SubscriptionIntraProcess Message Callback × List (WakeUp Callback) :=
  let stored := { sub with buffer := buffer }
  let (announced, invoked) := invokeOnNewMessage stored
  (announced, triggerGuardCondition stored ++ invoked)

def provideSharedMessage (message : Message) :
    SubscriptionIntraProcess Message Callback × List (WakeUp Callback) :=
  announceMessage sub (addShared sub.buffer message)

def provideUniqueMessage (message : Message) :
    SubscriptionIntraProcess Message Callback × List (WakeUp Callback) :=
  announceMessage sub (addUnique sub.buffer message)

def setDirectNotifyCallback (callback : Option Callback) :
    SubscriptionIntraProcess Message Callback :=
  { sub with directNotifyCallback := callback }

/-- `none` is a callback that is not callable. -/
def setOnReadyCallback (callback : Option Callback) :
    Except String
      (SubscriptionIntraProcess Message Callback × List (WakeUp Callback)) :=
  match callback with
  | none =>
      .error "The callback passed to set_on_ready_callback is not callable."
  | some callback =>
      let installed := { sub with onNewMessageCallback := some callback }
      if 0 < sub.unreadCount then
        let count := match sub.history with
          | .keepAll => sub.unreadCount
          | .other => min sub.unreadCount sub.depth
        .ok ({ installed with unreadCount := 0 }, [.ready callback count])
      else .ok (installed, [])

def clearOnReadyCallback : SubscriptionIntraProcess Message Callback :=
  { sub with onNewMessageCallback := none }

/-- The message pointer, the subscription and the wake-ups. -/
def takeData :
    Except Fault (Option Message × SubscriptionIntraProcess Message Callback ×
      List (WakeUp Callback)) :=
  (if sub.callbackTakesShared then .ok (consumeShared sub.buffer)
    else consumeUnique sub.buffer).map fun (message, buffer) =>
      let rest := { sub with buffer := buffer }
      match message with
      | none => (none, rest, [])
      | some message =>
          (some message, rest, if isReady rest then triggerGuardCondition rest else [])

end Operations

/-! ## The stored messages -/

/-- The buffer holds these messages, oldest first. -/
structure Stores (b : TypedIntraProcessBuffer Message) (stored : List Message) : Prop where
  wellFormed : WellFormed b.buffer
  contents_eq : contents b.buffer = stored.map some

section Specifications

variable {sub : SubscriptionIntraProcess Message Callback} {stored : List Message}

theorem isReady_iff (hstores : Stores sub.buffer stored) :
    isReady sub = true ↔ stored ≠ [] := by
  rw [isReady, hasData_iff, hstores.contents_eq, ne_eq, List.map_eq_nil_iff]

theorem addShared_stores {b : TypedIntraProcessBuffer Message} (hstores : Stores b stored)
    (message : Message) :
    Stores (addShared b message) (push b.buffer.capacity stored message) where
  wellFormed := enqueue_wellFormed hstores.wellFormed _
  contents_eq := by
    rw [addShared, enqueue_contents hstores.wellFormed, hstores.contents_eq, push_map]

/-- Storing a unique pointer and storing a shared one leave the same messages. -/
theorem addUnique_eq (b : TypedIntraProcessBuffer Message) (message : Message) :
    addUnique b message = addShared b message := rfl

theorem dequeue_stores {b : TypedIntraProcessBuffer Message} {message : Message}
    (hstores : Stores b (message :: stored)) :
    (dequeue b.buffer).1 = some message ∧
      Stores { b with buffer := (dequeue b.buffer).2 } stored := by
  have hcontents := hstores.contents_eq
  rw [List.map_cons] at hcontents
  obtain ⟨hhead, hrest, hwellFormed, -⟩ := dequeue_of_cons hstores.wellFormed hcontents
  exact ⟨hhead, hwellFormed, hrest⟩

/-- The subscription after a take from a buffer that is not empty. -/
def dequeued (sub : SubscriptionIntraProcess Message Callback) :
    SubscriptionIntraProcess Message Callback :=
  { sub with buffer := { sub.buffer with buffer := (dequeue sub.buffer.buffer).2 } }

/-- `take_data` yields the oldest message, and triggers the guard condition, where
that is the mechanism in force, if there is another one. -/
theorem takeData_eq_of_cons {message : Message}
    (hstores : Stores sub.buffer (message :: stored)) :
    takeData sub = .ok (some message, dequeued sub,
      if stored = [] then [] else triggerGuardCondition sub) := by
  obtain ⟨hmessage, hrest⟩ := dequeue_stores hstores
  have htaken : (if sub.callbackTakesShared then .ok (consumeShared sub.buffer)
      else consumeUnique sub.buffer) =
      Except.ok (some message,
        { sub.buffer with buffer := (dequeue sub.buffer.buffer).2 }) := by
    cases sub.callbackTakesShared <;>
      simp [consumeShared, consumeUnique, hmessage]
  have hready : isReady (dequeued sub) = true ↔ stored ≠ [] := isReady_iff hrest
  rw [takeData, htaken]
  rw [dequeued] at hready ⊢
  by_cases hempty : stored = []
  · have hno := hready.not.mpr (by simpa using hempty)
    simp [Except.map, hempty, hno]
  · have hyes := hready.mpr hempty
    simp [Except.map, hempty, hyes, triggerGuardCondition]

theorem takeData_of_cons {message : Message}
    (hstores : Stores sub.buffer (message :: stored)) :
    ∃ buffer, Stores buffer stored ∧
      takeData sub = .ok (some message, { sub with buffer := buffer },
        if stored = [] then [] else triggerGuardCondition sub) :=
  ⟨_, (dequeue_stores hstores).2, takeData_eq_of_cons hstores⟩

/-- On an empty buffer `take_data` returns null, or dereferences it. -/
theorem takeData_of_nil (hstores : Stores sub.buffer []) :
    takeData sub =
      if sub.callbackTakesShared = false ∧ sub.buffer.bufferType = .sharedPtr then
        .error .nullDereference
      else .ok (none, sub, []) := by
  have hdequeue : dequeue sub.buffer.buffer = (none, sub.buffer.buffer) :=
    dequeue_of_empty (by simp [hstores.contents_eq])
  obtain ⟨⟨bufferType, buffer⟩, takesShared, history, depth, ready, direct, unread⟩ := sub
  simp only at hdequeue
  cases takesShared <;> cases bufferType <;>
    simp [takeData, consumeShared, consumeUnique, hdequeue, Except.map]

end Specifications

end RosRtems.IntraProcess
