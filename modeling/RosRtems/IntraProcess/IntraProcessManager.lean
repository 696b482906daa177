import RosRtems.IntraProcess.SubscriptionIntraProcess
import Mathlib.Data.List.AList

/-!
# The intra-process manager

The manager keeps weak pointers to the publishers and subscriptions of the process, and
for each publisher the ids of the subscriptions it is matched with, in two lists: those
whose buffer shares messages, and those whose buffer owns them.  A message that is
published is put into the buffers of the matched subscriptions, as it is or as a copy.

An object is alive as long as a shared pointer to it exists.  Message objects have
addresses, so that it can be seen who shares one.
-/

namespace RosRtems.IntraProcessManager

open RosRtems.IntraProcess

variable {Value Callback Qos : Type*}

/-! ## Messages -/

/-- The type a message has for a publisher or a subscription: that of the ROS message, or
one that an adapter converts to it and back. -/
inductive MessageType
  | ros
  | custom (adapter : ℕ)
  deriving DecidableEq, Repr

/-- `rclcpp::TypeAdapter`, for each of the adapted types. -/
structure TypeAdapters (Value : Type*) where
  convertToRosMessage : ℕ → Value → Value
  convertToCustom : ℕ → Value → Value

structure MessageObject (Value : Type*) where
  address : ℕ
  value : Value
  deriving DecidableEq

/-! ## Publishers and subscriptions -/

/-- `rosType` stands for the ROS message type together with the allocator. -/
structure PublisherBase (Qos : Type*) where
  topicName : String
  actualQos : Qos
  rosType : ℕ
  alive : Bool

/-- `SubscriptionIntraProcessBase` and the buffer of the class derived from it. -/
structure SubscriptionBase (Value Callback Qos : Type*) where
  topicName : String
  actualQos : Qos
  rosType : ℕ
  subscribedType : MessageType
  alive : Bool
  intraProcess : SubscriptionIntraProcess (MessageObject Value) Callback

def useTakeSharedMethod (sub : SubscriptionBase Value Callback Qos) : Bool :=
  sub.intraProcess.buffer.bufferType == .sharedPtr

/-- `qosCompatible` says that `qos_check_compatible` does not report an error. -/
def canCommunicate (qosCompatible : Qos → Qos → Bool) (pub : PublisherBase Qos)
    (sub : SubscriptionBase Value Callback Qos) : Bool :=
  pub.topicName == sub.topicName && qosCompatible pub.actualQos sub.actualQos

/-! ## Providing a message to a subscription

Where a message object is allocated, it gets the next address. -/

section Provide

variable (adapters : TypeAdapters Value) (sub : SubscriptionBase Value Callback Qos)
  (message : MessageObject Value) (nextAddress : ℕ)

/-- The message is in the buffer, and the subscription has announced it. -/
def store : SubscriptionBase Value Callback Qos :=
  { sub with intraProcess := (provideSharedMessage sub.intraProcess message).1 }

/-- `provide_intra_process_data` of a shared pointer: a buffer of unique pointers copies
the message. -/
def provideSharedData : SubscriptionBase Value Callback Qos × ℕ :=
  match sub.intraProcess.buffer.bufferType with
  | .sharedPtr => (store sub message, nextAddress)
  | .uniquePtr => (store sub ⟨nextAddress, message.value⟩, nextAddress + 1)

/-- `provide_intra_process_data` of a unique pointer. -/
def provideUniqueData : SubscriptionBase Value Callback Qos × ℕ :=
  ({ sub with intraProcess := (provideUniqueMessage sub.intraProcess message).1 },
    nextAddress)

/-- `provide_intra_process_message` of a shared pointer to a ROS message. -/
def provideSharedRosMessage : SubscriptionBase Value Callback Qos × ℕ :=
  match sub.subscribedType with
  | .ros => provideSharedData sub message nextAddress
  | .custom adapter =>
      provideSharedData sub ⟨nextAddress, adapters.convertToCustom adapter message.value⟩
        (nextAddress + 1)

/-- `provide_intra_process_message` of a unique pointer to a ROS message. -/
def provideUniqueRosMessage : SubscriptionBase Value Callback Qos × ℕ :=
  match sub.subscribedType with
  | .ros => provideUniqueData sub message nextAddress
  | .custom adapter =>
      provideUniqueData sub ⟨nextAddress, adapters.convertToCustom adapter message.value⟩
        (nextAddress + 1)

end Provide

/-! ## The manager -/

/-- `SplittedSubscriptions`. -/
structure SplittedSubscriptions where
  takeShared : List ℕ
  takeOwnership : List ℕ
  deriving DecidableEq

def SplittedSubscriptions.ids (subs : SplittedSubscriptions) : List ℕ :=
  subs.takeShared ++ subs.takeOwnership

/-- The manager's maps hold the numbers of objects.  The objects themselves and the next
address belong to the process. -/
structure Manager (Value Callback Qos : Type*) where
  nextUniqueId : ℕ
  publishers : AList fun _ : ℕ => ℕ
  subscriptions : AList fun _ : ℕ => ℕ
  pubToSubs : ℕ → Option SplittedSubscriptions
  publisherObjects : ℕ → PublisherBase Qos
  subscriptionObjects : ℕ → SubscriptionBase Value Callback Qos
  nextAddress : ℕ

/-- `get_next_unique_id`.  The counter is not followed beyond the exception. -/
def getNextUniqueId (nextUniqueId : ℕ) : Except String ℕ :=
  if nextUniqueId < 2 ^ 64 then .ok nextUniqueId
  else .error
    ("exhausted the unique id's for publishers and subscribers in this process " ++
      "(congratulations your computer is either extremely fast or extremely old)")

def insertSubIdForPub (subId pubId : ℕ) (takeShared : Bool)
    (m : Manager Value Callback Qos) : Manager Value Callback Qos :=
  let subs := (m.pubToSubs pubId).getD ⟨[], []⟩
  let extended :=
    if takeShared then { subs with takeShared := subs.takeShared ++ [subId] }
    else { subs with takeOwnership := subs.takeOwnership ++ [subId] }
  { m with pubToSubs := Function.update m.pubToSubs pubId (some extended) }

section Registration

variable (qosCompatible : Qos → Qos → Bool)

/-- One turn of the loop of `add_publisher`. -/
def matchSubscription (publisher pubId : ℕ) (m : Manager Value Callback Qos)
    (entry : Σ _ : ℕ, ℕ) : Manager Value Callback Qos :=
  let sub := m.subscriptionObjects entry.2
  if sub.alive && canCommunicate qosCompatible (m.publisherObjects publisher) sub then
    insertSubIdForPub entry.1 pubId (useTakeSharedMethod sub) m
  else m

/-- `entries` are those of `subscriptions_`, in the order in which the map has them. -/
def addPublisher (entries : List (Σ _ : ℕ, ℕ)) (publisher : ℕ)
    (m : Manager Value Callback Qos) : Except String (ℕ × Manager Value Callback Qos) :=
  (getNextUniqueId m.nextUniqueId).map fun pubId =>
    let registered :=
      { m with
        nextUniqueId := m.nextUniqueId + 1
        publishers := m.publishers.insert pubId publisher
        pubToSubs := Function.update m.pubToSubs pubId (some ⟨[], []⟩) }
    (pubId, entries.foldl (matchSubscription qosCompatible publisher pubId) registered)

/-- One turn of the loop of `add_subscription`. -/
def matchPublisher (subscription subId : ℕ) (m : Manager Value Callback Qos)
    (entry : Σ _ : ℕ, ℕ) : Manager Value Callback Qos :=
  let pub := m.publisherObjects entry.2
  let sub := m.subscriptionObjects subscription
  if pub.alive && canCommunicate qosCompatible pub sub then
    insertSubIdForPub subId entry.1 (useTakeSharedMethod sub) m
  else m

/-- `entries` are those of `publishers_`. -/
def addSubscription (entries : List (Σ _ : ℕ, ℕ)) (subscription : ℕ)
    (m : Manager Value Callback Qos) : Except String (ℕ × Manager Value Callback Qos) :=
  (getNextUniqueId m.nextUniqueId).map fun subId =>
    let registered :=
      { m with
        nextUniqueId := m.nextUniqueId + 1
        subscriptions := m.subscriptions.insert subId subscription }
    (subId, entries.foldl (matchPublisher qosCompatible subscription subId) registered)

end Registration

def eraseSubscription (subId : ℕ) (m : Manager Value Callback Qos) :
    Manager Value Callback Qos :=
  { m with subscriptions := m.subscriptions.erase subId }

def removeSubscription (subId : ℕ) (m : Manager Value Callback Qos) :
    Manager Value Callback Qos :=
  { eraseSubscription subId m with
    pubToSubs := fun pubId => (m.pubToSubs pubId).map fun subs =>
      ⟨subs.takeShared.filter (· ≠ subId), subs.takeOwnership.filter (· ≠ subId)⟩ }

def removePublisher (pubId : ℕ) (m : Manager Value Callback Qos) :
    Manager Value Callback Qos :=
  { m with
    publishers := m.publishers.erase pubId
    pubToSubs := Function.update m.pubToSubs pubId none }

/-- The object, `none` being a null pointer. -/
def getSubscriptionIntraProcess (subId : ℕ) (m : Manager Value Callback Qos) :
    Option ℕ × Manager Value Callback Qos :=
  match m.subscriptions.lookup subId with
  | none => (none, m)
  | some object =>
      if (m.subscriptionObjects object).alive then (some object, m)
      else (none, eraseSubscription subId m)

/-! ## Publishing -/

def goneOutOfScope : String := "subscription has unexpectedly gone out of scope"

def failedToCast : String :=
  "failed to dynamic cast SubscriptionIntraProcessBase to " ++
    "SubscriptionIntraProcessBuffer<MessageT, Alloc, Deleter>, or to " ++
    "SubscriptionROSMsgIntraProcessBuffer<ROSMessageType,ROSMessageTypeAllocator," ++
    "ROSMessageTypeDeleter> which can happen when the publisher and " ++
    "subscription use different allocator types, which is not supported"

section Publishing

variable (adapters : TypeAdapters Value) (published : MessageType) (rosType : ℕ)

/-- What the loop of `add_shared_msg_to_buffers` does with a subscription; `none` where
both casts fail. -/
def provideShared (message : MessageObject Value) (sub : SubscriptionBase Value Callback Qos)
    (nextAddress : ℕ) : Option (SubscriptionBase Value Callback Qos × ℕ) :=
  if sub.rosType ≠ rosType then none
  else if sub.subscribedType = published then some (provideSharedData sub message nextAddress)
  else
    match published with
    | .ros => some (provideSharedRosMessage adapters sub message nextAddress)
    | .custom adapter =>
        some (provideSharedRosMessage adapters sub
          ⟨nextAddress, adapters.convertToRosMessage adapter message.value⟩ (nextAddress + 1))

/-- What the loop of `add_owned_msg_to_buffers` does with a subscription: the last one
gets the message itself, unless it has to be converted. -/
def provideOwned (message : MessageObject Value) (last : Bool)
    (sub : SubscriptionBase Value Callback Qos) (nextAddress : ℕ) :
    Option (SubscriptionBase Value Callback Qos × ℕ) :=
  if sub.rosType ≠ rosType then none
  else if sub.subscribedType = published then
    if last then some (provideUniqueData sub message nextAddress)
    else some (provideUniqueData sub ⟨nextAddress, message.value⟩ (nextAddress + 1))
  else
    match published with
    | .ros =>
        if last then some (provideUniqueRosMessage adapters sub message nextAddress)
        else some (provideUniqueRosMessage adapters sub ⟨nextAddress, message.value⟩
          (nextAddress + 1))
    | .custom adapter =>
        some (provideUniqueRosMessage adapters sub
          ⟨nextAddress, adapters.convertToRosMessage adapter message.value⟩ (nextAddress + 1))

/-- The loop of both functions, with the text of the exception it ends with.  `provide`
learns whether the subscription is the last one. -/
def visitBuffers
    (provide : Bool → SubscriptionBase Value Callback Qos → ℕ →
      Option (SubscriptionBase Value Callback Qos × ℕ)) :
    List ℕ → Manager Value Callback Qos → Manager Value Callback Qos × Option String
  | [], m => (m, none)
  | id :: ids, m =>
      match m.subscriptions.lookup id with
      | none => (m, some goneOutOfScope)
      | some object =>
          let sub := m.subscriptionObjects object
          if sub.alive then
            match provide ids.isEmpty sub m.nextAddress with
            | none => (m, some failedToCast)
            | some (provided, nextAddress) =>
                visitBuffers provide ids
                  { m with
                    subscriptionObjects :=
                      Function.update m.subscriptionObjects object provided
                    nextAddress := nextAddress }
          else visitBuffers provide ids (eraseSubscription id m)

def addSharedMsgToBuffers (message : MessageObject Value) (ids : List ℕ)
    (m : Manager Value Callback Qos) : Manager Value Callback Qos × Option String :=
  visitBuffers (fun _ => provideShared adapters published rosType message) ids m

def addOwnedMsgToBuffers (message : MessageObject Value) (ids : List ℕ)
    (m : Manager Value Callback Qos) : Manager Value Callback Qos × Option String :=
  visitBuffers (provideOwned adapters published rosType message) ids m

/-- `std::allocate_shared` of a copy. -/
def allocateShared (message : MessageObject Value) (m : Manager Value Callback Qos) :
    MessageObject Value × Manager Value Callback Qos :=
  (⟨m.nextAddress, message.value⟩, { m with nextAddress := m.nextAddress + 1 })

/-- A publisher that is not there only draws a warning. -/
def doIntraProcessPublish (pubId : ℕ) (message : MessageObject Value)
    (m : Manager Value Callback Qos) : Manager Value Callback Qos × Option String :=
  match m.pubToSubs pubId with
  | none => (m, none)
  | some subs =>
      if subs.takeOwnership.isEmpty then
        addSharedMsgToBuffers adapters published rosType message subs.takeShared m
      else if subs.takeShared.length ≤ 1 then
        addOwnedMsgToBuffers adapters published rosType message
          (subs.takeShared ++ subs.takeOwnership) m
      else
        let (shared, m) := allocateShared message m
        match addSharedMsgToBuffers adapters published rosType shared subs.takeShared m with
        | (m, some text) => (m, some text)
        | (m, none) =>
            addOwnedMsgToBuffers adapters published rosType message subs.takeOwnership m

/-- The shared pointer that is returned is null where the publisher is not there. -/
def doIntraProcessPublishAndReturnShared (pubId : ℕ) (message : MessageObject Value)
    (m : Manager Value Callback Qos) :
    Manager Value Callback Qos × Except String (Option (MessageObject Value)) :=
  match m.pubToSubs pubId with
  | none => (m, .ok none)
  | some subs =>
      if subs.takeOwnership.isEmpty then
        match
          if subs.takeShared.isEmpty then (m, none)
          else addSharedMsgToBuffers adapters published rosType message subs.takeShared m with
        | (m, some text) => (m, .error text)
        | (m, none) => (m, .ok (some message))
      else
        let (shared, m) := allocateShared message m
        match
          if subs.takeShared.isEmpty then (m, none)
          else addSharedMsgToBuffers adapters published rosType shared subs.takeShared m with
        | (m, some text) => (m, .error text)
        | (m, none) =>
            match
              addOwnedMsgToBuffers adapters published rosType message subs.takeOwnership m with
            | (m, some text) => (m, .error text)
            | (m, none) => (m, .ok (some shared))

end Publishing

end RosRtems.IntraProcessManager
