import RosRtems.IntraProcess.IntraProcessManager
import Mathlib.Data.List.Forall2

/-!
# What publishing puts into the buffers

A publication stores one message for each matched subscription.  The loops of the manager
are described by the list of these deliveries: to which subscription, into which object,
and which message object; who shares one is then a question about addresses.
-/

namespace RosRtems.IntraProcessManager

open RosRtems.IntraProcess RosRtems.KeepLast RosRtems.RingBuffer

variable {Value Callback Qos : Type*}

/-! ## A subscription that has stored a message -/

section Store

variable (sub : SubscriptionBase Value Callback Qos) (message : MessageObject Value)

@[simp]
theorem store_topicName : (store sub message).topicName = sub.topicName := rfl

@[simp]
theorem store_actualQos : (store sub message).actualQos = sub.actualQos := rfl

@[simp]
theorem store_rosType : (store sub message).rosType = sub.rosType := rfl

@[simp]
theorem store_subscribedType : (store sub message).subscribedType = sub.subscribedType := rfl

@[simp]
theorem store_alive : (store sub message).alive = sub.alive := rfl

theorem store_buffer :
    (store sub message).intraProcess.buffer = addShared sub.intraProcess.buffer message := by
  obtain ⟨_, _, _, _, _, intraProcess⟩ := sub
  simp only [store, provideSharedMessage, announceMessage, invokeOnNewMessage]
  split <;> rfl

theorem store_capacity :
    (store sub message).intraProcess.buffer.buffer.capacity =
      sub.intraProcess.buffer.buffer.capacity := by
  rw [store_buffer, addShared, enqueue]
  split <;> rfl

theorem store_useTakeSharedMethod :
    useTakeSharedMethod (store sub message) = useTakeSharedMethod sub := by
  rw [useTakeSharedMethod, store_buffer]
  rfl

end Store

/-- A published value as a ROS message. -/
def asRosMessage (adapters : TypeAdapters Value) (published : MessageType) (value : Value) :
    Value :=
  match published with
  | .ros => value
  | .custom adapter => adapters.convertToRosMessage adapter value

/-- What a subscription makes of a ROS message. -/
def fromRosMessage (adapters : TypeAdapters Value) (sub : SubscriptionBase Value Callback Qos)
    (value : Value) : Value :=
  match sub.subscribedType with
  | .ros => value
  | .custom adapter => adapters.convertToCustom adapter value

/-- What a subscription receives of a published value: the value, or what the adapters
make of it where the types differ. -/
def received (adapters : TypeAdapters Value) (published : MessageType)
    (sub : SubscriptionBase Value Callback Qos) (value : Value) : Value :=
  if sub.subscribedType = published then value
  else fromRosMessage adapters sub (asRosMessage adapters published value)

/-- The address was allocated between these two. -/
def Allocated (before after : ℕ) (message : MessageObject Value) : Prop :=
  before ≤ message.address ∧ message.address < after

theorem Allocated.mono {before after : ℕ} {message : MessageObject Value}
    (hallocated : Allocated before after message) {earlier later : ℕ}
    (hearlier : earlier ≤ before) (hlater : after ≤ later) :
    Allocated earlier later message :=
  ⟨hearlier.trans hallocated.1, hallocated.2.trans_le hlater⟩

/-- A subscription has stored what it receives of a value, in the object given or in one
allocated for it. -/
structure Provided (given : ℕ → Prop) (value : Value)
    (sub : SubscriptionBase Value Callback Qos) (nextAddress : ℕ)
    (result : SubscriptionBase Value Callback Qos × ℕ) (stored : MessageObject Value) :
    Prop where
  stored_eq : result.1 = store sub stored
  value_eq : stored.value = value
  next_le : nextAddress ≤ result.2
  address : given stored.address ∨ Allocated nextAddress result.2 stored

section Provide

variable {adapters : TypeAdapters Value} {published : MessageType} {rosType : ℕ}
  (given : ℕ → Prop) (sub : SubscriptionBase Value Callback Qos)
  (message : MessageObject Value) {nextAddress : ℕ}

/-- What was stored of an object that had been allocated for the purpose was allocated,
too. -/
theorem Provided.of_allocated {value : Value}
    {result : SubscriptionBase Value Callback Qos × ℕ} {stored : MessageObject Value}
    (hprovided : Provided (fun address => address = nextAddress) value sub (nextAddress + 1)
      result stored) : Provided given value sub nextAddress result stored where
  stored_eq := hprovided.stored_eq
  value_eq := hprovided.value_eq
  next_le := (Nat.le_succ _).trans hprovided.next_le
  address := by
    right
    rcases hprovided.address with hsame | hallocated
    · exact ⟨hsame.ge, hsame.trans_lt (Nat.lt_of_succ_le hprovided.next_le)⟩
    · exact hallocated.mono (Nat.le_succ _) le_rfl

theorem provideSharedData_provided (hgiven : given message.address) :
    ∃ stored, Provided given message.value sub nextAddress
      (provideSharedData sub message nextAddress) stored := by
  rw [provideSharedData]
  split
  · exact ⟨message, rfl, rfl, le_rfl, .inl hgiven⟩
  · exact ⟨⟨nextAddress, message.value⟩, rfl, rfl, Nat.le_succ _,
      .inr ⟨le_rfl, Nat.lt_succ_self _⟩⟩

theorem provideUniqueData_provided (hgiven : given message.address) :
    ∃ stored, Provided given message.value sub nextAddress
      (provideUniqueData sub message nextAddress) stored :=
  ⟨message, rfl, rfl, le_rfl, .inl hgiven⟩

theorem provideSharedRosMessage_provided (hgiven : given message.address) :
    ∃ stored, Provided given (fromRosMessage adapters sub message.value) sub nextAddress
      (provideSharedRosMessage adapters sub message nextAddress) stored := by
  simp only [provideSharedRosMessage, fromRosMessage]
  cases sub.subscribedType with
  | ros => exact provideSharedData_provided given sub message hgiven
  | custom adapter =>
      obtain ⟨stored, hprovided⟩ := provideSharedData_provided
        (fun address => address = nextAddress) sub
        ⟨nextAddress, adapters.convertToCustom adapter message.value⟩ rfl
      exact ⟨stored, hprovided.of_allocated _ sub⟩

theorem provideUniqueRosMessage_provided (hgiven : given message.address) :
    ∃ stored, Provided given (fromRosMessage adapters sub message.value) sub nextAddress
      (provideUniqueRosMessage adapters sub message nextAddress) stored := by
  simp only [provideUniqueRosMessage, fromRosMessage]
  cases sub.subscribedType with
  | ros => exact provideUniqueData_provided given sub message hgiven
  | custom adapter =>
      obtain ⟨stored, hprovided⟩ := provideUniqueData_provided
        (fun address => address = nextAddress) sub
        ⟨nextAddress, adapters.convertToCustom adapter message.value⟩ rfl
      exact ⟨stored, hprovided.of_allocated _ sub⟩

/-- The shared message is stored, or an object that was allocated for it. -/
theorem provideShared_provided (hros : sub.rosType = rosType) :
    ∃ result stored, provideShared adapters published rosType message sub nextAddress =
        some result ∧
      Provided (fun address => address = message.address)
        (received adapters published sub message.value) sub nextAddress result stored := by
  simp only [provideShared, hros, ne_eq, not_true_eq_false, if_false, received]
  split
  · obtain ⟨stored, hprovided⟩ := provideSharedData_provided
      (fun address => address = message.address) sub message rfl
    exact ⟨_, stored, rfl, hprovided⟩
  · cases published with
    | ros =>
        obtain ⟨stored, hprovided⟩ := provideSharedRosMessage_provided
          (fun address => address = message.address) sub message rfl
        exact ⟨_, stored, rfl, hprovided⟩
    | custom adapter =>
        obtain ⟨stored, hprovided⟩ := provideSharedRosMessage_provided
          (fun address => address = nextAddress) sub
          ⟨nextAddress, adapters.convertToRosMessage adapter message.value⟩ rfl
        exact ⟨_, stored, rfl, hprovided.of_allocated _ sub⟩

/-- Only the last subscription is given the message itself. -/
theorem provideOwned_provided (hros : sub.rosType = rosType) (last : Bool) :
    ∃ result stored,
      provideOwned adapters published rosType message last sub nextAddress = some result ∧
      Provided (fun address => last = true ∧ address = message.address)
        (received adapters published sub message.value) sub nextAddress result stored := by
  simp only [provideOwned, hros, ne_eq, not_true_eq_false, if_false, received]
  split
  · cases last with
    | true =>
        obtain ⟨stored, hprovided⟩ := provideUniqueData_provided
          (fun address => true = true ∧ address = message.address) sub message ⟨rfl, rfl⟩
        exact ⟨_, stored, rfl, hprovided⟩
    | false =>
        obtain ⟨stored, hprovided⟩ := provideUniqueData_provided
          (fun address => address = nextAddress) sub ⟨nextAddress, message.value⟩ rfl
        exact ⟨_, stored, rfl, hprovided.of_allocated _ sub⟩
  · cases published with
    | ros =>
        cases last with
        | true =>
            obtain ⟨stored, hprovided⟩ := provideUniqueRosMessage_provided
              (fun address => true = true ∧ address = message.address) sub message ⟨rfl, rfl⟩
            exact ⟨_, stored, rfl, hprovided⟩
        | false =>
            obtain ⟨stored, hprovided⟩ := provideUniqueRosMessage_provided
              (fun address => address = nextAddress) sub ⟨nextAddress, message.value⟩ rfl
            exact ⟨_, stored, rfl, hprovided.of_allocated _ sub⟩
    | custom adapter =>
        obtain ⟨stored, hprovided⟩ := provideUniqueRosMessage_provided
          (fun address => address = nextAddress) sub
          ⟨nextAddress, adapters.convertToRosMessage adapter message.value⟩ rfl
        exact ⟨_, stored, rfl, hprovided.of_allocated _ sub⟩

end Provide

/-! ## Deliveries -/

structure Delivery (Value : Type*) where
  subId : ℕ
  object : ℕ
  message : MessageObject Value

/-- The subscription objects after these deliveries. -/
def storeAll (deliveries : List (Delivery Value))
    (objects : ℕ → SubscriptionBase Value Callback Qos) :
    ℕ → SubscriptionBase Value Callback Qos :=
  deliveries.foldl
    (fun objects delivery =>
      Function.update objects delivery.object (store (objects delivery.object) delivery.message))
    objects

section StoreAll

variable (deliveries : List (Delivery Value))
  (objects : ℕ → SubscriptionBase Value Callback Qos)

theorem storeAll_append (later : List (Delivery Value)) :
    storeAll (deliveries ++ later) objects = storeAll later (storeAll deliveries objects) :=
  List.foldl_append

/-- What storing a message does not change, deliveries do not. -/
theorem storeAll_field {Field : Type*} (field : SubscriptionBase Value Callback Qos → Field)
    (hfield : ∀ sub message, field (store sub message) = field sub) (object : ℕ) :
    field (storeAll deliveries objects object) = field (objects object) := by
  induction deliveries generalizing objects with
  | nil => rfl
  | cons delivery deliveries ih =>
      rw [storeAll, List.foldl_cons, ← storeAll, ih]
      by_cases hsame : object = delivery.object
      · subst hsame
        rw [Function.update_self, hfield]
      · rw [Function.update_of_ne hsame]

/-- The messages among the deliveries that went into one object. -/
def messagesFor (object : ℕ) : List (MessageObject Value) :=
  (deliveries.filter fun delivery => delivery.object = object).map Delivery.message

/-- The buffer of an object is the one it was, with the messages delivered to it pushed
one after another. -/
theorem storeAll_stores {object : ℕ} {stored : List (MessageObject Value)}
    (hstores : Stores (objects object).intraProcess.buffer stored) :
    Stores (storeAll deliveries objects object).intraProcess.buffer
      ((messagesFor deliveries object).foldl
        (push (objects object).intraProcess.buffer.buffer.capacity) stored) := by
  induction deliveries generalizing objects stored with
  | nil => exact hstores
  | cons delivery deliveries ih =>
      rw [storeAll, List.foldl_cons, ← storeAll, messagesFor]
      by_cases hsame : delivery.object = object
      · subst hsame
        have hhead : Stores (Function.update objects delivery.object
            (store (objects delivery.object) delivery.message)
              delivery.object).intraProcess.buffer
            (push (objects delivery.object).intraProcess.buffer.buffer.capacity stored
              delivery.message) := by
          rw [Function.update_self, store_buffer]
          exact addShared_stores hstores delivery.message
        have hlater := ih _ hhead
        rw [Function.update_self, store_capacity] at hlater
        simpa [messagesFor] using hlater
      · have hhead : Stores (Function.update objects delivery.object
            (store (objects delivery.object) delivery.message) object).intraProcess.buffer
            stored := by
          rwa [Function.update_of_ne (Ne.symm hsame)]
        have hlater := ih _ hhead
        rw [Function.update_of_ne (Ne.symm hsame)] at hlater
        simpa [messagesFor, hsame] using hlater

end StoreAll

/-! ## The loop over the buffers -/

/-- The id is registered for an object of the publisher's ROS message and allocator
types. -/
structure Servable (m : Manager Value Callback Qos) (rosType id object : ℕ) : Prop where
  registered : m.subscriptions.lookup id = some object
  castable : (m.subscriptionObjects object).rosType = rosType

/-- The id is registered for an object that is alive. -/
def isLive (m : Manager Value Callback Qos) (id : ℕ) : Bool :=
  match m.subscriptions.lookup id with
  | some object => (m.subscriptionObjects object).alive
  | none => false

def expiredIds (m : Manager Value Callback Qos) (ids : List ℕ) : List ℕ :=
  ids.filter fun id => !isLive m id

/-- Every id is registered, and the expired ones occur once. -/
structure Ready (rosType : ℕ) (ids : List ℕ) (m : Manager Value Callback Qos) : Prop where
  servable : ∀ id ∈ ids, ∃ object, Servable m rosType id object
  expired_nodup : (expiredIds m ids).Nodup

def eraseAll (expired : List ℕ) (subscriptions : AList fun _ : ℕ => ℕ) :
    AList fun _ : ℕ => ℕ :=
  expired.foldl (fun subscriptions id => subscriptions.erase id) subscriptions

/-- The manager after some deliveries and erasures. -/
def progressed (m : Manager Value Callback Qos) (expired : List ℕ)
    (deliveries : List (Delivery Value)) (nextAddress : ℕ) : Manager Value Callback Qos :=
  { m with
    subscriptions := eraseAll expired m.subscriptions
    subscriptionObjects := storeAll deliveries m.subscriptionObjects
    nextAddress := nextAddress }

/-- The manager after one delivery for each of the ids, and with the expired ones erased.
`given` says which addresses a subscription may be given, as the last one or not. -/
structure Delivers (receive : SubscriptionBase Value Callback Qos → Value)
    (given : Bool → ℕ → Prop) (ids expired : List ℕ) (m after : Manager Value Callback Qos)
    (deliveries : List (Delivery Value)) : Prop where
  manager : after = progressed m expired deliveries after.nextAddress
  next_le : m.nextAddress ≤ after.nextAddress
  ids : deliveries.map Delivery.subId = ids
  entries : ∀ delivery ∈ deliveries,
    m.subscriptions.lookup delivery.subId = some delivery.object ∧
      delivery.message.value = receive (m.subscriptionObjects delivery.object)
  addresses : ∀ delivery ∈ deliveries, (∃ last, given last delivery.message.address) ∨
    Allocated m.nextAddress after.nextAddress delivery.message

theorem lookup_eraseAll {expired : List ℕ} {id : ℕ} (hother : id ∉ expired)
    (subscriptions : AList fun _ : ℕ => ℕ) :
    (eraseAll expired subscriptions).lookup id = subscriptions.lookup id := by
  induction expired generalizing subscriptions with
  | nil => rfl
  | cons head expired ih =>
      rw [List.mem_cons, not_or] at hother
      rw [eraseAll, List.foldl_cons, ← eraseAll, ih hother.2, AList.lookup_erase_ne hother.1]

theorem lookup_eraseAll_of_mem {expired : List ℕ} {id : ℕ} (hmem : id ∈ expired)
    (subscriptions : AList fun _ : ℕ => ℕ) :
    (eraseAll expired subscriptions).lookup id = none := by
  induction expired generalizing subscriptions with
  | nil => cases hmem
  | cons head expired ih =>
      rw [eraseAll, List.foldl_cons, ← eraseAll]
      by_cases hlater : id ∈ expired
      · exact ih hlater _
      · obtain rfl : id = head := (List.mem_cons.mp hmem).resolve_right hlater
        rw [lookup_eraseAll hlater, AList.lookup_erase]

section Loop

variable {receive : SubscriptionBase Value Callback Qos → Value}
  {given : Bool → ℕ → Prop} {rosType : ℕ}
  {provide : Bool → SubscriptionBase Value Callback Qos → ℕ →
    Option (SubscriptionBase Value Callback Qos × ℕ)}
  {m : Manager Value Callback Qos}

/-- How a loop serves a subscription that it can serve. -/
def Serves (rosType : ℕ) (receive : SubscriptionBase Value Callback Qos → Value)
    (given : Bool → ℕ → Prop)
    (provide : Bool → SubscriptionBase Value Callback Qos → ℕ →
      Option (SubscriptionBase Value Callback Qos × ℕ)) : Prop :=
  ∀ last sub nextAddress, sub.rosType = rosType →
    ∃ result stored, provide last sub nextAddress = some result ∧
      Provided (given last) (receive sub) sub nextAddress result stored

/-- What a subscription receives does not depend on what it has stored. -/
def Constant (receive : SubscriptionBase Value Callback Qos → Value) : Prop :=
  ∀ sub message, receive (store sub message) = receive sub

theorem isLive_of_registered {id object : ℕ}
    (hregistered : m.subscriptions.lookup id = some object) :
    isLive m id = (m.subscriptionObjects object).alive := by
  rw [isLive, hregistered]

/-- Neither deliveries nor the erasure of other ids change what is known of an id. -/
theorem servable_progressed {id object : ℕ} (hservable : Servable m rosType id object)
    {expired : List ℕ} (hother : id ∉ expired) (deliveries : List (Delivery Value))
    (nextAddress : ℕ) :
    Servable (progressed m expired deliveries nextAddress) rosType id object where
  registered := (lookup_eraseAll hother _).trans hservable.registered
  castable := (storeAll_field deliveries _ SubscriptionBase.rosType store_rosType
    object).trans hservable.castable

theorem isLive_progressed {id : ℕ} {expired : List ℕ} (hother : id ∉ expired)
    (deliveries : List (Delivery Value)) (nextAddress : ℕ) :
    isLive (progressed m expired deliveries nextAddress) id = isLive m id := by
  rw [isLive, isLive, progressed]
  simp only [lookup_eraseAll hother]
  split
  · exact storeAll_field deliveries _ SubscriptionBase.alive store_alive _
  · rfl

theorem ready_progressed {ids : List ℕ} (hready : Ready rosType ids m) {expired : List ℕ}
    (hother : ∀ id ∈ ids, id ∉ expired) (deliveries : List (Delivery Value))
    (nextAddress : ℕ) :
    Ready rosType ids (progressed m expired deliveries nextAddress) ∧
      ids.filter (isLive (progressed m expired deliveries nextAddress)) =
        ids.filter (isLive m) ∧
      expiredIds (progressed m expired deliveries nextAddress) ids = expiredIds m ids := by
  have hlive : ∀ id ∈ ids,
      isLive (progressed m expired deliveries nextAddress) id = isLive m id :=
    fun id hmem => isLive_progressed (hother id hmem) deliveries nextAddress
  have hexpired : expiredIds (progressed m expired deliveries nextAddress) ids =
      expiredIds m ids :=
    List.filter_congr fun id hmem => by rw [hlive id hmem]
  refine ⟨⟨fun id hmem => ?_, hexpired.symm ▸ hready.expired_nodup⟩,
    List.filter_congr hlive, hexpired⟩
  obtain ⟨object, hservable⟩ := hready.servable id hmem
  exact ⟨object, servable_progressed hservable (hother id hmem) deliveries nextAddress⟩

theorem Ready.tail {id : ℕ} {ids : List ℕ} (hready : Ready rosType (id :: ids) m) :
    Ready rosType ids m where
  servable := fun other hother => hready.servable other (List.mem_cons_of_mem _ hother)
  expired_nodup := by
    have hnodup := hready.expired_nodup
    rw [expiredIds, List.filter_cons] at hnodup
    split at hnodup
    · exact (List.nodup_cons.mp hnodup).2
    · exact hnodup

/-- An expired id does not come again. -/
theorem Ready.not_mem_tail {id : ℕ} {ids : List ℕ} (hready : Ready rosType (id :: ids) m)
    (hexpired : isLive m id = false) : id ∉ ids := by
  have hnodup := hready.expired_nodup
  rw [expiredIds, List.filter_cons_of_pos (by simp [hexpired])] at hnodup
  exact fun hmem =>
    (List.nodup_cons.mp hnodup).1 (List.mem_filter.mpr ⟨hmem, by simp [hexpired]⟩)

theorem Ready.of_append {first second : List ℕ} (hready : Ready rosType (first ++ second) m) :
    Ready rosType first m ∧ Ready rosType second m ∧
      ∀ id ∈ second, id ∉ expiredIds m first := by
  have hnodup := hready.expired_nodup
  rw [expiredIds, List.filter_append, List.nodup_append] at hnodup
  obtain ⟨hfirst, hsecond, hdisjoint⟩ := hnodup
  refine ⟨⟨fun id hmem => hready.servable id (List.mem_append_left _ hmem), hfirst⟩,
    ⟨fun id hmem => hready.servable id (List.mem_append_right _ hmem), hsecond⟩,
    fun id hmem hexpired => ?_⟩
  exact hdisjoint id hexpired id
    (List.mem_filter.mpr ⟨hmem, (List.mem_filter.mp hexpired).2⟩) rfl

section Heads

variable {id object : ℕ} {ids : List ℕ} {after : Manager Value Callback Qos}
  {deliveries : List (Delivery Value)}

/-- An expired id at the head is erased, and nothing is delivered to it. -/
theorem Delivers.of_expired_head (hexpired : isLive m id = false) (hfresh : id ∉ ids)
    (hdelivers : Delivers receive given (ids.filter (isLive m)) (expiredIds m ids)
      (progressed m [id] [] m.nextAddress) after deliveries) :
    Delivers receive given ((id :: ids).filter (isLive m)) (expiredIds m (id :: ids)) m after
      deliveries := by
  have hhead : (id :: ids).filter (isLive m) = ids.filter (isLive m) :=
    List.filter_cons_of_neg (by simp [hexpired])
  have herased : expiredIds m (id :: ids) = id :: expiredIds m ids :=
    List.filter_cons_of_pos (by simp [hexpired])
  rw [hhead, herased]
  refine ⟨hdelivers.manager, hdelivers.next_le, hdelivers.ids,
    fun delivery hmem => ?_, hdelivers.addresses⟩
  obtain ⟨hfound, hreceived⟩ := hdelivers.entries delivery hmem
  refine ⟨?_, hreceived⟩
  have hsubId : delivery.subId ∈ ids := by
    have hmapped := List.mem_map_of_mem hmem (f := Delivery.subId)
    rw [hdelivers.ids] at hmapped
    exact (List.mem_filter.mp hmapped).1
  have hother : delivery.subId ∉ [id] :=
    fun hsame => hfresh (List.mem_singleton.mp hsame ▸ hsubId)
  rwa [progressed, lookup_eraseAll hother] at hfound

variable {stored : MessageObject Value} {nextAddress : ℕ}

/-- A live id at the head gets its delivery before the ones of the ids after it. -/
theorem Delivers.of_live_head (hconstant : Constant receive)
    (hregistered : m.subscriptions.lookup id = some object)
    (halive : (m.subscriptionObjects object).alive = true)
    (hvalue : stored.value = receive (m.subscriptionObjects object))
    (hnext : m.nextAddress ≤ nextAddress)
    (haddress : given ids.isEmpty stored.address ∨ Allocated m.nextAddress nextAddress stored)
    (hdelivers : Delivers receive given (ids.filter (isLive m)) (expiredIds m ids)
      (progressed m [] [⟨id, object, stored⟩] nextAddress) after deliveries) :
    Delivers receive given ((id :: ids).filter (isLive m)) (expiredIds m (id :: ids)) m after
      (⟨id, object, stored⟩ :: deliveries) := by
  have hlive : isLive m id = true := (isLive_of_registered hregistered).trans halive
  have hhead : (id :: ids).filter (isLive m) = id :: ids.filter (isLive m) :=
    List.filter_cons_of_pos hlive
  have herased : expiredIds m (id :: ids) = expiredIds m ids :=
    List.filter_cons_of_neg (by simp [hlive])
  rw [hhead, herased]
  refine ⟨hdelivers.manager, hnext.trans hdelivers.next_le, ?_, ?_, ?_⟩
  · rw [List.map_cons, hdelivers.ids]
  · rw [List.forall_mem_cons]
    refine ⟨⟨hregistered, hvalue⟩, fun delivery hmem => ?_⟩
    obtain ⟨hfound, hreceived⟩ := hdelivers.entries delivery hmem
    exact ⟨hfound, hreceived.trans
      (storeAll_field _ _ receive hconstant delivery.object)⟩
  · rw [List.forall_mem_cons]
    refine ⟨?_, fun delivery hmem => ?_⟩
    · exact haddress.imp (fun hgiven => ⟨_, hgiven⟩)
        fun hallocated => hallocated.mono le_rfl hdelivers.next_le
    · exact (hdelivers.addresses delivery hmem).imp_right
        fun hallocated => hallocated.mono hnext le_rfl

/-- A message that is not the last one lies in an object of its own. -/
theorem Delivers.head_unshared (hnotBefore : ∀ address, ¬ given false address)
    (holder : ∀ address, given true address → address < m.nextAddress)
    (haddress : given ids.isEmpty stored.address ∨ Allocated m.nextAddress nextAddress stored)
    (hdelivers : Delivers receive given (ids.filter (isLive m)) (expiredIds m ids)
      (progressed m [] [⟨id, object, stored⟩] nextAddress) after deliveries) :
    stored.address ∉ deliveries.map fun delivery => delivery.message.address := by
  intro hmem
  obtain ⟨delivery, hdelivery, hsame⟩ := List.mem_map.mp hmem
  have hmore : ids.isEmpty = false := by
    cases ids with
    | nil =>
        rw [List.map_eq_nil_iff.mp hdelivers.ids] at hdelivery
        cases hdelivery
    | cons _ _ => rfl
  rw [hmore] at haddress
  obtain ⟨hlower, hupper⟩ := haddress.resolve_left (hnotBefore _)
  rcases hdelivers.addresses delivery hdelivery with ⟨last, hgiven⟩ | ⟨hlater, -⟩
  · cases last with
    | false => exact hnotBefore _ hgiven
    | true =>
        have hold := holder _ hgiven
        omega
  · change nextAddress ≤ _ at hlater
    omega

end Heads

/-- The loop delivers a message for every live id and erases the others, and each object
allocated on the way is new to the deliveries before it. -/
theorem visitBuffers_delivers (hserves : Serves rosType receive given provide)
    (hconstant : Constant receive) {ids : List ℕ} {m : Manager Value Callback Qos}
    (hready : Ready rosType ids m) :
    ∃ after deliveries, visitBuffers provide ids m = (after, none) ∧
      Delivers receive given (ids.filter (isLive m)) (expiredIds m ids) m after deliveries ∧
      ((∀ address, ¬ given false address) →
        (∀ address, given true address → address < m.nextAddress) →
        (deliveries.map fun delivery => delivery.message.address).Nodup) := by
  induction ids generalizing m with
  | nil => exact ⟨m, [], rfl, ⟨rfl, le_rfl, rfl, by simp, by simp⟩, by simp⟩
  | cons id ids ih =>
      obtain ⟨object, hregistered, hcastable⟩ := hready.servable id (List.mem_cons_self ..)
      have hlive := isLive_of_registered hregistered
      cases halive : (m.subscriptionObjects object).alive with
      | false =>
          rw [halive] at hlive
          have hfresh := hready.not_mem_tail hlive
          have hother : ∀ other ∈ ids, other ∉ [id] :=
            fun other hmem hsame => hfresh (List.mem_singleton.mp hsame ▸ hmem)
          obtain ⟨hmiddle, hliveIds, hexpiredIds⟩ :=
            ready_progressed hready.tail hother [] m.nextAddress
          obtain ⟨after, deliveries, hafter, hdelivers, hnodup⟩ := ih hmiddle
          rw [hliveIds, hexpiredIds] at hdelivers
          refine ⟨after, deliveries, ?_, hdelivers.of_expired_head hlive hfresh, hnodup⟩
          simp only [visitBuffers, hregistered, halive]
          exact hafter
      | true =>
          obtain ⟨⟨_, nextAddress⟩, stored, hresult, ⟨rfl, hvalue, hnext, haddress⟩⟩ :=
            hserves ids.isEmpty _ m.nextAddress hcastable
          obtain ⟨hmiddle, hliveIds, hexpiredIds⟩ := ready_progressed hready.tail
            (fun _ _ => List.not_mem_nil) [⟨id, object, stored⟩] nextAddress
          obtain ⟨after, deliveries, hafter, hdelivers, hnodup⟩ := ih hmiddle
          rw [hliveIds, hexpiredIds] at hdelivers
          refine ⟨after, ⟨id, object, stored⟩ :: deliveries, ?_,
            hdelivers.of_live_head hconstant hregistered halive hvalue hnext haddress,
            fun hnotBefore holder => ?_⟩
          · simp only [visitBuffers, hregistered, halive, if_true, hresult]
            exact hafter
          · rw [List.map_cons, List.nodup_cons]
            refine ⟨hdelivers.head_unshared hnotBefore holder haddress,
              hnodup hnotBefore fun address hgiven => ?_⟩
            exact (holder address hgiven).trans_le hnext

end Loop

/-! ## The two variants of publishing -/

section Publish

variable (adapters : TypeAdapters Value) (published : MessageType) {rosType : ℕ}
  (message : MessageObject Value)

/-- What the subscriptions receive of the message. -/
def receives (sub : SubscriptionBase Value Callback Qos) : Value :=
  received adapters published sub message.value

theorem receives_constant :
    Constant (receives adapters published message :
      SubscriptionBase Value Callback Qos → Value) := by
  intro sub stored
  rfl

theorem addSharedMsgToBuffers_delivers {ids : List ℕ} {m : Manager Value Callback Qos}
    (hready : Ready rosType ids m) :
    ∃ after deliveries,
      addSharedMsgToBuffers adapters published rosType message ids m = (after, none) ∧
      Delivers (receives adapters published message)
        (fun _ address => address = message.address) (ids.filter (isLive m))
        (expiredIds m ids) m after deliveries := by
  obtain ⟨after, deliveries, hafter, hdelivers, -⟩ := visitBuffers_delivers
    (fun _ sub _ hros => provideShared_provided sub message hros)
    (receives_constant adapters published message) hready
  exact ⟨after, deliveries, hafter, hdelivers⟩

theorem addOwnedMsgToBuffers_delivers {ids : List ℕ} {m : Manager Value Callback Qos}
    (hready : Ready rosType ids m) (hheld : message.address < m.nextAddress) :
    ∃ after deliveries,
      addOwnedMsgToBuffers adapters published rosType message ids m = (after, none) ∧
      Delivers (receives adapters published message)
        (fun last address => last = true ∧ address = message.address)
        (ids.filter (isLive m)) (expiredIds m ids) m after deliveries ∧
      (deliveries.map fun delivery => delivery.message.address).Nodup := by
  obtain ⟨after, deliveries, hafter, hdelivers, hnodup⟩ := visitBuffers_delivers
    (fun last sub _ hros => provideOwned_provided sub message hros last)
    (receives_constant adapters published message) hready
  refine ⟨after, deliveries, hafter, hdelivers, hnodup (by simp) ?_⟩
  rintro address ⟨-, rfl⟩
  exact hheld

/-- The live ones of the matched subscriptions. -/
def SplittedSubscriptions.live (subs : SplittedSubscriptions)
    (m : Manager Value Callback Qos) : SplittedSubscriptions :=
  ⟨subs.takeShared.filter (isLive m), subs.takeOwnership.filter (isLive m)⟩

/-- A publication: one message for each live matched subscription, and no object for an
owner that anybody else has.  The expired ones are erased. -/
structure Publication (subs : SplittedSubscriptions) (m after : Manager Value Callback Qos)
    (shared owned : List (Delivery Value)) : Prop where
  manager : after =
    progressed m (expiredIds m subs.ids) (shared ++ owned) after.nextAddress
  next_le : m.nextAddress ≤ after.nextAddress
  shared_ids : shared.map Delivery.subId = (subs.live m).takeShared
  owned_ids : owned.map Delivery.subId = (subs.live m).takeOwnership
  entries : ∀ delivery ∈ shared ++ owned,
    m.subscriptions.lookup delivery.subId = some delivery.object ∧
      delivery.message.value =
        receives adapters published message (m.subscriptionObjects delivery.object)
  owned_nodup : (owned.map fun delivery => delivery.message.address).Nodup
  unshared : ∀ owner ∈ owned, ∀ sharer ∈ shared,
    owner.message.address ≠ sharer.message.address
  source : ∀ delivery ∈ shared ++ owned,
    delivery.message.address = message.address ∨
      m.nextAddress ≤ delivery.message.address

/-- Deliveries of shared messages only. -/
theorem publication_of_shared {subs : SplittedSubscriptions}
    {m after : Manager Value Callback Qos} {deliveries : List (Delivery Value)}
    (hnone : subs.takeOwnership = [])
    (hdelivers : Delivers (receives adapters published message)
      (fun _ address => address = message.address) (subs.takeShared.filter (isLive m))
      (expiredIds m subs.takeShared) m after deliveries) :
    Publication adapters published message subs m after deliveries [] where
  manager := by
    rw [List.append_nil, SplittedSubscriptions.ids, hnone, List.append_nil]
    exact hdelivers.manager
  next_le := hdelivers.next_le
  shared_ids := hdelivers.ids
  owned_ids := by
    rw [SplittedSubscriptions.live, hnone]
    rfl
  entries := by
    rw [List.append_nil]
    exact hdelivers.entries
  owned_nodup := List.nodup_nil
  unshared := by simp
  source := by
    rw [List.append_nil]
    intro delivery hmem
    exact (hdelivers.addresses delivery hmem).imp (fun ⟨_, hsame⟩ => hsame) And.left

/-- One delivery for each live id of both lists, each in an object of its own. -/
theorem publication_of_owned {subs : SplittedSubscriptions}
    {m after : Manager Value Callback Qos} {deliveries : List (Delivery Value)}
    (hdelivers : Delivers (receives adapters published message)
      (fun last address => last = true ∧ address = message.address)
      (subs.ids.filter (isLive m)) (expiredIds m subs.ids) m after deliveries)
    (hnodup : (deliveries.map fun delivery => delivery.message.address).Nodup) :
    ∃ shared owned, Publication adapters published message subs m after shared owned := by
  have hids := hdelivers.ids
  rw [SplittedSubscriptions.ids, List.filter_append] at hids
  obtain ⟨shared, owned, rfl, hshared, howned⟩ := List.map_eq_append_iff.mp hids
  rw [List.map_append, List.nodup_append] at hnodup
  obtain ⟨-, hownedNodup, hdisjoint⟩ := hnodup
  refine ⟨shared, owned, hdelivers.manager, hdelivers.next_le, hshared, howned,
    hdelivers.entries, hownedNodup, ?_, ?_⟩
  · intro owner howns sharer hshares hsame
    exact hdisjoint _ (List.mem_map_of_mem hshares) _ (List.mem_map_of_mem howns) hsame.symm
  · intro delivery hmem
    exact (hdelivers.addresses delivery hmem).imp (fun ⟨_, hgiven⟩ => hgiven.2) And.left

theorem progressed_progressed (m : Manager Value Callback Qos) (expired later : List ℕ)
    (deliveries others : List (Delivery Value)) (nextAddress last : ℕ) :
    progressed (progressed m expired deliveries nextAddress) later others last =
      progressed m (expired ++ later) (deliveries ++ others) last := by
  simp only [progressed, storeAll_append, eraseAll, List.foldl_append]

/-- The two loops, one after the other: a copy for the subscriptions that share, and then
the message for the owners. -/
theorem addBoth_publication {subs : SplittedSubscriptions} {m : Manager Value Callback Qos}
    (hready : Ready rosType subs.ids m) (hheld : message.address < m.nextAddress) :
    ∃ middle after shared owned,
      addSharedMsgToBuffers adapters published rosType (allocateShared message m).1
        subs.takeShared (allocateShared message m).2 = (middle, none) ∧
      addOwnedMsgToBuffers adapters published rosType message subs.takeOwnership middle =
        (after, none) ∧
      Publication adapters published message subs m after shared owned ∧
      ∀ owner ∈ owned, owner.message.address ≠ m.nextAddress := by
  obtain ⟨hsharers, howners, hdisjoint⟩ := hready.of_append
  obtain ⟨middle, shared, hmiddle, hshared⟩ := addSharedMsgToBuffers_delivers adapters
    published (allocateShared message m).1
    (ready_progressed hsharers (fun _ _ => List.not_mem_nil) [] (m.nextAddress + 1)).1
  have hmiddleEq : middle =
      progressed m (expiredIds m subs.takeShared) shared middle.nextAddress := hshared.manager
  obtain ⟨hready', hliveIds, hexpiredIds⟩ :=
    ready_progressed howners hdisjoint shared middle.nextAddress
  rw [← hmiddleEq] at hready' hliveIds hexpiredIds
  have hnext : m.nextAddress + 1 ≤ middle.nextAddress := hshared.next_le
  obtain ⟨after, owned, hafter, howned, hnodup⟩ := addOwnedMsgToBuffers_delivers adapters
    published message hready' (hheld.trans (Nat.lt_of_succ_le hnext))
  rw [hliveIds, hexpiredIds] at howned
  have hsharer : ∀ sharer ∈ shared, m.nextAddress ≤ sharer.message.address ∧
      sharer.message.address < middle.nextAddress := by
    intro sharer hmem
    rcases hshared.addresses sharer hmem with ⟨_, hsame⟩ | ⟨hlower, hupper⟩
    · exact ⟨hsame.ge, hsame.trans_lt (Nat.lt_of_succ_le hnext)⟩
    · exact ⟨(Nat.le_succ _).trans hlower, hupper⟩
  have howner : ∀ owner ∈ owned, owner.message.address = message.address ∨
      middle.nextAddress ≤ owner.message.address := by
    intro owner hmem
    exact (howned.addresses owner hmem).imp (fun ⟨_, hgiven⟩ => hgiven.2) And.left
  refine ⟨middle, after, shared, owned, hmiddle, hafter,
    ⟨?_, (Nat.le_of_succ_le hnext).trans howned.next_le, hshared.ids, howned.ids, ?_, hnodup,
      ?_, ?_⟩, ?_⟩
  · rw [SplittedSubscriptions.ids, expiredIds, List.filter_append, ← expiredIds, ← expiredIds,
      ← progressed_progressed m _ _ shared owned middle.nextAddress, ← hmiddleEq]
    exact howned.manager
  · rw [List.forall_mem_append]
    refine ⟨hshared.entries, fun owner hmem => ?_⟩
    obtain ⟨hfound, hreceived⟩ := howned.entries owner hmem
    have hsubId : owner.subId ∈ subs.takeOwnership := by
      have hmapped := List.mem_map_of_mem hmem (f := Delivery.subId)
      rw [howned.ids] at hmapped
      exact (List.mem_filter.mp hmapped).1
    rw [hmiddleEq] at hfound hreceived
    rw [progressed, lookup_eraseAll (hdisjoint _ hsubId)] at hfound
    exact ⟨hfound, hreceived.trans (storeAll_field shared _ _
      (receives_constant adapters published message) owner.object)⟩
  · intro owner howns sharer hshares hsame
    have hold := hsharer sharer hshares
    rcases howner owner howns with horiginal | hlater <;> omega
  · rw [List.forall_mem_append]
    refine ⟨fun sharer hmem => .inr (hsharer sharer hmem).1, fun owner hmem => ?_⟩
    exact (howner owner hmem).imp_right fun hlater => by omega
  · intro owner hmem hsame
    rcases howner owner hmem with horiginal | hlater <;> omega

theorem doIntraProcessPublish_publication {pubId : ℕ} {subs : SplittedSubscriptions}
    {m : Manager Value Callback Qos} (hlisted : m.pubToSubs pubId = some subs)
    (hready : Ready rosType subs.ids m) (hheld : message.address < m.nextAddress) :
    ∃ after shared owned,
      doIntraProcessPublish adapters published rosType pubId message m = (after, none) ∧
      Publication adapters published message subs m after shared owned := by
  simp only [doIntraProcessPublish, hlisted]
  split
  · rename_i hnone
    obtain ⟨after, deliveries, hafter, hdelivers⟩ := addSharedMsgToBuffers_delivers adapters
      published message hready.of_append.1
    exact ⟨after, deliveries, [], hafter, publication_of_shared adapters published message
      (List.isEmpty_iff.mp hnone) hdelivers⟩
  · split
    · obtain ⟨after, deliveries, hafter, hdelivers, hnodup⟩ := addOwnedMsgToBuffers_delivers
        adapters published message hready hheld
      obtain ⟨shared, owned, hpublication⟩ := publication_of_owned adapters published message
        hdelivers hnodup
      exact ⟨after, shared, owned, hafter, hpublication⟩
    · obtain ⟨middle, after, shared, owned, hmiddle, hafter, hpublication, -⟩ :=
        addBoth_publication adapters published message hready hheld
      refine ⟨after, shared, owned, ?_, hpublication⟩
      simp only [hmiddle, hafter]

/-- The check for an empty list saves nothing but the call. -/
theorem addSharedMsgToBuffers_checked (ids : List ℕ) (m : Manager Value Callback Qos) :
    (if ids.isEmpty then (m, none)
      else addSharedMsgToBuffers adapters published rosType message ids m) =
      addSharedMsgToBuffers adapters published rosType message ids m := by
  cases ids <;> rfl

theorem doIntraProcessPublishAndReturnShared_publication {pubId : ℕ}
    {subs : SplittedSubscriptions} {m : Manager Value Callback Qos}
    (hlisted : m.pubToSubs pubId = some subs) (hready : Ready rosType subs.ids m)
    (hheld : message.address < m.nextAddress) :
    ∃ after returned shared owned,
      doIntraProcessPublishAndReturnShared adapters published rosType pubId message m =
        (after, .ok (some returned)) ∧
      returned.value = message.value ∧
      Publication adapters published message subs m after shared owned ∧
      ∀ owner ∈ owned, owner.message.address ≠ returned.address := by
  simp only [doIntraProcessPublishAndReturnShared, hlisted, addSharedMsgToBuffers_checked]
  split
  · rename_i hnone
    obtain ⟨after, deliveries, hafter, hdelivers⟩ := addSharedMsgToBuffers_delivers adapters
      published message hready.of_append.1
    refine ⟨after, message, deliveries, [], ?_, rfl, ?_, by simp⟩
    · simp only [hafter]
    · exact publication_of_shared adapters published message (List.isEmpty_iff.mp hnone)
        hdelivers
  · obtain ⟨middle, after, shared, owned, hmiddle, hafter, hpublication, hreturned⟩ :=
      addBoth_publication adapters published message hready hheld
    refine ⟨after, (allocateShared message m).1, shared, owned, ?_, rfl, hpublication,
      hreturned⟩
    simp only [hmiddle, hafter]

end Publish

/-! ## Independent messages -/

section Independent

variable {adapters : TypeAdapters Value} {published : MessageType} {rosType : ℕ}
  {message : MessageObject Value} {subs : SplittedSubscriptions}
  {m after : Manager Value Callback Qos}

/-- The values in a buffer, oldest first; `none` is a null pointer. -/
def bufferedValues (sub : SubscriptionBase Value Callback Qos) : List (Option Value) :=
  (contents sub.intraProcess.buffer.buffer).map (Option.map MessageObject.value)

theorem foldl_push_map {A B : Type*} (f : A → B) (capacity : ℕ) (queue items : List A) :
    (items.foldl (push capacity) queue).map f =
      (items.map f).foldl (push capacity) (queue.map f) := by
  induction items generalizing queue with
  | nil => rfl
  | cons item items ih => rw [List.foldl_cons, ih, List.map_cons, List.foldl_cons, push_map]

theorem Publication.stored {shared owned : List (Delivery Value)}
    (hpublication : Publication adapters published message subs m after shared owned) :
    after.subscriptionObjects = storeAll (shared ++ owned) m.subscriptionObjects := by
  rw [hpublication.manager]
  rfl

/-- The objects and values of the deliveries are decided by the ids. -/
theorem Publication.targets {shared owned : List (Delivery Value)}
    (hpublication : Publication adapters published message subs m after shared owned) :
    (shared ++ owned).map (fun delivery => some (delivery.object, delivery.message.value)) =
      (subs.live m).ids.map fun id => (m.subscriptions.lookup id).map fun object =>
        (object, receives adapters published message (m.subscriptionObjects object)) := by
  have hids : (shared ++ owned).map Delivery.subId = (subs.live m).ids := by
    rw [List.map_append, hpublication.shared_ids, hpublication.owned_ids]
    rfl
  rw [← hids, List.map_map]
  apply List.map_congr_left
  intro delivery hmem
  obtain ⟨hregistered, hvalue⟩ := hpublication.entries delivery hmem
  rw [Function.comp_apply, hregistered, hvalue]
  rfl

/-- What a publication leaves in a buffer. -/
theorem Publication.bufferedValues_eq {shared owned : List (Delivery Value)}
    (hpublication : Publication adapters published message subs m after shared owned)
    {object : ℕ} {stored : List (MessageObject Value)}
    (hstores : Stores (m.subscriptionObjects object).intraProcess.buffer stored) :
    bufferedValues (after.subscriptionObjects object) =
      ((((shared ++ owned).map fun delivery =>
          (delivery.object, delivery.message.value)).filter fun target =>
            target.1 = object).map Prod.snd |>.foldl
              (push (m.subscriptionObjects object).intraProcess.buffer.buffer.capacity)
              (stored.map MessageObject.value)).map some := by
  have hafter := storeAll_stores (shared ++ owned) m.subscriptionObjects hstores
  rw [← hpublication.stored] at hafter
  have hmessages : (messagesFor (shared ++ owned) object).map MessageObject.value =
      ((((shared ++ owned).map fun delivery =>
        (delivery.object, delivery.message.value)).filter fun target =>
          target.1 = object).map Prod.snd) := by
    rw [messagesFor, List.filter_map, List.map_map, List.map_map]
    rfl
  rw [bufferedValues, hafter.contents_eq, List.map_map, ← hmessages, ← foldl_push_map,
    List.map_map]
  rfl

/-- Publications of one message from one state leave equal values in the buffers. -/
theorem Publication.same_values {after' : Manager Value Callback Qos}
    {shared owned shared' owned' : List (Delivery Value)}
    (hfirst : Publication adapters published message subs m after shared owned)
    (hsecond : Publication adapters published message subs m after' shared' owned')
    {object : ℕ} {stored : List (MessageObject Value)}
    (hstores : Stores (m.subscriptionObjects object).intraProcess.buffer stored) :
    bufferedValues (after.subscriptionObjects object) =
      bufferedValues (after'.subscriptionObjects object) := by
  have htargets := hfirst.targets.trans hsecond.targets.symm
  have hpairs : (shared ++ owned).map (fun delivery =>
      (delivery.object, delivery.message.value)) =
      (shared' ++ owned').map fun delivery =>
        (delivery.object, delivery.message.value) := by
    apply List.map_injective_iff.mpr (Option.some_injective (ℕ × Value))
    rw [List.map_map, List.map_map]
    exact htargets
  rw [hfirst.bufferedValues_eq hstores, hsecond.bufferedValues_eq hstores, hpairs]

/-- All matched subscriptions are alive and of the publisher's types. -/
def AllLive (rosType : ℕ) (subs : SplittedSubscriptions) (m : Manager Value Callback Qos) :
    Prop :=
  ∀ id ∈ subs.ids, ∃ object, Servable m rosType id object ∧
    (m.subscriptionObjects object).alive = true

theorem AllLive.ready (hlive : AllLive rosType subs m) :
    Ready rosType subs.ids m ∧ subs.live m = subs := by
  have hids : ∀ id ∈ subs.ids, isLive m id = true := by
    intro id hmem
    obtain ⟨object, hservable, halive⟩ := hlive id hmem
    rw [isLive_of_registered hservable.registered, halive]
  refine ⟨⟨fun id hmem => ?_, ?_⟩, ?_⟩
  · obtain ⟨object, hservable, -⟩ := hlive id hmem
    exact ⟨object, hservable⟩
  · have hnone : expiredIds m subs.ids = [] :=
      List.filter_eq_nil_iff.mpr fun id hmem => by simp [hids id hmem]
    rw [hnone]
    exact List.nodup_nil
  · rw [SplittedSubscriptions.live,
      List.filter_eq_self.mpr fun id hmem => hids id (List.mem_append_left _ hmem),
      List.filter_eq_self.mpr fun id hmem => hids id (List.mem_append_right _ hmem)]

variable (adapters published message subs m after)

/-- One message for each matched subscription, and none of the owners' objects has another
holder: neither another subscription nor the pointer that is returned. -/
def IndependentDelivery (returned : Option (MessageObject Value)) : Prop :=
  ∃ shared owned, Publication adapters published message subs m after shared owned ∧
    shared.map Delivery.subId = subs.takeShared ∧
    owned.map Delivery.subId = subs.takeOwnership ∧
    (∀ object stored, Stores (m.subscriptionObjects object).intraProcess.buffer stored →
      Stores (after.subscriptionObjects object).intraProcess.buffer
        ((messagesFor (shared ++ owned) object).foldl
          (push (m.subscriptionObjects object).intraProcess.buffer.buffer.capacity) stored)) ∧
    (owned.map fun delivery => delivery.message.address).count message.address ≤ 1 ∧
    ∀ owner ∈ owned, ∀ pointer ∈ returned, owner.message.address ≠ pointer.address

variable {adapters published message subs m after}

theorem Publication.independentDelivery {shared owned : List (Delivery Value)}
    (hlive : subs.live m = subs)
    (hpublication : Publication adapters published message subs m after shared owned)
    (returned : Option (MessageObject Value))
    (hreturned : ∀ owner ∈ owned, ∀ pointer ∈ returned,
      owner.message.address ≠ pointer.address) :
    IndependentDelivery adapters published message subs m after returned := by
  have hshared := hpublication.shared_ids
  have howned := hpublication.owned_ids
  rw [hlive] at hshared howned
  refine ⟨shared, owned, hpublication, hshared, howned, fun object stored hstores => ?_,
    List.nodup_iff_count_le_one.mp hpublication.owned_nodup _, hreturned⟩
  rw [hpublication.stored]
  exact storeAll_stores _ _ hstores

end Independent

/-- When every matched subscription is alive and of the publisher's types, both variants
deliver the message, each subscription gets one that is independent of the owners' ones,
and the values in the buffers do not depend on the variant. -/
theorem publish_delivers_independently (adapters : TypeAdapters Value)
    (published : MessageType) {rosType pubId : ℕ} (message : MessageObject Value)
    {subs : SplittedSubscriptions} {m : Manager Value Callback Qos}
    (hlisted : m.pubToSubs pubId = some subs) (hlive : AllLive rosType subs m)
    (hheld : message.address < m.nextAddress) :
    ∃ after after' returned,
      doIntraProcessPublish adapters published rosType pubId message m = (after, none) ∧
      doIntraProcessPublishAndReturnShared adapters published rosType pubId message m =
        (after', .ok (some returned)) ∧
      returned.value = message.value ∧
      IndependentDelivery adapters published message subs m after none ∧
      IndependentDelivery adapters published message subs m after' (some returned) ∧
      ∀ object stored, Stores (m.subscriptionObjects object).intraProcess.buffer stored →
        bufferedValues (after.subscriptionObjects object) =
          bufferedValues (after'.subscriptionObjects object) := by
  obtain ⟨hready, hsame⟩ := hlive.ready
  obtain ⟨after, shared, owned, hafter, hpublication⟩ :=
    doIntraProcessPublish_publication adapters published message hlisted hready hheld
  obtain ⟨after', returned, shared', owned', hafter', hvalue, hpublication', hreturned⟩ :=
    doIntraProcessPublishAndReturnShared_publication adapters published message hlisted hready
      hheld
  refine ⟨after, after', returned, hafter, hafter', hvalue,
    hpublication.independentDelivery hsame none (by simp),
    hpublication'.independentDelivery hsame (some returned) ?_,
    fun object stored hstores => hpublication.same_values hpublication' hstores⟩
  rintro owner howns pointer ⟨⟩
  exact hreturned owner howns

/-! ## On one topic -/

def noAdapters : TypeAdapters ℕ := ⟨fun _ => id, fun _ => id⟩

/-- A subscription with an empty buffer of ten. -/
def tenDeep (bufferType : BufferType) (rosType : ℕ) : SubscriptionBase ℕ ℕ Unit where
  topicName := "topic"
  actualQos := ()
  rosType := rosType
  subscribedType := .ros
  alive := true
  intraProcess :=
    { buffer := ⟨bufferType, ⟨10, fun _ => none, 9, 0, 0⟩⟩
      callbackTakesShared := bufferType = .sharedPtr
      history := .other
      depth := 10
      onNewMessageCallback := none
      directNotifyCallback := none
      unreadCount := 0 }

/-- A manager without registrations; the message that is going to be published has the
address 0. -/
def emptyManager (subscriptions : ℕ → SubscriptionBase ℕ ℕ Unit) : Manager ℕ ℕ Unit where
  nextUniqueId := 1
  publishers := ∅
  subscriptions := ∅
  pubToSubs := fun _ => none
  publisherObjects := fun _ => ⟨"topic", (), 0, true⟩
  subscriptionObjects := subscriptions
  nextAddress := 1

/-- A publisher, and then these subscriptions. -/
def registerAll (objects : List ℕ) (m : Manager ℕ ℕ Unit) : Except String (Manager ℕ ℕ Unit) :=
  objects.foldlM
    (fun m object =>
      (addSubscription (fun _ _ => true) m.publishers.entries object m).map Prod.snd)
    =<< (addPublisher (fun _ _ => true) [] 0 m).map Prod.snd

/-- Two subscriptions that share messages, and two that own them. -/
def twoAndTwo : Except String (Manager ℕ ℕ Unit) :=
  registerAll [0, 1, 2, 3]
    (emptyManager fun object => tenDeep (if object < 2 then .sharedPtr else .uniquePtr) 0)

theorem twoAndTwo_independent : ∃ m, twoAndTwo = .ok m ∧
    m.pubToSubs 1 = some ⟨[2, 3], [4, 5]⟩ ∧
    ∃ after after' returned,
      doIntraProcessPublish noAdapters .ros 0 1 ⟨0, 7⟩ m = (after, none) ∧
      doIntraProcessPublishAndReturnShared noAdapters .ros 0 1 ⟨0, 7⟩ m =
        (after', .ok (some returned)) ∧
      returned.value = 7 ∧
      IndependentDelivery noAdapters .ros ⟨0, 7⟩ ⟨[2, 3], [4, 5]⟩ m after none ∧
      IndependentDelivery noAdapters .ros ⟨0, 7⟩ ⟨[2, 3], [4, 5]⟩ m after' (some returned) := by
  have hmanager : ∃ m, twoAndTwo = .ok m ∧ m.pubToSubs 1 = some ⟨[2, 3], [4, 5]⟩ ∧
      AllLive 0 ⟨[2, 3], [4, 5]⟩ m ∧ m.nextAddress = 1 := by
    refine ⟨_, rfl, rfl, fun id hmem => ?_, rfl⟩
    simp only [SplittedSubscriptions.ids, List.cons_append, List.nil_append, List.mem_cons,
      List.not_mem_nil, or_false] at hmem
    rcases hmem with rfl | rfl | rfl | rfl
    · exact ⟨0, ⟨rfl, rfl⟩, rfl⟩
    · exact ⟨1, ⟨rfl, rfl⟩, rfl⟩
    · exact ⟨2, ⟨rfl, rfl⟩, rfl⟩
    · exact ⟨3, ⟨rfl, rfl⟩, rfl⟩
  obtain ⟨m, hm, hlisted, hlive, hnext⟩ := hmanager
  obtain ⟨after, after', returned, hafter, hafter', hvalue, hdelivery, hdelivery', -⟩ :=
    publish_delivers_independently noAdapters .ros ⟨0, 7⟩ hlisted hlive
      (hnext ▸ Nat.zero_lt_one)
  exact ⟨m, hm, hlisted, after, after', returned, hafter, hafter', hvalue, hdelivery,
    hdelivery'⟩

/-- A subscription on the topic with another allocator type is matched and alive, and
nothing is delivered. -/
theorem otherAllocator_throws : ∃ m,
    registerAll [0] (emptyManager fun _ => tenDeep .sharedPtr 1) = .ok m ∧
    m.pubToSubs 1 = some ⟨[2], []⟩ ∧ (m.subscriptionObjects 0).alive = true ∧
    (doIntraProcessPublish noAdapters .ros 0 1 ⟨0, 7⟩ m).2 = some failedToCast ∧
    bufferedValues
      ((doIntraProcessPublish noAdapters .ros 0 1 ⟨0, 7⟩ m).1.subscriptionObjects 0) = [] :=
  ⟨_, rfl, rfl, rfl, rfl, rfl⟩

end RosRtems.IntraProcessManager
