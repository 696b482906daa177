import RosRtems.Core.Runs
import RosRtems.IntraProcess.IntraProcessManager

/-!
# Takes from an intra-process subscription

The type of the buffer and the kind of the user callback are chosen independently, so a
message is shared, promoted, copied or moved on its way from a publisher to the callback.
The executor without a loop takes once for every notification, and a buffer that has
overwritten messages is found empty in the end.

What a subscription holds is followed by the addresses of the message objects, and what it
should hold by the queue of the values that were added last.
-/

namespace RosRtems.MessageTakes

open RosRtems.Runs RosRtems.KeepLast RosRtems.RingBuffer RosRtems.IntraProcess
open RosRtems.IntraProcessManager (MessageObject)

variable {Value Callback : Type*}

/-! ## The buffer and its messages -/

/-- The pair of pointers that `take_data` returns a pointer to. -/
structure TakenData (Value : Type*) where
  shared : Option (MessageObject Value)
  unique : Option (MessageObject Value)

section Operations

variable (sub : SubscriptionIntraProcess (MessageObject Value) Callback)

/-- The addresses of the messages in the buffer. -/
def storedAddresses : List ℕ :=
  (contents sub.buffer.buffer).filterMap (Option.map MessageObject.address)

/-- `add_shared`: a buffer of unique pointers copies the message into a new object. -/
def addSharedMessage (message : MessageObject Value) (nextAddress : ℕ) :
    SubscriptionIntraProcess (MessageObject Value) Callback × ℕ :=
  match sub.buffer.bufferType with
  | .sharedPtr => ({ sub with buffer := addShared sub.buffer message }, nextAddress)
  | .uniquePtr =>
      ({ sub with buffer := addShared sub.buffer ⟨nextAddress, message.value⟩ },
        nextAddress + 1)

def addUniqueMessage (message : MessageObject Value) :
    SubscriptionIntraProcess (MessageObject Value) Callback :=
  { sub with buffer := addUnique sub.buffer message }

/-- `take_data`: an owning callback gets a copy of the message where the buffer shares it,
and the object itself where the buffer owns it. -/
def takeMessage (nextAddress : ℕ) :
    Except Fault (Option (TakenData Value) ×
      SubscriptionIntraProcess (MessageObject Value) Callback × ℕ) :=
  (takeData sub).map fun (message, rest, _) =>
    match message, sub.callbackTakesShared, sub.buffer.bufferType with
    | none, _, _ => (none, rest, nextAddress)
    | some message, true, _ => (some ⟨some message, none⟩, rest, nextAddress)
    | some message, false, .uniquePtr => (some ⟨none, some message⟩, rest, nextAddress)
    | some message, false, .sharedPtr =>
        (some ⟨none, some ⟨nextAddress, message.value⟩⟩, rest, nextAddress + 1)

/-- The message that `execute_impl` hands to the callback; nothing is executed for null. -/
def executeImpl (data : Option (TakenData Value)) : Option (MessageObject Value) :=
  data.bind fun taken => if sub.callbackTakesShared then taken.shared else taken.unique

end Operations

/-! ## Publishers and takes in any order -/

/-- `sharedElsewhere` has the objects that others hold a shared pointer to, and `queue` the
values that a take should still yield.  Nothing is followed after a fault. -/
structure TakeState (Value Callback : Type*) where
  sub : SubscriptionIntraProcess (MessageObject Value) Callback
  nextAddress : ℕ
  sharedElsewhere : List ℕ
  queue : List Value
  faulted : Bool

inductive TakeLabel (Value : Type*)
  | allocate
  | release (address : ℕ)
  | addShared (message : MessageObject Value)
  | addUnique (message : MessageObject Value)
  | takeData
  deriving DecidableEq

def TakeState.store (s : TakeState Value Callback)
    (sub : SubscriptionIntraProcess (MessageObject Value) Callback) (value : Value) :
    TakeState Value Callback :=
  { s with sub := sub, queue := push s.sub.depth s.queue value }

/-- A callback that takes shared messages may keep the pointer. -/
def TakeState.sharedAfter (s : TakeState Value Callback) (data : Option (TakenData Value)) :
    List ℕ :=
  match data.bind TakenData.shared with
  | some message => message.address :: s.sharedElsewhere
  | none => s.sharedElsewhere

/-- A message is added by a pointer of its kind: no unique pointer of the buffer owns an
object that is added as a shared one, and nobody holds one that is added as a unique one. -/
inductive TakeStep :
    TakeState Value Callback → TakeLabel Value → TakeState Value Callback → Prop
  | allocate (s : TakeState Value Callback) (hrunning : s.faulted = false) :
      TakeStep s .allocate { s with nextAddress := s.nextAddress + 1 }
  | release (s : TakeState Value Callback) (address : ℕ) (hrunning : s.faulted = false) :
      TakeStep s (.release address)
        { s with sharedElsewhere := s.sharedElsewhere.filter (· ≠ address) }
  | addShared (s : TakeState Value Callback) (message : MessageObject Value)
      (hrunning : s.faulted = false) (hallocated : message.address < s.nextAddress)
      (hshared : s.sub.buffer.bufferType = .uniquePtr →
        message.address ∉ storedAddresses s.sub) :
      TakeStep s (.addShared message)
        { s.store (addSharedMessage s.sub message s.nextAddress).1 message.value with
          nextAddress := (addSharedMessage s.sub message s.nextAddress).2
          sharedElsewhere := message.address :: s.sharedElsewhere }
  | addUnique (s : TakeState Value Callback) (message : MessageObject Value)
      (hrunning : s.faulted = false) (hallocated : message.address < s.nextAddress)
      (helsewhere : message.address ∉ s.sharedElsewhere)
      (hstored : message.address ∉ storedAddresses s.sub) :
      TakeStep s (.addUnique message)
        (s.store (addUniqueMessage s.sub message) message.value)
  | takeData (s : TakeState Value Callback) (data : Option (TakenData Value))
      (sub : SubscriptionIntraProcess (MessageObject Value) Callback) (nextAddress : ℕ)
      (hrunning : s.faulted = false)
      (htaken : takeMessage s.sub s.nextAddress = .ok (data, sub, nextAddress)) :
      TakeStep s .takeData
        { s with
          sub := sub
          nextAddress := nextAddress
          sharedElsewhere := s.sharedAfter data
          queue := s.queue.tail }
  | fault (s : TakeState Value Callback) (fault : Fault) (hrunning : s.faulted = false)
      (hfault : takeMessage s.sub s.nextAddress = .error fault) :
      TakeStep s .takeData { s with faulted := true }

/-- A take that dereferences no null pointer, returns null exactly if nothing is stored,
and hands the oldest value to the callback; an owned message is nobody else's. -/
def SafeTake (s : TakeState Value Callback) : Prop :=
  ∃ data sub nextAddress, takeMessage s.sub s.nextAddress = .ok (data, sub, nextAddress) ∧
    (data = none ↔ s.queue = []) ∧
    ∀ taken, data = some taken → ∃ message, executeImpl s.sub data = some message ∧
      s.queue.head? = some message.value ∧
      (s.sub.callbackTakesShared = false →
        message.address ∉ s.sharedElsewhere ∧ message.address ∉ storedAddresses sub)

/-- The subscription as its constructor leaves it; others may hold messages already. -/
structure Created (s : TakeState Value Callback) : Prop where
  sub : createSubscription s.sub.buffer.bufferType s.sub.callbackTakesShared s.sub.history
    s.sub.depth = .ok s.sub
  queue : s.queue = []
  elsewhere : ∀ address ∈ s.sharedElsewhere, address < s.nextAddress

/-! ## What a take yields -/

section Takes

variable {sub : SubscriptionIntraProcess (MessageObject Value) Callback}
  {objects : List (MessageObject Value)} {nextAddress : ℕ}

theorem storedAddresses_eq (hstores : Stores sub.buffer objects) :
    storedAddresses sub = objects.map MessageObject.address := by
  rw [storedAddresses, hstores.contents_eq, List.filterMap_map, ← List.filterMap_eq_map]
  rfl

/-- Where an owning callback finds the buffer of shared pointers empty. -/
def Dereferences (sub : SubscriptionIntraProcess (MessageObject Value) Callback)
    (stored : List (MessageObject Value)) : Prop :=
  sub.callbackTakesShared = false ∧ sub.buffer.bufferType = .sharedPtr ∧ stored = []

theorem takeMessage_of_nil (hstores : Stores sub.buffer [])
    (hsafe : ¬ Dereferences sub []) :
    takeMessage sub nextAddress = .ok (none, sub, nextAddress) := by
  have hnot : ¬ (sub.callbackTakesShared = false ∧ sub.buffer.bufferType = .sharedPtr) :=
    fun hboth => hsafe ⟨hboth.1, hboth.2, rfl⟩
  rw [takeMessage, takeData_of_nil hstores, if_neg hnot]
  rfl

theorem takeMessage_of_dereference (hstores : Stores sub.buffer [])
    (hnull : Dereferences sub []) :
    takeMessage sub nextAddress = .error .nullDereference := by
  rw [takeMessage, takeData_of_nil hstores, if_pos ⟨hnull.1, hnull.2.1⟩]
  rfl

/-- The message that a take yields: the stored object, or a copy of it for an owning
callback where the buffer shares it. -/
def takenMessage (sub : SubscriptionIntraProcess (MessageObject Value) Callback)
    (nextAddress : ℕ) (message : MessageObject Value) : MessageObject Value :=
  if sub.callbackTakesShared = false ∧ sub.buffer.bufferType = .sharedPtr then
    ⟨nextAddress, message.value⟩
  else message

theorem takenMessage_value (message : MessageObject Value) :
    (takenMessage sub nextAddress message).value = message.value := by
  rw [takenMessage]
  split <;> rfl

/-- A take from a buffer with messages yields the oldest one to the kind of the callback. -/
theorem takeMessage_of_cons (nextAddress : ℕ) {message : MessageObject Value}
    (hstores : Stores sub.buffer (message :: objects)) :
    ∃ data after, takeMessage sub nextAddress = .ok (some data, dequeued sub, after) ∧
      nextAddress ≤ after ∧
      executeImpl sub (some data) = some (takenMessage sub nextAddress message) ∧
      (∀ shared, data.shared = some shared → shared = message) := by
  rw [takeMessage, takeData_eq_of_cons hstores]
  simp only [Except.map]
  cases hkind : sub.callbackTakesShared with
  | true =>
      refine ⟨_, _, rfl, le_rfl, ?_, fun shared hshared => ?_⟩
      · simp [executeImpl, takenMessage, hkind]
      · exact (Option.some.inj hshared).symm
  | false =>
      cases htype : sub.buffer.bufferType with
      | uniquePtr =>
          refine ⟨_, _, rfl, le_rfl, ?_, fun shared hshared => ?_⟩
          · simp [executeImpl, takenMessage, hkind, htype]
          · cases hshared
      | sharedPtr =>
          refine ⟨_, _, rfl, Nat.le_succ _, ?_, fun shared hshared => ?_⟩
          · simp [executeImpl, takenMessage, hkind, htype]
          · cases hshared

end Takes

/-! ## What the subscription holds -/

/-- The buffer holds these objects, which have the values of the queue.  The objects of a
buffer of unique pointers are nobody else's. -/
structure Holding (objects : List (MessageObject Value)) (s : TakeState Value Callback) :
    Prop where
  stores : Stores s.sub.buffer objects
  capacity : s.sub.buffer.buffer.capacity = s.sub.depth
  values : objects.map MessageObject.value = s.queue
  allocated : ∀ message ∈ objects, message.address < s.nextAddress
  elsewhere : ∀ address ∈ s.sharedElsewhere, address < s.nextAddress
  nodup : s.sub.buffer.bufferType = .uniquePtr → (objects.map MessageObject.address).Nodup
  owned : s.sub.buffer.bufferType = .uniquePtr → ∀ message ∈ objects,
    message.address ∉ s.sharedElsewhere

def TakeInvariant (s : TakeState Value Callback) : Prop :=
  ∃ objects, Holding objects s

section Invariant

variable {s : TakeState Value Callback} {objects : List (MessageObject Value)}

theorem Created.invariant (hcreated : Created s) : TakeInvariant s := by
  have hsub := hcreated.sub
  rw [createSubscription] at hsub
  cases hbuffer : (create s.sub.depth :
      Except String (RingBufferImplementation (Option (MessageObject Value)))) with
  | error text =>
      rw [hbuffer] at hsub
      cases hsub
  | ok buffer =>
      rw [hbuffer] at hsub
      obtain ⟨hwellFormed, hempty, hcapacity⟩ := create_wellFormed hbuffer
      have hstored : s.sub.buffer.buffer = buffer :=
        congrArg (fun sub => sub.buffer.buffer) (Except.ok.inj hsub).symm
      refine ⟨[], ⟨⟨hstored ▸ hwellFormed, hstored ▸ hempty⟩, hstored ▸ hcapacity,
        hcreated.queue.symm, by simp, hcreated.elsewhere, by simp, by simp⟩⟩

/-- One more object in the buffer. -/
theorem Holding.push (hs : Holding objects s) (message : MessageObject Value)
    {nextAddress : ℕ} {sharedElsewhere : List ℕ} (hnext : s.nextAddress ≤ nextAddress)
    (haddress : message.address < nextAddress)
    (helsewhere : ∀ address ∈ sharedElsewhere, address < nextAddress)
    (hfresh : s.sub.buffer.bufferType = .uniquePtr →
      message.address ∉ objects.map MessageObject.address ∧
      message.address ∉ sharedElsewhere ∧
      ∀ stored ∈ objects, stored.address ∉ sharedElsewhere) :
    Holding (push s.sub.depth objects message)
      { s.store { s.sub with buffer := addShared s.sub.buffer message } message.value with
        nextAddress := nextAddress, sharedElsewhere := sharedElsewhere } where
  stores := hs.capacity ▸ addShared_stores hs.stores message
  capacity := by
    have hkept : (enqueue s.sub.buffer.buffer (some message)).capacity =
        s.sub.buffer.buffer.capacity := by
      rw [enqueue]
      split <;> rfl
    exact hkept.trans hs.capacity
  values := by
    rw [← push_map, hs.values]
    rfl
  allocated := by
    intro stored hmem
    rcases mem_push hmem with hold | rfl
    · exact (hs.allocated stored hold).trans_le hnext
    · exact haddress
  elsewhere := helsewhere
  nodup := by
    intro htype
    have hnew : (objects.map MessageObject.address ++ [message.address]).Nodup :=
      List.nodup_append.mpr ⟨hs.nodup htype, List.nodup_singleton _, by
        rintro address hold _ hlast rfl
        rw [List.mem_singleton.mp hlast] at hold
        exact (hfresh htype).1 hold⟩
    have hsublist := (push_sublist s.sub.depth objects message).map MessageObject.address
    rw [List.map_append, List.map_singleton] at hsublist
    exact hnew.sublist hsublist
  owned := by
    intro htype stored hmem
    rcases mem_push hmem with hold | rfl
    · exact (hfresh htype).2.2 stored hold
    · exact (hfresh htype).2.1

/-- The oldest object has left the buffer. -/
theorem Holding.dequeue {message : MessageObject Value}
    (hs : Holding (message :: objects) s) {nextAddress : ℕ} {sharedElsewhere : List ℕ}
    (hnext : s.nextAddress ≤ nextAddress)
    (helsewhere : ∀ address ∈ sharedElsewhere,
      address = message.address ∨ address ∈ s.sharedElsewhere) :
    Holding objects
      { s with
        sub := dequeued s.sub
        nextAddress := nextAddress
        sharedElsewhere := sharedElsewhere
        queue := s.queue.tail } where
  stores := (dequeue_stores hs.stores).2
  capacity := by
    obtain ⟨-, -, -, hkept⟩ := dequeue_of_cons hs.stores.wellFormed hs.stores.contents_eq
    exact hkept.trans hs.capacity
  values := by
    rw [← hs.values]
    rfl
  allocated := fun stored hmem =>
    (hs.allocated stored (List.mem_cons_of_mem _ hmem)).trans_le hnext
  elsewhere := by
    intro address hmem
    rcases helsewhere address hmem with rfl | hold
    · exact (hs.allocated message List.mem_cons_self).trans_le hnext
    · exact (hs.elsewhere address hold).trans_le hnext
  nodup := fun htype => (List.nodup_cons.mp (hs.nodup htype)).2
  owned := by
    intro htype stored hmem hshared
    rcases helsewhere _ hshared with hsame | hold
    · have hnot := (List.nodup_cons.mp (hs.nodup htype)).1
      exact hnot (hsame ▸ List.mem_map_of_mem hmem)
    · exact hs.owned htype stored (List.mem_cons_of_mem _ hmem) hold

theorem takeInvariant_step (s : TakeState Value Callback) (label : TakeLabel Value)
    (s' : TakeState Value Callback) (hs : TakeInvariant s) (hstep : TakeStep s label s') :
    TakeInvariant s' := by
  obtain ⟨objects, hs⟩ := hs
  cases hstep with
  | allocate hrunning =>
      refine ⟨objects, { hs with allocated := ?_, elsewhere := ?_ }⟩
      · exact fun message hmem => (hs.allocated message hmem).trans (Nat.lt_succ_self _)
      · exact fun address hmem => (hs.elsewhere address hmem).trans (Nat.lt_succ_self _)
  | release address hrunning =>
      refine ⟨objects, { hs with elsewhere := ?_, owned := ?_ }⟩
      · exact fun other hmem => hs.elsewhere other (List.mem_of_mem_filter hmem)
      · exact fun htype message hmem hshared =>
          hs.owned htype message hmem (List.mem_of_mem_filter hshared)
  | addShared message hrunning hallocated hshared =>
      rw [storedAddresses_eq hs.stores] at hshared
      cases htype : s.sub.buffer.bufferType with
      | sharedPtr =>
          simp only [addSharedMessage, htype]
          refine ⟨_, hs.push message le_rfl hallocated ?_ (by simp [htype])⟩
          exact List.forall_mem_cons.mpr ⟨hallocated, hs.elsewhere⟩
      | uniquePtr =>
          simp only [addSharedMessage, htype]
          refine ⟨_, hs.push ⟨s.nextAddress, message.value⟩ (Nat.le_succ _)
            (Nat.lt_succ_self _) ?_ fun _ => ⟨?_, ?_, ?_⟩⟩
          · refine List.forall_mem_cons.mpr ⟨hallocated.trans (Nat.lt_succ_self _), ?_⟩
            exact fun address hmem => (hs.elsewhere address hmem).trans (Nat.lt_succ_self _)
          · intro hmem
            obtain ⟨stored, hstored, hsame⟩ := List.mem_map.mp hmem
            exact (hs.allocated stored hstored).ne hsame
          · intro hmem
            rcases List.mem_cons.mp hmem with hsame | hold
            · exact hallocated.ne hsame.symm
            · exact (hs.elsewhere _ hold).ne rfl
          · intro stored hstored hmem
            rcases List.mem_cons.mp hmem with hsame | hold
            · exact hshared htype (hsame ▸ List.mem_map_of_mem hstored)
            · exact hs.owned htype stored hstored hold
  | addUnique message hrunning hallocated helsewhere hstored =>
      rw [storedAddresses_eq hs.stores] at hstored
      exact ⟨_, hs.push message le_rfl hallocated hs.elsewhere
        fun htype => ⟨hstored, helsewhere, hs.owned htype⟩⟩
  | takeData data sub nextAddress hrunning htaken =>
      cases objects with
      | nil =>
          by_cases hnull : Dereferences s.sub []
          · rw [takeMessage_of_dereference hs.stores hnull] at htaken
            cases htaken
          · rw [takeMessage_of_nil hs.stores hnull] at htaken
            cases htaken
            refine ⟨[], { hs with values := ?_ }⟩
            rw [← hs.values]
            rfl
      | cons message objects =>
          obtain ⟨taken, after, hresult, hnext, -, hshared⟩ :=
            takeMessage_of_cons s.nextAddress hs.stores
          rw [hresult] at htaken
          cases htaken
          refine ⟨objects, hs.dequeue hnext fun address hmem => ?_⟩
          rw [TakeState.sharedAfter] at hmem
          split at hmem
          · rename_i shared hsome
            rcases List.mem_cons.mp hmem with rfl | hold
            · exact .inl (congrArg MessageObject.address (hshared shared hsome))
            · exact .inr hold
          · exact .inr hmem
  | fault fault hrunning hfault => exact ⟨objects, { hs with }⟩

end Invariant

/-! ## Which takes are safe -/

section Safety

variable {s : TakeState Value Callback}

/-- Where a take goes wrong: an owning callback finds nothing in a buffer of shared
pointers. -/
def FindsNothing (s : TakeState Value Callback) : Prop :=
  s.sub.callbackTakesShared = false ∧ s.sub.buffer.bufferType = .sharedPtr ∧ s.queue = []

theorem safeTake_iff (hs : TakeInvariant s) : SafeTake s ↔ ¬ FindsNothing s := by
  obtain ⟨objects, hs⟩ := hs
  cases objects with
  | nil =>
      have hqueue : s.queue = [] := hs.values.symm
      by_cases hnull : Dereferences s.sub []
      · refine iff_of_false ?_ (not_not.mpr ⟨hnull.1, hnull.2.1, hqueue⟩)
        rintro ⟨data, sub, nextAddress, htaken, -⟩
        rw [takeMessage_of_dereference hs.stores hnull] at htaken
        cases htaken
      · refine iff_of_true ?_ fun hnothing => hnull ⟨hnothing.1, hnothing.2.1, rfl⟩
        refine ⟨none, s.sub, s.nextAddress, takeMessage_of_nil hs.stores hnull, ?_, ?_⟩
        · exact iff_of_true rfl hqueue
        · exact fun taken hnone => absurd hnone.symm (Option.some_ne_none taken)
  | cons message objects =>
      have hqueue : s.queue = message.value :: objects.map MessageObject.value :=
        hs.values.symm
      refine iff_of_true ?_ fun hnothing => ?_
      · obtain ⟨data, after, htaken, hnext, hexecute, -⟩ :=
          takeMessage_of_cons s.nextAddress hs.stores
        refine ⟨some data, _, after, htaken, ?_, ?_⟩
        · simp [hqueue]
        · rintro taken ⟨⟩
          refine ⟨_, hexecute, ?_, fun howning => ?_⟩
          · rw [takenMessage_value, hqueue]
            rfl
          · rw [storedAddresses_eq (dequeue_stores hs.stores).2, takenMessage]
            cases htype : s.sub.buffer.bufferType with
            | sharedPtr =>
                -- the copy lies in an object that was not there before
                rw [if_pos ⟨howning, rfl⟩]
                refine ⟨fun hmem => (hs.elsewhere _ hmem).ne rfl, fun hmem => ?_⟩
                obtain ⟨stored, hstored, hsame⟩ := List.mem_map.mp hmem
                exact (hs.allocated stored (List.mem_cons_of_mem _ hstored)).ne hsame
            | uniquePtr =>
                rw [if_neg (by simp)]
                exact ⟨hs.owned htype message List.mem_cons_self,
                  (List.nodup_cons.mp (hs.nodup htype)).1⟩
      · have hnone := hnothing.2.2
        rw [hqueue] at hnone
        cases hnone

variable {start finish : TakeState Value Callback}
  {trace : List (Move (TakeState Value Callback) (TakeLabel Value))}

/-- All takes of a run are safe exactly if no take of an owning callback finds a buffer of
shared pointers empty. -/
theorem takes_safe_iff (hrun : Run TakeStep start trace finish) (hstart : Created start) :
    (∀ move ∈ trace, move.label = .takeData → SafeTake move.source) ↔
      ∀ move ∈ trace, move.label = .takeData → ¬ FindsNothing move.source := by
  have hmoves := hrun.moves_always takeInvariant_step hstart.invariant
  exact forall₂_congr fun move hmem => imp_congr_right fun _ =>
    safeTake_iff (hmoves move hmem).2.1

/-- A subscription of depth one whose callback owns its messages. -/
def depthOne (bufferType : BufferType) : SubscriptionIntraProcess (MessageObject ℕ) ℕ where
  buffer := ⟨bufferType, ⟨1, fun _ => none, 0, 0, 0⟩⟩
  callbackTakesShared := false
  history := .other
  depth := 1
  onNewMessageCallback := none
  directNotifyCallback := none
  unreadCount := 0

/-- Two messages have been allocated. -/
def withTwoMessages (bufferType : BufferType) : TakeState ℕ ℕ :=
  ⟨depthOne bufferType, 2, [], [], false⟩

theorem withTwoMessages_created (bufferType : BufferType) :
    Created (withTwoMessages bufferType) :=
  ⟨rfl, rfl, by simp [withTwoMessages]⟩

/-- The second message overwrites the first, and two notifications lead to two takes. -/
def twoNotifications : List (TakeLabel ℕ) :=
  [.addUnique ⟨0, 7⟩, .addUnique ⟨1, 8⟩, .takeData, .takeData]

theorem not_findsNothing_of_uniquePtr (htype : s.sub.buffer.bufferType = .uniquePtr) :
    ¬ FindsNothing s := by
  rintro ⟨-, hshared, -⟩
  rw [htype] at hshared
  cases hshared

theorem owned_takes_safe :
    ∃ trace finish, Run TakeStep (withTwoMessages .uniquePtr) trace finish ∧
      trace.map Move.label = twoNotifications ∧
      ∀ move ∈ trace, move.label = .takeData → SafeTake move.source := by
  have hrun := Run.cons
    (TakeStep.addUnique (withTwoMessages .uniquePtr) ⟨0, 7⟩ rfl (by decide) (by decide) (by decide))
    (.cons (.addUnique _ ⟨1, 8⟩ rfl (by decide) (by decide) (by decide))
      (.cons (.takeData _ (some ⟨none, some ⟨1, 8⟩⟩) _ 2 rfl rfl)
        (.cons (.takeData _ none _ 2 rfl rfl) (.nil _))))
  refine ⟨_, _, hrun, rfl, (takes_safe_iff hrun (withTwoMessages_created .uniquePtr)).mpr ?_⟩
  simp only [List.forall_mem_cons]
  exact ⟨fun _ => not_findsNothing_of_uniquePtr rfl, fun _ => not_findsNothing_of_uniquePtr rfl,
    fun _ => not_findsNothing_of_uniquePtr rfl, fun _ => not_findsNothing_of_uniquePtr rfl,
    by simp⟩

/-- The take for the second notification dereferences the null pointer that the empty
buffer returned. -/
theorem second_take_dereferences_null :
    Created (withTwoMessages .sharedPtr) ∧
      ∃ trace finish, Run TakeStep (withTwoMessages .sharedPtr) trace finish ∧
        trace.map Move.label = twoNotifications ∧ finish.faulted = true ∧
        ¬ ∀ move ∈ trace, move.label = .takeData → SafeTake move.source := by
  refine ⟨withTwoMessages_created _, _, _,
    .cons (.addUnique _ ⟨0, 7⟩ rfl (by decide) (by decide) (by decide))
      (.cons (.addUnique _ ⟨1, 8⟩ rfl (by decide) (by decide) (by decide))
        (.cons (.takeData _ (some ⟨none, some ⟨2, 8⟩⟩) _ 3 rfl rfl)
          (.cons (.fault _ .nullDereference rfl rfl) (.nil _)))), rfl, rfl, fun hall => ?_⟩
  obtain ⟨data, sub, nextAddress, htaken, -⟩ := hall _
    (List.mem_cons_of_mem _ (List.mem_cons_of_mem _ (List.mem_cons_of_mem _
      List.mem_cons_self))) rfl
  cases htaken

end Safety

end RosRtems.MessageTakes
