import RosRtems.Core.Mailboxes
import RosRtems.IntraProcess.RoutingTables

/-!
# From publication to take

Publications go through the manager into the buffers of the matched subscriptions, and the
executors take from the buffers.  Whatever else happens to the manager in between, each
subscription is a keep-last mailbox: a publication arrives in the mailboxes of the live
subscriptions that its publisher can communicate with, and a take yields the oldest value.
-/

namespace RosRtems.Pipeline

open RosRtems.Runs RosRtems.KeepLast RosRtems.Mailboxes RosRtems.RingBuffer
open RosRtems.IntraProcess RosRtems.IntraProcessManager RosRtems.RoutingTables

variable {Value Callback Qos : Type*}

/-! ## The pipeline -/

/-- How a consumer listens to a subscription. -/
inductive Listening (Callback : Type*)
  | direct (callback : Option Callback)
  | onReady (callback : Option Callback)
  | clear

/-- A callback that is not callable changes nothing. -/
def listen (listening : Listening Callback)
    (sub : SubscriptionIntraProcess (MessageObject Value) Callback) :
    SubscriptionIntraProcess (MessageObject Value) Callback :=
  match listening with
  | .direct callback => setDirectNotifyCallback sub callback
  | .onReady callback =>
      match setOnReadyCallback sub callback with
      | .ok (installed, _) => installed
      | .error _ => sub
  | .clear => clearOnReadyCallback sub

def setIntraProcess (object : ℕ) (sub : SubscriptionIntraProcess (MessageObject Value) Callback)
    (m : Manager Value Callback Qos) : Manager Value Callback Qos :=
  { m with
    subscriptionObjects := Function.update m.subscriptionObjects object
      { m.subscriptionObjects object with intraProcess := sub } }

inductive PipelineLabel (Value Callback : Type*)
  | manager (label : ManagerLabel Value)
  | take (object : ℕ) (data : Option (MessageObject Value))
  | listen (object : ℕ) (listening : Listening Callback)

/-- A take that would dereference a null pointer is not followed. -/
inductive PipelineStep (qosCompatible : Qos → Qos → Bool) (adapters : TypeAdapters Value) :
    Manager Value Callback Qos → PipelineLabel Value Callback →
      Manager Value Callback Qos → Prop
  | manager (m m' : Manager Value Callback Qos) (label : ManagerLabel Value)
      (hstep : ManagerStep qosCompatible adapters m label m') :
      PipelineStep qosCompatible adapters m (.manager label) m'
  | take (m : Manager Value Callback Qos) (object : ℕ) (data : Option (MessageObject Value))
      (sub : SubscriptionIntraProcess (MessageObject Value) Callback)
      (wakeUps : List (WakeUp Callback))
      (htake : takeData (m.subscriptionObjects object).intraProcess =
        .ok (data, sub, wakeUps)) :
      PipelineStep qosCompatible adapters m (.take object data) (setIntraProcess object sub m)
  | listen (m : Manager Value Callback Qos) (object : ℕ) (listening : Listening Callback) :
      PipelineStep qosCompatible adapters m (.listen object listening)
        (setIntraProcess object (listen listening (m.subscriptionObjects object).intraProcess) m)

/-- No expired subscription is met that a publisher still lists. -/
def PipelineMeetsNoExpired (m : Manager Value Callback Qos) :
    PipelineLabel Value Callback → Prop
  | .manager label => MeetsNoExpired m label
  | .take _ _ | .listen _ _ => True

/-! ## What arrives where -/

section Arriving

variable (qosCompatible : Qos → Qos → Bool) (adapters : TypeAdapters Value)

/-- The values that a publication brings to a subscription object: one for each id under
which it is registered, if it is alive and the publisher can communicate with it. -/
def arriving (m : Manager Value Callback Qos) (published : MessageType) (pubId : ℕ)
    (message : MessageObject Value) (object : ℕ) : List Value :=
  match m.publishers.lookup pubId with
  | none => []
  | some publisher =>
      if (m.subscriptionObjects object).alive = true ∧
          canCommunicate qosCompatible (m.publisherObjects publisher)
            (m.subscriptionObjects object) = true then
        (m.subscriptions.entries.filter fun entry => entry.2 = object).map fun _ =>
          receives adapters published message (m.subscriptionObjects object)
      else []

/-- What a step is for the mailboxes. -/
def mailOf (move : Move (Manager Value Callback Qos) (PipelineLabel Value Callback)) :
    Option (Event ℕ Value) :=
  match move.label with
  | .manager (.publish _ published pubId message) =>
      some (.arrive (arriving qosCompatible adapters move.source published pubId message))
  | .take object data => some (.take object (data.map MessageObject.value))
  | _ => none

end Arriving

/-- The buffers hold what the mailboxes hold. -/
structure Mirrors (capacity : ℕ → ℕ) (m : Manager Value Callback Qos)
    (boxes : ℕ → List Value) : Prop where
  stores : ∀ object, ∃ stored, Stores (m.subscriptionObjects object).intraProcess.buffer stored ∧
    stored.map MessageObject.value = boxes object
  capacity_eq : ∀ object,
    (m.subscriptionObjects object).intraProcess.buffer.buffer.capacity = capacity object

section Steps

variable {qosCompatible : Qos → Qos → Bool} {adapters : TypeAdapters Value}
  {m m' : Manager Value Callback Qos} {capacity : ℕ → ℕ} {boxes : ℕ → List Value}

theorem Mirrors.congr (hmirrors : Mirrors capacity m boxes)
    (hsame : ∀ object, (m'.subscriptionObjects object).intraProcess.buffer =
      (m.subscriptionObjects object).intraProcess.buffer) : Mirrors capacity m' boxes where
  stores := fun object => by simpa only [hsame object] using hmirrors.stores object
  capacity_eq := fun object => by simpa only [hsame object] using hmirrors.capacity_eq object

/-! ## Steps that do not concern the tables -/

/-- The tables do not depend on what a subscription object has stored. -/
theorem tables_setIntraProcess (hm : Tables qosCompatible m) (object : ℕ)
    {sub : SubscriptionIntraProcess (MessageObject Value) Callback}
    (htype : sub.buffer.bufferType =
      (m.subscriptionObjects object).intraProcess.buffer.bufferType) :
    Tables qosCompatible (setIntraProcess object sub m) := by
  have hfield : ∀ {Field : Type _} (field : SubscriptionBase Value Callback Qos → Field),
      field { m.subscriptionObjects object with intraProcess := sub } =
        field (m.subscriptionObjects object) → ∀ other,
      field ((setIntraProcess object sub m).subscriptionObjects other) =
        field (m.subscriptionObjects other) := by
    intro Field field hkept other
    by_cases hsame : other = object
    · subst hsame
      simpa [setIntraProcess] using hkept
    · simp [setIntraProcess, hsame]
  have hshared : ∀ other,
      useTakeSharedMethod ((setIntraProcess object sub m).subscriptionObjects other) =
        useTakeSharedMethod (m.subscriptionObjects other) := by
    apply hfield useTakeSharedMethod
    simp [useTakeSharedMethod, htype]
  refine hm.of_sameObjects ⟨fun _ => id, fun _ => rfl, fun other halive => ?_, ?_, hshared, ?_⟩
    rfl rfl rfl rfl le_rfl
  · rwa [hfield SubscriptionBase.alive rfl other] at halive
  · exact hfield SubscriptionBase.rosType rfl
  · intro publisher
    exact hfield (canCommunicate qosCompatible (m.publisherObjects publisher)) rfl

theorem listen_buffer (listening : Listening Callback)
    (sub : SubscriptionIntraProcess (MessageObject Value) Callback) :
    (listen listening sub).buffer = sub.buffer := by
  cases listening with
  | direct callback => rfl
  | clear => rfl
  | onReady callback =>
      cases callback with
      | none => rfl
      | some callback =>
          simp only [listen, setOnReadyCallback]
          split <;> rename_i heq <;> split at heq <;> cases heq <;> rfl

theorem setIntraProcess_buffer (object other : ℕ)
    (sub : SubscriptionIntraProcess (MessageObject Value) Callback) :
    ((setIntraProcess object sub m).subscriptionObjects other).intraProcess.buffer =
      if other = object then sub.buffer
      else (m.subscriptionObjects other).intraProcess.buffer := by
  by_cases hsame : other = object
  · subst hsame
    simp [setIntraProcess]
  · simp [setIntraProcess, hsame]

/-- A take yields the oldest value of the mailbox, or nothing from an empty one. -/
theorem mirrors_take (hmirrors : Mirrors capacity m boxes) {object : ℕ}
    {data : Option (MessageObject Value)}
    {sub : SubscriptionIntraProcess (MessageObject Value) Callback}
    {wakeUps : List (WakeUp Callback)}
    (htake : takeData (m.subscriptionObjects object).intraProcess = .ok (data, sub, wakeUps)) :
    data.map MessageObject.value = (boxes object).head? ∧
      sub.buffer.bufferType = (m.subscriptionObjects object).intraProcess.buffer.bufferType ∧
      Mirrors capacity (setIntraProcess object sub m)
        (Function.update boxes object (boxes object).tail) := by
  have hothers : ∀ stored, Stores sub.buffer stored →
      stored.map MessageObject.value = (boxes object).tail →
      sub.buffer.buffer.capacity = capacity object →
      Mirrors capacity (setIntraProcess object sub m)
        (Function.update boxes object (boxes object).tail) := by
    intro stored hstores hvalues hcapacity
    constructor
    · intro other
      rw [setIntraProcess_buffer]
      by_cases hsame : other = object
      · subst hsame
        exact ⟨stored, by simpa using hstores, by simpa using hvalues⟩
      · simpa [hsame] using hmirrors.stores other
    · intro other
      rw [setIntraProcess_buffer]
      by_cases hsame : other = object
      · simpa [hsame] using hcapacity
      · simpa [hsame] using hmirrors.capacity_eq other
  obtain ⟨stored, hstores, hvalues⟩ := hmirrors.stores object
  cases stored with
  | nil =>
      rw [takeData_of_nil hstores] at htake
      split at htake
      · cases htake
      · cases htake
        refine ⟨by simp [← hvalues], rfl, hothers [] hstores ?_ (hmirrors.capacity_eq object)⟩
        simp [← hvalues]
  | cons message stored =>
      rw [takeData_eq_of_cons hstores] at htake
      cases htake
      have hcontents := hstores.contents_eq
      rw [List.map_cons] at hcontents
      obtain ⟨-, -, -, hcapacity⟩ := dequeue_of_cons hstores.wellFormed hcontents
      refine ⟨by simp [← hvalues], rfl, hothers stored (dequeue_stores hstores).2 ?_ ?_⟩
      · simp [← hvalues]
      · exact hcapacity.trans (hmirrors.capacity_eq object)

/-! ## Publications -/

/-- The messages delivered to an object are those that are said to arrive there. -/
theorem messagesFor_values {publisher pubId : ℕ} {published : MessageType}
    {message : MessageObject Value} {deliveries : List (Delivery Value)}
    (hregistered : m.publishers.lookup pubId = some publisher)
    (honce : ∀ subId object, LiveMatch qosCompatible m publisher subId object →
      (deliveries.map Delivery.subId).count subId = 1)
    (hentries : ∀ delivery ∈ deliveries,
      LiveMatch qosCompatible m publisher delivery.subId delivery.object ∧
        delivery.message.value =
          receives adapters published message (m.subscriptionObjects delivery.object))
    (object : ℕ) :
    (messagesFor deliveries object).map MessageObject.value =
      arriving qosCompatible adapters m published pubId message object := by
  have hvalue : (messagesFor deliveries object).map MessageObject.value =
      ((deliveries.filter fun delivery => delivery.object = object).map Delivery.subId).map
        fun _ => receives adapters published message (m.subscriptionObjects object) := by
    rw [messagesFor, List.map_map, List.map_map]
    apply List.map_congr_left
    intro delivery hmem
    obtain ⟨hmem, hobject⟩ := List.mem_filter.mp hmem
    have hobject : delivery.object = object := by simpa using hobject
    rw [Function.comp_apply, Function.comp_apply, (hentries delivery hmem).2, hobject]
  rw [hvalue]
  simp only [arriving, hregistered]
  split
  · rename_i hreached
    have hids : ((deliveries.filter fun delivery => delivery.object = object).map
        Delivery.subId).Perm
        ((m.subscriptions.entries.filter fun entry => entry.2 = object).map Sigma.fst) := by
      apply (List.perm_ext_iff_of_nodup _ _).mpr
      · intro subId
        simp only [List.mem_map, List.mem_filter, decide_eq_true_eq]
        constructor
        · rintro ⟨delivery, ⟨hmem, rfl⟩, rfl⟩
          have hlookup := (hentries delivery hmem).1.registered
          exact ⟨⟨delivery.subId, delivery.object⟩, ⟨AList.mem_lookup_iff.mp hlookup, rfl⟩, rfl⟩
        · rintro ⟨⟨subId, object⟩, ⟨hmem, rfl⟩, rfl⟩
          have hlookup : m.subscriptions.lookup subId = some object :=
            AList.mem_lookup_iff.mpr hmem
          have hcount := honce subId object ⟨hlookup, hreached.1, hreached.2⟩
          obtain ⟨delivery, hdelivery, rfl⟩ := List.mem_map.mp
            (List.count_pos_iff.mp (hcount ▸ Nat.one_pos))
          have hsame := (hentries delivery hdelivery).1.registered.symm.trans hlookup
          exact ⟨delivery, ⟨hdelivery, Option.some.inj hsame⟩, rfl⟩
      · apply List.Nodup.sublist (List.filter_sublist.map Delivery.subId)
        apply List.nodup_iff_count_le_one.mpr
        intro subId
        by_cases hmem : subId ∈ deliveries.map Delivery.subId
        · obtain ⟨delivery, hdelivery, rfl⟩ := List.mem_map.mp hmem
          exact (honce _ _ (hentries delivery hdelivery).1).le
        · exact (List.count_eq_zero.mpr hmem).le.trans (Nat.zero_le 1)
      · exact m.subscriptions.keys_nodup.sublist (List.filter_sublist.map Sigma.fst)
    have hlength := hids.length_eq
    simp only [List.length_map] at hlength
    simp only [List.map_const', List.length_map, hlength]
  · rename_i hunreached
    rw [List.map_eq_nil_iff, List.map_eq_nil_iff, List.filter_eq_nil_iff]
    intro delivery hmem hobject
    have hobject : delivery.object = object := by simpa using hobject
    have hmatch := (hentries delivery hmem).1
    rw [hobject] at hmatch
    exact hunreached ⟨hmatch.alive, hmatch.compatible⟩

theorem mirrors_publish (hm : Tables qosCompatible m) (hmirrors : Mirrors capacity m boxes)
    (variant : Variant) (published : MessageType) {rosType pubId : ℕ}
    {message : MessageObject Value}
    (hcaller : ∀ publisher, m.publishers.lookup pubId = some publisher →
      (m.publisherObjects publisher).alive = true ∧
        (m.publisherObjects publisher).rosType = rosType)
    (hheld : message.address < m.nextAddress) :
    Mirrors capacity (publishBy variant adapters published rosType pubId message m).1
      fun object => (arriving qosCompatible adapters m published pubId message object).foldl
        (push (capacity object)) (boxes object) := by
  cases hlisted : m.pubToSubs pubId with
  | none =>
      have hnone : m.publishers.lookup pubId = none := by
        rw [AList.lookup_eq_none, ← hm.entry pubId, hlisted]
        simp
      rw [publishBy_unregistered variant published hlisted]
      simpa [arriving, hnone] using hmirrors
  | some subs =>
      have hmem := (hm.entry pubId).mp ⟨subs, hlisted⟩
      obtain ⟨publisher, hregistered⟩ :=
        Option.isSome_iff_exists.mp (AList.lookup_isSome.mpr hmem)
      obtain ⟨halive, rfl⟩ := hcaller publisher hregistered
      have hexact := hm.exact pubId publisher subs ⟨hregistered, halive⟩ hlisted
      have hdelivers : DeliversToAll qosCompatible adapters m pubId publisher :=
        hexact.deliversToAll hm.sameTypes hlisted
      obtain ⟨after, deliveries, hafter, hobjects, honce, hentries⟩ :=
        hdelivers variant published message hheld
      rw [hafter]
      constructor
      · intro object
        obtain ⟨stored, hstores, hvalues⟩ := hmirrors.stores object
        have hstored := storeAll_stores deliveries m.subscriptionObjects hstores
        rw [← hobjects, hmirrors.capacity_eq] at hstored
        refine ⟨_, hstored, ?_⟩
        rw [foldl_push_map, messagesFor_values hregistered honce hentries, hvalues]
      · intro object
        rw [hobjects, storeAll_field deliveries _
          (fun sub => sub.intraProcess.buffer.buffer.capacity) store_capacity]
        exact hmirrors.capacity_eq object

/-- Only publications store messages. -/
theorem step_buffer (hm : Tables qosCompatible m) {label : ManagerLabel Value}
    (hstep : ManagerStep qosCompatible adapters m label m')
    (hother : ∀ variant published pubId message,
      label ≠ .publish variant published pubId message) (object : ℕ) :
    (m'.subscriptionObjects object).intraProcess.buffer =
      (m.subscriptionObjects object).intraProcess.buffer := by
  cases hstep with
  | addPublisher entries publisher pubId _ _ horder hadd =>
      obtain ⟨-, rfl⟩ := addPublisher_eq hadd
      rfl
  | addSubscription entries subscription subId _ _ horder hadd =>
      obtain ⟨-, pubToSubs, rfl, -⟩ := addSubscription_eq hm horder hadd
      rfl
  | expireSubscription subscription =>
      by_cases hsame : object = subscription
      · subst hsame
        simp [expireSubscription]
      · simp [expireSubscription, hsame]
  | getSubscription subId =>
      rw [getSubscriptionIntraProcess]
      split
      · rfl
      · split <;> rfl
  | publish variant published rosType pubId message =>
      exact absurd rfl (hother variant published pubId message)
  | _ => rfl

/-- A step keeps the tables exact, and is for the mailboxes what `mailOf` says. -/
theorem pipeline_step (hm : Tables qosCompatible m) (hmirrors : Mirrors capacity m boxes)
    {label : PipelineLabel Value Callback} (hmeets : PipelineMeetsNoExpired m label)
    (hstep : PipelineStep qosCompatible adapters m label m') :
    Tables qosCompatible m' ∧
      (mailOf qosCompatible adapters ⟨m, label, m'⟩ = none → Mirrors capacity m' boxes) ∧
      ∀ event, mailOf qosCompatible adapters ⟨m, label, m'⟩ = some event →
        ∃ next, MailStep capacity boxes event next ∧ Mirrors capacity m' next := by
  cases hstep with
  | manager _ label hstep =>
      constructor
      · exact tables_step hm hmeets hstep
      · by_cases hpublish : ∃ variant published pubId message,
            label = .publish variant published pubId message
        · obtain ⟨variant, published, pubId, message, rfl⟩ := hpublish
          constructor
          · intro hnone
            cases hnone
          · intro event hevent
            cases hstep with
            | publish _ _ rosType _ _ hcaller hheld =>
                cases hevent
                exact ⟨_, .arrive boxes _,
                  mirrors_publish hm hmirrors variant published hcaller hheld⟩
        · have hother : ∀ variant published pubId message,
              label ≠ .publish variant published pubId message :=
            fun variant published pubId message heq =>
              hpublish ⟨variant, published, pubId, message, heq⟩
          constructor
          · intro _
            exact hmirrors.congr (step_buffer hm hstep hother)
          · intro event hevent
            cases label with
            | publish => exact absurd rfl (hother _ _ _ _)
            | _ => cases hevent
  | take object data sub wakeUps htake =>
      obtain ⟨hdata, htype, hnext⟩ := mirrors_take hmirrors htake
      refine ⟨tables_setIntraProcess hm object htype, nofun, fun event hevent => ?_⟩
      cases hevent
      rw [hdata]
      exact ⟨_, .take boxes object, hnext⟩
  | listen object listening =>
      constructor
      · exact tables_setIntraProcess hm object (by rw [listen_buffer])
      · refine ⟨fun _ => hmirrors.congr fun other => ?_, nofun⟩
        rw [setIntraProcess_buffer, listen_buffer]
        split
        · rename_i hsame
          rw [hsame]
        · rfl

end Steps

/-! ## Whole runs -/

/-- Before the first registration, with buffers as they are created. -/
structure Idle (qosCompatible : Qos → Qos → Bool) (capacity : ℕ → ℕ)
    (m : Manager Value Callback Qos) : Prop where
  unregistered : Unregistered m
  sameTypes : SameTypes qosCompatible m
  created : ∀ object, ∃ bufferType takesShared history,
    createSubscription bufferType takesShared history (capacity object) =
      .ok (m.subscriptionObjects object).intraProcess

theorem Idle.mirrors {qosCompatible : Qos → Qos → Bool} {capacity : ℕ → ℕ}
    {m : Manager Value Callback Qos} (hm : Idle qosCompatible capacity m) :
    Mirrors capacity m fun _ => [] := by
  have hcreated : ∀ object,
      ∃ buffer, create (capacity object) = .ok buffer ∧
        (m.subscriptionObjects object).intraProcess.buffer.buffer = buffer := by
    intro object
    obtain ⟨bufferType, takesShared, history, hcreate⟩ := hm.created object
    rw [createSubscription] at hcreate
    cases hbuffer :
        (create (capacity object) :
          Except String (RingBufferImplementation (Option (MessageObject Value)))) with
    | error text =>
        rw [hbuffer] at hcreate
        cases hcreate
    | ok buffer =>
        rw [hbuffer] at hcreate
        exact ⟨buffer, rfl, by rw [← Except.ok.inj hcreate]⟩
  constructor
  · intro object
    obtain ⟨buffer, hcreate, hbuffer⟩ := hcreated object
    obtain ⟨hwellFormed, hempty, -⟩ := create_wellFormed hcreate
    exact ⟨[], ⟨by rwa [hbuffer], by rw [hbuffer, hempty]; rfl⟩, rfl⟩
  · intro object
    obtain ⟨buffer, hcreate, hbuffer⟩ := hcreated object
    rw [hbuffer]
    exact (create_wellFormed hcreate).2.2

section Runs

variable {qosCompatible : Qos → Qos → Bool} {adapters : TypeAdapters Value} {capacity : ℕ → ℕ}
  {start finish : Manager Value Callback Qos}
  {trace : List (Move (Manager Value Callback Qos) (PipelineLabel Value Callback))}

theorem pipeline_moves (hstart : Idle qosCompatible capacity start)
    (hrun : Run (PipelineStep qosCompatible adapters) start trace finish)
    (hmeets : Admitted PipelineMeetsNoExpired trace) :
    ∃ moves boxes, Run (MailStep capacity) (fun _ => []) moves boxes ∧
      List.Forall₂ (Matches (Mirrors capacity) (mailOf qosCompatible adapters))
        (trace.filter fun move => (mailOf qosCompatible adapters move).isSome) moves ∧
      Mirrors capacity finish boxes := by
  have hkeep : ∀ (source : Manager Value Callback Qos) label target,
      (Tables qosCompatible source ∧ ∃ boxes, Mirrors capacity source boxes) →
      PipelineMeetsNoExpired source label →
      PipelineStep qosCompatible adapters source label target →
      Tables qosCompatible target ∧ ∃ boxes, Mirrors capacity target boxes := by
    rintro source label target ⟨hm, boxes, hmirrors⟩ hmeets hstep
    obtain ⟨htables, hsilent, hmail⟩ := pipeline_step hm hmirrors hmeets hstep
    cases hevent : mailOf qosCompatible adapters ⟨source, label, target⟩ with
    | none => exact ⟨htables, boxes, hsilent hevent⟩
    | some event =>
        obtain ⟨next, -, hnext⟩ := hmail event hevent
        exact ⟨htables, next, hnext⟩
  have hsilent : ∀ (source : Manager Value Callback Qos) label target boxes,
      (Tables qosCompatible source ∧ ∃ boxes, Mirrors capacity source boxes) →
      PipelineMeetsNoExpired source label →
      PipelineStep qosCompatible adapters source label target →
      Mirrors capacity source boxes →
      mailOf qosCompatible adapters ⟨source, label, target⟩ = none →
      Mirrors capacity target boxes :=
    fun _ _ _ _ hm hmeets hstep hmirrors => (pipeline_step hm.1 hmirrors hmeets hstep).2.1
  have hobserved : ∀ (source : Manager Value Callback Qos) label target boxes event,
      (Tables qosCompatible source ∧ ∃ boxes, Mirrors capacity source boxes) →
      PipelineMeetsNoExpired source label →
      PipelineStep qosCompatible adapters source label target →
      Mirrors capacity source boxes →
      mailOf qosCompatible adapters ⟨source, label, target⟩ = some event →
      ∃ next, MailStep capacity boxes event next ∧ Mirrors capacity target next :=
    fun _ _ _ _ event hm hmeets hstep hmirrors =>
      (pipeline_step hm.1 hmirrors hmeets hstep).2.2 event
  exact hrun.simulates_moves hkeep hsilent hobserved
    ⟨hstart.unregistered.tables hstart.sameTypes, _, hstart.mirrors⟩ hmeets hstart.mirrors

/-- Registrations, expirations, publications and takes, in any order: as long as no expired
subscription is met that a publisher still lists, the subscriptions are mailboxes in which
the published values arrive and from which they are taken. -/
theorem pipeline_mailboxes (hstart : Idle qosCompatible capacity start)
    (hrun : Run (PipelineStep qosCompatible adapters) start trace finish)
    (hmeets : Admitted PipelineMeetsNoExpired trace) :
    ∃ moves boxes, Run (MailStep capacity) (fun _ => []) moves boxes ∧
      moves.map Move.label = trace.filterMap (mailOf qosCompatible adapters) ∧
      Mirrors capacity finish boxes := by
  obtain ⟨moves, boxes, hmoves, hmatched, hmirrors⟩ := pipeline_moves hstart hrun hmeets
  exact ⟨moves, boxes, hmoves, labels_of_matches hmatched, hmirrors⟩

variable (qosCompatible adapters) in
/-- What a publication brings to the subscription finds room in its buffer. -/
def FindsRoom (object : ℕ) (m : Manager Value Callback Qos) :
    PipelineLabel Value Callback → Prop
  | .manager (.publish _ published pubId message) =>
      (contents (m.subscriptionObjects object).intraProcess.buffer.buffer).length +
          (arriving qosCompatible adapters m published pubId message object).length ≤
        (m.subscriptionObjects object).intraProcess.buffer.buffer.capacity
  | _ => True

theorem findsRoom_of_silent (object : ℕ)
    (move : Move (Manager Value Callback Qos) (PipelineLabel Value Callback))
    (hsilent : mailOf qosCompatible adapters move = none) :
    FindsRoom qosCompatible adapters object move.source move.label := by
  obtain ⟨source, label, target⟩ := move
  cases label with
  | manager label =>
      cases label with
      | publish => cases hsilent
      | _ => trivial
  | _ => trivial

theorem Mirrors.length_eq {m : Manager Value Callback Qos} {boxes : ℕ → List Value}
    (hmirrors : Mirrors capacity m boxes) (object : ℕ) :
    (contents (m.subscriptionObjects object).intraProcess.buffer.buffer).length =
      (boxes object).length := by
  obtain ⟨stored, hstores, hvalues⟩ := hmirrors.stores object
  rw [hstores.contents_eq, ← hvalues, List.length_map, List.length_map]

theorem Mirrors.bufferedValues_eq {m : Manager Value Callback Qos} {boxes : ℕ → List Value}
    (hmirrors : Mirrors capacity m boxes) (object : ℕ) :
    bufferedValues (m.subscriptionObjects object) = (boxes object).map some := by
  obtain ⟨stored, hstores, hvalues⟩ := hmirrors.stores object
  rw [bufferedValues, hstores.contents_eq, ← hvalues, List.map_map, List.map_map]
  rfl

theorem Mirrors.length_le {m : Manager Value Callback Qos} {boxes : ℕ → List Value}
    (hmirrors : Mirrors capacity m boxes) (object : ℕ) :
    (boxes object).length ≤ capacity object := by
  obtain ⟨stored, hstores, -⟩ := hmirrors.stores object
  rw [← hmirrors.length_eq, ← hmirrors.capacity_eq, contents_length]
  exact hstores.wellFormed.size_le

theorem findsRoom_iff (object : ℕ)
    (move : Move (Manager Value Callback Qos) (PipelineLabel Value Callback))
    (abstractMove : Move (ℕ → List Value) (Event ℕ Value))
    (hmatched : Matches (Mirrors capacity) (mailOf qosCompatible adapters) move abstractMove) :
    FindsRoom qosCompatible adapters object move.source move.label ↔
      HasRoom capacity object abstractMove.source abstractMove.label := by
  obtain ⟨source, label, target⟩ := move
  obtain ⟨boxes, event, next⟩ := abstractMove
  obtain ⟨hobserved, hsource, -⟩ := hmatched
  have hlength := hsource.length_eq object
  have hcapacity := hsource.capacity_eq object
  cases label with
  | manager label =>
      cases label with
      | publish variant published pubId message =>
          cases hobserved
          rw [FindsRoom, HasRoom, hlength, hcapacity]
          rfl
      | _ => cases hobserved
  | take other data =>
      cases hobserved
      have hfull := hsource.length_le object
      exact iff_of_true trivial (by simpa [HasRoom, Event.arrived] using hfull)
  | listen => cases hobserved

/-- What a subscription gives away and still stores is published to it, in the order of the
publications and none of it twice; all of it is, exactly if every publication finds room. -/
theorem pipeline_in_order (hstart : Idle qosCompatible capacity start)
    (hrun : Run (PipelineStep qosCompatible adapters) start trace finish)
    (hmeets : Admitted PipelineMeetsNoExpired trace) (object : ℕ) :
    ∃ stored, bufferedValues (finish.subscriptionObjects object) = stored.map some ∧
      (taken object (trace.filterMap (mailOf qosCompatible adapters)) ++ stored).Sublist
        (arrived object (trace.filterMap (mailOf qosCompatible adapters))) ∧
      (taken object (trace.filterMap (mailOf qosCompatible adapters)) ++ stored =
          arrived object (trace.filterMap (mailOf qosCompatible adapters)) ↔
        Admitted (FindsRoom qosCompatible adapters object) trace) := by
  obtain ⟨moves, boxes, hmoves, hmatched, hmirrors⟩ := pipeline_moves hstart hrun hmeets
  have hpositive : 0 < capacity object := by
    obtain ⟨stored, hstores, -⟩ := hstart.mirrors.stores object
    rw [← hstart.mirrors.capacity_eq object]
    exact Nat.zero_lt_of_lt hstores.wellFormed.readIndex_lt
  have hsublist := taken_sublist hmoves object
  have hlossless := lossless_iff hmoves hpositive (Nat.zero_le _)
  rw [labels_of_matches hmatched, List.nil_append] at hsublist hlossless
  refine ⟨boxes object, hmirrors.bufferedValues_eq object, hsublist, ?_⟩
  rw [hlossless]
  exact (admitted_iff_of_matches hmatched (findsRoom_of_silent object)
    (findsRoom_iff object)).symm

end Runs

section Cases

theorem sharers_idle : Idle (fun _ _ => true) (fun _ => 10) sharers where
  unregistered := unregistered_sharers
  sameTypes := sameTypes_sharers
  created := fun _ => ⟨.sharedPtr, true, .other, rfl⟩

/-- Two values are published, and one is taken. -/
theorem two_publications_run :
    ∃ (trace : List (Move (Manager ℕ ℕ Unit) (PipelineLabel ℕ ℕ))) (finish : Manager ℕ ℕ Unit),
      Run (PipelineStep (fun _ _ => true) noAdapters) sharers trace finish ∧
      Admitted PipelineMeetsNoExpired trace ∧
      taken 0 (trace.filterMap (mailOf (fun _ _ => true) noAdapters)) = [7] ∧
      arrived 0 (trace.filterMap (mailOf (fun _ _ => true) noAdapters)) = [7, 8] ∧
      bufferedValues (finish.subscriptionObjects 0) = [some 8] := by
  refine ⟨_, _, .cons (.manager _ _ _ (.addPublisher _ [] 0 1 _ rfl .nil rfl)) <|
    .cons (.manager _ _ _ (.addSubscription _ [⟨1, 0⟩] 0 2 _ rfl (.refl _) rfl)) <|
    .cons (.manager _ _ _ (.publish _ .publish .ros 0 1 ⟨0, 7⟩ ?_ Nat.zero_lt_one)) <|
    .cons (.manager _ _ _ (.publish _ .publish .ros 0 1 ⟨0, 8⟩ ?_ Nat.zero_lt_one)) <|
    .cons (.take _ 0 (some ⟨0, 7⟩) _ _ rfl) <| .nil _, ?_, rfl, rfl, rfl⟩
  · exact fun publisher hregistered => ⟨rfl, rfl⟩
  · exact fun publisher hregistered => ⟨rfl, rfl⟩
  · refine .cons trivial <| .cons trivial <| .cons ?_ <| .cons ?_ <| .cons trivial <| .nil _
    · intro subs hlisted subId hmem object hregistered
      rfl
    · intro subs hlisted subId hmem object hregistered
      cases hlisted
      obtain rfl : subId = 2 := List.mem_singleton.mp hmem
      cases hregistered
      rfl

theorem two_publications_mailboxes :
    ∃ moves boxes, Run (MailStep fun _ : ℕ => 10) (fun _ => []) moves boxes ∧
      taken 0 (moves.map Move.label) = [7] ∧ arrived 0 (moves.map Move.label) = [7, 8] ∧
      (boxes 0).map some = [some 8] := by
  obtain ⟨trace, finish, hrun, hmeets, htaken, harrived, hvalues⟩ := two_publications_run
  obtain ⟨moves, boxes, hmoves, hlabels, hmirrors⟩ :=
    pipeline_mailboxes sharers_idle hrun hmeets
  rw [← hlabels] at htaken harrived
  exact ⟨moves, boxes, hmoves, htaken, harrived,
    (hmirrors.bufferedValues_eq 0).symm.trans hvalues⟩

theorem two_publications_in_order :
    ∃ (trace : List (Move (Manager ℕ ℕ Unit) (PipelineLabel ℕ ℕ))) (finish : Manager ℕ ℕ Unit),
      Run (PipelineStep (fun _ _ => true) noAdapters) sharers trace finish ∧
      bufferedValues (finish.subscriptionObjects 0) = [some 8] ∧
      Admitted (FindsRoom (fun _ _ => true) noAdapters 0) trace := by
  obtain ⟨trace, finish, hrun, hmeets, htaken, harrived, hvalues⟩ := two_publications_run
  obtain ⟨stored, hstored, -, hlossless⟩ := pipeline_in_order sharers_idle hrun hmeets 0
  refine ⟨trace, finish, hrun, hvalues, hlossless.mp ?_⟩
  have hone : stored = [8] := by
    have hsame : stored.map some = [8].map some := hstored.symm.trans hvalues
    exact List.map_injective_iff.mpr (Option.some_injective ℕ) hsame
  rw [htaken, harrived, hone]
  rfl

end Cases

end RosRtems.Pipeline
