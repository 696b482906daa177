import RosRtems.Core.Runs
import RosRtems.IntraProcess.MessageDelivery

/-!
# The routing tables over a run

Publishers and subscriptions come, go and expire in any order.  A publisher's lists stay
exact as long as every expired subscription is erased from the lists when it is erased
from the map; two operations erase it from the map only, and after them the publishers
that still list it cannot publish.
-/

namespace RosRtems.RoutingTables

open RosRtems.Runs RosRtems.IntraProcess RosRtems.IntraProcessManager

variable {Value Callback Qos : Type*}

/-! ## Runs of the manager -/

inductive Variant
  | publish
  | publishAndReturnShared
  deriving DecidableEq

/-- A publication, with the text of the exception it ends with. -/
def publishBy (variant : Variant) (adapters : TypeAdapters Value) (published : MessageType)
    (rosType pubId : ℕ) (message : MessageObject Value) (m : Manager Value Callback Qos) :
    Manager Value Callback Qos × Option String :=
  match variant with
  | .publish => doIntraProcessPublish adapters published rosType pubId message m
  | .publishAndReturnShared =>
      match
        doIntraProcessPublishAndReturnShared adapters published rosType pubId message m with
      | (after, .ok _) => (after, none)
      | (after, .error text) => (after, some text)

def expirePublisher (publisher : ℕ) (m : Manager Value Callback Qos) :
    Manager Value Callback Qos :=
  { m with
    publisherObjects := Function.update m.publisherObjects publisher
      { m.publisherObjects publisher with alive := false } }

def expireSubscription (subscription : ℕ) (m : Manager Value Callback Qos) :
    Manager Value Callback Qos :=
  { m with
    subscriptionObjects := Function.update m.subscriptionObjects subscription
      { m.subscriptionObjects subscription with alive := false } }

inductive ManagerLabel (Value : Type*)
  | addPublisher (publisher : ℕ)
  | addSubscription (subscription : ℕ)
  | removePublisher (pubId : ℕ)
  | removeSubscription (subId : ℕ)
  | expirePublisher (publisher : ℕ)
  | expireSubscription (subscription : ℕ)
  | getSubscription (subId : ℕ)
  | publish (variant : Variant) (published : MessageType) (pubId : ℕ)
      (message : MessageObject Value)

/-- Whoever registers an object or publishes through a publisher holds it.  A map is gone
through in any order. -/
inductive ManagerStep (qosCompatible : Qos → Qos → Bool) (adapters : TypeAdapters Value) :
    Manager Value Callback Qos → ManagerLabel Value → Manager Value Callback Qos → Prop
  | addPublisher (m : Manager Value Callback Qos) (entries : List (Σ _ : ℕ, ℕ))
      (publisher pubId : ℕ) (after : Manager Value Callback Qos)
      (halive : (m.publisherObjects publisher).alive = true)
      (horder : entries.Perm m.subscriptions.entries)
      (hadd : addPublisher qosCompatible entries publisher m = .ok (pubId, after)) :
      ManagerStep qosCompatible adapters m (.addPublisher publisher) after
  | addPublisherThrows (m : Manager Value Callback Qos) (entries : List (Σ _ : ℕ, ℕ))
      (publisher : ℕ) (text : String)
      (hadd : addPublisher qosCompatible entries publisher m = .error text) :
      ManagerStep qosCompatible adapters m (.addPublisher publisher) m
  | addSubscription (m : Manager Value Callback Qos) (entries : List (Σ _ : ℕ, ℕ))
      (subscription subId : ℕ) (after : Manager Value Callback Qos)
      (halive : (m.subscriptionObjects subscription).alive = true)
      (horder : entries.Perm m.publishers.entries)
      (hadd : addSubscription qosCompatible entries subscription m = .ok (subId, after)) :
      ManagerStep qosCompatible adapters m (.addSubscription subscription) after
  | addSubscriptionThrows (m : Manager Value Callback Qos) (entries : List (Σ _ : ℕ, ℕ))
      (subscription : ℕ) (text : String)
      (hadd : addSubscription qosCompatible entries subscription m = .error text) :
      ManagerStep qosCompatible adapters m (.addSubscription subscription) m
  | removePublisher (m : Manager Value Callback Qos) (pubId : ℕ) :
      ManagerStep qosCompatible adapters m (.removePublisher pubId) (removePublisher pubId m)
  | removeSubscription (m : Manager Value Callback Qos) (subId : ℕ) :
      ManagerStep qosCompatible adapters m (.removeSubscription subId)
        (removeSubscription subId m)
  | expirePublisher (m : Manager Value Callback Qos) (publisher : ℕ) :
      ManagerStep qosCompatible adapters m (.expirePublisher publisher)
        (expirePublisher publisher m)
  | expireSubscription (m : Manager Value Callback Qos) (subscription : ℕ) :
      ManagerStep qosCompatible adapters m (.expireSubscription subscription)
        (expireSubscription subscription m)
  | getSubscription (m : Manager Value Callback Qos) (subId : ℕ) :
      ManagerStep qosCompatible adapters m (.getSubscription subId)
        (getSubscriptionIntraProcess subId m).2
  | publish (m : Manager Value Callback Qos) (variant : Variant) (published : MessageType)
      (rosType pubId : ℕ) (message : MessageObject Value)
      (hcaller : ∀ publisher, m.publishers.lookup pubId = some publisher →
        (m.publisherObjects publisher).alive = true ∧
          (m.publisherObjects publisher).rosType = rosType)
      (hheld : message.address < m.nextAddress) :
      ManagerStep qosCompatible adapters m (.publish variant published pubId message)
        (publishBy variant adapters published rosType pubId message m).1

/-! ## Exact tables -/

section Exact

variable (qosCompatible : Qos → Qos → Bool) (adapters : TypeAdapters Value)
  (m : Manager Value Callback Qos)

/-- A live publisher is registered under this id. -/
def LivePublisher (pubId publisher : ℕ) : Prop :=
  m.publishers.lookup pubId = some publisher ∧ (m.publisherObjects publisher).alive = true

/-- A live subscription that the publisher can reach is registered under this id. -/
structure LiveMatch (publisher subId object : ℕ) : Prop where
  registered : m.subscriptions.lookup subId = some object
  alive : (m.subscriptionObjects object).alive = true
  compatible : canCommunicate qosCompatible (m.publisherObjects publisher)
    (m.subscriptionObjects object) = true

/-- A publisher's lists have each live match once, in the list that its buffer type
demands, and no other live subscription. -/
structure ListsExactly (publisher : ℕ) (subs : SplittedSubscriptions) : Prop where
  once : ∀ subId object, LiveMatch qosCompatible m publisher subId object →
    (subs.takeShared.count subId, subs.takeOwnership.count subId) =
      if useTakeSharedMethod (m.subscriptionObjects object) then (1, 0) else (0, 1)
  only : ∀ subId ∈ subs.ids, ∀ object, m.subscriptions.lookup subId = some object →
    (m.subscriptionObjects object).alive = true →
      LiveMatch qosCompatible m publisher subId object

/-- Either variant of publishing ends without an exception and with one message for each
live match. -/
def DeliversToAll (pubId publisher : ℕ) : Prop :=
  ∀ variant published (message : MessageObject Value), message.address < m.nextAddress →
    ∃ after deliveries,
      publishBy variant adapters published (m.publisherObjects publisher).rosType pubId
        message m = (after, none) ∧
      after.subscriptionObjects = storeAll deliveries m.subscriptionObjects ∧
      (∀ subId object, LiveMatch qosCompatible m publisher subId object →
        (deliveries.map Delivery.subId).count subId = 1) ∧
      ∀ delivery ∈ deliveries,
        LiveMatch qosCompatible m publisher delivery.subId delivery.object ∧
          delivery.message.value =
            receives adapters published message (m.subscriptionObjects delivery.object)

def Routed : Prop :=
  ∀ pubId publisher, LivePublisher m pubId publisher →
    ∃ subs, m.pubToSubs pubId = some subs ∧
      ListsExactly qosCompatible m publisher subs ∧
      DeliversToAll qosCompatible adapters m pubId publisher

/-- Where publisher and subscription can communicate, their ROS message and allocator
types are equal. -/
def SameTypes : Prop :=
  ∀ publisher object, canCommunicate qosCompatible (m.publisherObjects publisher)
    (m.subscriptionObjects object) = true →
      (m.subscriptionObjects object).rosType = (m.publisherObjects publisher).rosType

end Exact

/-- A lookup does not find an expired subscription that a live publisher lists, and a
publication finds no expired one in its lists. -/
def MeetsNoExpired (m : Manager Value Callback Qos) : ManagerLabel Value → Prop
  | .getSubscription subId => ∀ object, m.subscriptions.lookup subId = some object →
      (m.subscriptionObjects object).alive = false →
        ∀ pubId publisher subs, LivePublisher m pubId publisher →
          m.pubToSubs pubId = some subs → subId ∉ subs.ids
  | .publish _ _ pubId _ => ∀ subs, m.pubToSubs pubId = some subs →
      ∀ subId ∈ subs.ids, ∀ object, m.subscriptions.lookup subId = some object →
        (m.subscriptionObjects object).alive = true
  | _ => True

/-! ## The invariant -/

section Tables

variable {qosCompatible : Qos → Qos → Bool} {adapters : TypeAdapters Value}
  {m m' : Manager Value Callback Qos}

variable (qosCompatible m) in
/-- The id is registered for a subscription that the publisher can reach and that belongs
into this list. -/
def Fits (publisher : ℕ) (takeShared : Bool) (subId : ℕ) : Prop :=
  ∃ object, m.subscriptions.lookup subId = some object ∧
    canCommunicate qosCompatible (m.publisherObjects publisher)
      (m.subscriptionObjects object) = true ∧
    useTakeSharedMethod (m.subscriptionObjects object) = takeShared

variable (qosCompatible m) in
/-- The lists of a live publisher: no id occurs twice, every listed one is registered and
in its place, and no live match is missing. -/
structure Exact (publisher : ℕ) (subs : SplittedSubscriptions) : Prop where
  nodup : subs.ids.Nodup
  shared : ∀ subId ∈ subs.takeShared, Fits qosCompatible m publisher true subId
  owned : ∀ subId ∈ subs.takeOwnership, Fits qosCompatible m publisher false subId
  complete : ∀ subId object, LiveMatch qosCompatible m publisher subId object →
    subId ∈ subs.ids

variable (qosCompatible m) in
structure Tables : Prop where
  publisher_lt : ∀ pubId ∈ m.publishers, pubId < m.nextUniqueId
  subscription_lt : ∀ subId ∈ m.subscriptions, subId < m.nextUniqueId
  listed_lt : ∀ pubId subs, m.pubToSubs pubId = some subs →
    ∀ subId ∈ subs.ids, subId < m.nextUniqueId
  entry : ∀ pubId, (∃ subs, m.pubToSubs pubId = some subs) ↔ pubId ∈ m.publishers
  exact : ∀ pubId publisher subs, LivePublisher m pubId publisher →
    m.pubToSubs pubId = some subs → Exact qosCompatible m publisher subs
  sameTypes : SameTypes qosCompatible m
  address_pos : 0 < m.nextAddress

theorem Exact.fits {publisher : ℕ} {subs : SplittedSubscriptions}
    (hexact : Exact qosCompatible m publisher subs) {subId : ℕ} (hmem : subId ∈ subs.ids) :
    ∃ takeShared, Fits qosCompatible m publisher takeShared subId := by
  rcases List.mem_append.mp hmem with hshared | howned
  · exact ⟨true, hexact.shared subId hshared⟩
  · exact ⟨false, hexact.owned subId howned⟩

theorem Exact.listsExactly {publisher : ℕ} {subs : SplittedSubscriptions}
    (hexact : Exact qosCompatible m publisher subs) :
    ListsExactly qosCompatible m publisher subs where
  once := by
    intro subId object hmatch
    have hcounts := List.count_eq_one_of_mem hexact.nodup (hexact.complete subId object hmatch)
    rw [SplittedSubscriptions.ids, List.count_append] at hcounts
    have hplace : ∀ takeShared, Fits qosCompatible m publisher takeShared subId →
        useTakeSharedMethod (m.subscriptionObjects object) = takeShared := by
      rintro takeShared ⟨other, hregistered, -, huse⟩
      rw [hmatch.registered] at hregistered
      obtain rfl := Option.some.inj hregistered
      exact huse
    cases huse : useTakeSharedMethod (m.subscriptionObjects object) with
    | true =>
        have hno : subs.takeOwnership.count subId = 0 :=
          List.count_eq_zero.mpr fun howned => by
            simp [hplace false (hexact.owned subId howned)] at huse
        rw [hno] at hcounts ⊢
        simpa using hcounts
    | false =>
        have hno : subs.takeShared.count subId = 0 :=
          List.count_eq_zero.mpr fun hshared => by
            simp [hplace true (hexact.shared subId hshared)] at huse
        rw [hno] at hcounts ⊢
        simpa using hcounts
  only := by
    intro subId hmem object hregistered halive
    obtain ⟨_, other, hother, hcompatible, -⟩ := hexact.fits hmem
    rw [hregistered] at hother
    obtain rfl := Option.some.inj hother
    exact ⟨hregistered, halive, hcompatible⟩

/-- The lists of a live publisher can be published to. -/
theorem Exact.ready {publisher : ℕ} {subs : SplittedSubscriptions}
    (hexact : Exact qosCompatible m publisher subs) (htypes : SameTypes qosCompatible m) :
    Ready (m.publisherObjects publisher).rosType subs.ids m where
  servable := by
    intro subId hmem
    obtain ⟨_, object, hregistered, hcompatible, -⟩ := hexact.fits hmem
    exact ⟨object, hregistered, htypes publisher object hcompatible⟩
  expired_nodup := hexact.nodup.filter _

variable (adapters) in
theorem publishBy_publication (variant : Variant) (published : MessageType)
    {rosType pubId : ℕ} {message : MessageObject Value} {subs : SplittedSubscriptions}
    (hlisted : m.pubToSubs pubId = some subs) (hready : Ready rosType subs.ids m)
    (hheld : message.address < m.nextAddress) :
    ∃ after shared owned,
      publishBy variant adapters published rosType pubId message m = (after, none) ∧
      Publication adapters published message subs m after shared owned := by
  cases variant with
  | publish => exact doIntraProcessPublish_publication _ _ _ hlisted hready hheld
  | publishAndReturnShared =>
      obtain ⟨after, returned, shared, owned, hafter, -, hpublication, -⟩ :=
        doIntraProcessPublishAndReturnShared_publication adapters published message hlisted
          hready hheld
      refine ⟨after, shared, owned, ?_, hpublication⟩
      simp only [publishBy, hafter]

theorem Exact.deliversToAll {pubId publisher : ℕ} {subs : SplittedSubscriptions}
    (hexact : Exact qosCompatible m publisher subs) (htypes : SameTypes qosCompatible m)
    (hlisted : m.pubToSubs pubId = some subs) :
    DeliversToAll qosCompatible adapters m pubId publisher := by
  intro variant published message hheld
  obtain ⟨after, shared, owned, hafter, hpublication⟩ := publishBy_publication
    adapters variant published hlisted (hexact.ready htypes) hheld
  have hids : (shared ++ owned).map Delivery.subId = subs.ids.filter (isLive m) := by
    rw [List.map_append, hpublication.shared_ids, hpublication.owned_ids,
      SplittedSubscriptions.ids, List.filter_append]
    rfl
  refine ⟨after, shared ++ owned, hafter, hpublication.stored, fun subId object hmatch => ?_,
    fun delivery hmem => ?_⟩
  · rw [hids]
    refine List.count_eq_one_of_mem (hexact.nodup.filter _) (List.mem_filter.mpr ⟨?_, ?_⟩)
    · exact hexact.complete subId object hmatch
    · rw [isLive_of_registered hmatch.registered, hmatch.alive]
  · obtain ⟨hregistered, hvalue⟩ := hpublication.entries delivery hmem
    have hsubId : delivery.subId ∈ subs.ids.filter (isLive m) := by
      rw [← hids]
      exact List.mem_map_of_mem hmem
    obtain ⟨hmem, hlive⟩ := List.mem_filter.mp hsubId
    rw [isLive_of_registered hregistered] at hlive
    exact ⟨hexact.listsExactly.only _ hmem _ hregistered hlive, hvalue⟩

theorem Tables.routed (hm : Tables qosCompatible m) : Routed qosCompatible adapters m := by
  intro pubId publisher hlive
  have hmem : pubId ∈ m.publishers := by
    rw [← AList.lookup_isSome, hlive.1]
    rfl
  obtain ⟨subs, hlisted⟩ := (hm.entry pubId).mpr hmem
  have hexact := hm.exact pubId publisher subs hlive hlisted
  exact ⟨subs, hlisted, hexact.listsExactly, hexact.deliversToAll hm.sameTypes hlisted⟩

/-! ## A listed id that is not in the map -/

theorem lookup_eraseSubscription (id : ℕ) {subId : ℕ}
    (hmissing : m.subscriptions.lookup subId = none) :
    (eraseSubscription id m).subscriptions.lookup subId = none := by
  by_cases hsame : subId = id
  · rw [hsame]
    exact AList.lookup_erase id _
  · exact (AList.lookup_erase_ne hsame).trans hmissing

/-- The loop ends with an exception if one of the ids is not registered. -/
theorem visitBuffers_throws
    (provide : Bool → SubscriptionBase Value Callback Qos → ℕ →
      Option (SubscriptionBase Value Callback Qos × ℕ))
    {ids : List ℕ} {subId : ℕ} (hmem : subId ∈ ids)
    (hmissing : m.subscriptions.lookup subId = none) :
    (visitBuffers provide ids m).2 ≠ none := by
  induction ids generalizing m with
  | nil => cases hmem
  | cons id ids ih =>
      simp only [visitBuffers]
      split
      · simp
      · rename_i object hregistered
        have hlater : subId ∈ ids := by
          refine (List.mem_cons.mp hmem).resolve_left ?_
          rintro rfl
          rw [hmissing] at hregistered
          cases hregistered
        split
        · split
          · simp
          · exact ih hlater hmissing
        · exact ih hlater (lookup_eraseSubscription id hmissing)

/-- The loop registers nothing. -/
theorem lookup_visitBuffers
    (provide : Bool → SubscriptionBase Value Callback Qos → ℕ →
      Option (SubscriptionBase Value Callback Qos × ℕ))
    (ids : List ℕ) {subId : ℕ} (hmissing : m.subscriptions.lookup subId = none) :
    (visitBuffers provide ids m).1.subscriptions.lookup subId = none := by
  induction ids generalizing m with
  | nil => exact hmissing
  | cons id ids ih =>
      simp only [visitBuffers]
      split
      · exact hmissing
      · split
        · split
          · exact hmissing
          · exact ih hmissing
        · exact ih (lookup_eraseSubscription id hmissing)

variable (adapters) in
theorem publishBy_throws (variant : Variant) (published : MessageType) (rosType : ℕ)
    (message : MessageObject Value) {pubId : ℕ} {subs : SplittedSubscriptions}
    {subId : ℕ} (hlisted : m.pubToSubs pubId = some subs) (hmem : subId ∈ subs.ids)
    (hmissing : m.subscriptions.lookup subId = none) :
    (publishBy variant adapters published rosType pubId message m).2 ≠ none := by
  have hboth : ∀ middle,
      addSharedMsgToBuffers adapters published rosType (allocateShared message m).1
        subs.takeShared (allocateShared message m).2 = (middle, none) →
      (addOwnedMsgToBuffers adapters published rosType message subs.takeOwnership
        middle).2 ≠ none := by
    intro middle hmiddle
    rcases List.mem_append.mp hmem with hshared | howned
    · have hthrows := visitBuffers_throws
        (fun _ => provideShared adapters published rosType (allocateShared message m).1)
        hshared hmissing (m := (allocateShared message m).2)
      rw [← addSharedMsgToBuffers, hmiddle] at hthrows
      exact absurd rfl hthrows
    · have hstill := lookup_visitBuffers
        (fun _ => provideShared adapters published rosType (allocateShared message m).1)
        subs.takeShared hmissing (m := (allocateShared message m).2)
      rw [← addSharedMsgToBuffers, hmiddle] at hstill
      exact visitBuffers_throws _ howned hstill
  have hsharedOnly : subs.takeOwnership.isEmpty = true →
      (addSharedMsgToBuffers adapters published rosType message subs.takeShared m).2 ≠
        none := by
    intro hempty
    rw [SplittedSubscriptions.ids, List.isEmpty_iff.mp hempty, List.append_nil] at hmem
    exact visitBuffers_throws _ hmem hmissing
  cases variant with
  | publish =>
      simp only [publishBy, doIntraProcessPublish, hlisted]
      split
      · exact hsharedOnly ‹_›
      · split
        · exact visitBuffers_throws _ hmem hmissing
        · split
          · simp
          · exact hboth _ ‹_›
  | publishAndReturnShared =>
      simp only [publishBy, doIntraProcessPublishAndReturnShared, hlisted,
        addSharedMsgToBuffers_checked]
      cases hempty : subs.takeOwnership.isEmpty with
      | true =>
          have hthrows := hsharedOnly hempty
          cases hresult : addSharedMsgToBuffers adapters published rosType message
              subs.takeShared m with
          | mk middle text =>
              rw [hresult] at hthrows
              cases text with
              | none => exact absurd rfl hthrows
              | some text => simp
      | false =>
          cases hresult : addSharedMsgToBuffers adapters published rosType
              (allocateShared message m).1 subs.takeShared (allocateShared message m).2 with
          | mk middle text =>
              cases text with
              | some text => simp
              | none =>
                  have hthrows := hboth middle hresult
                  cases howned : addOwnedMsgToBuffers adapters published rosType message
                      subs.takeOwnership middle with
                  | mk after text =>
                      rw [howned] at hthrows
                      cases text with
                      | none => exact absurd rfl hthrows
                      | some text => simp [howned]

/-- A live publisher that lists an unregistered id cannot publish. -/
theorem not_routed_of_missing [Inhabited Value] {pubId publisher subId : ℕ}
    {subs : SplittedSubscriptions} (hlive : LivePublisher m pubId publisher)
    (hlisted : m.pubToSubs pubId = some subs) (hmem : subId ∈ subs.ids)
    (hmissing : m.subscriptions.lookup subId = none) (haddress : 0 < m.nextAddress) :
    ¬ Routed qosCompatible adapters m := by
  intro hrouted
  obtain ⟨_, -, -, hdelivers⟩ := hrouted pubId publisher hlive
  obtain ⟨after, _, hafter, -⟩ := hdelivers .publish .ros ⟨0, default⟩ haddress
  have hthrows := publishBy_throws adapters .publish .ros
    (m.publisherObjects publisher).rosType ⟨0, default⟩ hlisted hmem hmissing
  rw [hafter] at hthrows
  exact hthrows rfl

/-! ## What the operations keep -/

/-- Objects that differ in nothing the tables depend on, and of which none has come back to
life. -/
structure SameObjects (qosCompatible : Qos → Qos → Bool) (m m' : Manager Value Callback Qos) :
    Prop where
  publisher_alive : ∀ publisher, (m'.publisherObjects publisher).alive = true →
    (m.publisherObjects publisher).alive = true
  publisher_rosType : ∀ publisher,
    (m'.publisherObjects publisher).rosType = (m.publisherObjects publisher).rosType
  alive : ∀ object, (m'.subscriptionObjects object).alive = true →
    (m.subscriptionObjects object).alive = true
  rosType : ∀ object,
    (m'.subscriptionObjects object).rosType = (m.subscriptionObjects object).rosType
  takeShared : ∀ object, useTakeSharedMethod (m'.subscriptionObjects object) =
    useTakeSharedMethod (m.subscriptionObjects object)
  compatible : ∀ publisher object,
    canCommunicate qosCompatible (m'.publisherObjects publisher)
        (m'.subscriptionObjects object) =
      canCommunicate qosCompatible (m.publisherObjects publisher)
        (m.subscriptionObjects object)

theorem Exact.congr {publisher : ℕ} {subs : SplittedSubscriptions}
    (hexact : Exact qosCompatible m publisher subs)
    (hsubscriptions : m'.subscriptions = m.subscriptions)
    (hpublishers : m'.publisherObjects = m.publisherObjects)
    (hobjects : m'.subscriptionObjects = m.subscriptionObjects) :
    Exact qosCompatible m' publisher subs := by
  have hfits : ∀ takeShared subId, Fits qosCompatible m publisher takeShared subId →
      Fits qosCompatible m' publisher takeShared subId := by
    intro takeShared subId hfits
    rwa [Fits, hsubscriptions, hpublishers, hobjects]
  refine ⟨hexact.nodup, fun subId hmem => hfits _ _ (hexact.shared subId hmem),
    fun subId hmem => hfits _ _ (hexact.owned subId hmem), fun subId object hmatch => ?_⟩
  obtain ⟨hregistered, halive, hcompatible⟩ := hmatch
  rw [hobjects] at halive hcompatible
  rw [hsubscriptions] at hregistered
  rw [hpublishers] at hcompatible
  exact hexact.complete subId object ⟨hregistered, halive, hcompatible⟩

theorem Exact.of_sameObjects (hsame : SameObjects qosCompatible m m')
    (hsubscriptions : m'.subscriptions = m.subscriptions) {publisher : ℕ}
    {subs : SplittedSubscriptions} (hexact : Exact qosCompatible m publisher subs) :
    Exact qosCompatible m' publisher subs := by
  have hfits : ∀ takeShared subId, Fits qosCompatible m publisher takeShared subId →
      Fits qosCompatible m' publisher takeShared subId := by
    rintro takeShared subId ⟨object, hregistered, hcompatible, huse⟩
    exact ⟨object, hsubscriptions ▸ hregistered, (hsame.compatible publisher object).trans
      hcompatible, (hsame.takeShared object).trans huse⟩
  refine ⟨hexact.nodup, fun subId hmem => hfits _ _ (hexact.shared subId hmem),
    fun subId hmem => hfits _ _ (hexact.owned subId hmem), fun subId object hmatch => ?_⟩
  exact hexact.complete subId object ⟨hsubscriptions ▸ hmatch.registered,
    hsame.alive object hmatch.alive,
    (hsame.compatible publisher object).symm.trans hmatch.compatible⟩

theorem Tables.of_sameObjects (hm : Tables qosCompatible m)
    (hsame : SameObjects qosCompatible m m') (hpublishers : m'.publishers = m.publishers)
    (hsubscriptions : m'.subscriptions = m.subscriptions)
    (hlists : m'.pubToSubs = m.pubToSubs) (hnext : m'.nextUniqueId = m.nextUniqueId)
    (haddress : m.nextAddress ≤ m'.nextAddress) : Tables qosCompatible m' where
  publisher_lt := by
    rw [hpublishers, hnext]
    exact hm.publisher_lt
  subscription_lt := by
    rw [hsubscriptions, hnext]
    exact hm.subscription_lt
  listed_lt := by
    rw [hlists, hnext]
    exact hm.listed_lt
  entry := by
    rw [hlists, hpublishers]
    exact hm.entry
  exact := by
    rintro pubId publisher subs ⟨hregistered, halive⟩ hlisted
    rw [hpublishers] at hregistered
    rw [hlists] at hlisted
    exact (hm.exact pubId publisher subs ⟨hregistered, hsame.publisher_alive publisher halive⟩
      hlisted).of_sameObjects hsame hsubscriptions
  sameTypes := by
    intro publisher object hcompatible
    rw [hsame.rosType, hsame.publisher_rosType]
    exact hm.sameTypes publisher object
      ((hsame.compatible publisher object).symm.trans hcompatible)
  address_pos := hm.address_pos.trans_le haddress

theorem tables_expirePublisher (hm : Tables qosCompatible m) (publisher : ℕ) :
    Tables qosCompatible (expirePublisher publisher m) := by
  refine hm.of_sameObjects ⟨?_, ?_, fun _ => id, fun _ => rfl, fun _ => rfl, ?_⟩ rfl rfl rfl rfl
    le_rfl
  · intro other halive
    by_cases hsame : other = publisher
    · subst hsame
      simp [expirePublisher] at halive
    · simpa [expirePublisher, hsame] using halive
  · intro other
    by_cases hsame : other = publisher
    · subst hsame
      simp [expirePublisher]
    · simp [expirePublisher, hsame]
  · intro other object
    by_cases hsame : other = publisher
    · subst hsame
      simp [expirePublisher, canCommunicate]
    · simp [expirePublisher, hsame]

theorem tables_expireSubscription (hm : Tables qosCompatible m) (subscription : ℕ) :
    Tables qosCompatible (expireSubscription subscription m) := by
  have hfield : ∀ {Field : Type _} (field : SubscriptionBase Value Callback Qos → Field),
      (∀ sub : SubscriptionBase Value Callback Qos,
        field { sub with alive := false } = field sub) → ∀ object,
      field ((expireSubscription subscription m).subscriptionObjects object) =
        field (m.subscriptionObjects object) := by
    intro Field field hkept object
    by_cases hsame : object = subscription
    · subst hsame
      simp [expireSubscription, hkept]
    · simp [expireSubscription, hsame]
  refine hm.of_sameObjects ⟨fun _ => id, fun _ => rfl, ?_, ?_, ?_, ?_⟩ rfl rfl rfl rfl le_rfl
  · intro object halive
    by_cases hsame : object = subscription
    · subst hsame
      simp [expireSubscription] at halive
    · simpa [expireSubscription, hsame] using halive
  · exact hfield SubscriptionBase.rosType fun _ => rfl
  · exact hfield useTakeSharedMethod fun _ => rfl
  · exact fun publisher => hfield (canCommunicate qosCompatible (m.publisherObjects publisher))
      fun _ => rfl

/-- A publication erases what it meets and stores messages. -/
theorem publishBy_progressed (adapters : TypeAdapters Value) (hm : Tables qosCompatible m) (variant : Variant)
    (published : MessageType) {rosType pubId : ℕ} {message : MessageObject Value}
    (hcaller : ∀ publisher, m.publishers.lookup pubId = some publisher →
      (m.publisherObjects publisher).alive = true ∧
        (m.publisherObjects publisher).rosType = rosType)
    (hheld : message.address < m.nextAddress) {subs : SplittedSubscriptions}
    (hlisted : m.pubToSubs pubId = some subs) :
    ∃ publisher after deliveries, LivePublisher m pubId publisher ∧
      (publishBy variant adapters published rosType pubId message m).1 = after ∧
      m.nextAddress ≤ after.nextAddress ∧
      after = progressed m (expiredIds m subs.ids) deliveries after.nextAddress := by
  have hmem := (hm.entry pubId).mp ⟨subs, hlisted⟩
  obtain ⟨publisher, hregistered⟩ := Option.isSome_iff_exists.mp (AList.lookup_isSome.mpr hmem)
  obtain ⟨halive, rfl⟩ := hcaller publisher hregistered
  have hexact := hm.exact pubId publisher subs ⟨hregistered, halive⟩ hlisted
  obtain ⟨after, shared, owned, hafter, hpublication⟩ := publishBy_publication adapters variant
    published hlisted (hexact.ready hm.sameTypes) hheld
  exact ⟨publisher, after, shared ++ owned, ⟨hregistered, halive⟩, by rw [hafter],
    hpublication.next_le, hpublication.manager⟩

theorem publishBy_unregistered (variant : Variant) (published : MessageType)
    {rosType pubId : ℕ} {message : MessageObject Value} (hnone : m.pubToSubs pubId = none) :
    (publishBy variant adapters published rosType pubId message m).1 = m := by
  cases variant <;>
    simp [publishBy, doIntraProcessPublish, doIntraProcessPublishAndReturnShared, hnone]

theorem tables_publish (hm : Tables qosCompatible m) (variant : Variant)
    (published : MessageType) {rosType pubId : ℕ} {message : MessageObject Value}
    (hcaller : ∀ publisher, m.publishers.lookup pubId = some publisher →
      (m.publisherObjects publisher).alive = true ∧
        (m.publisherObjects publisher).rosType = rosType)
    (hheld : message.address < m.nextAddress)
    (hmeets : MeetsNoExpired m (.publish variant published pubId message)) :
    Tables qosCompatible (publishBy variant adapters published rosType pubId message m).1 := by
  cases hlisted : m.pubToSubs pubId with
  | none =>
      rw [publishBy_unregistered variant published hlisted]
      exact hm
  | some subs =>
      obtain ⟨publisher, after, deliveries, hlive, rfl, hnext, hafter⟩ :=
        publishBy_progressed adapters hm variant published hcaller hheld hlisted
      have hnone : expiredIds m subs.ids = [] := by
        refine List.filter_eq_nil_iff.mpr fun subId hmem => ?_
        obtain ⟨_, object, hregistered, -⟩ := (hm.exact _ _ _ hlive hlisted).fits hmem
        simp [isLive_of_registered hregistered, hmeets subs hlisted subId hmem object hregistered]
      rw [hnone] at hafter
      rw [hafter]
      refine hm.of_sameObjects ⟨fun _ => id, fun _ => rfl, fun object halive => ?_, ?_, ?_, ?_⟩
        rfl rfl rfl rfl hnext
      · rwa [← storeAll_field deliveries m.subscriptionObjects SubscriptionBase.alive store_alive]
      · exact storeAll_field deliveries _ SubscriptionBase.rosType store_rosType
      · exact storeAll_field deliveries _ useTakeSharedMethod store_useTakeSharedMethod
      · exact fun publisher => storeAll_field deliveries _
          (canCommunicate qosCompatible (m.publisherObjects publisher)) fun _ _ => rfl

/-- The lists without an id. -/
def SplittedSubscriptions.without (subs : SplittedSubscriptions) (subId : ℕ) :
    SplittedSubscriptions :=
  ⟨subs.takeShared.filter (· ≠ subId), subs.takeOwnership.filter (· ≠ subId)⟩

theorem ids_without (subs : SplittedSubscriptions) (subId : ℕ) :
    (SplittedSubscriptions.without subs subId).ids = subs.ids.filter (· ≠ subId) :=
  (List.filter_append ..).symm

/-- An id that is erased from the map and from the lists. -/
theorem Exact.without {publisher : ℕ} {subs : SplittedSubscriptions}
    (hexact : Exact qosCompatible m publisher subs) (subId : ℕ) :
    Exact qosCompatible (eraseSubscription subId m) publisher
      (SplittedSubscriptions.without subs subId) := by
  have hfits : ∀ takeShared other, other ≠ subId →
      Fits qosCompatible m publisher takeShared other →
      Fits qosCompatible (eraseSubscription subId m) publisher takeShared other := by
    rintro takeShared other hother ⟨object, hregistered, hfit⟩
    exact ⟨object, (AList.lookup_erase_ne hother).trans hregistered, hfit⟩
  refine ⟨?_, fun other hmem => ?_, fun other hmem => ?_, fun other object hmatch => ?_⟩
  · rw [ids_without]
    exact hexact.nodup.filter _
  · obtain ⟨hmem, hother⟩ := List.mem_filter.mp hmem
    exact hfits true other (of_decide_eq_true hother) (hexact.shared other hmem)
  · obtain ⟨hmem, hother⟩ := List.mem_filter.mp hmem
    exact hfits false other (of_decide_eq_true hother) (hexact.owned other hmem)
  · have hother : other ≠ subId := by
      rintro rfl
      have hregistered := hmatch.registered
      rw [eraseSubscription, AList.lookup_erase] at hregistered
      cases hregistered
    rw [ids_without]
    refine List.mem_filter.mpr ⟨hexact.complete other object ⟨?_, hmatch.alive,
      hmatch.compatible⟩, decide_eq_true hother⟩
    exact (AList.lookup_erase_ne hother).symm.trans hmatch.registered

theorem without_of_notMem {subs : SplittedSubscriptions} {subId : ℕ}
    (hunlisted : subId ∉ subs.ids) : SplittedSubscriptions.without subs subId = subs := by
  rw [SplittedSubscriptions.ids, List.mem_append, not_or] at hunlisted
  have hkeep : ∀ ids : List ℕ, subId ∉ ids → ids.filter (· ≠ subId) = ids :=
    fun ids hfresh => List.filter_eq_self.mpr fun other hmem =>
      decide_eq_true fun hsame => hfresh (hsame ▸ hmem)
  rw [SplittedSubscriptions.without, hkeep _ hunlisted.1, hkeep _ hunlisted.2]

theorem eraseSubscription_lt (hm : Tables qosCompatible m) (subId : ℕ) :
    ∀ other ∈ (eraseSubscription subId m).subscriptions, other < m.nextUniqueId :=
  fun other hmem => hm.subscription_lt other (AList.mem_erase.mp hmem).2

theorem tables_getSubscription (hm : Tables qosCompatible m) {subId : ℕ}
    (hmeets : MeetsNoExpired m (.getSubscription subId)) :
    Tables qosCompatible (getSubscriptionIntraProcess subId m).2 := by
  rw [getSubscriptionIntraProcess]
  split
  · exact hm
  · rename_i object hregistered
    split
    · exact hm
    · rename_i hexpired
      refine ⟨hm.publisher_lt, eraseSubscription_lt hm subId, hm.listed_lt, hm.entry, ?_,
        hm.sameTypes, hm.address_pos⟩
      intro pubId publisher subs hlive hlisted
      have hunlisted := hmeets object hregistered (Bool.eq_false_of_not_eq_true hexpired) pubId
        publisher subs hlive hlisted
      have hexact := (hm.exact pubId publisher subs hlive hlisted).without subId
      rwa [without_of_notMem hunlisted] at hexact

theorem tables_removeSubscription (hm : Tables qosCompatible m) (subId : ℕ) :
    Tables qosCompatible (removeSubscription subId m) where
  publisher_lt := hm.publisher_lt
  subscription_lt := eraseSubscription_lt hm subId
  listed_lt := by
    intro pubId without hlisted other hmem
    obtain ⟨subs, hbefore, rfl⟩ := Option.map_eq_some_iff.mp hlisted
    change other ∈ (SplittedSubscriptions.without subs subId).ids at hmem
    rw [ids_without] at hmem
    exact hm.listed_lt pubId subs hbefore other (List.mem_filter.mp hmem).1
  entry := by
    intro pubId
    refine Iff.trans ?_ (hm.entry pubId)
    constructor
    · rintro ⟨_, hlisted⟩
      obtain ⟨subs, hbefore, -⟩ := Option.map_eq_some_iff.mp hlisted
      exact ⟨subs, hbefore⟩
    · rintro ⟨subs, hbefore⟩
      exact ⟨_, Option.map_eq_some_iff.mpr ⟨subs, hbefore, rfl⟩⟩
  exact := by
    intro pubId publisher without hlive hlisted
    obtain ⟨subs, hbefore, rfl⟩ := Option.map_eq_some_iff.mp hlisted
    have hexact := (hm.exact pubId publisher subs hlive hbefore).without subId
    exact hexact.congr rfl rfl rfl
  sameTypes := hm.sameTypes
  address_pos := hm.address_pos

theorem tables_removePublisher (hm : Tables qosCompatible m) (pubId : ℕ) :
    Tables qosCompatible (removePublisher pubId m) where
  publisher_lt := fun other hmem => hm.publisher_lt other (AList.mem_erase.mp hmem).2
  subscription_lt := hm.subscription_lt
  listed_lt := by
    intro other subs hlisted
    by_cases hsame : other = pubId
    · subst hsame
      simp [removePublisher] at hlisted
    · exact hm.listed_lt other subs (by simpa [removePublisher, hsame] using hlisted)
  entry := by
    intro other
    by_cases hsame : other = pubId
    · subst hsame
      simp [removePublisher]
    · simpa [removePublisher, hsame] using hm.entry other
  exact := by
    rintro other publisher subs ⟨hregistered, halive⟩ hlisted
    have hother : other ≠ pubId := by
      rintro rfl
      rw [removePublisher, AList.lookup_erase] at hregistered
      cases hregistered
    have hbefore : m.pubToSubs other = some subs := by
      simpa [removePublisher, hother] using hlisted
    have hexact := hm.exact other publisher subs
      ⟨(AList.lookup_erase_ne hother).symm.trans hregistered, halive⟩ hbefore
    exact hexact.congr rfl rfl rfl
  sameTypes := hm.sameTypes
  address_pos := hm.address_pos

variable (qosCompatible m) in
/-- The ids among the entries that `add_publisher` puts into one of the lists. -/
def matching (publisher : ℕ) (takeShared : Bool) (entries : List (Σ _ : ℕ, ℕ)) : List ℕ :=
  (entries.filter fun entry =>
    (m.subscriptionObjects entry.2).alive &&
      canCommunicate qosCompatible (m.publisherObjects publisher)
        (m.subscriptionObjects entry.2) &&
      (useTakeSharedMethod (m.subscriptionObjects entry.2) == takeShared)).map Sigma.fst

theorem mem_matching {publisher subId : ℕ} {takeShared : Bool}
    {entries : List (Σ _ : ℕ, ℕ)} :
    subId ∈ matching qosCompatible m publisher takeShared entries ↔
      ∃ object, ⟨subId, object⟩ ∈ entries ∧ (m.subscriptionObjects object).alive = true ∧
        canCommunicate qosCompatible (m.publisherObjects publisher)
          (m.subscriptionObjects object) = true ∧
        useTakeSharedMethod (m.subscriptionObjects object) = takeShared := by
  simp only [matching, List.mem_map, List.mem_filter, Bool.and_eq_true, beq_iff_eq]
  constructor
  · rintro ⟨⟨_, object⟩, ⟨hmem, ⟨halive, hcompatible⟩, huse⟩, rfl⟩
    exact ⟨object, hmem, halive, hcompatible, huse⟩
  · rintro ⟨object, hmem, halive, hcompatible, huse⟩
    exact ⟨⟨subId, object⟩, ⟨hmem, ⟨halive, hcompatible⟩, huse⟩, rfl⟩

/-- The loop of `add_publisher` extends the lists of the publisher. -/
theorem foldl_matchSubscription (publisher pubId : ℕ) (entries : List (Σ _ : ℕ, ℕ))
    (m : Manager Value Callback Qos) (subs : SplittedSubscriptions) :
    entries.foldl (matchSubscription qosCompatible publisher pubId)
        { m with pubToSubs := Function.update m.pubToSubs pubId (some subs) } =
      { m with
        pubToSubs := Function.update m.pubToSubs pubId
          (some ⟨subs.takeShared ++ matching qosCompatible m publisher true entries,
            subs.takeOwnership ++ matching qosCompatible m publisher false entries⟩) } := by
  induction entries generalizing subs with
  | nil => simp [matching]
  | cons entry entries ih =>
      rw [List.foldl_cons, matchSubscription]
      split
      · rename_i hmatch
        cases huse : useTakeSharedMethod (m.subscriptionObjects entry.2) with
        | true =>
            simp only [insertSubIdForPub, Function.update_self, Option.getD_some,
              Function.update_idem, if_true]
            rw [ih]
            simp [matching, hmatch, huse]
        | false =>
            simp only [insertSubIdForPub, Function.update_self, Option.getD_some,
              Function.update_idem]
            rw [if_neg (by simp), ih]
            simp [matching, hmatch, huse]
      · rename_i hmatch
        rw [ih]
        simp [matching, hmatch]

theorem getNextUniqueId_eq {next id : ℕ} (hid : getNextUniqueId next = .ok id) : id = next := by
  rw [getNextUniqueId] at hid
  split at hid <;> cases hid
  rfl

theorem addPublisher_eq {entries : List (Σ _ : ℕ, ℕ)} {publisher pubId : ℕ}
    (hadd : addPublisher qosCompatible entries publisher m = .ok (pubId, m')) :
    pubId = m.nextUniqueId ∧ m' =
      { m with
        nextUniqueId := m.nextUniqueId + 1
        publishers := m.publishers.insert pubId publisher
        pubToSubs := Function.update m.pubToSubs pubId
          (some ⟨matching qosCompatible m publisher true entries,
            matching qosCompatible m publisher false entries⟩) } := by
  rw [addPublisher] at hadd
  cases hid : getNextUniqueId m.nextUniqueId with
  | error text =>
      rw [hid] at hadd
      cases hadd
  | ok id =>
      rw [hid] at hadd
      obtain ⟨rfl, rfl⟩ := Prod.mk.inj (Except.ok.inj hadd)
      refine ⟨getNextUniqueId_eq hid, ?_⟩
      exact foldl_matchSubscription publisher id entries
        { m with
          nextUniqueId := m.nextUniqueId + 1
          publishers := m.publishers.insert id publisher } ⟨[], []⟩

/-- The lists of a new publisher. -/
theorem exact_matching {entries : List (Σ _ : ℕ, ℕ)}
    (horder : entries.Perm m.subscriptions.entries) (publisher : ℕ) :
    Exact qosCompatible m publisher
      ⟨matching qosCompatible m publisher true entries,
        matching qosCompatible m publisher false entries⟩ := by
  have hlookup : ∀ subId object, (⟨subId, object⟩ : Σ _ : ℕ, ℕ) ∈ entries ↔
      m.subscriptions.lookup subId = some object := by
    intro subId object
    rw [horder.mem_iff, ← Option.mem_def, AList.mem_lookup_iff]
  have hkeys : (entries.map Sigma.fst).Nodup :=
    (horder.map Sigma.fst).nodup_iff.mpr m.subscriptions.keys_nodup
  have hnodup : ∀ takeShared, (matching qosCompatible m publisher takeShared entries).Nodup :=
    fun takeShared => hkeys.sublist (List.filter_sublist.map Sigma.fst)
  have hfits : ∀ takeShared,
      ∀ subId ∈ matching qosCompatible m publisher takeShared entries,
        Fits qosCompatible m publisher takeShared subId := by
    intro takeShared subId hmem
    obtain ⟨object, hentry, -, hcompatible, huse⟩ := mem_matching.mp hmem
    exact ⟨object, (hlookup subId object).mp hentry, hcompatible, huse⟩
  refine ⟨List.nodup_append.mpr ⟨hnodup true, hnodup false, ?_⟩, hfits true, hfits false, ?_⟩
  · rintro subId hshared _ howned rfl
    obtain ⟨object, hregistered, -, huse⟩ := hfits true subId hshared
    obtain ⟨other, hother, -, hownedUse⟩ := hfits false subId howned
    rw [hregistered] at hother
    obtain rfl := Option.some.inj hother
    rw [huse] at hownedUse
    cases hownedUse
  · intro subId object hmatch
    have hentry := (hlookup subId object).mpr hmatch.registered
    cases huse : useTakeSharedMethod (m.subscriptionObjects object) with
    | true =>
        exact List.mem_append_left _ (mem_matching.mpr
          ⟨object, hentry, hmatch.alive, hmatch.compatible, huse⟩)
    | false =>
        exact List.mem_append_right _ (mem_matching.mpr
          ⟨object, hentry, hmatch.alive, hmatch.compatible, huse⟩)

theorem tables_addPublisher (hm : Tables qosCompatible m) {entries : List (Σ _ : ℕ, ℕ)}
    {publisher pubId : ℕ} (horder : entries.Perm m.subscriptions.entries)
    (hadd : addPublisher qosCompatible entries publisher m = .ok (pubId, m')) :
    Tables qosCompatible m' := by
  obtain ⟨rfl, rfl⟩ := addPublisher_eq hadd
  have hexact : Exact qosCompatible m publisher _ := exact_matching horder publisher
  refine ⟨?_, ?_, ?_, ?_, ?_, hm.sameTypes, hm.address_pos⟩
  · intro pubId hmem
    rcases (AList.mem_insert _).mp hmem with rfl | hold
    · exact Nat.lt_succ_self _
    · exact (hm.publisher_lt pubId hold).trans (Nat.lt_succ_self _)
  · exact fun subId hmem => (hm.subscription_lt subId hmem).trans (Nat.lt_succ_self _)
  · intro pubId subs hlisted subId hmem
    apply Nat.lt_succ_of_lt
    by_cases hsame : pubId = m.nextUniqueId
    · subst hsame
      simp only [Function.update_self, Option.some.injEq] at hlisted
      subst hlisted
      obtain ⟨_, object, hregistered, -⟩ := hexact.fits hmem
      apply hm.subscription_lt
      rw [← AList.lookup_isSome, hregistered]
      rfl
    · exact hm.listed_lt pubId subs (by simpa [hsame] using hlisted) subId hmem
  · intro pubId
    by_cases hsame : pubId = m.nextUniqueId
    · subst hsame
      simp
    · simpa [hsame] using hm.entry pubId
  · rintro pubId other subs ⟨hregistered, halive⟩ hlisted
    by_cases hsame : pubId = m.nextUniqueId
    · subst hsame
      simp only [AList.lookup_insert, Option.some.injEq] at hregistered
      simp only [Function.update_self, Option.some.injEq] at hlisted
      subst hregistered hlisted
      exact hexact.congr rfl rfl rfl
    · rw [AList.lookup_insert_ne hsame] at hregistered
      have hold := hm.exact pubId other subs ⟨hregistered, halive⟩
        (by simpa [hsame] using hlisted)
      exact hold.congr rfl rfl rfl

/-- The lists with an id at the end of one of them. -/
def SplittedSubscriptions.extended (subId : ℕ) (takeShared : Bool)
    (subs : SplittedSubscriptions) : SplittedSubscriptions :=
  if takeShared then { subs with takeShared := subs.takeShared ++ [subId] }
  else { subs with takeOwnership := subs.takeOwnership ++ [subId] }

variable (qosCompatible m) in
/-- A live publisher that the subscription can be reached from. -/
def Reaches (subscription publisher : ℕ) : Prop :=
  (m.publisherObjects publisher).alive = true ∧
    canCommunicate qosCompatible (m.publisherObjects publisher)
      (m.subscriptionObjects subscription) = true

variable (qosCompatible) in
/-- One turn of the loop of `add_subscription`, for a publisher that has lists. -/
theorem matchPublisher_eq (subscription subId : ℕ) {m : Manager Value Callback Qos}
    {entry : Σ _ : ℕ, ℕ} (hlisted : ∃ subs, m.pubToSubs entry.1 = some subs) :
    ∃ pubToSubs, matchPublisher qosCompatible subscription subId m entry =
        { m with pubToSubs := pubToSubs } ∧
      (Reaches qosCompatible m subscription entry.2 →
        pubToSubs entry.1 = (m.pubToSubs entry.1).map
          (SplittedSubscriptions.extended subId
            (useTakeSharedMethod (m.subscriptionObjects subscription)))) ∧
      (¬ Reaches qosCompatible m subscription entry.2 →
        pubToSubs entry.1 = m.pubToSubs entry.1) ∧
      ∀ pubId, pubId ≠ entry.1 → pubToSubs pubId = m.pubToSubs pubId := by
  obtain ⟨subs, hsubs⟩ := hlisted
  rw [matchPublisher]
  split
  · rename_i hboth
    have hreaches := Bool.and_eq_true_iff.mp hboth
    refine ⟨_, rfl, fun _ => ?_, fun hnot => ?_, fun pubId hother => ?_⟩
    · simp [hsubs, SplittedSubscriptions.extended]
    · exact absurd hreaches hnot
    · simp [hother]
  · rename_i hnot
    exact ⟨_, rfl, fun hreaches => absurd (Bool.and_eq_true_iff.mpr hreaches) hnot,
      fun _ => rfl, fun _ _ => rfl⟩

variable (qosCompatible) in
/-- The loop of `add_subscription` extends the lists of the publishers that reach the
subscription, and those of no other. -/
theorem foldl_matchPublisher (subscription subId : ℕ) {entries : List (Σ _ : ℕ, ℕ)}
    (hkeys : (entries.map Sigma.fst).Nodup) {m : Manager Value Callback Qos}
    (hlisted : ∀ entry ∈ entries, ∃ subs, m.pubToSubs entry.1 = some subs) :
    ∃ pubToSubs, entries.foldl (matchPublisher qosCompatible subscription subId) m =
        { m with pubToSubs := pubToSubs } ∧
      (∀ entry ∈ entries, Reaches qosCompatible m subscription entry.2 →
        pubToSubs entry.1 = (m.pubToSubs entry.1).map
          (SplittedSubscriptions.extended subId
            (useTakeSharedMethod (m.subscriptionObjects subscription)))) ∧
      ∀ pubId, (∀ entry ∈ entries, entry.1 = pubId →
          ¬ Reaches qosCompatible m subscription entry.2) →
        pubToSubs pubId = m.pubToSubs pubId := by
  induction entries generalizing m with
  | nil => exact ⟨m.pubToSubs, rfl, by simp, by simp⟩
  | cons entry entries ih =>
      obtain ⟨hfresh, hrest⟩ := List.nodup_cons.mp hkeys
      have hother : ∀ later ∈ entries, later.1 ≠ entry.1 := fun later hmem hsame =>
        hfresh (hsame ▸ List.mem_map_of_mem hmem)
      obtain ⟨first, hfirst, hreached, hunreached, hkept⟩ := matchPublisher_eq
        qosCompatible subscription subId (hlisted entry (List.mem_cons_self ..))
      have hlater : ∀ later ∈ entries,
          ∃ subs, { m with pubToSubs := first }.pubToSubs later.1 = some subs := by
        intro later hmem
        obtain ⟨subs, hsubs⟩ := hlisted later (List.mem_cons_of_mem _ hmem)
        exact ⟨subs, (hkept later.1 (hother later hmem)).trans hsubs⟩
      obtain ⟨pubToSubs, hresult, hextended, hsame⟩ := ih hrest hlater
      rw [List.foldl_cons, hfirst]
      have hhead : pubToSubs entry.1 = first entry.1 :=
        hsame entry.1 fun later hmem heq => absurd heq (hother later hmem)
      refine ⟨pubToSubs, hresult, ?_, fun pubId hnone => ?_⟩
      · rintro later hmem hreaches
        rcases List.mem_cons.mp hmem with rfl | hlater
        · exact hhead.trans (hreached hreaches)
        · refine (hextended later hlater hreaches).trans (congrArg _ ?_)
          exact hkept later.1 (hother later hlater)
      · by_cases hpubId : pubId = entry.1
        · subst hpubId
          exact hhead.trans (hunreached (hnone entry (List.mem_cons_self ..) rfl))
        · exact (hsame pubId fun later hmem => hnone later (List.mem_cons_of_mem _ hmem)).trans
            (hkept pubId hpubId)

theorem addSubscription_eq (hm : Tables qosCompatible m) {entries : List (Σ _ : ℕ, ℕ)}
    {subscription subId : ℕ} (horder : entries.Perm m.publishers.entries)
    (hadd : addSubscription qosCompatible entries subscription m = .ok (subId, m')) :
    subId = m.nextUniqueId ∧ ∃ pubToSubs, m' =
      { m with
        nextUniqueId := m.nextUniqueId + 1
        subscriptions := m.subscriptions.insert subId subscription
        pubToSubs := pubToSubs } ∧
      ∀ pubId, pubToSubs pubId = m.pubToSubs pubId ∧
          (∀ publisher, LivePublisher m pubId publisher →
            ¬ Reaches qosCompatible m subscription publisher) ∨
        pubToSubs pubId = (m.pubToSubs pubId).map
            (SplittedSubscriptions.extended subId
              (useTakeSharedMethod (m.subscriptionObjects subscription))) ∧
          ∀ publisher, LivePublisher m pubId publisher →
            Reaches qosCompatible m subscription publisher := by
  have hlookup : ∀ pubId publisher, (⟨pubId, publisher⟩ : Σ _ : ℕ, ℕ) ∈ entries ↔
      m.publishers.lookup pubId = some publisher := by
    intro pubId publisher
    rw [horder.mem_iff, ← Option.mem_def, AList.mem_lookup_iff]
  have hkeys : (entries.map Sigma.fst).Nodup :=
    (horder.map Sigma.fst).nodup_iff.mpr m.publishers.keys_nodup
  rw [addSubscription] at hadd
  cases hid : getNextUniqueId m.nextUniqueId with
  | error text =>
      rw [hid] at hadd
      cases hadd
  | ok id =>
      rw [hid] at hadd
      obtain ⟨rfl, rfl⟩ := Prod.mk.inj (Except.ok.inj hadd)
      refine ⟨getNextUniqueId_eq hid, ?_⟩
      have hlisted : ∀ entry ∈ entries, ∃ subs, m.pubToSubs entry.1 = some subs := by
        rintro ⟨pubId, publisher⟩ hmem
        refine (hm.entry pubId).mpr (AList.lookup_isSome.mp ?_)
        rw [(hlookup pubId publisher).mp hmem]
        rfl
      obtain ⟨pubToSubs, hresult, hreached, hkept⟩ := foldl_matchPublisher
        qosCompatible subscription id hkeys (m :=
          { m with
            nextUniqueId := m.nextUniqueId + 1
            subscriptions := m.subscriptions.insert id subscription }) hlisted
      refine ⟨pubToSubs, hresult, fun pubId => ?_⟩
      by_cases hsome : ∃ publisher, m.publishers.lookup pubId = some publisher ∧
          Reaches qosCompatible m subscription publisher
      · obtain ⟨publisher, hregistered, hreaches⟩ := hsome
        refine .inr ⟨hreached _ ((hlookup pubId publisher).mpr hregistered) hreaches,
          fun other hlive => ?_⟩
        rw [hlive.1] at hregistered
        exact Option.some.inj hregistered ▸ hreaches
      · refine .inl ⟨hkept pubId ?_, fun publisher hlive hreaches =>
          hsome ⟨publisher, hlive.1, hreaches⟩⟩
        rintro ⟨_, publisher⟩ hmem rfl hreaches
        exact hsome ⟨publisher, (hlookup _ publisher).mp hmem, hreaches⟩

section Insert

variable {subId subscription publisher : ℕ} {subs : SplittedSubscriptions}

variable (m subId subscription) in
/-- The manager with one more subscription in its map. -/
def withSubscription : Manager Value Callback Qos :=
  { m with subscriptions := m.subscriptions.insert subId subscription }

theorem Fits.inserted {takeShared : Bool} {other : ℕ}
    (hfits : Fits qosCompatible m publisher takeShared other) (hother : other ≠ subId) :
    Fits qosCompatible (withSubscription m subId subscription) publisher takeShared other := by
  obtain ⟨object, hregistered, hrest⟩ := hfits
  exact ⟨object, (AList.lookup_insert_ne hother).trans hregistered, hrest⟩

theorem Exact.inserted (hexact : Exact qosCompatible m publisher subs)
    (hfresh : subId ∉ subs.ids) (halive : (m.publisherObjects publisher).alive = true)
    (hunreached : ¬ Reaches qosCompatible m subscription publisher) :
    Exact qosCompatible (withSubscription m subId subscription) publisher subs where
  nodup := hexact.nodup
  shared := fun other hmem => (hexact.shared other hmem).inserted
    fun hsame => hfresh (hsame ▸ List.mem_append_left _ hmem)
  owned := fun other hmem => (hexact.owned other hmem).inserted
    fun hsame => hfresh (hsame ▸ List.mem_append_right _ hmem)
  complete := by
    rintro other object ⟨hregistered, hlive, hcompatible⟩
    by_cases hsame : other = subId
    · subst hsame
      obtain rfl := Option.some.inj ((AList.lookup_insert _).symm.trans hregistered)
      exact absurd ⟨halive, hcompatible⟩ hunreached
    · exact hexact.complete other object
        ⟨(AList.lookup_insert_ne hsame).symm.trans hregistered, hlive, hcompatible⟩

theorem ids_extended_perm (subId : ℕ) (takeShared : Bool) (subs : SplittedSubscriptions) :
    (SplittedSubscriptions.extended subId takeShared subs).ids.Perm (subId :: subs.ids) := by
  cases takeShared with
  | true =>
      simp only [SplittedSubscriptions.extended, SplittedSubscriptions.ids, if_true,
        List.append_assoc]
      exact List.perm_middle
  | false =>
      simp only [SplittedSubscriptions.extended, SplittedSubscriptions.ids,
        Bool.false_eq_true, if_false, ← List.append_assoc]
      exact List.perm_append_singleton subId _

theorem Exact.extended (hexact : Exact qosCompatible m publisher subs)
    (hfresh : subId ∉ subs.ids) (hreached : Reaches qosCompatible m subscription publisher) :
    Exact qosCompatible (withSubscription m subId subscription) publisher
      (SplittedSubscriptions.extended subId
        (useTakeSharedMethod (m.subscriptionObjects subscription)) subs) := by
  have hnew : Fits qosCompatible (withSubscription m subId subscription) publisher
      (useTakeSharedMethod (m.subscriptionObjects subscription)) subId :=
    ⟨subscription, AList.lookup_insert _, hreached.2, rfl⟩
  have hshared : ∀ other ∈ subs.takeShared,
      Fits qosCompatible (withSubscription m subId subscription) publisher true other :=
    fun other hmem => (hexact.shared other hmem).inserted
      fun hsame => hfresh (hsame ▸ List.mem_append_left _ hmem)
  have howned : ∀ other ∈ subs.takeOwnership,
      Fits qosCompatible (withSubscription m subId subscription) publisher false other :=
    fun other hmem => (hexact.owned other hmem).inserted
      fun hsame => hfresh (hsame ▸ List.mem_append_right _ hmem)
  have hperm := ids_extended_perm subId
    (useTakeSharedMethod (m.subscriptionObjects subscription)) subs
  refine ⟨hperm.nodup_iff.mpr (List.nodup_cons.mpr ⟨hfresh, hexact.nodup⟩), ?_, ?_, ?_⟩
  · cases huse : useTakeSharedMethod (m.subscriptionObjects subscription) with
    | true =>
        intro other hmem
        rcases List.mem_append.mp hmem with hold | hnewest
        · exact hshared other hold
        · rw [List.mem_singleton.mp hnewest, ← huse]
          exact hnew
    | false => exact hshared
  · cases huse : useTakeSharedMethod (m.subscriptionObjects subscription) with
    | true => exact howned
    | false =>
        intro other hmem
        rcases List.mem_append.mp hmem with hold | hnewest
        · exact howned other hold
        · rw [List.mem_singleton.mp hnewest, ← huse]
          exact hnew
  · rintro other object ⟨hregistered, hlive, hcompatible⟩
    rw [hperm.mem_iff, List.mem_cons]
    by_cases hsame : other = subId
    · exact .inl hsame
    · exact .inr (hexact.complete other object
        ⟨(AList.lookup_insert_ne hsame).symm.trans hregistered, hlive, hcompatible⟩)

end Insert

theorem tables_addSubscription (hm : Tables qosCompatible m)
    {entries : List (Σ _ : ℕ, ℕ)} {subscription subId : ℕ}
    (horder : entries.Perm m.publishers.entries)
    (hadd : addSubscription qosCompatible entries subscription m = .ok (subId, m')) :
    Tables qosCompatible m' := by
  obtain ⟨rfl, pubToSubs, rfl, hlists⟩ := addSubscription_eq hm horder hadd
  refine ⟨fun pubId hmem => (hm.publisher_lt pubId hmem).trans (Nat.lt_succ_self _), ?_, ?_, ?_,
    ?_, hm.sameTypes, hm.address_pos⟩
  · intro subId hmem
    rcases (AList.mem_insert _).mp hmem with rfl | hold
    · exact Nat.lt_succ_self _
    · exact (hm.subscription_lt subId hold).trans (Nat.lt_succ_self _)
  · intro pubId subs hlisted subId hmem
    rcases hlists pubId with ⟨hkept, -⟩ | ⟨hextended, -⟩
    · exact (hm.listed_lt pubId subs (hkept.symm.trans hlisted) subId hmem).trans
        (Nat.lt_succ_self _)
    · obtain ⟨before, hbefore, rfl⟩ :=
        Option.map_eq_some_iff.mp (hextended.symm.trans hlisted)
      rcases List.mem_cons.mp ((ids_extended_perm _ _ _).mem_iff.mp hmem) with rfl | hold
      · exact Nat.lt_succ_self _
      · exact (hm.listed_lt pubId before hbefore subId hold).trans (Nat.lt_succ_self _)
  · intro pubId
    refine Iff.trans ?_ (hm.entry pubId)
    rw [← Option.isSome_iff_exists, ← Option.isSome_iff_exists]
    rcases hlists pubId with ⟨hkept, -⟩ | ⟨hextended, -⟩
    · simp only [hkept]
    · simp only [hextended, Option.isSome_map]
  · intro pubId publisher subs hlive hlisted
    have hfresh : ∀ before, m.pubToSubs pubId = some before → m.nextUniqueId ∉ before.ids :=
      fun before hbefore hmem => absurd (hm.listed_lt pubId before hbefore _ hmem)
        (Nat.lt_irrefl _)
    rcases hlists pubId with ⟨hkept, hunreached⟩ | ⟨hextended, hreached⟩
    · have hbefore := hkept.symm.trans hlisted
      have hexact := (hm.exact pubId publisher subs hlive hbefore).inserted (hfresh subs hbefore)
        hlive.2 (hunreached publisher hlive)
      exact hexact.congr rfl rfl rfl
    · obtain ⟨before, hbefore, rfl⟩ :=
        Option.map_eq_some_iff.mp (hextended.symm.trans hlisted)
      have hexact := (hm.exact pubId publisher before hlive hbefore).extended
        (hfresh before hbefore) (hreached publisher hlive)
      exact hexact.congr rfl rfl rfl

/-! ## Runs from an empty manager -/

theorem tables_step {label : ManagerLabel Value} (hm : Tables qosCompatible m)
    (hmeets : MeetsNoExpired m label)
    (hstep : ManagerStep qosCompatible adapters m label m') : Tables qosCompatible m' := by
  cases hstep with
  | addPublisher entries publisher pubId _ _ horder hadd => exact tables_addPublisher hm horder hadd
  | addPublisherThrows => exact hm
  | addSubscription entries subscription subId _ _ horder hadd =>
      exact tables_addSubscription hm horder hadd
  | addSubscriptionThrows => exact hm
  | removePublisher pubId => exact tables_removePublisher hm pubId
  | removeSubscription subId => exact tables_removeSubscription hm subId
  | expirePublisher publisher => exact tables_expirePublisher hm publisher
  | expireSubscription subscription => exact tables_expireSubscription hm subscription
  | getSubscription subId => exact tables_getSubscription hm hmeets
  | publish variant published rosType pubId message hcaller hheld =>
      exact tables_publish hm variant published hcaller hheld hmeets

/-- A lookup that erases an id leaves it in the lists. -/
theorem meets_getSubscription [Inhabited Value] (hm : Tables qosCompatible m) {subId : ℕ}
    (hrouted : Routed qosCompatible adapters (getSubscriptionIntraProcess subId m).2) :
    MeetsNoExpired m (.getSubscription subId : ManagerLabel Value) := by
  intro object hregistered hexpired pubId publisher subs hlive hlisted hmem
  have hafter : (getSubscriptionIntraProcess subId m).2 = eraseSubscription subId m := by
    simp [getSubscriptionIntraProcess, hregistered, hexpired]
  rw [hafter] at hrouted
  exact not_routed_of_missing (m := eraseSubscription subId m) hlive hlisted hmem
    (AList.lookup_erase subId _) hm.address_pos hrouted

/-- So does a publication. -/
theorem meets_publish [Inhabited Value] (hm : Tables qosCompatible m) (variant : Variant)
    (published : MessageType) {rosType pubId : ℕ} {message : MessageObject Value}
    (hcaller : ∀ publisher, m.publishers.lookup pubId = some publisher →
      (m.publisherObjects publisher).alive = true ∧
        (m.publisherObjects publisher).rosType = rosType)
    (hheld : message.address < m.nextAddress)
    (hrouted : Routed qosCompatible adapters
      (publishBy variant adapters published rosType pubId message m).1) :
    MeetsNoExpired m (.publish variant published pubId message) := by
  intro subs hlisted subId hmem object hregistered
  by_contra hexpired
  obtain ⟨publisher, after, deliveries, hlive, rfl, hnext, hafter⟩ :=
    publishBy_progressed adapters hm variant published hcaller hheld hlisted
  have herased : subId ∈ expiredIds m subs.ids :=
    List.mem_filter.mpr ⟨hmem, by simp [isLive_of_registered hregistered, hexpired]⟩
  rw [hafter] at hrouted
  exact not_routed_of_missing (m := progressed m (expiredIds m subs.ids) deliveries _)
    hlive hlisted hmem (lookup_eraseAll_of_mem herased _) (hm.address_pos.trans_le hnext) hrouted

theorem meetsNoExpired_of_routed [Inhabited Value] {label : ManagerLabel Value}
    (hm : Tables qosCompatible m) (hstep : ManagerStep qosCompatible adapters m label m')
    (hrouted : Routed qosCompatible adapters m') : MeetsNoExpired m label := by
  cases hstep with
  | getSubscription subId => exact meets_getSubscription hm hrouted
  | publish variant published rosType pubId message hcaller hheld =>
      exact meets_publish hm variant published hcaller hheld hrouted
  | _ => exact trivial

/-- A manager before the first registration. -/
structure Unregistered (m : Manager Value Callback Qos) : Prop where
  publishers : m.publishers = ∅
  subscriptions : m.subscriptions = ∅
  lists : ∀ pubId, m.pubToSubs pubId = none
  address_pos : 0 < m.nextAddress

theorem Unregistered.tables (hm : Unregistered m) (htypes : SameTypes qosCompatible m) :
    Tables qosCompatible m where
  publisher_lt := by simp [hm.publishers]
  subscription_lt := by simp [hm.subscriptions]
  listed_lt := by simp [hm.lists]
  entry := by simp [hm.lists, hm.publishers]
  exact := by simp [hm.lists]
  sameTypes := htypes
  address_pos := hm.address_pos

end Tables

/-- The tables are exact and every live publisher can publish, throughout a run from an
empty manager, exactly when no lookup and no publication of the run meets an expired
subscription that is still listed. -/
theorem routed_throughout_iff [Inhabited Value] (qosCompatible : Qos → Qos → Bool)
    (adapters : TypeAdapters Value) {start finish : Manager Value Callback Qos}
    {trace : List (Move (Manager Value Callback Qos) (ManagerLabel Value))}
    (hstart : Unregistered start) (htypes : SameTypes qosCompatible start)
    (hrun : Run (ManagerStep qosCompatible adapters) start trace finish) :
    Throughout (Routed qosCompatible adapters) start trace ↔ Admitted MeetsNoExpired trace :=
  hrun.throughout_iff_admitted (fun _ hm => hm.routed)
    (fun _ _ _ hm hmeets hstep => tables_step hm hmeets hstep)
    (fun _ _ _ hm hstep hrouted => meetsNoExpired_of_routed hm hstep hrouted)
    (hstart.tables htypes)

/-! ## A subscription that expires -/

/-- All subscriptions share messages. -/
def sharers : Manager ℕ ℕ Unit := emptyManager fun _ => tenDeep .sharedPtr 0

theorem unregistered_sharers : Unregistered sharers :=
  ⟨rfl, rfl, fun _ => rfl, Nat.zero_lt_one⟩

theorem sameTypes_sharers : SameTypes (fun _ _ => true) sharers := fun _ _ _ => rfl

/-- A subscription that is removed when it expires is not met again. -/
theorem removed_stays_routed : ∃ finish trace,
    Run (ManagerStep (fun _ _ => true) noAdapters) sharers trace finish ∧
    trace.map Move.label = [.addPublisher 0, .addSubscription 0, .expireSubscription 0,
      .removeSubscription 2, .publish .publish .ros 1 ⟨0, 7⟩] ∧
    Throughout (Routed (fun _ _ => true) noAdapters) sharers trace := by
  obtain ⟨finish, trace, hrun, hlabels, hadmitted⟩ : ∃ finish trace,
      Run (ManagerStep (fun _ _ => true) noAdapters) sharers trace finish ∧
      trace.map Move.label = [.addPublisher 0, .addSubscription 0, .expireSubscription 0,
        .removeSubscription 2, .publish .publish .ros 1 ⟨0, 7⟩] ∧
      Admitted MeetsNoExpired trace := by
    refine ⟨_, _, .cons (.addPublisher _ [] 0 1 _ rfl .nil rfl)
      (.cons (.addSubscription _ [⟨1, 0⟩] 0 2 _ rfl (.refl _) rfl)
        (.cons (.expireSubscription _ 0) (.cons (.removeSubscription _ 2)
          (.cons (.publish _ .publish .ros 0 1 ⟨0, 7⟩ ?_ Nat.zero_lt_one) (.nil _))))),
      rfl, ?_⟩
    · rintro publisher hregistered
      exact ⟨rfl, rfl⟩
    · refine .cons trivial (.cons trivial (.cons trivial (.cons trivial (.cons ?_ (.nil _)))))
      rintro subs hlisted subId hmem
      cases hlisted
      cases hmem
  exact ⟨finish, trace, hrun, hlabels,
    (routed_throughout_iff _ noAdapters unregistered_sharers sameTypes_sharers hrun).mpr
      hadmitted⟩

/-- The publication after the one that met the expired subscription ends with an
exception. -/
theorem second_publication_throws : ∃ finish trace,
    Run (ManagerStep (fun _ _ => true) noAdapters) sharers trace finish ∧
    trace.map Move.label = [.addPublisher 0, .addSubscription 0, .expireSubscription 0,
      .publish .publish .ros 1 ⟨0, 7⟩] ∧
    LivePublisher finish 1 0 ∧
    (publishBy .publish noAdapters .ros 0 1 ⟨0, 7⟩ finish).2 = some goneOutOfScope ∧
    ¬ Routed (fun _ _ => true) noAdapters finish := by
  refine ⟨_, _, .cons (.addPublisher _ [] 0 1 _ rfl .nil rfl)
    (.cons (.addSubscription _ [⟨1, 0⟩] 0 2 _ rfl (.refl _) rfl)
      (.cons (.expireSubscription _ 0)
        (.cons (.publish _ .publish .ros 0 1 ⟨0, 7⟩ ?_ Nat.zero_lt_one) (.nil _)))),
    rfl, ⟨rfl, rfl⟩, rfl, ?_⟩
  · rintro publisher hregistered
    exact ⟨rfl, rfl⟩
  · have hmem : 2 ∈ (⟨[2], []⟩ : SplittedSubscriptions).ids := List.mem_singleton_self 2
    exact not_routed_of_missing (show LivePublisher _ 1 0 from ⟨rfl, rfl⟩) rfl hmem rfl
      Nat.zero_lt_one

end RosRtems.RoutingTables
