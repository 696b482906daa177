import RosRtems.Core.Runs
import RosRtems.IntraProcess.SubscriptionIntraProcess

/-!
# Wake-ups of an intra-process subscription

The ledger of a subscription holds the wake-ups emitted since the latest take.  A
subscription is in order while it is empty or the ledger holds a wake-up for the
mechanism in force.  Every publication keeps that; what breaks it is a take in
direct mode that leaves data behind, and a switch to a mechanism that has not been
told of the data.
-/

namespace RosRtems.DirectNotify

open RosRtems.Runs RosRtems.KeepLast RosRtems.RingBuffer RosRtems.IntraProcess

variable {Message Callback : Type*}

structure NotifyState (Message Callback : Type*) where
  sub : SubscriptionIntraProcess Message Callback
  ledger : List (WakeUp Callback)

inductive NotifyLabel (Message Callback : Type*)
  | provideShared (message : Message)
  | provideUnique (message : Message)
  | setDirect (callback : Option Callback)
  | setOnReady (callback : Option Callback)
  | clearOnReady
  | takeData

inductive NotifyStep :
    NotifyState Message Callback → NotifyLabel Message Callback →
      NotifyState Message Callback → Prop
  | provideShared (s : NotifyState Message Callback) (message : Message) :
      NotifyStep s (.provideShared message)
        ⟨(provideSharedMessage s.sub message).1,
          s.ledger ++ (provideSharedMessage s.sub message).2⟩
  | provideUnique (s : NotifyState Message Callback) (message : Message) :
      NotifyStep s (.provideUnique message)
        ⟨(provideUniqueMessage s.sub message).1,
          s.ledger ++ (provideUniqueMessage s.sub message).2⟩
  | setDirect (s : NotifyState Message Callback) (callback : Option Callback) :
      NotifyStep s (.setDirect callback)
        { s with sub := setDirectNotifyCallback s.sub callback }
  | setOnReady (s : NotifyState Message Callback) (callback : Option Callback)
      (sub : SubscriptionIntraProcess Message Callback) (emitted : List (WakeUp Callback))
      (hset : setOnReadyCallback s.sub callback = .ok (sub, emitted)) :
      NotifyStep s (.setOnReady callback) ⟨sub, s.ledger ++ emitted⟩
  | setOnReadyThrows (s : NotifyState Message Callback) (callback : Option Callback)
      (text : String) (hset : setOnReadyCallback s.sub callback = .error text) :
      NotifyStep s (.setOnReady callback) s
  | clearOnReady (s : NotifyState Message Callback) :
      NotifyStep s .clearOnReady { s with sub := clearOnReadyCallback s.sub }
  | takeData (s : NotifyState Message Callback) (message : Option Message)
      (sub : SubscriptionIntraProcess Message Callback) (emitted : List (WakeUp Callback))
      (htake : takeData s.sub = .ok (message, sub, emitted)) :
      NotifyStep s .takeData ⟨sub, emitted⟩

/-! ## The ledger and the mechanism in force -/

section Ledger

variable (ledger : List (WakeUp Callback))

/-- A wake-up of the standard mechanism: the guard condition, the unread count, or
the on-ready callback that is installed. -/
def StandardWoken (onReady : Option Callback) (unreadCount : ℕ) : Prop :=
  .guardCondition ∈ ledger ∨ 0 < unreadCount ∨
    ∃ callback count, onReady = some callback ∧ .ready callback count ∈ ledger

/-- A wake-up of the mechanism in force. -/
def Woken (sub : SubscriptionIntraProcess Message Callback) : Prop :=
  match sub.directNotifyCallback with
  | some callback => .direct callback ∈ ledger
  | none => StandardWoken ledger sub.onNewMessageCallback sub.unreadCount

end Ledger

/-- Stored data has a wake-up that no take has used up. -/
def NoSilentBacklog (s : NotifyState Message Callback) : Prop :=
  isReady s.sub = true → Woken s.ledger s.sub

/-- When an operation leaves no backlog unannounced.  A take in direct mode finds
one message at most; a switch to another mechanism finds an empty buffer or a
wake-up of that mechanism in the ledger. -/
def KeepsAnnounced (s : NotifyState Message Callback) :
    NotifyLabel Message Callback → Prop
  | .provideShared _ | .provideUnique _ | .setOnReady none => True
  | .setDirect (some callback) =>
      isReady s.sub = true → .direct callback ∈ s.ledger
  | .setDirect none =>
      isReady s.sub = true →
        StandardWoken s.ledger s.sub.onNewMessageCallback s.sub.unreadCount
  | .setOnReady (some callback) =>
      s.sub.directNotifyCallback = none → isReady s.sub = true →
        StandardWoken s.ledger (some callback) s.sub.unreadCount
  | .clearOnReady =>
      s.sub.directNotifyCallback = none → isReady s.sub = true →
        StandardWoken s.ledger none s.sub.unreadCount
  | .takeData =>
      s.sub.directNotifyCallback.isSome = true → s.sub.buffer.buffer.size ≤ 1

/-- The buffer is a keep-last queue of messages. -/
def BufferSound (s : NotifyState Message Callback) : Prop :=
  ∃ stored, Stores s.sub.buffer stored

/-! ## What each operation does to the wake-ups -/

section Operations

variable {s : NotifyState Message Callback}

theorem woken_direct {sub : SubscriptionIntraProcess Message Callback}
    {ledger : List (WakeUp Callback)} {callback : Callback}
    (hdirect : sub.directNotifyCallback = some callback) :
    Woken ledger sub ↔ .direct callback ∈ ledger := by
  simp [Woken, hdirect]

theorem woken_standard {sub : SubscriptionIntraProcess Message Callback}
    {ledger : List (WakeUp Callback)} (hdirect : sub.directNotifyCallback = none) :
    Woken ledger sub ↔
      StandardWoken ledger sub.onNewMessageCallback sub.unreadCount := by
  simp [Woken, hdirect]

/-- A publication wakes whichever mechanism is in force. -/
theorem announceMessage_woken (buffer : TypedIntraProcessBuffer Message) :
    (announceMessage s.sub buffer).1.buffer = buffer ∧
      Woken (s.ledger ++ (announceMessage s.sub buffer).2)
        (announceMessage s.sub buffer).1 := by
  cases hdirect : s.sub.directNotifyCallback with
  | some callback =>
      simp [announceMessage, invokeOnNewMessage, triggerGuardCondition, Woken, hdirect]
  | none =>
      cases hready : s.sub.onNewMessageCallback <;>
        simp [announceMessage, invokeOnNewMessage, triggerGuardCondition, Woken,
          StandardWoken, hdirect, hready]

theorem setOnReady_ok {callback : Option Callback}
    {sub : SubscriptionIntraProcess Message Callback} {emitted : List (WakeUp Callback)}
    (hset : setOnReadyCallback s.sub callback = .ok (sub, emitted)) :
    ∃ installed, callback = some installed ∧ sub.buffer = s.sub.buffer ∧
      sub.directNotifyCallback = s.sub.directNotifyCallback ∧
      sub.onNewMessageCallback = some installed ∧ sub.unreadCount = 0 ∧
      (0 < s.sub.unreadCount → ∃ count, emitted = [.ready installed count]) ∧
      (s.sub.unreadCount = 0 → emitted = []) := by
  cases callback with
  | none => simp [setOnReadyCallback] at hset
  | some installed =>
      by_cases hunread : 0 < s.sub.unreadCount
      · simp only [setOnReadyCallback, hunread, if_true, Except.ok.injEq,
          Prod.mk.injEq] at hset
        obtain ⟨rfl, rfl⟩ := hset
        exact ⟨installed, rfl, rfl, rfl, rfl, rfl, fun _ => ⟨_, rfl⟩, by omega⟩
      · simp only [setOnReadyCallback, hunread, if_false, Except.ok.injEq,
          Prod.mk.injEq] at hset
        obtain ⟨rfl, rfl⟩ := hset
        exact ⟨installed, rfl, rfl, rfl, rfl, by simp only; omega, by omega, fun _ => rfl⟩

/-- In standard mode the callback that `set_on_ready_callback` installs is told of
the unread count, so it is woken exactly if it was or there was such a count. -/
theorem setOnReady_woken_iff {callback : Callback}
    {sub : SubscriptionIntraProcess Message Callback} {emitted : List (WakeUp Callback)}
    (hset : setOnReadyCallback s.sub (some callback) = .ok (sub, emitted))
    (hdirect : s.sub.directNotifyCallback = none) :
    Woken (s.ledger ++ emitted) sub ↔
      StandardWoken s.ledger (some callback) s.sub.unreadCount := by
  obtain ⟨installed, hcallback, -, hsame, hready, hzero, hreplay, hsilent⟩ :=
    setOnReady_ok hset
  cases hcallback
  rw [woken_standard (hsame.trans hdirect), hready, hzero]
  rcases Nat.eq_zero_or_pos s.sub.unreadCount with hunread | hunread
  · simp [StandardWoken, hsilent hunread, hunread]
  · obtain ⟨count, hemitted⟩ := hreplay hunread
    simp only [StandardWoken, hemitted, hunread, lt_irrefl, false_or, true_or, or_true,
      iff_true]
    right
    exact ⟨callback, count, rfl, by simp⟩

end Operations

/-! ## Steps -/

theorem bufferSound_step (s : NotifyState Message Callback)
    (label : NotifyLabel Message Callback) (s' : NotifyState Message Callback)
    (hs : BufferSound s) (hstep : NotifyStep s label s') : BufferSound s' := by
  obtain ⟨stored, hstores⟩ := hs
  cases hstep with
  | provideShared message =>
      refine ⟨push s.sub.buffer.buffer.capacity stored message, ?_⟩
      rw [provideSharedMessage, (announceMessage_woken _).1]
      exact addShared_stores hstores message
  | provideUnique message =>
      refine ⟨push s.sub.buffer.buffer.capacity stored message, ?_⟩
      rw [provideUniqueMessage, (announceMessage_woken _).1, addUnique_eq]
      exact addShared_stores hstores message
  | setDirect callback => exact ⟨stored, hstores⟩
  | setOnReady callback sub emitted hset =>
      obtain ⟨-, -, hbuffer, -⟩ := setOnReady_ok hset
      exact ⟨stored, by rwa [hbuffer]⟩
  | setOnReadyThrows callback text _ => exact ⟨stored, hstores⟩
  | clearOnReady => exact ⟨stored, hstores⟩
  | takeData message sub emitted htake =>
      cases stored with
      | nil =>
          rw [takeData_of_nil hstores] at htake
          split at htake
          · cases htake
          · cases htake
            exact ⟨[], hstores⟩
      | cons oldest rest =>
          obtain ⟨buffer, hbuffer, htaken⟩ := takeData_of_cons hstores
          rw [htaken] at htake
          cases htake
          exact ⟨rest, hbuffer⟩

/-- A take in direct mode emits nothing: it leaves the subscription in order exactly
if it leaves it empty.  A take in standard mode triggers the guard condition for
what it leaves. -/
theorem takeData_announced_iff {s : NotifyState Message Callback} (hs : BufferSound s)
    {message : Option Message} {sub : SubscriptionIntraProcess Message Callback}
    {emitted : List (WakeUp Callback)}
    (htake : takeData s.sub = .ok (message, sub, emitted)) :
    NoSilentBacklog ⟨sub, emitted⟩ ↔ KeepsAnnounced s .takeData := by
  obtain ⟨stored, hstores⟩ := hs
  have hsize : s.sub.buffer.buffer.size = stored.length := by
    rw [← contents_length, hstores.contents_eq, List.length_map]
  cases stored with
  | nil =>
      rw [takeData_of_nil hstores] at htake
      split at htake
      · cases htake
      · cases htake
        have hempty : isReady s.sub ≠ true := (isReady_iff hstores).not.mpr (by simp)
        simp [NoSilentBacklog, KeepsAnnounced, hempty, hsize]
  | cons oldest rest =>
      obtain ⟨buffer, hbuffer, htaken⟩ := takeData_of_cons hstores
      rw [htaken] at htake
      cases htake
      have hready : isReady { s.sub with buffer := buffer } = true ↔ rest ≠ [] :=
        isReady_iff hbuffer
      rw [NoSilentBacklog, hready, KeepsAnnounced, hsize, List.length_cons]
      cases hdirect : s.sub.directNotifyCallback with
      | some callback =>
          by_cases hrest : rest = [] <;>
            simp [Woken, hrest, triggerGuardCondition, hdirect]
      | none =>
          by_cases hrest : rest = [] <;>
            simp [Woken, StandardWoken, hrest, triggerGuardCondition, hdirect]

/-- The step lemma: an operation on a subscription in order leaves it in order
exactly if its condition is met. -/
theorem step_announced_iff {s s' : NotifyState Message Callback}
    {label : NotifyLabel Message Callback} (hsound : BufferSound s)
    (hs : NoSilentBacklog s) (hstep : NotifyStep s label s') :
    NoSilentBacklog s' ↔ KeepsAnnounced s label := by
  cases hstep with
  | provideShared message =>
      simp only [KeepsAnnounced, iff_true]
      exact fun _ => (announceMessage_woken _).2
  | provideUnique message =>
      simp only [KeepsAnnounced, iff_true]
      exact fun _ => (announceMessage_woken _).2
  | setDirect callback =>
      cases callback with
      | some callback => rfl
      | none => rfl
  | setOnReady callback sub emitted hset =>
      obtain ⟨installed, rfl, hbuffer, hsame, -⟩ := setOnReady_ok hset
      have hready : isReady sub = isReady s.sub := by simp only [isReady, hbuffer]
      simp only [NoSilentBacklog, KeepsAnnounced, hready]
      cases hdirect : s.sub.directNotifyCallback with
      | some callback =>
          simp only [reduceCtorEq, false_implies, iff_true]
          intro hdata
          rw [woken_direct (hsame.trans hdirect)]
          exact List.mem_append_left _ ((woken_direct hdirect).mp (hs hdata))
      | none =>
          simp only [forall_const]
          rw [setOnReady_woken_iff hset hdirect]
  | setOnReadyThrows callback text hset =>
      cases callback with
      | none =>
          simp only [KeepsAnnounced, iff_true]
          exact hs
      | some callback =>
          simp only [setOnReadyCallback] at hset
          split at hset <;> cases hset
  | clearOnReady =>
      simp only [NoSilentBacklog, KeepsAnnounced]
      cases hdirect : s.sub.directNotifyCallback with
      | some callback =>
          have hcleared : (clearOnReadyCallback s.sub).directNotifyCallback =
              some callback := hdirect
          simp only [reduceCtorEq, false_implies, iff_true]
          intro hdata
          exact (woken_direct hcleared).mpr ((woken_direct hdirect).mp (hs hdata))
      | none =>
          have hcleared : (clearOnReadyCallback s.sub).directNotifyCallback = none :=
            hdirect
          simp only [forall_const, woken_standard hcleared]
          rfl
  | takeData message sub emitted htake => exact takeData_announced_iff hsound htake

/-! ## Runs -/

/-- A new subscription holds nothing. -/
theorem createSubscription_stores {bufferType : BufferType} {takesShared : Bool}
    {history : HistoryPolicy} {depth : ℕ} {sub : SubscriptionIntraProcess Message Callback}
    (hcreate : createSubscription bufferType takesShared history depth = .ok sub) :
    Stores sub.buffer [] := by
  cases hbuffer : (create depth : Except String
      (RingBufferImplementation (Option Message))) with
  | error text => simp [createSubscription, hbuffer, Except.map] at hcreate
  | ok buffer =>
      simp only [createSubscription, hbuffer, Except.map, Except.ok.injEq] at hcreate
      obtain ⟨hwellFormed, hcontents, -⟩ := create_wellFormed hbuffer
      subst hcreate
      exact ⟨hwellFormed, hcontents⟩

end RosRtems.DirectNotify
