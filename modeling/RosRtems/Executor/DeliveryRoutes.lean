import RosRtems.Executor.RtSubscription

/-!
# Which deliveries reach the user

A message is delivered intra-process or through the middleware, and either way the
task of the subscription is woken and runs its callback once.  The message arrives
exactly if the callback takes from the queue that the delivery has filled.
-/

namespace RosRtems.DeliveryRoutes

open RosRtems.EventSet RosRtems.KeepLast RosRtems.RingBuffer RosRtems.IntraProcess
open RosRtems.CallbackLoop RosRtems.RtSubscription

variable {Message : Type*}

/-- The two executors of the repository. -/
inductive Implementation
  | library
  | experiment
  deriving DecidableEq, Repr

/-- The route by which a message is delivered.  A message that comes over the
middleware is not the copy of one that is delivered intra-process as well. -/
inductive Delivery (Message : Type*)
  | intraProcess (message : Message)
  | dds (message : Message)

def Delivery.message : Delivery Message → Message
  | .intraProcess message => message
  | .dds message => message

/-- The subscription, the events of its task, and what the user callback was given. -/
structure RouteState (Message : Type*) where
  sub : Subscription Message
  events : Events RtemsEvent
  handled : List Message

section Delivering

variable (task : TaskId)

def sendTo (events : Events RtemsEvent) (target : TaskId) : Events RtemsEvent :=
  if target = task then send event1 events else events

/-- The direct-notify callback is a send; the other wake-ups do not reach the task. -/
def sendWakeUp (events : Events RtemsEvent) : WakeUp TaskId → Events RtemsEvent
  | .direct target => sendTo task events target
  | _ => events

def deliver (s : RouteState Message) : Delivery Message → RouteState Message
  | .intraProcess message =>
      match s.sub.intraProcess with
      | none => s
      | some inner =>
          let (stored, emitted) := provideSharedMessage inner message
          { s with
            sub := { s.sub with intraProcess := some stored }
            events := emitted.foldl (sendWakeUp task) s.events }
  | .dds message =>
      { s with
        sub := { s.sub with
          reader := push s.sub.readerDepth s.sub.reader ⟨message, false⟩ }
        events := s.sub.onNewMessageHooks.foldl (sendTo task) s.events }

def callbackOf : Implementation → Subscription Message →
    Subscription Message × List Message
  | .library => taskCallback
  | .experiment => taskCallbackExperiment

def runCallback (implementation : Implementation) (s : RouteState Message) :
    RouteState Message :=
  match receive event1 s.events with
  | none => s
  | some events =>
      let (sub, passed) := callbackOf implementation s.sub
      { sub := sub, events := events, handled := s.handled ++ passed }

/-- A delivery, and the run of the callback it causes. -/
def deliverAndRun (implementation : Implementation) (s : RouteState Message)
    (delivery : Delivery Message) : RouteState Message :=
  runCallback implementation (deliver task s delivery)

/-- The subscription just registered with the task. -/
def registeredState (sub : Subscription Message) : RouteState Message :=
  { sub := installHooks sub task, events := noEvents, handled := [] }

def deliverAll (implementation : Implementation) (sub : Subscription Message)
    (deliveries : List (Delivery Message)) : RouteState Message :=
  deliveries.foldl (deliverAndRun task implementation) (registeredState task sub)

end Delivering

/-- Both queues are empty. -/
def QueuesEmpty (sub : Subscription Message) : Prop :=
  sub.reader = [] ∧ ∀ inner, sub.intraProcess = some inner → isReady inner = false

/-- Every delivered message has been passed to the user callback, once and in order,
and nothing is left behind. -/
def AllDelivered (task : TaskId) (implementation : Implementation)
    (sub : Subscription Message) (deliveries : List (Delivery Message)) : Prop :=
  (deliverAll task implementation sub deliveries).handled =
      deliveries.map Delivery.message ∧
    QueuesEmpty (deliverAll task implementation sub deliveries).sub

/-- A subscription that has not received anything yet. -/
structure Fresh (sub : Subscription Message) : Prop where
  reader : sub.reader = []
  stores : ∀ inner, sub.intraProcess = some inner → Stores inner.buffer []

/-- The callback takes from the queue that the delivery fills, and can handle what it
takes. -/
def TakesWhatIsFilled (sub : Subscription Message) :
    Implementation → Delivery Message → Prop
  | .library, .dds _ => True
  | .library, .intraProcess _ => False
  | .experiment, .intraProcess _ => sub.isSerialized = false
  | .experiment, .dds _ => False

/-- Intra-process deliveries are made to subscriptions that use intra-process
communication. -/
def Routable (sub : Subscription Message) (delivery : Delivery Message) : Prop :=
  ∀ message, delivery = .intraProcess message → sub.intraProcess.isSome = true

/-! ## The invariant of a registered subscription -/

/-- The hooks name the task, the intra-process buffer is a queue, the samples of the
reader are deliveries, and no event is pending between deliveries. -/
structure RouteInvariant (task : TaskId) (sub : Subscription Message)
    (s : RouteState Message) : Prop where
  isSerialized : s.sub.isSerialized = sub.isSerialized
  hooked : task ∈ s.sub.onNewMessageHooks
  intraProcess : s.sub.intraProcess.isSome = sub.intraProcess.isSome
  direct : ∀ inner, s.sub.intraProcess = some inner →
    inner.directNotifyCallback = some task ∧ ∃ stored, Stores inner.buffer stored
  samples : ∀ sample ∈ s.sub.reader, sample.fromIntraProcessPublisher = false
  idle : s.events.pending event1 = false

section Lemmas

variable {task : TaskId} {sub : Subscription Message} {s : RouteState Message}

theorem sendTo_pending_of_pending {events : Events RtemsEvent} (target : TaskId)
    (hpending : events.pending event1 = true) :
    (sendTo task events target).pending event1 = true := by
  rw [sendTo]
  split
  · exact send_pending event1 events
  · exact hpending

/-- A chain of hooks that contains the task wakes it. -/
theorem foldl_sendTo_pending {hooks : List TaskId} (hhooked : task ∈ hooks)
    (events : Events RtemsEvent) :
    (hooks.foldl (sendTo task) events).pending event1 = true := by
  have hkeep : ∀ (hooks : List TaskId) (events : Events RtemsEvent),
      events.pending event1 = true →
        (hooks.foldl (sendTo task) events).pending event1 = true := by
    intro hooks
    induction hooks with
    | nil => exact fun _ hpending => hpending
    | cons target hooks ih =>
        exact fun events hpending => ih _ (sendTo_pending_of_pending target hpending)
  induction hooks generalizing events with
  | nil => cases hhooked
  | cons target hooks ih =>
      rcases List.mem_cons.mp hhooked with rfl | hlater
      · exact hkeep hooks _ (by simp [sendTo])
      · exact ih hlater _

/-- A publication to the buffer of a registered subscription stores the message and
sends the event of the task. -/
theorem provideSharedMessage_direct {inner : SubscriptionIntraProcess Message TaskId}
    (hdirect : inner.directNotifyCallback = some task) (message : Message) :
    provideSharedMessage inner message =
      ({ inner with buffer := addShared inner.buffer message }, [.direct task]) := by
  simp [provideSharedMessage, announceMessage, invokeOnNewMessage,
    triggerGuardCondition, hdirect]

theorem runCallback_of_pending (implementation : Implementation)
    (hpending : s.events.pending event1 = true) :
    ∃ events, events.pending event1 = false ∧
      runCallback implementation s =
        { sub := (callbackOf implementation s.sub).1
          events := events
          handled := s.handled ++ (callbackOf implementation s.sub).2 } := by
  cases hreceive : receive event1 s.events with
  | none =>
      rw [receive_eq_none_iff] at hreceive
      simp [hreceive] at hpending
  | some events =>
      exact ⟨events, (receive_eq_some_iff.mp hreceive).2.1, by simp [runCallback, hreceive]⟩

theorem taskCallback_of_cons (sub : Subscription Message) {sample : Sample Message}
    {rest : List (Sample Message)} (hreader : sub.reader = sample :: rest)
    (hsample : sample.fromIntraProcessPublisher = false) :
    taskCallback sub = ({ sub with reader := rest }, [sample.message]) := by
  simp [taskCallback, takeTypeErased, rclTake, handleMessage, handleSerializedMessage,
    matchesAnyIntraProcessPublishers, hreader, hsample]

theorem taskCallback_of_nil (sub : Subscription Message) (hreader : sub.reader = []) :
    taskCallback sub = (sub, []) := by
  simp [taskCallback, takeTypeErased, rclTake, hreader]

theorem taskCallbackExperiment_of_stores (sub : Subscription Message)
    {inner : SubscriptionIntraProcess Message TaskId} {message : Message}
    {stored : List Message} (hinner : sub.intraProcess = some inner)
    (hstores : Stores inner.buffer (message :: stored)) :
    ∃ buffer, Stores buffer stored ∧
      taskCallbackExperiment sub =
        ({ sub with intraProcess := some { inner with buffer := buffer } },
          executeIntraProcess sub message) := by
  obtain ⟨buffer, hbuffer, htake⟩ := takeData_of_cons hstores
  have hready : isReady inner = true := (isReady_iff hstores).mpr (by simp)
  exact ⟨buffer, hbuffer, by simp [taskCallbackExperiment, hinner, hready, htake]⟩

theorem taskCallbackExperiment_of_empty (sub : Subscription Message)
    (hempty : ∀ inner, sub.intraProcess = some inner → isReady inner = false) :
    taskCallbackExperiment sub = (sub, []) := by
  cases hinner : sub.intraProcess with
  | none => simp [taskCallbackExperiment, hinner]
  | some inner => simp [taskCallbackExperiment, hinner, hempty inner hinner]

/-! ## What a delivery does before the callback runs -/

theorem deliver_dds (hs : RouteInvariant task sub s) (message : Message) :
    ∃ events, events.pending event1 = true ∧
      deliver task s (.dds message) =
        { s with
          sub := { s.sub with
            reader := push s.sub.readerDepth s.sub.reader ⟨message, false⟩ }
          events := events } :=
  ⟨_, foldl_sendTo_pending hs.hooked s.events, rfl⟩

theorem deliver_intraProcess (hs : RouteInvariant task sub s)
    {inner : SubscriptionIntraProcess Message TaskId}
    (hinner : s.sub.intraProcess = some inner) (message : Message) :
    ∃ events, events.pending event1 = true ∧
      deliver task s (.intraProcess message) =
        { s with
          sub := { s.sub with
            intraProcess :=
              some { inner with buffer := addShared inner.buffer message } }
          events := events } := by
  refine ⟨send event1 s.events, send_pending event1 s.events, ?_⟩
  simp [deliver, hinner, provideSharedMessage_direct (hs.direct inner hinner).1,
    sendWakeUp, sendTo]

/-- The callback takes from what the delivery has stored. -/
theorem deliverAndRun_eq {delivery : Delivery Message} {delivered : Subscription Message}
    {pendingEvents : Events RtemsEvent} {handled : List Message}
    (implementation : Implementation) (hpending : pendingEvents.pending event1 = true)
    (hdeliver : deliver task s delivery = ⟨delivered, pendingEvents, handled⟩) :
    ∃ events, events.pending event1 = false ∧
      deliverAndRun task implementation s delivery =
        { sub := (callbackOf implementation delivered).1
          events := events
          handled := handled ++ (callbackOf implementation delivered).2 } := by
  obtain ⟨events, hidle, hrun⟩ := runCallback_of_pending
    (s := ⟨delivered, pendingEvents, handled⟩) implementation hpending
  exact ⟨events, hidle, by rw [deliverAndRun, hdeliver, hrun]⟩

/-! ## The callbacks keep the invariant -/

/-- The library takes from the reader and leaves everything else alone. -/
theorem taskCallback_frame (sub : Subscription Message) :
    ∃ rest, (∀ sample ∈ rest, sample ∈ sub.reader) ∧
      (taskCallback sub).1 = { sub with reader := rest } := by
  cases hreader : sub.reader with
  | nil =>
      refine ⟨[], by simp, ?_⟩
      rw [taskCallback_of_nil sub hreader, ← hreader]
  | cons sample rest =>
      refine ⟨rest, fun _ hmem => List.mem_cons_of_mem _ hmem, ?_⟩
      cases hserialized : sub.isSerialized <;> cases hloan : sub.canLoanMessages <;>
        cases hmatch : matchesAnyIntraProcessPublishers sub sample <;>
        simp [taskCallback, takeTypeErased, rclTake, hreader, hserialized, hloan, hmatch]

/-- The experiment takes from the intra-process buffer and leaves everything else
alone. -/
theorem taskCallbackExperiment_frame (hs : RouteInvariant task sub s) :
    ∃ intraProcess, intraProcess.isSome = s.sub.intraProcess.isSome ∧
      (∀ inner, intraProcess = some inner →
        inner.directNotifyCallback = some task ∧ ∃ stored, Stores inner.buffer stored) ∧
      (taskCallbackExperiment s.sub).1 = { s.sub with intraProcess := intraProcess } := by
  cases hinner : s.sub.intraProcess with
  | none =>
      refine ⟨none, rfl, by simp, ?_⟩
      rw [taskCallbackExperiment_of_empty s.sub (by simp [hinner]), ← hinner]
  | some inner =>
      obtain ⟨hdirect, stored, hstores⟩ := hs.direct inner hinner
      cases stored with
      | nil =>
          refine ⟨some inner, rfl, ?_, ?_⟩
          · rintro _ ⟨⟩
            exact ⟨hdirect, [], hstores⟩
          · have hempty : isReady inner = false := by
              simpa using (isReady_iff hstores).not
            rw [← hinner, taskCallbackExperiment_of_empty s.sub]
            intro _ hsame
            cases hinner.symm.trans hsame
            exact hempty
      | cons message stored =>
          obtain ⟨buffer, hbuffer, htask⟩ :=
            taskCallbackExperiment_of_stores s.sub hinner hstores
          refine ⟨some { inner with buffer := buffer }, rfl, ?_, by rw [htask]⟩
          rintro _ ⟨⟩
          exact ⟨hdirect, stored, hbuffer⟩

theorem deliver_invariant (hs : RouteInvariant task sub s) {delivery : Delivery Message}
    (hroute : Routable sub delivery) :
    ∃ delivered events, events.pending event1 = true ∧
      deliver task s delivery = { delivered with events := events } ∧
      delivered.handled = s.handled ∧ RouteInvariant task sub delivered := by
  cases delivery with
  | dds message =>
      obtain ⟨events, hpending, hdeliver⟩ := deliver_dds hs message
      refine ⟨{ s with sub := { s.sub with
        reader := push s.sub.readerDepth s.sub.reader ⟨message, false⟩ } },
        events, hpending, hdeliver, rfl, { hs with samples := ?_ }⟩
      intro sample hsample
      rcases mem_push hsample with hold | rfl
      · exact hs.samples sample hold
      · rfl
  | intraProcess message =>
      have hsome : s.sub.intraProcess.isSome = true :=
        hs.intraProcess.trans (hroute message rfl)
      obtain ⟨inner, hinner⟩ := Option.isSome_iff_exists.mp hsome
      obtain ⟨hdirect, stored, hstores⟩ := hs.direct inner hinner
      obtain ⟨events, hpending, hdeliver⟩ := deliver_intraProcess hs hinner message
      let announced := { inner with buffer := addShared inner.buffer message }
      refine ⟨{ s with sub := { s.sub with intraProcess := some announced } },
        events, hpending, hdeliver, rfl,
        { hs with intraProcess := ?_, direct := ?_ }⟩
      · rw [← hs.intraProcess, hinner]
        rfl
      · rintro _ ⟨⟩
        exact ⟨hdirect, _, addShared_stores hstores message⟩

theorem deliverAndRun_invariant (hs : RouteInvariant task sub s)
    (implementation : Implementation) {delivery : Delivery Message}
    (hroute : Routable sub delivery) :
    RouteInvariant task sub (deliverAndRun task implementation s delivery) := by
  obtain ⟨delivered, pendingEvents, hpending, hdeliver, -, hinvariant⟩ :=
    deliver_invariant hs hroute
  obtain ⟨events, hidle, hrun⟩ := deliverAndRun_eq implementation hpending hdeliver
  rw [hrun]
  cases implementation with
  | library =>
      obtain ⟨rest, hsubset, hframe⟩ := taskCallback_frame delivered.sub
      simp only [callbackOf, hframe]
      exact
        { hinvariant with
          samples := fun sample hsample => hinvariant.samples sample (hsubset sample hsample)
          idle := hidle }
  | experiment =>
      obtain ⟨intraProcess, hsome, hdirect, hframe⟩ :=
        taskCallbackExperiment_frame hinvariant
      simp only [callbackOf, hframe]
      exact
        { hinvariant with
          intraProcess := hsome.trans hinvariant.intraProcess
          direct := hdirect
          idle := hidle }

/-! ## Deliveries that arrive -/

/-- Between the deliveries of a subscription that is served: nothing is left. -/
structure Clean (task : TaskId) (sub : Subscription Message) (s : RouteState Message) :
    Prop where
  invariant : RouteInvariant task sub s
  queues : QueuesEmpty s.sub

theorem clean_library_dds (hs : Clean task sub s) (message : Message) :
    Clean task sub (deliverAndRun task .library s (.dds message)) ∧
      (deliverAndRun task .library s (.dds message)).handled =
        s.handled ++ [message] := by
  obtain ⟨pendingEvents, hpending, hdeliver⟩ := deliver_dds hs.invariant message
  rw [hs.queues.1, push_nil] at hdeliver
  have hinvariant : RouteInvariant task sub
      (deliverAndRun task .library s (.dds message)) :=
    deliverAndRun_invariant hs.invariant .library (by simp [Routable])
  obtain ⟨events, -, hrun⟩ := deliverAndRun_eq .library hpending hdeliver
  have hcallback := taskCallback_of_cons
    { s.sub with reader := [⟨message, false⟩] } rfl rfl
  rw [hrun, callbackOf, hcallback] at hinvariant ⊢
  exact ⟨⟨hinvariant, rfl, hs.queues.2⟩, rfl⟩

theorem clean_experiment_intraProcess (hs : Clean task sub s) (message : Message)
    (hsome : sub.intraProcess.isSome = true) (hplain : sub.isSerialized = false) :
    Clean task sub (deliverAndRun task .experiment s (.intraProcess message)) ∧
      (deliverAndRun task .experiment s (.intraProcess message)).handled =
        s.handled ++ [message] := by
  have hsomeNow : s.sub.intraProcess.isSome = true :=
    hs.invariant.intraProcess.trans hsome
  obtain ⟨inner, hinner⟩ := Option.isSome_iff_exists.mp hsomeNow
  obtain ⟨-, stored, hstores⟩ := hs.invariant.direct inner hinner
  have hempty : stored = [] := by
    have hready := hs.queues.2 inner hinner
    by_contra hne
    simp [(isReady_iff hstores).mpr hne] at hready
  subst hempty
  obtain ⟨pendingEvents, hpending, hdeliver⟩ :=
    deliver_intraProcess hs.invariant hinner message
  have hinvariant : RouteInvariant task sub
      (deliverAndRun task .experiment s (.intraProcess message)) :=
    deliverAndRun_invariant hs.invariant .experiment (fun _ _ => hsome)
  have hadded : Stores (addShared inner.buffer message) [message] := by
    have hpush := addShared_stores hstores message
    rwa [push_nil] at hpush
  obtain ⟨events, -, hrun⟩ := deliverAndRun_eq .experiment hpending hdeliver
  obtain ⟨buffer, hbuffer, hcallback⟩ := taskCallbackExperiment_of_stores
    { s.sub with
      intraProcess := some { inner with buffer := addShared inner.buffer message } }
    rfl hadded
  have hempty : isReady { inner with buffer := buffer } = false := by
    have hready : isReady { inner with buffer := buffer } = true ↔ [] ≠ [] :=
      isReady_iff hbuffer
    simpa using hready
  rw [hrun, callbackOf, hcallback] at hinvariant ⊢
  refine ⟨⟨hinvariant, hs.queues.1, ?_⟩, ?_⟩
  · rintro _ ⟨⟩
    exact hempty
  · simp [executeIntraProcess, hs.invariant.isSerialized, hplain]

/-! ## Deliveries that do not -/

/-- A message in the intra-process buffer is never taken by the library. -/
def IntraBacklog (s : RouteState Message) : Prop :=
  ∃ inner, s.sub.intraProcess = some inner ∧ isReady inner = true

theorem isReady_addShared {inner : SubscriptionIntraProcess Message TaskId}
    {stored : List Message} (hstores : Stores inner.buffer stored) (message : Message) :
    isReady { inner with buffer := addShared inner.buffer message } = true := by
  have hready : isReady { inner with buffer := addShared inner.buffer message } = true ↔
      push inner.buffer.buffer.capacity stored message ≠ [] :=
    isReady_iff (addShared_stores hstores message)
  exact hready.mpr (push_ne_nil _ _ _)

theorem intraBacklog_of_intraProcess (hs : RouteInvariant task sub s)
    (hsome : sub.intraProcess.isSome = true) (message : Message) :
    IntraBacklog (deliverAndRun task .library s (.intraProcess message)) := by
  have hsomeNow : s.sub.intraProcess.isSome = true := hs.intraProcess.trans hsome
  obtain ⟨inner, hinner⟩ := Option.isSome_iff_exists.mp hsomeNow
  obtain ⟨-, stored, hstores⟩ := hs.direct inner hinner
  obtain ⟨pendingEvents, hpending, hdeliver⟩ := deliver_intraProcess hs hinner message
  obtain ⟨events, -, hrun⟩ := deliverAndRun_eq .library hpending hdeliver
  obtain ⟨rest, -, hframe⟩ := taskCallback_frame { s.sub with
    intraProcess := some { inner with buffer := addShared inner.buffer message } }
  rw [hrun, callbackOf]
  simp only [IntraBacklog, hframe]
  exact ⟨_, rfl, isReady_addShared hstores message⟩

theorem intraBacklog_kept (hs : RouteInvariant task sub s) {delivery : Delivery Message}
    (hroute : Routable sub delivery) (hbacklog : IntraBacklog s) :
    IntraBacklog (deliverAndRun task .library s delivery) := by
  cases delivery with
  | intraProcess message => exact intraBacklog_of_intraProcess hs (hroute message rfl) message
  | dds message =>
      obtain ⟨pendingEvents, hpending, hdeliver⟩ := deliver_dds hs message
      obtain ⟨events, -, hrun⟩ := deliverAndRun_eq .library hpending hdeliver
      obtain ⟨rest, -, hframe⟩ := taskCallback_frame { s.sub with
        reader := push s.sub.readerDepth s.sub.reader ⟨message, false⟩ }
      rw [hrun, callbackOf]
      simp only [IntraBacklog, hframe]
      exact hbacklog

/-- What the experiment leaves of a state: its reader and, for a subscription that
takes serialized messages, what the user callback was given. -/
theorem experiment_step (hs : RouteInvariant task sub s) {delivery : Delivery Message}
    (hroute : Routable sub delivery) :
    (deliverAndRun task .experiment s delivery).sub.reader =
        (deliver task s delivery).sub.reader ∧
      (sub.isSerialized = true →
        (deliverAndRun task .experiment s delivery).handled = s.handled) := by
  obtain ⟨delivered, pendingEvents, hpending, hdeliver, hhandled, hinvariant⟩ :=
    deliver_invariant hs hroute
  obtain ⟨events, -, hrun⟩ := deliverAndRun_eq .experiment hpending hdeliver
  rw [hrun, hdeliver, callbackOf]
  constructor
  · obtain ⟨intraProcess, -, -, hframe⟩ := taskCallbackExperiment_frame hinvariant
    simp only [hframe]
  · intro hserialized
    have hpassed : (taskCallbackExperiment delivered.sub).2 = [] := by
      have hsame := hinvariant.isSerialized.trans hserialized
      simp only [taskCallbackExperiment, executeIntraProcess, hsame, if_true]
      split
      · rfl
      · split
        · split <;> rfl
        · rfl
    simp only [hpassed, List.append_nil, hhandled]

theorem reader_ne_nil_of_dds (hs : RouteInvariant task sub s) (message : Message) :
    (deliverAndRun task .experiment s (.dds message)).sub.reader ≠ [] := by
  rw [(experiment_step hs (by simp [Routable])).1]
  exact push_ne_nil _ _ _

theorem reader_ne_nil_kept (hs : RouteInvariant task sub s) {delivery : Delivery Message}
    (hroute : Routable sub delivery) (hreader : s.sub.reader ≠ []) :
    (deliverAndRun task .experiment s delivery).sub.reader ≠ [] := by
  cases delivery with
  | dds message => exact reader_ne_nil_of_dds hs message
  | intraProcess message =>
      rw [(experiment_step hs hroute).1, deliver]
      split <;> exact hreader

end Lemmas

/-! ## Sequences of deliveries -/

section Sequences

variable {task : TaskId} {sub : Subscription Message}

theorem clean_registered (hfresh : Fresh sub) :
    Clean task sub (registeredState task sub) := by
  have hinner : ∀ inner, (registeredState task sub).sub.intraProcess = some inner →
      inner.directNotifyCallback = some task ∧ Stores inner.buffer [] := by
    intro inner hsome
    obtain ⟨original, horiginal, rfl⟩ := Option.map_eq_some_iff.mp hsome
    exact ⟨rfl, hfresh.stores original horiginal⟩
  constructor
  case invariant =>
    constructor
    case isSerialized => rfl
    case hooked => exact List.mem_cons_self ..
    case intraProcess => simp [registeredState, installHooks, setIntraProcessDirectNotify]
    case direct => exact fun inner hsome => ⟨(hinner inner hsome).1, [], (hinner inner hsome).2⟩
    case samples =>
      intro sample hsample
      have hnone : sample ∈ sub.reader := hsample
      simp [hfresh.reader] at hnone
    case idle => rfl
  case queues =>
    refine ⟨hfresh.reader, fun inner hsome => ?_⟩
    simpa using (isReady_iff (hinner inner hsome).2).not

/-- Served deliveries arrive one after the other. -/
theorem foldl_clean {implementation : Implementation} {deliveries : List (Delivery Message)}
    (hstep : ∀ s delivery, Clean task sub s → delivery ∈ deliveries →
      Clean task sub (deliverAndRun task implementation s delivery) ∧
        (deliverAndRun task implementation s delivery).handled =
          s.handled ++ [delivery.message])
    {s : RouteState Message} (hs : Clean task sub s) :
    Clean task sub (deliveries.foldl (deliverAndRun task implementation) s) ∧
      (deliveries.foldl (deliverAndRun task implementation) s).handled =
        s.handled ++ deliveries.map Delivery.message := by
  induction deliveries generalizing s with
  | nil => simpa using hs
  | cons delivery deliveries ih =>
      obtain ⟨hclean, hhandled⟩ := hstep s delivery hs (List.mem_cons_self ..)
      have hrest := ih (fun s other hs hmem => hstep s other hs (List.mem_cons_of_mem _ hmem))
        hclean
      simpa [hhandled] using hrest

/-- What one delivery brings about and no other undoes is there in the end. -/
theorem foldl_stuck {implementation : Implementation} {stuck : RouteState Message → Prop}
    {bad : Delivery Message}
    (hbad : ∀ s, RouteInvariant task sub s → stuck (deliverAndRun task implementation s bad))
    (hkeep : ∀ s delivery, RouteInvariant task sub s → Routable sub delivery → stuck s →
      stuck (deliverAndRun task implementation s delivery))
    {deliveries : List (Delivery Message)} (hroutes : ∀ d ∈ deliveries, Routable sub d)
    {s : RouteState Message} (hs : RouteInvariant task sub s)
    (hsomewhere : stuck s ∨ bad ∈ deliveries) :
    stuck (deliveries.foldl (deliverAndRun task implementation) s) := by
  induction deliveries generalizing s with
  | nil => simpa using hsomewhere
  | cons delivery deliveries ih =>
      have hroute := hroutes delivery (List.mem_cons_self ..)
      apply ih (fun other hmem => hroutes other (List.mem_cons_of_mem _ hmem))
        (deliverAndRun_invariant hs implementation hroute)
      rcases hsomewhere with hstuck | hmem
      · exact .inl (hkeep s delivery hs hroute hstuck)
      · rcases List.mem_cons.mp hmem with rfl | hlater
        · exact .inl (hbad s hs)
        · exact .inr hlater

theorem foldl_experiment_serialized {deliveries : List (Delivery Message)}
    (hserialized : sub.isSerialized = true) (hroutes : ∀ d ∈ deliveries, Routable sub d)
    {s : RouteState Message} (hs : RouteInvariant task sub s) :
    (deliveries.foldl (deliverAndRun task .experiment) s).handled = s.handled := by
  induction deliveries generalizing s with
  | nil => rfl
  | cons delivery deliveries ih =>
      have hroute := hroutes delivery (List.mem_cons_self ..)
      have hrest := ih (fun other hmem => hroutes other (List.mem_cons_of_mem _ hmem))
        (deliverAndRun_invariant hs .experiment hroute)
      exact hrest.trans ((experiment_step hs hroute).2 hserialized)

end Sequences

/-- Every delivered message reaches the user exactly once, with both queues empty at
the end, exactly if every delivery fills the queue that the callback takes from:
the reader in the library, and in the experiment the intra-process buffer, for a
callback that does not take serialized messages. -/
theorem allDelivered_iff (task : TaskId) (implementation : Implementation)
    (sub : Subscription Message) (hfresh : Fresh sub)
    (deliveries : List (Delivery Message))
    (hroutes : ∀ delivery ∈ deliveries, Routable sub delivery) :
    AllDelivered task implementation sub deliveries ↔
      ∀ delivery ∈ deliveries, TakesWhatIsFilled sub implementation delivery := by
  have hclean : Clean task sub (registeredState task sub) := clean_registered hfresh
  constructor
  · rintro ⟨hhandled, hreader, hintra⟩ delivery hmem
    cases implementation with
    | library =>
        cases delivery with
        | dds message => trivial
        | intraProcess message =>
            have hsome := hroutes _ hmem message rfl
            obtain ⟨inner, hinner, hready⟩ := foldl_stuck
              (fun s hs => intraBacklog_of_intraProcess hs hsome message)
              (fun s delivery hs hroute hback => intraBacklog_kept hs hroute hback)
              hroutes hclean.invariant (.inr hmem)
            simp [hintra inner hinner] at hready
    | experiment =>
        cases delivery with
        | dds message =>
            exact foldl_stuck (fun s hs => reader_ne_nil_of_dds hs message)
              (fun s delivery hs hroute hne => reader_ne_nil_kept hs hroute hne)
              hroutes hclean.invariant (.inr hmem) hreader
        | intraProcess message =>
            by_contra hserialized
            have hnothing := foldl_experiment_serialized
              (Bool.eq_true_of_not_eq_false hserialized) hroutes hclean.invariant
            rw [deliverAll, hnothing] at hhandled
            have hempty : deliveries = [] := List.map_eq_nil_iff.mp hhandled.symm
            simp [hempty] at hmem
  · intro hserved
    have hstep : ∀ s delivery, Clean task sub s → delivery ∈ deliveries →
        Clean task sub (deliverAndRun task implementation s delivery) ∧
          (deliverAndRun task implementation s delivery).handled =
            s.handled ++ [delivery.message] := by
      intro s delivery hs hmem
      have htakes := hserved delivery hmem
      cases implementation with
      | library =>
          cases delivery with
          | dds message => exact clean_library_dds hs message
          | intraProcess message => cases htakes
      | experiment =>
          cases delivery with
          | dds message => cases htakes
          | intraProcess message =>
              exact clean_experiment_intraProcess hs message
                (hroutes _ hmem message rfl) htakes
    obtain ⟨hfinal, hhandled⟩ := foldl_clean hstep hclean
    exact ⟨hhandled, hfinal.queues⟩

/-- A subscription without intra-process communication. -/
def ddsOnly : Subscription ℕ where
  isSerialized := false
  canLoanMessages := false
  intraProcess := none
  reader := []
  readerDepth := 10
  onNewMessageHooks := []

theorem fresh_ddsOnly : Fresh ddsOnly where
  reader := rfl
  stores := by simp [ddsOnly]

theorem allDelivered_ddsOnly : AllDelivered 5 .library ddsOnly [.dds 1, .dds 2] :=
  (allDelivered_iff 5 .library ddsOnly fresh_ddsOnly [.dds 1, .dds 2]
    (by simp [Routable])).mpr (by simp [TakesWhatIsFilled])

/-- The same subscription with an intra-process part. -/
def withIntraProcess : Subscription ℕ :=
  { ddsOnly with
    intraProcess := some
      { buffer := ⟨.sharedPtr, ⟨10, fun _ => none, 9, 0, 0⟩⟩
        callbackTakesShared := true
        history := .other
        depth := 10
        onNewMessageCallback := none
        directNotifyCallback := none
        unreadCount := 0 } }

theorem fresh_withIntraProcess : Fresh withIntraProcess where
  reader := rfl
  stores := by
    rintro inner ⟨⟩
    exact ⟨⟨by decide, by decide, by decide⟩, rfl⟩

/-- Each implementation ignores one of the two routes: the library does not take what
was delivered intra-process, the experiment not what came over the middleware. -/
theorem unserved_delivery_stays :
    (Fresh withIntraProcess ∧ Routable withIntraProcess (.intraProcess 1) ∧
      (deliverAll 5 .library withIntraProcess [.intraProcess 1]).handled = [] ∧
      ¬ AllDelivered 5 .library withIntraProcess [.intraProcess 1]) ∧
    Fresh withIntraProcess ∧ Routable withIntraProcess (.dds 1) ∧
      (deliverAll 5 .experiment withIntraProcess [.dds 1]).handled = [] ∧
      ¬ AllDelivered 5 .experiment withIntraProcess [.dds 1] := by
  have hlibrary :
      (deliverAll 5 .library withIntraProcess [.intraProcess 1]).handled = [] := by decide
  have hexperiment :
      (deliverAll 5 .experiment withIntraProcess [.dds 1]).handled = [] := by decide
  refine ⟨⟨fresh_withIntraProcess, by simp [Routable, withIntraProcess], hlibrary, ?_⟩,
    fresh_withIntraProcess, by simp [Routable], hexperiment, ?_⟩
  · rintro ⟨hhandled, -⟩
    simp [hlibrary] at hhandled
  · rintro ⟨hhandled, -⟩
    simp [hexperiment] at hhandled

end RosRtems.DeliveryRoutes
