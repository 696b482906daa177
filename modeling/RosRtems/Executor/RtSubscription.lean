import RosRtems.Executor.CallbackLoop
import RosRtems.IntraProcess.SubscriptionIntraProcess

/-!
# A subscription with a task of its own

A registered subscription has two queues: the buffer of its intra-process part, if
it uses intra-process communication, and the reader of the middleware.  The hooks of
either queue send the event of the task.  Which queue the task callback takes from
depends on the implementation of the executor.
-/

namespace RosRtems.RtSubscription

open RosRtems.EventSet RosRtems.KeepLast RosRtems.IntraProcess RosRtems.CallbackLoop

variable {Message : Type*}

abbrev TaskId := ℕ

/-- A message in the reader, and whether the publisher that its info names is an
intra-process publisher of this context. -/
structure Sample (Message : Type*) where
  message : Message
  fromIntraProcessPublisher : Bool

/-- What the executor uses of a subscription.  `onNewMessageHooks` lists the tasks
that the callback installed on the reader wakes, from the outermost wrapper in. -/
structure Subscription (Message : Type*) where
  isSerialized : Bool
  canLoanMessages : Bool
  intraProcess : Option (SubscriptionIntraProcess Message TaskId)
  reader : List (Sample Message)
  readerDepth : ℕ
  onNewMessageHooks : List TaskId

section Subscription

variable (sub : Subscription Message)

/-- Nothing happens for a subscription that does not use intra-process
communication. -/
def setIntraProcessDirectNotify (callback : Option TaskId) : Subscription Message :=
  { sub with
    intraProcess :=
      sub.intraProcess.map fun inner => setDirectNotifyCallback inner callback }

/-- The hooks that `register_rt_subscription` installs: the direct notification, and
a wrapper around the callback that the reader has. -/
def installHooks (tid : TaskId) : Subscription Message :=
  { setIntraProcessDirectNotify sub (some tid) with
    onNewMessageHooks := tid :: sub.onNewMessageHooks }

def matchesAnyIntraProcessPublishers (sample : Sample Message) : Bool :=
  sub.intraProcess.isSome && sample.fromIntraProcessPublisher

/-! ## Taking and handling -/

/-- `rcl_take` and its variants: the oldest sample. -/
def rclTake : Option (Sample Message) × Subscription Message :=
  match sub.reader with
  | [] => (none, sub)
  | sample :: rest => (some sample, { sub with reader := rest })

/-- A sample that its publisher also delivers intra-process is taken and ignored. -/
def takeTypeErased : Option (Sample Message) × Subscription Message :=
  match rclTake sub with
  | (some sample, rest) =>
      if matchesAnyIntraProcessPublishers sub sample then (none, rest)
      else (some sample, rest)
  | (none, rest) => (none, rest)

/-- `handle_message` and `handle_loaned_message`: what reaches the user callback. -/
def handleMessage (sample : Sample Message) : List Message :=
  if matchesAnyIntraProcessPublishers sub sample then [] else [sample.message]

def handleSerializedMessage (sample : Sample Message) : List Message :=
  [sample.message]

/-- The task callback of the library: the subscription it leaves, and what it passed
to the user callback. -/
def taskCallback : Subscription Message × List Message :=
  if sub.isSerialized then
    match rclTake sub with
    | (some sample, rest) => (rest, handleSerializedMessage sample)
    | (none, rest) => (rest, [])
  else if sub.canLoanMessages then
    match rclTake sub with
    | (some sample, rest) => (rest, handleMessage sub sample)
    | (none, rest) => (rest, [])
  else
    match takeTypeErased sub with
    | (some sample, rest) => (rest, handleMessage sub sample)
    | (none, rest) => (rest, [])

/-- `execute` of the intra-process part: dispatching to a callback that takes
serialized messages throws. -/
def executeIntraProcess (message : Message) : List Message :=
  if sub.isSerialized then [] else [message]

/-- The task callback of the experiment.  After `is_ready` the take finds a message,
so its error branch is not reached. -/
def taskCallbackExperiment : Subscription Message × List Message :=
  match sub.intraProcess with
  | none => (sub, [])
  | some inner =>
      if isReady inner then
        match takeData inner with
        | .ok (some message, rest, _) =>
            ({ sub with intraProcess := some rest }, executeIntraProcess sub message)
        | .ok (none, rest, _) => ({ sub with intraProcess := some rest }, [])
        | .error _ => (sub, [])
      else (sub, [])

end Subscription

end RosRtems.RtSubscription
