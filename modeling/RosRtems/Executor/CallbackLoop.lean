import RosRtems.Core.EventSet
import RosRtems.Core.Runs

/-!
# The loop of a subscription task

A subscription task receives its event, takes one message from the reader queue
and handles it.  Arrivals append any number of messages and then run the
notification hook, which sends the event once.  The event is a bit: what the
arrivals owe the task beyond that bit is a debt, and no later step pays it off.
-/

namespace RosRtems.CallbackLoop

open RosRtems.EventSet RosRtems.Runs

variable {Message : Type*}

/-- One of the 32 events of a task. -/
abbrev RtemsEvent := Fin 32

/-- `RTEMS_EVENT_1`, the event of a `CallbackTask`. -/
def event1 : RtemsEvent := 1

/-- Where the task is in `run_loop`: in `rtems_event_receive`, in the callback
before the take, or with a taken message. -/
inductive TaskPc (Message : Type*)
  | receiving
  | entered
  | taken (message : Message)

/-- The reader queue, the pending events and the task.  `hooks` holds the counts of
the arrivals whose notification hook has still to run; `accepted` and `handled`
record what entered the queue and what was passed to the subscription. -/
structure LoopState (Message : Type*) where
  queue : List Message
  events : Events RtemsEvent
  pc : TaskPc Message
  hooks : List ℕ
  accepted : List Message
  handled : List Message

/-- A newly registered subscription whose task has reached its receive. -/
def registered : LoopState Message where
  queue := []
  events := noEvents
  pc := .receiving
  hooks := []
  accepted := []
  handled := []

inductive LoopLabel (Message : Type*)
  | arrive (batch : List Message)
  | notify (count : ℕ)
  | receive
  | take
  | handle

/-- The hook sends the event once, whatever count it is given. -/
def notificationHook (_count : ℕ) (events : Events RtemsEvent) : Events RtemsEvent :=
  send event1 events

inductive LoopStep : LoopState Message → LoopLabel Message → LoopState Message → Prop
  | arrive (s : LoopState Message) (batch : List Message) (hbatch : batch ≠ []) :
      LoopStep s (.arrive batch)
        { s with
          queue := s.queue ++ batch
          accepted := s.accepted ++ batch
          hooks := s.hooks ++ [batch.length] }
  | notify (s : LoopState Message) (count : ℕ) (before after : List ℕ)
      (hhooks : s.hooks = before ++ count :: after) :
      LoopStep s (.notify count)
        { s with events := notificationHook count s.events, hooks := before ++ after }
  | receive (s : LoopState Message) (events : Events RtemsEvent)
      (hpc : s.pc = .receiving) (hreceive : receive event1 s.events = some events) :
      LoopStep s .receive { s with events := events, pc := .entered }
  | take (s : LoopState Message) (message : Message) (rest : List Message)
      (hpc : s.pc = .entered) (hqueue : s.queue = message :: rest) :
      LoopStep s .take { s with queue := rest, pc := .taken message }
  | takeNothing (s : LoopState Message) (hpc : s.pc = .entered) (hqueue : s.queue = []) :
      LoopStep s .take { s with pc := .receiving }
  | handle (s : LoopState Message) (message : Message) (hpc : s.pc = .taken message) :
      LoopStep s .handle
        { s with pc := .receiving, handled := s.handled ++ [message] }

/-! ## Wake-ups and debt -/

/-- The message the task holds. -/
def TaskPc.inHand : TaskPc Message → List Message
  | .taken message => [message]
  | _ => []

/-- The wake-up the task has received and not yet used. -/
def TaskPc.wakeUps : TaskPc Message → ℕ
  | .entered => 1
  | _ => 0

/-- The wake-ups under way: hooks still to run, the pending event, and the one the
task has received. -/
def LoopState.wakeUps (s : LoopState Message) : ℕ :=
  s.hooks.length + (s.events.pending event1).toNat + s.pc.wakeUps

/-- Every accepted message is in exactly one place, in the order of arrival, and
there are never more wake-ups than messages. -/
structure LoopInvariant (s : LoopState Message) : Prop where
  order : s.accepted = s.handled ++ s.pc.inHand ++ s.queue
  covered : s.wakeUps ≤ s.queue.length

/-- Each message of the queue has a wake-up of its own. -/
def Balanced (s : LoopState Message) : Prop := s.queue.length ≤ s.wakeUps

/-- The task is blocked, its event is not pending, and no hook has still to run. -/
structure Settled (s : LoopState Message) : Prop where
  blocked : s.pc = .receiving
  notPending : s.events.pending event1 = false
  hooks : s.hooks = []

/-- Where the task is blocked for good, nothing is left in the queue, and everything
accepted has been handled, once and in order. -/
def NoneStranded (s : LoopState Message) : Prop :=
  Settled s → s.queue = [] ∧ s.handled = s.accepted

/-- The arrival carries one message; the hook finds the event not pending. -/
def WakesOncePerMessage (s : LoopState Message) : LoopLabel Message → Prop
  | .arrive batch => batch.length = 1
  | .notify _ => s.events.pending event1 = false
  | _ => True

section Steps

variable {s s' : LoopState Message} {label : LoopLabel Message}

/-- A step in which each message brings its own wake-up keeps the balance, and any
other step loses wake-ups. -/
theorem step_wakeUps (hs : LoopInvariant s) (hstep : LoopStep s label s') :
    s'.wakeUps + s.queue.length ≤ s.wakeUps + s'.queue.length ∧
      (WakesOncePerMessage s label ↔
        s'.wakeUps + s.queue.length = s.wakeUps + s'.queue.length) := by
  cases hstep with
  | arrive batch hbatch =>
      have hlength := List.length_pos_iff.mpr hbatch
      simp only [LoopState.wakeUps, WakesOncePerMessage, List.length_append,
        List.length_cons, List.length_nil]
      omega
  | notify count before after hhooks =>
      cases hpending : s.events.pending event1 with
      | false =>
          simp [LoopState.wakeUps, WakesOncePerMessage, notificationHook, hhooks, hpending]
          omega
      | true =>
          simp [LoopState.wakeUps, WakesOncePerMessage, notificationHook, hhooks, hpending]
  | receive events hpc hreceive =>
      obtain ⟨hpending, hcleared, -⟩ := receive_eq_some_iff.mp hreceive
      simp [LoopState.wakeUps, WakesOncePerMessage, TaskPc.wakeUps, hpc, hpending,
        hcleared]
  | take message rest hpc hqueue =>
      simp [LoopState.wakeUps, WakesOncePerMessage, TaskPc.wakeUps, hpc, hqueue]
      omega
  | takeNothing hpc hqueue =>
      have hcovered := hs.covered
      simp [LoopState.wakeUps, TaskPc.wakeUps, hpc, hqueue] at hcovered
  | handle message hpc =>
      simp [LoopState.wakeUps, WakesOncePerMessage, TaskPc.wakeUps, hpc]

theorem step_order (hs : LoopInvariant s) (hstep : LoopStep s label s') :
    s'.accepted = s'.handled ++ s'.pc.inHand ++ s'.queue := by
  have horder := hs.order
  cases hstep with
  | arrive batch _ => simp [horder]
  | notify count before after _ => exact horder
  | receive events hpc _ => simpa [TaskPc.inHand, hpc] using horder
  | take message rest hpc hqueue => simpa [TaskPc.inHand, hpc, hqueue] using horder
  | takeNothing hpc _ => simpa [TaskPc.inHand, hpc] using horder
  | handle message hpc => simpa [TaskPc.inHand, hpc] using horder

end Steps

theorem loopInvariant_step (s : LoopState Message) (label : LoopLabel Message)
    (s' : LoopState Message) (hs : LoopInvariant s) (hstep : LoopStep s label s') :
    LoopInvariant s' := by
  refine ⟨step_order hs hstep, ?_⟩
  have hwakeUps := (step_wakeUps hs hstep).1
  have hcovered := hs.covered
  omega

theorem loopInvariant_registered : LoopInvariant (registered : LoopState Message) := by
  constructor <;> simp [registered, TaskPc.inHand, LoopState.wakeUps, TaskPc.wakeUps]

theorem noneStranded_of_balanced (s : LoopState Message)
    (hs : LoopInvariant s ∧ Balanced s) : NoneStranded s := by
  intro hsettled
  have hbalanced := hs.2
  have horder := hs.1.order
  simp only [Balanced, LoopState.wakeUps, TaskPc.wakeUps, hsettled.blocked,
    hsettled.notPending, hsettled.hooks, List.length_nil, Bool.toNat_false,
    Nat.le_zero, List.length_eq_zero_iff, Nat.add_zero] at hbalanced
  refine ⟨hbalanced, ?_⟩
  simp [horder, hsettled.blocked, hbalanced, TaskPc.inHand]

theorem balanced_of_empty (s : LoopState Message) (hqueue : s.queue = []) :
    Balanced s := by
  simp [Balanced, hqueue]

theorem balanced_step (s : LoopState Message) (label : LoopLabel Message)
    (s' : LoopState Message) (hs : LoopInvariant s ∧ Balanced s)
    (hwakes : WakesOncePerMessage s label) (hstep : LoopStep s label s') :
    LoopInvariant s' ∧ Balanced s' := by
  refine ⟨loopInvariant_step s label s' hs.1 hstep, ?_⟩
  have hequal := (step_wakeUps hs.1 hstep).2.mp hwakes
  have hbalanced := hs.2
  simp only [Balanced] at *
  omega

/-- A message that has lost its wake-up never gets it back. -/
theorem balanced_of_step (s : LoopState Message) (label : LoopLabel Message)
    (s' : LoopState Message) (hs : LoopInvariant s) (hstep : LoopStep s label s')
    (hbalanced : Balanced s') : Balanced s := by
  have hwakeUps := (step_wakeUps hs hstep).1
  simp only [Balanced] at *
  omega

theorem wakesOncePerMessage_of_balanced (s : LoopState Message)
    (label : LoopLabel Message) (s' : LoopState Message)
    (hs : LoopInvariant s ∧ Balanced s) (hstep : LoopStep s label s')
    (hbalanced : Balanced s') : WakesOncePerMessage s label := by
  apply (step_wakeUps hs.1 hstep).2.mpr
  have hbefore := hs.2
  have hcovered := hs.1.covered
  have hafter := (loopInvariant_step s label s' hs.1 hstep).covered
  simp only [Balanced] at *
  omega

/-! ## No message is stranded -/

/-- Nothing is stranded in a run in which every message brings its own wake-up, and
where the task ends up blocked for good, in no other run. -/
theorem noneStranded_iff_wakesOncePerMessage
    (trace : List (Move (LoopState Message) (LoopLabel Message)))
    (finish : LoopState Message) (hrun : Run LoopStep registered trace finish) :
    (Admitted WakesOncePerMessage trace → Throughout NoneStranded registered trace) ∧
      (Settled finish →
        (Throughout NoneStranded registered trace ↔
          Admitted WakesOncePerMessage trace)) := by
  have hstart : LoopInvariant (registered : LoopState Message) ∧
      Balanced (registered : LoopState Message) :=
    ⟨loopInvariant_registered, balanced_of_empty _ rfl⟩
  have hforward : Admitted WakesOncePerMessage trace →
      Throughout NoneStranded registered trace :=
    hrun.throughout noneStranded_of_balanced balanced_step hstart
  refine ⟨hforward, fun hsettled => ⟨fun hnone => ?_, hforward⟩⟩
  have hqueue := (hrun.finish_of_throughout hnone hsettled).1
  have hbalanced : Throughout Balanced registered trace :=
    hrun.throughout_of_finish
      (fun s label s' hs hstep _ => balanced_of_step s label s' hs hstep)
      loopInvariant_step loopInvariant_registered hnone (balanced_of_empty finish hqueue)
  exact (hrun.throughout_iff_admitted (fun _ hs => hs.2) balanced_step
    wakesOncePerMessage_of_balanced hstart).mp hbalanced

/-- The second message arrives when the task has received the event of the first one. -/
theorem noneStranded_two_messages : ∃ trace finish,
    Run LoopStep (registered : LoopState ℕ) trace finish ∧ Settled finish ∧
      finish.handled = [7, 8] ∧ Throughout NoneStranded registered trace := by
  have hrun : ∃ trace finish, Run LoopStep (registered : LoopState ℕ) trace finish ∧
      Admitted WakesOncePerMessage trace ∧ Settled finish ∧ finish.handled = [7, 8] := by
    refine ⟨_, _,
      .cons (.arrive _ [7] (by simp)) <|
      .cons (.notify _ 1 [] [] rfl) <|
      .cons (.receive _ _ rfl rfl) <|
      .cons (.arrive _ [8] (by simp)) <|
      .cons (.take _ 7 [8] rfl rfl) <|
      .cons (.notify _ 1 [] [] rfl) <|
      .cons (.handle _ 7 rfl) <|
      .cons (.receive _ _ rfl rfl) <|
      .cons (.take _ 8 [] rfl rfl) <|
      .cons (.handle _ 8 rfl) <|
      .nil _, ?_, ⟨rfl, rfl, rfl⟩, rfl⟩
    exact .cons rfl <| .cons rfl <| .cons trivial <| .cons rfl <| .cons trivial <|
      .cons rfl <| .cons trivial <| .cons trivial <| .cons trivial <| .cons trivial <| .nil _
  obtain ⟨trace, finish, hrun, hwakes, hsettled, hhandled⟩ := hrun
  exact ⟨trace, finish, hrun, hsettled, hhandled,
    (noneStranded_iff_wakesOncePerMessage trace finish hrun).1 hwakes⟩

/-- Two messages arrive before the task runs: the second send is lost in the first,
and the second message stays behind. -/
theorem merged_wakeUp_strands : ∃ trace finish,
    Run LoopStep (registered : LoopState ℕ) trace finish ∧ Settled finish ∧
      finish.queue = [2] ∧ finish.handled = [1] ∧
      ¬ Throughout NoneStranded registered trace := by
  have hrun : ∃ trace finish, Run LoopStep (registered : LoopState ℕ) trace finish ∧
      Settled finish ∧ finish.queue = [2] ∧ finish.handled = [1] := by
    refine ⟨_, _,
      .cons (.arrive _ [1] (by simp)) <|
      .cons (.notify _ 1 [] [] rfl) <|
      .cons (.arrive _ [2] (by simp)) <|
      .cons (.notify _ 1 [] [] rfl) <|
      .cons (.receive _ _ rfl rfl) <|
      .cons (.take _ 1 [2] rfl rfl) <|
      .cons (.handle _ 1 rfl) <|
      .nil _, ⟨rfl, rfl, rfl⟩, rfl, rfl⟩
  obtain ⟨trace, finish, hrun, hsettled, hqueue, hhandled⟩ := hrun
  refine ⟨trace, finish, hrun, hsettled, hqueue, hhandled, fun hnone => ?_⟩
  have hempty := (hrun.finish_of_throughout hnone hsettled).1
  simp [hqueue] at hempty

end RosRtems.CallbackLoop
