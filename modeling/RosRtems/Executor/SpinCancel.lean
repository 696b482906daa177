import RosRtems.Driver.TimerDriver
import RosRtems.Executor.CallbackLoop

/-!
# Cancelling a spin

`spin` claims the flag, starts the executor, stores the id of its task and only then
waits for the shutdown event; `cancel` clears the flag and sends the event to the
stored id, if there is one.  The id outlives the spin that stored it, and the event
stays pending until some spin receives it.  The module follows one task that spins
any number of times and any number of calls of `cancel`, step by step.
-/

namespace RosRtems.SpinCancel

open RosRtems.EventSet RosRtems.Runs RosRtems.TimerDriver RosRtems.CallbackLoop

/-- `SHUTDOWN_EVENT`. -/
def shutdownEvent : RtemsEvent := ⟨0, by decide⟩

/-- The id of a task that exists. -/
abbrev TaskSelf := { id : RtemsId // id ≠ rtemsIdNone }

/-- `rtems_event_send` to the task with this id. -/
def sendTo (id : RtemsId) (event : RtemsEvent) (events : RtemsId → Events RtemsEvent) :
    RtemsId → Events RtemsEvent :=
  Function.update events id (send event (events id))

/-- Where the spinning task is: outside `spin`, between the exchange and the store of
its id, at `rtems_event_receive`, where it is blocked while the event is not pending,
or past it.  `cause` is the call of `cancel` that had raised the event. -/
inductive SpinPc
  | outside
  | starting
  | receiving
  | received (cause : Option ℕ)
  deriving DecidableEq

/-- Where a call of `cancel` is. -/
inductive CancelPc
  | notCalled
  | called
  | cleared
  | sending
  | returned
  deriving DecidableEq

/-- The executor, the events of the tasks, and the calls of `cancel`.  `round` counts
the spins, `during` holds the spin that was in progress when a call was made, and
`raisedBy` the call whose send made the shutdown event pending. -/
structure SpinState where
  spinning : Bool
  spinTaskId : RtemsId
  events : RtemsId → Events RtemsEvent
  pc : SpinPc
  calls : ℕ → CancelPc
  round : ℕ
  during : ℕ → Option ℕ
  raisedBy : Option ℕ

/-- What the constructor leaves behind. -/
def constructed : SpinState where
  spinning := false
  spinTaskId := rtemsIdNone
  events := fun _ => noEvents
  pc := .outside
  calls := fun _ => .notCalled
  round := 0
  during := fun _ => none
  raisedBy := none

inductive SpinLabel
  | exchange
  | storeId
  | receive
  | leave
  | call (c : ℕ)
  | clear (c : ℕ)
  | test (c : ℕ)
  | send (c : ℕ)
  deriving DecidableEq

/-- The spin in progress. -/
def SpinState.current (s : SpinState) : Option ℕ :=
  if s.pc = .outside then none else some s.round

section Steps

variable (spinner : TaskSelf)

def SpinState.Pending (s : SpinState) : Prop :=
  (s.events spinner).pending shutdownEvent = true

inductive SpinStep : SpinState → SpinLabel → SpinState → Prop
  | exchange (s : SpinState) (hpc : s.pc = .outside) (hspinning : s.spinning = false) :
      SpinStep s .exchange
        { s with spinning := true, pc := .starting, round := s.round + 1 }
  -- `spin() called while already spinning`
  | refused (s : SpinState) (hpc : s.pc = .outside) (hspinning : s.spinning = true) :
      SpinStep s .exchange s
  | storeId (s : SpinState) (hpc : s.pc = .starting) :
      SpinStep s .storeId { s with spinTaskId := spinner, pc := .receiving }
  | receive (s : SpinState) (rest : Events RtemsEvent) (hpc : s.pc = .receiving)
      (hreceive : receive shutdownEvent (s.events spinner) = some rest) :
      SpinStep s .receive
        { s with
          events := Function.update s.events spinner rest
          pc := .received s.raisedBy
          raisedBy := none }
  | leave (s : SpinState) (cause : Option ℕ) (hpc : s.pc = .received cause) :
      SpinStep s .leave { s with spinning := false, pc := .outside }
  | call (s : SpinState) (c : ℕ) (hcall : s.calls c = .notCalled) :
      SpinStep s (.call c)
        { s with
          calls := Function.update s.calls c .called
          during := Function.update s.during c s.current }
  | clear (s : SpinState) (c : ℕ) (hcall : s.calls c = .called) :
      SpinStep s (.clear c)
        { s with calls := Function.update s.calls c .cleared, spinning := false }
  | testSet (s : SpinState) (c : ℕ) (hcall : s.calls c = .cleared)
      (hset : s.spinTaskId ≠ rtemsIdNone) :
      SpinStep s (.test c) { s with calls := Function.update s.calls c .sending }
  | testUnset (s : SpinState) (c : ℕ) (hcall : s.calls c = .cleared)
      (hunset : s.spinTaskId = rtemsIdNone) :
      SpinStep s (.test c) { s with calls := Function.update s.calls c .returned }
  | send (s : SpinState) (c : ℕ) (hcall : s.calls c = .sending) :
      SpinStep s (.send c)
        { s with
          calls := Function.update s.calls c .returned
          events := sendTo s.spinTaskId shutdownEvent s.events
          raisedBy :=
            if (s.events spinner).pending shutdownEvent then s.raisedBy else some c }

/-! ## What the calls know -/

/-- The id is the one of the spinning task once a spin has stored it, and nobody sends
before; the call that raised the pending event has returned. -/
structure SpinInvariant (s : SpinState) : Prop where
  ids : s.spinTaskId = rtemsIdNone ∨ s.spinTaskId = spinner
  receiving : s.pc = .receiving → s.spinTaskId = spinner
  unset : s.spinTaskId = rtemsIdNone → ¬ s.Pending spinner
  sending : ∀ c, s.calls c = .sending → s.spinTaskId = spinner
  raised : ∀ c, s.raisedBy = some c → s.calls c = .returned
  caused : ∀ c, s.pc = .received (some c) → s.calls c = .returned
  rounds : ∀ c r, s.during c = some r → r ≤ s.round

/-- A spin that waits with no event pending is not the spin of a call that returned. -/
def NoneLost (s : SpinState) : Prop :=
  s.pc = .receiving → ¬ s.Pending spinner →
    ∀ c, s.calls c = .returned → s.during c ≠ some s.round

/-- The call belongs to the spin that was last started. -/
def SpinState.OwnCall (s : SpinState) (cause : Option ℕ) : Prop :=
  ∃ c, cause = some c ∧ s.during c = some s.round

/-- The spin returned from its receive because of one of its own calls. -/
def NoneLeaked (s : SpinState) : Prop :=
  ∀ cause, s.pc = .received cause → s.OwnCall cause

def CancelsKept (s : SpinState) : Prop := NoneLost spinner s ∧ NoneLeaked s

/-- A spin is in progress and has not returned from its receive. -/
def SpinState.Awaits (s : SpinState) : Prop := s.pc = .starting ∨ s.pc = .receiving

/-- What the code relies on: the first spin stores its id before any call made during
it has returned, and a call that raises the event does so for the spin during which it
was made, before that spin has returned from its receive. -/
def Timely (s : SpinState) : SpinLabel → Prop
  | .storeId => s.spinTaskId = rtemsIdNone →
      ∀ c, s.calls c = .returned → s.during c ≠ some s.round
  | .send c => s.Pending spinner ∨ s.Awaits ∧ s.during c = some s.round
  | _ => True

/-- The event is pending only for the spin that awaits it. -/
def Attributed (s : SpinState) : Prop :=
  s.Pending spinner → s.Awaits ∧ s.OwnCall s.raisedBy

/-- Once the id is stored, the calls made during a spin that still awaits its event
have raised it when they return. -/
def Heard (s : SpinState) : Prop :=
  s.spinTaskId ≠ rtemsIdNone → s.Awaits →
    ∀ c, s.calls c = .returned → s.during c = some s.round → s.Pending spinner

end Steps

section Rules

variable {spinner : TaskSelf} {s s' : SpinState} {label : SpinLabel}

theorem sendTo_pending (hself : s.spinTaskId = spinner) :
    (sendTo s.spinTaskId shutdownEvent s.events spinner).pending shutdownEvent = true := by
  simp [sendTo, hself]

theorem current_le {r : ℕ} (hcurrent : s.current = some r) : r ≤ s.round := by
  simp only [SpinState.current] at hcurrent
  split at hcurrent
  · cases hcurrent
  · simp_all

theorem spinInvariant_constructed : SpinInvariant spinner constructed := by
  constructor <;> simp [constructed, SpinState.Pending]

/-- A call that has not returned may move on, but sends only where the id is stored. -/
theorem SpinInvariant.moveCall (hs : SpinInvariant spinner s) {c : ℕ}
    (hcall : s.calls c ≠ .returned) (pc : CancelPc)
    (hsending : pc = .sending → s.spinTaskId = spinner) (spinning : Bool) :
    SpinInvariant spinner
      { s with calls := Function.update s.calls c pc, spinning := spinning } := by
  have hreturned : ∀ other, s.calls other = .returned →
      Function.update s.calls c pc other = .returned := by
    intro other hother
    rw [Function.update_of_ne, hother]
    rintro rfl
    exact hcall hother
  refine ⟨hs.ids, hs.receiving, hs.unset, fun other hother => ?_, fun other hraised => ?_,
    fun other hcaused => ?_, hs.rounds⟩
  · by_cases hsame : other = c
    · subst hsame
      exact hsending (by simpa using hother)
    · exact hs.sending other (by simpa [hsame] using hother)
  · exact hreturned other (hs.raised other hraised)
  · exact hreturned other (hs.caused other hcaused)

theorem spinInvariant_step (s : SpinState) (label : SpinLabel) (s' : SpinState)
    (hs : SpinInvariant spinner s) (hstep : SpinStep spinner s label s') :
    SpinInvariant spinner s' := by
  have hself := spinner.2
  cases hstep with
  | exchange hpc _ =>
      exact ⟨hs.ids, by simp, hs.unset, hs.sending, hs.raised, by simp,
        fun c r hduring => (hs.rounds c r hduring).trans (Nat.le_succ _)⟩
  | refused _ _ => exact hs
  | storeId hpc =>
      exact ⟨.inr rfl, fun _ => rfl, fun hnone => absurd hnone hself, fun _ _ => rfl,
        hs.raised, by simp, hs.rounds⟩
  | receive rest hpc hreceive =>
      have hcleared := (receive_eq_some_iff.mp hreceive).2.1
      refine ⟨hs.ids, by simp, ?_, hs.sending, by simp, ?_, hs.rounds⟩
      · simp [SpinState.Pending, hcleared]
      · intro c hcause
        exact hs.raised c (SpinPc.received.inj hcause)
  | leave cause hpc =>
      exact ⟨hs.ids, by simp, hs.unset, hs.sending, hs.raised, by simp, hs.rounds⟩
  | call c hcall =>
      have hopen : s.calls c ≠ .returned := by simp [hcall]
      have hmoved := hs.moveCall hopen .called (by simp) s.spinning
      refine ⟨hs.ids, hs.receiving, hs.unset, hmoved.sending, hmoved.raised, hmoved.caused,
        fun other r hduring => ?_⟩
      simp only [Function.update_apply] at hduring
      split at hduring
      · exact current_le hduring
      · exact hs.rounds other r hduring
  | clear c hcall => exact hs.moveCall (by simp [hcall]) .cleared (by simp) false
  | testSet c hcall hset =>
      exact hs.moveCall (by simp [hcall]) .sending
        (fun _ => hs.ids.resolve_left hset) s.spinning
  | testUnset c hcall _ => exact hs.moveCall (by simp [hcall]) .returned (by simp) s.spinning
  | send c hcall =>
      have hsent := hs.sending c hcall
      have hopen : s.calls c ≠ .returned := by simp [hcall]
      have hmoved := hs.moveCall hopen .returned (by simp) s.spinning
      refine ⟨hs.ids, hs.receiving, fun hnone => ?_, hmoved.sending, fun other hraised => ?_,
        hmoved.caused, hs.rounds⟩
      · exact absurd (hnone.symm.trans hsent).symm hself
      · split at hraised
        · exact hmoved.raised other hraised
        · cases hraised
          exact Function.update_self ..

/-- A step that does not let a call return finds those that have returned already. -/
theorem returned_of_update {c other : ℕ} {pc : CancelPc} (hpc : pc ≠ .returned)
    (hother : Function.update s.calls c pc other = .returned) :
    s.calls other = .returned := by
  by_cases hsame : other = c
  · subst hsame
    exact absurd (by simpa using hother) hpc
  · simpa [hsame] using hother

/-- A new call is not one of those that have returned. -/
theorem during_of_returned {c other : ℕ} (hcall : s.calls c = .notCalled)
    (hother : s.calls other = .returned) :
    Function.update s.during c s.current other = s.during other := by
  rw [Function.update_of_ne]
  rintro rfl
  simp [hcall] at hother

theorem pending_of_receive {rest : Events RtemsEvent}
    (hreceive : receive shutdownEvent (s.events spinner) = some rest) : s.Pending spinner :=
  (receive_eq_some_iff.mp hreceive).1

theorem not_pending_after_receive {rest : Events RtemsEvent}
    (hreceive : receive shutdownEvent (s.events spinner) = some rest) :
    ¬ (Function.update s.events spinner rest spinner).pending shutdownEvent = true := by
  simp [(receive_eq_some_iff.mp hreceive).2.1]

theorem noneLost_of_heard (hs : SpinInvariant spinner s) (hheard : Heard spinner s) :
    NoneLost spinner s := by
  intro hpc hnot c hcall hduring
  have hset : s.spinTaskId ≠ rtemsIdNone := by
    rw [hs.receiving hpc]
    exact spinner.2
  exact hnot (hheard hset (.inr hpc) c hcall hduring)

theorem heard_step (hs : SpinInvariant spinner s) (hheard : Heard spinner s)
    (htimely : Timely spinner s label) (hstep : SpinStep spinner s label s') :
    Heard spinner s' := by
  cases hstep with
  | exchange hpc _ =>
      intro _ _ c _ hduring
      exact absurd (hs.rounds c _ hduring) (Nat.not_succ_le_self _)
  | refused _ _ => exact hheard
  | storeId hpc =>
      intro _ _ c hcall hduring
      by_cases hunset : s.spinTaskId = rtemsIdNone
      · exact absurd hduring (htimely hunset c hcall)
      · exact hheard hunset (.inl hpc) c hcall hduring
  | receive rest hpc hreceive => rintro _ (hpc | hpc) <;> cases hpc
  | leave cause hpc => rintro _ (hpc | hpc) <;> cases hpc
  | call c hcall =>
      intro hset hawaits other hother hduring
      have hreturned := returned_of_update (by simp) hother
      apply hheard hset hawaits other hreturned
      exact (during_of_returned hcall hreturned).symm.trans hduring
  | clear c hcall =>
      intro hset hawaits other hother hduring
      have hreturned := returned_of_update (by simp) hother
      exact hheard hset hawaits other hreturned hduring
  | testSet c hcall _ =>
      intro hset hawaits other hother hduring
      have hreturned := returned_of_update (by simp) hother
      exact hheard hset hawaits other hreturned hduring
  | testUnset c _ hunset =>
      intro hset
      exact absurd hunset hset
  | send c hcall =>
      intro _ _ other _ _
      exact sendTo_pending (hs.sending c hcall)

theorem attributed_step (hs : SpinInvariant spinner s) (hown : Attributed spinner s)
    (htimely : Timely spinner s label) (hstep : SpinStep spinner s label s') :
    Attributed spinner s' := by
  cases hstep with
  | exchange hpc _ =>
      intro hpending
      rcases (hown hpending).1 with hawaits | hawaits <;> simp [hpc] at hawaits
  | refused _ _ => exact hown
  | storeId hpc =>
      intro hpending
      exact ⟨.inr rfl, (hown hpending).2⟩
  | receive rest hpc hreceive =>
      intro hpending
      exact absurd hpending (not_pending_after_receive hreceive)
  | leave cause hpc =>
      intro hpending
      rcases (hown hpending).1 with hawaits | hawaits <;> simp [hpc] at hawaits
  | call c hcall =>
      intro hpending
      obtain ⟨hawaits, other, hraised, hduring⟩ := hown hpending
      refine ⟨hawaits, other, hraised, ?_⟩
      exact (during_of_returned hcall (hs.raised other hraised)).trans hduring
  | clear c hcall => exact hown
  | testSet c hcall _ => exact hown
  | testUnset c hcall _ => exact hown
  | send c hcall =>
      intro _
      by_cases hpending : s.Pending spinner
      · obtain ⟨hawaits, other, hraised, hduring⟩ := hown hpending
        exact ⟨hawaits, other, (if_pos hpending).trans hraised, hduring⟩
      · obtain ⟨hawaits, hduring⟩ := htimely.resolve_left hpending
        exact ⟨hawaits, c, if_neg hpending, hduring⟩

theorem noneLeaked_step (hs : SpinInvariant spinner s) (hown : Attributed spinner s)
    (hnone : NoneLeaked s) (hstep : SpinStep spinner s label s') : NoneLeaked s' := by
  intro cause hcause
  cases hstep with
  | exchange _ _ => cases hcause
  | refused _ _ => exact hnone cause hcause
  | storeId _ => cases hcause
  | receive rest hpc hreceive =>
      cases hcause
      exact (hown (pending_of_receive hreceive)).2
  | leave _ _ => cases hcause
  | call c hcall =>
      obtain ⟨other, rfl, hduring⟩ := hnone cause hcause
      refine ⟨other, rfl, ?_⟩
      exact (during_of_returned hcall (hs.caused other hcause)).trans hduring
  | clear c hcall => exact hnone cause hcause
  | testSet c hcall _ => exact hnone cause hcause
  | testUnset c hcall _ => exact hnone cause hcause
  | send c hcall => exact hnone cause hcause

/-- An event that is pending for no spin stays so until some spin returns for it. -/
theorem attributed_of_step (hs : SpinInvariant spinner s)
    (hstep : SpinStep spinner s label s') (hnone : NoneLeaked s')
    (hown : Attributed spinner s') : Attributed spinner s := by
  intro hpending
  cases hstep with
  | exchange hpc _ =>
      obtain ⟨-, other, -, hduring⟩ := hown hpending
      exact absurd (hs.rounds other _ hduring) (Nat.not_succ_le_self _)
  | refused _ _ => exact hown hpending
  | storeId hpc => exact ⟨.inl hpc, (hown hpending).2⟩
  | receive rest hpc hreceive => exact ⟨.inr hpc, hnone s.raisedBy rfl⟩
  | leave cause hpc => rcases (hown hpending).1 with hawaits | hawaits <;> cases hawaits
  | call c hcall =>
      obtain ⟨hawaits, other, hraised, hduring⟩ := hown hpending
      refine ⟨hawaits, other, hraised, ?_⟩
      exact (during_of_returned hcall (hs.raised other hraised)).symm.trans hduring
  | clear c hcall => exact hown hpending
  | testSet c hcall _ => exact hown hpending
  | testUnset c hcall _ => exact hown hpending
  | send c hcall =>
      obtain ⟨hawaits, other, hraised, hduring⟩ :=
        hown (sendTo_pending (hs.sending c hcall))
      exact ⟨hawaits, other, (if_pos hpending).symm.trans hraised, hduring⟩

/-- The converse of the two step lemmas: what kept a step's target sound was that the
step came in time. -/
theorem timely_of_step (hs : SpinInvariant spinner s) (hstep : SpinStep spinner s label s')
    (hlost : NoneLost spinner s') (hown : Attributed spinner s') :
    Timely spinner s label := by
  cases hstep with
  | storeId hpc =>
      intro hunset c hcall
      exact hlost rfl (hs.unset hunset) c hcall
  | send c hcall =>
      by_cases hpending : s.Pending spinner
      · exact .inl hpending
      · obtain ⟨hawaits, other, hraised, hduring⟩ :=
          hown (sendTo_pending (hs.sending c hcall))
        have hsame : some c = some other := (if_neg hpending).symm.trans hraised
        cases hsame
        exact .inr ⟨hawaits, hduring⟩
  | _ => trivial

/-! ## Runs -/

/-- Nothing is lost or leaked so far, and nothing pending will leak later. -/
def Sound (spinner : TaskSelf) (s : SpinState) : Prop :=
  CancelsKept spinner s ∧ Attributed spinner s

structure SoundInvariant (spinner : TaskSelf) (s : SpinState) : Prop where
  spin : SpinInvariant spinner s
  heard : Heard spinner s
  leaked : NoneLeaked s
  attributed : Attributed spinner s

end Rules

theorem soundInvariant_constructed (spinner : TaskSelf) :
    SoundInvariant spinner constructed where
  spin := spinInvariant_constructed
  heard := by simp [Heard, constructed]
  leaked := by simp [NoneLeaked, constructed]
  attributed := by simp [Attributed, SpinState.Pending, constructed]

theorem sound_of_invariant (spinner : TaskSelf) (s : SpinState)
    (hs : SoundInvariant spinner s) : Sound spinner s :=
  ⟨⟨noneLost_of_heard hs.spin hs.heard, hs.leaked⟩, hs.attributed⟩

theorem soundInvariant_step (spinner : TaskSelf) (s : SpinState) (label : SpinLabel)
    (s' : SpinState) (hs : SoundInvariant spinner s) (htimely : Timely spinner s label)
    (hstep : SpinStep spinner s label s') : SoundInvariant spinner s' where
  spin := spinInvariant_step s label s' hs.spin hstep
  heard := heard_step hs.spin hs.heard htimely hstep
  leaked := noneLeaked_step hs.spin hs.attributed hs.leaked hstep
  attributed := attributed_step hs.spin hs.attributed htimely hstep

theorem sound_throughout_iff (spinner : TaskSelf) (trace : List (Move SpinState SpinLabel))
    (finish : SpinState) (hrun : Run (SpinStep spinner) constructed trace finish) :
    Throughout (Sound spinner) constructed trace ↔ Admitted (Timely spinner) trace :=
  hrun.throughout_iff_admitted (sound_of_invariant spinner) (soundInvariant_step spinner)
    (fun _ _ _ hs hstep hsound =>
      timely_of_step hs.spin hstep hsound.1.1 hsound.2)
    (soundInvariant_constructed spinner)

/-- Cancels are kept in every run whose steps are timely, and in no other run that
leaves no event behind. -/
theorem cancelsKept_iff_timely (spinner : TaskSelf)
    (trace : List (Move SpinState SpinLabel)) (finish : SpinState)
    (hrun : Run (SpinStep spinner) constructed trace finish) :
    (Admitted (Timely spinner) trace →
      Throughout (CancelsKept spinner) constructed trace) ∧
    (¬ finish.Pending spinner →
      (Throughout (CancelsKept spinner) constructed trace ↔
        Admitted (Timely spinner) trace)) := by
  have hsound := sound_throughout_iff spinner trace finish hrun
  have hforward : Admitted (Timely spinner) trace →
      Throughout (CancelsKept spinner) constructed trace :=
    fun htimely => (hsound.mpr htimely).mono fun _ hs => hs.1
  refine ⟨hforward, fun hnot => ⟨fun hkept => ?_, hforward⟩⟩
  have hattributed : Throughout (Attributed spinner) constructed trace :=
    hrun.throughout_of_finish
      (fun _ _ _ hs hstep hkept hown => attributed_of_step hs hstep hkept.2 hown)
      spinInvariant_step spinInvariant_constructed hkept
      fun hpending => absurd hpending hnot
  exact hsound.mp (hkept.and hattributed)

/-- Two spins in a row, one cancelled while it waits, the other while it starts. -/
theorem cancelsKept_two_spins : ∃ trace finish,
    Run (SpinStep ⟨3, by decide⟩) constructed trace finish ∧ finish.round = 2 ∧
      finish.pc = .received (some 1) ∧
      Throughout (CancelsKept ⟨3, by decide⟩) constructed trace := by
  have hrun : ∃ trace finish, Run (SpinStep ⟨3, by decide⟩) constructed trace finish ∧
      Admitted (Timely ⟨3, by decide⟩) trace ∧ finish.round = 2 ∧
      finish.pc = .received (some 1) := by
    refine ⟨_, _,
      .cons (.exchange _ rfl rfl) <|
      .cons (.storeId _ rfl) <|
      .cons (.call _ 0 rfl) <|
      .cons (.clear _ 0 rfl) <|
      .cons (.testSet _ 0 rfl (by decide)) <|
      .cons (.send _ 0 rfl) <|
      .cons (.receive _ _ rfl rfl) <|
      .cons (.leave _ _ rfl) <|
      .cons (.exchange _ rfl rfl) <|
      .cons (.call _ 1 rfl) <|
      .cons (.clear _ 1 rfl) <|
      .cons (.testSet _ 1 rfl (by decide)) <|
      .cons (.send _ 1 rfl) <|
      .cons (.storeId _ rfl) <|
      .cons (.receive _ _ rfl rfl) <|
      .nil _, ?_, rfl, rfl⟩
    exact
      .cons trivial <|
      .cons (fun _ c hcall => nomatch hcall) <|
      .cons trivial <| .cons trivial <| .cons trivial <|
      .cons (.inr ⟨.inr rfl, rfl⟩) <|
      .cons trivial <| .cons trivial <| .cons trivial <| .cons trivial <|
      .cons trivial <| .cons trivial <|
      .cons (.inr ⟨.inl rfl, rfl⟩) <|
      .cons (fun hunset => nomatch hunset) <|
      .cons trivial <| .nil _
  obtain ⟨trace, finish, hrun, htimely, hround, hpc⟩ := hrun
  exact ⟨trace, finish, hrun, hround, hpc,
    (cancelsKept_iff_timely ⟨3, by decide⟩ trace finish hrun).1 htimely⟩

/-- A call that looks for the id before the first spin has stored it is lost, and one
made between two spins ends the second of them. -/
theorem cancel_lost_and_leaked :
    (∃ trace finish, Run (SpinStep ⟨3, by decide⟩) constructed trace finish ∧
      trace.map Move.label = [.exchange, .call 0, .clear 0, .test 0, .storeId] ∧
      finish.pc = .receiving ∧ finish.calls 0 = .returned ∧
      finish.during 0 = some finish.round ∧ ¬ finish.Pending ⟨3, by decide⟩ ∧
      ¬ Throughout (CancelsKept ⟨3, by decide⟩) constructed trace) ∧
    ∃ trace finish, Run (SpinStep ⟨3, by decide⟩) constructed trace finish ∧
      finish.pc = .received (some 1) ∧ finish.round = 2 ∧ finish.during 1 = none ∧
      ¬ Throughout (CancelsKept ⟨3, by decide⟩) constructed trace := by
  constructor
  · have hrun : ∃ trace finish, Run (SpinStep ⟨3, by decide⟩) constructed trace finish ∧
        trace.map Move.label = [.exchange, .call 0, .clear 0, .test 0, .storeId] ∧
        finish.pc = .receiving ∧ finish.calls 0 = .returned ∧
        finish.during 0 = some finish.round ∧ ¬ finish.Pending ⟨3, by decide⟩ :=
      ⟨_, _,
        .cons (.exchange _ rfl rfl) <|
        .cons (.call _ 0 rfl) <|
        .cons (.clear _ 0 rfl) <|
        .cons (.testUnset _ 0 rfl rfl) <|
        .cons (.storeId _ rfl) <|
        .nil _, rfl, rfl, rfl, rfl, by simp [SpinState.Pending, constructed]⟩
    obtain ⟨trace, finish, hrun, hlabels, hpc, hcall, hduring, hnot⟩ := hrun
    refine ⟨trace, finish, hrun, hlabels, hpc, hcall, hduring, hnot, fun hkept => ?_⟩
    exact (hrun.finish_of_throughout hkept).1 hpc hnot 0 hcall hduring
  · have hrun : ∃ trace finish, Run (SpinStep ⟨3, by decide⟩) constructed trace finish ∧
        finish.pc = .received (some 1) ∧ finish.round = 2 ∧ finish.during 1 = none :=
      ⟨_, _,
        .cons (.exchange _ rfl rfl) <|
        .cons (.storeId _ rfl) <|
        .cons (.call _ 0 rfl) <|
        .cons (.clear _ 0 rfl) <|
        .cons (.testSet _ 0 rfl (by decide)) <|
        .cons (.send _ 0 rfl) <|
        .cons (.receive _ _ rfl rfl) <|
        .cons (.leave _ _ rfl) <|
        .cons (.call _ 1 rfl) <|
        .cons (.clear _ 1 rfl) <|
        .cons (.testSet _ 1 rfl (by decide)) <|
        .cons (.send _ 1 rfl) <|
        .cons (.exchange _ rfl rfl) <|
        .cons (.storeId _ rfl) <|
        .cons (.receive _ _ rfl rfl) <|
        .nil _, rfl, rfl, rfl⟩
    obtain ⟨trace, finish, hrun, hpc, hround, hduring⟩ := hrun
    refine ⟨trace, finish, hrun, hpc, hround, hduring, fun hkept => ?_⟩
    obtain ⟨c, hcause, hown⟩ := (hrun.finish_of_throughout hkept).2 (some 1) hpc
    cases hcause
    simp [hduring] at hown

end RosRtems.SpinCancel
