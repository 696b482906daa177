import RosRtems.Core.Runs
import RosRtems.Lifecycle.StateMachine
import Mathlib.Logic.Function.Basic

/-!
# Changing the state of a managed node from several threads

A change of state takes the mutex of the state machine twice: to start the transition and
to finish it.  In between it calls the callback of the node, and others may come.  They are
refused, because the machine is then in a state from which no request leads, unless they
name a transition that only results of callbacks should trigger.
-/

namespace RosRtems.Lifecycle

open RosRtems.Runs

variable {Thread : Type*}

inductive CallbackReturn
  | success
  | failure
  | error
  deriving DecidableEq

def labelForReturnCode : CallbackReturn → Label
  | .success => .transitionSuccess
  | .failure => .transitionFailure
  | .error => .transitionError

/-- Where a call of `change_state` is: before it takes the mutex, in the callback of the
state it has entered, before it takes the mutex again, in the callback of the state an
error has led to, or before it takes the mutex a third time. -/
inductive CallPc
  | outside
  | starting (id : UInt8)
  | executing (transition : Transition)
  | finishing (transition : Transition) (code : CallbackReturn)
  | handling (transition : Transition) (entered : State)
  | finishingError (transition : Transition) (code : CallbackReturn)
  deriving DecidableEq

/-- The transition that a call has started and not finished. -/
def CallPc.transition? : CallPc → Option Transition
  | .outside | .starting _ => none
  | .executing transition | .finishing transition _ | .handling transition _
  | .finishingError transition _ => some transition

/-- The state of the machine that the change has entered. -/
def CallPc.entered? : CallPc → Option State
  | .outside | .starting _ => none
  | .executing transition | .finishing transition _ => some transition.goal
  | .handling _ entered => some entered
  | .finishingError _ _ => some .errorProcessing

structure MachineState (Thread : Type*) where
  current : State
  pc : Thread → CallPc

def MachineState.initial : MachineState Thread where
  current := .unconfigured
  pc := fun _ => .outside

inductive Action
  | request (id : UInt8)
  | requestLabel (label : String)
  | start (published : Bool)
  | callback (code : CallbackReturn)
  | finish (published : Bool)
  | finishError (published : Bool)
  deriving DecidableEq

section Steps

variable [DecidableEq Thread]

def MachineState.move (s : MachineState Thread) (t : Thread) (pc : CallPc) :
    MachineState Thread :=
  { s with pc := Function.update s.pc t pc }

/-- The first section under the mutex: a call that finds no transition, or cannot publish
it, returns. -/
def MachineState.start (s : MachineState Thread) (t : Thread) (id : UInt8)
    (published : Bool) : MachineState Thread :=
  let triggered :=
    triggerTransition s.current published (getTransitionById s.current id.toNat)
  { current := triggered.1
    pc := Function.update s.pc t <|
      match triggered.2 with
      | some transition => .executing transition
      | none => .outside }

/-- The second section under the mutex. -/
def MachineState.finish (s : MachineState Thread) (t : Thread) (transition : Transition)
    (code : CallbackReturn) (published : Bool) : MachineState Thread :=
  let triggered := triggerTransition s.current published
    (getTransitionByLabel s.current (labelForReturnCode code).text)
  { current := triggered.1
    pc := Function.update s.pc t <|
      match triggered.2 with
      | some _ => if code = .error then .handling transition triggered.1 else .outside
      | none => .outside }

/-- The third section under the mutex, which a call only enters after an error. -/
def MachineState.finishError (s : MachineState Thread) (t : Thread)
    (code : CallbackReturn) (published : Bool) : MachineState Thread :=
  { current := (triggerTransition s.current published
      (getTransitionByLabel s.current (labelForReturnCode code).text)).1
    pc := Function.update s.pc t .outside }

/-- The steps of the threads that call `change_state`, in any order.  A state without a
registered callback counts as successful. -/
inductive ChangeStep (registered : State → Bool) :
    MachineState Thread → Thread × Action → MachineState Thread → Prop
  | request (s : MachineState Thread) (t : Thread) (id : UInt8) (hpc : s.pc t = .outside) :
      ChangeStep registered s (t, .request id) (s.move t (.starting id))
  | requestLabel (s : MachineState Thread) (t : Thread) (label : String)
      (transition : Transition) (hpc : s.pc t = .outside)
      (hfound : getTransitionByLabel s.current label = some transition) :
      ChangeStep registered s (t, .requestLabel label)
        (s.move t (.starting (UInt8.ofNat transition.id)))
  | unknownLabel (s : MachineState Thread) (t : Thread) (label : String)
      (hpc : s.pc t = .outside) (hfound : getTransitionByLabel s.current label = none) :
      ChangeStep registered s (t, .requestLabel label) s
  | start (s : MachineState Thread) (t : Thread) (id : UInt8) (published : Bool)
      (hpc : s.pc t = .starting id) :
      ChangeStep registered s (t, .start published) (s.start t id published)
  | callback (s : MachineState Thread) (t : Thread) (transition : Transition)
      (code : CallbackReturn) (hpc : s.pc t = .executing transition)
      (hregistered : registered transition.goal = false → code = .success) :
      ChangeStep registered s (t, .callback code) (s.move t (.finishing transition code))
  | finish (s : MachineState Thread) (t : Thread) (transition : Transition)
      (code : CallbackReturn) (published : Bool) (hpc : s.pc t = .finishing transition code) :
      ChangeStep registered s (t, .finish published) (s.finish t transition code published)
  | errorCallback (s : MachineState Thread) (t : Thread) (transition : Transition)
      (entered : State) (code : CallbackReturn) (hpc : s.pc t = .handling transition entered)
      (hregistered : registered entered = false → code = .success) :
      ChangeStep registered s (t, .callback code)
        (s.move t (.finishingError transition code))
  | finishError (s : MachineState Thread) (t : Thread) (transition : Transition)
      (code : CallbackReturn) (published : Bool)
      (hpc : s.pc t = .finishingError transition code) :
      ChangeStep registered s (t, .finishError published) (s.finishError t code published)

end Steps

/-! ## One change at a time -/

/-- At most one call has a change under way, and the machine is in a state of a change
exactly while one has: in the one that the change has entered. -/
structure Orderly (s : MachineState Thread) : Prop where
  alone : ∀ t other, (s.pc t).transition? ≠ none → (s.pc other).transition? ≠ none → other = t
  entered : ∀ t state, (s.pc t).entered? = some state → s.current = state
  underWay : s.current.isTransition = true ↔ ∃ t, (s.pc t).transition? ≠ none

/-- The condition on a step: no transition is started that only the result of a callback
should trigger, and the notification of a state of a change can be published. -/
def Disciplined (s : MachineState Thread) : Thread × Action → Prop
  | (t, .start published) => ∀ id transition, s.pc t = .starting id →
      getTransitionById s.current id.toNat = some transition →
        transition.start.isTransition = false ∧ published = true
  | (t, .finish published) => ∀ transition, s.pc t = .finishing transition .error →
      published = true
  | (_, .request _) | (_, .requestLabel _) | (_, .callback _) | (_, .finishError _) => True

/-- What a call knows of the machine while its change is under way. -/
def Carried (current : State) : CallPc → Prop
  | .outside | .starting _ => True
  | .executing transition | .finishing transition _ =>
      transition ∈ defaultTransitions ∧ transition.start.isTransition = false ∧
        current = transition.goal
  | .handling transition entered =>
      transition ∈ defaultTransitions ∧ transition.start.isTransition = false ∧
        current = .errorProcessing ∧ entered = .errorProcessing
  | .finishingError transition _ =>
      transition ∈ defaultTransitions ∧ transition.start.isTransition = false ∧
        current = .errorProcessing

structure MachineInvariant (s : MachineState Thread) : Prop where
  alone : ∀ t other, (s.pc t).transition? ≠ none → (s.pc other).transition? ≠ none → other = t
  carried : ∀ t, Carried s.current (s.pc t)
  underWay : s.current.isTransition = true → ∃ t, (s.pc t).transition? ≠ none

theorem Carried.isTransition {current : State} {pc : CallPc} (hcarried : Carried current pc)
    (hpc : pc.transition? ≠ none) : current.isTransition = true := by
  cases pc with
  | outside | starting _ => exact absurd rfl hpc
  | executing transition | finishing transition _ =>
      obtain ⟨hmem, hstart, rfl⟩ := hcarried
      exact (goal_of_request transition hmem hstart).1
  | handling transition entered =>
      obtain ⟨-, -, rfl, -⟩ := hcarried
      rfl
  | finishingError transition _ =>
      obtain ⟨-, -, rfl⟩ := hcarried
      rfl

theorem Carried.entered {current state : State} {pc : CallPc} (hcarried : Carried current pc)
    (hentered : pc.entered? = some state) : current = state := by
  cases pc with
  | outside | starting _ => cases hentered
  | executing transition | finishing transition _ =>
      exact hcarried.2.2.trans (Option.some.inj hentered)
  | handling transition entered =>
      have hstate : entered = state := Option.some.inj hentered
      exact hcarried.2.2.1.trans (hcarried.2.2.2.symm.trans hstate)
  | finishingError transition _ => exact hcarried.2.2.trans (Option.some.inj hentered)

theorem MachineInvariant.orderly {s : MachineState Thread} (hs : MachineInvariant s) :
    Orderly s where
  alone := hs.alone
  entered := fun t _ hentered => (hs.carried t).entered hentered
  underWay := ⟨hs.underWay, fun ⟨t, hpc⟩ => (hs.carried t).isTransition hpc⟩

theorem machineInvariant_initial : MachineInvariant (MachineState.initial : MachineState Thread)
    where
  alone := fun _ _ hpc _ => absurd rfl hpc
  carried := fun _ => trivial
  underWay := nofun

section Invariant

variable [DecidableEq Thread] {s s' : MachineState Thread} {t : Thread} {pc : CallPc}

/-- A step within the change that the thread has under way, or outside of any. -/
theorem MachineInvariant.stay (hs : MachineInvariant s)
    (hsame : pc.transition? = (s.pc t).transition?) (hcarried : Carried s.current pc) :
    MachineInvariant (s.move t pc) := by
  have hsteps : ∀ other, ((s.move t pc).pc other).transition? = (s.pc other).transition? := by
    intro other
    by_cases hother : other = t
    · subst hother
      simpa [MachineState.move] using hsame
    · simp [MachineState.move, hother]
  constructor
  case alone =>
    intro first second hfirst hsecond
    exact hs.alone first second (hsteps first ▸ hfirst) (hsteps second ▸ hsecond)
  case carried =>
    intro other
    by_cases hother : other = t
    · subst hother
      simpa [MachineState.move] using hcarried
    · simpa [MachineState.move, hother] using hs.carried other
  case underWay =>
    intro hcurrent
    obtain ⟨other, hother⟩ := hs.underWay hcurrent
    exact ⟨other, by rwa [hsteps]⟩

/-- A step to another state of the machine, when no other thread has a change under way. -/
theorem machineInvariant_enter {current : State}
    (hothers : ∀ other, other ≠ t → (s.pc other).transition? = none)
    (hcarried : Carried current pc)
    (hunderWay : current.isTransition = true → pc.transition? ≠ none) :
    MachineInvariant ⟨current, Function.update s.pc t pc⟩ := by
  have hself : ∀ other, (Function.update s.pc t pc other).transition? ≠ none → other = t := by
    intro other hother
    by_contra hne
    rw [Function.update_of_ne hne] at hother
    exact hother (hothers other hne)
  constructor
  case alone =>
    intro first second hfirst hsecond
    rw [hself first hfirst, hself second hsecond]
  case carried =>
    intro other
    by_cases hother : other = t
    · subst hother
      simpa using hcarried
    · have hnone := hothers other hother
      simp only [Function.update_of_ne hother]
      cases hpc : s.pc other with
      | outside | starting _ => trivial
      | executing _ | finishing _ _ | handling _ _ | finishingError _ _ =>
          simp [hpc, CallPc.transition?] at hnone
  case underWay => exact fun hcurrent => ⟨t, by simpa using hunderWay hcurrent⟩

omit [DecidableEq Thread] in
/-- While a thread has a change under way, no other has. -/
theorem MachineInvariant.others (hs : MachineInvariant s) (hpc : (s.pc t).transition? ≠ none)
    (other : Thread) (hother : other ≠ t) : (s.pc other).transition? = none := by
  by_contra hne
  exact hother (hs.alone t other hpc hne)

omit [DecidableEq Thread] in
/-- In a primary state nobody has. -/
theorem MachineInvariant.nobody (hs : MachineInvariant s)
    (hcurrent : s.current.isTransition = false) (other : Thread) :
    (s.pc other).transition? = none := by
  by_contra hne
  rw [(hs.carried other).isTransition hne] at hcurrent
  cases hcurrent

end Invariant

/-! ## What finishes a change -/

theorem getTransitionByLabel_eq (state : State) (label : Label) :
    getTransitionByLabel state label.text =
      (validTransitions state).find? fun transition => transition.label == label := by
  unfold getTransitionByLabel
  congr 1
  funext transition
  exact decide_eq_decide.mpr Label.text_injective.eq_iff

theorem find?_labelForReturnCode (code : CallbackReturn) : ∀ transition ∈ defaultTransitions,
    transition.start.isTransition = false →
      ((validTransitions transition.goal).find? fun found =>
        found.label == labelForReturnCode code).any (fun found =>
          if code = .error then found.goal = .errorProcessing
          else !found.goal.isTransition) = true := by
  cases code <;> decide +kernel

/-- Every result of a callback has its transition in every state that a request leads to:
an error leads to the error processing, and the others end the change. -/
theorem getTransitionByLabel_goal {transition : Transition}
    (hmem : transition ∈ defaultTransitions) (hstart : transition.start.isTransition = false)
    (code : CallbackReturn) :
    ∃ found,
      getTransitionByLabel transition.goal (labelForReturnCode code).text = some found ∧
        (code = .error → found.goal = .errorProcessing) ∧
        (code ≠ .error → found.goal.isTransition = false) := by
  have hany := find?_labelForReturnCode code transition hmem hstart
  rw [← getTransitionByLabel_eq, Option.any_eq_true] at hany
  obtain ⟨found, hfound, hgoal⟩ := hany
  by_cases hcode : code = .error
  · exact ⟨found, hfound, fun _ => by simpa [hcode] using hgoal, fun hne => absurd hcode hne⟩
  · exact ⟨found, hfound, fun heq => absurd heq hcode, fun _ => by simpa [hcode] using hgoal⟩

/-- In the error processing every result ends the change. -/
theorem getTransitionByLabel_errorProcessing (code : CallbackReturn) :
    ∃ found,
      getTransitionByLabel .errorProcessing (labelForReturnCode code).text = some found ∧
        found.goal = if code = .success then .unconfigured else .finalized := by
  rw [getTransitionByLabel_eq]
  cases code
  case success => exact ⟨⟨.transitionSuccess, 60, .errorProcessing, .unconfigured⟩, rfl, rfl⟩
  case failure => exact ⟨⟨.transitionFailure, 61, .errorProcessing, .finalized⟩, rfl, rfl⟩
  case error => exact ⟨⟨.transitionError, 62, .errorProcessing, .finalized⟩, rfl, rfl⟩

end RosRtems.Lifecycle
