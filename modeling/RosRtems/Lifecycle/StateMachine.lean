import Mathlib.Data.List.Basic

/-!
# The state machine of a managed node

A managed node registers its states and transitions when it is initialized.  A transition
of the current state is found by its id, as a request names it, or by its label, as the
result of a callback names it.  To find one is to look through the transitions that were
registered with the state.
-/

namespace RosRtems.Lifecycle

/-! ## States, labels and transitions -/

/-- The states of the default machine: the primary ones, and those of a change under way. -/
inductive State
  | unknown
  | unconfigured
  | inactive
  | active
  | finalized
  | configuring
  | cleaningUp
  | shuttingDown
  | activating
  | deactivating
  | errorProcessing
  deriving DecidableEq

def State.id : State → ℕ
  | .unknown => 0
  | .unconfigured => 1
  | .inactive => 2
  | .active => 3
  | .finalized => 4
  | .configuring => 10
  | .cleaningUp => 11
  | .shuttingDown => 12
  | .activating => 13
  | .deactivating => 14
  | .errorProcessing => 15

/-- A change is under way. -/
def State.isTransition : State → Bool
  | .unknown | .unconfigured | .inactive | .active | .finalized => false
  | .configuring | .cleaningUp | .shuttingDown | .activating | .deactivating
  | .errorProcessing => true

inductive Label
  | configure
  | cleanup
  | activate
  | deactivate
  | shutdown
  | transitionSuccess
  | transitionFailure
  | transitionError
  deriving DecidableEq

def Label.text : Label → String
  | .configure => "configure"
  | .cleanup => "cleanup"
  | .activate => "activate"
  | .deactivate => "deactivate"
  | .shutdown => "shutdown"
  | .transitionSuccess => "transition_success"
  | .transitionFailure => "transition_failure"
  | .transitionError => "transition_error"

theorem Label.text_injective : Function.Injective Label.text := by
  intro first second heq
  cases first <;> cases second <;> first | rfl | (revert heq; decide)

structure Transition where
  label : Label
  id : ℕ
  start : State
  goal : State
  deriving DecidableEq

/-! ## The registered map -/

structure RegisteredState where
  state : State
  validTransitions : List Transition
  deriving DecidableEq

structure TransitionMap where
  states : List RegisteredState
  transitions : List Transition
  deriving DecidableEq

def TransitionMap.zeroInitialized : TransitionMap where
  states := []
  transitions := []

inductive RegisterError
  | stateRegistered
  | stateNotRegistered
  deriving DecidableEq

def getState (map : TransitionMap) (id : ℕ) : Option RegisteredState :=
  map.states.find? fun registered => registered.state.id == id

def registerState (map : TransitionMap) (state : State) :
    Except RegisterError TransitionMap :=
  if (getState map state.id).isSome then .error .stateRegistered
  else .ok { map with states := map.states ++ [⟨state, []⟩] }

/-- The transition is copied to the first state that has the id. -/
def addValidTransition (transition : Transition) : List RegisteredState → List RegisteredState
  | [] => []
  | registered :: rest =>
      if registered.state.id = transition.start.id then
        { registered with
          validTransitions := registered.validTransitions ++ [transition] } :: rest
      else registered :: addValidTransition transition rest

def registerTransition (map : TransitionMap) (transition : Transition) :
    Except RegisterError TransitionMap :=
  if (getState map transition.start.id).isNone then .error .stateNotRegistered
  else if (getState map transition.goal.id).isNone then .error .stateNotRegistered
  else .ok
    { states := addValidTransition transition map.states
      transitions := map.transitions ++ [transition] }

/-! ## The default machine -/

def primaryStates : List State :=
  [.unknown, .unconfigured, .inactive, .active, .finalized]

def transitionStates : List State :=
  [.configuring, .cleaningUp, .shuttingDown, .activating, .deactivating, .errorProcessing]

def defaultTransitions : List Transition :=
  [⟨.configure, 1, .unconfigured, .configuring⟩,
   ⟨.transitionSuccess, 10, .configuring, .inactive⟩,
   ⟨.transitionFailure, 11, .configuring, .unconfigured⟩,
   ⟨.transitionError, 12, .configuring, .errorProcessing⟩,
   ⟨.cleanup, 2, .inactive, .cleaningUp⟩,
   ⟨.transitionSuccess, 20, .cleaningUp, .unconfigured⟩,
   ⟨.transitionFailure, 21, .cleaningUp, .inactive⟩,
   ⟨.transitionError, 22, .cleaningUp, .errorProcessing⟩,
   ⟨.activate, 3, .inactive, .activating⟩,
   ⟨.transitionSuccess, 30, .activating, .active⟩,
   ⟨.transitionFailure, 31, .activating, .inactive⟩,
   ⟨.transitionError, 32, .activating, .errorProcessing⟩,
   ⟨.deactivate, 4, .active, .deactivating⟩,
   ⟨.transitionSuccess, 40, .deactivating, .inactive⟩,
   ⟨.transitionFailure, 41, .deactivating, .active⟩,
   ⟨.transitionError, 42, .deactivating, .errorProcessing⟩,
   ⟨.shutdown, 5, .unconfigured, .shuttingDown⟩,
   ⟨.shutdown, 6, .inactive, .shuttingDown⟩,
   ⟨.shutdown, 7, .active, .shuttingDown⟩,
   ⟨.transitionSuccess, 50, .shuttingDown, .finalized⟩,
   ⟨.transitionFailure, 51, .shuttingDown, .finalized⟩,
   ⟨.transitionError, 52, .shuttingDown, .errorProcessing⟩,
   ⟨.transitionSuccess, 60, .errorProcessing, .unconfigured⟩,
   ⟨.transitionFailure, 61, .errorProcessing, .finalized⟩,
   ⟨.transitionError, 62, .errorProcessing, .finalized⟩]

def initDefaultStateMachine : Except RegisterError TransitionMap := do
  let map ← primaryStates.foldlM registerState .zeroInitialized
  let map ← transitionStates.foldlM registerState map
  defaultTransitions.foldlM registerTransition map

def defaultMap : TransitionMap where
  states := (primaryStates ++ transitionStates).map fun state =>
    ⟨state, defaultTransitions.filter fun transition => transition.start = state⟩
  transitions := defaultTransitions

/-- Nothing is refused, and each state ends with the transitions that start from it. -/
theorem initDefaultStateMachine_eq : initDefaultStateMachine = .ok defaultMap := by
  decide +kernel

def validTransitions (state : State) : List Transition :=
  ((getState defaultMap state.id).map RegisteredState.validTransitions).getD []

theorem validTransitions_eq (state : State) : validTransitions state =
    defaultTransitions.filter fun transition => transition.start = state := by
  cases state <;> rfl

theorem mem_validTransitions {state : State} {transition : Transition} :
    transition ∈ validTransitions state ↔
      transition ∈ defaultTransitions ∧ transition.start = state := by
  simp [validTransitions_eq]

/-! ## Finding and triggering a transition -/

def getTransitionById (state : State) (id : ℕ) : Option Transition :=
  (validTransitions state).find? fun transition => transition.id == id

def getTransitionByLabel (state : State) (label : String) : Option Transition :=
  (validTransitions state).find? fun transition => transition.label.text == label

/-- Triggering a transition changes the state before the notification is published.  Beside
the state: the transition, if it was found and the notification could be published. -/
def triggerTransition (current : State) (published : Bool) :
    Option Transition → State × Option Transition
  | none => (current, none)
  | some transition => (transition.goal, if published then some transition else none)

theorem getTransitionById_eq_some {state : State} {id : ℕ} {transition : Transition}
    (hfound : getTransitionById state id = some transition) :
    transition ∈ defaultTransitions ∧ transition.start = state ∧ transition.id = id := by
  have hmem := mem_validTransitions.mp (List.mem_of_find?_eq_some hfound)
  have hid := List.find?_some hfound
  exact ⟨hmem.1, hmem.2, by simpa using hid⟩

/-- The transitions that a request starts go from a primary state to one of a change, and
the others, which end a change or turn to the error processing, start in such a one. -/
theorem start_isTransition_iff : ∀ transition ∈ defaultTransitions,
    (transition.start.isTransition = true ↔
      transition.label = .transitionSuccess ∨ transition.label = .transitionFailure ∨
        transition.label = .transitionError) := by
  decide

theorem goal_of_request : ∀ transition ∈ defaultTransitions,
    transition.start.isTransition = false →
      transition.goal.isTransition = true ∧ transition.goal ≠ .errorProcessing := by
  decide

/-- A finalized node offers no transition. -/
theorem getTransitionById_finalized (id : ℕ) : getTransitionById .finalized id = none := by
  simp [getTransitionById, validTransitions_eq, defaultTransitions]

end RosRtems.Lifecycle
