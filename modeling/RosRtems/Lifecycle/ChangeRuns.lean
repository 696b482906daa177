import RosRtems.Lifecycle.ChangeState
import Mathlib.Data.Fin.Basic

/-!
# Runs of changes of state

Any number of threads ask for changes, in any order of their steps.  The machine stays
orderly for as long as nobody starts a transition that a callback's result should trigger,
and no longer.  Seen from outside of a change, an orderly machine moves from primary state
to primary state, one change after the other.
-/

namespace RosRtems.Lifecycle

open RosRtems.Runs

variable {Thread : Type*} [DecidableEq Thread]

section Sections

variable {s : MachineState Thread} {t : Thread}

/-! ## The sections under the mutex -/

theorem MachineState.start_refused {id : UInt8} {published : Bool}
    (hfound : getTransitionById s.current id.toNat = none) :
    s.start t id published = s.move t .outside := by
  simp [MachineState.start, MachineState.move, triggerTransition, hfound]

theorem MachineState.start_found {id : UInt8} {published : Bool} {transition : Transition}
    (hfound : getTransitionById s.current id.toNat = some transition) :
    s.start t id published =
      ⟨transition.goal,
        Function.update s.pc t (if published then .executing transition else .outside)⟩ := by
  cases published <;> simp [MachineState.start, triggerTransition, hfound]

theorem MachineState.finish_found {transition found : Transition} {code : CallbackReturn}
    {published : Bool}
    (hfound : getTransitionByLabel s.current (labelForReturnCode code).text = some found) :
    s.finish t transition code published =
      ⟨found.goal, Function.update s.pc t <|
        if published = true ∧ code = .error then .handling transition found.goal
        else .outside⟩ := by
  cases published <;> simp [MachineState.finish, triggerTransition, hfound]

theorem MachineState.finishError_found {found : Transition} {code : CallbackReturn}
    {published : Bool}
    (hfound : getTransitionByLabel s.current (labelForReturnCode code).text = some found) :
    s.finishError t code published =
      ⟨found.goal, Function.update s.pc t .outside⟩ := by
  simp [MachineState.finishError, triggerTransition, hfound]

end Sections

section Steps

variable {registered : State → Bool} {s s' : MachineState Thread} {t : Thread}
  {action : Action}

/-! ## The invariant over a step -/

theorem machineInvariant_start {id : UInt8} {published : Bool} (hs : MachineInvariant s)
    (hpc : s.pc t = .starting id) (hdisciplined : Disciplined s (t, .start published)) :
    MachineInvariant (s.start t id published) := by
  cases hfound : getTransitionById s.current id.toNat with
  | none =>
      rw [MachineState.start_refused hfound]
      exact hs.stay (by simp [hpc, CallPc.transition?]) trivial
  | some transition =>
      obtain ⟨hstart, rfl⟩ := hdisciplined id transition hpc hfound
      obtain ⟨hmem, hcurrent, -⟩ := getTransitionById_eq_some hfound
      rw [MachineState.start_found hfound]
      apply machineInvariant_enter
      case hothers =>
        intro other _
        exact hs.nobody (hcurrent ▸ hstart) other
      case hcarried => exact ⟨hmem, hstart, rfl⟩
      case hunderWay => simp [CallPc.transition?]

theorem machineInvariant_finish {transition : Transition} {code : CallbackReturn}
    {published : Bool} (hs : MachineInvariant s)
    (hpc : s.pc t = .finishing transition code)
    (hdisciplined : Disciplined s (t, .finish published)) :
    MachineInvariant (s.finish t transition code published) := by
  have hcarried := hs.carried t
  rw [hpc] at hcarried
  obtain ⟨hmem, hstart, hcurrent⟩ := hcarried
  have hothers : ∀ other, other ≠ t → (s.pc other).transition? = none :=
    hs.others (by simp [hpc, CallPc.transition?])
  obtain ⟨found, hfound, herror, hend⟩ := getTransitionByLabel_goal hmem hstart code
  rw [← hcurrent] at hfound
  rw [MachineState.finish_found hfound]
  by_cases hcode : code = .error
  · have hpublished := hdisciplined transition (hcode ▸ hpc)
    rw [if_pos ⟨hpublished, hcode⟩]
    apply machineInvariant_enter hothers
    case hcarried => exact ⟨hmem, hstart, herror hcode, herror hcode⟩
    case hunderWay => simp [CallPc.transition?]
  · rw [if_neg fun hboth => hcode hboth.2]
    apply machineInvariant_enter hothers (show Carried _ .outside from trivial)
    simp [hend hcode]

theorem machineInvariant_finishError {transition : Transition} {code : CallbackReturn}
    {published : Bool} (hs : MachineInvariant s)
    (hpc : s.pc t = .finishingError transition code) :
    MachineInvariant (s.finishError t code published) := by
  have hcarried := hs.carried t
  rw [hpc] at hcarried
  have hothers : ∀ other, other ≠ t → (s.pc other).transition? = none :=
    hs.others (by simp [hpc, CallPc.transition?])
  obtain ⟨found, hfound, hgoal⟩ := getTransitionByLabel_errorProcessing code
  rw [← hcarried.2.2] at hfound
  rw [MachineState.finishError_found hfound]
  apply machineInvariant_enter hothers (show Carried _ .outside from trivial)
  cases code <;> simp [hgoal, State.isTransition]

theorem machineInvariant_step (hs : MachineInvariant s)
    (hdisciplined : Disciplined s (t, action))
    (hstep : ChangeStep registered s (t, action) s') : MachineInvariant s' := by
  cases hstep with
  | request _ id hpc => exact hs.stay (by simp [hpc, CallPc.transition?]) trivial
  | requestLabel _ label transition hpc hfound =>
      exact hs.stay (by simp [hpc, CallPc.transition?]) trivial
  | unknownLabel _ label hpc hfound => exact hs
  | start _ id published hpc => exact machineInvariant_start hs hpc hdisciplined
  | callback _ transition code hpc hregistered =>
      have hcarried := hs.carried t
      rw [hpc] at hcarried
      exact hs.stay (by simp [hpc, CallPc.transition?]) hcarried
  | finish _ transition code published hpc => exact machineInvariant_finish hs hpc hdisciplined
  | errorCallback _ transition entered code hpc hregistered =>
      have hcarried := hs.carried t
      rw [hpc] at hcarried
      apply hs.stay (by simp [hpc, CallPc.transition?])
      exact ⟨hcarried.1, hcarried.2.1, hcarried.2.2.1⟩
  | finishError _ transition code published hpc => exact machineInvariant_finishError hs hpc

/-! ## What an orderly outcome says of the step -/

/-- Where a transition of a callback's result is started, the change under way has not
ended, and the machine has left the state that it had entered. -/
theorem not_orderly_of_result {transition : Transition} {pc : CallPc}
    (hs : MachineInvariant s) (hpc : (s.pc t).transition? = none)
    (hmem : transition ∈ defaultTransitions) (hcurrent : transition.start = s.current)
    (hstart : transition.start.isTransition = true) :
    ¬ Orderly ⟨transition.goal, Function.update s.pc t pc⟩ := by
  intro horderly
  obtain ⟨other, hother⟩ := hs.underWay (hcurrent ▸ hstart)
  have hne : other ≠ t := by
    rintro rfl
    exact hother hpc
  have hother' : (Function.update s.pc t pc other).transition? ≠ none := by
    simpa [hne] using hother
  have hgoal : transition.goal.isTransition = true := horderly.underWay.mpr ⟨other, hother'⟩
  have hleaves : ∀ transition ∈ defaultTransitions, transition.start.isTransition = true →
      transition.goal.isTransition = true →
        transition.goal = .errorProcessing ∧ transition.start ≠ .errorProcessing := by
    decide
  obtain ⟨herror, hstart⟩ := hleaves transition hmem hstart hgoal
  obtain ⟨state, hstate⟩ : ∃ state, (s.pc other).entered? = some state := by
    cases hpc : s.pc other <;> simp_all [CallPc.entered?, CallPc.transition?]
  have hbefore := (hs.carried other).entered hstate
  have hafter := horderly.entered other state (by simpa [hne] using hstate)
  exact hstart (hcurrent.trans (hbefore.trans (hafter.symm.trans herror)))

/-- A thread that leaves the machine in a state of a change has the change under way. -/
theorem not_orderly_of_outside {current : State} (hcurrent : current.isTransition = true)
    (hothers : ∀ other, other ≠ t → (s.pc other).transition? = none) :
    ¬ Orderly ⟨current, Function.update s.pc t .outside⟩ := by
  intro horderly
  obtain ⟨other, hother⟩ := horderly.underWay.mp hcurrent
  by_cases hne : other = t
  · subst hne
    simp [CallPc.transition?] at hother
  · exact hother (by simpa [hne] using hothers other hne)

theorem disciplined_of_orderly (hs : MachineInvariant s)
    (hstep : ChangeStep registered s (t, action) s') (horderly : Orderly s') :
    Disciplined s (t, action) := by
  cases hstep with
  | start _ id published hpc =>
      intro id' transition hpc' hfound
      obtain rfl : id = id' := by simpa [hpc] using hpc'
      obtain ⟨hmem, hcurrent, -⟩ := getTransitionById_eq_some hfound
      rw [MachineState.start_found hfound] at horderly
      have hstart : transition.start.isTransition = false := by
        rw [← Bool.not_eq_true]
        intro hstart
        exact not_orderly_of_result hs (by simp [hpc, CallPc.transition?]) hmem hcurrent hstart
          horderly
      constructor
      · exact hstart
      · by_contra hpublished
        rw [if_neg hpublished] at horderly
        apply not_orderly_of_outside (goal_of_request transition hmem hstart).1 _ horderly
        exact fun other _ => hs.nobody (hcurrent ▸ hstart) other
  | finish _ transition code published hpc =>
      intro transition' hpc'
      have hcode : code = .error := by
        rw [hpc] at hpc'
        cases hpc'
        rfl
      have hcarried := hs.carried t
      rw [hpc] at hcarried
      obtain ⟨hmem, hstart, hcurrent⟩ := hcarried
      obtain ⟨found, hfound, herror, -⟩ := getTransitionByLabel_goal hmem hstart code
      rw [← hcurrent] at hfound
      rw [MachineState.finish_found hfound] at horderly
      by_contra hpublished
      rw [if_neg fun hboth => hpublished hboth.1] at horderly
      apply not_orderly_of_outside _ _ horderly
      · simp [herror hcode, State.isTransition]
      · exact hs.others (by simp [hpc, CallPc.transition?])
  | _ => trivial

end Steps

/-! ## Changes, one after the other -/

/-- How a change ends: the code that follows an error is the one of the error callback. -/
inductive Outcome
  | succeeded
  | failed
  | erred (code : CallbackReturn)
  deriving DecidableEq

structure Change where
  label : Label
  outcome : Outcome
  deriving DecidableEq

/-- What a node offers in a primary state. -/
def offered : State → List Label
  | .unconfigured => [.configure, .shutdown]
  | .inactive => [.cleanup, .activate, .shutdown]
  | .active => [.deactivate, .shutdown]
  | _ => []

def intended (q : State) : Label → State
  | .configure | .deactivate => .inactive
  | .cleanup => .unconfigured
  | .activate => .active
  | .shutdown => .finalized
  | .transitionSuccess | .transitionFailure | .transitionError => q

/-- A failed change leads back, but for a failed shutdown; after an error the node is
unconfigured if the error could be handled, and finalized if not. -/
def destination (q : State) (label : Label) : Outcome → State
  | .succeeded => intended q label
  | .failed => if label = .shutdown then .finalized else q
  | .erred code => if code = .success then .unconfigured else .finalized

inductive AtomicStep : State → Change → State → Prop
  | change (q : State) (label : Label) (outcome : Outcome) (hoffered : label ∈ offered q) :
      AtomicStep q ⟨label, outcome⟩ (destination q label outcome)

/-- The change that a step ends. -/
def changeOf (move : Move (MachineState Thread) (Thread × Action)) : Option Change :=
  match move.label with
  | (t, .finish _) =>
      match move.source.pc t with
      | .finishing transition .success => some ⟨transition.label, .succeeded⟩
      | .finishing transition .failure => some ⟨transition.label, .failed⟩
      | _ => none
  | (t, .finishError _) =>
      match move.source.pc t with
      | .finishingError transition code => some ⟨transition.label, .erred code⟩
      | _ => none
  | _ => none

/-- A change under way started from `q`, and the machine is in `q` if none is. -/
structure Settles (s : MachineState Thread) (q : State) : Prop where
  startedFrom : ∀ t transition, (s.pc t).transition? = some transition → transition.start = q
  settled : s.current.isTransition = false → s.current = q

section Refinement

variable {registered : State → Bool} {s s' : MachineState Thread} {t : Thread}
  {action : Action} {pc : CallPc} {q : State}

theorem Settles.stay (hsettles : Settles s q)
    (hsame : pc.transition? = (s.pc t).transition?) : Settles (s.move t pc) q where
  startedFrom := by
    intro other transition hother
    by_cases hne : other = t
    · subst hne
      apply hsettles.startedFrom other
      simpa [MachineState.move, hsame] using hother
    · exact hsettles.startedFrom other transition (by simpa [MachineState.move, hne] using hother)
  settled := hsettles.settled

theorem settles_enter {current : State}
    (hothers : ∀ other, other ≠ t → (s.pc other).transition? = none)
    (hstarted : ∀ transition, pc.transition? = some transition → transition.start = q)
    (hsettled : current.isTransition = false → current = q) :
    Settles ⟨current, Function.update s.pc t pc⟩ q where
  startedFrom := by
    intro other transition hother
    by_cases hne : other = t
    · subst hne
      exact hstarted transition (by simpa using hother)
    · simp [hne, hothers other hne] at hother
  settled := hsettled

theorem goal_of_result : ∀ transition ∈ defaultTransitions,
    transition.start.isTransition = false →
      transition.label ∈ offered transition.start ∧
        ((validTransitions transition.goal).find? fun found =>
          found.label == .transitionSuccess).map Transition.goal =
            some (destination transition.start transition.label .succeeded) ∧
        ((validTransitions transition.goal).find? fun found =>
          found.label == .transitionFailure).map Transition.goal =
            some (destination transition.start transition.label .failed) := by
  decide +kernel

/-- The second section ends a change that met no error, in the state it is to lead to. -/
theorem current_finish {transition : Transition} {code : CallbackReturn} {outcome : Outcome}
    {published : Bool} (hmem : transition ∈ defaultTransitions)
    (hstart : transition.start.isTransition = false) (hcurrent : s.current = transition.goal)
    (houtcome : code = .success ∧ outcome = .succeeded ∨ code = .failure ∧ outcome = .failed) :
    s.finish t transition code published =
      ⟨destination transition.start transition.label outcome,
        Function.update s.pc t .outside⟩ := by
  obtain ⟨-, hsuccess, hfailure⟩ := goal_of_result transition hmem hstart
  rw [← getTransitionByLabel_eq, ← hcurrent] at hsuccess hfailure
  obtain ⟨rfl, rfl⟩ | ⟨rfl, rfl⟩ := houtcome
  · obtain ⟨found, hfound, hgoal⟩ := Option.map_eq_some_iff.mp hsuccess
    rw [MachineState.finish_found hfound, hgoal, if_neg (by simp)]
  · obtain ⟨found, hfound, hgoal⟩ := Option.map_eq_some_iff.mp hfailure
    rw [MachineState.finish_found hfound, hgoal, if_neg (by simp)]

theorem settles_silent (hs : MachineInvariant s) (hdisciplined : Disciplined s (t, action))
    (hstep : ChangeStep registered s (t, action) s') (hsettles : Settles s q)
    (hsilent : changeOf ⟨s, (t, action), s'⟩ = none) : Settles s' q := by
  cases hstep with
  | request _ id hpc => exact hsettles.stay (by simp [hpc, CallPc.transition?])
  | requestLabel _ label transition hpc hfound =>
      exact hsettles.stay (by simp [hpc, CallPc.transition?])
  | unknownLabel _ label hpc hfound => exact hsettles
  | start _ id published hpc =>
      cases hfound : getTransitionById s.current id.toNat with
      | none =>
          rw [MachineState.start_refused hfound]
          exact hsettles.stay (by simp [hpc, CallPc.transition?])
      | some transition =>
          obtain ⟨hstart, rfl⟩ := hdisciplined id transition hpc hfound
          obtain ⟨hmem, hcurrent, -⟩ := getTransitionById_eq_some hfound
          have hprimary : s.current.isTransition = false := hcurrent ▸ hstart
          rw [MachineState.start_found hfound]
          apply settles_enter
          · exact fun other _ => hs.nobody hprimary other
          · intro started hstarted
            obtain rfl : transition = started := by simpa [CallPc.transition?] using hstarted
            exact hcurrent.trans (hsettles.settled hprimary)
          · intro hgoal
            rw [(goal_of_request transition hmem hstart).1] at hgoal
            cases hgoal
  | callback _ transition code hpc hregistered =>
      exact hsettles.stay (by simp [hpc, CallPc.transition?])
  | errorCallback _ transition entered code hpc hregistered =>
      exact hsettles.stay (by simp [hpc, CallPc.transition?])
  | finish _ transition code published hpc =>
      have hcode : code = .error := by
        cases code <;> simp_all [changeOf]
      subst hcode
      have hcarried := hs.carried t
      rw [hpc] at hcarried
      obtain ⟨hmem, hstart, hcurrent⟩ := hcarried
      obtain ⟨found, hfound, herror, -⟩ := getTransitionByLabel_goal hmem hstart .error
      rw [← hcurrent] at hfound
      rw [MachineState.finish_found hfound, if_pos ⟨hdisciplined transition hpc, rfl⟩]
      apply settles_enter (hs.others (by simp [hpc, CallPc.transition?]))
      · intro started hstarted
        apply hsettles.startedFrom t
        simpa [hpc, CallPc.transition?] using hstarted
      · simp [herror rfl, State.isTransition]
  | finishError _ transition code published hpc => simp [changeOf, hpc] at hsilent

theorem settles_observed {change : Change} (hs : MachineInvariant s)
    (hstep : ChangeStep registered s (t, action) s') (hsettles : Settles s q)
    (hobserved : changeOf ⟨s, (t, action), s'⟩ = some change) :
    ∃ next, AtomicStep q change next ∧ Settles s' next := by
  have hended : ∀ q' : State, Function.update s.pc t .outside = s'.pc → s'.current = q' →
      (∀ other, other ≠ t → (s.pc other).transition? = none) → Settles s' q' := by
    intro q' hpc hcurrent hothers
    have henter : Settles ⟨s'.current, Function.update s.pc t .outside⟩ q' :=
      settles_enter hothers (by simp [CallPc.transition?]) fun _ => hcurrent
    rwa [hpc] at henter
  cases hstep with
  | finish _ transition code published hpc =>
      have hcarried := hs.carried t
      rw [hpc] at hcarried
      obtain ⟨hmem, hstart, hcurrent⟩ := hcarried
      obtain rfl : transition.start = q :=
        hsettles.startedFrom t transition (by simp [hpc, CallPc.transition?])
      obtain ⟨outcome, houtcome, rfl⟩ : ∃ outcome,
          (code = .success ∧ outcome = .succeeded ∨ code = .failure ∧ outcome = .failed) ∧
            change = ⟨transition.label, outcome⟩ := by
        cases code <;> simp_all [changeOf]
      have hfinish : s.finish t transition code published =
          ⟨destination transition.start transition.label outcome,
            Function.update s.pc t .outside⟩ :=
        current_finish hmem hstart hcurrent houtcome
      refine ⟨_, .change _ _ outcome (goal_of_result transition hmem hstart).1, ?_⟩
      apply hended
      · rw [hfinish]
      · rw [hfinish]
      · exact hs.others (by simp [hpc, CallPc.transition?])
  | finishError _ transition code published hpc =>
      have hcarried := hs.carried t
      rw [hpc] at hcarried
      obtain ⟨hmem, hstart, hcurrent⟩ := hcarried
      obtain rfl : transition.start = q :=
        hsettles.startedFrom t transition (by simp [hpc, CallPc.transition?])
      obtain rfl : ⟨transition.label, .erred code⟩ = change := by
        simpa [changeOf, hpc] using hobserved
      obtain ⟨found, hfound, hgoal⟩ := getTransitionByLabel_errorProcessing code
      rw [← hcurrent] at hfound
      have hfinish : s.finishError t code published =
          ⟨found.goal, Function.update s.pc t .outside⟩ :=
        MachineState.finishError_found hfound
      refine ⟨_, .change _ _ (.erred code) (goal_of_result transition hmem hstart).1, ?_⟩
      apply hended
      · rw [hfinish]
      · rw [hfinish]
        exact hgoal
      · exact hs.others (by simp [hpc, CallPc.transition?])
  | _ => simp [changeOf] at hobserved

end Refinement

/-! ## Whole runs -/

section Runs

variable {registered : State → Bool} {s : MachineState Thread}
  {trace : List (Move (MachineState Thread) (Thread × Action))}

/-- However the threads interleave, the machine stays orderly exactly as long as no
transition of a callback's result is started by a request and every state of a change that
is entered is also announced. -/
theorem orderly_throughout_iff
    (hrun : Run (ChangeStep registered) MachineState.initial trace s) :
    Throughout Orderly MachineState.initial trace ↔ Admitted Disciplined trace :=
  hrun.throughout_iff_admitted (fun _ hs => hs.orderly)
    (fun _ _ _ hs hdisciplined hstep => machineInvariant_step hs hdisciplined hstep)
    (fun _ _ _ hs hstep horderly => disciplined_of_orderly hs hstep horderly)
    machineInvariant_initial

/-- Changes are atomic: what the threads do in an orderly machine is what changes do that
are made one after the other, from primary state to primary state. -/
theorem changes_atomic
    (hrun : Run (ChangeStep registered) MachineState.initial trace s)
    (hdisciplined : Admitted Disciplined trace) :
    ∃ moves q, Run AtomicStep .unconfigured moves q ∧
      moves.map Move.label = trace.filterMap changeOf ∧ Settles s q := by
  have hkeep : ∀ (source : MachineState Thread) label target, MachineInvariant source →
      Disciplined source label →
      ChangeStep registered source label target → MachineInvariant target :=
    fun _ _ _ hs hadmits hstep => machineInvariant_step hs hadmits hstep
  have hsilent : ∀ (source : MachineState Thread) label target q, MachineInvariant source →
      Disciplined source label →
      ChangeStep registered source label target → Settles source q →
      changeOf ⟨source, label, target⟩ = none → Settles target q := by
    rintro source ⟨t, action⟩ target q hsource hadmits hstep hsettles hnone
    exact settles_silent hsource hadmits hstep hsettles hnone
  have hobserved : ∀ (source : MachineState Thread) label target q change,
      MachineInvariant source →
      Disciplined source label → ChangeStep registered source label target →
      Settles source q → changeOf ⟨source, label, target⟩ = some change →
      ∃ next, AtomicStep q change next ∧ Settles target next := by
    rintro source ⟨t, action⟩ target q change hsource - hstep hsettles hsome
    exact settles_observed hsource hstep hsettles hsome
  have hinitial : Settles (MachineState.initial : MachineState Thread) .unconfigured :=
    ⟨by simp [MachineState.initial, CallPc.transition?], fun _ => rfl⟩
  exact hrun.simulates hkeep hsilent hobserved machineInvariant_initial hdisciplined hinitial

end Runs

section Cases

/-- One thread configures the node, with an error that its callback handles, while the
request of another one is refused. -/
theorem handled_error_run :
    ∃ (trace : List (Move (MachineState (Fin 2)) (Fin 2 × Action)))
      (s : MachineState (Fin 2)),
      Run (ChangeStep fun _ => true) MachineState.initial trace s ∧
        Admitted Disciplined trace ∧
        trace.filterMap changeOf = [⟨.configure, .erred .success⟩] := by
  have hconfigure : getTransitionById .unconfigured 1 =
      some ⟨.configure, 1, .unconfigured, .configuring⟩ := by decide
  have hrefused : getTransitionById .configuring 1 = none := by decide
  refine ⟨_, _,
    .cons (.request _ 0 1 rfl) <| .cons (.start _ 0 1 true rfl) <|
    .cons (.request _ 1 1 rfl) <| .cons (.start _ 1 1 true rfl) <|
    .cons (.callback _ 0 ⟨.configure, 1, .unconfigured, .configuring⟩ .error rfl nofun) <|
    .cons (.finish _ 0 ⟨.configure, 1, .unconfigured, .configuring⟩ .error true rfl) <|
    .cons (.errorCallback _ 0 ⟨.configure, 1, .unconfigured, .configuring⟩ .errorProcessing
      .success rfl nofun) <|
    .cons (.finishError _ 0 ⟨.configure, 1, .unconfigured, .configuring⟩ .success true rfl) <|
    .nil _, ?_, rfl⟩
  refine .cons trivial <| .cons ?_ <| .cons trivial <| .cons ?_ <| .cons trivial <|
    .cons (fun _ _ => rfl) <| .cons trivial <| .cons trivial <| .nil _
  · intro id transition hid hfound
    obtain rfl : (1 : UInt8) = id := CallPc.starting.inj hid
    exact ⟨by rw [(getTransitionById_eq_some hfound).2.1]; rfl, rfl⟩
  · intro id transition hid hfound
    obtain rfl : (1 : UInt8) = id := CallPc.starting.inj hid
    exact absurd (hrefused.symm.trans hfound) (by simp)

theorem handled_error_orderly :
    ∃ trace : List (Move (MachineState (Fin 2)) (Fin 2 × Action)),
      Throughout Orderly MachineState.initial trace ∧
        trace.filterMap changeOf = [⟨.configure, .erred .success⟩] := by
  obtain ⟨trace, s, hrun, hdisciplined, hchanges⟩ := handled_error_run
  exact ⟨trace, (orderly_throughout_iff hrun).mpr hdisciplined, hchanges⟩

theorem handled_error_atomic :
    ∃ moves q, Run AtomicStep .unconfigured moves q ∧
      moves.map Move.label = [⟨.configure, .erred .success⟩] := by
  obtain ⟨trace, s, hrun, hdisciplined, hchanges⟩ := handled_error_run
  obtain ⟨moves, q, hmoves, hlabels, -⟩ := changes_atomic hrun hdisciplined
  exact ⟨moves, q, hmoves, hlabels.trans hchanges⟩

end Cases

end RosRtems.Lifecycle
