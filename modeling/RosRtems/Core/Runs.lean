import Mathlib.Logic.Basic
import Mathlib.Data.List.Basic

/-!
# Recorded runs of a labelled transition relation

A run records, for every step, the state it started from, the label it carried
and the state it reached.  The rules below are the two inductions that every
invariant of such a system rests on: a property kept by each admitted step holds
throughout, and a property that a step keeps exactly when it is admitted holds
throughout a run exactly when all of the run's steps are admitted.
-/

namespace RosRtems.Runs

variable {State Label : Type*}

/-- One recorded step of a run. -/
structure Move (State Label : Type*) where
  source : State
  label : Label
  target : State

/-- Finite runs of `step`, recorded move by move. -/
inductive Run (step : State → Label → State → Prop) :
    State → List (Move State Label) → State → Prop
  | nil (state : State) : Run step state [] state
  | cons {start middle finish : State} {label : Label}
      {trace : List (Move State Label)} :
      step start label middle → Run step middle trace finish →
        Run step start (⟨start, label, middle⟩ :: trace) finish

/-- `holds` is true of the first state of a run and of every state it reaches. -/
def Throughout (holds : State → Prop) (start : State)
    (trace : List (Move State Label)) : Prop :=
  holds start ∧ ∀ move ∈ trace, holds move.target

/-- Every step of a run was taken in a state that admits its label. -/
def Admitted (admits : State → Label → Prop)
    (trace : List (Move State Label)) : Prop :=
  ∀ move ∈ trace, admits move.source move.label

section Rules

variable {step : State → Label → State → Prop}
variable {start middle finish : State} {trace rest : List (Move State Label)}

theorem admitted_cons_iff {admits : State → Label → Prop} {move : Move State Label} :
    Admitted admits (move :: trace) ↔
      admits move.source move.label ∧ Admitted admits trace :=
  List.forall_mem_cons

theorem Admitted.nil (admits : State → Label → Prop) : Admitted admits [] :=
  List.forall_mem_nil _

theorem Admitted.cons {admits : State → Label → Prop} {move : Move State Label}
    (hhead : admits move.source move.label) (hrest : Admitted admits trace) :
    Admitted admits (move :: trace) :=
  admitted_cons_iff.mpr ⟨hhead, hrest⟩

theorem Admitted.append {admits : State → Label → Prop} (hfirst : Admitted admits trace)
    (hsecond : Admitted admits rest) : Admitted admits (trace ++ rest) :=
  List.forall_mem_append.mpr ⟨hfirst, hsecond⟩

theorem throughout_cons_iff {holds : State → Prop} {move : Move State Label} :
    Throughout holds start (move :: trace) ↔
      holds start ∧ Throughout holds move.target trace :=
  and_congr_right fun _ => List.forall_mem_cons

theorem Run.append (hfirst : Run step start trace middle)
    (hsecond : Run step middle rest finish) :
    Run step start (trace ++ rest) finish := by
  induction hfirst with
  | nil _ => exact hsecond
  | cons hstep _ ih => exact .cons hstep (ih hsecond)

theorem Run.snoc {label : Label} (hrun : Run step start trace middle)
    (hstep : step middle label finish) :
    Run step start (trace ++ [⟨middle, label, finish⟩]) finish :=
  hrun.append (.cons hstep (.nil finish))

/-- A run of admitted steps is a run of the steps that are admitted. -/
theorem Run.restrict {admits : State → Label → Prop} (hrun : Run step start trace finish)
    (hadmitted : Admitted admits trace) :
    Run (fun source label target => step source label target ∧ admits source label)
      start trace finish := by
  induction hrun with
  | nil state => exact .nil state
  | cons hstep _ ih =>
      obtain ⟨hhead, hrest⟩ := admitted_cons_iff.mp hadmitted
      exact .cons ⟨hstep, hhead⟩ (ih hrest)

/-- An invariant kept by every admitted step holds where an admitted run ends. -/
theorem Run.invariant {invariant : State → Prop} {admits : State → Label → Prop}
    (hkeep : ∀ source label target, invariant source → admits source label →
      step source label target → invariant target)
    (hrun : Run step start trace finish) (hstart : invariant start)
    (hadmitted : Admitted admits trace) : invariant finish := by
  induction hrun with
  | nil _ => exact hstart
  | cons hstep _ ih =>
      obtain ⟨hhead, hrest⟩ := admitted_cons_iff.mp hadmitted
      exact ih (hkeep _ _ _ hstart hhead hstep) hrest

/-- The move rule: where an invariant is kept by every admitted step, each move
of an admitted run is a step from a state that satisfies it to one that does. -/
theorem Run.moves {invariant : State → Prop} {admits : State → Label → Prop}
    (hkeep : ∀ source label target, invariant source → admits source label →
      step source label target → invariant target)
    (hrun : Run step start trace finish) (hstart : invariant start)
    (hadmitted : Admitted admits trace) :
    ∀ move ∈ trace, step move.source move.label move.target ∧
      invariant move.source ∧ invariant move.target := by
  induction hrun with
  | nil _ => simp
  | cons hstep _ ih =>
      obtain ⟨hhead, hrest⟩ := admitted_cons_iff.mp hadmitted
      have hnext := hkeep _ _ _ hstart hhead hstep
      exact List.forall_mem_cons.mpr ⟨⟨hstep, hstart, hnext⟩, ih hnext hrest⟩

theorem Run.throughout {invariant holds : State → Prop}
    {admits : State → Label → Prop}
    (hholds : ∀ state, invariant state → holds state)
    (hkeep : ∀ source label target, invariant source → admits source label →
      step source label target → invariant target)
    (hrun : Run step start trace finish) (hstart : invariant start)
    (hadmitted : Admitted admits trace) : Throughout holds start trace :=
  ⟨hholds _ hstart, fun move hmove =>
    hholds _ (hrun.moves hkeep hstart hadmitted move hmove).2.2⟩

/-- The exact rule: if an admitted step keeps the invariant, and a step that
leaves the property intact was admitted, then the property holds throughout a
run exactly when every step of the run was admitted. -/
theorem Run.throughout_iff_admitted {invariant holds : State → Prop}
    {admits : State → Label → Prop}
    (hholds : ∀ state, invariant state → holds state)
    (hkeep : ∀ source label target, invariant source → admits source label →
      step source label target → invariant target)
    (hforce : ∀ source label target, invariant source →
      step source label target → holds target → admits source label)
    (hrun : Run step start trace finish) (hstart : invariant start) :
    Throughout holds start trace ↔ Admitted admits trace := by
  constructor
  · intro hall
    induction hrun with
    | nil _ => exact .nil admits
    | cons hstep _ ih =>
        have hrest := (throughout_cons_iff.mp hall).2
        have hhead := hforce _ _ _ hstart hstep hrest.1
        exact .cons hhead (ih (hkeep _ _ _ hstart hhead hstep) hrest)
  · exact hrun.throughout hholds hkeep hstart

/-- The backward rule: a property that no step restores in a run that keeps another
one, and that holds where the run ends, holds throughout it. -/
theorem Run.throughout_of_finish {invariant kept holds : State → Prop}
    (hback : ∀ source label target, invariant source →
      step source label target → kept target → holds target → holds source)
    (hkeep : ∀ source label target, invariant source →
      step source label target → invariant target)
    (hrun : Run step start trace finish) (hstart : invariant start)
    (hkept : Throughout kept start trace) (hfinish : holds finish) :
    Throughout holds start trace := by
  induction hrun with
  | nil _ => exact ⟨hfinish, by simp⟩
  | cons hstep _ ih =>
      have hkeptRest := (throughout_cons_iff.mp hkept).2
      have hrest := ih (hkeep _ _ _ hstart hstep) hkeptRest hfinish
      have hholds := hback _ _ _ hstart hstep hkeptRest.1 hrest.1
      exact throughout_cons_iff.mpr ⟨hholds, hrest⟩

/-- What follows from a property state by state follows from it throughout. -/
theorem Throughout.mono {stronger weaker : State → Prop}
    (hweaken : ∀ state, stronger state → weaker state)
    (hall : Throughout stronger start trace) : Throughout weaker start trace :=
  ⟨hweaken _ hall.1, fun move hmove => hweaken _ (hall.2 move hmove)⟩

theorem Throughout.and {first second : State → Prop}
    (hfirst : Throughout first start trace) (hsecond : Throughout second start trace) :
    Throughout (fun state => first state ∧ second state) start trace :=
  ⟨⟨hfirst.1, hsecond.1⟩,
    fun move hmove => ⟨hfirst.2 move hmove, hsecond.2 move hmove⟩⟩

/-- An invariant kept by every step into a state with a property holds where a run
ends throughout which the property holds. -/
theorem Run.invariant_of_throughout {invariant holds : State → Prop}
    (hkeep : ∀ source label target, invariant source →
      step source label target → holds target → invariant target)
    (hrun : Run step start trace finish) (hstart : invariant start)
    (hall : Throughout holds start trace) : invariant finish := by
  induction hrun with
  | nil _ => exact hstart
  | cons hstep _ ih =>
      have hrest := (throughout_cons_iff.mp hall).2
      exact ih (hkeep _ _ _ hstart hstep hrest.1) hrest

/-- An invariant that admitted steps keep where they keep another property. -/
theorem Run.throughout_of_kept {invariant kept : State → Prop}
    {admits : State → Label → Prop}
    (hkeep : ∀ source label target, invariant source → admits source label →
      step source label target → kept target → invariant target)
    (hrun : Run step start trace finish) (hstart : invariant start)
    (hadmitted : Admitted admits trace) (hkept : Throughout kept start trace) :
    Throughout invariant start trace := by
  induction hrun with
  | nil _ => exact ⟨hstart, by simp⟩
  | cons hstep _ ih =>
      obtain ⟨hhead, hrest⟩ := admitted_cons_iff.mp hadmitted
      have hkeptRest := (throughout_cons_iff.mp hkept).2
      have hnext := hkeep _ _ _ hstart hhead hstep hkeptRest.1
      exact throughout_cons_iff.mpr ⟨hstart, ih hnext hrest hkeptRest⟩

/-- A property that holds throughout a run holds where the run ends. -/
theorem Run.finish_of_throughout {holds : State → Prop}
    (hrun : Run step start trace finish) (hall : Throughout holds start trace) :
    holds finish :=
  hrun.invariant_of_throughout (fun _ _ _ _ _ htarget => htarget) hall.1 hall

/-- An invariant that every step keeps holds where any run ends. -/
theorem Run.always {invariant : State → Prop}
    (hkeep : ∀ source label target, invariant source →
      step source label target → invariant target)
    (hrun : Run step start trace finish) (hstart : invariant start) :
    invariant finish := by
  have hkeepTrue : ∀ source label target, invariant source → True →
      step source label target → invariant target :=
    fun source label target hsource _ => hkeep source label target hsource
  exact hrun.invariant hkeepTrue hstart fun _ _ => trivial

theorem Run.moves_always {invariant : State → Prop}
    (hkeep : ∀ source label target, invariant source →
      step source label target → invariant target)
    (hrun : Run step start trace finish) (hstart : invariant start) :
    ∀ move ∈ trace, step move.source move.label move.target ∧
      invariant move.source ∧ invariant move.target := by
  have hkeepTrue : ∀ source label target, invariant source → True →
      step source label target → invariant target :=
    fun source label target hsource _ => hkeep source label target hsource
  exact hrun.moves hkeepTrue hstart fun _ _ => trivial

/-- The amortised bound: where every step pays one from a measure that only a growing
budget can refill, the budget bounds the length of a run. -/
theorem Run.length_le {invariant : State → Prop} {measure budget : State → ℕ}
    (hkeep : ∀ source label target, invariant source →
      step source label target → invariant target)
    (hpay : ∀ source label target, invariant source → step source label target →
      measure target + 1 + budget source ≤ measure source + budget target)
    (hrun : Run step start trace finish) (hstart : invariant start) :
    measure finish + trace.length + budget start ≤ measure start + budget finish := by
  induction hrun with
  | nil _ => simp
  | cons hstep _ ih =>
      have hfirst := hpay _ _ _ hstart hstep
      have hrest := ih (hkeep _ _ _ hstart hstep)
      simp only [List.length_cons]
      omega

/-- An abstract move matches an observed one. -/
structure Matches {Abstract Event : Type*} (related : State → Abstract → Prop)
    (observe : Move State Label → Option Event) (move : Move State Label)
    (abstractMove : Move Abstract Event) : Prop where
  observed : observe move = some abstractMove.label
  source : related move.source abstractMove.source
  target : related move.target abstractMove.target

section Simulation

variable {Abstract Event : Type*} {abstractStep : Abstract → Event → Abstract → Prop}
  {related : State → Abstract → Prop} {observe : Move State Label → Option Event}
  {invariant : State → Prop} {admits : State → Label → Prop} {abstract : Abstract}

/-- The simulation rule: where every admitted step is matched by a step of a more abstract
system, or leaves the abstract state as it is, a run of admitted steps is matched by a run
of that system, move by observed move. -/
theorem Run.simulates_moves
    (hkeep : ∀ source label target, invariant source → admits source label →
      step source label target → invariant target)
    (hsilent : ∀ source label target abstract, invariant source → admits source label →
      step source label target → related source abstract →
      observe ⟨source, label, target⟩ = none → related target abstract)
    (hobserved : ∀ source label target abstract event, invariant source →
      admits source label → step source label target → related source abstract →
      observe ⟨source, label, target⟩ = some event →
      ∃ next, abstractStep abstract event next ∧ related target next)
    (hrun : Run step start trace finish) (hstart : invariant start)
    (hadmitted : Admitted admits trace) (hrelated : related start abstract) :
    ∃ moves next, Run abstractStep abstract moves next ∧
      List.Forall₂ (Matches related observe) (trace.filter fun move => (observe move).isSome)
        moves ∧
      related finish next := by
  induction hrun generalizing abstract with
  | nil _ => exact ⟨[], abstract, .nil abstract, .nil, hrelated⟩
  | @cons source middle _ label _ hstep _ ih =>
      obtain ⟨hhead, hrest⟩ := admitted_cons_iff.mp hadmitted
      have hnext := hkeep _ _ _ hstart hhead hstep
      cases hobserve : observe ⟨source, label, middle⟩ with
      | none =>
          have hmiddle := hsilent _ _ _ _ hstart hhead hstep hrelated hobserve
          obtain ⟨moves, next, hmoves, hmatched, hfinish⟩ := ih hnext hrest hmiddle
          exact ⟨moves, next, hmoves, by simpa [hobserve] using hmatched, hfinish⟩
      | some event =>
          obtain ⟨between, hevent, hmiddle⟩ :=
            hobserved _ _ _ _ _ hstart hhead hstep hrelated hobserve
          obtain ⟨moves, next, hmoves, hmatched, hfinish⟩ := ih hnext hrest hmiddle
          refine ⟨_, next, .cons hevent hmoves, ?_, hfinish⟩
          rw [List.filter_cons_of_pos (by rw [hobserve]; rfl)]
          exact .cons ⟨hobserve, hrelated, hmiddle⟩ hmatched

/-- The labels of the moves that match a trace are what one observes of it. -/
theorem labels_of_matches {moves : List (Move Abstract Event)}
    (hmatched : List.Forall₂ (Matches related observe)
      (trace.filter fun move => (observe move).isSome) moves) :
    moves.map Move.label = trace.filterMap observe := by
  induction trace generalizing moves with
  | nil =>
      cases hmatched
      rfl
  | cons move trace ih =>
      cases hobserve : observe move with
      | none =>
          rw [List.filter_cons_of_neg (by simp [hobserve])] at hmatched
          rw [List.filterMap_cons_none hobserve]
          exact ih hmatched
      | some event =>
          rw [List.filter_cons_of_pos (by simp [hobserve])] at hmatched
          rw [List.filterMap_cons_some hobserve]
          cases hmatched with
          | @cons _ abstractMove _ moves hhead hrest =>
              have hlabel := Option.some.inj (hobserve.symm.trans hhead.observed)
              rw [List.map_cons, ih hrest, hlabel]

/-- What is demanded of observed moves only is demanded of the moves that match them. -/
theorem admitted_iff_of_matches {demands : State → Label → Prop}
    {abstractDemands : Abstract → Event → Prop} {moves : List (Move Abstract Event)}
    (hmatched : List.Forall₂ (Matches related observe)
      (trace.filter fun move => (observe move).isSome) moves)
    (hsilent : ∀ move, observe move = none → demands move.source move.label)
    (hobserved : ∀ move abstractMove, Matches related observe move abstractMove →
      (demands move.source move.label ↔
        abstractDemands abstractMove.source abstractMove.label)) :
    Admitted demands trace ↔ Admitted abstractDemands moves := by
  induction trace generalizing moves with
  | nil =>
      cases hmatched
      exact iff_of_true (.nil _) (.nil _)
  | cons move trace ih =>
      cases hobserve : observe move with
      | none =>
          rw [List.filter_cons_of_neg (by simp [hobserve])] at hmatched
          rw [admitted_cons_iff, ih hmatched]
          exact and_iff_right (hsilent move hobserve)
      | some event =>
          rw [List.filter_cons_of_pos (by simp [hobserve])] at hmatched
          cases hmatched with
          | @cons _ abstractMove _ moves hhead hrest =>
              rw [admitted_cons_iff, admitted_cons_iff, ih hrest, hobserved _ _ hhead]

theorem Run.simulates
    (hkeep : ∀ source label target, invariant source → admits source label →
      step source label target → invariant target)
    (hsilent : ∀ source label target abstract, invariant source → admits source label →
      step source label target → related source abstract →
      observe ⟨source, label, target⟩ = none → related target abstract)
    (hobserved : ∀ source label target abstract event, invariant source →
      admits source label → step source label target → related source abstract →
      observe ⟨source, label, target⟩ = some event →
      ∃ next, abstractStep abstract event next ∧ related target next)
    (hrun : Run step start trace finish) (hstart : invariant start)
    (hadmitted : Admitted admits trace) (hrelated : related start abstract) :
    ∃ moves next, Run abstractStep abstract moves next ∧
      moves.map Move.label = trace.filterMap observe ∧ related finish next := by
  obtain ⟨moves, next, hmoves, hmatched, hfinish⟩ :=
    hrun.simulates_moves hkeep hsilent hobserved hstart hadmitted hrelated
  exact ⟨moves, next, hmoves, labels_of_matches hmatched, hfinish⟩

end Simulation

end Rules

end RosRtems.Runs
