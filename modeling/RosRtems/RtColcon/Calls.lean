import RosRtems.RtColcon.Script

/-!
# The calls of `compile_one`

What a call does, without the fuel: one rule for each way through the loop over the
dependencies, and one for each way in which the call ends.
-/

namespace RosRtems.RtColcon

variable {Component : Type*} [DecidableEq Component]

/-- A call of `compile_one`, or the rest of the loop over the dependencies in it. -/
inductive Task (Component : Type*)
  | one (component : Component)
  | dependencies (rest : List Component)

/-- The components that a task is to compile. -/
def Task.wanted : Task Component → List Component
  | .one component => [component]
  | .dependencies rest => rest

/-- The task leads from one build to another one, and succeeds or fails. -/
inductive Runs (setup : Setup Component) :
    Task Component → Build Component → Bool → Build Component → Prop
  | done {build} : Runs setup (.dependencies []) build true build
  | compiled {dep rest build ok left} (hcompiled : dep ∈ build.compiled)
      (hrest : Runs setup (.dependencies rest) build ok left) :
      Runs setup (.dependencies (dep :: rest)) build ok left
  | failed {dep rest build left} (hcompiled : dep ∉ build.compiled)
      (hdep : Runs setup (.one dep) build false left) :
      Runs setup (.dependencies (dep :: rest)) build false left
  | built {dep rest build between ok left} (hcompiled : dep ∉ build.compiled)
      (hdep : Runs setup (.one dep) build true between)
      (hrest : Runs setup (.dependencies rest) between ok left) :
      Runs setup (.dependencies (dep :: rest)) build ok left
  | dependencyFailed {component build left}
      (hdeps : Runs setup (.dependencies (setup.table.dependencies component)) build false left) :
      Runs setup (.one component) build false
        ((left.markFailed component true).print (.dependencyFailed component))
  | alreadyCompiled {component build left}
      (hdeps : Runs setup (.dependencies (setup.table.dependencies component)) build true left)
      (hcompiled : component ∈ left.compiled) :
      Runs setup (.one component) build true (left.print (.alreadyCompiled component))
  | buildFailed {component build left}
      (hdeps : Runs setup (.dependencies (setup.table.dependencies component)) build true left)
      (hcompiled : component ∉ left.compiled)
      (houtcome : setup.outcome component (left.starts.count component) ≠ .succeeded) :
      Runs setup (.one component) build false
        (((left.print (.starting component left.compiled)).markFailed component
          (setup.outcome component (left.starts.count component)).foundDirectory).print
            (.failed component))
  | buildSucceeded {component build left}
      (hdeps : Runs setup (.dependencies (setup.table.dependencies component)) build true left)
      (hcompiled : component ∉ left.compiled)
      (houtcome : setup.outcome component (left.starts.count component) = .succeeded) :
      Runs setup (.one component) build true
        (((left.print (.starting component left.compiled)).markCompiled component).print
          (.finished component))

variable {setup : Setup Component}

/-- The end of a call, by the rules. -/
theorem Runs.finish {component : Component} {build left : Build Component} {ok : Bool}
    (hdeps : Runs setup (.dependencies (setup.table.dependencies component)) build ok left) :
    Runs setup (.one component) build (finishOne setup component (!ok) left).1
      (finishOne setup component (!ok) left).2 := by
  rw [finishOne]
  cases ok with
  | false => exact .dependencyFailed hdeps
  | true =>
      by_cases hcompiled : component ∈ left.compiled
      · rw [if_neg (by simp), if_pos hcompiled]
        exact .alreadyCompiled hdeps hcompiled
      · rw [if_neg (by simp), if_neg hcompiled, startBuild]
        cases houtcome : setup.outcome component (left.starts.count component) with
        | noDirectory | failed =>
            have hfails := Runs.buildFailed hdeps hcompiled (by simp [houtcome])
            rwa [houtcome] at hfails
        | succeeded => exact .buildSucceeded hdeps hcompiled houtcome

theorem runs_of_compileDependencies {fuel : ℕ}
    (hone : ∀ {component build ok left},
      compileOne setup fuel component build = some (ok, left) →
        Runs setup (.one component) build ok left)
    {deps : List Component} {build left : Build Component} {depFailed : Bool}
    (hrun : compileDependencies (compileOne setup fuel) false deps build =
      some (depFailed, left)) :
    Runs setup (.dependencies deps) build (!depFailed) left := by
  induction deps generalizing build with
  | nil =>
      obtain ⟨rfl, rfl⟩ := Prod.mk.inj (Option.some.inj hrun)
      exact .done
  | cons dep rest ih =>
      rw [compileDependencies, if_neg (by simp)] at hrun
      split at hrun
      · rename_i hcompiled
        exact .compiled hcompiled (ih hrun)
      · rename_i hcompiled
        obtain ⟨⟨ok, between⟩, hdep, hrest⟩ := Option.bind_eq_some_iff.mp hrun
        cases ok with
        | true => exact .built hcompiled (hone hdep) (ih hrest)
        | false =>
            -- the loop breaks, or was at its end
            have hend : (depFailed, left) = (true, between) := by
              cases rest with
              | nil => exact (Option.some.inj hrest).symm
              | cons other rest => exact (Option.some.inj hrest).symm
            obtain ⟨rfl, rfl⟩ := Prod.mk.inj hend
            exact .failed hcompiled (hone hdep)

/-- What `compile_one` computes follows the rules. -/
theorem runs_of_compileOne {fuel : ℕ} {component : Component} {build left : Build Component}
    {ok : Bool} (hrun : compileOne setup fuel component build = some (ok, left)) :
    Runs setup (.one component) build ok left := by
  induction fuel generalizing component build ok left with
  | zero => cases hrun
  | succ fuel ih =>
      rw [compileOne] at hrun
      obtain ⟨⟨depFailed, between⟩, hdeps, hfinish⟩ := Option.bind_eq_some_iff.mp hrun
      have hend := (runs_of_compileDependencies ih hdeps).finish
      rw [Bool.not_not, Option.some.inj hfinish] at hend
      exact hend

/-- The main loop, call by call. -/
inductive Loops (setup : Setup Component) :
    List Component → Build Component → Build Component → Prop
  | done {build} : Loops setup [] build build
  | next {component rest build ok between left}
      (hone : Runs setup (.one component) build ok between)
      (hrest : Loops setup rest between left) : Loops setup (component :: rest) build left

theorem loops_of_mainLoop {fuel : ℕ} {targets : List Component} {build left : Build Component}
    (hrun : mainLoop setup fuel targets build = some left) :
    Loops setup targets build left := by
  induction targets generalizing build with
  | nil =>
      cases Option.some.inj hrun
      exact .done
  | cons component rest ih =>
      obtain ⟨⟨ok, between⟩, hone, hrest⟩ := Option.bind_eq_some_iff.mp hrun
      exact .next (runs_of_compileOne hone) (ih hrest)

end RosRtems.RtColcon
