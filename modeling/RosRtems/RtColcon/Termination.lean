import RosRtems.RtColcon.Script

/-!
# The script ends

On an acyclic table every call of `compile_one` and of `resolve_deps` returns: from some
fuel on, the result does not depend on the fuel any more.
-/

namespace RosRtems.RtColcon

open Filter

variable {Component : Type*} [DecidableEq Component] {setup : Setup Component}

theorem eventually_of_succ {holds : ℕ → Prop} (hsucc : ∀ᶠ fuel in atTop, holds (fuel + 1)) :
    ∀ᶠ fuel in atTop, holds fuel := by
  rw [← map_add_atTop_eq_nat 1]
  exact hsucc

theorem compileDependencies_settles (deps : List Component)
    (hdeps : ∀ dep ∈ deps, ∀ build,
      ∃ result, ∀ᶠ fuel in atTop, compileOne setup fuel dep build = some result)
    (depFailed : Bool) (build : Build Component) :
    ∃ result, ∀ᶠ fuel in atTop,
      compileDependencies (compileOne setup fuel) depFailed deps build = some result := by
  induction deps generalizing depFailed build with
  | nil => exact ⟨_, .of_forall fun _ => rfl⟩
  | cons dep rest ih =>
      obtain ⟨hdep, hrest⟩ := List.forall_mem_cons.mp hdeps
      simp only [compileDependencies]
      by_cases hfailed : depFailed = true
      · exact ⟨_, .of_forall fun _ => if_pos hfailed⟩
      simp only [if_neg hfailed]
      by_cases hcompiled : dep ∈ build.compiled
      · obtain ⟨result, hresult⟩ := ih hrest false build
        exact ⟨result, hresult.mono fun fuel h => by rw [if_pos hcompiled, h]⟩
      · obtain ⟨⟨ok, left⟩, hcompiles⟩ := hdep build
        obtain ⟨result, hresult⟩ := ih hrest (!ok) left
        refine ⟨result, (hcompiles.and hresult).mono fun fuel h => ?_⟩
        rw [if_neg hcompiled, h.1]
        exact h.2

/-- A call of `compile_one` returns. -/
theorem compileOne_settles (hacyclic : setup.table.Acyclic) (component : Component)
    (build : Build Component) :
    ∃ result, ∀ᶠ fuel in atTop, compileOne setup fuel component build = some result := by
  induction component using hacyclic.wellFounded.induction generalizing build with
  | _ component ih =>
      obtain ⟨⟨depFailed, left⟩, hdeps⟩ := compileDependencies_settles
        (setup.table.dependencies component) (fun dep hdep => ih dep hdep) false build
      refine ⟨finishOne setup component depFailed left,
        eventually_of_succ (hdeps.mono fun fuel h => ?_)⟩
      rw [compileOne, h]
      rfl

theorem mainLoop_settles (hacyclic : setup.table.Acyclic) (targets : List Component)
    (build : Build Component) :
    ∃ result, ∀ᶠ fuel in atTop, mainLoop setup fuel targets build = some result := by
  induction targets generalizing build with
  | nil => exact ⟨build, .of_forall fun _ => rfl⟩
  | cons component rest ih =>
      obtain ⟨⟨ok, left⟩, hcompiles⟩ := compileOne_settles hacyclic component build
      obtain ⟨result, hresult⟩ := ih left
      refine ⟨result, (hcompiles.and hresult).mono fun fuel h => ?_⟩
      rw [mainLoop, h.1]
      exact h.2

theorem foldlM_resolveDeps_settles {below : List Component}
    (hbelow : ∀ dep ∈ below, ∀ needed, ∃ result, result ≠ .error .outOfFuel ∧
      ∀ᶠ fuel in atTop, resolveDeps setup fuel dep needed = result)
    (needed : Finset Component) :
    ∃ result, result ≠ .error .outOfFuel ∧ ∀ᶠ fuel in atTop,
      below.foldlM (fun needed dep => resolveDeps setup fuel dep needed) needed = result := by
  induction below generalizing needed with
  | nil => exact ⟨.ok needed, by simp, .of_forall fun _ => rfl⟩
  | cons dep rest ih =>
      obtain ⟨hdep, hrest⟩ := List.forall_mem_cons.mp hbelow
      obtain ⟨result, hends, hresult⟩ := hdep needed
      cases result with
      | error stop =>
          refine ⟨.error stop, hends, hresult.mono fun fuel h => ?_⟩
          rw [List.foldlM_cons, h]
          rfl
      | ok found =>
          obtain ⟨last, hlast, hsettles⟩ := ih hrest found
          refine ⟨last, hlast, (hresult.and hsettles).mono fun fuel h => ?_⟩
          rw [List.foldlM_cons, h.1]
          exact h.2

/-- A call of `resolve_deps` returns, or ends the script. -/
theorem resolveDeps_settles (hacyclic : setup.table.Acyclic) (package : Component)
    (needed : Finset Component) :
    ∃ result, result ≠ .error .outOfFuel ∧
      ∀ᶠ fuel in atTop, resolveDeps setup fuel package needed = result := by
  induction package using hacyclic.wellFounded.induction generalizing needed with
  | _ package ih =>
      by_cases hneeded : package ∈ needed
      · refine ⟨.ok needed, by simp, eventually_of_succ (.of_forall fun fuel => ?_)⟩
        rw [resolveDeps, if_pos hneeded]
      cases hline : setup.table.line package with
      | none =>
          refine ⟨.error (.unboundVariable package), by simp,
            eventually_of_succ (.of_forall fun fuel => ?_)⟩
          rw [resolveDeps, if_neg hneeded, hline]
      | some below =>
          have hbelow : ∀ dep ∈ below, setup.table.Dependency dep package := by
            intro dep hdep
            rw [Table.Dependency, Table.dependencies, hline]
            exact hdep
          obtain ⟨result, hends, hresult⟩ := foldlM_resolveDeps_settles
            (fun dep hdep => ih dep (hbelow dep hdep)) (insert package needed)
          refine ⟨result, hends, eventually_of_succ (hresult.mono fun fuel h => ?_)⟩
          rw [resolveDeps, if_neg hneeded, hline]
          exact h

theorem selectPackages_settles (hacyclic : setup.table.Acyclic) (packages : List Component)
    (found : Finset Component × List Component) :
    ∃ result, result ≠ .error .outOfFuel ∧
      ∀ᶠ fuel in atTop, selectPackages setup fuel packages found = result := by
  induction packages generalizing found with
  | nil => exact ⟨.ok found, by simp, .of_forall fun _ => rfl⟩
  | cons package rest ih =>
      obtain ⟨needed, extra⟩ := found
      simp only [selectPackages]
      split
      · split
        · exact ih _
        · exact ⟨.error (.unknownPackage package), by simp, .of_forall fun _ => rfl⟩
      · obtain ⟨resolved, hends, hresolved⟩ := resolveDeps_settles hacyclic package needed
        cases resolved with
        | error stop =>
            refine ⟨.error stop, by simpa using hends, hresolved.mono fun fuel h => ?_⟩
            rw [h]
            rfl
        | ok needed =>
            obtain ⟨result, hlast, hresult⟩ := ih (needed, extra)
            refine ⟨result, hlast, (hresolved.and hresult).mono fun fuel h => ?_⟩
            rw [h.1]
            exact h.2

theorem targetPackages_settles (hacyclic : setup.table.Acyclic) :
    ∃ result, result ≠ .error .outOfFuel ∧
      ∀ᶠ fuel in atTop, targetPackages setup fuel = result := by
  cases hselect : setup.selectPackages with
  | none =>
      refine ⟨.ok (setup.table.components.filter fun component =>
        component ∉ setup.skipPackages), by simp, .of_forall fun fuel => ?_⟩
      rw [targetPackages, hselect]
      rfl
  | some packages =>
      obtain ⟨selected, hends, hselected⟩ :=
        selectPackages_settles hacyclic packages (∅, [])
      cases selected with
      | error stop =>
          refine ⟨.error stop, by simpa using hends, hselected.mono fun fuel h => ?_⟩
          simp only [targetPackages, hselect, h]
          rfl
      | ok found =>
          obtain ⟨needed, extra⟩ := found
          refine ⟨.ok ((setup.table.components.filter (fun component => component ∈ needed) ++
            extra).filter fun component => component ∉ setup.skipPackages), by simp,
            hselected.mono fun fuel h => ?_⟩
          simp only [targetPackages, hselect, h]
          rfl

/-- The script ends before the main loop, or at the end of the main loop. -/
theorem rtColcon_settles (hacyclic : setup.table.Acyclic) :
    ∃ result, result ≠ .error .outOfFuel ∧ ∀ᶠ fuel in atTop, rtColcon setup fuel = result := by
  obtain ⟨selected, hends, hselected⟩ := targetPackages_settles hacyclic
  cases selected with
  | error stop =>
      refine ⟨.error stop, by simpa using hends, hselected.mono fun fuel h => ?_⟩
      rw [rtColcon, h]
      rfl
  | ok targets =>
      obtain ⟨build, hbuild⟩ := mainLoop_settles hacyclic targets (initialBuild setup)
      refine ⟨.ok (targets, build), by simp, (hselected.and hbuild).mono fun fuel h => ?_⟩
      rw [rtColcon_of_targets h.1, h.2]
      rfl

/-- A result that some fuel and every greater one gives is the one that the script ends
with. -/
theorem settles_unique {enough : ℕ}
    {result expected : Except (Stop Component) (List Component × Build Component)}
    (hruns : ∀ fuel, rtColcon setup (fuel + enough) = expected)
    (hresult : ∀ᶠ fuel in atTop, rtColcon setup fuel = result) : expected = result := by
  obtain ⟨fuel, hfuel, henough⟩ := (hresult.and (eventually_ge_atTop enough)).exists
  obtain ⟨more, rfl⟩ := Nat.exists_eq_add_of_le' henough
  exact (hruns more).symm.trans hfuel

end RosRtems.RtColcon
