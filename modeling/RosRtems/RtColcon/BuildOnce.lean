import RosRtems.RtColcon.Failures
import RosRtems.RtColcon.Selection
import RosRtems.RtColcon.Termination

/-!
# What is built, and how often

A call for a component that has failed goes down to the culprit again and builds it once
more.  So every component is built once, and `FAILED_COUNT` counts components, exactly
when no two targets fail through the same build; and the packages to be skipped are left
out exactly when no target needs to build one of them.
-/

namespace RosRtems.RtColcon

open Filter

variable {Component : Type*} [DecidableEq Component]

/-! ## Trying a failed component again -/

section Again

variable {setup : Setup Component} {build left : Build Component} {task : Task Component}
  {ok : Bool} {last : Component}

/-- Builds are only added. -/
theorem Runs.starts_suffix (hruns : Runs setup task build ok left) :
    build.starts <:+ left.starts := by
  induction hruns with
  | done => exact List.suffix_rfl
  | compiled _ _ ih => exact ih
  | failed _ _ ih => exact ih
  | built _ _ _ ihdep ihrest => exact ihdep.trans ihrest
  | dependencyFailed _ ih => exact ih
  | alreadyCompiled _ _ ih => exact ih
  | buildFailed _ _ _ ih => exact ih.trans (List.suffix_cons _ _)
  | buildSucceeded _ _ _ ih => exact ih.trans (List.suffix_cons _ _)

theorem Loops.starts_suffix {targets : List Component}
    (hloops : Loops setup targets build left) : build.starts <:+ left.starts := by
  induction hloops with
  | done => exact List.suffix_rfl
  | next hone _ ih => exact hone.starts_suffix.trans ih

/-- The culprit is the component itself, or to be blamed on its dependencies. -/
theorem blamed_one_cases {component : Component}
    (hblamed : (Task.one component).Blamed setup last) (hlast : setup.Unblocked last) :
    (setup.Unblocked component ∧ last = component) ∨
      (Task.dependencies (setup.table.dependencies component)).Blamed setup last := by
  by_cases hunblocked : setup.Unblocked component
  · exact .inl ⟨hunblocked, hunblocked.blames_iff.mp hblamed.2⟩
  · obtain ⟨dep, hfirst⟩ := Dependency.not_unblocked_iff.mp hunblocked
    refine .inr (((blamed_one_of_firstBlocking hfirst).mp hblamed).resolve_left ?_)
    rintro rfl
    exact hunblocked hlast

/-- A loop over dependencies that do not fail. -/
theorem Runs.effect_of_unblocked (hacyclic : setup.table.Acyclic) {component : Component}
    (hdeps : Runs setup (.dependencies (setup.table.dependencies component)) build ok left)
    (hsound : Sound setup build) (hunblocked : setup.Unblocked component) :
    Effect setup (.dependencies (setup.table.dependencies component)) build ok left :=
  hdeps.effect hacyclic hsound fun _ hblamed =>
    absurd hblamed (not_blamed_of_unblocked hunblocked)

/-- The build that is started at the end of a call is that of the culprit, or the culprit
has been built in the loop. -/
theorem count_lt_of_start {component : Component}
    (hdeps : Runs setup (.dependencies (setup.table.dependencies component)) build ok left)
    (hblamed : (Task.one component).Blamed setup last) (hlast : setup.Unblocked last)
    (hloop : (Task.dependencies (setup.table.dependencies component)).Blamed setup last →
      build.starts.count last < left.starts.count last) :
    build.starts.count last < (component :: left.starts).count last := by
  rcases blamed_one_cases hblamed hlast with ⟨-, rfl⟩ | hbelow
  · rw [List.count_cons_self]
    exact Nat.lt_succ_of_le (hdeps.starts_suffix.sublist.count_le last)
  · exact (hloop hbelow).trans_le List.count_le_count_cons

/-- A call for a component whose failure has a culprit starts the build of the culprit,
whether this has failed before or not. -/
theorem Runs.count_culprit_lt (hacyclic : setup.table.Acyclic)
    (hruns : Runs setup task build ok left) (hsound : Sound setup build)
    (hblamed : task.Blamed setup last) (hlast : setup.Unblocked last) :
    build.starts.count last < left.starts.count last := by
  induction hruns with
  | done =>
      obtain ⟨first, ⟨htried, -⟩, -⟩ := hblamed
      exact htried.elim
  | compiled hcompiled _ ih =>
      exact ih hsound ((blamed_cons_of_not_blocks
        (not_blocks_of_compiled hsound hcompiled)).mp hblamed)
  | @failed dep rest build left hcompiled hdep ih =>
      have hmarked := hsound.not_marked hcompiled
      by_cases hfails : setup.Fails dep
      · exact ih hsound ⟨hfails, (blamed_cons_of_blocks ⟨hmarked, hfails⟩).mp hblamed⟩
      · -- a call for a component that does not fail blames nobody, so it cannot fail
        have heffect := hdep.effect hacyclic hsound fun other hother => absurd hother.1 hfails
        exact absurd (heffect.fails.mp rfl) hfails
  | @built dep rest build between ok left hcompiled hdep hrest ihdep ihrest =>
      have hmarked := hsound.not_marked hcompiled
      by_cases hfails : setup.Fails dep
      · exact (ihdep hsound
          ⟨hfails, (blamed_cons_of_blocks ⟨hmarked, hfails⟩).mp hblamed⟩).trans_le
            (hrest.starts_suffix.sublist.count_le _)
      · have heffect := hdep.effect hacyclic hsound fun other hother => absurd hother.1 hfails
        exact (hdep.starts_suffix.sublist.count_le _).trans_lt (ihrest heffect.sound
          ((blamed_cons_of_not_blocks fun hblocks => hfails hblocks.2).mp hblamed))
  | dependencyFailed hdeps ih =>
      rcases blamed_one_cases hblamed hlast with ⟨hunblocked, -⟩ | hbelow
      · have heffect := hdeps.effect_of_unblocked hacyclic hsound hunblocked
        exact absurd hunblocked (fails_dependencies_iff.mp (heffect.fails.mp rfl))
      · exact ih hsound hbelow
  | alreadyCompiled hdeps hcompiled ih =>
      rcases blamed_one_cases hblamed hlast with ⟨hunblocked, -⟩ | hbelow
      · have heffect := hdeps.effect_of_unblocked hacyclic hsound hunblocked
        have hmarked := (hunblocked.fails_iff.mp hblamed.1).1
        exact absurd hblamed.1 (heffect.sound.fits _ hcompiled hmarked).1
      · exact ih hsound hbelow
  | buildFailed hdeps _ _ ih => exact count_lt_of_start hdeps hblamed hlast (ih hsound)
  | buildSucceeded hdeps _ _ ih => exact count_lt_of_start hdeps hblamed hlast (ih hsound)

end Again

/-! ## The main loop -/

section MainLoop

variable {setup : Setup Component} {build left : Build Component} {rest : List Component}

/-- Two components do not fail through the same build. -/
def Setup.Apart (setup : Setup Component) (first second : Component) : Prop :=
  ∀ last, setup.Culprit first last → ¬ setup.Culprit second last

/-- What the main loop does as long as nothing that has failed is tried again. -/
structure Sweep (setup : Setup Component) (rest : List Component)
    (build left : Build Component) : Prop where
  sound : Sound setup left
  kept : build.starts ⊆ left.starts
  failed : build.failures ⊆ left.failures
  failures : ∀ component ∈ rest, setup.Fails component → component ∈ left.failures
  reached : ∀ component ∈ left.starts, component ∈ build.starts ∨
    ∃ target ∈ rest, setup.Reaches target component
  complete : ∀ target ∈ rest, ∀ component, setup.Reaches target component →
    setup.Buildable component → component ∈ left.starts

/-- All that is to be blamed for a failure has failed. -/
theorem Sound.failed_of_blames (hsound : Sound setup build) {upper lower : Component}
    (hfailed : upper ∈ build.failures) (hblames : setup.Blames upper lower) :
    lower ∈ build.failures := by
  induction hblames with
  | refl => exact hfailed
  | tail _ hfirst ih => exact hsound.blamed _ ih _ hfirst

/-- If the culprit of a component has not failed yet, nothing on the way to it has. -/
theorem fresh_of_culprit (hacyclic : setup.table.Acyclic) (hsound : Sound setup build)
    {component : Component}
    (hculprit : ∀ last, setup.Culprit component last → last ∉ build.failures)
    {other : Component} (hblamed : (Task.one component).Blamed setup other) :
    other ∉ build.failures := by
  intro hfailed
  obtain ⟨last, -, hblames, hlast⟩ := (hblamed.1.of_blames hblamed.2).exists_culprit hacyclic
  exact hculprit last ⟨hblamed.1, hblamed.2.trans hblames, hlast⟩
    (hsound.failed_of_blames hfailed hblames)

/-- After a call, the culprit of a component that is apart from the one that was called
has not failed yet. -/
theorem Effect.culprit_fresh {component other : Component} {ok : Bool}
    (heffect : Effect setup (.one component) build ok left)
    (hculprit : ∀ last, setup.Culprit other last → last ∉ build.failures)
    (hapart : setup.Apart component other) {last : Component}
    (hlast : setup.Culprit other last) : last ∉ left.failures := by
  rw [heffect.failures, not_or]
  exact ⟨hculprit last hlast, fun hblamed =>
    hapart last ⟨hblamed.1, hblamed.2, hlast.2.2⟩ hlast⟩

theorem Sweep.cons {component : Component} {between : Build Component} {ok : Bool}
    (hsweep : Sweep setup rest between left)
    (heffect : Effect setup (.one component) build ok between) :
    Sweep setup (component :: rest) build left where
  sound := hsweep.sound
  kept := List.Subset.trans heffect.kept hsweep.kept
  failed := fun other hmem => hsweep.failed ((heffect.failures other).mpr (.inl hmem))
  failures := List.forall_mem_cons.mpr ⟨fun hfails =>
    hsweep.failed ((heffect.failures component).mpr (.inr ⟨hfails, .refl⟩)), hsweep.failures⟩
  reached := by
    intro other hmem
    rcases hsweep.reached other hmem with hbetween | ⟨target, htarget, hreaches⟩
    · exact (heffect.reached other hbetween).imp_right fun hreaches =>
        ⟨component, List.mem_cons_self, hreaches⟩
    · exact .inr ⟨target, List.mem_cons_of_mem _ htarget, hreaches⟩
  complete := List.forall_mem_cons.mpr ⟨fun other hreaches hbuildable =>
    hsweep.kept (heffect.complete other hreaches hbuildable), hsweep.complete⟩

theorem Loops.sweep (hacyclic : setup.table.Acyclic) (hloops : Loops setup rest build left)
    (hsound : Sound setup build) (hapart : rest.Pairwise setup.Apart)
    (hculprit : ∀ component ∈ rest, ∀ last, setup.Culprit component last →
      last ∉ build.failures) : Sweep setup rest build left := by
  induction hloops with
  | done =>
      exact ⟨hsound, List.Subset.refl _, List.Subset.refl _,
        fun _ hmem => absurd hmem List.not_mem_nil, fun _ hmem => .inl hmem,
        fun _ hmem => absurd hmem List.not_mem_nil⟩
  | @next component rest build ok between left hone _ ih =>
      obtain ⟨hfirst, hrest⟩ := List.pairwise_cons.mp hapart
      obtain ⟨hown, hothers⟩ := List.forall_mem_cons.mp hculprit
      have heffect := hone.effect hacyclic hsound fun other hblamed =>
        fresh_of_culprit hacyclic hsound hown hblamed
      have hsweep := ih heffect.sound hrest fun other hmem last hlast =>
        heffect.culprit_fresh (hothers other hmem) (hfirst other hmem) hlast
      exact hsweep.cons heffect

/-- If every build is started once, the targets are apart. -/
theorem Loops.apart_of_nodup (hacyclic : setup.table.Acyclic)
    (hloops : Loops setup rest build left) (hsound : Sound setup build)
    (honce : left.starts.Nodup) :
    rest.Pairwise setup.Apart ∧ ∀ component ∈ rest, ∀ last, setup.Culprit component last →
      last ∉ build.failures := by
  induction hloops with
  | done => exact ⟨.nil, fun _ hmem => by cases hmem⟩
  | @next component rest build ok between left hone hrest ih =>
      have hown : ∀ last, setup.Culprit component last → last ∉ build.failures := by
        -- the culprit has been built before, and this call builds it again
        intro last hlast hfailed
        have hbefore : 0 < build.starts.count last :=
          List.count_pos_iff.mpr (hsound.culprit last hfailed hlast.2.2).1
        have hagain : build.starts.count last < between.starts.count last :=
          hone.count_culprit_lt hacyclic hsound ⟨hlast.1, hlast.2.1⟩ hlast.2.2
        have hafter : between.starts.count last ≤ left.starts.count last :=
          hrest.starts_suffix.sublist.count_le last
        have hend : left.starts.count last ≤ 1 := List.nodup_iff_count_le_one.mp honce last
        omega
      have heffect := hone.effect hacyclic hsound fun other hblamed =>
        fresh_of_culprit hacyclic hsound hown hblamed
      obtain ⟨hapart, hothers⟩ := ih heffect.sound honce
      refine ⟨List.pairwise_cons.mpr ⟨fun other hmem last hlast hother => ?_, hapart⟩,
        List.forall_mem_cons.mpr ⟨hown, fun other hmem last hlast hfailed => ?_⟩⟩
      · exact hothers other hmem last hother
          ((heffect.failures last).mpr (.inr ⟨hlast.1, hlast.2.1⟩))
      · exact hothers other hmem last hlast ((heffect.failures last).mpr (.inl hfailed))

end MainLoop

/-! ## What was asked for -/

section Asked

variable (setup : Setup Component)

/-- What was asked for is built once: no build is started twice, none of a package that is
to be skipped, and none that is not requested.  What is requested and not built was
compiled before, is to be skipped, or depends on a component that has failed or is to be
skipped.  `FAILED_COUNT` is the number of components that have failed or were given up. -/
structure BuiltOnce (build : Build Component) : Prop where
  once : build.starts.Nodup
  skipped : ∀ component ∈ setup.skipPackages, component ∉ build.starts
  selected : ∀ packages, setup.selectPackages = some packages →
    ∀ component ∈ build.starts, ∃ package ∈ packages,
      Relation.ReflTransGen setup.table.Dependency component package
  covered : ∀ component, setup.Requested component → component ∉ build.starts →
    component ∈ setup.marked ∨ component ∈ setup.skipPackages ∨
      ∃ lower, Relation.TransGen setup.table.Dependency lower component ∧
        (.failed lower ∈ build.log ∨ lower ∈ setup.skipPackages)
  counted : build.failedCount = build.failures.toFinset.card

/-- No two targets fail through the same build. -/
def Setup.FailuresApart : Prop := setup.targets.Pairwise setup.Apart

/-- No target gets to a package that is to be skipped, and would be built. -/
def Setup.SkippedUnneeded : Prop :=
  ∀ component ∈ setup.skipPackages, ∀ target ∈ setup.targets,
    setup.Reaches target component → ¬ setup.Buildable component

variable {setup} {build : Build Component}

/-- A component that is not built has its marker, or fails through another build. -/
theorem Sweep.not_started (hacyclic : setup.table.Acyclic)
    (hsweep : Sweep setup setup.targets (initialBuild setup) build) {component : Component}
    (htarget : component ∈ setup.targets) (hstarted : component ∉ build.starts) :
    component ∈ setup.marked ∨
      ∃ lower, Relation.TransGen setup.table.Dependency lower component ∧
        .failed lower ∈ build.log := by
  refine or_iff_not_imp_left.mpr fun hmarked => ?_
  have hblocked : ¬ setup.Unblocked component := fun hunblocked =>
    hstarted (hsweep.complete component htarget component .refl ⟨hmarked, hunblocked⟩)
  obtain ⟨dep, hfirst⟩ := Dependency.not_unblocked_iff.mp hblocked
  have hfails := Setup.fails_of_firstBlocking hfirst
  obtain ⟨last, -, hblames, hlast⟩ := hfails.exists_culprit hacyclic
  have hfailed : last ∈ build.failures :=
    hsweep.sound.failed_of_blames (hsweep.failures component htarget hfails) hblames
  refine ⟨last, ?_, (hsweep.sound.culprit last hfailed hlast).2⟩
  rcases hfirst.blames_iff.mp hblames with rfl | hbelow
  · exact absurd hlast hblocked
  · exact .tail' (Setup.Blames.below hbelow) hfirst.1.mem

theorem builtOnce_of_sweep (hacyclic : setup.table.Acyclic)
    (hsweep : Sweep setup setup.targets (initialBuild setup) build)
    (htargets : ∀ component, setup.Requested component →
      component ∉ setup.skipPackages → component ∈ setup.targets)
    (hskipped : setup.SkippedUnneeded) : BuiltOnce setup build where
  once := hsweep.sound.startedOnce
  skipped := by
    intro component hskip hstarted
    rcases hsweep.reached component hstarted with hmem | ⟨target, htarget, hreaches⟩
    · cases hmem
    · exact hskipped component hskip target htarget hreaches
        (hsweep.sound.started component hstarted).1
  selected := by
    intro packages hselect component hstarted
    rcases hsweep.reached component hstarted with hmem | ⟨target, htarget, hreaches⟩
    · cases hmem
    · have hrequested := (requested_of_mem_targets htarget).1
      rw [Setup.Requested, hselect] at hrequested
      obtain ⟨package, hpackage, hpath⟩ := hrequested
      exact ⟨package, hpackage, hreaches.below.trans hpath⟩
  covered := by
    intro component hrequested hstarted
    by_cases hskip : component ∈ setup.skipPackages
    · exact .inr (.inl hskip)
    · refine (hsweep.not_started hacyclic (htargets component hrequested hskip) hstarted).imp_right
        fun hfailed => .inr ?_
      obtain ⟨lower, hbelow, hline⟩ := hfailed
      exact ⟨lower, hbelow, .inl hline⟩
  counted := by
    rw [List.toFinset_card_of_nodup hsweep.sound.failedOnce]
    exact hsweep.sound.counted

/-- On an acyclic table the script ends.  When it gets through the main loop, what was
asked for is built once if and only if no two targets fail through the same build and no
package that is to be skipped is needed. -/
theorem built_once_iff (setup : Setup Component) (hacyclic : setup.table.Acyclic) :
    ∃ result, result ≠ .error .outOfFuel ∧
      (∀ᶠ fuel in atTop, rtColcon setup fuel = result) ∧
      ∀ targets build, result = .ok (targets, build) →
        (BuiltOnce setup build ↔ setup.FailuresApart ∧ setup.SkippedUnneeded) := by
  obtain ⟨result, hends, hresult⟩ := rtColcon_settles hacyclic
  refine ⟨result, hends, hresult, fun targets build hok => ?_⟩
  obtain ⟨fuel, hfuel⟩ := hresult.exists
  obtain ⟨htargets, hloop⟩ := rtColcon_eq_ok (hfuel.trans hok)
  obtain ⟨rfl, hrequested⟩ := targetPackages_eq_ok htargets
  have hloops := loops_of_mainLoop hloop
  have hsweep : setup.FailuresApart → Sweep setup setup.targets (initialBuild setup) build :=
    fun hapart => hloops.sweep hacyclic sound_initial hapart
      fun _ _ _ _ hmem => absurd hmem List.not_mem_nil
  constructor
  · intro hbuilt
    have hapart : setup.FailuresApart :=
      (hloops.apart_of_nodup hacyclic sound_initial hbuilt.once).1
    refine ⟨hapart, fun component hskip target htarget hreaches hbuildable => ?_⟩
    exact hbuilt.skipped component hskip
      ((hsweep hapart).complete target htarget component hreaches hbuildable)
  · exact fun hcondition =>
      builtOnce_of_sweep hacyclic (hsweep hcondition.1) hrequested hcondition.2

end Asked

/-- `RTcolcon --no-force --select-packages class_loader --skip-packages rcutils`, where the
build of `rcutils` fails. -/
def rcutilsFails : Setup Package where
  table := packageTable
  selectPackages := some [.classLoader]
  skipPackages := [.rcutils]
  force := false
  compiled := ∅
  failed := ∅
  directory := fun _ => true
  outcome := fun package _ => if package = .rcutils then .failed else .succeeded

/-- The same with the marker of `rcutils` in place, where every build succeeds. -/
def rcutilsMarked : Setup Package :=
  { rcutilsFails with
    compiled := {.rcutils}
    outcome := fun _ _ => .succeeded }

/-- Where `rcutils` has its marker the other two are built once. -/
theorem built_once_iff_rcutils :
    (∃ build, (∀ᶠ fuel in atTop,
        rtColcon rcutilsMarked fuel = .ok ([.rcpputils, .classLoader], build)) ∧
      build.starts = [.classLoader, .rcpputils] ∧ BuiltOnce rcutilsMarked build) ∧
    ∃ build, (∀ᶠ fuel in atTop,
        rtColcon rcutilsFails fuel = .ok ([.rcpputils, .classLoader], build)) ∧
      build.starts = [.rcutils, .rcutils] ∧
        ¬ (rcutilsFails.FailuresApart ∧ rcutilsFails.SkippedUnneeded) := by
  constructor
  · obtain ⟨build, hruns, hstarts⟩ : ∃ build, (∀ fuel,
        rtColcon rcutilsMarked (fuel + 4) = .ok ([.rcpputils, .classLoader], build)) ∧
        build.starts = [.classLoader, .rcpputils] := ⟨_, fun _ => rfl, by decide⟩
    obtain ⟨result, -, hresult, hiff⟩ := built_once_iff rcutilsMarked packageTable_acyclic
    obtain rfl := settles_unique hruns hresult
    refine ⟨build, hresult, hstarts, (hiff _ _ rfl).mpr ⟨?_, ?_⟩⟩
    · have hfits : ∀ component, ¬ rcutilsMarked.Fails component := by
        intro component hfails
        induction hfails with
        | dependency _ _ _ ih => exact ih
        | build _ houtcome => exact houtcome rfl
      exact List.pairwise_of_forall fun first second last hfirst =>
        absurd hfirst.1 (hfits first)
    · intro component hskip target _ _ hbuildable
      obtain rfl := List.mem_singleton.mp hskip
      exact hbuildable.1 (by decide)
  · obtain ⟨build, hruns, hstarts⟩ : ∃ build, (∀ fuel,
        rtColcon rcutilsFails (fuel + 4) = .ok ([.rcpputils, .classLoader], build)) ∧
        build.starts = [.rcutils, .rcutils] := ⟨_, fun _ => rfl, by decide⟩
    obtain ⟨result, -, hresult, hiff⟩ := built_once_iff rcutilsFails packageTable_acyclic
    obtain rfl := settles_unique hruns hresult
    refine ⟨build, hresult, hstarts, fun hcondition => ?_⟩
    have honce := ((hiff _ _ rfl).mpr hcondition).once
    rw [hstarts] at honce
    revert honce
    decide

/-- `rcutils` is to be skipped, and its build is started for `rcpputils` and once more for
`class_loader`. -/
theorem skipped_rcutils_built_twice :
    rcutilsFails.table.Acyclic ∧
      ∃ build, rtColcon rcutilsFails 4 = .ok ([.rcpputils, .classLoader], build) ∧
        build.starts = [.rcutils, .rcutils] ∧ build.failedCount = 4 ∧
        ¬ BuiltOnce rcutilsFails build := by
  refine ⟨packageTable_acyclic, _, rfl, by decide, by decide, fun hbuilt => ?_⟩
  have honce := hbuilt.once
  revert honce
  decide

end RosRtems.RtColcon
