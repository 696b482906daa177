import RosRtems.RtColcon.Calls
import RosRtems.RtColcon.Termination

/-!
# Components are built after their dependencies

The loop over the dependencies only succeeds when each of them carries its marker, and a
marker is only set after a build that has succeeded.  With `--force` no marker is older
than the run, so everything below a component is built before it.
-/

namespace RosRtems.RtColcon

open Filter

variable {Component : Type*} [DecidableEq Component] {setup : Setup Component}

/-- What the markers and the lines say about the order of the builds. -/
structure BuildsInOrder (setup : Setup Component) (build : Build Component) : Prop where
  ordered : ∀ component compiled, .starting component compiled ∈ build.log →
    ∀ dep ∈ setup.table.dependencies component, dep ∈ compiled
  marked : ∀ component ∈ build.compiled, component ∈ (initialBuild setup).compiled ∨
    (.finished component ∈ build.log ∧ ∃ attempt < build.starts.count component,
      setup.outcome component attempt = .succeeded)
  closed : ∀ component ∈ build.compiled, component ∉ (initialBuild setup).compiled →
    ∀ dep ∈ setup.table.dependencies component, dep ∈ build.compiled
  below : (initialBuild setup).compiled = ∅ → ∀ component compiled earlier,
    .starting component compiled :: earlier <:+ build.log →
      ∀ dep, Relation.TransGen setup.table.Dependency dep component → .finished dep ∈ earlier

theorem buildsInOrder_initial : BuildsInOrder setup (initialBuild setup) where
  ordered := fun _ _ hline => by cases hline
  marked := fun _ hcompiled => .inl hcompiled
  closed := fun _ hcompiled hnot => absurd hcompiled hnot
  below := fun _ _ _ _ hsuffix => by
    have hnil := List.suffix_nil.mp hsuffix
    cases hnil

namespace BuildsInOrder

variable {build : Build Component}

/-- Without older markers, everything below a marked component has been built. -/
theorem finished_of_below (hbuild : BuildsInOrder setup build)
    (hinitial : (initialBuild setup).compiled = ∅) {lower upper : Component}
    (hbelow : Relation.TransGen setup.table.Dependency lower upper)
    (hupper : upper ∈ build.compiled) : .finished lower ∈ build.log := by
  have hnew : ∀ component, component ∉ (initialBuild setup).compiled := by
    intro component
    rw [hinitial]
    exact Finset.notMem_empty component
  have hcompiled : lower ∈ build.compiled := by
    induction hbelow using Relation.TransGen.head_induction_on with
    | single hstep => exact hbuild.closed upper hupper (hnew upper) _ hstep
    | head hstep _ ih => exact hbuild.closed _ ih (hnew _) _ hstep
  exact ((hbuild.marked lower hcompiled).resolve_left (hnew lower)).1

/-- Everything below a component whose dependencies carry their markers has been built. -/
theorem finished_of_dependencies (hbuild : BuildsInOrder setup build)
    (hinitial : (initialBuild setup).compiled = ∅) {lower component : Component}
    (hdeps : ∀ dep ∈ setup.table.dependencies component, dep ∈ build.compiled)
    (hbelow : Relation.TransGen setup.table.Dependency lower component) :
    .finished lower ∈ build.log := by
  cases hbelow with
  | single hdep =>
      refine ((hbuild.marked lower (hdeps lower hdep)).resolve_left ?_).1
      rw [hinitial]
      exact Finset.notMem_empty lower
  | tail hbelow hdep => exact hbuild.finished_of_below hinitial hbelow (hdeps _ hdep)

/-- A line that starts no build changes nothing. -/
theorem print (hbuild : BuildsInOrder setup build) {line : Line Component}
    (hline : line.started = none) : BuildsInOrder setup (build.print line) := by
  refine ⟨fun component compiled hmem => ?_, fun component hmem => ?_, hbuild.closed,
    fun hinitial component compiled earlier hsuffix => ?_⟩
  · rcases List.mem_cons.mp hmem with rfl | hmem
    · cases hline
    · exact hbuild.ordered component compiled hmem
  · rw [Build.starts_print hline]
    exact (hbuild.marked component hmem).imp_right (And.imp_left (List.mem_cons_of_mem _))
  · rcases List.suffix_cons_iff.mp hsuffix with hhead | hsuffix
    · cases (List.cons.inj hhead).1
      cases hline
    · exact hbuild.below hinitial component compiled earlier hsuffix

theorem markFailed (hbuild : BuildsInOrder setup build) (component : Component)
    (foundDirectory : Bool) :
    BuildsInOrder setup (build.markFailed component foundDirectory) :=
  ⟨hbuild.ordered, hbuild.marked, hbuild.closed, hbuild.below⟩

/-- A build is started when the dependencies carry their markers. -/
theorem start (hbuild : BuildsInOrder setup build) {component : Component}
    (hdeps : ∀ dep ∈ setup.table.dependencies component, dep ∈ build.compiled) :
    BuildsInOrder setup (build.print (.starting component build.compiled)) := by
  refine ⟨fun other compiled hmem => ?_, fun other hmem => ?_, hbuild.closed,
    fun hinitial other compiled earlier hsuffix => ?_⟩
  · rcases List.mem_cons.mp hmem with hhead | hmem
    · cases hhead
      exact hdeps
    · exact hbuild.ordered other compiled hmem
  · refine (hbuild.marked other hmem).imp_right ?_
    rintro ⟨hfinished, attempt, hattempt, houtcome⟩
    exact ⟨List.mem_cons_of_mem _ hfinished, attempt,
      hattempt.trans_le List.count_le_count_cons, houtcome⟩
  · rcases List.suffix_cons_iff.mp hsuffix with hhead | hsuffix
    · cases hhead
      exact fun dep hbelow => hbuild.finished_of_dependencies hinitial hdeps hbelow
    · exact hbuild.below hinitial other compiled earlier hsuffix

/-- A build that has succeeded sets the marker. -/
theorem succeed (hbuild : BuildsInOrder setup build) {component : Component} {attempt : ℕ}
    (hdeps : ∀ dep ∈ setup.table.dependencies component, dep ∈ build.compiled)
    (hattempt : attempt < build.starts.count component)
    (houtcome : setup.outcome component attempt = .succeeded) :
    BuildsInOrder setup ((build.markCompiled component).print (.finished component)) := by
  refine ⟨fun other compiled hmem => ?_, fun other hmem => ?_, fun other hmem hnew dep hdep => ?_,
    fun hinitial other compiled earlier hsuffix => ?_⟩
  · rcases List.mem_cons.mp hmem with hhead | hmem
    · cases hhead
    · exact hbuild.ordered other compiled hmem
  · rcases Finset.mem_insert.mp hmem with rfl | hmem
    · exact .inr ⟨List.mem_cons_self, attempt, hattempt, houtcome⟩
    · exact (hbuild.marked other hmem).imp_right (And.imp_left (List.mem_cons_of_mem _))
  · refine Finset.mem_insert_of_mem ?_
    rcases Finset.mem_insert.mp hmem with rfl | hmem
    · exact hdeps dep hdep
    · exact hbuild.closed other hmem hnew dep hdep
  · rcases List.suffix_cons_iff.mp hsuffix with hhead | hsuffix
    · cases hhead
    · exact hbuild.below hinitial other compiled earlier hsuffix

end BuildsInOrder

/-- A task keeps the order and the markers, and one that succeeds leaves the markers of
what it was to compile. -/
theorem Runs.buildsInOrder {task : Task Component} {build left : Build Component} {ok : Bool}
    (hruns : Runs setup task build ok left) (hbuild : BuildsInOrder setup build) :
    BuildsInOrder setup left ∧ build.compiled ⊆ left.compiled ∧
      (ok = true → ∀ component ∈ task.wanted, component ∈ left.compiled) := by
  induction hruns with
  | done => exact ⟨hbuild, subset_rfl, fun _ _ hmem => by cases hmem⟩
  | compiled hcompiled _ ih =>
      obtain ⟨hleft, hsubset, hwanted⟩ := ih hbuild
      exact ⟨hleft, hsubset, fun hok =>
        List.forall_mem_cons.mpr ⟨hsubset hcompiled, hwanted hok⟩⟩
  | failed _ _ ih =>
      obtain ⟨hleft, hsubset, -⟩ := ih hbuild
      exact ⟨hleft, hsubset, fun hok => by cases hok⟩
  | built _ _ _ ihdep ihrest =>
      obtain ⟨hbetween, hsubset, hdep⟩ := ihdep hbuild
      obtain ⟨hleft, hsubsetRest, hwanted⟩ := ihrest hbetween
      exact ⟨hleft, hsubset.trans hsubsetRest, fun hok => List.forall_mem_cons.mpr
        ⟨hsubsetRest (hdep rfl _ List.mem_cons_self), hwanted hok⟩⟩
  | dependencyFailed _ ih =>
      obtain ⟨hleft, hsubset, -⟩ := ih hbuild
      exact ⟨(hleft.markFailed _ _).print rfl, hsubset, fun hok => by cases hok⟩
  | alreadyCompiled _ hcompiled ih =>
      obtain ⟨hleft, hsubset, -⟩ := ih hbuild
      exact ⟨hleft.print rfl, hsubset, fun _ =>
        List.forall_mem_cons.mpr ⟨hcompiled, fun _ hmem => by cases hmem⟩⟩
  | buildFailed _ _ _ ih =>
      obtain ⟨hleft, hsubset, hdeps⟩ := ih hbuild
      exact ⟨((hleft.start (hdeps rfl)).markFailed _ _).print rfl, hsubset,
        fun hok => by cases hok⟩
  | buildSucceeded _ _ houtcome ih =>
      obtain ⟨hleft, hsubset, hdeps⟩ := ih hbuild
      refine ⟨(hleft.start (hdeps rfl)).succeed (hdeps rfl) ?_ houtcome,
        hsubset.trans (Finset.subset_insert _ _), fun _ => List.forall_mem_cons.mpr
          ⟨Finset.mem_insert_self _ _, fun _ hmem => by cases hmem⟩⟩
      rw [Build.starts_starting, List.count_cons_self]
      exact Nat.lt_succ_self _

theorem Loops.buildsInOrder {targets : List Component} {build left : Build Component}
    (hloops : Loops setup targets build left) (hbuild : BuildsInOrder setup build) :
    BuildsInOrder setup left := by
  induction hloops with
  | done => exact hbuild
  | next hone _ ih => exact ih (hone.buildsInOrder hbuild).1

/-- On an acyclic table the script ends.  When it gets through the main loop, every build
was started with the markers of its direct dependencies in place, every new marker belongs
to a component that a build of its own has succeeded for, and with `--force` everything
below a component was finished before its build was started. -/
theorem builds_in_dependency_order (setup : Setup Component) (hacyclic : setup.table.Acyclic) :
    ∃ result, result ≠ .error .outOfFuel ∧
      (∀ᶠ fuel in atTop, rtColcon setup fuel = result) ∧
      ∀ targets build, result = .ok (targets, build) →
        (∀ component compiled, .starting component compiled ∈ build.log →
          ∀ dep, setup.table.Dependency dep component → dep ∈ compiled) ∧
        (∀ component ∈ build.compiled, component ∉ (initialBuild setup).compiled →
          .finished component ∈ build.log ∧ ∃ attempt < build.starts.count component,
            setup.outcome component attempt = .succeeded) ∧
        (setup.force = true → ∀ component compiled earlier,
          .starting component compiled :: earlier <:+ build.log →
            ∀ dep, Relation.TransGen setup.table.Dependency dep component →
              .finished dep ∈ earlier) := by
  obtain ⟨result, hends, hresult⟩ := rtColcon_settles hacyclic
  refine ⟨result, hends, hresult, fun targets build hok => ?_⟩
  obtain ⟨fuel, hfuel⟩ := hresult.exists
  obtain ⟨-, hloop⟩ := rtColcon_eq_ok (hfuel.trans hok)
  have hbuild := (loops_of_mainLoop hloop).buildsInOrder buildsInOrder_initial
  refine ⟨hbuild.ordered, fun component hcompiled hnew =>
    (hbuild.marked component hcompiled).resolve_left hnew, fun hforce => hbuild.below ?_⟩
  rw [initialBuild, hforce]
  rfl

/-- `RTcolcon --force`, where the build of `rcl` fails. -/
def forcedSetup : Setup Package where
  table := packageTable
  selectPackages := none
  skipPackages := []
  force := true
  compiled := {.rcutils}
  failed := ∅
  directory := fun _ => true
  outcome := fun package _ => if package = .rcl then .failed else .succeeded

/-- The script gets to `logging`, and has finished `rcutils` by then. -/
theorem rcutils_finished_before_logging :
    ∃ targets build,
      (∀ᶠ fuel in atTop, rtColcon forcedSetup fuel = .ok (targets, build)) ∧
      (∃ compiled earlier, .starting .logging compiled :: earlier <:+ build.log) ∧
      ∀ compiled earlier, .starting .logging compiled :: earlier <:+ build.log →
        .finished .rcutils ∈ earlier := by
  obtain ⟨targets, build, hruns, hstarts⟩ : ∃ targets build, (∀ fuel,
      rtColcon forcedSetup (fuel + 7) = .ok (targets, build)) ∧ .logging ∈ build.starts :=
    ⟨_, _, fun _ => rfl, by decide⟩
  obtain ⟨result, -, hresult, hok⟩ := builds_in_dependency_order forcedSetup packageTable_acyclic
  obtain rfl := settles_unique hruns hresult
  refine ⟨targets, build, hresult, ?_, fun compiled earlier hsuffix => ?_⟩
  · obtain ⟨line, hline, hlogging⟩ := List.mem_filterMap.mp hstarts
    obtain ⟨later, earlier, hlog⟩ := List.append_of_mem hline
    cases line with
    | starting component compiled =>
        obtain rfl := Option.some.inj hlogging
        exact ⟨compiled, earlier, later, hlog.symm⟩
    | finished | failed | dependencyFailed | alreadyCompiled => cases hlogging
  · refine (hok targets build rfl).2.2 rfl .logging compiled earlier hsuffix .rcutils
      (.single ?_)
    rw [Table.Dependency]
    decide

end RosRtems.RtColcon
