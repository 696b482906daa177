import RosRtems.RtColcon.Calls

/-!
# Which calls fail

As long as nothing that has failed is tried again, the outcome of a call is determined by
the first build of each component: a call fails if the own build of the component does, or
if it meets a dependency without a marker that fails.  What a failed call adds to the
failures is the component and those that it is to be blamed on.
-/

namespace RosRtems.RtColcon

variable {Component : Type*} [DecidableEq Component]

/-! ## What the setup says about a call -/

section Predicates

/-- The markers before the main loop. -/
def Setup.marked (setup : Setup Component) : Finset Component := (initialBuild setup).compiled

/-- A call of `compile_one` for the component fails. -/
inductive Setup.Fails (setup : Setup Component) : Component → Prop
  | dependency {lower upper} (hlower : setup.table.Dependency lower upper)
      (hmarked : lower ∉ setup.marked) (hfails : Setup.Fails setup lower) :
      Setup.Fails setup upper
  | build {component} (hmarked : component ∉ setup.marked)
      (houtcome : setup.outcome component 0 ≠ .succeeded) : Setup.Fails setup component

variable (setup : Setup Component)

/-- The component stops the loop over the dependencies of another one. -/
def Setup.Blocks (component : Component) : Prop :=
  component ∉ setup.marked ∧ setup.Fails component

/-- The first dependency that fails is to blame, and so on. -/
def Setup.Blames : Component → Component → Prop :=
  Dependency.Blames setup.table.dependencies setup.Blocks

/-- No dependency fails. -/
def Setup.Unblocked : Component → Prop :=
  Dependency.Unblocked setup.table.dependencies setup.Blocks

/-- The own build of the second component makes the call for the first one fail. -/
def Setup.Culprit (component last : Component) : Prop :=
  setup.Fails component ∧ setup.Blames component last ∧ setup.Unblocked last

/-- The call for the first component gets to the second one. -/
def Setup.Reaches : Component → Component → Prop :=
  Relation.ReflTransGen fun upper lower =>
    Dependency.Tried setup.Blocks (setup.table.dependencies upper) lower ∧ lower ∉ setup.marked

/-- A call for the component starts its build. -/
def Setup.Buildable (component : Component) : Prop :=
  component ∉ setup.marked ∧ setup.Unblocked component

variable {setup} {component lower upper last : Component}

theorem Setup.fails_of_firstBlocking
    (hfirst : Dependency.FirstBlocking setup.table.dependencies setup.Blocks upper lower) :
    setup.Fails upper :=
  .dependency hfirst.1.mem hfirst.2.1 hfirst.2.2

theorem Setup.Unblocked.fails_iff (hunblocked : setup.Unblocked component) :
    setup.Fails component ↔
      component ∉ setup.marked ∧ setup.outcome component 0 ≠ .succeeded := by
  constructor
  · rintro (⟨hlower, hmarked, hfails⟩ | ⟨hmarked, houtcome⟩)
    · exact absurd ⟨hmarked, hfails⟩ (hunblocked _ hlower)
    · exact ⟨hmarked, houtcome⟩
  · exact fun hown => .build hown.1 hown.2

theorem Setup.Fails.of_blames (hfails : setup.Fails upper) (hblames : setup.Blames upper lower) :
    setup.Fails lower := by
  rcases Relation.ReflTransGen.cases_tail hblames with rfl | ⟨other, -, hfirst⟩
  · exact hfails
  · exact hfirst.2.2

/-- Every failure has a culprit. -/
theorem Setup.Fails.exists_culprit (hacyclic : setup.table.Acyclic)
    (hfails : setup.Fails component) : ∃ last, setup.Culprit component last := by
  obtain ⟨last, hblames, hlast⟩ :=
    Dependency.exists_blames_unblocked hacyclic.wellFounded component
  exact ⟨last, hfails, hblames, hlast⟩

theorem Setup.reaches_iff : setup.Reaches upper component ↔ component = upper ∨
    ∃ lower, (Dependency.Tried setup.Blocks (setup.table.dependencies upper) lower ∧
      lower ∉ setup.marked) ∧ setup.Reaches lower component := by
  constructor
  · intro hreaches
    rcases Relation.ReflTransGen.cases_head hreaches with rfl | hstep
    · exact .inl rfl
    · exact .inr hstep
  · rintro (rfl | ⟨lower, hstep, hrest⟩)
    · exact .refl
    · exact .head hstep hrest

/-- Whatever is reached is below. -/
theorem Setup.Reaches.below (hreaches : setup.Reaches upper lower) :
    Relation.ReflTransGen setup.table.Dependency lower upper := by
  induction hreaches with
  | refl => exact .refl
  | tail _ hstep ih => exact .head hstep.1.mem ih

theorem Setup.Blames.below (hblames : setup.Blames upper lower) :
    Relation.ReflTransGen setup.table.Dependency lower upper := by
  induction hblames with
  | refl => exact .refl
  | tail _ hstep ih => exact .head hstep.1.mem ih

/-- A component is not blamed by its own dependencies. -/
theorem Setup.not_blames_of_firstBlocking (hacyclic : setup.table.Acyclic)
    (hfirst : Dependency.FirstBlocking setup.table.dependencies setup.Blocks upper lower) :
    ¬ setup.Blames lower upper :=
  fun hblames => hacyclic upper (.tail' hblames.below hfirst.1.mem)

end Predicates

/-! ## What a task does -/

section Tasks

variable (setup : Setup Component)

/-- The components that fail in a task. -/
def Task.Blamed : Task Component → Component → Prop
  | .one component, other => setup.Fails component ∧ setup.Blames component other
  | .dependencies rest, other => ∃ first,
      (Dependency.Tried setup.Blocks rest first ∧ setup.Blocks first) ∧ setup.Blames first other

/-- The components that a task gets to. -/
def Task.Reaches : Task Component → Component → Prop
  | .one component, other => setup.Reaches component other
  | .dependencies rest, other => ∃ dep,
      (Dependency.Tried setup.Blocks rest dep ∧ dep ∉ setup.marked) ∧ setup.Reaches dep other

def Task.Fails : Task Component → Prop
  | .one component => setup.Fails component
  | .dependencies rest => ∃ dep ∈ rest, setup.Blocks dep

/-- What holds in a run as long as nothing that has failed is tried again. -/
structure Sound (build : Build Component) : Prop where
  grows : setup.marked ⊆ build.compiled
  fits : ∀ component ∈ build.compiled, component ∉ setup.marked →
    ¬ setup.Fails component ∧ component ∈ build.starts ∧
      ∀ other, setup.Reaches component other → setup.Buildable other → other ∈ build.starts
  startedOnce : build.starts.Nodup
  started : ∀ component ∈ build.starts, setup.Buildable component ∧
    (component ∈ build.compiled ∨ component ∈ build.failures)
  fails : ∀ component ∈ build.failures, setup.Fails component
  blamed : ∀ component ∈ build.failures, ∀ dep,
    Dependency.FirstBlocking setup.table.dependencies setup.Blocks component dep →
      dep ∈ build.failures
  culprit : ∀ component ∈ build.failures, setup.Unblocked component →
    component ∈ build.starts ∧ .failed component ∈ build.log
  failedOnce : build.failures.Nodup
  counted : build.failedCount = build.failures.length

/-- What a task that tries no failed component again does. -/
structure Effect (task : Task Component) (build : Build Component) (ok : Bool)
    (left : Build Component) : Prop where
  sound : Sound setup left
  grows : build.compiled ⊆ left.compiled
  kept : build.starts ⊆ left.starts
  fails : ok = false ↔ task.Fails setup
  failures : ∀ component, component ∈ left.failures ↔
    component ∈ build.failures ∨ task.Blamed setup component
  reached : ∀ component ∈ left.starts, component ∈ build.starts ∨ task.Reaches setup component
  complete : ∀ component, task.Reaches setup component → setup.Buildable component →
    component ∈ left.starts

end Tasks

section Sound

variable {setup : Setup Component} {build : Build Component} {component dep other : Component}
  {rest : List Component}

theorem sound_initial : Sound setup (initialBuild setup) where
  grows := subset_rfl
  fits := fun _ hmem hmarked => absurd hmem hmarked
  startedOnce := .nil
  started := fun _ hmem => by cases hmem
  fails := fun _ hmem => by cases hmem
  blamed := fun _ hmem => by cases hmem
  culprit := fun _ hmem => by cases hmem
  failedOnce := .nil
  counted := rfl

theorem Sound.not_marked (hsound : Sound setup build) (hcompiled : dep ∉ build.compiled) :
    dep ∉ setup.marked :=
  fun hmarked => hcompiled (hsound.grows hmarked)

theorem not_blocks_of_compiled (hsound : Sound setup build) (hcompiled : dep ∈ build.compiled) :
    ¬ setup.Blocks dep :=
  fun hblocks => (hsound.fits dep hcompiled hblocks.1).1 hblocks.2

theorem blamed_cons_of_not_blocks (hfits : ¬ setup.Blocks dep) :
    (Task.dependencies (dep :: rest)).Blamed setup other ↔
      (Task.dependencies rest).Blamed setup other := by
  refine exists_congr fun first => and_congr_left fun _ => ?_
  rw [Dependency.Tried]
  constructor
  · rintro ⟨rfl | ⟨-, htried⟩, hblocks⟩
    · exact absurd hblocks hfits
    · exact ⟨htried, hblocks⟩
  · exact fun hfirst => ⟨.inr ⟨hfits, hfirst.1⟩, hfirst.2⟩

theorem blamed_cons_of_blocks (hblocks : setup.Blocks dep) :
    (Task.dependencies (dep :: rest)).Blamed setup other ↔ setup.Blames dep other := by
  constructor
  · rintro ⟨first, ⟨htried, -⟩, hblames⟩
    rcases htried with rfl | ⟨hfits, -⟩
    · exact hblames
    · exact absurd hblocks hfits
  · exact fun hblames => ⟨dep, ⟨.inl rfl, hblocks⟩, hblames⟩

theorem reaches_cons : (Task.dependencies (dep :: rest)).Reaches setup other ↔
    (dep ∉ setup.marked ∧ setup.Reaches dep other) ∨
      (¬ setup.Blocks dep ∧ (Task.dependencies rest).Reaches setup other) := by
  constructor
  · rintro ⟨first, ⟨rfl | ⟨hfits, htried⟩, hmarked⟩, hreaches⟩
    · exact .inl ⟨hmarked, hreaches⟩
    · exact .inr ⟨hfits, first, ⟨htried, hmarked⟩, hreaches⟩
  · rintro (⟨hmarked, hreaches⟩ | ⟨hfits, first, ⟨htried, hmarked⟩, hreaches⟩)
    · exact ⟨dep, ⟨.inl rfl, hmarked⟩, hreaches⟩
    · exact ⟨first, ⟨.inr ⟨hfits, htried⟩, hmarked⟩, hreaches⟩

theorem fails_cons : (Task.dependencies (dep :: rest)).Fails setup ↔
    setup.Blocks dep ∨ (Task.dependencies rest).Fails setup := by
  simp [Task.Fails]

/-- The loop over the dependencies of a component fails if one of them blocks. -/
theorem fails_dependencies_iff :
    (Task.dependencies (setup.table.dependencies component)).Fails setup ↔
      ¬ setup.Unblocked component := by
  simp [Task.Fails, Setup.Unblocked, Dependency.Unblocked]

theorem reaches_one : (Task.one component).Reaches setup other ↔ other = component ∨
    (Task.dependencies (setup.table.dependencies component)).Reaches setup other :=
  Setup.reaches_iff

/-! ### The rules of the loop over the dependencies -/

theorem effect_done (hsound : Sound setup build) :
    Effect setup (.dependencies []) build true build where
  sound := hsound
  grows := subset_rfl
  kept := List.Subset.refl _
  fails := by simp [Task.Fails]
  failures := fun _ => by simp [Task.Blamed, Dependency.Tried]
  reached := fun _ hmem => .inl hmem
  complete := by
    rintro other ⟨dep, ⟨htried, -⟩, -⟩
    exact htried.elim

theorem effect_compiled {left : Build Component} {ok : Bool} (hsound : Sound setup build)
    (hcompiled : dep ∈ build.compiled) (hrest : Effect setup (.dependencies rest) build ok left) :
    Effect setup (.dependencies (dep :: rest)) build ok left where
  sound := hrest.sound
  grows := hrest.grows
  kept := hrest.kept
  fails := by
    rw [hrest.fails, fails_cons, or_iff_right (not_blocks_of_compiled hsound hcompiled)]
  failures := fun other => by
    rw [hrest.failures, blamed_cons_of_not_blocks (not_blocks_of_compiled hsound hcompiled)]
  reached := fun other hmem => (hrest.reached other hmem).imp_right fun hreaches =>
    reaches_cons.mpr (.inr ⟨not_blocks_of_compiled hsound hcompiled, hreaches⟩)
  complete := by
    intro other hreaches hbuildable
    rcases reaches_cons.mp hreaches with ⟨hmarked, hreaches⟩ | ⟨-, hreaches⟩
    · exact hrest.kept ((hsound.fits dep hcompiled hmarked).2.2 other hreaches hbuildable)
    · exact hrest.complete other hreaches hbuildable

theorem effect_failed {left : Build Component} (hmarked : dep ∉ setup.marked)
    (hdep : Effect setup (.one dep) build false left) :
    Effect setup (.dependencies (dep :: rest)) build false left := by
  have hfails : setup.Fails dep := hdep.fails.mp rfl
  have hblocks : setup.Blocks dep := ⟨hmarked, hfails⟩
  refine ⟨hdep.sound, hdep.grows, hdep.kept, by simp [fails_cons, hblocks], fun other => ?_,
    fun other hmem => (hdep.reached other hmem).imp_right fun hreaches =>
      reaches_cons.mpr (.inl ⟨hmarked, hreaches⟩), fun other hreaches hbuildable => ?_⟩
  · rw [hdep.failures, blamed_cons_of_blocks hblocks, Task.Blamed, and_iff_right hfails]
  · rcases reaches_cons.mp hreaches with ⟨-, hreaches⟩ | ⟨hfits, -⟩
    · exact hdep.complete other hreaches hbuildable
    · exact absurd hblocks hfits

theorem effect_built {between left : Build Component} {ok : Bool} (hmarked : dep ∉ setup.marked)
    (hdep : Effect setup (.one dep) build true between)
    (hrest : Effect setup (.dependencies rest) between ok left) :
    Effect setup (.dependencies (dep :: rest)) build ok left := by
  have hfits : ¬ setup.Fails dep := fun hfails => by cases hdep.fails.mpr hfails
  have hblocks : ¬ setup.Blocks dep := fun hblocks => hfits hblocks.2
  have hfailures : ∀ other, other ∈ between.failures ↔ other ∈ build.failures := fun other => by
    rw [hdep.failures, Task.Blamed]
    simp only [hfits, false_and, or_false]
  refine ⟨hrest.sound, hdep.grows.trans hrest.grows, List.Subset.trans hdep.kept hrest.kept, ?_,
    fun other => ?_, fun other hmem => ?_, fun other hreaches hbuildable => ?_⟩
  · rw [hrest.fails, fails_cons, or_iff_right hblocks]
  · rw [hrest.failures, hfailures, blamed_cons_of_not_blocks hblocks]
  · rcases hrest.reached other hmem with hbetween | hreaches
    · exact (hdep.reached other hbetween).imp_right fun hreaches =>
        reaches_cons.mpr (.inl ⟨hmarked, hreaches⟩)
    · exact .inr (reaches_cons.mpr (.inr ⟨hblocks, hreaches⟩))
  · rcases reaches_cons.mp hreaches with ⟨-, hreaches⟩ | ⟨-, hreaches⟩
    · exact hrest.kept (hdep.complete other hreaches hbuildable)
    · exact hrest.complete other hreaches hbuildable

/-! ### The ends of a call -/

section Ends

variable {left : Build Component}

/-- The failures of a call whose loop fails. -/
theorem blamed_one_of_firstBlocking
    (hfirst : Dependency.FirstBlocking setup.table.dependencies setup.Blocks component dep) :
    (Task.one component).Blamed setup other ↔ other = component ∨
      (Task.dependencies (setup.table.dependencies component)).Blamed setup other := by
  have hfails : setup.Fails component := Setup.fails_of_firstBlocking hfirst
  rw [Task.Blamed, and_iff_right hfails, Setup.Blames, hfirst.blames_iff]
  refine or_congr_right ⟨fun hblames => ⟨dep, hfirst, hblames⟩, ?_⟩
  rintro ⟨first, hother, hblames⟩
  rw [hfirst.unique hother]
  exact hblames

theorem blamed_one_of_dependencies
    (hblamed : (Task.dependencies (setup.table.dependencies component)).Blamed setup other) :
    (Task.one component).Blamed setup other := by
  obtain ⟨first, hfirst, hblames⟩ := hblamed
  exact (blamed_one_of_firstBlocking hfirst).mpr (.inr ⟨first, hfirst, hblames⟩)

theorem not_blamed_of_unblocked (hunblocked : setup.Unblocked component) :
    ¬ (Task.dependencies (setup.table.dependencies component)).Blamed setup other := by
  rintro ⟨first, hfirst, -⟩
  exact hunblocked.not_firstBlocking hfirst

/-- A component that is given up for a dependency that has failed. -/
theorem Sound.dependencyFailed (hleft : Sound setup left) (hnew : component ∉ left.failures)
    (hfirst : Dependency.FirstBlocking setup.table.dependencies setup.Blocks component dep)
    (hdep : dep ∈ left.failures) :
    Sound setup ((left.markFailed component true).print (.dependencyFailed component)) where
  grows := hleft.grows
  fits := hleft.fits
  startedOnce := hleft.startedOnce
  started := fun other hmem =>
    (hleft.started other hmem).imp_right (Or.imp_right (List.mem_cons_of_mem _))
  fails := List.forall_mem_cons.mpr ⟨Setup.fails_of_firstBlocking hfirst, hleft.fails⟩
  blamed := by
    intro other hmem lower hlower
    rcases List.mem_cons.mp hmem with rfl | hmem
    · rw [hlower.unique hfirst]
      exact List.mem_cons_of_mem _ hdep
    · exact List.mem_cons_of_mem _ (hleft.blamed other hmem lower hlower)
  culprit := by
    intro other hmem hunblocked
    rcases List.mem_cons.mp hmem with rfl | hmem
    · exact absurd hfirst hunblocked.not_firstBlocking
    · exact (hleft.culprit other hmem hunblocked).imp_right (List.mem_cons_of_mem _)
  failedOnce := List.nodup_cons.mpr ⟨hnew, hleft.failedOnce⟩
  counted := congrArg Nat.succ hleft.counted

theorem Sound.alreadyCompiled (hleft : Sound setup left) (component : Component) :
    Sound setup (left.print (.alreadyCompiled component)) where
  grows := hleft.grows
  fits := hleft.fits
  startedOnce := hleft.startedOnce
  started := hleft.started
  fails := hleft.fails
  blamed := hleft.blamed
  culprit := fun other hmem hunblocked =>
    (hleft.culprit other hmem hunblocked).imp_right (List.mem_cons_of_mem _)
  failedOnce := hleft.failedOnce
  counted := hleft.counted

/-- A component whose first build fails. -/
theorem Sound.buildFailed (hleft : Sound setup left) (hnew : component ∉ left.failures)
    (hstarted : component ∉ left.starts) (hbuildable : setup.Buildable component)
    (hfails : setup.Fails component) (foundDirectory : Bool) :
    Sound setup (((left.print (.starting component left.compiled)).markFailed component
      foundDirectory).print (.failed component)) where
  grows := hleft.grows
  fits := by
    intro other hcompiled hmarked
    obtain ⟨hfits, hmem, hcomplete⟩ := hleft.fits other hcompiled hmarked
    exact ⟨hfits, List.mem_cons_of_mem _ hmem, fun lower hreaches hlower =>
      List.mem_cons_of_mem _ (hcomplete lower hreaches hlower)⟩
  startedOnce := List.nodup_cons.mpr ⟨hstarted, hleft.startedOnce⟩
  started := by
    intro other hmem
    rcases List.mem_cons.mp hmem with rfl | hmem
    · exact ⟨hbuildable, .inr List.mem_cons_self⟩
    · exact (hleft.started other hmem).imp_right (Or.imp_right (List.mem_cons_of_mem _))
  fails := List.forall_mem_cons.mpr ⟨hfails, hleft.fails⟩
  blamed := by
    intro other hmem lower hlower
    rcases List.mem_cons.mp hmem with rfl | hmem
    · exact absurd hlower hbuildable.2.not_firstBlocking
    · exact List.mem_cons_of_mem _ (hleft.blamed other hmem lower hlower)
  culprit := by
    intro other hmem hunblocked
    rcases List.mem_cons.mp hmem with rfl | hmem
    · exact ⟨List.mem_cons_self, List.mem_cons_self⟩
    · exact (hleft.culprit other hmem hunblocked).imp (List.mem_cons_of_mem _)
        fun hline => List.mem_cons_of_mem _ (List.mem_cons_of_mem _ hline)
  failedOnce := List.nodup_cons.mpr ⟨hnew, hleft.failedOnce⟩
  counted := congrArg Nat.succ hleft.counted

/-- A component whose first build succeeds. -/
theorem Sound.buildSucceeded (hleft : Sound setup left) (hstarted : component ∉ left.starts)
    (hbuildable : setup.Buildable component) (hfits : ¬ setup.Fails component)
    (hcomplete : ∀ other, setup.Reaches component other → setup.Buildable other →
      other ∈ component :: left.starts) :
    Sound setup (((left.print (.starting component left.compiled)).markCompiled component).print
      (.finished component)) where
  grows := hleft.grows.trans (Finset.subset_insert _ _)
  fits := by
    intro other hmem hmarked
    rcases Finset.mem_insert.mp hmem with rfl | hcompiled
    · exact ⟨hfits, List.mem_cons_self, hcomplete⟩
    · obtain ⟨hother, hstart, hbelow⟩ := hleft.fits other hcompiled hmarked
      exact ⟨hother, List.mem_cons_of_mem _ hstart, fun lower hreaches hlower =>
        List.mem_cons_of_mem _ (hbelow lower hreaches hlower)⟩
  startedOnce := List.nodup_cons.mpr ⟨hstarted, hleft.startedOnce⟩
  started := by
    intro other hmem
    rcases List.mem_cons.mp hmem with rfl | hmem
    · exact ⟨hbuildable, .inl (Finset.mem_insert_self _ _)⟩
    · exact (hleft.started other hmem).imp_right (Or.imp_left Finset.mem_insert_of_mem)
  fails := hleft.fails
  blamed := hleft.blamed
  culprit := fun other hmem hunblocked => (hleft.culprit other hmem hunblocked).imp
    (List.mem_cons_of_mem _) fun hline => List.mem_cons_of_mem _ (List.mem_cons_of_mem _ hline)
  failedOnce := hleft.failedOnce
  counted := hleft.counted

theorem effect_dependencyFailed (hacyclic : setup.table.Acyclic)
    (hfresh : ∀ other, (Task.one component).Blamed setup other → other ∉ build.failures)
    (hdeps : Effect setup (.dependencies (setup.table.dependencies component)) build false left) :
    Effect setup (.one component) build false
      ((left.markFailed component true).print (.dependencyFailed component)) := by
  have hblocked : ¬ setup.Unblocked component := fails_dependencies_iff.mp (hdeps.fails.mp rfl)
  obtain ⟨dep, hfirst⟩ := Dependency.not_unblocked_iff.mp hblocked
  have hfails : setup.Fails component := Setup.fails_of_firstBlocking hfirst
  have hnew : component ∉ left.failures := by
    rw [hdeps.failures, not_or]
    refine ⟨hfresh component ⟨hfails, .refl⟩, ?_⟩
    rintro ⟨first, hother, hblames⟩
    exact Setup.not_blames_of_firstBlocking hacyclic hother hblames
  have hdep : dep ∈ left.failures := (hdeps.failures dep).mpr (.inr ⟨dep, hfirst, .refl⟩)
  refine ⟨hdeps.sound.dependencyFailed hnew hfirst hdep, hdeps.grows, hdeps.kept,
    iff_of_true rfl hfails, fun other => ?_, fun other hmem => ?_,
    fun other hreaches hbuildable => ?_⟩
  · rw [blamed_one_of_firstBlocking hfirst]
    exact List.mem_cons.trans ((or_congr_right (hdeps.failures other)).trans or_left_comm)
  · exact (hdeps.reached other hmem).imp_right fun hreaches => reaches_one.mpr (.inr hreaches)
  · rcases reaches_one.mp hreaches with rfl | hreaches
    · exact absurd hbuildable.2 hblocked
    · exact hdeps.complete other hreaches hbuildable

/-- After a loop that succeeds no dependency fails, and nothing has been added to the
failures. -/
theorem unblocked_of_effect
    (hdeps : Effect setup (.dependencies (setup.table.dependencies component)) build true left) :
    setup.Unblocked component ∧
      ∀ other, other ∈ left.failures ↔ other ∈ build.failures := by
  have hunblocked : setup.Unblocked component := by
    by_contra hblocked
    cases hdeps.fails.mpr (fails_dependencies_iff.mpr hblocked)
  exact ⟨hunblocked, fun other => (hdeps.failures other).trans
    (or_iff_left (not_blamed_of_unblocked hunblocked))⟩

theorem effect_alreadyCompiled (hcompiled : component ∈ left.compiled)
    (hdeps : Effect setup (.dependencies (setup.table.dependencies component)) build true left) :
    Effect setup (.one component) build true (left.print (.alreadyCompiled component)) := by
  obtain ⟨hunblocked, hfailures⟩ := unblocked_of_effect hdeps
  have hfits : ¬ setup.Fails component := fun hfails =>
    (hdeps.sound.fits component hcompiled (hunblocked.fails_iff.mp hfails).1).1 hfails
  refine ⟨hdeps.sound.alreadyCompiled component, hdeps.grows, hdeps.kept,
    iff_of_false Bool.true_eq_false_eq_False hfits, fun other => ?_, fun other hmem => ?_,
    fun other hreaches hbuildable => ?_⟩
  · exact (hfailures other).trans (or_iff_left fun hblamed => hfits hblamed.1).symm
  · exact (hdeps.reached other hmem).imp_right fun hreaches => reaches_one.mpr (.inr hreaches)
  · rcases reaches_one.mp hreaches with rfl | hreaches
    · exact (hdeps.sound.fits other hcompiled hbuildable.1).2.1
    · exact hdeps.complete other hreaches hbuildable

/-- A component that is not compiled after its dependencies, and has not failed, is built
for the first time. -/
theorem first_build_of_effect
    (hdeps : Effect setup (.dependencies (setup.table.dependencies component)) build true left)
    (hcompiled : component ∉ left.compiled) (hfresh : component ∉ build.failures) :
    setup.Buildable component ∧ component ∉ left.failures ∧ component ∉ left.starts := by
  obtain ⟨hunblocked, hfailures⟩ := unblocked_of_effect hdeps
  have hnew : component ∉ left.failures := (hfailures component).not.mpr hfresh
  refine ⟨⟨hdeps.sound.not_marked hcompiled, hunblocked⟩, hnew, fun hstarted => ?_⟩
  rcases (hdeps.sound.started component hstarted).2 with hmem | hmem
  · exact hcompiled hmem
  · exact hnew hmem

/-- What is reached from a component when its own build is started. -/
theorem complete_of_effect
    (hdeps : Effect setup (.dependencies (setup.table.dependencies component)) build true left)
    (hreaches : setup.Reaches component other) (hbuildable : setup.Buildable other) :
    other ∈ component :: left.starts := by
  rcases reaches_one.mp hreaches with rfl | hreaches
  · exact List.mem_cons_self
  · exact List.mem_cons_of_mem _ (hdeps.complete other hreaches hbuildable)

theorem reached_of_effect
    (hdeps : Effect setup (.dependencies (setup.table.dependencies component)) build true left)
    (hmem : other ∈ component :: left.starts) :
    other ∈ build.starts ∨ (Task.one component).Reaches setup other := by
  rcases List.mem_cons.mp hmem with rfl | hmem
  · exact .inr .refl
  · exact (hdeps.reached other hmem).imp_right fun hreaches => reaches_one.mpr (.inr hreaches)

theorem effect_buildFailed (hcompiled : component ∉ left.compiled)
    (houtcome : setup.outcome component (left.starts.count component) ≠ .succeeded)
    (hfresh : component ∉ build.failures)
    (hdeps : Effect setup (.dependencies (setup.table.dependencies component)) build true left) :
    Effect setup (.one component) build false
      (((left.print (.starting component left.compiled)).markFailed component
        (setup.outcome component (left.starts.count component)).foundDirectory).print
          (.failed component)) := by
  obtain ⟨hbuildable, hnew, hstarted⟩ := first_build_of_effect hdeps hcompiled hfresh
  rw [List.count_eq_zero_of_not_mem hstarted] at houtcome
  have hfails : setup.Fails component :=
    hbuildable.2.fails_iff.mpr ⟨hbuildable.1, houtcome⟩
  refine ⟨hdeps.sound.buildFailed hnew hstarted hbuildable hfails _, hdeps.grows,
    List.Subset.trans hdeps.kept (List.subset_cons_self _ _), iff_of_true rfl hfails,
    fun other => ?_, fun other hmem => reached_of_effect hdeps hmem,
    fun other hreaches hother => complete_of_effect hdeps hreaches hother⟩
  rw [Task.Blamed, and_iff_right hfails, Setup.Blames, hbuildable.2.blames_iff]
  exact List.mem_cons.trans
    ((or_congr_right ((unblocked_of_effect hdeps).2 other)).trans or_comm)

theorem effect_buildSucceeded (hcompiled : component ∉ left.compiled)
    (houtcome : setup.outcome component (left.starts.count component) = .succeeded)
    (hfresh : component ∉ build.failures)
    (hdeps : Effect setup (.dependencies (setup.table.dependencies component)) build true left) :
    Effect setup (.one component) build true
      (((left.print (.starting component left.compiled)).markCompiled component).print
        (.finished component)) := by
  obtain ⟨hbuildable, -, hstarted⟩ := first_build_of_effect hdeps hcompiled hfresh
  rw [List.count_eq_zero_of_not_mem hstarted] at houtcome
  have hfits : ¬ setup.Fails component := fun hfails =>
    (hbuildable.2.fails_iff.mp hfails).2 houtcome
  refine ⟨hdeps.sound.buildSucceeded hstarted hbuildable hfits fun other hreaches hother =>
    complete_of_effect hdeps hreaches hother, hdeps.grows.trans (Finset.subset_insert _ _),
    List.Subset.trans hdeps.kept (List.subset_cons_self _ _),
    iff_of_false Bool.true_eq_false_eq_False hfits, fun other => ?_,
    fun other hmem => reached_of_effect hdeps hmem,
    fun other hreaches hother => complete_of_effect hdeps hreaches hother⟩
  exact ((unblocked_of_effect hdeps).2 other).trans
    (or_iff_left fun hblamed => hfits hblamed.1).symm

end Ends

/-- A task that tries nothing again that has failed: it fails as the setup says. -/
theorem Runs.effect (hacyclic : setup.table.Acyclic) {task : Task Component}
    {left : Build Component} {ok : Bool} (hruns : Runs setup task build ok left)
    (hsound : Sound setup build)
    (hfresh : ∀ other, task.Blamed setup other → other ∉ build.failures) :
    Effect setup task build ok left := by
  induction hruns with
  | done => exact effect_done hsound
  | compiled hcompiled _ ih =>
      have hfits := not_blocks_of_compiled hsound hcompiled
      exact effect_compiled hsound hcompiled (ih hsound fun other hblamed =>
        hfresh other ((blamed_cons_of_not_blocks hfits).mpr hblamed))
  | failed hcompiled _ ih =>
      have hmarked := hsound.not_marked hcompiled
      exact effect_failed hmarked (ih hsound fun other hblamed =>
        hfresh other ((blamed_cons_of_blocks ⟨hmarked, hblamed.1⟩).mpr hblamed.2))
  | built hcompiled _ _ ihdep ihrest =>
      have hmarked := hsound.not_marked hcompiled
      have hdep := ihdep hsound fun other hblamed =>
        hfresh other ((blamed_cons_of_blocks ⟨hmarked, hblamed.1⟩).mpr hblamed.2)
      have hfits : ¬ setup.Fails _ := fun hfails => by cases hdep.fails.mpr hfails
      refine effect_built hmarked hdep (ihrest hdep.sound fun other hblamed hmem => ?_)
      rcases (hdep.failures other).mp hmem with hold | hnew
      · exact hfresh other
          ((blamed_cons_of_not_blocks fun hblocks => hfits hblocks.2).mpr hblamed) hold
      · exact hfits hnew.1
  | dependencyFailed _ ih =>
      exact effect_dependencyFailed hacyclic hfresh
        (ih hsound fun other hblamed => hfresh other (blamed_one_of_dependencies hblamed))
  | alreadyCompiled _ hcompiled ih =>
      exact effect_alreadyCompiled hcompiled
        (ih hsound fun other hblamed => hfresh other (blamed_one_of_dependencies hblamed))
  | buildFailed _ hcompiled houtcome ih =>
      exact effect_buildFailed hcompiled houtcome
        (fun hmem => hfresh _ ⟨hsound.fails _ hmem, .refl⟩ hmem)
        (ih hsound fun other hblamed => hfresh other (blamed_one_of_dependencies hblamed))
  | buildSucceeded _ hcompiled houtcome ih =>
      exact effect_buildSucceeded hcompiled houtcome
        (fun hmem => hfresh _ ⟨hsound.fails _ hmem, .refl⟩ hmem)
        (ih hsound fun other hblamed => hfresh other (blamed_one_of_dependencies hblamed))

end Sound

end RosRtems.RtColcon
