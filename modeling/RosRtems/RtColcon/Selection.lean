import RosRtems.RtColcon.Script

/-!
# The packages that a run goes through

`resolve_deps` visits what is below a selected package, each component once.  What it has
visited is closed under dependencies, apart from the components whose visit is not over
yet; so `NEEDED` ends up as everything below the selected packages.
-/

namespace RosRtems.RtColcon

variable {Component : Type*} [DecidableEq Component]

/-- Without `--select-packages` all components are requested, else the selected packages
and everything below them. -/
def Setup.Requested (setup : Setup Component) (component : Component) : Prop :=
  match setup.selectPackages with
  | none => component ∈ setup.table.components
  | some packages =>
      ∃ package ∈ packages, Relation.ReflTransGen setup.table.Dependency component package

/-- The selected packages without dependencies, as often as they are selected. -/
def Setup.standalone (setup : Setup Component) : List Component :=
  match setup.selectPackages with
  | none => []
  | some packages => packages.filter fun package => setup.table.dependencies package = []

noncomputable instance Setup.decidableRequested (setup : Setup Component)
    (component : Component) : Decidable (setup.Requested component) := Classical.propDecidable _

/-- What a run goes through: the requested components in the order of the table, then the
standalone packages, without those that are to be skipped. -/
noncomputable def Setup.targets (setup : Setup Component) : List Component :=
  (setup.table.components.filter (fun component => setup.Requested component) ++
    setup.standalone).filter fun component => component ∉ setup.skipPackages

variable {setup : Setup Component}

/-- The dependencies of everything needed are needed too, but for the pending ones. -/
def Closed (setup : Setup Component) (pending : Component → Prop) (needed : Finset Component) :
    Prop :=
  ∀ component ∈ needed, ¬ pending component →
    ∀ dep, setup.table.Dependency dep component → dep ∈ needed

/-- What the visits of some packages add to `NEEDED`: components of the table, apart from
some packages outside of it. -/
structure Visits (setup : Setup Component) (outside packages : List Component)
    (needed found : Finset Component) : Prop where
  grows : needed ⊆ found
  visited : ∀ package ∈ packages, package ∈ found
  below : ∀ component ∈ found, component ∈ needed ∨
    ∃ package ∈ packages, Relation.ReflTransGen setup.table.Dependency component package
  known : ∀ component ∈ found,
    component ∈ needed ∨ component ∈ setup.table.components ∨ component ∈ outside
  closed : ∀ pending, Closed setup pending needed → Closed setup pending found

namespace Visits

variable {needed between found : Finset Component} {package : Component}
  {outside packages : List Component}

theorem nil : Visits setup outside [] needed needed where
  grows := subset_rfl
  visited := fun _ hmem => by cases hmem
  below := fun _ hmem => .inl hmem
  known := fun _ hmem => .inl hmem
  closed := fun _ hclosed => hclosed

theorem again (hneeded : package ∈ needed) : Visits setup outside [package] needed needed where
  grows := subset_rfl
  visited := fun _ hmem => List.mem_singleton.mp hmem ▸ hneeded
  below := fun _ hmem => .inl hmem
  known := fun _ hmem => .inl hmem
  closed := fun _ hclosed => hclosed

theorem cons (hfirst : Visits setup outside [package] needed between)
    (hrest : Visits setup outside packages between found) :
    Visits setup outside (package :: packages) needed found where
  grows := hfirst.grows.trans hrest.grows
  visited := List.forall_mem_cons.mpr
    ⟨hrest.grows (hfirst.visited package (List.mem_singleton_self package)), hrest.visited⟩
  below := by
    intro component hmem
    rcases hrest.below component hmem with hbetween | ⟨other, hother, hpath⟩
    · refine (hfirst.below component hbetween).imp_right ?_
      rintro ⟨other, hother, hpath⟩
      exact ⟨other, List.mem_singleton.mp hother ▸ List.mem_cons_self, hpath⟩
    · exact .inr ⟨other, List.mem_cons_of_mem _ hother, hpath⟩
  known := by
    intro component hmem
    rcases hrest.known component hmem with hbetween | hknown
    · exact hfirst.known component hbetween
    · exact .inr hknown
  closed := fun pending hclosed => hrest.closed pending (hfirst.closed pending hclosed)

theorem standalone (hnone : setup.table.dependencies package = [])
    (houtside : package ∈ outside) :
    Visits setup outside [package] needed (insert package needed) where
  grows := Finset.subset_insert _ _
  visited := fun _ hmem => List.mem_singleton.mp hmem ▸ Finset.mem_insert_self _ _
  below := by
    intro component hmem
    rcases Finset.mem_insert.mp hmem with rfl | hneeded
    · exact .inr ⟨component, List.mem_singleton_self _, .refl⟩
    · exact .inl hneeded
  known := by
    intro component hmem
    rcases Finset.mem_insert.mp hmem with rfl | hneeded
    · exact .inr (.inr houtside)
    · exact .inl hneeded
  closed := by
    intro pending hclosed component hmem hpending dep hdep
    rcases Finset.mem_insert.mp hmem with rfl | hneeded
    · rw [Table.Dependency, hnone] at hdep
      cases hdep
    · exact Finset.mem_insert_of_mem (hclosed component hneeded hpending dep hdep)

/-- A package is pending while its dependencies are visited. -/
theorem line {below : List Component} (hline : setup.table.line package = some below)
    (hbelow : Visits setup outside below (insert package needed) found) :
    Visits setup outside [package] needed found where
  grows := (Finset.subset_insert _ _).trans hbelow.grows
  visited := fun _ hmem =>
    List.mem_singleton.mp hmem ▸ hbelow.grows (Finset.mem_insert_self _ _)
  below := by
    intro component hmem
    rcases hbelow.below component hmem with hinsert | ⟨dep, hdep, hpath⟩
    · rcases Finset.mem_insert.mp hinsert with rfl | hneeded
      · exact .inr ⟨component, List.mem_singleton_self _, .refl⟩
      · exact .inl hneeded
    · exact .inr ⟨package, List.mem_singleton_self _, hpath.tail ((Table.dependency_iff_of_line hline).mpr hdep)⟩
  known := by
    intro component hmem
    rcases hbelow.known component hmem with hinsert | hknown
    · rcases Finset.mem_insert.mp hinsert with rfl | hneeded
      · exact .inr (.inl (Table.mem_components_of_line hline))
      · exact .inl hneeded
    · exact .inr hknown
  closed := by
    intro pending hclosed component hmem hpending dep hdep
    -- the visit of the package is not over while its dependencies are visited
    have hopen : Closed setup (fun other => other = package ∨ pending other) found := by
      refine hbelow.closed _ fun other hother hnot lower hlower => ?_
      rw [not_or] at hnot
      exact Finset.mem_insert_of_mem
        (hclosed other (Finset.mem_of_mem_insert_of_ne hother hnot.1) hnot.2 lower hlower)
    by_cases hpackage : component = package
    · subst hpackage
      exact hbelow.visited dep ((Table.dependency_iff_of_line hline).mp hdep)
    · exact hopen component hmem (not_or.mpr ⟨hpackage, hpending⟩) dep hdep

end Visits

theorem visits_of_foldlM {outside below : List Component} {fuel : ℕ}
    (hresolve : ∀ {package needed found}, resolveDeps setup fuel package needed = .ok found →
      Visits setup outside [package] needed found)
    {needed found : Finset Component}
    (hrun : below.foldlM (fun needed dep => resolveDeps setup fuel dep needed) needed =
      .ok found) : Visits setup outside below needed found := by
  induction below generalizing needed with
  | nil =>
      cases hrun
      exact .nil
  | cons dep rest ih =>
      rw [List.foldlM_cons] at hrun
      cases hdep : resolveDeps setup fuel dep needed with
      | error stop => rw [hdep] at hrun; cases hrun
      | ok between =>
          rw [hdep] at hrun
          exact .cons (hresolve hdep) (ih hrun)

theorem visits_of_resolveDeps {outside : List Component} {fuel : ℕ} {package : Component}
    {needed found : Finset Component}
    (hrun : resolveDeps setup fuel package needed = .ok found) :
    Visits setup outside [package] needed found := by
  induction fuel generalizing package needed found with
  | zero => cases hrun
  | succ fuel ih =>
      rw [resolveDeps] at hrun
      split at hrun
      · rename_i hneeded
        cases hrun
        exact .again hneeded
      · cases hline : setup.table.line package with
        | none => rw [hline] at hrun; cases hrun
        | some below =>
            rw [hline] at hrun
            exact .line hline (visits_of_foldlM ih hrun)

/-- The loop over the selected packages visits them, and collects those without
dependencies. -/
theorem visits_of_selectPackages {outside packages : List Component} {fuel : ℕ}
    (houtside : ∀ package ∈ packages, setup.table.dependencies package = [] → package ∈ outside)
    {needed found : Finset Component} {extra standalone : List Component}
    (hrun : selectPackages setup fuel packages (needed, extra) = .ok (found, standalone)) :
    Visits setup outside packages needed found ∧ standalone = extra ++
      packages.filter fun package => setup.table.dependencies package = [] := by
  induction packages generalizing needed extra with
  | nil =>
      cases hrun
      exact ⟨.nil, by simp⟩
  | cons package rest ih =>
      obtain ⟨hfirst, hrest⟩ := List.forall_mem_cons.mp houtside
      rw [selectPackages] at hrun
      split at hrun
      · rename_i hnone
        split at hrun
        · obtain ⟨hvisits, hstandalone⟩ := ih hrest hrun
          refine ⟨.cons (.standalone hnone (hfirst hnone)) hvisits, ?_⟩
          rw [hstandalone, List.filter_cons_of_pos (by simpa using hnone), List.append_assoc]
          rfl
        · cases hrun
      · rename_i hsome
        cases hdep : resolveDeps setup fuel package needed with
        | error stop => rw [hdep] at hrun; cases hrun
        | ok between =>
            rw [hdep] at hrun
            obtain ⟨hvisits, hstandalone⟩ := ih hrest hrun
            refine ⟨.cons (visits_of_resolveDeps hdep) hvisits, ?_⟩
            rw [hstandalone, List.filter_cons_of_neg (by simpa using hsome)]

/-- `NEEDED` after the loop over the selected packages. -/
theorem mem_found_iff {outside packages : List Component} {found : Finset Component}
    (hvisits : Visits setup outside packages ∅ found) {component : Component} :
    component ∈ found ↔
      ∃ package ∈ packages, Relation.ReflTransGen setup.table.Dependency component package := by
  constructor
  · intro hmem
    exact (hvisits.below component hmem).resolve_left (Finset.notMem_empty component)
  · rintro ⟨package, hpackage, hpath⟩
    have hclosed : Closed setup (fun _ => False) found :=
      hvisits.closed _ fun _ hmem => absurd hmem (Finset.notMem_empty _)
    induction hpath using Relation.ReflTransGen.head_induction_on with
    | refl => exact hvisits.visited package hpackage
    | head hstep _ ih => exact hclosed _ ih not_false _ hstep

theorem requested_of_mem_targets {component : Component} (hmem : component ∈ setup.targets) :
    setup.Requested component ∧ component ∉ setup.skipPackages := by
  rw [Setup.targets, List.mem_filter, decide_eq_true_iff] at hmem
  refine ⟨?_, hmem.2⟩
  rcases List.mem_append.mp hmem.1 with hcomponent | hstandalone
  · exact of_decide_eq_true (List.mem_filter.mp hcomponent).2
  · rw [Setup.standalone] at hstandalone
    rw [Setup.Requested]
    cases hselect : setup.selectPackages with
    | none => rw [hselect] at hstandalone; cases hstandalone
    | some packages =>
        rw [hselect] at hstandalone
        exact ⟨component, List.mem_of_mem_filter hstandalone, .refl⟩

theorem mem_targets_of_requested {component : Component}
    (hrequested : setup.Requested component) (hskip : component ∉ setup.skipPackages)
    (hknown : component ∈ setup.table.components ∨ component ∈ setup.standalone) :
    component ∈ setup.targets := by
  rw [Setup.targets, List.mem_filter, decide_eq_true_iff]
  refine ⟨List.mem_append.mpr (hknown.imp_left fun hcomponent => ?_), hskip⟩
  exact List.mem_filter.mpr ⟨hcomponent, decide_eq_true hrequested⟩

/-- The run goes through the targets; each requested component that is not to be skipped
is one of them. -/
theorem targetPackages_eq_ok {fuel : ℕ} {targets : List Component}
    (hrun : targetPackages setup fuel = .ok targets) :
    targets = setup.targets ∧ ∀ component, setup.Requested component →
      component ∉ setup.skipPackages → component ∈ setup.targets := by
  cases hselect : setup.selectPackages with
  | none =>
      have hrequested : ∀ component, setup.Requested component ↔
          component ∈ setup.table.components := fun component => by
        rw [Setup.Requested, hselect]
      have hall : targets = setup.table.components.filter
          fun component => component ∉ setup.skipPackages := by
        rw [targetPackages, hselect] at hrun
        exact (Except.ok.inj hrun).symm
      refine ⟨?_, fun component hmem hskip => mem_targets_of_requested hmem hskip
        (.inl ((hrequested component).mp hmem))⟩
      rw [hall, Setup.targets, Setup.standalone, hselect, List.append_nil,
        List.filter_eq_self.mpr fun component hmem =>
          decide_eq_true ((hrequested component).mpr hmem)]
  | some packages =>
      have hrequested : ∀ component, setup.Requested component ↔ ∃ package ∈ packages,
          Relation.ReflTransGen setup.table.Dependency component package := fun component => by
        rw [Setup.Requested, hselect]
      have hstandalone : setup.standalone =
          packages.filter fun package => setup.table.dependencies package = [] := by
        rw [Setup.standalone, hselect]
      cases hfound : selectPackages setup fuel packages (∅, []) with
      | error stop =>
          simp only [targetPackages, hselect, hfound] at hrun
          cases hrun
      | ok selected =>
          obtain ⟨found, extra⟩ := selected
          have houtside : ∀ package ∈ packages, setup.table.dependencies package = [] →
              package ∈ setup.standalone := fun package hpackage hnone => by
            rw [hstandalone]
            exact List.mem_filter.mpr ⟨hpackage, decide_eq_true hnone⟩
          obtain ⟨hvisits, hextra⟩ := visits_of_selectPackages houtside hfound
          have hmem : ∀ component, component ∈ found ↔ setup.Requested component :=
            fun component => (mem_found_iff hvisits).trans (hrequested component).symm
          have hall : targets = (setup.table.components.filter
              (fun component => component ∈ found) ++ extra).filter
                fun component => component ∉ setup.skipPackages := by
            simp only [targetPackages, hselect, hfound] at hrun
            exact (Except.ok.inj hrun).symm
          refine ⟨?_, fun component hcomponent hskip => mem_targets_of_requested hcomponent hskip
            ((hvisits.known component ((hmem component).mpr hcomponent)).resolve_left
              (Finset.notMem_empty component))⟩
          rw [hall, Setup.targets, hextra, List.nil_append, hstandalone]
          congr 2
          exact List.filter_congr fun component _ => by simp [hmem component]

end RosRtems.RtColcon
