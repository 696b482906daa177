import RosRtems.Executor.GuardConditions

/-!
# The list of guard conditions over whole runs

A loop of `add_node` or `wait_for_work` can only leave the list of guard conditions
too short, a loop of `remove_node` only too long, and neither repairs what an
earlier call of it spoilt; the clean-up of invalid groups leaves the length as far
off as it was.  So the list is right after an operation exactly if every call that
the operation made was admissible, and throughout a run exactly if all were.
-/

namespace RosRtems.Bookkeeping

open Function
open RosRtems.Runs
open RosRtems.ThrowingLoop

section Cleanup

variable {w : World} {g n : ℕ}

/-- An invalid group in the map that is waited on. -/
def Leaving (w : World) (g : ℕ) : Prop :=
  g ∈ w.weakGroupsToNodes ∧ w.invalidEntry g = true ∧ w.addedWhileValid g = true

/-- What the clean-up relies on: guard conditions are recorded for groups in the map that
came under a valid context, and those of the invalid groups are listed, each at an
address of its own. -/
structure InvalidListed (w : World) : Prop where
  recorded : ∀ g, w.weakGroupsToGuardConditions g ≠ none →
    g ∈ w.weakGroupsToNodes ∧ w.addedWhileValid g = true
  listed : ∀ g, Leaving w g →
    ∃ address ∈ w.guardConditions, w.weakGroupsToGuardConditions g = some address
  apart : ∀ g h, Leaving w g → Leaving w h →
    w.weakGroupsToGuardConditions g = w.weakGroupsToGuardConditions h → g = h

/-- Two groups that are waited on have guard conditions at different addresses. -/
theorem Consistent.apart (hw : Consistent w) {h : ℕ} (hg : g ∈ w.waitedGroups)
    (hh : h ∈ w.waitedGroups) (hsame : w.notifyAddress g = w.notifyAddress h) : g = h := by
  have hnodup : w.expected.Nodup :=
    hw.listed.nodup_iff.mp (hw.listedOnce.map (Option.some_injective ℕ))
  have hwaited : (w.waitedGroups.map w.notifyAddress).Nodup := hnodup.of_cons.of_cons
  exact List.inj_on_of_nodup_map hwaited hg hh hsame

theorem Leaving.waited (hg : Leaving w g) : g ∈ w.waitedGroups :=
  List.mem_filter.mpr ⟨AList.mem_keys.mp hg.1, hg.2.2⟩

theorem Watching.invalidListed (hw : Watching w) : InvalidListed w where
  recorded g hsome := by
    by_contra hnot
    exact hsome ((hw.recorded g).trans (if_neg hnot))
  listed g hg := by
    obtain ⟨address, hlisted, haddress⟩ := hw.waited hg.1 hg.2.2
    refine ⟨address, hlisted, ?_⟩
    rw [hw.recorded g, if_pos ⟨hg.1, hg.2.2⟩, haddress]
  apart g h hg hh hsame := by
    rw [hw.recorded g, hw.recorded h, if_pos ⟨hg.1, hg.2.2⟩, if_pos ⟨hh.1, hh.2.2⟩] at hsame
    exact hw.apart hg.waited hh.waited hsame

/-- A group that enters while it and its node are alive is not invalid. -/
theorem enter_not_invalid {added : Added} {held : CallbackGroup}
    (habsent : g ∉ w.weakGroupsToNodes) (hheld : held.alive = true)
    (halive : (w.node n).alive = true) :
    ((w.setGroup g held).enter added g n).invalidEntry g = false := by
  have hlookup := lookup_enter_all (w.setGroup g held) added g g n habsent
  rw [if_pos rfl] at hlookup
  rw [World.invalidEntry, World.lockNode, hlookup]
  simp [World.enter, World.setGroup, hheld, halive]

/-- Entering does not make another group invalid. -/
theorem Leaving.of_enter {added : Added} {held : CallbackGroup} {h : ℕ}
    (habsent : g ∉ w.weakGroupsToNodes) (hother : h ≠ g)
    (hh : Leaving ((w.setGroup g held).enter added g n) h) : Leaving w h := by
  obtain ⟨hmem, hinvalid, hvalid⟩ := hh
  have hlookup := lookup_enter_all (w.setGroup g held) added g h n habsent
  rw [if_neg hother] at hlookup
  refine ⟨((mem_enter_all added n held habsent h).mp hmem).resolve_left hother, ?_, ?_⟩
  · simp only [World.invalidEntry, World.lockNode, hlookup] at hinvalid ⊢
    simpa [World.enter, World.setGroup, hother] using hinvalid
  · simpa [World.enter, World.setGroup, hother] using hvalid

theorem InvalidListed.enter {added : Added} {held : CallbackGroup} (hw : InvalidListed w)
    (habsent : g ∉ w.weakGroupsToNodes) (hheld : held.alive = true)
    (halive : (w.node n).alive = true) :
    InvalidListed ((w.setGroup g held).enter added g n) := by
  have hleaving : ∀ h, Leaving ((w.setGroup g held).enter added g n) h → Leaving w h := by
    intro h hh
    refine hh.of_enter habsent ?_
    rintro rfl
    have hinvalid := hh.2.1
    rw [enter_not_invalid habsent hheld halive] at hinvalid
    cases hinvalid
  constructor
  · intro h hsome
    have hrecorded := hw.recorded h hsome
    have hother : h ≠ g := by
      rintro rfl
      exact habsent hrecorded.1
    refine ⟨(mem_enter_all added n held habsent h).mpr (.inr hrecorded.1), ?_⟩
    simpa [World.enter, World.setGroup, hother] using hrecorded.2
  · intro h hh
    exact hw.listed h (hleaving h hh)
  · intro h k hh hk
    exact hw.apart h k (hleaving h hh) (hleaving k hk)

theorem InvalidListed.watch (hw : InvalidListed w) (address : ℕ)
    (hmem : g ∈ w.weakGroupsToNodes) (hadded : w.addedWhileValid g = true)
    (hvalid : w.invalidEntry g = false) : InvalidListed (w.watch g address) := by
  have hother : ∀ h, Leaving (w.watch g address) h → h ≠ g := by
    rintro h hh rfl
    have hinvalid : w.invalidEntry h = true := hh.2.1
    rw [hvalid] at hinvalid
    cases hinvalid
  have hrecord : ∀ h, h ≠ g →
      (w.watch g address).weakGroupsToGuardConditions h = w.weakGroupsToGuardConditions h :=
    fun h hne => update_of_ne hne _ _
  constructor
  · intro h hsome
    by_cases hsame : h = g
    · subst hsame
      exact ⟨hmem, hadded⟩
    · rw [hrecord h hsame] at hsome
      exact hw.recorded h hsome
  · intro h hh
    obtain ⟨listed, hlisted, hsome⟩ := hw.listed h hh
    exact ⟨listed, mem_addGuardCondition address hlisted,
      (hrecord h (hother h hh)).trans hsome⟩
  · intro h k hh hk hsame
    rw [hrecord h (hother h hh), hrecord k (hother k hk)] at hsame
    exact hw.apart h k hh hk hsame

theorem addCallbackGroupToMap_invalidListed {outside : Outside} {added : Added} {notify : Bool}
    (hmaps : Maps w) (hw : InvalidListed w) (halive : (w.group g).alive = true)
    (hnode : (w.node n).alive = true) :
    InvalidListed (addCallbackGroupToMap w outside added g n notify).1 := by
  cases hflag : (w.group g).associatedWithExecutor with
  | true =>
      rw [addCallbackGroupToMap_of_associated hflag]
      exact hw
  | false =>
      have habsent := hmaps.absent halive hflag
      rcases addCallbackGroupToMap_cases outside added n notify hflag
        (hmaps.absent_added habsent) with
        ⟨-, hcall⟩ | ⟨-, guardCondition, what, -, hcall⟩ | ⟨hvalid, address, -, hcall⟩
      · rw [hcall]
        exact hw.enter habsent halive hnode
      · rw [hcall]
        exact hw.enter habsent halive hnode
      · rw [hcall]
        have hheld : ((w.group g).associated.holding
            (some ⟨address, (w.node n).context⟩)).alive = true := halive
        have hmem := (mem_enter_all added n ((w.group g).associated.holding
          (some ⟨address, (w.node n).context⟩)) habsent g).mpr (.inl rfl)
        refine (hw.enter habsent hheld hnode).watch address hmem ?_
          (enter_not_invalid habsent hheld hnode)
        simp [World.enter, World.setGroup, hvalid]

/-- A group stays invalid when another one is removed, and when it is removed itself. -/
theorem invalidEntry_removeInvalidGroup (w : World) (g h : ℕ) :
    (removeInvalidGroup w g).invalidEntry h = (decide (h = g) || w.invalidEntry h) := by
  by_cases hsame : h = g
  · subst hsame
    simp [World.invalidEntry, World.lockNode, removeInvalidGroup, World.unwatch]
  · simp [World.invalidEntry, World.lockNode, removeInvalidGroup, World.unwatch, hsame]

theorem Leaving.of_removeInvalidGroup {h : ℕ} (hh : Leaving (removeInvalidGroup w g) h) :
    h ≠ g ∧ Leaving w h := by
  obtain ⟨hmem, hinvalid, hvalid⟩ := hh
  have herase : h ∈ w.weakGroupsToNodes.erase g := hmem
  obtain ⟨hother, hbefore⟩ := AList.mem_erase.mp herase
  rw [invalidEntry_removeInvalidGroup] at hinvalid
  exact ⟨hother, hbefore, by simpa [hother] using hinvalid, hvalid⟩

theorem InvalidListed.removeInvalid (hw : InvalidListed w) (hinvalid : w.invalidEntry g = true) :
    InvalidListed (removeInvalidGroup w g) := by
  have hrecord : ∀ h, h ≠ g → (removeInvalidGroup w g).weakGroupsToGuardConditions h =
      w.weakGroupsToGuardConditions h := fun h hne => update_of_ne hne _ _
  constructor
  · intro h hsome
    have hother : h ≠ g := by
      rintro rfl
      exact hsome (update_self _ _ _)
    rw [hrecord h hother] at hsome
    obtain ⟨hmem, hvalid⟩ := hw.recorded h hsome
    exact ⟨AList.mem_erase.mpr ⟨hother, hmem⟩, hvalid⟩
  · intro h hh
    obtain ⟨hother, hbefore⟩ := hh.of_removeInvalidGroup
    obtain ⟨address, hlisted, hsome⟩ := hw.listed h hbefore
    refine ⟨address, ?_, (hrecord h hother).trans hsome⟩
    simp only [removeInvalidGroup, World.unwatch]
    cases hg : w.weakGroupsToGuardConditions g with
    | none => exact hlisted
    | some removed =>
        obtain ⟨hmem, hvalid⟩ := hw.recorded g (by rw [hg]; exact Option.some_ne_none _)
        have hne : address ≠ removed := by
          rintro rfl
          exact hother (hw.apart h g hbefore ⟨hmem, hinvalid, hvalid⟩ (hsome.trans hg.symm))
        exact (List.mem_erase_of_ne hne).mpr hlisted
  · intro h k hh hk hsame
    obtain ⟨hh', hhbefore⟩ := hh.of_removeInvalidGroup
    obtain ⟨hk', hkbefore⟩ := hk.of_removeInvalidGroup
    rw [hrecord h hh', hrecord k hk'] at hsame
    exact hw.apart h k hhbefore hkbefore hsame

/-- A list that is too short stays so through the removal of an invalid group. -/
theorem removeInvalidGroup_short (hw : InvalidListed w) (hinvalid : w.invalidEntry g = true)
    (hshort : Short w) : Short (removeInvalidGroup w g) := by
  have hlisted : (removeInvalidGroup w g).guardConditions = (w.unwatch g).guardConditions := rfl
  have hle := (length_unwatch w g).1
  rw [Short] at hshort ⊢
  rw [hlisted]
  by_cases hmem : g ∈ w.weakGroupsToNodes
  · have hself : w.setGroup g (w.group g) = w := by
      simp [World.setGroup]
    have hlength := length_expected_erase (w.group g) hmem
    rw [hself] at hlength
    have hexpected : w.expected.length = (if w.addedWhileValid g then 1 else 0) +
        (removeInvalidGroup w g).expected.length := hlength
    cases hvalid : w.addedWhileValid g with
    | false =>
        rw [hvalid, if_neg Bool.false_ne_true] at hexpected
        omega
    | true =>
        obtain ⟨address, haddress, hsome⟩ := hw.listed g ⟨hmem, hinvalid, hvalid⟩
        have herase : (w.unwatch g).guardConditions.length + 1 = w.guardConditions.length := by
          simp only [World.unwatch, hsome, removeGuardCondition]
          exact List.length_erase_add_one haddress
        rw [hvalid, if_pos rfl] at hexpected
        omega
  · have hexpected : (removeInvalidGroup w g).expected = w.expected := by
      have herase : (removeInvalidGroup w g).weakGroupsToNodes = w.weakGroupsToNodes :=
        erase_of_absent hmem
      rw [World.expected, World.waitedGroups, herase]
      rfl
    rw [hexpected]
    omega

theorem removeInvalidGroups_short (groups : List ℕ) (hw : InvalidListed w)
    (hinvalid : ∀ g ∈ groups, w.invalidEntry g = true) (hshort : Short w) :
    Short (groups.foldl removeInvalidGroup w) := by
  induction groups generalizing w with
  | nil => exact hshort
  | cons g groups ih =>
      have hg := hinvalid g List.mem_cons_self
      refine ih (hw.removeInvalid hg) (fun h hmem => ?_) (removeInvalidGroup_short hw hg hshort)
      rw [invalidEntry_removeInvalidGroup, hinvalid h (List.mem_cons_of_mem _ hmem),
        Bool.or_true]

theorem removeInvalidGroups_watching (groups : List ℕ) (hw : Watching w) :
    Watching (groups.foldl removeInvalidGroup w) := by
  induction groups generalizing w with
  | nil => exact hw
  | cons g groups ih => exact ih hw.removeInvalid

end Cleanup

section Loops

variable {w : World} {g n : ℕ} {notify : Bool} {outside : ℕ → Outside} {groups : List ℕ}

/-- Each free group of a node that the loop adds meets `AddsUnlisted`. -/
def AddsFreeGroups (outside : ℕ → Outside) (n : ℕ) (notify : Bool) : List ℕ → World → Prop :=
  Along (addFreeGroup outside n notify) fun w g =>
    (w.group g).alive = true → (w.group g).automaticallyAddToExecutorWithNode = true →
      AddsUnlisted w (outside g) g n

/-- Each live group of a node that the loop removes meets `RemovesLast`. -/
def RemovesGroups (outside : ℕ → Outside) (n : ℕ) (notify : Bool) : List ℕ → World → Prop :=
  Along (removeGroupOfNode outside n notify) fun w g =>
    w.lockNode ((w.weakGroupsAdded .automatically).lookup g) = some n →
      (w.group g).alive = true → RemovesLast w .automatically g

theorem addFreeGroup_watching (hw : Watching w)
    (hadds : (w.group g).alive = true →
      (w.group g).automaticallyAddToExecutorWithNode = true → AddsUnlisted w (outside g) g n) :
    Watching (addFreeGroup outside n notify w g).1 := by
  rw [addFreeGroup]
  split
  · rename_i hfree
    simp only [Bool.and_eq_true] at hfree
    exact addCallbackGroupToMap_watching hw hfree.1.1 (hadds hfree.1.1 hfree.2)
  · exact hw

theorem addFreeGroup_balance (outside : ℕ → Outside) (n : ℕ) (notify : Bool) (g : ℕ)
    (hw : Maps w) :
    let after := (addFreeGroup outside n notify w g).1
    after.guardConditions.length + w.expected.length ≤
        w.guardConditions.length + after.expected.length ∧
      (¬ ((w.group g).alive = true → (w.group g).automaticallyAddToExecutorWithNode = true →
          AddsUnlisted w (outside g) g n) →
        after.guardConditions.length + w.expected.length <
          w.guardConditions.length + after.expected.length) := by
  intro after
  by_cases hfree : ((w.group g).alive && !(w.group g).associatedWithExecutor &&
      (w.group g).automaticallyAddToExecutorWithNode) = true
  · have hafter : after = (addCallbackGroupToMap w (outside g) .automatically g n notify).1 :=
      congrArg Prod.fst (if_pos hfree)
    simp only [Bool.and_eq_true] at hfree
    have hbalance := addCallbackGroupToMap_balance (outside g) .automatically n notify hw
      hfree.1.1
    rw [hafter]
    exact ⟨hbalance.1, fun hnot => hbalance.2 fun hadds => hnot fun _ _ => hadds⟩
  · have hafter : after = w := congrArg Prod.fst (if_neg hfree)
    rw [hafter]
    refine ⟨le_refl _, fun hnot => absurd (fun halive hauto hflag => ?_) hnot⟩
    exact absurd (by simp [halive, hauto, hflag]) hfree

theorem addFreeGroups_watching (hw : Watching w)
    (hadds : AddsFreeGroups outside n notify groups w) :
    Watching (forEach (addFreeGroup outside n notify) groups w).1 :=
  Along.keeps (fun _ _ _ hstate => addFreeGroup_watching hstate) hw hadds

/-- A list that is too short stays so through the next group. -/
theorem addFreeGroup_short (outside : ℕ → Outside) (n : ℕ) (notify : Bool) (g : ℕ)
    (hw : Maps w ∧ Short w) :
    Maps (addFreeGroup outside n notify w g).1 ∧ Short (addFreeGroup outside n notify w g).1 := by
  have hbalance := (addFreeGroup_balance outside n notify g hw.1).1
  have hbefore := hw.2
  refine ⟨addFreeGroup_maps hw.1, ?_⟩
  rw [Short] at hbefore ⊢
  omega

/-- A list that is too short stays so through the groups of a node. -/
theorem addFreeGroups_short (groups : List ℕ) (hw : Maps w ∧ Short w) :
    Maps (forEach (addFreeGroup outside n notify) groups w).1 ∧
      Short (forEach (addFreeGroup outside n notify) groups w).1 :=
  forEach_keeps (fun w => Maps w ∧ Short w)
    (fun _ g _ hstate => addFreeGroup_short outside n notify g hstate) hw

/-- Groups that were added without leaving the list too short were added as they ought. -/
theorem addsFreeGroups_of_not_short (hw : Watching w)
    (hfinish : ¬ Short (forEach (addFreeGroup outside n notify) groups w).1) :
    AddsFreeGroups outside n notify groups w := by
  refine along_of_unspoilt Watching (fun w => Maps w ∧ Short w)
    (fun _ _ _ hstate => addFreeGroup_watching hstate) ?_
    (fun _ g _ hstate => addFreeGroup_short outside n notify g hstate) hw
    fun hspoilt => hfinish hspoilt.2
  intro state g _ hstate hnot
  have hbalance := (addFreeGroup_balance outside n notify g hstate.toMaps).2 hnot
  have hlength := hstate.length_eq
  refine ⟨addFreeGroup_maps hstate.toMaps, ?_⟩
  rw [Short]
  omega

theorem removeGroupOfNode_watching (hw : Watching w)
    (hremoves : w.lockNode ((w.weakGroupsAdded .automatically).lookup g) = some n →
      (w.group g).alive = true → RemovesLast w .automatically g) :
    Watching (removeGroupOfNode outside n notify w g).1 := by
  rw [removeGroupOfNode]
  split
  · rename_i hnode
    refine removeCallbackGroupFromMap_watching hw fun h hptr => ?_
    rw [World.lockGroup] at hptr
    split at hptr
    · rename_i halive
      cases hptr
      exact hremoves hnode halive
    · cases hptr
  · exact hw

/-- Guard conditions are recorded for groups that came under a valid context. -/
def RecordedValid (w : World) : Prop :=
  ∀ g ∈ w.weakGroupsToNodes, w.weakGroupsToGuardConditions g ≠ none → w.addedWhileValid g = true

theorem removeCallbackGroupFromMap_recordedValid (outside : Outside) (added : Added)
    (notify : Bool) (groupPtr : Option ℕ) (hw : RecordedValid w) :
    RecordedValid (removeCallbackGroupFromMap w outside added groupPtr notify).1 := by
  rcases removeCallbackGroupFromMap_cases outside added notify w groupPtr with
    ⟨-, what, hcall⟩ | ⟨g, n, -, -, -, ⟨-, hcall⟩ | ⟨-, hcall⟩⟩
  · rw [hcall]
    exact hw
  · rw [hcall]
    intro h hmem hsome
    exact hw h ((mem_leave_all w added g h).mp hmem).2 hsome
  · rw [hcall]
    intro h hmem hsome
    obtain ⟨hother, hbefore⟩ := (mem_leave_all w added g h).mp hmem
    exact hw h hbefore fun hnone => hsome ((update_of_ne hother _ _).trans hnone)

/-- What a list that is too long stays through. -/
structure TooLong (w : World) : Prop where
  maps : Maps w
  recorded : RecordedValid w
  excess : Excess w

theorem removeGroupOfNode_tooLong (outside : ℕ → Outside) (n : ℕ) (notify : Bool) (g : ℕ)
    (hw : TooLong w) : TooLong (removeGroupOfNode outside n notify w g).1 := by
  rw [removeGroupOfNode]
  split
  · have hbalance := (removeCallbackGroupFromMap_balance (outside g) .automatically notify
      hw.maps (w.lockGroup g) hw.recorded).1
    have hbefore := hw.excess
    refine ⟨removeCallbackGroupFromMap_maps hw.maps _,
      removeCallbackGroupFromMap_recordedValid _ _ _ _ hw.recorded, ?_⟩
    rw [Excess] at hbefore ⊢
    omega
  · exact hw

theorem Watching.recordedValid (hw : Watching w) : RecordedValid w :=
  fun g _ hsome => (hw.invalidListed.recorded g hsome).2

theorem removeGroups_watching (hw : Watching w)
    (hremoves : RemovesGroups outside n notify groups w) :
    Watching (forEach (removeGroupOfNode outside n notify) groups w).1 :=
  Along.keeps (fun _ _ _ hstate => removeGroupOfNode_watching hstate) hw hremoves

/-- Groups that were removed without leaving the list too long were removed as they ought. -/
theorem removesGroups_of_not_excess (hw : Watching w)
    (hfinish : ¬ Excess (forEach (removeGroupOfNode outside n notify) groups w).1) :
    RemovesGroups outside n notify groups w := by
  refine along_of_unspoilt Watching TooLong
    (fun _ _ _ hstate => removeGroupOfNode_watching hstate) ?_
    (fun _ g _ hstate => removeGroupOfNode_tooLong outside n notify g hstate) hw
    fun hspoilt => hfinish hspoilt.excess
  intro state g _ hstate hnot
  rw [Classical.not_imp, Classical.not_imp] at hnot
  obtain ⟨hnode, halive, hnot⟩ := hnot
  have hbalance := (removeCallbackGroupFromMap_balance (outside g) .automatically notify
    hstate.toMaps (state.lockGroup g) hstate.recordedValid).2
    ⟨g, by rw [World.lockGroup, if_pos halive], hnot⟩
  have hlength := hstate.length_eq
  rw [removeGroupOfNode, if_pos hnode]
  refine ⟨removeCallbackGroupFromMap_maps hstate.toMaps _,
    removeCallbackGroupFromMap_recordedValid _ _ _ _ hstate.recordedValid, ?_⟩
  rw [Excess]
  omega

end Loops

section Waiting

variable {w : World} {n : ℕ} {outside : ℕ → Outside} {nodes : List ℕ}

/-- Each free group that `wait_for_work` adds, node by node, meets `AddsUnlisted`. -/
def AddsFreeGroupsOfNodes (outside : ℕ → Outside) : List ℕ → World → Prop :=
  Along (addFreeGroupsOfNode outside) fun w n =>
    (w.node n).alive = true → AddsFreeGroups outside n true (w.node n).callbackGroups w

theorem addFreeGroupsOfNode_watching (hw : Watching w)
    (hadds : (w.node n).alive = true →
      AddsFreeGroups outside n true (w.node n).callbackGroups w) :
    Watching (addFreeGroupsOfNode outside w n).1 := by
  rw [addFreeGroupsOfNode]
  split
  · rename_i halive
    exact addFreeGroups_watching hw (hadds halive)
  · exact hw

theorem addFreeGroupsOfNode_short (outside : ℕ → Outside) (n : ℕ) (hw : Maps w ∧ Short w) :
    Maps (addFreeGroupsOfNode outside w n).1 ∧ Short (addFreeGroupsOfNode outside w n).1 := by
  rw [addFreeGroupsOfNode]
  split
  · exact addFreeGroups_short _ hw
  · exact hw

theorem addFreeGroup_invalidListed (outside : ℕ → Outside) (notify : Bool) (g : ℕ)
    (hw : Maps w ∧ InvalidListed w ∧ (w.node n).alive = true) :
    Maps (addFreeGroup outside n notify w g).1 ∧
      InvalidListed (addFreeGroup outside n notify w g).1 ∧
      ((addFreeGroup outside n notify w g).1.node n).alive = true := by
  refine ⟨addFreeGroup_maps hw.1, ?_, ?_⟩
  · rw [addFreeGroup]
    split
    · rename_i hfree
      simp only [Bool.and_eq_true] at hfree
      exact addCallbackGroupToMap_invalidListed hw.1 hw.2.1 hfree.1.1 hw.2.2
    · exact hw.2.1
  · rw [(addFreeGroup_nodes w g n notify outside).node]
    exact hw.2.2

theorem addFreeGroupsOfNode_invalidListed (outside : ℕ → Outside) (n : ℕ)
    (hw : Maps w ∧ InvalidListed w) :
    Maps (addFreeGroupsOfNode outside w n).1 ∧
      InvalidListed (addFreeGroupsOfNode outside w n).1 := by
  rw [addFreeGroupsOfNode]
  split
  · rename_i halive
    let after := (forEach (addFreeGroup outside n true) (w.node n).callbackGroups w).1
    have hloop : Maps after ∧ InvalidListed after ∧ (after.node n).alive = true :=
      forEach_keeps (fun w => Maps w ∧ InvalidListed w ∧ (w.node n).alive = true)
        (fun _ g _ hstate => addFreeGroup_invalidListed outside true g hstate)
        ⟨hw.1, hw.2, halive⟩
    exact ⟨hloop.1, hloop.2.1⟩
  · exact hw

/-- What the clean-up relies on holds after the groups of all nodes were added. -/
theorem addFreeGroupsOfNodes_invalidListed (outside : ℕ → Outside) (nodes : List ℕ)
    (hw : Watching w) :
    InvalidListed (forEach (addFreeGroupsOfNode outside) nodes w).1 :=
  (forEach_keeps (fun w => Maps w ∧ InvalidListed w)
    (fun _ n _ hstate => addFreeGroupsOfNode_invalidListed outside n hstate)
    ⟨hw.toMaps, hw.invalidListed⟩).2

theorem addsFreeGroupsOfNodes_of_not_short (hw : Watching w)
    (hfinish : ¬ Short (forEach (addFreeGroupsOfNode outside) nodes w).1) :
    AddsFreeGroupsOfNodes outside nodes w := by
  refine along_of_unspoilt Watching (fun w => Maps w ∧ Short w)
    (fun _ _ _ hstate => addFreeGroupsOfNode_watching hstate) ?_
    (fun _ n _ hstate => addFreeGroupsOfNode_short outside n hstate) hw
    fun hspoilt => hfinish hspoilt.2
  intro state n _ hstate hnot
  rw [Classical.not_imp] at hnot
  obtain ⟨halive, hnot⟩ := hnot
  have hshort : Short (addFreeGroupsOfNode outside state n).1 := by
    by_contra hfinish
    rw [addFreeGroupsOfNode, if_pos halive] at hfinish
    exact hnot (addsFreeGroups_of_not_short hstate hfinish)
  exact ⟨addFreeGroupsOfNode_maps hstate.toMaps, hshort⟩

end Waiting

section Operations

variable {w : World} {n : ℕ} {notify : Bool} {outside : ℕ → Outside}

theorem Watching.setNode (hw : Watching w) (node : ℕ → Node) :
    Watching { w with node := node } :=
  ⟨⟨⟨hw.union, hw.disjoint, hw.flagged, hw.listedOnce⟩, hw.listed⟩, hw.recorded⟩

theorem Watching.setWeakNodes (hw : Watching w) (weakNodes : List ℕ) :
    Watching { w with weakNodes := weakNodes } :=
  ⟨⟨⟨hw.union, hw.disjoint, hw.flagged, hw.listedOnce⟩, hw.listed⟩, hw.recorded⟩

theorem Watching.setNodeAssociated (hw : Watching w) (associated : Bool) :
    Watching (w.setNodeAssociated n associated) :=
  hw.setNode _

theorem Watching.unlistNode (hw : Watching w) : Watching (w.unlistNode n) :=
  hw.setWeakNodes _

/-- The groups that `add_node` adds, if the node has no executor, meet `AddsUnlisted`. -/
def NodeAddsUnlisted (w : World) (outside : ℕ → Outside) (n : ℕ) (notify : Bool) : Prop :=
  (w.node n).associatedWithExecutor = false →
    AddsFreeGroups outside n notify (w.node n).callbackGroups (w.setNodeAssociated n true)

/-- The groups that `remove_node` removes, if the executor has the node, meet `RemovesLast`. -/
def NodeRemovesLast (w : World) (outside : ℕ → Outside) (n : ℕ) (notify : Bool) : Prop :=
  (w.node n).associatedWithExecutor = true → w.listsNode n = true →
    RemovesGroups outside n notify (sortedKeys (w.weakGroupsAdded .automatically))
      (w.unlistNode n)

theorem addNode_watching (hw : Watching w) (hadds : NodeAddsUnlisted w outside n notify) :
    Watching (addNode w outside n notify).1 := by
  cases hflag : (w.node n).associatedWithExecutor with
  | true =>
      rw [addNode, if_pos hflag]
      exact hw
  | false =>
      have hloop := addFreeGroups_watching (hw.setNodeAssociated true) (hadds hflag)
      rcases addNode_cases w n notify outside hflag with ⟨-, hcall⟩ | ⟨what, -, hcall⟩
      · rw [hcall]
        exact hloop.setWeakNodes _
      · rw [hcall]
        exact hloop

theorem addNode_adds (hw : Watching w) (hfinish : Consistent (addNode w outside n notify).1) :
    NodeAddsUnlisted w outside n notify := by
  intro hflag
  refine addsFreeGroups_of_not_short (hw.setNodeAssociated true) fun hshort => ?_
  rcases addNode_cases w n notify outside hflag with ⟨-, hcall⟩ | ⟨what, -, hcall⟩
  · rw [hcall] at hfinish
    exact hfinish.not_short hshort
  · rw [hcall] at hfinish
    exact hfinish.not_short hshort

theorem removeNode_watching (hw : Watching w) (hremoves : NodeRemovesLast w outside n notify) :
    Watching (removeNode w outside n notify).1 := by
  cases hflag : (w.node n).associatedWithExecutor with
  | false =>
      rw [removeNode, if_pos (by simp [hflag])]
      exact hw
  | true =>
      cases hlists : w.listsNode n with
      | false =>
          rw [removeNode, if_neg (by simp [hflag]), if_neg (by simp [hlists])]
          exact hw.unlistNode
      | true =>
          have hloop := removeGroups_watching hw.unlistNode (hremoves hflag hlists)
          rcases removeNode_cases w n notify outside hflag hlists with
            ⟨-, hcall⟩ | ⟨what, -, hcall⟩
          · rw [hcall]
            exact hloop.setNodeAssociated false
          · rw [hcall]
            exact hloop

theorem removeNode_removes (hw : Watching w)
    (hfinish : Consistent (removeNode w outside n notify).1) :
    NodeRemovesLast w outside n notify := by
  intro hflag hlists
  refine removesGroups_of_not_excess hw.unlistNode fun hexcess => ?_
  rcases removeNode_cases w n notify outside hflag hlists with ⟨-, hcall⟩ | ⟨what, -, hcall⟩
  · rw [hcall] at hfinish
    exact hfinish.not_excess hexcess
  · rw [hcall] at hfinish
    exact hfinish.not_excess hexcess

theorem waitForWork_watching {failure : Option String} (hw : Watching w)
    (hadds : AddsFreeGroupsOfNodes outside w.weakNodes w) :
    Watching (waitForWork w outside failure).1 := by
  have hloop : Watching (forEach (addFreeGroupsOfNode outside) w.weakNodes w).1 :=
    Along.keeps (fun _ _ _ hstate => addFreeGroupsOfNode_watching hstate) hw hadds
  rcases waitForWork_cases w outside failure with ⟨-, hcall⟩ | hcall
  · rw [hcall]
    exact removeInvalidGroups_watching _ hloop
  · rw [hcall]
    exact hloop

theorem waitForWork_adds {failure : Option String} (hw : Watching w)
    (hfinish : Consistent (waitForWork w outside failure).1) :
    AddsFreeGroupsOfNodes outside w.weakNodes w := by
  refine addsFreeGroupsOfNodes_of_not_short hw fun hshort => ?_
  have hlisted := addFreeGroupsOfNodes_invalidListed outside w.weakNodes hw
  rcases waitForWork_cases w outside failure with ⟨-, hcall⟩ | hcall
  · rw [hcall] at hfinish
    refine hfinish.not_short (removeInvalidGroups_short _ hlisted (fun g hmem => ?_) hshort)
    exact (List.mem_filter.mp hmem).2
  · rw [hcall] at hfinish
    exact hfinish.not_short hshort

end Operations

section Runs

variable {w start finish : World} {call : Call} {trace : List (Move World Call)}

/-- The condition on an operation: each group that it adds under a valid context gets a
guard condition at an address that is not listed, and each group that it removes, if it
has a guard condition, is the last of its node. -/
def Admissible (w : World) (call : Call) : Prop :=
  match call.operation with
  | .addNode n notify => NodeAddsUnlisted w call.outside n notify
  | .removeNode n notify => NodeRemovesLast w call.outside n notify
  | .addCallbackGroup g n _ => AddsUnlisted w (call.outside g) g n
  | .removeCallbackGroup g _ => RemovesLast w .manually g
  | .waitForWork _ => AddsFreeGroupsOfNodes call.outside w.weakNodes w
  | _ => True

theorem Constructed.watching (hstart : Constructed w) : Watching w where
  toMaps := hstart.maps
  listed := by
    simp [World.expected, World.waitedGroups, hstart.noGroup, hstart.ownGuardConditions]
  recorded g := by
    simp [hstart.noGroup, hstart.noGuardCondition]

/-- What befalls a group outside the map does not matter to the list. -/
theorem Watching.setGroup_outside (hw : Watching w) {g : ℕ} (group : CallbackGroup)
    (habsent : g ∉ w.weakGroupsToNodes) : Watching (w.setGroup g group) where
  toMaps := hw.toMaps.setGroup group fun hmem _ => absurd hmem habsent
  listed := by
    have hwaited : w.waitedGroups.map (w.setGroup g group).notifyAddress =
        w.waitedGroups.map w.notifyAddress := by
      refine List.map_congr_left fun h hmem => ?_
      have hother : h ≠ g := by
        rintro rfl
        exact habsent (AList.mem_keys.mpr (List.mem_of_mem_filter hmem))
      simp [World.notifyAddress, World.setGroup, hother]
    have hlisted := hw.listed
    rw [World.expected, ← hwaited] at hlisted
    exact hlisted
  recorded h := by
    by_cases hsame : h = g
    · subst hsame
      have hnone := hw.unrecorded habsent
      simp [World.setGroup, habsent, hnone]
    · have hrecorded := hw.recorded h
      simpa [World.notifyAddress, World.setGroup, hsame] using hrecorded

theorem Watching.expireGroup (hw : Watching w) (g : ℕ) :
    Watching (w.setGroup g { w.group g with alive := false }) where
  toMaps := hw.toMaps.setGroup _ fun _ halive => absurd halive Bool.false_ne_true
  listed := by
    have haddress : (w.setGroup g { w.group g with alive := false }).notifyAddress =
        w.notifyAddress := by
      funext h
      by_cases hsame : h = g
      · subst hsame
        simp [World.notifyAddress, World.setGroup]
      · simp [World.notifyAddress, World.setGroup, hsame]
    have hlisted := hw.listed
    rw [World.expected, ← haddress] at hlisted
    exact hlisted
  recorded h := by
    have hrecorded := hw.recorded h
    by_cases hsame : h = g
    · subst hsame
      simpa [World.notifyAddress, World.setGroup] using hrecorded
    · simpa [World.notifyAddress, World.setGroup, hsame] using hrecorded

/-- The step lemma: an admissible operation keeps the list right. -/
theorem perform_watching (hw : Watching w) (hadmissible : Admissible w call)
    (henabled : Enabled w call.operation) : Watching (perform w call) := by
  rcases call with ⟨operation, outside⟩
  cases operation with
  | addNode n notify => exact addNode_watching hw hadmissible
  | removeNode n notify => exact removeNode_watching hw hadmissible
  | addCallbackGroup g n notify =>
      exact addCallbackGroupToMap_watching hw henabled.1 hadmissible
  | removeCallbackGroup g notify =>
      refine removeCallbackGroupFromMap_watching hw fun h hptr => ?_
      cases hptr
      exact hadmissible
  | waitForWork failure => exact waitForWork_watching hw hadmissible
  | expireGroup g => exact hw.expireGroup g
  | expireNode n => exact hw.setNode _
  | createCallbackGroup n g automatically =>
      exact (hw.setGroup_outside _ henabled.2.1).setNode _
  | changeContext context valid =>
      exact ⟨⟨⟨hw.union, hw.disjoint, hw.flagged, hw.listedOnce⟩, hw.listed⟩, hw.recorded⟩
  | changeGroupElsewhere g associated notifyGuardCondition =>
      exact hw.setGroup_outside _ henabled
  | changeNodeElsewhere n associated => exact hw.setNode _

/-- An operation that leaves the books consistent was admissible. -/
theorem admissible_of_perform (hw : Watching w) (henabled : Enabled w call.operation)
    (hfinish : Consistent (perform w call)) : Admissible w call := by
  rcases call with ⟨operation, outside⟩
  cases operation with
  | addNode n notify => exact addNode_adds hw hfinish
  | removeNode n notify => exact removeNode_removes hw hfinish
  | waitForWork failure => exact waitForWork_adds hw hfinish
  | addCallbackGroup g n notify =>
      by_contra hnot
      have hbalance := (addCallbackGroupToMap_balance (outside g) .manually n notify hw.toMaps
        henabled.1).2 hnot
      have hbefore := hw.length_eq
      refine hfinish.not_short ?_
      change (addCallbackGroupToMap w (outside g) .manually g n notify).1.guardConditions.length
        < (addCallbackGroupToMap w (outside g) .manually g n notify).1.expected.length
      omega
  | removeCallbackGroup g notify =>
      by_contra hnot
      have hbalance := (removeCallbackGroupFromMap_balance (outside g) .manually notify
        hw.toMaps (some g) hw.recordedValid).2 ⟨g, rfl, hnot⟩
      have hbefore := hw.length_eq
      refine hfinish.not_excess ?_
      change (removeCallbackGroupFromMap w (outside g) .manually (some g)
          notify).1.expected.length <
        (removeCallbackGroupFromMap w (outside g) .manually (some g)
          notify).1.guardConditions.length
      omega
  | expireGroup g => trivial
  | expireNode n => trivial
  | createCallbackGroup n g automatically => trivial
  | changeContext context valid => trivial
  | changeGroupElsewhere g associated notifyGuardCondition => trivial
  | changeNodeElsewhere n associated => trivial

/-- The books of an executor are consistent throughout a run exactly if each operation of
the run was admissible. -/
theorem consistent_throughout_iff (hrun : Run Step start trace finish)
    (hstart : Constructed start) :
    Throughout Consistent start trace ↔ Admitted Admissible trace := by
  refine hrun.throughout_iff_admitted (fun _ hstate => hstate.toConsistent) ?_ ?_
    hstart.watching
  · rintro source call target hsource hadmissible ⟨henabled, rfl⟩
    exact perform_watching hsource hadmissible henabled
  · rintro source call target hsource ⟨henabled, rfl⟩ hholds
    exact admissible_of_perform hsource henabled hholds

end Runs

section Cases

/-- Two groups are added by hand, and one of them is removed again. -/
def oneOfTwoRemoved : List Call :=
  [⟨.addCallbackGroup 10 5 true, apart⟩, ⟨.addCallbackGroup 11 5 true, apart⟩,
    ⟨.removeCallbackGroup 10 true, apart⟩]

theorem removed_group_stays_listed :
    Constructed nodeOfTwoGroups ∧
      Run Step nodeOfTwoGroups (movesOf nodeOfTwoGroups oneOfTwoRemoved)
        (oneOfTwoRemoved.foldl perform nodeOfTwoGroups) ∧
      10 ∉ (oneOfTwoRemoved.foldl perform nodeOfTwoGroups).weakGroupsToNodes ∧
      110 ∈ (oneOfTwoRemoved.foldl perform nodeOfTwoGroups).guardConditions ∧
      ¬ Consistent (oneOfTwoRemoved.foldl perform nodeOfTwoGroups) := by
  refine ⟨nodeOfTwoGroups_constructed,
    run_movesOf ⟨⟨rfl, rfl⟩, ⟨rfl, rfl⟩, rfl, trivial⟩, by decide, by decide,
    fun hconsistent => ?_⟩
  have hlength := hconsistent.length_eq
  revert hlength
  decide

/-- A node is added, one of its groups expires and is cleaned up, and the node is removed
with the other one. -/
def nodeAddedAndRemoved : List Call :=
  [⟨.addNode 5 true, apart⟩, ⟨.expireGroup 10, apart⟩, ⟨.waitForWork none, apart⟩,
    ⟨.removeNode 5 true, apart⟩]

theorem node_added_and_removed_consistent :
    Throughout Consistent nodeOfTwoGroups (movesOf nodeOfTwoGroups nodeAddedAndRemoved) := by
  have hrun : Run Step nodeOfTwoGroups (movesOf nodeOfTwoGroups nodeAddedAndRemoved)
      (nodeAddedAndRemoved.foldl perform nodeOfTwoGroups) :=
    run_movesOf ⟨rfl, trivial, trivial, rfl, trivial⟩
  refine (consistent_throughout_iff hrun nodeOfTwoGroups_constructed).mpr
    (.cons ?_ (.cons ?_ (.cons ?_ (.cons ?_ (.nil _)))))
  · exact fun _ => ⟨fun _ _ _ _ => ⟨110, by decide, rfl⟩,
      fun _ => ⟨fun _ _ _ _ => ⟨111, by decide, rfl⟩, fun _ => trivial⟩⟩
  · trivial
  · -- both groups carry the flag, so that nothing is added
    exact ⟨fun _ => ⟨fun _ _ hfree => absurd hfree (by decide),
      fun _ => ⟨fun _ _ hfree => absurd hfree (by decide), fun _ => trivial⟩⟩, fun _ => trivial⟩
  · refine fun _ _ => ⟨fun _ _ n _ _ _ kind h hother => ?_, fun _ => trivial⟩
    have hmem := AList.mem_keys.mp (mem_iff_lookup.mpr ⟨n, hother⟩)
    cases kind with
    | manually =>
        have hnone : h ∈ ([] : List ℕ) := hmem
        cases hnone
    | automatically =>
        have honly : h ∈ [11] := hmem
        exact List.mem_singleton.mp honly

end Cases

end RosRtems.Bookkeeping
