import RosRtems.Executor.GroupMaps

/-!
# Which guard conditions an executor waits on

The memory strategy ought to list the executor's own two guard conditions and the
notify guard condition of each group that is still in the map, each once.  A group
that leaves the map takes its guard condition along only if it is the last group of
its node, so that the list is right exactly as long as no other group with a
guard condition is removed, and no group is added whose guard condition cannot be
obtained or is at an address that is listed already.
-/

namespace RosRtems.Bookkeeping

open Function
open RosRtems.Runs
open RosRtems.ThrowingLoop

section Expected

/-- The address of the notify guard condition that a group holds. -/
def World.notifyAddress (w : World) (g : ℕ) : Option ℕ :=
  (w.group g).notifyGuardCondition.map GuardCondition.address

/-- The groups still in the map that were added while their context was valid. -/
def World.waitedGroups (w : World) : List ℕ :=
  w.weakGroupsToNodes.keys.filter w.addedWhileValid

/-- What the memory strategy ought to list. -/
def World.expected (w : World) : List (Option ℕ) :=
  some w.shutdownGuardCondition :: some w.interruptGuardCondition ::
    w.waitedGroups.map w.notifyAddress

/-- The books are consistent: the maps are in order, and the memory strategy lists the
executor's own guard conditions and those of the groups in the map, each once. -/
structure Consistent (w : World) : Prop extends Maps w where
  listed : (w.guardConditions.map some).Perm w.expected

/-- A guard condition is recorded for the groups in the map that hold it, and for no other. -/
structure Watching (w : World) : Prop extends Consistent w where
  recorded : ∀ g, w.weakGroupsToGuardConditions g =
    if g ∈ w.weakGroupsToNodes ∧ w.addedWhileValid g = true then w.notifyAddress g else none

end Expected

section Counting

variable {w : World} {added : Added} {g n : ℕ}

/-- A group that enters the map is expected from then on if its context was valid. -/
theorem expected_enter (added : Added) (n : ℕ) (held : CallbackGroup)
    (habsent : g ∉ w.weakGroupsToNodes) :
    ((w.setGroup g held).enter added g n).expected.Perm
      ((if w.contextIsValid (w.node n).context then
        [held.notifyGuardCondition.map GuardCondition.address] else []) ++ w.expected) := by
  have hkeys : ((w.setGroup g held).enter added g n).weakGroupsToNodes.keys =
      g :: w.weakGroupsToNodes.keys := by
    have hnot : g ∉ w.weakGroupsToNodes.keys := fun hmem => habsent (AList.mem_keys.mpr hmem)
    change (insertAbsent w.weakGroupsToNodes g n).keys = _
    rw [insertAbsent, if_neg habsent, AList.keys_insert, List.erase_of_not_mem hnot]
  have hne : ∀ h ∈ w.weakGroupsToNodes.keys, h ≠ g := by
    rintro h hmem rfl
    exact habsent (AList.mem_keys.mpr hmem)
  have hold : (w.weakGroupsToNodes.keys.filter
      ((w.setGroup g held).enter added g n).addedWhileValid).map
        ((w.setGroup g held).enter added g n).notifyAddress =
      w.waitedGroups.map w.notifyAddress := by
    have hfilter : w.weakGroupsToNodes.keys.filter
        ((w.setGroup g held).enter added g n).addedWhileValid = w.waitedGroups :=
      List.filter_congr fun h hmem => update_of_ne (hne h hmem) _ _
    rw [hfilter]
    refine List.map_congr_left fun h hmem => ?_
    have hother : h ≠ g := hne h (List.mem_of_mem_filter hmem)
    simp [World.notifyAddress, World.enter, World.setGroup, hother]
  have hself : ((w.setGroup g held).enter added g n).notifyAddress g =
      held.notifyGuardCondition.map GuardCondition.address := by
    simp [World.notifyAddress, World.enter, World.setGroup]
  have hvalid : ((w.setGroup g held).enter added g n).addedWhileValid g =
      w.contextIsValid (w.node n).context := by
    simp [World.enter, World.setGroup]
  simp only [World.expected, World.waitedGroups, hkeys, List.filter_cons, hvalid]
  split
  · rename_i hctx
    rw [List.map_cons, hself, hold]
    exact ((List.Perm.swap _ _ _).cons _).trans (List.Perm.swap _ _ _)
  · rw [hold]
    exact List.Perm.refl _

/-- A group that is taken out of the map is expected no more. -/
theorem expected_erase (held : CallbackGroup) (hmem : g ∈ w.weakGroupsToNodes) :
    w.expected.Perm
      ((if w.addedWhileValid g then [w.notifyAddress g] else []) ++
        { w.setGroup g held with
          weakGroupsToNodes := w.weakGroupsToNodes.erase g }.expected) := by
  have hkeys : w.weakGroupsToNodes.keys.Perm (g :: w.weakGroupsToNodes.keys.erase g) :=
    List.perm_cons_erase (AList.mem_keys.mp hmem)
  have hnodup := w.weakGroupsToNodes.keys_nodup
  have hold : (w.weakGroupsToNodes.keys.erase g |>.filter w.addedWhileValid).map
        { w.setGroup g held with
          weakGroupsToNodes := w.weakGroupsToNodes.erase g }.notifyAddress =
      (w.weakGroupsToNodes.keys.erase g |>.filter w.addedWhileValid).map w.notifyAddress := by
    refine List.map_congr_left fun h hmem => ?_
    have hother : h ≠ g := (hnodup.mem_erase_iff.mp (List.mem_of_mem_filter hmem)).1
    simp [World.notifyAddress, World.setGroup, hother]
  have hperm := (hkeys.filter w.addedWhileValid).map w.notifyAddress
  have hafter : { w.setGroup g held with
      weakGroupsToNodes := w.weakGroupsToNodes.erase g }.expected =
      some w.shutdownGuardCondition :: some w.interruptGuardCondition ::
        (w.weakGroupsToNodes.keys.erase g |>.filter w.addedWhileValid).map
          w.notifyAddress := by
    rw [← hold]
    simp only [World.expected, World.waitedGroups, AList.keys_erase]
    rfl
  rw [hafter]
  simp only [List.filter_cons] at hperm
  refine ((hperm.cons _).cons _).trans ?_
  split
  · rw [List.map_cons]
    exact ((List.Perm.swap _ _ _).cons _).trans (List.Perm.swap _ _ _)
  · exact List.Perm.refl _

end Counting

section Entering

variable {w : World} {added : Added} {g n : ℕ} {held : CallbackGroup}

variable (added n held) in
theorem mem_enter_all (habsent : g ∉ w.weakGroupsToNodes) (h : ℕ) :
    h ∈ ((w.setGroup g held).enter added g n).weakGroupsToNodes ↔
      h = g ∨ h ∈ w.weakGroupsToNodes := by
  rw [mem_iff_lookup, mem_iff_lookup,
    lookup_enter_all (w.setGroup g held) added g h n habsent]
  by_cases hsame : h = g
  · simp [hsame]
  · simp [hsame, World.setGroup]

/-- No guard condition is recorded for a group outside the map. -/
theorem Watching.unrecorded (hw : Watching w) (habsent : g ∉ w.weakGroupsToNodes) :
    w.weakGroupsToGuardConditions g = none := by
  rw [hw.recorded g, if_neg fun hboth => habsent hboth.1]

variable (added n held) in
/-- Entering leaves what is recorded for the other groups right. -/
theorem Watching.recorded_enter (hw : Watching w) (habsent : g ∉ w.weakGroupsToNodes)
    {h : ℕ} (hother : h ≠ g) : w.weakGroupsToGuardConditions h =
      if h ∈ ((w.setGroup g held).enter added g n).weakGroupsToNodes ∧
          ((w.setGroup g held).enter added g n).addedWhileValid h = true then
        ((w.setGroup g held).enter added g n).notifyAddress h else none := by
  have hmem := mem_enter_all added n held habsent h
  simp only [hother, false_or] at hmem
  rw [hw.recorded h]
  simp only [hmem]
  simp [World.notifyAddress, World.enter, World.setGroup, hother]

/-- A group that is added while its context is not valid is not waited on. -/
theorem Watching.enter (hw : Watching w) (habsent : g ∉ w.weakGroupsToNodes)
    (hflag : held.associatedWithExecutor = true)
    (hinvalid : w.contextIsValid (w.node n).context = false) :
    Watching ((w.setGroup g held).enter added g n) where
  toMaps := hw.toMaps.enter habsent hflag
  listed := by
    have hexpected := expected_enter added n held habsent
    rw [hinvalid] at hexpected
    exact hw.listed.trans hexpected.symm
  recorded h := by
    by_cases hsame : h = g
    · subst hsame
      have hnone := hw.unrecorded habsent
      simp [World.enter, World.setGroup, hnone, hinvalid]
    · exact hw.recorded_enter added n held habsent hsame

/-- A group whose guard condition is at an address that is not listed yet is waited on. -/
theorem Watching.enter_watch (hw : Watching w) (habsent : g ∉ w.weakGroupsToNodes)
    (hflag : held.associatedWithExecutor = true)
    (hvalid : w.contextIsValid (w.node n).context = true) {address context : ℕ}
    (hheld : held.notifyGuardCondition = some ⟨address, context⟩)
    (hnew : address ∉ w.guardConditions) :
    Watching (((w.setGroup g held).enter added g n).watch g address) where
  toMaps := (hw.toMaps.enter habsent hflag).watch address
  listed := by
    have hexpected := expected_enter added n held habsent
    rw [hvalid, hheld] at hexpected
    change ((addGuardCondition w.guardConditions address).map some).Perm
      ((w.setGroup g held).enter added g n).expected
    rw [addGuardCondition, if_neg hnew, List.map_append]
    exact (List.perm_append_comm.trans (hw.listed.cons _)).trans hexpected.symm
  recorded h := by
    by_cases hsame : h = g
    · subst hsame
      have hmem := (mem_enter_all added n held habsent h).mpr
        (.inl rfl)
      simp only [World.enter, World.setGroup, World.watch, update_self] at hmem ⊢
      simp [hmem, hvalid, World.notifyAddress, hheld]
    · exact (update_of_ne hsame _ _).trans (hw.recorded_enter added n held habsent hsame)

end Entering

section Leaving

variable {w : World} {added : Added} {g n : ℕ}

/-- The guard condition of a group that is waited on is at some address of the list. -/
theorem Watching.waited (hw : Watching w) (hmem : g ∈ w.weakGroupsToNodes)
    (hvalid : w.addedWhileValid g = true) :
    ∃ address ∈ w.guardConditions, w.notifyAddress g = some address := by
  have hwaited : g ∈ w.waitedGroups :=
    List.mem_filter.mpr ⟨AList.mem_keys.mp hmem, hvalid⟩
  have hexpected : w.notifyAddress g ∈ w.expected :=
    List.mem_cons_of_mem _ (List.mem_cons_of_mem _ (List.mem_map_of_mem hwaited))
  obtain ⟨address, hlisted, haddress⟩ := List.mem_map.mp (hw.listed.mem_iff.mpr hexpected)
  exact ⟨address, hlisted, haddress.symm⟩

/-- The list after the guard condition of a group in the map was taken off. -/
theorem Watching.listed_erase (hw : Watching w) (held : CallbackGroup)
    (hmem : g ∈ w.weakGroupsToNodes) :
    ((w.unwatch g).guardConditions.map some).Perm { w.setGroup g held with
      weakGroupsToNodes := w.weakGroupsToNodes.erase g }.expected := by
  have hexpected := expected_erase held hmem
  have hrecorded := hw.recorded g
  cases hvalid : w.addedWhileValid g with
  | false =>
      rw [hvalid] at hexpected hrecorded
      simp only [Bool.false_eq_true, and_false, if_false] at hrecorded
      simp only [World.unwatch, hrecorded]
      exact hw.listed.trans hexpected
  | true =>
      obtain ⟨address, -, haddress⟩ := hw.waited hmem hvalid
      rw [hvalid, haddress] at hexpected
      rw [if_pos ⟨hmem, hvalid⟩, haddress] at hrecorded
      simp only [World.unwatch, hrecorded, removeGuardCondition]
      rw [List.map_erase (Option.some_injective ℕ)]
      have herase := (hw.listed.trans hexpected).erase (some address)
      simpa using herase

/-- What is recorded after the record of a group was erased. -/
theorem Watching.recorded_erase (hw : Watching w) (held : CallbackGroup) (h : ℕ) :
    (w.unwatch g).weakGroupsToGuardConditions h =
      if h ∈ w.weakGroupsToNodes.erase g ∧ w.addedWhileValid h = true then
        (w.setGroup g held).notifyAddress h else none := by
  by_cases hsame : h = g
  · subst hsame
    simp [World.unwatch, AList.mem_erase]
  · simp [World.unwatch, AList.mem_erase, hsame, hw.recorded h, World.notifyAddress,
      World.setGroup]

/-- A group that leaves the map with its guard condition is waited on no more. -/
theorem Watching.drop_unwatch (hw : Watching w)
    (hentry : (w.weakGroupsAdded added).lookup g = some n) :
    Watching ((w.drop added g).unwatch g) where
  toMaps := (hw.toMaps.drop hentry).unwatch
  listed := hw.listed_erase _ (hw.mem_of_entry hentry)
  recorded := hw.recorded_erase _

/-- A group for which nothing is recorded leaves the map, and nothing has to be taken off. -/
theorem Watching.drop (hw : Watching w)
    (hentry : (w.weakGroupsAdded added).lookup g = some n)
    (hnone : w.weakGroupsToGuardConditions g = none) :
    Watching (w.drop added g) where
  toMaps := hw.toMaps.drop hentry
  listed := by
    have hlisted := hw.listed_erase (w.group g).dissociated (hw.mem_of_entry hentry)
    simp only [World.unwatch, hnone] at hlisted
    exact hlisted
  recorded h := by
    have hrecorded := hw.recorded_erase (g := g) (w.group g).dissociated h
    have hsame : update w.weakGroupsToGuardConditions g none = w.weakGroupsToGuardConditions :=
      update_eq_self_iff.mpr hnone.symm
    simp only [World.unwatch, hsame] at hrecorded
    exact hrecorded

theorem erase_of_absent {map : NodeMap} (habsent : g ∉ map) : map.erase g = map :=
  AList.ext (List.kerase_of_notMem_keys habsent)

/-- The removal of a group that is in no map changes nothing. -/
theorem Watching.removeInvalid_of_absent (hw : Watching w) (habsent : g ∉ w.weakGroupsToNodes) :
    removeInvalidGroup w g = w := by
  have hnone := hw.unrecorded habsent
  have hmaps : (fun added => (w.weakGroupsAdded added).erase g) = w.weakGroupsAdded :=
    funext fun added => erase_of_absent (hw.absent_added habsent)
  have hsame : update w.weakGroupsToGuardConditions g none = w.weakGroupsToGuardConditions :=
    update_eq_self_iff.mpr hnone.symm
  simp only [removeInvalidGroup, World.unwatch, erase_of_absent habsent, hmaps, hnone, hsame]

/-- The removal of an invalid group takes its guard condition along. -/
theorem Watching.removeInvalid (hw : Watching w) : Watching (removeInvalidGroup w g) := by
  by_cases hmem : g ∈ w.weakGroupsToNodes
  · have hself : w.setGroup g (w.group g) = w := by
      simp [World.setGroup]
    have hlisted := hw.listed_erase (w.group g) hmem
    have hrecorded := hw.recorded_erase (g := g) (w.group g)
    rw [hself] at hlisted hrecorded
    exact ⟨⟨removeInvalidGroup_maps hw.toMaps, hlisted⟩, hrecorded⟩
  · rw [hw.removeInvalid_of_absent hmem]
    exact hw

end Leaving

section Calls

variable {w : World} {added : Added} {g n : ℕ} {notify : Bool}

/-- A group that is added under a valid context gets a guard condition, and at an
address that the memory strategy does not list yet. -/
def AddsUnlisted (w : World) (outside : Outside) (g n : ℕ) : Prop :=
  (w.group g).associatedWithExecutor = false →
    w.contextIsValid (w.node n).context = true →
      ∃ address ∉ w.guardConditions,
        ((w.group g).associated.getNotifyGuardCondition outside (w.node n).context).2 =
          .ok address

/-- A group that is removed is the last of its node if it has a guard condition. -/
def RemovesLast (w : World) (added : Added) (g : ℕ) : Prop :=
  ∀ n, (w.weakGroupsAdded added).lookup g = some n → (w.node n).alive = true →
    w.weakGroupsToGuardConditions g ≠ none → LastOfNode w g n

theorem addCallbackGroupToMap_watching {outside : Outside} (hw : Watching w)
    (halive : (w.group g).alive = true) (hadds : AddsUnlisted w outside g n) :
    Watching (addCallbackGroupToMap w outside added g n notify).1 := by
  cases hflag : (w.group g).associatedWithExecutor with
  | true =>
      rw [addCallbackGroupToMap_of_associated hflag]
      exact hw
  | false =>
      have habsent := hw.absent halive hflag
      rcases addCallbackGroupToMap_cases outside added n notify hflag
        (hw.absent_added habsent) with
        ⟨hinvalid, hcall⟩ | ⟨hvalid, guardCondition, what, hget, hcall⟩ |
          ⟨hvalid, address, hget, hcall⟩
      · rw [hcall]
        exact hw.enter habsent rfl hinvalid
      · obtain ⟨address, -, hok⟩ := hadds hflag hvalid
        rw [hget] at hok
        cases hok
      · obtain ⟨other, hnew, hok⟩ := hadds hflag hvalid
        rw [hget] at hok
        cases hok
        rw [hcall]
        exact hw.enter_watch habsent rfl hvalid rfl hnew

theorem removeCallbackGroupFromMap_watching {outside : Outside} (hw : Watching w)
    {groupPtr : Option ℕ} (hlast : ∀ g, groupPtr = some g → RemovesLast w added g) :
    Watching (removeCallbackGroupFromMap w outside added groupPtr notify).1 := by
  rcases removeCallbackGroupFromMap_cases outside added notify w groupPtr with
    ⟨-, what, hcall⟩ | ⟨g, n, hptr, hentry, halive, ⟨hothers, hcall⟩ | ⟨-, hcall⟩⟩
  · rw [hcall]
    exact hw
  · have hnone : w.weakGroupsToGuardConditions g = none := by
      by_contra hsome
      exact (hasNode_drop_iff hw.toMaps hentry halive).mp hothers
        (hlast g hptr n hentry halive hsome)
    rw [hcall]
    exact hw.drop hentry hnone
  · rw [hcall]
    exact hw.drop_unwatch hentry

end Calls

section Balance

variable {w : World} {added : Added} {g n : ℕ} {notify : Bool}

/-- The list is shorter than it ought to be. -/
def Short (w : World) : Prop := w.guardConditions.length < w.expected.length

/-- The list is longer than it ought to be. -/
def Excess (w : World) : Prop := w.expected.length < w.guardConditions.length

theorem Consistent.length_eq (hw : Consistent w) :
    w.guardConditions.length = w.expected.length := by
  have hlength := hw.listed.length_eq
  rwa [List.length_map] at hlength

theorem Consistent.not_short (hw : Consistent w) : ¬ Short w := by
  have hlength := hw.length_eq
  rw [Short]
  omega

theorem Consistent.not_excess (hw : Consistent w) : ¬ Excess w := by
  have hlength := hw.length_eq
  rw [Excess]
  omega

theorem length_addGuardCondition (guardConditions : List ℕ) (address : ℕ) :
    (addGuardCondition guardConditions address).length =
      guardConditions.length + if address ∈ guardConditions then 0 else 1 := by
  rw [addGuardCondition]
  split <;> simp

theorem length_expected_enter (added : Added) (n : ℕ) (held : CallbackGroup)
    (habsent : g ∉ w.weakGroupsToNodes) :
    ((w.setGroup g held).enter added g n).expected.length =
      (if w.contextIsValid (w.node n).context then 1 else 0) + w.expected.length := by
  rw [(expected_enter added n held habsent).length_eq, List.length_append]
  split <;> rfl

theorem length_expected_erase (held : CallbackGroup) (hmem : g ∈ w.weakGroupsToNodes) :
    w.expected.length = (if w.addedWhileValid g then 1 else 0) +
      { w.setGroup g held with
        weakGroupsToNodes := w.weakGroupsToNodes.erase g }.expected.length := by
  rw [(expected_erase held hmem).length_eq, List.length_append]
  split <;> rfl

theorem length_unwatch (w : World) (g : ℕ) :
    (w.unwatch g).guardConditions.length ≤ w.guardConditions.length ∧
      w.guardConditions.length ≤ (w.unwatch g).guardConditions.length +
        if w.weakGroupsToGuardConditions g = none then 0 else 1 := by
  simp only [World.unwatch]
  cases w.weakGroupsToGuardConditions g with
  | none => simp
  | some address =>
      have herase := List.length_erase (a := address) (l := w.guardConditions)
      simp only [removeGuardCondition, reduceCtorEq, if_false]
      rw [herase]
      split <;> omega

/-- An added group lengthens the list by no more than what is expected, and by less if
its guard condition could not be obtained or was listed. -/
theorem addCallbackGroupToMap_balance (outside : Outside) (added : Added) (n : ℕ)
    (notify : Bool) (hw : Maps w)
    (halive : (w.group g).alive = true) :
    let after := (addCallbackGroupToMap w outside added g n notify).1
    after.guardConditions.length + w.expected.length ≤
        w.guardConditions.length + after.expected.length ∧
      (¬ AddsUnlisted w outside g n →
        after.guardConditions.length + w.expected.length <
          w.guardConditions.length + after.expected.length) := by
  intro after
  cases hflag : (w.group g).associatedWithExecutor with
  | true =>
      have hafter : after = w :=
        congrArg Prod.fst (addCallbackGroupToMap_of_associated hflag)
      rw [hafter]
      refine ⟨le_refl _, fun hnot => absurd (fun hfree _ => ?_) hnot⟩
      rw [hflag] at hfree
      cases hfree
  | false =>
      have habsent := hw.absent halive hflag
      rcases addCallbackGroupToMap_cases outside added n notify hflag
        (hw.absent_added habsent) with
        ⟨hinvalid, hcall⟩ | ⟨hvalid, guardCondition, what, hget, hcall⟩ |
          ⟨hvalid, address, hget, hcall⟩
      · have hlength := length_expected_enter added n (w.group g).associated habsent
        rw [if_neg (by simp [hinvalid])] at hlength
        have hlisted : after.guardConditions = w.guardConditions :=
          congrArg (fun call => call.1.guardConditions) hcall
        have hexpected : after.expected.length = 0 + w.expected.length :=
          (congrArg (fun call => call.1.expected.length) hcall).trans hlength
        rw [hlisted, hexpected]
        refine ⟨by omega, fun hnot => absurd (fun _ hvalid => ?_) hnot⟩
        rw [hinvalid] at hvalid
        cases hvalid
      · have hlength := length_expected_enter added n
          ((w.group g).associated.holding guardCondition) habsent
        rw [if_pos hvalid] at hlength
        have hlisted : after.guardConditions = w.guardConditions :=
          congrArg (fun call => call.1.guardConditions) hcall
        have hexpected : after.expected.length = 1 + w.expected.length :=
          (congrArg (fun call => call.1.expected.length) hcall).trans hlength
        rw [hlisted, hexpected]
        exact ⟨by omega, fun _ => by omega⟩
      · have hlength := length_expected_enter added n
          ((w.group g).associated.holding (some ⟨address, (w.node n).context⟩)) habsent
        rw [if_pos hvalid] at hlength
        have hlisted : after.guardConditions = addGuardCondition w.guardConditions address :=
          congrArg (fun call => call.1.guardConditions) hcall
        have hexpected : after.expected.length = 1 + w.expected.length :=
          (congrArg (fun call => call.1.expected.length) hcall).trans hlength
        rw [hlisted, hexpected, length_addGuardCondition]
        refine ⟨by split <;> omega, fun hnot => ?_⟩
        have hlistedBefore : address ∈ w.guardConditions := by
          by_contra hnew
          exact hnot fun _ _ => ⟨address, hnew, hget⟩
        rw [if_pos hlistedBefore]
        omega

/-- A removed group shortens the list by no more than what is expected, and by less if its
guard condition stays. -/
theorem removeCallbackGroupFromMap_balance (outside : Outside) (added : Added)
    (notify : Bool) (hw : Maps w)
    (groupPtr : Option ℕ) (hrecorded : ∀ g ∈ w.weakGroupsToNodes,
      w.weakGroupsToGuardConditions g ≠ none → w.addedWhileValid g = true) :
    let after := (removeCallbackGroupFromMap w outside added groupPtr notify).1
    w.guardConditions.length + after.expected.length ≤
        after.guardConditions.length + w.expected.length ∧
      ((∃ g, groupPtr = some g ∧ ¬ RemovesLast w added g) →
        w.guardConditions.length + after.expected.length <
          after.guardConditions.length + w.expected.length) := by
  intro after
  rcases removeCallbackGroupFromMap_cases outside added notify w groupPtr with
    ⟨hrefused, what, hcall⟩ | ⟨g, n, hptr, hentry, halive, hleft⟩
  · have hafter : after = w := congrArg Prod.fst hcall
    rw [hafter]
    refine ⟨le_refl _, ?_⟩
    rintro ⟨g, hptr, hnot⟩
    refine absurd (fun n hother halive => ?_) hnot
    rw [hrefused g n hptr hother] at halive
    cases halive
  · have hmem := hw.mem_of_entry hentry
    have hlength := length_expected_erase (w.group g).dissociated hmem
    have hvalid := hrecorded g hmem
    have hunwatch := (length_unwatch w g).2
    rcases hleft with ⟨-, hcall⟩ | ⟨hnoNode, hcall⟩
    · have hlisted : after.guardConditions = w.guardConditions :=
        congrArg (fun call => call.1.guardConditions) hcall
      have hexpected : w.expected.length =
          (if w.addedWhileValid g then 1 else 0) + after.expected.length :=
        hlength.trans (congrArg (fun call =>
          (if w.addedWhileValid g then 1 else 0) + call.1.expected.length) hcall).symm
      rw [hlisted, hexpected]
      refine ⟨by omega, fun hnot => ?_⟩
      obtain ⟨other, hother, hnot⟩ := hnot
      rw [hptr] at hother
      cases hother
      have hsome : w.weakGroupsToGuardConditions g ≠ none := by
        intro hnone
        exact hnot fun m _ _ hsome => absurd hnone hsome
      rw [if_pos (hvalid hsome)]
      omega
    · have hlisted : after.guardConditions = (w.unwatch g).guardConditions :=
        congrArg (fun call => call.1.guardConditions) hcall
      have hexpected : w.expected.length =
          (if w.addedWhileValid g then 1 else 0) + after.expected.length :=
        hlength.trans (congrArg (fun call =>
          (if w.addedWhileValid g then 1 else 0) + call.1.expected.length) hcall).symm
      rw [hlisted, hexpected]
      have hlast := lastOfNode_of_drop hw hentry halive hnoNode
      refine ⟨?_, fun hnot => ?_⟩
      · by_cases hnone : w.weakGroupsToGuardConditions g = none
        · rw [if_pos hnone] at hunwatch
          omega
        · rw [if_neg hnone] at hunwatch
          rw [if_pos (hvalid hnone)]
          omega
      · obtain ⟨other, hother, hnot⟩ := hnot
        rw [hptr] at hother
        cases hother
        refine absurd (fun m hother _ _ => ?_) hnot
        rw [hentry] at hother
        cases hother
        exact hlast

end Balance

end RosRtems.Bookkeeping
