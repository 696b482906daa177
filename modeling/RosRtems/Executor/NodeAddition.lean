import RosRtems.Executor.GroupMaps

/-!
# Whether a node is added as a whole

`add_node` sets the flag of the node before it goes through the groups of the node,
and nothing is undone when a call for one of the groups throws.  It is all-or-nothing
exactly if it refuses the node or none of these calls throws.
-/

namespace RosRtems.Bookkeeping

open Function
open RosRtems.ThrowingLoop

section Statement

/-- Two states with the same books, and the same flags of nodes and groups. -/
structure SameBooks (before after : World) : Prop where
  weakGroupsAdded : after.weakGroupsAdded = before.weakGroupsAdded
  weakGroupsToNodes : after.weakGroupsToNodes = before.weakGroupsToNodes
  weakGroupsToGuardConditions :
    after.weakGroupsToGuardConditions = before.weakGroupsToGuardConditions
  weakNodes : after.weakNodes = before.weakNodes
  guardConditions : after.guardConditions = before.guardConditions
  nodeFlags : ∀ n, (after.node n).associatedWithExecutor = (before.node n).associatedWithExecutor
  groupFlags : ∀ g,
    (after.group g).associatedWithExecutor = (before.group g).associatedWithExecutor

/-- A live group without an executor that is added along with its node. -/
structure Free (w : World) (g : ℕ) : Prop where
  alive : (w.group g).alive = true
  free : (w.group g).associatedWithExecutor = false
  automatic : (w.group g).automaticallyAddToExecutorWithNode = true

/-- A group that is completely added with its node. -/
structure Joined (w : World) (g n : ℕ) : Prop where
  flag : (w.group g).associatedWithExecutor = true
  entry : (w.weakGroupsAdded .automatically).lookup g = some n
  entryAll : w.weakGroupsToNodes.lookup g = some n
  waited : w.contextIsValid (w.node n).context = true →
    ∃ guardCondition, (w.group g).notifyGuardCondition = some guardCondition ∧
      w.weakGroupsToGuardConditions g = some guardCondition.address ∧
      guardCondition.address ∈ w.guardConditions

/-- A node that is completely added, with each of its free groups. -/
structure NodeAdded (before after : World) (n : ℕ) : Prop where
  flag : (after.node n).associatedWithExecutor = true
  listed : n ∈ after.weakNodes
  groups : ∀ g ∈ (before.node n).callbackGroups, Free before g → Joined after g n

/-- A call that throws changes nothing, and a call that returns has done everything. -/
def AllOrNothing (before : World) (call : World × Option String) (complete : World → Prop) :
    Prop :=
  (call.2 ≠ none → SameBooks before call.1) ∧ (call.2 = none → complete call.1)

end Statement

section Conditions

/-- The trigger of the executor's guard condition, where it is asked for, does not fail. -/
def Outside.Interrupts (outside : Outside) (notify : Bool) : Prop :=
  notify = true → outside.interruptTriggered = none

/-- No call fails that adds the group: its guard condition is obtained if the context of
the node is valid, and the executor is interrupted. -/
def GroupAdds (w : World) (outside : Outside) (n : ℕ) (notify : Bool) (g : ℕ) : Prop :=
  Free w g → outside.Interrupts notify ∧
    (w.contextIsValid (w.node n).context = true → ∃ address,
      ((w.group g).associated.getNotifyGuardCondition outside (w.node n).context).2 =
        .ok address)

/-- Where `add_node` is all-or-nothing: the node is refused, or no group fails. -/
def NodeAdds (w : World) (outside : ℕ → Outside) (n : ℕ) (notify : Bool) : Prop :=
  (w.node n).associatedWithExecutor = true ∨
    ∀ g ∈ (w.node n).callbackGroups, GroupAdds w (outside g) n notify g

theorem interrupt_eq_none_iff (outside : Outside) (notify : Bool) (operation : String) :
    outside.interrupt notify operation = none ↔ outside.Interrupts notify := by
  rw [Outside.interrupt, Outside.Interrupts]
  cases notify with
  | false => simp
  | true =>
      rcases outside.interruptTriggered with _ | failure
      · simp
      · cases failure <;> simp

end Conditions

section Adding

variable {w : World} {g h n : ℕ} {outside : ℕ → Outside} {notify : Bool}

/-- The addition of a group leaves the other groups alone. -/
structure OthersKept (w after : World) (g : ℕ) : Prop where
  group : ∀ h ≠ g, after.group h = w.group h
  entry : ∀ added, ∀ h ≠ g,
    (after.weakGroupsAdded added).lookup h = (w.weakGroupsAdded added).lookup h
  entryAll : ∀ h ≠ g, after.weakGroupsToNodes.lookup h = w.weakGroupsToNodes.lookup h
  recorded : ∀ h ≠ g, after.weakGroupsToGuardConditions h = w.weakGroupsToGuardConditions h
  listed : ∀ address ∈ w.guardConditions, address ∈ after.guardConditions

theorem othersKept_enter {held : CallbackGroup} (added : Added) (n : ℕ)
    (habsent : g ∉ w.weakGroupsToNodes) :
    OthersKept w ((w.setGroup g held).enter added g n) g where
  group h hother := update_of_ne hother _ _
  entry kind h hother := by
    rw [lookup_enter, if_neg fun hboth => hother hboth.2]
    rfl
  entryAll h hother := by
    rw [lookup_enter_all (w.setGroup g held) added g h n habsent, if_neg hother]
    rfl
  recorded h _ := rfl
  listed address hmem := hmem

theorem OthersKept.watch {after : World} (hafter : OthersKept w after g) (address : ℕ) :
    OthersKept w (after.watch g address) g where
  group := hafter.group
  entry := hafter.entry
  entryAll := hafter.entryAll
  recorded h hother := (update_of_ne hother _ _).trans (hafter.recorded h hother)
  listed other hmem := mem_addGuardCondition address (hafter.listed other hmem)

theorem addFreeGroup_of_not_free (hnot : ¬ Free w g) :
    addFreeGroup outside n notify w g = (w, none) := by
  rw [addFreeGroup, if_neg]
  intro hfree
  simp only [Bool.and_eq_true, Bool.not_eq_true'] at hfree
  exact hnot ⟨hfree.1.1, hfree.1.2, hfree.2⟩

theorem addFreeGroup_of_free (hfree : Free w g) :
    addFreeGroup outside n notify w g =
      addCallbackGroupToMap w (outside g) .automatically g n notify := by
  rw [addFreeGroup, if_pos]
  simp [hfree.alive, hfree.free, hfree.automatic]

theorem addFreeGroup_others (outside : ℕ → Outside) (n : ℕ) (notify : Bool) (g : ℕ)
    (hw : Maps w) :
    OthersKept w (addFreeGroup outside n notify w g).1 g := by
  by_cases hfree : Free w g
  · have habsent := hw.absent hfree.alive hfree.free
    rw [addFreeGroup_of_free hfree]
    rcases addCallbackGroupToMap_cases (outside g) .automatically n notify hfree.free
      (hw.absent_added habsent) with
      ⟨-, hcall⟩ | ⟨-, guardCondition, what, -, hcall⟩ | ⟨-, address, -, hcall⟩
    · rw [hcall]
      exact othersKept_enter .automatically n habsent
    · rw [hcall]
      exact othersKept_enter .automatically n habsent
    · rw [hcall]
      exact (othersKept_enter .automatically n habsent).watch address
  · rw [addFreeGroup_of_not_free hfree]
    exact ⟨fun _ _ => rfl, fun _ _ _ => rfl, fun _ _ => rfl, fun _ _ => rfl, fun _ hmem => hmem⟩

/-- The call for a group returns exactly if none of its own calls fails. -/
theorem addFreeGroup_returns_iff (hw : Maps w) :
    (addFreeGroup outside n notify w g).2 = none ↔ GroupAdds w (outside g) n notify g := by
  by_cases hfree : Free w g
  · have habsent := hw.absent hfree.alive hfree.free
    rw [addFreeGroup_of_free hfree, GroupAdds]
    simp only [hfree, true_imp_iff]
    rcases addCallbackGroupToMap_cases (outside g) .automatically n notify hfree.free
      (hw.absent_added habsent) with
      ⟨hinvalid, hcall⟩ | ⟨hvalid, guardCondition, what, hget, hcall⟩ |
        ⟨hvalid, address, hget, hcall⟩
    · rw [hcall, interrupt_eq_none_iff, hinvalid]
      simp
    · rw [hcall, hget]
      simp [hvalid]
    · rw [hcall, interrupt_eq_none_iff, hget]
      simp
  · rw [addFreeGroup_of_not_free hfree]
    simp [GroupAdds, hfree]

/-- A free group for which the call returns is completely added. -/
theorem addFreeGroup_joined (hw : Maps w) (hfree : Free w g)
    (hreturned : (addFreeGroup outside n notify w g).2 = none) :
    Joined (addFreeGroup outside n notify w g).1 g n := by
  have habsent := hw.absent hfree.alive hfree.free
  rw [addFreeGroup_of_free hfree] at hreturned ⊢
  rcases addCallbackGroupToMap_cases (outside g) .automatically n notify hfree.free
    (hw.absent_added habsent) with
    ⟨hinvalid, hcall⟩ | ⟨-, guardCondition, what, -, hcall⟩ | ⟨-, address, -, hcall⟩
  · rw [hcall]
    refine ⟨?_, ?_, ?_, fun hvalid => ?_⟩
    · simp [World.enter, World.setGroup, CallbackGroup.associated]
    · rw [lookup_enter, if_pos ⟨rfl, rfl⟩]
    · rw [lookup_enter_all (w.setGroup g _) .automatically g g n habsent, if_pos rfl]
    · exact absurd (hinvalid.symm.trans hvalid) Bool.false_ne_true
  · rw [hcall] at hreturned
    cases hreturned
  · rw [hcall]
    refine ⟨?_, ?_, ?_, fun _ => ⟨⟨address, (w.node n).context⟩, ?_, ?_, ?_⟩⟩
    · simp [World.watch, World.enter, World.setGroup, CallbackGroup.associated,
        CallbackGroup.holding]
    · exact (lookup_enter (w.setGroup g _) .automatically .automatically g g n).trans
        (if_pos ⟨rfl, rfl⟩)
    · exact (lookup_enter_all (w.setGroup g _) .automatically g g n habsent).trans (if_pos rfl)
    · simp [World.watch, World.enter, World.setGroup, CallbackGroup.holding]
    · exact update_self _ _ _
    · exact mem_addGuardCondition_self _ _

/-- A group that was added stays so through the additions of others. -/
theorem Joined.others {after : World} (hjoined : Joined w h n) (hother : h ≠ g)
    (hothers : OthersKept w after g) (hnodes : SameNodes w after) : Joined after h n where
  flag := by
    rw [hothers.group h hother]
    exact hjoined.flag
  entry := (hothers.entry .automatically h hother).trans hjoined.entry
  entryAll := (hothers.entryAll h hother).trans hjoined.entryAll
  waited hvalid := by
    rw [hnodes.contextIsValid, hnodes.node] at hvalid
    obtain ⟨guardCondition, hheld, hrecorded, hlisted⟩ := hjoined.waited hvalid
    refine ⟨guardCondition, ?_, (hothers.recorded h hother).trans hrecorded,
      hothers.listed _ hlisted⟩
    rw [hothers.group h hother]
    exact hheld

theorem Joined.not_free (hjoined : Joined w g n) : ¬ Free w g := by
  intro hfree
  exact Bool.false_ne_true (hfree.free.symm.trans hjoined.flag)

theorem OthersKept.free_iff {after : World} (hothers : OthersKept w after g) (hother : h ≠ g) :
    Free after h ↔ Free w h := by
  constructor
  · rintro ⟨halive, hfree, hautomatic⟩
    rw [hothers.group h hother] at halive hfree hautomatic
    exact ⟨halive, hfree, hautomatic⟩
  · rintro ⟨halive, hfree, hautomatic⟩
    exact ⟨by rwa [hothers.group h hother], by rwa [hothers.group h hother],
      by rwa [hothers.group h hother]⟩

/-- The verdict on a group does not depend on the calls for the groups before it. -/
theorem groupAdds_addFreeGroup_iff (hw : Maps w)
    (hreturned : (addFreeGroup outside n notify w g).2 = none) (h : ℕ) :
    GroupAdds (addFreeGroup outside n notify w g).1 (outside h) n notify h ↔
      GroupAdds w (outside h) n notify h := by
  have hothers := addFreeGroup_others outside n notify g hw
  have hnodes := addFreeGroup_nodes w g n notify outside
  by_cases hother : h = g
  · subst hother
    have hbefore := (addFreeGroup_returns_iff hw).mp hreturned
    by_cases hfree : Free w h
    · have hjoined := addFreeGroup_joined hw hfree hreturned
      exact iff_of_true (fun hagain => absurd hagain hjoined.not_free) hbefore
    · rw [addFreeGroup_of_not_free hfree]
  · rw [GroupAdds, GroupAdds, hothers.free_iff hother, hnodes.contextIsValid, hnodes.node,
      hothers.group h hother]

/-- What a loop that returns has made of the groups that were free before it. -/
structure Adding (before state : World) (n : ℕ) : Prop where
  maps : Maps state
  nodes : SameNodes before state
  groups : ∀ g, Free before g → Free state g ∨ Joined state g n

theorem Adding.next {before : World} (hstate : Adding before w n)
    (hreturned : (addFreeGroup outside n notify w g).2 = none) :
    Adding before (addFreeGroup outside n notify w g).1 n where
  maps := addFreeGroup_maps hstate.maps
  nodes := hstate.nodes.trans (addFreeGroup_nodes w g n notify outside)
  groups h hfree := by
    have hothers := addFreeGroup_others outside n notify g hstate.maps
    by_cases hother : h = g
    · subst hother
      rcases hstate.groups h hfree with hstill | hjoined
      · exact .inr (addFreeGroup_joined hstate.maps hstill hreturned)
      · rw [addFreeGroup_of_not_free hjoined.not_free]
        exact .inr hjoined
    · rcases hstate.groups h hfree with hstill | hjoined
      · exact .inl ((hothers.free_iff hother).mpr hstill)
      · exact .inr (hjoined.others hother hothers (addFreeGroup_nodes w g n notify outside))

/-- After the call for a group that returns, the group is free no more. -/
theorem addFreeGroup_not_free (hw : Maps w)
    (hreturned : (addFreeGroup outside n notify w g).2 = none) :
    ¬ Free (addFreeGroup outside n notify w g).1 g := by
  by_cases hfree : Free w g
  · exact (addFreeGroup_joined hw hfree hreturned).not_free
  · rw [addFreeGroup_of_not_free hfree]
    exact hfree

theorem addFreeGroup_stays_not_free (hw : Maps w) (hnot : ¬ Free w h) :
    ¬ Free (addFreeGroup outside n notify w g).1 h := by
  by_cases hother : h = g
  · subst hother
    rw [addFreeGroup_of_not_free hnot]
    exact hnot
  · rw [(addFreeGroup_others outside n notify g hw).free_iff hother]
    exact hnot

/-- The groups of a node, in a loop that returns. -/
theorem addFreeGroups_joined {groups : List ℕ} (hw : Maps w)
    (hreturned : (forEach (addFreeGroup outside n notify) groups w).2 = none) :
    Adding w (forEach (addFreeGroup outside n notify) groups w).1 n ∧
      ∀ g ∈ groups, Free w g →
        Joined (forEach (addFreeGroup outside n notify) groups w).1 g n := by
  have hadding := forEach_returned_keeps (fun state => Adding w state n)
    (fun _ _ _ hstate hcall => hstate.next hcall)
    ⟨hw, .refl w, fun _ hfree => .inl hfree⟩ hreturned
  have hdone := forEach_done Maps (fun state g => ¬ Free state g)
    (fun _ _ _ hstate => addFreeGroup_maps hstate)
    (fun _ _ _ hstate hcall => addFreeGroup_not_free hstate hcall)
    (fun _ _ _ hstate _ hnot => addFreeGroup_stays_not_free hstate hnot) hw hreturned
  exact ⟨hadding, fun g hg hfree => (hadding.groups g hfree).resolve_left (hdone g hg)⟩

theorem addFreeGroups_nodes (outside : ℕ → Outside) (n : ℕ) (notify : Bool)
    (groups : List ℕ) (w : World) :
    SameNodes w (forEach (addFreeGroup outside n notify) groups w).1 :=
  forEach_keeps (SameNodes w)
    (fun state g _ hstate => hstate.trans (addFreeGroup_nodes state g n notify outside))
    (.refl w)

theorem addFreeGroups_returns_iff {groups : List ℕ} (hw : Maps w) :
    (forEach (addFreeGroup outside n notify) groups w).2 = none ↔
      ∀ g ∈ groups, GroupAdds w (outside g) n notify g :=
  forEach_returns_iff Maps (fun _ _ _ hstate => addFreeGroup_maps hstate)
    (fun _ _ _ hstate => addFreeGroup_returns_iff hstate)
    (fun _ _ _ hstate hcall => groupAdds_addFreeGroup_iff hstate hcall) hw

end Adding

section AddNode

variable {w : World} {n : ℕ} {outside : ℕ → Outside} {notify : Bool}

theorem SameBooks.refl (w : World) : SameBooks w w :=
  ⟨rfl, rfl, rfl, rfl, rfl, fun _ => rfl, fun _ => rfl⟩

/-- The flag of the node that `add_node` sets does not matter to its groups. -/
theorem groupAdds_setNodeAssociated (g : ℕ) :
    GroupAdds (w.setNodeAssociated n true) (outside g) n notify g ↔
      GroupAdds w (outside g) n notify g := by
  have hcontext : ((w.setNodeAssociated n true).node n).context = (w.node n).context := by
    simp [World.setNodeAssociated]
  rw [GroupAdds, GroupAdds, hcontext]
  constructor
  · intro hadds hfree
    exact hadds ⟨hfree.alive, hfree.free, hfree.automatic⟩
  · intro hadds hfree
    exact hadds ⟨hfree.alive, hfree.free, hfree.automatic⟩

theorem addNode_allOrNothing_iff (hw : Maps w) :
    AllOrNothing w (addNode w outside n notify) (fun after => NodeAdded w after n) ↔
      NodeAdds w outside n notify := by
  cases hflag : (w.node n).associatedWithExecutor with
  | true =>
      rw [addNode, if_pos hflag]
      exact iff_of_true ⟨fun _ => .refl w, fun hreturned => by cases hreturned⟩ (.inl hflag)
  | false =>
      have hmaps : Maps (w.setNodeAssociated n true) := hw.setNodeAssociated true
      have hreturns : (forEach (addFreeGroup outside n notify) (w.node n).callbackGroups
          (w.setNodeAssociated n true)).2 = none ↔ NodeAdds w outside n notify := by
        rw [addFreeGroups_returns_iff hmaps, NodeAdds, hflag]
        simp [groupAdds_setNodeAssociated]
      rw [← hreturns]
      have hnodes := addFreeGroups_nodes outside n notify (w.node n).callbackGroups
        (w.setNodeAssociated n true)
      have hset : ((w.setNodeAssociated n true).node n).associatedWithExecutor = true := by
        simp [World.setNodeAssociated]
      rcases addNode_cases w n notify outside hflag with
        ⟨hreturned, hcall⟩ | ⟨what, hthrown, hcall⟩
      · refine iff_of_true ?_ hreturned
        rw [hcall]
        refine ⟨fun hthrown => absurd rfl hthrown, fun _ => ?_⟩
        obtain ⟨-, hjoined⟩ := addFreeGroups_joined hmaps hreturned
        refine ⟨?_, List.mem_append_right _ (List.mem_singleton.mpr rfl),
          fun g hg hfree => ?_⟩
        · exact (congrArg (fun nodes => (nodes n).associatedWithExecutor) hnodes.node).trans hset
        · obtain ⟨hgroupFlag, hentry, hentryAll, hwaited⟩ :=
            hjoined g hg ⟨hfree.alive, hfree.free, hfree.automatic⟩
          exact ⟨hgroupFlag, hentry, hentryAll, hwaited⟩
      · -- a call of the loop threw, and the flag of the node stays set
        rw [hthrown]
        refine iff_of_false ?_ (Option.some_ne_none what)
        rw [hcall]
        intro hall
        have hsame := (hall.1 (Option.some_ne_none what)).nodeFlags n
        rw [hnodes.node, hset, hflag] at hsame
        cases hsame

end AddNode

end RosRtems.Bookkeeping
