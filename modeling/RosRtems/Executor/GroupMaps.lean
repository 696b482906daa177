import RosRtems.Core.Runs
import RosRtems.Executor.Bookkeeping

/-!
# The group maps of an executor

Whatever is added, removed, expired or cleaned up, and whichever call throws, the map
of all groups stays the disjoint union of the two maps of added groups, its live
groups carry their flag, and the memory strategy lists no guard condition twice.
-/

namespace RosRtems.Bookkeeping

open Function
open RosRtems.Runs
open RosRtems.ThrowingLoop

section Invariant

variable {w : World} {outside : Outside} {added : Added} {g n : ℕ} {notify : Bool}

/-- What every operation keeps: the map of all groups is the disjoint union of the two
others, its live groups carry the flag, and no guard condition is listed twice. -/
structure Maps (w : World) : Prop where
  union : ∀ g n, w.weakGroupsToNodes.lookup g = some n ↔
    ∃ added, (w.weakGroupsAdded added).lookup g = some n
  disjoint : ∀ g, (w.weakGroupsAdded .manually).lookup g = none ∨
    (w.weakGroupsAdded .automatically).lookup g = none
  flagged : ∀ g, g ∈ w.weakGroupsToNodes → (w.group g).alive = true →
    (w.group g).associatedWithExecutor = true
  listedOnce : w.guardConditions.Nodup

/-- A live group without the flag is in none of the maps. -/
theorem Maps.absent (hw : Maps w) (halive : (w.group g).alive = true)
    (hfree : (w.group g).associatedWithExecutor = false) : g ∉ w.weakGroupsToNodes := by
  intro hmem
  have hflag := hw.flagged g hmem halive
  rw [hfree] at hflag
  cases hflag

theorem Maps.absent_added (hw : Maps w) (habsent : g ∉ w.weakGroupsToNodes) :
    g ∉ w.weakGroupsAdded added := by
  rw [mem_iff_lookup] at habsent ⊢
  rintro ⟨n, hentry⟩
  exact habsent ⟨n, (hw.union g n).mpr ⟨added, hentry⟩⟩

theorem Maps.mem_of_entry (hw : Maps w) (hentry : (w.weakGroupsAdded added).lookup g = some n) :
    g ∈ w.weakGroupsToNodes :=
  mem_iff_lookup.mpr ⟨n, (hw.union g n).mpr ⟨added, hentry⟩⟩

/-- A group is in the map of one kind only. -/
theorem Maps.entry_unique (hw : Maps w) {kind : Added} {m : ℕ}
    (hentry : (w.weakGroupsAdded added).lookup g = some n)
    (hother : (w.weakGroupsAdded kind).lookup g = some m) : kind = added := by
  have hdisjoint := hw.disjoint g
  cases kind <;> cases added <;> simp_all

theorem Maps.enter (hw : Maps w) {held : CallbackGroup} (habsent : g ∉ w.weakGroupsToNodes)
    (hflag : held.associatedWithExecutor = true) :
    Maps ((w.setGroup g held).enter added g n) where
  union h m := by
    rw [lookup_enter_all (w.setGroup g held) added g h n habsent]
    simp only [lookup_enter]
    by_cases hsame : h = g
    · subst hsame
      have hnone : ∀ kind, (w.weakGroupsAdded kind).lookup h = none :=
        fun kind => AList.lookup_eq_none.mpr (hw.absent_added habsent)
      simp [World.setGroup, hnone]
    · simp [hsame, World.setGroup, hw.union h m]
  disjoint h := by
    simp only [lookup_enter]
    by_cases hsame : h = g
    · subst hsame
      have hnone : ∀ kind, (w.weakGroupsAdded kind).lookup h = none :=
        fun kind => AList.lookup_eq_none.mpr (hw.absent_added habsent)
      cases added <;> simp [World.setGroup, hnone]
    · simpa [hsame, World.setGroup] using hw.disjoint h
  flagged h hmem halive := by
    by_cases hsame : h = g
    · subst hsame
      simpa [World.enter, World.setGroup] using hflag
    · have hmem' : h ∈ w.weakGroupsToNodes := by
        rw [mem_iff_lookup] at hmem ⊢
        rw [lookup_enter_all (w.setGroup g held) added g h n habsent, if_neg hsame] at hmem
        exact hmem
      simp only [World.enter, World.setGroup, update_of_ne hsame] at halive ⊢
      exact hw.flagged h hmem' halive
  listedOnce := hw.listedOnce

theorem Maps.drop (hw : Maps w) (hentry : (w.weakGroupsAdded added).lookup g = some n) :
    Maps (w.drop added g) where
  union h m := by
    change (w.leave added g).weakGroupsToNodes.lookup h = some m ↔
      ∃ kind, ((w.leave added g).weakGroupsAdded kind).lookup h = some m
    simp only [lookup_leave, lookup_leave_all]
    by_cases hsame : h = g
    · subst hsame
      simp only [if_true, and_true, reduceCtorEq, false_iff, not_exists]
      intro kind
      split
      · simp
      · rename_i hkind
        exact fun hother => hkind (hw.entry_unique hentry hother)
    · simp [hsame, hw.union h m]
  disjoint h := by
    change ((w.leave added g).weakGroupsAdded .manually).lookup h = none ∨
      ((w.leave added g).weakGroupsAdded .automatically).lookup h = none
    simp only [lookup_leave]
    rcases hw.disjoint h with hnone | hnone
    · left
      split <;> simp [hnone]
    · right
      split <;> simp [hnone]
  flagged h hmem halive := by
    obtain ⟨hsame, hmem'⟩ := (mem_leave_all w added g h).mp hmem
    simp only [World.drop, World.setGroup, World.leave, update_of_ne hsame] at halive ⊢
    exact hw.flagged h hmem' halive
  listedOnce := hw.listedOnce

/-- The executor has no other group of the node. -/
def LastOfNode (w : World) (g n : ℕ) : Prop :=
  ∀ added h, (w.weakGroupsAdded added).lookup h = some n → h = g

/-- The test with which a removal decides about the guard condition. -/
theorem hasNode_drop_iff (hw : Maps w) (hentry : (w.weakGroupsAdded added).lookup g = some n)
    (halive : (w.node n).alive = true) :
    ((w.drop added g).hasNode .automatically n = true ∨
      (w.drop added g).hasNode .manually n = true) ↔
      ¬ LastOfNode w g n := by
  have hnode : ∀ kind,
      (w.drop added g).hasNode kind n = true ↔
        ∃ h, h ≠ g ∧ (w.weakGroupsAdded kind).lookup h = some n := by
    intro kind
    rw [hasNode_iff]
    change (w.node n).alive = true ∧
      (∃ h, ((w.leave added g).weakGroupsAdded kind).lookup h = some n) ↔ _
    simp only [halive, true_and, lookup_leave]
    refine exists_congr fun h => ?_
    by_cases hsame : h = g
    · subst hsame
      simp only [and_true, ne_eq, not_true_eq_false, false_and, iff_false]
      split
      · simp
      · rename_i hkind
        exact fun hother => hkind (hw.entry_unique hentry hother)
    · simp [hsame]
  simp only [hnode, LastOfNode, not_forall]
  constructor
  · rintro (⟨h, hne, hother⟩ | ⟨h, hne, hother⟩)
    · exact ⟨_, h, hother, hne⟩
    · exact ⟨_, h, hother, hne⟩
  · rintro ⟨kind, h, hother, hne⟩
    cases kind with
    | manually => exact .inr ⟨h, hne, hother⟩
    | automatically => exact .inl ⟨h, hne, hother⟩

/-- A removal that finds no other group of the node was that of the last one. -/
theorem lastOfNode_of_drop (hw : Maps w) (hentry : (w.weakGroupsAdded added).lookup g = some n)
    (halive : (w.node n).alive = true)
    (hnone : (w.drop added g).hasNode .automatically n = false ∧
      (w.drop added g).hasNode .manually n = false) : LastOfNode w g n := by
  by_contra hothers
  rcases (hasNode_drop_iff hw hentry halive).mpr hothers with htrue | htrue
  · exact Bool.false_ne_true (hnone.1.symm.trans htrue)
  · exact Bool.false_ne_true (hnone.2.symm.trans htrue)

theorem addGuardCondition_nodup {guardConditions : List ℕ} (address : ℕ)
    (hnodup : guardConditions.Nodup) : (addGuardCondition guardConditions address).Nodup := by
  rw [addGuardCondition]
  split
  · exact hnodup
  · rename_i hnew
    rw [← List.concat_eq_append]
    exact hnodup.concat hnew

theorem Maps.watch (hw : Maps w) (address : ℕ) : Maps (w.watch g address) where
  union := hw.union
  disjoint := hw.disjoint
  flagged := hw.flagged
  listedOnce := addGuardCondition_nodup address hw.listedOnce

theorem Maps.unwatch (hw : Maps w) : Maps (w.unwatch g) where
  union := hw.union
  disjoint := hw.disjoint
  flagged := hw.flagged
  listedOnce := by
    simp only [World.unwatch]
    split
    · exact hw.listedOnce
    · exact hw.listedOnce.erase _

end Invariant

section Kept

variable {w : World} {outside : Outside} {added : Added} {g n : ℕ} {notify : Bool}

theorem addCallbackGroupToMap_maps (hw : Maps w) (halive : (w.group g).alive = true) :
    Maps (addCallbackGroupToMap w outside added g n notify).1 := by
  cases hflag : (w.group g).associatedWithExecutor with
  | true =>
      rw [addCallbackGroupToMap_of_associated hflag]
      exact hw
  | false =>
      have habsent := hw.absent halive hflag
      rcases addCallbackGroupToMap_cases outside added n notify hflag
        (hw.absent_added habsent) with
        ⟨-, hcall⟩ | ⟨-, guardCondition, what, -, hcall⟩ | ⟨-, address, -, hcall⟩
      · rw [hcall]
        exact hw.enter habsent rfl
      · rw [hcall]
        exact hw.enter habsent rfl
      · rw [hcall]
        exact (hw.enter habsent rfl).watch address

theorem removeCallbackGroupFromMap_maps (hw : Maps w) (groupPtr : Option ℕ) :
    Maps (removeCallbackGroupFromMap w outside added groupPtr notify).1 := by
  rcases removeCallbackGroupFromMap_cases outside added notify w groupPtr with
    ⟨-, what, hcall⟩ | ⟨g, n, -, hentry, -, ⟨-, hcall⟩ | ⟨-, hcall⟩⟩
  · rw [hcall]
    exact hw
  · rw [hcall]
    exact hw.drop hentry
  · rw [hcall]
    exact (hw.drop hentry).unwatch

theorem addFreeGroup_maps {outside : ℕ → Outside} (hw : Maps w) :
    Maps (addFreeGroup outside n notify w g).1 := by
  rw [addFreeGroup]
  split
  · rename_i hfree
    simp only [Bool.and_eq_true] at hfree
    exact addCallbackGroupToMap_maps hw hfree.1.1
  · exact hw

theorem removeGroupOfNode_maps {outside : ℕ → Outside} (hw : Maps w) :
    Maps (removeGroupOfNode outside n notify w g).1 := by
  rw [removeGroupOfNode]
  split
  · exact removeCallbackGroupFromMap_maps hw _
  · exact hw

theorem Maps.setNodeAssociated (hw : Maps w) (associated : Bool) :
    Maps (w.setNodeAssociated n associated) :=
  ⟨hw.union, hw.disjoint, hw.flagged, hw.listedOnce⟩

theorem Maps.setWeakNodes (hw : Maps w) (weakNodes : List ℕ) :
    Maps { w with weakNodes := weakNodes } :=
  ⟨hw.union, hw.disjoint, hw.flagged, hw.listedOnce⟩

theorem addNode_maps {outside : ℕ → Outside} (hw : Maps w) :
    Maps (addNode w outside n notify).1 := by
  cases hflag : (w.node n).associatedWithExecutor with
  | true =>
      rw [addNode, if_pos hflag]
      exact hw
  | false =>
      have hloop : Maps (forEach (addFreeGroup outside n notify) (w.node n).callbackGroups
          (w.setNodeAssociated n true)).1 :=
        forEach_keeps Maps (fun state g _ hstate => addFreeGroup_maps hstate)
          (hw.setNodeAssociated true)
      rcases addNode_cases w n notify outside hflag with ⟨-, hcall⟩ | ⟨what, -, hcall⟩
      · rw [hcall]
        exact hloop.setWeakNodes _
      · rw [hcall]
        exact hloop

theorem removeNode_maps {outside : ℕ → Outside} (hw : Maps w) :
    Maps (removeNode w outside n notify).1 := by
  cases hflag : (w.node n).associatedWithExecutor with
  | false =>
      rw [removeNode, if_pos (by simp [hflag])]
      exact hw
  | true =>
      have hstart : Maps (w.unlistNode n) := hw.setWeakNodes _
      cases hlists : w.listsNode n with
      | false =>
          rw [removeNode, if_neg (by simp [hflag]), if_neg (by simp [hlists])]
          exact hstart
      | true =>
          have hloop : Maps (forEach (removeGroupOfNode outside n notify)
              (sortedKeys (w.weakGroupsAdded .automatically)) (w.unlistNode n)).1 :=
            forEach_keeps Maps (fun state g _ hstate => removeGroupOfNode_maps hstate) hstart
          rcases removeNode_cases w n notify outside hflag hlists with
            ⟨-, hcall⟩ | ⟨what, -, hcall⟩
          · rw [hcall]
            exact hloop.setNodeAssociated false
          · rw [hcall]
            exact hloop

theorem lookup_erase_iff (map : NodeMap) (g h m : ℕ) :
    (map.erase g).lookup h = some m ↔ h ≠ g ∧ map.lookup h = some m := by
  by_cases hsame : h = g
  · subst hsame
    simp
  · simp [hsame]

theorem removeInvalidGroup_maps (hw : Maps w) : Maps (removeInvalidGroup w g) := by
  refine Maps.unwatch ⟨fun h m => ?_, fun h => ?_, fun h hmem halive => ?_, hw.listedOnce⟩
  · simp only [lookup_erase_iff, hw.union h m, exists_and_left]
  · rcases hw.disjoint h with hnone | hnone
    · left
      rw [AList.lookup_eq_none] at hnone ⊢
      exact fun hmem => hnone (AList.mem_erase.mp hmem).2
    · right
      rw [AList.lookup_eq_none] at hnone ⊢
      exact fun hmem => hnone (AList.mem_erase.mp hmem).2
  · exact hw.flagged h (AList.mem_erase.mp hmem).2 halive

theorem addFreeGroupsOfNode_maps {outside : ℕ → Outside} (hw : Maps w) :
    Maps (addFreeGroupsOfNode outside w n).1 := by
  rw [addFreeGroupsOfNode]
  split
  · exact forEach_keeps Maps (fun state g _ hstate => addFreeGroup_maps hstate) hw
  · exact hw

theorem removeInvalidGroups_maps (groups : List ℕ) (hw : Maps w) :
    Maps (groups.foldl removeInvalidGroup w) := by
  induction groups generalizing w with
  | nil => exact hw
  | cons g groups ih => exact ih (removeInvalidGroup_maps hw)

theorem waitForWork_maps {outside : ℕ → Outside} {failure : Option String} (hw : Maps w) :
    Maps (waitForWork w outside failure).1 := by
  have hloop : Maps (forEach (addFreeGroupsOfNode outside) w.weakNodes w).1 :=
    forEach_keeps Maps (fun state n _ hstate => addFreeGroupsOfNode_maps hstate) hw
  rcases waitForWork_cases w outside failure with ⟨-, hcall⟩ | hcall
  · rw [hcall]
    exact removeInvalidGroups_maps _ hloop
  · rw [hcall]
    exact hloop

end Kept

section Runs

variable {w start : World} {call : Call}

theorem Constructed.maps (hstart : Constructed w) : Maps w where
  union g n := by simp [hstart.noGroup, hstart.noGroups]
  disjoint g := by simp [hstart.noGroups]
  flagged g hmem _ := by simp [hstart.noGroup] at hmem
  listedOnce := by simp [hstart.ownGuardConditions, hstart.distinct]

/-- A change of a group outside the maps is none of the executor's business. -/
theorem Maps.setGroup (hw : Maps w) {g : ℕ} (group : CallbackGroup)
    (hgroup : g ∈ w.weakGroupsToNodes → group.alive = true →
      group.associatedWithExecutor = true) : Maps (w.setGroup g group) where
  union := hw.union
  disjoint := hw.disjoint
  flagged h hmem halive := by
    by_cases hsame : h = g
    · subst hsame
      simp only [World.setGroup, update_self] at halive ⊢
      exact hgroup hmem halive
    · simp only [World.setGroup, update_of_ne hsame] at halive ⊢
      exact hw.flagged h hmem halive
  listedOnce := hw.listedOnce

theorem perform_maps (hw : Maps w) (henabled : Enabled w call.operation) :
    Maps (perform w call) := by
  rcases call with ⟨operation, outside⟩
  cases operation with
  | addNode n notify => exact addNode_maps hw
  | removeNode n notify => exact removeNode_maps hw
  | addCallbackGroup g n notify => exact addCallbackGroupToMap_maps hw henabled.1
  | removeCallbackGroup g notify => exact removeCallbackGroupFromMap_maps hw (some g)
  | waitForWork failure => exact waitForWork_maps hw
  | expireGroup g => exact hw.setGroup _ fun _ halive => absurd halive Bool.false_ne_true
  | expireNode n => exact ⟨hw.union, hw.disjoint, hw.flagged, hw.listedOnce⟩
  | createCallbackGroup n g automatically =>
      have hgroup := hw.setGroup ⟨true, automatically, false, none⟩
        fun hmem _ => absurd hmem henabled.2.1
      exact ⟨hgroup.union, hgroup.disjoint, hgroup.flagged, hgroup.listedOnce⟩
  | changeContext context valid => exact ⟨hw.union, hw.disjoint, hw.flagged, hw.listedOnce⟩
  | changeGroupElsewhere g associated notifyGuardCondition =>
      exact hw.setGroup _ fun hmem _ => absurd hmem henabled
  | changeNodeElsewhere n associated => exact hw.setNodeAssociated associated

/-- Whatever the run, the maps are in order in every state it reaches. -/
theorem reachable_maps {trace : List (Move World Call)} (hrun : Run Step start trace w)
    (hstart : Constructed start) : Maps w := by
  refine hrun.always (fun source call target hsource hstep => ?_) hstart.maps
  obtain ⟨henabled, rfl⟩ := hstep
  exact perform_maps hsource henabled

/-- A new executor, and one node with two groups of its own. -/
def nodeOfTwoGroups : World where
  weakGroupsAdded _ := ∅
  weakGroupsToNodes := ∅
  weakGroupsToGuardConditions _ := none
  weakNodes := []
  guardConditions := [1, 2]
  shutdownGuardCondition := 1
  interruptGuardCondition := 2
  group _ := ⟨true, true, false, none⟩
  node _ := ⟨true, "/node", 0, false, [10, 11]⟩
  contextIsValid _ := true
  addedWhileValid _ := false

/-- `rcl` creates the guard condition of each group at an address of its own. -/
def apart (g : ℕ) : Outside :=
  ⟨.ok (100 + g), none, none⟩

theorem nodeOfTwoGroups_constructed : Constructed nodeOfTwoGroups :=
  ⟨fun _ => rfl, rfl, fun _ => rfl, rfl, rfl, by decide⟩

/-- The moves that a sequence of calls makes. -/
def movesOf : World → List Call → List (Move World Call)
  | _, [] => []
  | w, call :: calls => ⟨w, call, perform w call⟩ :: movesOf (perform w call) calls

/-- Each call of a sequence is made where it is enabled. -/
def EnabledAlong : World → List Call → Prop
  | _, [] => True
  | w, call :: calls => Enabled w call.operation ∧ EnabledAlong (perform w call) calls

theorem run_movesOf {w : World} {calls : List Call} (henabled : EnabledAlong w calls) :
    Run Step w (movesOf w calls) (calls.foldl perform w) := by
  induction calls generalizing w with
  | nil => exact .nil w
  | cons call calls ih => exact .cons ⟨henabled.1, rfl⟩ (ih henabled.2)

end Runs

end RosRtems.Bookkeeping
