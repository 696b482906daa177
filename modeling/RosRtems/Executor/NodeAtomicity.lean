import RosRtems.Executor.NodeAddition

/-!
# Whether a node is added or removed as a whole

`remove_node` takes the node off its list before it goes through the groups of the
node, and nothing is undone when a call for one of the groups throws.  It is
all-or-nothing exactly if it refuses the node, or none of these calls throws and the
last group takes the only guard condition along.
-/

namespace RosRtems.Bookkeeping

open Function
open RosRtems.Runs
open RosRtems.ThrowingLoop

section Conditions

/-- A node that is completely removed, with each group that was added along with it. -/
structure NodeRemoved (before after : World) (n : ℕ) : Prop where
  flag : (after.node n).associatedWithExecutor = false
  unlisted : n ∉ after.weakNodes
  groups : ∀ g, (before.weakGroupsAdded .automatically).lookup g = some n →
    g ∉ after.weakGroupsAdded .automatically ∧ g ∉ after.weakGroupsToNodes ∧
      (after.group g).associatedWithExecutor = false ∧
      after.weakGroupsToGuardConditions g = none ∧
      ∀ address, before.weakGroupsToGuardConditions g = some address →
        address ∉ after.guardConditions

/-- The groups that `remove_node` comes to, in the order of the map. -/
def groupsOfNode (w : World) (n : ℕ) (keys : List ℕ) : List ℕ :=
  keys.filter fun g => (w.weakGroupsAdded .automatically).lookup g = some n

/-- Where `remove_node` is all-or-nothing: the node is refused, or all its groups are alive,
none but the last has a guard condition, and the last one takes it along. -/
def NodeRemoves (w : World) (outside : ℕ → Outside) (n : ℕ) (notify : Bool) : Prop :=
  let groups := groupsOfNode w n (sortedKeys (w.weakGroupsAdded .automatically))
  (w.node n).associatedWithExecutor = false ∨ w.listsNode n = false ∨
    (∀ g ∈ groups, (w.group g).alive = true) ∧
    (∀ g ∈ groups.dropLast, w.weakGroupsToGuardConditions g = none) ∧
    ∀ g ∈ groups.getLast?,
      if w.hasNode .manually n then w.weakGroupsToGuardConditions g = none
      else (outside g).Interrupts notify

end Conditions

section Removing

variable {w : World} {g n : ℕ} {outside : ℕ → Outside} {notify : Bool} {keys : List ℕ}

theorem removeGroupOfNode_of_other (outside : ℕ → Outside) (notify : Bool)
    (hother : (w.weakGroupsAdded .automatically).lookup g ≠ some n) :
    removeGroupOfNode outside n notify w g = (w, none) := by
  rw [removeGroupOfNode, if_neg]
  intro hnode
  exact hother ((lockNode_eq_some_iff w n _).mp hnode).1

theorem removeGroupOfNode_of_entry (hnode : (w.node n).alive = true)
    (hentry : (w.weakGroupsAdded .automatically).lookup g = some n) :
    removeGroupOfNode outside n notify w g =
      removeCallbackGroupFromMap w (outside g) .automatically (w.lockGroup g) notify := by
  rw [removeGroupOfNode, if_pos]
  exact (lockNode_eq_some_iff w n _).mpr ⟨hentry, hnode⟩

/-- A group that is gone cannot be removed. -/
theorem removeGroupOfNode_of_gone (outside : ℕ → Outside) (notify : Bool)
    (hnode : (w.node n).alive = true)
    (hentry : (w.weakGroupsAdded .automatically).lookup g = some n)
    (hgone : (w.group g).alive = false) :
    (removeGroupOfNode outside n notify w g).2 ≠ none := by
  rw [removeGroupOfNode_of_entry hnode hentry, World.lockGroup, if_neg (by simp [hgone])]
  exact Option.some_ne_none _

/-- A live group leaves the maps; the last one of its node takes the guard condition along
and interrupts the executor. -/
theorem removeGroupOfNode_cases (outside : ℕ → Outside) (notify : Bool) (hw : Maps w)
    (hnode : (w.node n).alive = true)
    (hentry : (w.weakGroupsAdded .automatically).lookup g = some n)
    (halive : (w.group g).alive = true) :
    (¬ LastOfNode w g n ∧
      removeGroupOfNode outside n notify w g = (w.drop .automatically g, none)) ∨
    (LastOfNode w g n ∧ removeGroupOfNode outside n notify w g =
      ((w.drop .automatically g).unwatch g, (outside g).interrupt notify
        "Failed to trigger guard condition on callback group remove: ")) := by
  rw [removeGroupOfNode_of_entry hnode hentry, World.lockGroup, if_pos halive]
  rcases removeCallbackGroupFromMap_cases (outside g) .automatically notify w (some g) with
    ⟨hrefused, -⟩ | ⟨h, m, hptr, hother, -, ⟨hothers, hcall⟩ | ⟨hnone, hcall⟩⟩
  · have hdead := hrefused g n rfl hentry
    rw [hnode] at hdead
    cases hdead
  · cases hptr
    rw [hentry] at hother
    cases hother
    exact .inl ⟨(hasNode_drop_iff hw hentry hnode).mp hothers, hcall⟩
  · cases hptr
    rw [hentry] at hother
    cases hother
    exact .inr ⟨lastOfNode_of_drop hw hentry hnode hnone, hcall⟩

/-- The groups of the node that the loop still has to come to. -/
structure Remaining (w : World) (n : ℕ) (keys : List ℕ) : Prop where
  maps : Maps w
  node : (w.node n).alive = true
  nodup : keys.Nodup
  covered : ∀ g, (w.weakGroupsAdded .automatically).lookup g = some n → g ∈ keys

theorem mem_groupsOfNode :
    g ∈ groupsOfNode w n keys ↔
      g ∈ keys ∧ (w.weakGroupsAdded .automatically).lookup g = some n := by
  simp [groupsOfNode]

theorem groupsOfNode_cons_of_entry
    (hentry : (w.weakGroupsAdded .automatically).lookup g = some n) :
    groupsOfNode w n (g :: keys) = g :: groupsOfNode w n keys := by
  simp [groupsOfNode, hentry]

theorem groupsOfNode_cons_of_other
    (hother : (w.weakGroupsAdded .automatically).lookup g ≠ some n) :
    groupsOfNode w n (g :: keys) = groupsOfNode w n keys := by
  simp [groupsOfNode, hother]

theorem Remaining.tail_of_other (hw : Remaining w n (g :: keys))
    (hother : (w.weakGroupsAdded .automatically).lookup g ≠ some n) :
    Remaining w n keys where
  maps := hw.maps
  node := hw.node
  nodup := hw.nodup.of_cons
  covered h hentry := by
    rcases List.mem_cons.mp (hw.covered h hentry) with rfl | hmem
    · exact absurd hentry hother
    · exact hmem

theorem lookup_drop (w : World) (added : Added) (g : ℕ) (kind : Added) (h : ℕ) :
    ((w.drop added g).weakGroupsAdded kind).lookup h =
      if kind = added ∧ h = g then none else (w.weakGroupsAdded kind).lookup h :=
  lookup_leave w added kind g h

theorem Remaining.tail_of_entry (hw : Remaining w n (g :: keys))
    (hentry : (w.weakGroupsAdded .automatically).lookup g = some n) :
    Remaining (w.drop .automatically g) n keys where
  maps := hw.maps.drop hentry
  node := hw.node
  nodup := hw.nodup.of_cons
  covered h hstill := by
    rw [lookup_drop] at hstill
    split at hstill
    · cases hstill
    · rename_i hother
      rcases List.mem_cons.mp (hw.covered h hstill) with rfl | hmem
      · exact absurd ⟨rfl, rfl⟩ hother
      · exact hmem

theorem Remaining.unwatch (hw : Remaining w n keys) : Remaining (w.unwatch g) n keys :=
  ⟨hw.maps.unwatch, hw.node, hw.nodup, hw.covered⟩

/-- The removal of one group leaves the other groups of the node to come. -/
theorem groupsOfNode_drop (hnot : g ∉ keys) :
    groupsOfNode (w.drop .automatically g) n keys = groupsOfNode w n keys := by
  refine List.filter_congr fun h hmem => ?_
  have hother : h ≠ g := by
    rintro rfl
    exact hnot hmem
  rw [lookup_drop, if_neg fun hboth => hother hboth.2]

/-- The last group of the node in both maps is the last one the loop comes to, where none
was added by hand. -/
theorem Remaining.last_iff (hw : Remaining w n (g :: keys))
    (hentry : (w.weakGroupsAdded .automatically).lookup g = some n) :
    LastOfNode w g n ↔ groupsOfNode w n keys = [] ∧ w.hasNode .manually n = false := by
  have hnot : g ∉ keys := (List.nodup_cons.mp hw.nodup).1
  constructor
  · intro hlast
    constructor
    · refine List.eq_nil_iff_forall_not_mem.mpr fun h hmem => ?_
      obtain ⟨hkeys, hstill⟩ := mem_groupsOfNode.mp hmem
      exact hnot (hlast .automatically h hstill ▸ hkeys)
    · refine eq_false_of_ne_true fun hmanual => ?_
      obtain ⟨-, h, hother⟩ := (hasNode_iff w .manually n).mp hmanual
      have hsame := hlast .manually h hother
      subst hsame
      cases hw.maps.entry_unique hentry hother
  · rintro ⟨hnone, hmanual⟩ kind h hother
    cases kind with
    | manually =>
        have htrue := (hasNode_iff w .manually n).mpr ⟨hw.node, h, hother⟩
        exact absurd (hmanual.symm.trans htrue) Bool.false_ne_true
    | automatically =>
        rcases List.mem_cons.mp (hw.covered h hother) with hsame | hmem
        · exact hsame
        · have hstill := mem_groupsOfNode.mpr ⟨hmem, hother⟩
          rw [hnone] at hstill
          cases hstill

theorem hasNode_manually_drop (w : World) (g n : ℕ) :
    (w.drop .automatically g).hasNode .manually n = w.hasNode .manually n :=
  rfl

theorem alive_drop (w : World) (added : Added) (g h : ℕ) :
    ((w.drop added g).group h).alive = (w.group h).alive := by
  by_cases hsame : h = g
  · subst hsame
    simp [World.drop, World.setGroup, CallbackGroup.dissociated]
  · simp [World.drop, World.setGroup, World.leave, hsame]

variable (outside notify) in
/-- The loop of `remove_node` returns exactly if all groups of the node are alive and the
last one, if it is the last of both maps, can interrupt the executor. -/
theorem removeGroups_returns_iff (hw : Remaining w n keys) :
    (forEach (removeGroupOfNode outside n notify) keys w).2 = none ↔
      (∀ g ∈ groupsOfNode w n keys, (w.group g).alive = true) ∧
      ∀ g ∈ (groupsOfNode w n keys).getLast?, w.hasNode .manually n = false →
        (outside g).Interrupts notify := by
  induction keys generalizing w with
  | nil => simp [forEach, groupsOfNode]
  | cons g keys ih =>
      by_cases hentry : (w.weakGroupsAdded .automatically).lookup g = some n
      · have hnot : g ∉ keys := (List.nodup_cons.mp hw.nodup).1
        have hrest := hw.tail_of_entry hentry
        rw [groupsOfNode_cons_of_entry hentry]
        cases halive : (w.group g).alive with
        | false =>
            refine iff_of_false (fun hreturned => ?_) fun hboth => ?_
            · have hgone := removeGroupOfNode_of_gone outside notify hw.node hentry halive
              cases hthrown : (removeGroupOfNode outside n notify w g).2 with
              | none => exact hgone hthrown
              | some what =>
                  rw [forEach_of_thrown hthrown, hthrown] at hreturned
                  cases hreturned
            · have htrue := hboth.1 g List.mem_cons_self
              rw [halive] at htrue
              cases htrue
        | true =>
            rcases removeGroupOfNode_cases outside notify hw.maps hw.node hentry halive with
              ⟨hothers, hcall⟩ | ⟨hlast, hcall⟩
            · rw [forEach_of_returned (congrArg Prod.snd hcall), congrArg Prod.fst hcall,
                ih hrest]
              simp only [groupsOfNode_drop hnot, hasNode_manually_drop, alive_drop]
              rw [hw.last_iff hentry] at hothers
              cases hgroups : groupsOfNode w n keys with
              | nil =>
                  have hmanual : w.hasNode .manually n = true := by
                    simpa [hgroups] using hothers
                  simp [halive, hmanual]
              | cons next groups =>
                  rw [List.getLast?_cons_cons, List.forall_mem_cons]
                  simp [halive]
            · obtain ⟨hnone, hmanual⟩ := (hw.last_iff hentry).mp hlast
              have hverdict : ((∀ h ∈ [g], (w.group h).alive = true) ∧
                  ∀ h ∈ [g].getLast?, w.hasNode .manually n = false →
                    (outside h).Interrupts notify) ↔ (outside g).Interrupts notify := by
                simp [halive, hmanual]
              have hreturns : (outside g).Interrupts notify ↔
                  (removeGroupOfNode outside n notify w g).2 = none := by
                rw [hcall]
                exact (interrupt_eq_none_iff _ _ _).symm
              rw [hnone, hverdict, hreturns]
              cases hthrown : (removeGroupOfNode outside n notify w g).2 with
              | some what => rw [forEach_of_thrown hthrown, hthrown]
              | none =>
                  have hrestNone : groupsOfNode ((w.drop .automatically g).unwatch g) n keys = [] :=
                    (groupsOfNode_drop hnot).trans hnone
                  rw [forEach_of_returned hthrown, congrArg Prod.fst hcall, ih hrest.unwatch,
                    hrestNone]
                  simp
      · rw [forEach_of_returned (congrArg Prod.snd (removeGroupOfNode_of_other outside notify hentry)),
          groupsOfNode_cons_of_other hentry, removeGroupOfNode_of_other outside notify hentry]
        exact ih (hw.tail_of_other hentry)

/-- What becomes of the guard conditions: the last group takes its own along, where no
group of the node was added by hand. -/
def World.unwatchLast (w : World) (n : ℕ) (groups : List ℕ) : World :=
  match groups.getLast? with
  | none => w
  | some g => if w.hasNode .manually n then w else w.unwatch g

/-- Two states with the same records of guard conditions and the same list of them. -/
structure SameConditions (first second : World) : Prop where
  recorded : first.weakGroupsToGuardConditions = second.weakGroupsToGuardConditions
  listed : first.guardConditions = second.guardConditions

/-- A group that is not the last one leaves the guard conditions to the groups after it. -/
theorem unwatchLast_drop_of_others {groups : List ℕ}
    (hothers : ¬ (groups = [] ∧ w.hasNode .manually n = false)) :
    SameConditions ((w.drop .automatically g).unwatchLast n groups)
      (w.unwatchLast n (g :: groups)) := by
  cases groups with
  | nil =>
      have hmanual : w.hasNode .manually n = true := by
        simpa using hothers
      simp only [World.unwatchLast, List.getLast?_singleton, List.getLast?_nil, hmanual, if_true]
      exact ⟨rfl, rfl⟩
  | cons next groups =>
      simp only [World.unwatchLast, List.getLast?_cons_cons, hasNode_manually_drop]
      cases (next :: groups).getLast? with
      | none => exact ⟨rfl, rfl⟩
      | some most =>
          by_cases hmanual : w.hasNode .manually n = true
          · simp only [hmanual, if_true]
            exact ⟨rfl, rfl⟩
          · simp only [hmanual]
            exact ⟨rfl, rfl⟩

/-- The last group takes its guard condition along, and none is left. -/
theorem unwatchLast_of_last (hmanual : w.hasNode .manually n = false) :
    SameConditions (((w.drop .automatically g).unwatch g).unwatchLast n [])
      (w.unwatchLast n [g]) := by
  simp only [World.unwatchLast, List.getLast?_singleton, List.getLast?_nil, hmanual,
    Bool.false_eq_true, if_false]
  exact ⟨rfl, rfl⟩

theorem SameConditions.trans {first second third : World} (hfirst : SameConditions first second)
    (hsecond : SameConditions second third) : SameConditions first third :=
  ⟨hfirst.recorded.trans hsecond.recorded, hfirst.listed.trans hsecond.listed⟩

/-- The records and the list of guard conditions after a loop that returned. -/
theorem removeGroups_conditions (hw : Remaining w n keys)
    (hreturned : (forEach (removeGroupOfNode outside n notify) keys w).2 = none) :
    SameConditions (forEach (removeGroupOfNode outside n notify) keys w).1
      (w.unwatchLast n (groupsOfNode w n keys)) := by
  induction keys generalizing w with
  | nil => exact ⟨rfl, rfl⟩
  | cons g keys ih =>
      by_cases hentry : (w.weakGroupsAdded .automatically).lookup g = some n
      · have hnot : g ∉ keys := (List.nodup_cons.mp hw.nodup).1
        have hrest := hw.tail_of_entry hentry
        have halive : (w.group g).alive = true :=
          ((removeGroups_returns_iff outside notify hw).mp hreturned).1 g
            (by rw [groupsOfNode_cons_of_entry hentry]; exact List.mem_cons_self)
        have hbody : (removeGroupOfNode outside n notify w g).2 = none :=
          returned_of_forEach hreturned
        rw [groupsOfNode_cons_of_entry hentry]
        rw [forEach_of_returned hbody] at hreturned ⊢
        rcases removeGroupOfNode_cases outside notify hw.maps hw.node hentry halive with
          ⟨hothers, hcall⟩ | ⟨hlast, hcall⟩
        · rw [congrArg Prod.fst hcall] at hreturned ⊢
          have hafter := ih hrest hreturned
          rw [groupsOfNode_drop hnot] at hafter
          exact hafter.trans (unwatchLast_drop_of_others ((hw.last_iff hentry).not.mp hothers))
        · obtain ⟨hnone, hmanual⟩ := (hw.last_iff hentry).mp hlast
          rw [congrArg Prod.fst hcall] at hreturned ⊢
          have hafter := ih hrest.unwatch hreturned
          have hrestNone : groupsOfNode ((w.drop .automatically g).unwatch g) n keys = [] :=
            (groupsOfNode_drop hnot).trans hnone
          rw [hrestNone] at hafter
          rw [hnone]
          exact hafter.trans (unwatchLast_of_last hmanual)
      · have hbody := congrArg Prod.snd (removeGroupOfNode_of_other outside notify hentry)
        rw [forEach_of_returned hbody, removeGroupOfNode_of_other outside notify hentry]
          at hreturned ⊢
        rw [groupsOfNode_cons_of_other hentry]
        exact ih (hw.tail_of_other hentry) hreturned

/-- A group that is in none of the maps of its node any more, and has no executor. -/
structure Gone (w : World) (g : ℕ) : Prop where
  entry : g ∉ w.weakGroupsAdded .automatically
  entryAll : g ∉ w.weakGroupsToNodes
  flag : (w.group g).associatedWithExecutor = false

theorem gone_drop (w : World) (g : ℕ) : Gone (w.drop .automatically g) g where
  entry := by
    rw [← AList.lookup_eq_none, lookup_drop, if_pos ⟨rfl, rfl⟩]
  entryAll hmem := ((mem_leave_all w .automatically g g).mp hmem).1 rfl
  flag := by
    simp [World.drop, World.setGroup, CallbackGroup.dissociated]

theorem Gone.drop {h : ℕ} (hgone : Gone w h) : Gone (w.drop .automatically g) h where
  entry := by
    have hnone := AList.lookup_eq_none.mpr hgone.entry
    rw [← AList.lookup_eq_none, lookup_drop, hnone, ite_self]
  entryAll hmem := hgone.entryAll ((mem_leave_all w .automatically g h).mp hmem).2
  flag := by
    by_cases hsame : h = g
    · subst hsame
      simp [World.drop, World.setGroup, CallbackGroup.dissociated]
    · simpa [World.drop, World.setGroup, World.leave, hsame] using hgone.flag

theorem Gone.unwatch {h : ℕ} (hgone : Gone w h) : Gone (w.unwatch g) h :=
  ⟨hgone.entry, hgone.entryAll, hgone.flag⟩

/-- What the call for a group leaves: a group of another node, or one that is gone, stays
where it is, and a live group of the node is dropped. -/
theorem removeGroupOfNode_next (outside : ℕ → Outside) (notify : Bool) (hw : Maps w)
    (hnode : (w.node n).alive = true) (g : ℕ) :
    ((removeGroupOfNode outside n notify w g).1 = w ∧
      ((removeGroupOfNode outside n notify w g).2 = none →
        (w.weakGroupsAdded .automatically).lookup g ≠ some n)) ∨
    (removeGroupOfNode outside n notify w g).1 = w.drop .automatically g ∨
    (removeGroupOfNode outside n notify w g).1 = (w.drop .automatically g).unwatch g := by
  by_cases hentry : (w.weakGroupsAdded .automatically).lookup g = some n
  · cases halive : (w.group g).alive with
    | false =>
        refine .inl ⟨?_, fun hreturned =>
          absurd hreturned (removeGroupOfNode_of_gone outside notify hnode hentry halive)⟩
        rw [removeGroupOfNode_of_entry hnode hentry, World.lockGroup, if_neg (by simp [halive])]
        rfl
    | true =>
        rcases removeGroupOfNode_cases outside notify hw hnode hentry halive with
          ⟨-, hcall⟩ | ⟨-, hcall⟩
        · exact .inr (.inl (congrArg Prod.fst hcall))
        · exact .inr (.inr (congrArg Prod.fst hcall))
  · rw [removeGroupOfNode_of_other outside notify hentry]
    exact .inl ⟨rfl, fun _ => hentry⟩

/-- What a loop that returns has made of the groups that the node had before it. -/
structure Removing (before state : World) (n : ℕ) : Prop where
  maps : Maps state
  node : (state.node n).alive = true
  groups : ∀ g, (before.weakGroupsAdded .automatically).lookup g = some n →
    (state.weakGroupsAdded .automatically).lookup g = some n ∨ Gone state g

theorem Removing.next {before : World} (hstate : Removing before w n) (g : ℕ) :
    Removing before (removeGroupOfNode outside n notify w g).1 n where
  maps := removeGroupOfNode_maps hstate.maps
  node := by
    rw [(removeGroupOfNode_nodes w g n notify outside).node]
    exact hstate.node
  groups h hbefore := by
    have hdropped : (w.weakGroupsAdded .automatically).lookup h = some n ∨ Gone w h →
        ((w.drop .automatically g).weakGroupsAdded .automatically).lookup h = some n ∨
          Gone (w.drop .automatically g) h := by
      rintro (hstill | hgone)
      · by_cases hsame : h = g
        · subst hsame
          exact .inr (gone_drop w h)
        · left
          rw [lookup_drop, if_neg fun hboth => hsame hboth.2]
          exact hstill
      · exact .inr hgone.drop
    rcases removeGroupOfNode_next outside notify hstate.maps hstate.node g with
      ⟨hnext, -⟩ | hnext | hnext
    · rw [hnext]
      exact hstate.groups h hbefore
    · rw [hnext]
      exact hdropped (hstate.groups h hbefore)
    · rw [hnext]
      exact (hdropped (hstate.groups h hbefore)).imp id Gone.unwatch

/-- After the call for a group that returns, the node does not have the group any more. -/
theorem removeGroupOfNode_done (hw : Maps w) (hnode : (w.node n).alive = true)
    (hreturned : (removeGroupOfNode outside n notify w g).2 = none) :
    ((removeGroupOfNode outside n notify w g).1.weakGroupsAdded .automatically).lookup g ≠
      some n := by
  have hdropped : ((w.drop .automatically g).weakGroupsAdded .automatically).lookup g ≠
      some n := by
    rw [lookup_drop, if_pos ⟨rfl, rfl⟩]
    exact (Option.some_ne_none n).symm
  rcases removeGroupOfNode_next outside notify hw hnode g with ⟨hnext, hother⟩ | hnext | hnext
  · rw [hnext]
    exact hother hreturned
  · rw [hnext]
    exact hdropped
  · rw [hnext]
    exact hdropped

theorem removeGroupOfNode_stays_done {h : ℕ} (hw : Maps w) (hnode : (w.node n).alive = true)
    (hnot : (w.weakGroupsAdded .automatically).lookup h ≠ some n) :
    ((removeGroupOfNode outside n notify w g).1.weakGroupsAdded .automatically).lookup h ≠
      some n := by
  have hdropped : ((w.drop .automatically g).weakGroupsAdded .automatically).lookup h ≠
      some n := by
    rw [lookup_drop]
    split
    · exact (Option.some_ne_none n).symm
    · exact hnot
  rcases removeGroupOfNode_next outside notify hw hnode g with ⟨hnext, -⟩ | hnext | hnext
  · rw [hnext]
    exact hnot
  · rw [hnext]
    exact hdropped
  · rw [hnext]
    exact hdropped

/-- A loop that returns has removed every group of the node. -/
theorem removeGroups_gone (hw : Remaining w n keys)
    (hreturned : (forEach (removeGroupOfNode outside n notify) keys w).2 = none) (g : ℕ)
    (hentry : (w.weakGroupsAdded .automatically).lookup g = some n) :
    Gone (forEach (removeGroupOfNode outside n notify) keys w).1 g := by
  have hstart : Removing w w n := ⟨hw.maps, hw.node, fun _ hentry => .inl hentry⟩
  have hremoving : Removing w (forEach (removeGroupOfNode outside n notify) keys w).1 n :=
    forEach_keeps (fun state => Removing w state n) (fun _ g _ hstate => hstate.next g) hstart
  have hdone := forEach_done (fun state => Removing w state n)
    (fun state g => (state.weakGroupsAdded .automatically).lookup g ≠ some n)
    (fun _ g _ hstate => hstate.next g)
    (fun _ _ _ hstate hcall => removeGroupOfNode_done hstate.maps hstate.node hcall)
    (fun _ _ _ hstate _ hnot => removeGroupOfNode_stays_done hstate.maps hstate.node hnot)
    hstart hreturned
  exact (hremoving.groups g hentry).resolve_left (hdone g (hw.covered g hentry))

theorem removeGroups_nodes (outside : ℕ → Outside) (n : ℕ) (notify : Bool) (keys : List ℕ)
    (w : World) : SameNodes w (forEach (removeGroupOfNode outside n notify) keys w).1 :=
  forEach_keeps (SameNodes w)
    (fun state g _ hstate => hstate.trans (removeGroupOfNode_nodes state g n notify outside))
    (.refl w)

end Removing

section RemoveNode

variable {w : World} {n : ℕ} {outside : ℕ → Outside} {notify : Bool}

theorem remaining_unlistNode (hw : Maps w) (hnode : (w.node n).alive = true) :
    Remaining (w.unlistNode n) n (sortedKeys (w.weakGroupsAdded .automatically)) where
  maps := hw.setWeakNodes _
  node := hnode
  nodup := (List.perm_insertionSort _ _).nodup_iff.mpr (AList.keys_nodup _)
  covered _ hentry :=
    (List.perm_insertionSort _ _).mem_iff.mpr
      (AList.mem_keys.mp (mem_iff_lookup.mpr ⟨n, hentry⟩))

/-- The guard conditions of all groups go, exactly if only the last group had one, and
took it along. -/
theorem unwatchLast_complete_iff (hw : Maps w) {groups : List ℕ} (hnodup : groups.Nodup) :
    (∀ g ∈ groups, (w.unwatchLast n groups).weakGroupsToGuardConditions g = none ∧
      ∀ address, w.weakGroupsToGuardConditions g = some address →
        address ∉ (w.unwatchLast n groups).guardConditions) ↔
    (∀ g ∈ groups.dropLast, w.weakGroupsToGuardConditions g = none) ∧
      ∀ g ∈ groups.getLast?, w.hasNode .manually n = true →
        w.weakGroupsToGuardConditions g = none := by
  rcases List.eq_nil_or_concat groups with rfl | ⟨init, last, rfl⟩
  · simp
  · rw [List.concat_eq_append] at hnodup ⊢
    have hnotLast : last ∉ init := by
      intro hmem
      exact (List.nodup_append.mp hnodup).2.2 last hmem last (List.mem_singleton.mpr rfl) rfl
    rw [List.dropLast_concat, List.getLast?_concat]
    cases hmanual : w.hasNode .manually n with
    | true =>
        have hsame : w.unwatchLast n (init ++ [last]) = w := by
          simp [World.unwatchLast, hmanual]
        rw [hsame]
        constructor
        · intro hall
          refine ⟨fun g hg => (hall g (List.mem_append_left _ hg)).1, fun g hg _ => ?_⟩
          cases hg
          exact (hall last (List.mem_append_right _ (List.mem_singleton.mpr rfl))).1
        · rintro ⟨hinit, hlast⟩ g hg
          have hnone : w.weakGroupsToGuardConditions g = none := by
            rcases List.mem_append.mp hg with hmem | hmem
            · exact hinit g hmem
            · rw [List.mem_singleton.mp hmem]
              exact hlast last rfl rfl
          exact ⟨hnone, fun address hsome => by rw [hnone] at hsome; cases hsome⟩
    | false =>
        have hsame : w.unwatchLast n (init ++ [last]) = w.unwatch last := by
          simp [World.unwatchLast, hmanual]
        have hother : ∀ g ∈ init, (w.unwatch last).weakGroupsToGuardConditions g =
            w.weakGroupsToGuardConditions g := by
          intro g hg
          refine update_of_ne ?_ _ _
          rintro rfl
          exact hnotLast hg
        rw [hsame]
        constructor
        · intro hall
          refine ⟨fun g hg => ?_, fun _ _ hmanual => absurd hmanual Bool.false_ne_true⟩
          rw [← hother g hg]
          exact (hall g (List.mem_append_left _ hg)).1
        · rintro ⟨hinit, -⟩ g hg
          rcases List.mem_append.mp hg with hmem | hmem
          · have hnone := hinit g hmem
            refine ⟨(hother g hmem).trans hnone, fun address hsome => ?_⟩
            rw [hnone] at hsome
            cases hsome
          · rw [List.mem_singleton.mp hmem]
            refine ⟨update_self _ _ _, fun address hsome => ?_⟩
            simp only [World.unwatch, hsome]
            exact hw.listedOnce.not_mem_erase

theorem unlistNode_of_not_listed (hlists : w.listsNode n = false) : w.unlistNode n = w := by
  have hfilter : (w.weakNodes.filter fun m => w.lockNode (some m) ≠ some n) = w.weakNodes := by
    refine List.filter_eq_self.mpr fun m hm => ?_
    have hnot := List.any_eq_false.mp hlists m hm
    simpa using hnot
  rw [World.unlistNode, hfilter]

theorem weakNodes_unlistNode_ne (hlists : w.listsNode n = true) :
    (w.unlistNode n).weakNodes ≠ w.weakNodes := by
  intro heq
  obtain ⟨m, hm, hnode⟩ := List.any_eq_true.mp hlists
  have hkept := List.filter_eq_self.mp heq m hm
  simp_all

/-- Where the executor has the node: the loop returns, and all guard conditions go. -/
theorem nodeRemoves_iff_of_listed (hflag : (w.node n).associatedWithExecutor = true)
    (hlists : w.listsNode n = true) :
    let groups := groupsOfNode w n (sortedKeys (w.weakGroupsAdded .automatically))
    NodeRemoves w outside n notify ↔
      ((∀ g ∈ groups, (w.group g).alive = true) ∧
        ∀ g ∈ groups.getLast?, w.hasNode .manually n = false →
          (outside g).Interrupts notify) ∧
      (∀ g ∈ groups.dropLast, w.weakGroupsToGuardConditions g = none) ∧
        ∀ g ∈ groups.getLast?, w.hasNode .manually n = true →
          w.weakGroupsToGuardConditions g = none := by
  intro groups
  simp only [NodeRemoves, hflag, hlists, Bool.true_eq_false, false_or]
  cases w.hasNode .manually n with
  | true => simp [groups]
  | false =>
      simp only [Bool.false_eq_true, if_false, false_imp_iff, implies_true, and_true,
        true_imp_iff, groups]
      constructor
      · rintro ⟨halive, hnone, hinterrupts⟩
        exact ⟨⟨halive, hinterrupts⟩, hnone⟩
      · rintro ⟨⟨halive, hinterrupts⟩, hnone⟩
        exact ⟨halive, hnone, hinterrupts⟩

/-- What a returned loop leaves is a completely removed node, exactly if all guard
conditions of its groups went. -/
theorem nodeRemoved_iff_of_returned (hw : Maps w) (hnode : (w.node n).alive = true)
    (hreturned : (forEach (removeGroupOfNode outside n notify)
      (sortedKeys (w.weakGroupsAdded .automatically)) (w.unlistNode n)).2 = none) :
    let left := (forEach (removeGroupOfNode outside n notify)
      (sortedKeys (w.weakGroupsAdded .automatically)) (w.unlistNode n)).1
    let groups := groupsOfNode w n (sortedKeys (w.weakGroupsAdded .automatically))
    NodeRemoved w (left.setNodeAssociated n false) n ↔
      (∀ g ∈ groups.dropLast, w.weakGroupsToGuardConditions g = none) ∧
        ∀ g ∈ groups.getLast?, w.hasNode .manually n = true →
          w.weakGroupsToGuardConditions g = none := by
  intro left groups
  have hremaining := remaining_unlistNode hw hnode
  have hgone := removeGroups_gone hremaining hreturned
  obtain ⟨hrecorded, hlisted⟩ := removeGroups_conditions hremaining hreturned
  have hcomplete := unwatchLast_complete_iff (n := n) hremaining.maps
    (hremaining.nodup.filter fun g =>
      (w.weakGroupsAdded .automatically).lookup g = some n : groups.Nodup)
  refine Iff.trans ?_ hcomplete
  have hmem : ∀ g, g ∈ groups ↔ (w.weakGroupsAdded .automatically).lookup g = some n := by
    intro g
    refine mem_groupsOfNode.trans (and_iff_right_of_imp fun hentry => ?_)
    exact hremaining.covered g hentry
  constructor
  · intro hremoved g hg
    obtain ⟨-, -, -, hnone, hnotListed⟩ := hremoved.groups g ((hmem g).mp hg)
    exact ⟨hrecorded ▸ hnone, fun address hsome => hlisted ▸ hnotListed address hsome⟩
  · intro hall
    refine ⟨by simp [World.setNodeAssociated], fun hstill => ?_, fun g hentry => ?_⟩
    · have hnodes := removeGroups_nodes outside n notify
        (sortedKeys (w.weakGroupsAdded .automatically)) (w.unlistNode n)
      have hkept : n ∈ (w.unlistNode n).weakNodes := hnodes.weakNodes ▸ hstill
      have hne := (List.mem_filter.mp hkept).2
      simp [World.lockNode, hnode] at hne
    · obtain ⟨hnone, hnotListed⟩ := hall g ((hmem g).mpr hentry)
      have hgroup := hgone g hentry
      exact ⟨hgroup.entry, hgroup.entryAll, hgroup.flag, hrecorded ▸ hnone,
        fun address hsome => hlisted ▸ hnotListed address hsome⟩

theorem removeNode_allOrNothing_iff (hw : Maps w) (hnode : (w.node n).alive = true) :
    AllOrNothing w (removeNode w outside n notify) (fun after => NodeRemoved w after n) ↔
      NodeRemoves w outside n notify := by
  cases hflag : (w.node n).associatedWithExecutor with
  | false =>
      rw [removeNode, if_pos (by simp [hflag])]
      exact iff_of_true ⟨fun _ => .refl w, fun hreturned => by cases hreturned⟩ (.inl hflag)
  | true =>
      cases hlists : w.listsNode n with
      | false =>
          rw [removeNode, if_neg (by simp [hflag]), if_neg (by simp [hlists]),
            unlistNode_of_not_listed hlists]
          exact iff_of_true ⟨fun _ => .refl w, fun hreturned => by cases hreturned⟩
            (.inr (.inl hlists))
      | true =>
          refine Iff.trans ?_ (nodeRemoves_iff_of_listed hflag hlists).symm
          have hreturns := removeGroups_returns_iff outside notify
            (remaining_unlistNode hw hnode)
          rcases removeNode_cases w n notify outside hflag hlists with
            ⟨hreturned, hcall⟩ | ⟨what, hthrown, hcall⟩
          · have hremoved := nodeRemoved_iff_of_returned hw hnode hreturned
            rw [hcall, AllOrNothing]
            simp only [ne_eq, not_true_eq_false, false_imp_iff, true_and, true_imp_iff]
            exact hremoved.trans (and_iff_right (hreturns.mp hreturned)).symm
          · -- a call of the loop threw, and the node is not listed any more
            rw [hcall]
            refine iff_of_false (fun hall => ?_) fun hremoves => ?_
            · have hsame := (hall.1 (Option.some_ne_none what)).weakNodes
              have hnodes := removeGroups_nodes outside n notify
                (sortedKeys (w.weakGroupsAdded .automatically)) (w.unlistNode n)
              exact weakNodes_unlistNode_ne hlists (hnodes.weakNodes.symm.trans hsame)
            · rw [hreturns.mpr hremoves.1] at hthrown
              cases hthrown

end RemoveNode

section Runs

variable {w start : World} {trace : List (Move World Call)} {n : ℕ}

/-- In every state that an executor reaches, the addition and the removal of a node are
all-or-nothing exactly under their conditions. -/
theorem node_calls_allOrNothing_iff (hrun : Run Step start trace w) (hstart : Constructed start)
    (hnode : (w.node n).alive = true) (outside : ℕ → Outside) (notify : Bool) :
    (AllOrNothing w (addNode w outside n notify) (fun after => NodeAdded w after n) ↔
      NodeAdds w outside n notify) ∧
    (AllOrNothing w (removeNode w outside n notify) (fun after => NodeRemoved w after n) ↔
      NodeRemoves w outside n notify) :=
  ⟨addNode_allOrNothing_iff (reachable_maps hrun hstart),
    removeNode_allOrNothing_iff (reachable_maps hrun hstart) hnode⟩

/-- A node is added, and one of its groups expires and is cleaned up. -/
def nodeOfOneGroup : List Call :=
  [⟨.addNode 5 true, apart⟩, ⟨.expireGroup 10, apart⟩, ⟨.waitForWork none, apart⟩]

/-- The executor with the group that is left. -/
def oneGroupLeft : World := nodeOfOneGroup.foldl perform nodeOfTwoGroups

/-- A node is added with both of its groups, and removed with the one that is left; the
removal of a node that the executor does not have is refused. -/
theorem node_added_and_removed :
    AllOrNothing nodeOfTwoGroups (addNode nodeOfTwoGroups apart 5 true)
        (fun after => NodeAdded nodeOfTwoGroups after 5) ∧
      AllOrNothing nodeOfTwoGroups (removeNode nodeOfTwoGroups apart 5 true)
        (fun after => NodeRemoved nodeOfTwoGroups after 5) ∧
      11 ∈ oneGroupLeft.weakGroupsToNodes ∧ (removeNode oneGroupLeft apart 5 true).2 = none ∧
      NodeRemoved oneGroupLeft (removeNode oneGroupLeft apart 5 true).1 5 := by
  obtain ⟨hadd, hrefuse⟩ := node_calls_allOrNothing_iff (.nil nodeOfTwoGroups)
    nodeOfTwoGroups_constructed (n := 5) rfl apart true
  have hrun : Run Step nodeOfTwoGroups (movesOf nodeOfTwoGroups nodeOfOneGroup) oneGroupLeft :=
    run_movesOf ⟨rfl, trivial, trivial, trivial⟩
  obtain ⟨-, hremove⟩ := node_calls_allOrNothing_iff hrun nodeOfTwoGroups_constructed
    (n := 5) rfl apart true
  have hreturned : (removeNode oneGroupLeft apart 5 true).2 = none := by decide
  have hgroups : groupsOfNode oneGroupLeft 5
      (sortedKeys (oneGroupLeft.weakGroupsAdded .automatically)) = [11] := by decide
  refine ⟨hadd.mpr (.inr fun g hg _ => ⟨fun _ => rfl, fun _ => ⟨100 + g, rfl⟩⟩),
    hrefuse.mpr (.inl rfl), by decide, hreturned, (hremove.mpr (.inr (.inr ?_))).2 hreturned⟩
  rw [hgroups]
  refine ⟨fun g hg => ?_, fun g hg => absurd hg List.not_mem_nil, fun g hg => ?_⟩
  · obtain rfl := List.mem_singleton.mp hg
    decide
  · obtain rfl := Option.mem_some.mp hg
    exact fun _ => rfl

/-- The guard condition of the second group of a node cannot be created. -/
def secondRefused (g : ℕ) : Outside :=
  ⟨if g = 11 then .error (.error "no memory") else .ok (100 + g), none, none⟩

/-- The executor after it was given the node. -/
def afterAddNode : World :=
  perform nodeOfTwoGroups ⟨.addNode 5 true, apart⟩

/-- The node keeps its flag, and its first group stays in the maps, although the call for
the second group threw; and the guard condition of the first group stays listed, although
the removal of the node returned. -/
theorem node_half_added_and_half_removed :
    Constructed nodeOfTwoGroups ∧
      Run Step nodeOfTwoGroups (movesOf nodeOfTwoGroups [⟨.addNode 5 true, apart⟩])
        afterAddNode ∧
      (addNode nodeOfTwoGroups secondRefused 5 true).2 =
        some "failed to create guard condition: no memory" ∧
      ((addNode nodeOfTwoGroups secondRefused 5 true).1.node 5).associatedWithExecutor = true ∧
      10 ∈ (addNode nodeOfTwoGroups secondRefused 5 true).1.weakGroupsToNodes ∧
      5 ∉ (addNode nodeOfTwoGroups secondRefused 5 true).1.weakNodes ∧
      ¬ AllOrNothing nodeOfTwoGroups (addNode nodeOfTwoGroups secondRefused 5 true)
        (fun after => NodeAdded nodeOfTwoGroups after 5) ∧
      (removeNode afterAddNode apart 5 true).2 = none ∧
      110 ∈ (removeNode afterAddNode apart 5 true).1.guardConditions ∧
      ¬ AllOrNothing afterAddNode (removeNode afterAddNode apart 5 true)
        (fun after => NodeRemoved afterAddNode after 5) := by
  refine ⟨nodeOfTwoGroups_constructed, run_movesOf ⟨rfl, trivial⟩, by decide, by decide,
    by decide, by decide, fun hall => ?_, by decide, by decide, fun hall => ?_⟩
  · have hsame := (hall.1 (by decide)).nodeFlags 5
    revert hsame
    decide
  · obtain ⟨-, -, -, -, hnotListed⟩ := (hall.2 (by decide)).groups 10 (by decide)
    exact hnotListed 110 (by decide) (by decide)

end Runs

end RosRtems.Bookkeeping
