import RosRtems.Executor.ReadyHandles
import RosRtems.Rcl.WaitSet

/-!
# Waiting for work

The executor fills its wait set with what the memory strategy has collected, waits, and
drops the handles of what is not ready.  It makes room for as much as it adds, and adds
its own entities before those of the waitables, so that the handles and the slots of the
wait set correspond, whatever the wait set was used for before.
-/

namespace RosRtems.WaitForWork

open RosRtems.MemoryStrategy (resetNull)
open RosRtems.RclWait RosRtems.Runs

variable {Entity Timer Handle : Type*}

/-- What a waitable adds to a wait set, which is as much as it reports. -/
structure Waitable (Entity Timer : Type*) where
  parts : Kind → List Entity
  timers : List Timer

/-- The memory strategy after `collect_entities`. -/
structure Collected (Entity Timer : Type*) where
  subscriptions : List Entity
  guardConditions : List Entity
  clients : List Entity
  services : List Entity
  timers : List Timer
  waitables : List (Waitable Entity Timer)

/-- Within a kind a waitable adds in this order. -/
def allKinds : List Kind := [.subscription, .guardCondition, .client, .service, .event]

def Waitable.addToWaitSet (waitable : Waitable Entity Timer) :
    List (WaitSetLabel Entity Timer) :=
  (allKinds.flatMap fun kind => (waitable.parts kind).map (.add kind)) ++
    waitable.timers.map .addTimer

namespace Collected

variable (m : Collected Entity Timer)

def handles : Kind → List Entity
  | .subscription => m.subscriptions
  | .guardCondition => m.guardConditions
  | .client => m.clients
  | .service => m.services
  | .event => []

/-- `number_of_ready_subscriptions` and its siblings. -/
def numberOfReady (kind : Kind) : ℕ :=
  (m.handles kind).length + (m.waitables.map fun waitable => (waitable.parts kind).length).sum

def numberOfReadyTimers : ℕ :=
  m.timers.length + (m.waitables.map fun waitable => waitable.timers.length).sum

/-- `add_handles_to_wait_set`. -/
def addHandlesToWaitSet : List (WaitSetLabel Entity Timer) :=
  m.subscriptions.map (.add .subscription) ++ m.clients.map (.add .client) ++
    m.services.map (.add .service) ++ m.timers.map .addTimer ++
    m.guardConditions.map (.add .guardCondition) ++
    m.waitables.flatMap Waitable.addToWaitSet

/-- The section of `wait_for_work` that fills the wait set. -/
def fill : List (WaitSetLabel Entity Timer) :=
  .clear :: .resize m.numberOfReady m.numberOfReadyTimers :: m.addHandlesToWaitSet

/-- All that is to be waited on. -/
def contents : Contents Entity Timer where
  sizes := m.numberOfReady
  timersSize := m.numberOfReadyTimers
  added := fun kind => m.handles kind ++ m.waitables.flatMap fun waitable => waitable.parts kind
  timers := m.timers ++ m.waitables.flatMap Waitable.timers

end Collected

/-! ## Adding one after the other -/

/-- What the labels add to a kind. -/
def addedBy (kind : Kind) (labels : List (WaitSetLabel Entity Timer)) : List Entity :=
  labels.filterMap fun label =>
    match label with
    | .add other entity => if other = kind then some entity else none
    | _ => none

def timersAddedBy (labels : List (WaitSetLabel Entity Timer)) : List Timer :=
  labels.filterMap fun label =>
    match label with
    | .addTimer timer => some timer
    | _ => none

/-- The label adds something. -/
def Adds : WaitSetLabel Entity Timer → Prop
  | .add _ _ | .addTimer _ => True
  | _ => False

/-- There is room for what the label adds. -/
def Fits (c : Contents Entity Timer) : WaitSetLabel Entity Timer → Prop
  | .add kind _ => (c.added kind).length < c.sizes kind
  | .addTimer _ => c.timers.length < c.timersSize
  | _ => True

theorem next_of_fits {c : Contents Entity Timer} {label : WaitSetLabel Entity Timer}
    (hadds : Adds label) (hfits : Fits c label) :
    Contents.next (c, false) label =
      ({ c with
          added := fun kind => c.added kind ++ addedBy kind [label]
          timers := c.timers ++ timersAddedBy [label] }, false) := by
  cases label with
  | add kind entity =>
      have hfits : (c.added kind).length < c.sizes kind := hfits
      simp only [Contents.next, Contents.add, if_pos hfits, addedBy, timersAddedBy,
        List.filterMap_cons, List.filterMap_nil, List.append_nil, Bool.false_eq_true, if_false]
      refine Prod.ext (congrArg₂ _ (funext fun other => ?_) rfl) rfl
      by_cases hother : other = kind
      · subst hother
        simp
      · simp [hother, Ne.symm hother]
  | addTimer timer =>
      have hfits : c.timers.length < c.timersSize := hfits
      simp [Contents.next, Contents.addTimer, hfits, addedBy, timersAddedBy]
  | _ => exact hadds.elim

section Filling

variable {rmwHandle : Kind → Entity → Handle} {timerGuard : Timer → Handle}
  {c : Contents Entity Timer} {ws ws' : WaitSet Entity Timer Handle}
  {trace filling : List (Move (WaitSet Entity Timer Handle) (WaitSetLabel Entity Timer))}

/-- The call does not fail. -/
def Succeeds (rmwHandle : Kind → Entity → Handle) (timerGuard : Timer → Handle)
    (ws : WaitSet Entity Timer Handle) : WaitSetLabel Entity Timer → Prop
  | .add kind entity => (ws.add rmwHandle kind entity).2 = true
  | .addTimer timer => (ws.addTimer timerGuard timer).2 = true
  | _ => True

theorem succeeds_of_fits (h : Holds rmwHandle timerGuard c ws)
    {label : WaitSetLabel Entity Timer} (hfits : Fits c label) :
    Succeeds rmwHandle timerGuard ws label := by
  cases label with
  | add kind entity =>
      have hroom : (ws.slots kind).index < (ws.slots kind).entities.length := by
        rw [h.index kind, h.sized.entities kind]
        exact hfits
      rw [Succeeds, WaitSet.add, if_pos hroom]
  | addTimer timer =>
      have hroom : ws.timerIndex < ws.timers.length := by
        rw [h.timerIndex, h.sized.timers]
        exact hfits
      rw [Succeeds, WaitSet.addTimer, if_pos hroom]
  | _ => trivial

theorem fits_of_room {label : WaitSetLabel Entity Timer} {labels : List (WaitSetLabel Entity Timer)}
    (hroom : ∀ kind, (c.added kind).length + (addedBy kind (label :: labels)).length ≤
      c.sizes kind)
    (htimers : c.timers.length + (timersAddedBy (label :: labels)).length ≤ c.timersSize) :
    Fits c label := by
  cases label with
  | add kind entity =>
      have hkind := hroom kind
      simp only [addedBy, List.filterMap_cons, if_pos, List.length_cons] at hkind
      change (c.added kind).length < c.sizes kind
      omega
  | addTimer timer =>
      simp only [timersAddedBy, List.filterMap_cons, List.length_cons] at htimers
      change c.timers.length < c.timersSize
      omega
  | _ => trivial

theorem addedBy_cons (kind : Kind) (label : WaitSetLabel Entity Timer)
    (labels : List (WaitSetLabel Entity Timer)) :
    addedBy kind (label :: labels) = addedBy kind [label] ++ addedBy kind labels :=
  List.filterMap_append (l := [label])

theorem timersAddedBy_cons (label : WaitSetLabel Entity Timer)
    (labels : List (WaitSetLabel Entity Timer)) :
    timersAddedBy (label :: labels) = timersAddedBy [label] ++ timersAddedBy labels :=
  List.filterMap_append (l := [label])

/-- Where there is room for everything, everything is added. -/
theorem holds_adds (hrun : Run (WaitSetStep rmwHandle timerGuard) ws filling ws')
    (h : Holds rmwHandle timerGuard c ws) (hadds : ∀ label ∈ filling.map Move.label, Adds label)
    (hroom : ∀ kind, (c.added kind).length +
      (addedBy kind (filling.map Move.label)).length ≤ c.sizes kind)
    (htimers : c.timers.length + (timersAddedBy (filling.map Move.label)).length ≤
      c.timersSize) :
    Admitted (Succeeds rmwHandle timerGuard) filling ∧
      Holds rmwHandle timerGuard
        { c with
          added := fun kind => c.added kind ++ addedBy kind (filling.map Move.label)
          timers := c.timers ++ timersAddedBy (filling.map Move.label) } ws' := by
  induction hrun generalizing c with
  | nil ws => exact ⟨.nil _, by simpa [addedBy, timersAddedBy] using h⟩
  | @cons ws middle ws' label filling hstep _ ih =>
      rw [List.map_cons] at hadds hroom htimers
      have hfits : Fits c label := fits_of_room hroom htimers
      have hnext := next_of_fits (hadds label List.mem_cons_self) hfits
      have hmiddle : Holds rmwHandle timerGuard
          { c with
            added := fun kind => c.added kind ++ addedBy kind [label]
            timers := c.timers ++ timersAddedBy [label] } middle := by
        have htracks := tracks_perform (show Tracks rmwHandle timerGuard (c, false) ws from h) label
        rw [hnext, ← (hstep : middle = ws.perform rmwHandle timerGuard label)] at htracks
        exact htracks
      obtain ⟨hrest, hholds⟩ := ih hmiddle (fun label hmem => hadds label (List.mem_cons_of_mem _ hmem))
        (fun kind => by
          have hkind := hroom kind
          rw [addedBy_cons, List.length_append] at hkind
          simpa [Nat.add_assoc] using hkind)
        (by
          rw [timersAddedBy_cons, List.length_append] at htimers
          simpa [Nat.add_assoc] using htimers)
      have hadded : (fun kind => c.added kind ++
            addedBy kind ((⟨ws, label, middle⟩ :: filling : List (Move _ _)).map Move.label)) =
          fun kind => c.added kind ++ addedBy kind [label] ++
            addedBy kind (filling.map Move.label) := by
        funext kind
        rw [List.map_cons, addedBy_cons, List.append_assoc]
      refine ⟨.cons (succeeds_of_fits h hfits) hrest, ?_⟩
      rw [hadded, List.map_cons, timersAddedBy_cons, ← List.append_assoc]
      exact hholds

/-! ## What the executor adds -/

@[simp] theorem addedBy_append (kind : Kind) (first second : List (WaitSetLabel Entity Timer)) :
    addedBy kind (first ++ second) = addedBy kind first ++ addedBy kind second :=
  List.filterMap_append

@[simp] theorem timersAddedBy_append (first second : List (WaitSetLabel Entity Timer)) :
    timersAddedBy (first ++ second) = timersAddedBy first ++ timersAddedBy second :=
  List.filterMap_append

@[simp] theorem addedBy_map_add (kind other : Kind) (entities : List Entity) :
    addedBy kind (entities.map (.add other) : List (WaitSetLabel Entity Timer)) =
      if other = kind then entities else [] := by
  by_cases hkind : other = kind <;> simp [addedBy, hkind]

@[simp] theorem addedBy_map_addTimer (kind : Kind) (timers : List Timer) :
    addedBy kind (timers.map .addTimer : List (WaitSetLabel Entity Timer)) = [] := by
  simp [addedBy]

@[simp] theorem timersAddedBy_map_add (kind : Kind) (entities : List Entity) :
    timersAddedBy (entities.map (.add kind) : List (WaitSetLabel Entity Timer)) = [] := by
  simp [timersAddedBy]

@[simp] theorem timersAddedBy_map_addTimer (timers : List Timer) :
    timersAddedBy (timers.map .addTimer : List (WaitSetLabel Entity Timer)) = timers := by
  simp [timersAddedBy]

@[simp] theorem addedBy_addToWaitSet (kind : Kind) (waitable : Waitable Entity Timer) :
    addedBy kind waitable.addToWaitSet = waitable.parts kind := by
  cases kind <;> simp [Waitable.addToWaitSet, allKinds]

@[simp] theorem timersAddedBy_addToWaitSet (waitable : Waitable Entity Timer) :
    timersAddedBy waitable.addToWaitSet = waitable.timers := by
  simp [Waitable.addToWaitSet, allKinds]

theorem addedBy_flatMap (kind : Kind) (waitables : List (Waitable Entity Timer)) :
    addedBy kind (waitables.flatMap Waitable.addToWaitSet) =
      waitables.flatMap fun waitable => waitable.parts kind := by
  induction waitables with
  | nil => rfl
  | cons waitable waitables ih => simp [ih]

theorem timersAddedBy_flatMap (waitables : List (Waitable Entity Timer)) :
    timersAddedBy (waitables.flatMap Waitable.addToWaitSet) =
      waitables.flatMap Waitable.timers := by
  induction waitables with
  | nil => rfl
  | cons waitable waitables ih => simp [ih]

theorem addedBy_addHandlesToWaitSet (m : Collected Entity Timer) (kind : Kind) :
    addedBy kind m.addHandlesToWaitSet = m.contents.added kind := by
  simp only [Collected.addHandlesToWaitSet, addedBy_append, addedBy_map_add,
    addedBy_map_addTimer, addedBy_flatMap, Collected.contents]
  cases kind <;> simp [Collected.handles]

theorem timersAddedBy_addHandlesToWaitSet (m : Collected Entity Timer) :
    timersAddedBy m.addHandlesToWaitSet = m.contents.timers := by
  simp [Collected.addHandlesToWaitSet, timersAddedBy_flatMap, Collected.contents]

theorem adds_addHandlesToWaitSet (m : Collected Entity Timer) :
    ∀ label ∈ m.addHandlesToWaitSet, Adds label := by
  intro label hmem
  simp only [Collected.addHandlesToWaitSet, Waitable.addToWaitSet, List.mem_append,
    List.mem_map, List.mem_flatMap] at hmem
  rcases hmem with (((((⟨_, _, rfl⟩ | ⟨_, _, rfl⟩) | ⟨_, _, rfl⟩) | ⟨_, _, rfl⟩) |
    ⟨_, _, rfl⟩) | ⟨_, _, ⟨_, _, ⟨_, _, rfl⟩⟩ | ⟨_, _, rfl⟩⟩)
  all_goals trivial

/-- The room is exactly what is needed. -/
theorem length_contents (m : Collected Entity Timer) :
    (∀ kind, (m.contents.added kind).length = m.numberOfReady kind) ∧
      m.contents.timers.length = m.numberOfReadyTimers := by
  constructor
  · intro kind
    simp [Collected.contents, Collected.numberOfReady, List.length_flatMap]
  · simp [Collected.contents, Collected.numberOfReadyTimers, List.length_flatMap]

/-- No call fails while the wait set is filled, which then holds all there is. -/
theorem holds_fill (m : Collected Entity Timer)
    (hrun : Run (WaitSetStep rmwHandle timerGuard) ws filling ws')
    (hfill : filling.map Move.label = m.fill) :
    Admitted (Succeeds rmwHandle timerGuard) filling ∧
      Holds rmwHandle timerGuard m.contents ws' := by
  cases hrun with
  | nil _ => cases hfill
  | @cons _ cleared _ label filling hclear hrun =>
  cases hrun with
  | nil _ => cases hfill
  | @cons _ resized _ label' filling hresize hrun =>
      simp only [Collected.fill, List.map_cons, List.cons.injEq] at hfill
      obtain ⟨rfl, rfl, hadds⟩ := hfill
      have hempty : Holds rmwHandle timerGuard
          (Contents.empty m.numberOfReady m.numberOfReadyTimers) resized := by
        rw [(hresize : resized = _)]
        exact holds_resized _ _
      obtain ⟨hadded, htimers⟩ := length_contents m
      obtain ⟨hrest, hholds⟩ := holds_adds hrun hempty
        (by rw [hadds]; exact adds_addHandlesToWaitSet m)
        (fun kind => by
          rw [hadds, addedBy_addHandlesToWaitSet, hadded]
          simp [Contents.empty])
        (by
          rw [hadds, timersAddedBy_addHandlesToWaitSet, htimers]
          simp [Contents.empty])
      refine ⟨.cons trivial (.cons trivial hrest), ?_⟩
      simp only [hadds, addedBy_addHandlesToWaitSet, timersAddedBy_addHandlesToWaitSet] at hholds
      exact hholds

theorem left_getElem? {kind : Kind} {i : ℕ} {entity : Entity} (ready : Kind → ℕ → Bool)
    (hentity : (c.added kind)[i]? = some entity) :
    (c.left ready kind)[i]? = some (if ready kind i then some entity else none) := by
  have hi : i < (c.added kind).length := (List.getElem?_eq_some_iff.mp hentity).1
  rw [Contents.left, List.getElem?_append_left (by rwa [List.length_mapIdx]),
    List.getElem?_mapIdx, hentity, Option.map_some]

theorem due_getElem? {i : ℕ} {timer : Timer} (before after : Moments Timer)
    (htimer : c.timers[i]? = some timer) :
    (c.due before after)[i]? = some (if live before i timer ∧
      RclTimer.isReady (after.timer i timer) (after.now i) = true then some timer else none) := by
  have hi : i < c.timers.length := (List.getElem?_eq_some_iff.mp htimer).1
  rw [Contents.due, List.getElem?_append_left (by rwa [List.length_mapIdx]),
    List.getElem?_mapIdx, htimer, Option.map_some]

theorem resetNull_congr {first second : ℕ → Bool} {handles : List Entity}
    (hsame : ∀ i, i < handles.length → first i = second i) :
    resetNull first handles = resetNull second handles := by
  apply List.mapIdx_eq_mapIdx_iff.mpr
  intro i hi
  rw [hsame i hi]

/-- Where the entities of a waitable begin. -/
def offset (m : Collected Entity Timer) (earlier : List (Waitable Entity Timer)) (kind : Kind) :
    ℕ :=
  (m.handles kind).length + (earlier.map fun waitable => (waitable.parts kind).length).sum

theorem added_offset {m : Collected Entity Timer} {earlier later : List (Waitable Entity Timer)}
    {waitable : Waitable Entity Timer} (hwaitable : m.waitables = earlier ++ waitable :: later)
    {kind : Kind} {i : ℕ} {entity : Entity} (hentity : (waitable.parts kind)[i]? = some entity) :
    (m.contents.added kind)[offset m earlier kind + i]? = some entity := by
  have hi : i < (waitable.parts kind).length := (List.getElem?_eq_some_iff.mp hentity).1
  have hlength : (earlier.flatMap fun waitable => waitable.parts kind).length =
      (earlier.map fun waitable => (waitable.parts kind).length).sum :=
    List.length_flatMap
  have hparts : m.contents.added kind = m.handles kind ++
      ((earlier.flatMap fun waitable => waitable.parts kind) ++
        (waitable.parts kind ++ later.flatMap fun waitable => waitable.parts kind)) := by
    simp [Collected.contents, hwaitable]
  rw [hparts, offset, Nat.add_assoc, List.getElem?_append_right (Nat.le_add_right _ _),
    Nat.add_sub_cancel_left, ← hlength, List.getElem?_append_right (Nat.le_add_right _ _),
    Nat.add_sub_cancel_left, List.getElem?_append_left hi, hentity]

/-- Whatever the wait set was used for before: no call fails while it is filled, and the
wait leaves the executor with the handles of exactly those entities that the middleware
found ready and of the timers that are due, and each waitable with what is ready of it. -/
theorem work_found (m : Collected Entity Timer) (hguards : m.guardConditions ≠ [])
    (hrun : Run (WaitSetStep rmwHandle timerGuard) ws filling ws')
    (hfill : filling.map Move.label = m.fill) (before after : Moments Timer)
    (ready : Kind → ℕ → Bool) (timedOut : Bool) (timeout : ℤ) :
    Admitted (Succeeds rmwHandle timerGuard) filling ∧
      ∃ settled call result,
        ws'.rclWait before after (.waited ready timedOut) timeout =
          (settled, some call, result) ∧
        (∀ kind, resetNull (fun i => (settled.slots kind).entities[i]?.join.isSome)
          (m.handles kind) = resetNull (ready kind) (m.handles kind)) ∧
        resetNull (fun i => settled.timers[i]?.join.isSome) m.timers =
          (m.timers.mapIdx fun i timer => if live before i timer ∧
            RclTimer.isReady (after.timer i timer) (after.now i) = true then some timer
          else none) ∧
        ∀ earlier waitable later, m.waitables = earlier ++ waitable :: later →
          ∀ kind i entity, (waitable.parts kind)[i]? = some entity →
            (settled.slots kind).entities[offset m earlier kind + i]? =
              some (if ready kind (offset m earlier kind + i) then some entity else none) := by
  obtain ⟨hsucceeds, hholds⟩ := holds_fill m hrun hfill
  have hroom : ¬ ws'.isEmpty := by
    apply not_isEmpty_of_sized hholds.sized
    refine .inl ⟨.guardCondition, ?_⟩
    exact Nat.add_pos_left (List.length_pos_iff.mpr hguards) _
  obtain ⟨settled, hwait, hleft, hdue⟩ :=
    rclWait_of_holds hholds hroom before after ready timedOut timeout
  refine ⟨hsucceeds, settled, _, _, hwait, fun kind => ?_, ?_, ?_⟩
  · apply resetNull_congr
    intro i hi
    have hentity : (m.contents.added kind)[i]? = some (m.handles kind)[i] := by
      rw [Collected.contents, List.getElem?_append_left hi, List.getElem?_eq_getElem hi]
    rw [hleft kind, left_getElem? ready hentity]
    cases ready kind i <;> rfl
  · apply List.mapIdx_eq_mapIdx_iff.mpr
    intro i hi
    have htimer : m.contents.timers[i]? = some m.timers[i] := by
      rw [Collected.contents, List.getElem?_append_left hi, List.getElem?_eq_getElem hi]
    simp only [hdue, due_getElem? before after htimer]
    split <;> rfl
  · intro earlier waitable later hwaitable kind i entity hentity
    rw [hleft kind]
    exact left_getElem? ready (added_offset hwaitable hentity)

end Filling

/-! ## One subscription and one waitable -/

section Example

/-- The two guard conditions of the executor, a subscription, a timer, and a subscription
within the process. -/
def smallExecutor : Collected ℕ ℕ where
  subscriptions := [1]
  guardConditions := [2, 3]
  clients := []
  services := []
  timers := [0]
  waitables := [⟨fun kind => if kind = .guardCondition then [4] else [], []⟩]

/-- The guard condition of the waitable is the third. -/
theorem smallExecutor_finds : ∃ (ws settled : WaitSet ℕ ℕ ℕ) (call : Option (RmwCall ℕ))
    (result : WaitResult),
    ws.rclWait (twoTimers 25) (twoTimers 30)
        (.waited (fun kind i => kind = .guardCondition ∧ i = 2) false) 50 =
      (settled, call, result) ∧
      (resetNull (fun i => (settled.slots .subscription).entities[i]?.join.isSome)
        [1]).reduceOption = [] ∧
      (resetNull (fun i => settled.timers[i]?.join.isSome) [0]).reduceOption = [0] ∧
      (settled.slots .guardCondition).entities[2]? = some (some 4) := by
  obtain ⟨filling, ws, hrun, hfill⟩ : ∃ (filling : List (Move (WaitSet ℕ ℕ ℕ)
      (WaitSetLabel ℕ ℕ))) (ws : WaitSet ℕ ℕ ℕ),
      Run UsedStep (.resized oneGuard 2) filling ws ∧
        filling.map Move.label = smallExecutor.fill :=
    ⟨_, _, .cons rfl <| .cons rfl <| .cons rfl <| .cons rfl <| .cons rfl <| .cons rfl <|
      .cons rfl <| .nil _, rfl⟩
  obtain ⟨-, settled, call, result, hwait, hhandles, htimers, hwaitables⟩ :=
    work_found smallExecutor (by decide) hrun hfill (twoTimers 25) (twoTimers 30)
      (fun kind i => kind = .guardCondition ∧ i = 2) false 50
  refine ⟨ws, settled, some call, result, hwait, ?_, ?_, ?_⟩
  · exact (congrArg List.reduceOption (hhandles .subscription)).trans (by decide)
  · exact (congrArg List.reduceOption htimers).trans (by decide)
  · exact (hwaitables [] _ [] rfl .guardCondition 0 4 rfl).trans (by decide)

end Example

end RosRtems.WaitForWork
