import RosRtems.Core.Runs
import RosRtems.Rcl.Timer
import Mathlib.Data.List.OfFn
import Mathlib.Logic.Function.Basic

/-!
# The wait set and its wait

A wait set keeps an array of entities for each kind, and beside it the array of handles
that is passed to the middleware.  The guard conditions of the timers are stored behind
the room for the other guard conditions, and moved next to those that are there when it
comes to waiting.  Whatever happened before, a wait passes what was added since the wait
set was cleared, and leaves the entities that the middleware found ready and the timers
that are due.
-/

namespace RosRtems.RclWait

open Function
open RosRtems.Runs
open RosRtems.RclTimer (timeUntilNextCall isReady)

/-! ## The arrays -/

/-- The kinds of entities that the middleware waits on. -/
inductive Kind
  | subscription
  | guardCondition
  | client
  | service
  | event
  deriving DecidableEq

/-- What the wait set has for one kind: its own array and how much of it is filled, and
the array for the middleware with its count. -/
structure Slots (Entity Handle : Type*) where
  entities : List (Option Entity)
  index : ℕ
  storage : List (Option Handle)
  count : ℕ

structure WaitSet (Entity Timer Handle : Type*) where
  slots : Kind → Slots Entity Handle
  timers : List (Option Timer)
  timerIndex : ℕ

variable {Entity Timer Handle : Type*}

/-- Null pointers. -/
def nulls {α : Type*} (size : ℕ) : List (Option α) := List.replicate size none

def Slots.resized (size room : ℕ) : Slots Entity Handle where
  entities := nulls size
  index := 0
  storage := nulls room
  count := 0

/-- `SET_CLEAR` and `SET_CLEAR_RMW`: beyond the count nothing is cleared. -/
def Slots.cleared (slots : Slots Entity Handle) : Slots Entity Handle where
  entities := nulls slots.entities.length
  index := 0
  storage := nulls (min slots.count slots.storage.length) ++ slots.storage.drop slots.count
  count := 0

/-- `SET_ADD` and `SET_ADD_RMW`. -/
def Slots.add (slots : Slots Entity Handle) (entity : Entity) (handle : Handle) :
    Slots Entity Handle where
  entities := slots.entities.set slots.index (some entity)
  index := slots.index + 1
  storage := slots.storage.set slots.index (some handle)
  count := slots.count + 1

/-- The room for handles: that for guard conditions includes the timers'. -/
def roomFor (sizes : Kind → ℕ) (timersSize : ℕ) (kind : Kind) : ℕ :=
  if kind = .guardCondition then sizes kind + timersSize else sizes kind

namespace WaitSet

variable (rmwHandle : Kind → Entity → Handle) (timerGuard : Timer → Handle)
  (ws : WaitSet Entity Timer Handle)

/-- `rcl_wait_set_resize` replaces every array, where there is memory for them. -/
def resized (sizes : Kind → ℕ) (timersSize : ℕ) : WaitSet Entity Timer Handle where
  slots := fun kind => .resized (sizes kind) (roomFor sizes timersSize kind)
  timers := nulls timersSize
  timerIndex := 0

def clear : WaitSet Entity Timer Handle where
  slots := fun kind => (ws.slots kind).cleared
  timers := nulls ws.timers.length
  timerIndex := 0

/-- `rcl_wait_set_add_subscription` and its siblings, for an entity that has a handle in the
middleware.  They fail if the array is full. -/
def add (kind : Kind) (entity : Entity) : WaitSet Entity Timer Handle × Bool :=
  if (ws.slots kind).index < (ws.slots kind).entities.length then
    ({ ws with
        slots := update ws.slots kind ((ws.slots kind).add entity (rmwHandle kind entity)) },
      true)
  else (ws, false)

/-- The guard condition of a timer is stored, but not counted yet. -/
def addTimer (timer : Timer) : WaitSet Entity Timer Handle × Bool :=
  if ws.timerIndex < ws.timers.length then
    let guards := ws.slots .guardCondition
    ({ ws with
        slots := update ws.slots .guardCondition
          { guards with
            storage := guards.storage.set (guards.entities.length + ws.timerIndex)
              (some (timerGuard timer)) }
        timers := ws.timers.set ws.timerIndex (some timer)
        timerIndex := ws.timerIndex + 1 },
      true)
  else (ws, false)

end WaitSet

/-! ## The wait -/

/-- The largest 64-bit time. -/
def int64Max : ℤ := 2 ^ 63 - 1

/-- The states of the timers and the clock, as a loop over the timers finds them. -/
structure Moments (Timer : Type*) where
  timer : ℕ → Timer → RclTimer.Timer
  now : ℕ → ℤ

/-- The local variables of `rcl_wait` and what its first loop changes. -/
structure Preparation (Timer Handle : Type*) where
  storage : List (Option Handle)
  count : ℕ
  timers : List (Option Timer)
  isTimerTimeout : Bool
  minTimeout : ℤ

def moveGuard (p : Preparation Timer Handle) (position : ℕ) : Preparation Timer Handle :=
  match p.storage[position]?.join with
  | none => p
  | some handle =>
      { p with storage := p.storage.set p.count (some handle), count := p.count + 1 }

/-- A turn of the first loop.  A canceled timer still wakes the wait through its guard
condition. -/
def prepareTimer (before : Moments Timer) (guardsSize : ℕ) (p : Preparation Timer Handle)
    (i : ℕ) : Preparation Timer Handle :=
  match p.timers[i]?.join with
  | none => p
  | some timer =>
      let p := moveGuard p (guardsSize + i)
      match timeUntilNextCall (before.timer i timer) (before.now i) with
      | .error _ => { p with timers := p.timers.set i none }
      | .ok timerTimeout =>
          if timerTimeout < p.minTimeout then
            { p with isTimerTimeout := true, minTimeout := timerTimeout }
          else p

/-- The timeout that is passed on, if there is one. -/
def timeoutArgument (timeout : ℤ) (isTimerTimeout : Bool) (minTimeout : ℤ) : Option ℤ :=
  if timeout = 0 then some 0
  else if 0 < timeout ∨ isTimerTimeout = true then some (max minTimeout 0)
  else none

/-- What the middleware does: it fails, or it clears the handles of what is not ready,
and says whether the time was up. -/
inductive Outcome
  | failed
  | waited (ready : Kind → ℕ → Bool) (timedOut : Bool)

/-- What is passed to the middleware. -/
structure RmwCall (Handle : Type*) where
  handles : Kind → List (Option Handle)
  timeout : Option ℤ

inductive WaitResult
  | ok
  | timeout
  | error
  | waitSetEmpty
  deriving DecidableEq

def keepReady (ready : ℕ → Bool) (count : ℕ) (storage : List (Option Handle)) :
    List (Option Handle) :=
  storage.mapIdx fun i handle => if i < count ∧ ready i = false then none else handle

/-- An entity without a handle is not ready. -/
def keepStored (storage : List (Option Handle)) (entities : List (Option Entity)) :
    List (Option Entity) :=
  entities.mapIdx fun i entity => if storage[i]?.join.isSome then entity else none

/-- The second loop over the timers. -/
def keepDue (after : Moments Timer) (timers : List (Option Timer)) : List (Option Timer) :=
  timers.mapIdx fun i timer => timer.filter fun timer => isReady (after.timer i timer) (after.now i)

namespace WaitSet

variable (ws : WaitSet Entity Timer Handle)

def isEmpty : Prop :=
  (∀ kind, (ws.slots kind).entities = []) ∧ ws.timers = []

instance : Decidable ws.isEmpty :=
  decidable_of_iff
    ((ws.slots .subscription).entities = [] ∧ (ws.slots .guardCondition).entities = [] ∧
      (ws.slots .client).entities = [] ∧ (ws.slots .service).entities = [] ∧
      (ws.slots .event).entities = [] ∧ ws.timers = [])
    ⟨fun ⟨h₁, h₂, h₃, h₄, h₅, h₆⟩ =>
        ⟨fun kind => match kind with
          | .subscription => h₁
          | .guardCondition => h₂
          | .client => h₃
          | .service => h₄
          | .event => h₅, h₆⟩,
      fun ⟨h, ht⟩ => ⟨h _, h _, h _, h _, h _, ht⟩⟩

def prepare (before : Moments Timer) (timeout : ℤ) : Preparation Timer Handle :=
  (List.range ws.timerIndex).foldl
    (prepareTimer before (ws.slots .guardCondition).entities.length)
    { storage := (ws.slots .guardCondition).storage
      count := (ws.slots .guardCondition).count
      timers := ws.timers
      isTimerTimeout := false
      minTimeout := if 0 < timeout then timeout else int64Max }

/-- The wait set as it is passed to the middleware. -/
def prepared (p : Preparation Timer Handle) : WaitSet Entity Timer Handle :=
  { ws with
    slots := update ws.slots .guardCondition
      { ws.slots .guardCondition with storage := p.storage, count := p.count }
    timers := p.timers }

def passed (ws : WaitSet Entity Timer Handle) (timeout : Option ℤ) : RmwCall Handle where
  handles := fun kind => (ws.slots kind).storage.take (ws.slots kind).count
  timeout := timeout

/-- What `rcl_wait` does after the middleware's wait. -/
def settle (ws : WaitSet Entity Timer Handle) (after : Moments Timer) (outcome : Outcome)
    (isTimerTimeout : Bool) : WaitSet Entity Timer Handle × WaitResult :=
  match outcome with
  | .failed => ({ ws with timers := keepDue after ws.timers }, .error)
  | .waited ready timedOut =>
      ({ slots := fun kind =>
          let storage := keepReady (ready kind) (ws.slots kind).count (ws.slots kind).storage
          { ws.slots kind with
            entities := keepStored storage (ws.slots kind).entities
            storage := storage }
         timers := keepDue after ws.timers
         timerIndex := ws.timerIndex },
        if timedOut = true ∧ isTimerTimeout = false then .timeout else .ok)

/-- Beside the wait set and the result: what was passed to the middleware. -/
def rclWait (before after : Moments Timer) (outcome : Outcome) (timeout : ℤ) :
    WaitSet Entity Timer Handle × Option (RmwCall Handle) × WaitResult :=
  if ws.isEmpty then (ws, none, .waitSetEmpty)
  else
    let p := ws.prepare before timeout
    let ready := ws.prepared p
    let (settled, result) := ready.settle after outcome p.isTimerTimeout
    (settled, some (ready.passed (timeoutArgument timeout p.isTimerTimeout p.minTimeout)), result)

end WaitSet

/-! ## Runs -/

inductive WaitSetLabel (Entity Timer : Type*)
  | resize (sizes : Kind → ℕ) (timersSize : ℕ)
  | clear
  | add (kind : Kind) (entity : Entity)
  | addTimer (timer : Timer)
  | wait (before after : Moments Timer) (outcome : Outcome) (timeout : ℤ)

def WaitSet.perform (rmwHandle : Kind → Entity → Handle) (timerGuard : Timer → Handle)
    (ws : WaitSet Entity Timer Handle) : WaitSetLabel Entity Timer → WaitSet Entity Timer Handle
  | .resize sizes timersSize => .resized sizes timersSize
  | .clear => ws.clear
  | .add kind entity => (ws.add rmwHandle kind entity).1
  | .addTimer timer => (ws.addTimer timerGuard timer).1
  | .wait before after outcome timeout => (ws.rclWait before after outcome timeout).1

def WaitSetStep (rmwHandle : Kind → Entity → Handle) (timerGuard : Timer → Handle)
    (ws : WaitSet Entity Timer Handle) (label : WaitSetLabel Entity Timer)
    (ws' : WaitSet Entity Timer Handle) : Prop :=
  ws' = ws.perform rmwHandle timerGuard label

/-- What a wait set is for: the room it has, and what was added since it was cleared, in
this order. -/
structure Contents (Entity Timer : Type*) where
  sizes : Kind → ℕ
  timersSize : ℕ
  added : Kind → List Entity
  timers : List Timer

namespace Contents

def empty (sizes : Kind → ℕ) (timersSize : ℕ) : Contents Entity Timer where
  sizes := sizes
  timersSize := timersSize
  added := fun _ => []
  timers := []

variable (c : Contents Entity Timer)

def add (kind : Kind) (entity : Entity) : Contents Entity Timer :=
  if (c.added kind).length < c.sizes kind then
    { c with added := update c.added kind (c.added kind ++ [entity]) }
  else c

def addTimer (timer : Timer) : Contents Entity Timer :=
  if c.timers.length < c.timersSize then { c with timers := c.timers ++ [timer] } else c

/-- Beside the contents: whether they have been waited on, so that the wait set has to be
cleared before it is used again. -/
def next : Contents Entity Timer × Bool → WaitSetLabel Entity Timer →
    Contents Entity Timer × Bool
  | _, .resize sizes timersSize => (.empty sizes timersSize, false)
  | (c, _), .clear => (.empty c.sizes c.timersSize, false)
  | (c, used), .add kind entity => (if used then c else c.add kind entity, used)
  | (c, used), .addTimer timer => (if used then c else c.addTimer timer, used)
  | (c, _), .wait _ _ _ _ => (c, true)

end Contents

/-- The arrays hold the contents. -/
structure Holds (rmwHandle : Kind → Entity → Handle) (timerGuard : Timer → Handle)
    (c : Contents Entity Timer) (ws : WaitSet Entity Timer Handle) : Prop where
  fits : ∀ kind, (c.added kind).length ≤ c.sizes kind
  entities : ∀ kind, (ws.slots kind).entities =
    (c.added kind).map some ++ nulls (c.sizes kind - (c.added kind).length)
  index : ∀ kind, (ws.slots kind).index = (c.added kind).length
  count : ∀ kind, (ws.slots kind).count = (c.added kind).length
  room : ∀ kind, (ws.slots kind).storage.length = roomFor c.sizes c.timersSize kind
  stored : ∀ kind, ((c.added kind).map fun entity => some (rmwHandle kind entity)) <+:
    (ws.slots kind).storage
  timersFit : c.timers.length ≤ c.timersSize
  timers : ws.timers = c.timers.map some ++ nulls (c.timersSize - c.timers.length)
  timerIndex : ws.timerIndex = c.timers.length
  guards : (c.timers.map fun timer => some (timerGuard timer)) <+:
    (ws.slots .guardCondition).storage.drop (c.sizes .guardCondition)

/-- The arrays have the sizes of the contents. -/
structure Sized (c : Contents Entity Timer) (ws : WaitSet Entity Timer Handle) : Prop where
  entities : ∀ kind, (ws.slots kind).entities.length = c.sizes kind
  room : ∀ kind, (ws.slots kind).storage.length = roomFor c.sizes c.timersSize kind
  timers : ws.timers.length = c.timersSize

section Arrays

variable {α : Type*} {filled storage : List α}

theorem prefix_set (hfilled : filled <+: storage) (hroom : filled.length < storage.length)
    (a : α) : filled ++ [a] <+: storage.set filled.length a := by
  obtain ⟨rest, rfl⟩ := hfilled
  cases rest with
  | nil => simp at hroom
  | cons b rest => exact ⟨rest, by simp⟩

/-- Writing at or beyond the end of a prefix leaves it a prefix. -/
theorem prefix_set_of_le (hfilled : filled <+: storage) {position : ℕ}
    (hposition : filled.length ≤ position) (a : α) : filled <+: storage.set position a := by
  obtain ⟨rest, rfl⟩ := hfilled
  rw [List.set_append_right position a hposition]
  exact ⟨_, rfl⟩

theorem set_filled (items : List α) {free : ℕ} (hfree : 0 < free) (a : α) :
    (items.map some ++ nulls free).set items.length (some a) =
      (items ++ [a]).map some ++ nulls (free - 1) := by
  obtain ⟨free, rfl⟩ : ∃ rest, free = rest + 1 := ⟨free - 1, by omega⟩
  simp [nulls, List.replicate_succ]

end Arrays

section Representation

variable {rmwHandle : Kind → Entity → Handle} {timerGuard : Timer → Handle}
  {c : Contents Entity Timer} {ws : WaitSet Entity Timer Handle}

theorem sizes_le_roomFor (sizes : Kind → ℕ) (timersSize : ℕ) (kind : Kind) :
    sizes kind ≤ roomFor sizes timersSize kind := by
  rw [roomFor]
  split <;> omega

theorem Holds.sized (h : Holds rmwHandle timerGuard c ws) : Sized c ws where
  entities := fun kind => by
    have hfits := h.fits kind
    rw [h.entities kind, nulls, List.length_append, List.length_map, List.length_replicate]
    omega
  room := h.room
  timers := by
    have hfits := h.timersFit
    rw [h.timers, nulls, List.length_append, List.length_map, List.length_replicate]
    omega

theorem holds_resized (sizes : Kind → ℕ) (timersSize : ℕ) :
    Holds rmwHandle timerGuard (Contents.empty sizes timersSize)
      (.resized sizes timersSize : WaitSet Entity Timer Handle) where
  fits := fun _ => Nat.zero_le _
  entities := fun _ => rfl
  index := fun _ => rfl
  count := fun _ => rfl
  room := fun _ => List.length_replicate
  stored := fun _ => List.nil_prefix
  timersFit := Nat.zero_le _
  timers := rfl
  timerIndex := rfl
  guards := List.nil_prefix

theorem holds_clear (h : Sized c ws) :
    Holds rmwHandle timerGuard (Contents.empty c.sizes c.timersSize) ws.clear where
  fits := fun _ => Nat.zero_le _
  entities := fun kind => by simp [WaitSet.clear, Slots.cleared, Contents.empty, h.entities kind]
  index := fun _ => rfl
  count := fun _ => rfl
  room := fun kind => by
    have hroom := h.room kind
    simp only [WaitSet.clear, Slots.cleared, nulls, Contents.empty, List.length_append,
      List.length_replicate, List.length_drop]
    omega
  stored := fun _ => List.nil_prefix
  timersFit := Nat.zero_le _
  timers := by simp [WaitSet.clear, Contents.empty, h.timers]
  timerIndex := rfl
  guards := List.nil_prefix

theorem holds_add (h : Holds rmwHandle timerGuard c ws) (kind : Kind) (entity : Entity) :
    Holds rmwHandle timerGuard (c.add kind entity) (ws.add rmwHandle kind entity).1 := by
  have hsize : (ws.slots kind).entities.length = c.sizes kind := h.sized.entities kind
  by_cases hfull : (c.added kind).length < c.sizes kind
  · have hadd : (ws.add rmwHandle kind entity).1 = { ws with
        slots := update ws.slots kind ((ws.slots kind).add entity (rmwHandle kind entity)) } := by
      rw [WaitSet.add, if_pos (by rw [h.index kind, hsize]; exact hfull)]
    rw [hadd, Contents.add, if_pos hfull]
    have hroom : (c.added kind).length < (ws.slots kind).storage.length :=
      hfull.trans_le ((sizes_le_roomFor c.sizes c.timersSize kind).trans (h.room kind).ge)
    constructor
    · intro other
      by_cases hother : other = kind
      · subst hother
        simpa using Nat.succ_le_of_lt hfull
      · simpa [hother] using h.fits other
    · intro other
      by_cases hother : other = kind
      · subst hother
        have hset := set_filled (c.added other) (Nat.sub_pos_of_lt hfull) entity
        simpa [Slots.add, h.entities other, h.index other, Nat.sub_sub] using hset
      · simpa [hother] using h.entities other
    · intro other
      by_cases hother : other = kind
      · subst hother
        simp [Slots.add, h.index other]
      · simpa [hother] using h.index other
    · intro other
      by_cases hother : other = kind
      · subst hother
        simp [Slots.add, h.count other]
      · simpa [hother] using h.count other
    · intro other
      by_cases hother : other = kind
      · subst hother
        simpa [Slots.add] using h.room other
      · simpa [hother] using h.room other
    · intro other
      by_cases hother : other = kind
      · subst hother
        have hset := prefix_set (h.stored other) (by simpa using hroom)
          (some (rmwHandle other entity))
        simpa [Slots.add, h.index other] using hset
      · simpa [hother] using h.stored other
    · exact h.timersFit
    · exact h.timers
    · exact h.timerIndex
    · by_cases hother : Kind.guardCondition = kind
      · subst hother
        have hdrop := List.drop_set_of_lt (l := (ws.slots .guardCondition).storage)
          (a := some (rmwHandle .guardCondition entity)) hfull
        simpa [Slots.add, h.index .guardCondition, hdrop] using h.guards
      · simpa [hother] using h.guards
  · have hadd : (ws.add rmwHandle kind entity).1 = ws := by
      rw [WaitSet.add, if_neg (by rw [h.index kind, hsize]; exact hfull)]
    rw [hadd, Contents.add, if_neg hfull]
    exact h

theorem holds_addTimer (h : Holds rmwHandle timerGuard c ws) (timer : Timer) :
    Holds rmwHandle timerGuard (c.addTimer timer) (ws.addTimer timerGuard timer).1 := by
  have hsize : ws.timers.length = c.timersSize := h.sized.timers
  have hguards : (ws.slots .guardCondition).entities.length = c.sizes .guardCondition :=
    h.sized.entities .guardCondition
  by_cases hfull : c.timers.length < c.timersSize
  · rw [WaitSet.addTimer, if_pos (by rw [h.timerIndex, hsize]; exact hfull), Contents.addTimer,
      if_pos hfull]
    have hroom : c.timers.length <
        ((ws.slots .guardCondition).storage.drop (c.sizes .guardCondition)).length := by
      rw [List.length_drop, h.room .guardCondition, roomFor, if_pos rfl]
      omega
    have hposition : (c.added .guardCondition).length ≤
        (ws.slots .guardCondition).entities.length + ws.timerIndex := by
      have hfits := h.fits .guardCondition
      omega
    constructor
    · exact h.fits
    · intro kind
      by_cases hkind : kind = .guardCondition
      · subst hkind
        simpa using h.entities .guardCondition
      · simpa [hkind] using h.entities kind
    · intro kind
      by_cases hkind : kind = .guardCondition
      · subst hkind
        simpa using h.index .guardCondition
      · simpa [hkind] using h.index kind
    · intro kind
      by_cases hkind : kind = .guardCondition
      · subst hkind
        simpa using h.count .guardCondition
      · simpa [hkind] using h.count kind
    · intro kind
      by_cases hkind : kind = .guardCondition
      · subst hkind
        simpa using h.room .guardCondition
      · simpa [hkind] using h.room kind
    · intro kind
      by_cases hkind : kind = .guardCondition
      · subst hkind
        have hset := prefix_set_of_le (h.stored .guardCondition)
          (by simpa using hposition) (some (timerGuard timer))
        simpa using hset
      · simpa [hkind] using h.stored kind
    · simpa using Nat.succ_le_of_lt hfull
    · have hset := set_filled c.timers (Nat.sub_pos_of_lt hfull) timer
      simpa [h.timers, h.timerIndex, Nat.sub_sub] using hset
    · simp [h.timerIndex]
    · have hset := prefix_set h.guards (by simpa using hroom) (some (timerGuard timer))
      have hdrop : ∀ (position : ℕ) (handle : Option Handle),
          ((ws.slots .guardCondition).storage.set
              (c.sizes .guardCondition + position) handle).drop (c.sizes .guardCondition) =
            ((ws.slots .guardCondition).storage.drop (c.sizes .guardCondition)).set
              position handle := by
        intro position handle
        rw [List.drop_set, if_neg (by omega), Nat.add_sub_cancel_left]
      simpa [hguards, h.timerIndex, hdrop] using hset
  · rw [WaitSet.addTimer, if_neg (by rw [h.timerIndex, hsize]; exact hfull), Contents.addTimer,
      if_neg hfull]
    exact h

/-! ## The loop over the timers -/

/-- The timer is not canceled when the first loop comes to it. -/
def live (before : Moments Timer) (i : ℕ) (timer : Timer) : Bool :=
  (timeUntilNextCall (before.timer i timer) (before.now i)).toOption.isSome

/-- The times until the next calls, as the first loop finds them. -/
def remaining (before : Moments Timer) (timers : List Timer) : List ℤ :=
  (timers.mapIdx fun i timer =>
    (timeUntilNextCall (before.timer i timer) (before.now i)).toOption).filterMap id

def longest (timeout : ℤ) : ℤ := if 0 < timeout then timeout else int64Max

/-- After `i` turns the guard conditions of the first `i` timers have been moved to the
others; those of the later timers are where they were. -/
structure Prepared (rmwHandle : Kind → Entity → Handle) (timerGuard : Timer → Handle)
    (c : Contents Entity Timer) (before : Moments Timer) (timeout : ℤ)
    (p : Preparation Timer Handle) (i : ℕ) : Prop where
  count : p.count = (c.added .guardCondition).length + i
  room : p.storage.length = roomFor c.sizes c.timersSize .guardCondition
  moved : ((c.added .guardCondition).map fun entity =>
      some (rmwHandle .guardCondition entity)) ++
    ((c.timers.take i).map fun timer => some (timerGuard timer)) <+: p.storage
  ahead : ((c.timers.drop i).map fun timer => some (timerGuard timer)) <+:
    p.storage.drop (c.sizes .guardCondition + i)
  timers : p.timers = ((c.timers.take i).mapIdx fun j timer =>
      if live before j timer then some timer else none) ++
    (c.timers.drop i).map some ++ nulls (c.timersSize - c.timers.length)
  minTimeout : p.minTimeout = (remaining before (c.timers.take i)).foldl min (longest timeout)
  isTimerTimeout : p.isTimerTimeout = true ↔ p.minTimeout < longest timeout

theorem remaining_concat (before : Moments Timer) (timers : List Timer) (timer : Timer) :
    remaining before (timers ++ [timer]) = remaining before timers ++
      (timeUntilNextCall (before.timer timers.length timer)
        (before.now timers.length)).toOption.toList := by
  rw [remaining, List.mapIdx_concat, List.filterMap_append, remaining]
  congr 1

theorem prepared_moveGuard {p : Preparation Timer Handle} {before : Moments Timer}
    {timeout : ℤ} {i : ℕ} (hp : Prepared rmwHandle timerGuard c before timeout p i)
    (hfits : (c.added .guardCondition).length ≤ c.sizes .guardCondition)
    (hi : i < c.timers.length) (htimersFit : c.timers.length ≤ c.timersSize) :
    moveGuard p (c.sizes .guardCondition + i) =
        { p with
          storage := p.storage.set p.count (some (timerGuard c.timers[i]))
          count := p.count + 1 } ∧
      ((c.added .guardCondition).map fun entity => some (rmwHandle .guardCondition entity)) ++
          ((c.timers.take (i + 1)).map fun timer => some (timerGuard timer)) <+:
        p.storage.set p.count (some (timerGuard c.timers[i])) ∧
      ((c.timers.drop (i + 1)).map fun timer => some (timerGuard timer)) <+:
        (p.storage.set p.count (some (timerGuard c.timers[i]))).drop
          (c.sizes .guardCondition + (i + 1)) := by
  have hahead := hp.ahead
  rw [List.drop_eq_getElem_cons hi, List.map_cons] at hahead
  obtain ⟨rest, hrest⟩ := hahead
  have hfound : p.storage[c.sizes .guardCondition + i]? = some (some (timerGuard c.timers[i])) := by
    rw [← Nat.add_zero (c.sizes .guardCondition + i), ← List.getElem?_drop, ← hrest]
    rfl
  have hlength : (((c.added .guardCondition).map fun entity =>
      some (rmwHandle .guardCondition entity)) ++
        ((c.timers.take i).map fun timer => some (timerGuard timer))).length = p.count := by
    rw [hp.count, List.length_append, List.length_map, List.length_map, List.length_take]
    omega
  refine ⟨by rw [moveGuard, hfound]; rfl, ?_, ?_⟩
  · have hroom : p.count < p.storage.length := by
      rw [hp.room, roomFor, if_pos rfl, hp.count]
      omega
    have hset := prefix_set hp.moved (by rw [hlength]; exact hroom) (some (timerGuard c.timers[i]))
    rw [hlength, List.append_assoc] at hset
    rwa [← List.take_append_getElem hi, List.map_append]
  · have hbeyond : p.storage.drop (c.sizes .guardCondition + (i + 1)) =
        (p.storage.drop (c.sizes .guardCondition + i)).drop 1 := by
      rw [List.drop_drop, Nat.add_assoc]
    rw [List.drop_set_of_lt (by rw [hp.count]; omega), hbeyond, ← hrest]
    exact ⟨rest, rfl⟩

/-- A turn of the loop. -/
theorem prepared_step {p : Preparation Timer Handle} {before : Moments Timer}
    {timeout : ℤ} {i : ℕ} (hp : Prepared rmwHandle timerGuard c before timeout p i)
    (hfits : (c.added .guardCondition).length ≤ c.sizes .guardCondition)
    (hi : i < c.timers.length) (htimersFit : c.timers.length ≤ c.timersSize) :
    Prepared rmwHandle timerGuard c before timeout
      (prepareTimer before (c.sizes .guardCondition) p i) (i + 1) := by
  obtain ⟨hmove, hmoved, hahead⟩ := prepared_moveGuard hp hfits hi htimersFit
  have htimers := hp.timers
  rw [List.drop_eq_getElem_cons hi, List.map_cons, List.append_assoc, List.cons_append] at htimers
  have htake : (c.timers.take i).length = i := List.length_take_of_le hi.le
  have hlength : ((c.timers.take i).mapIdx fun j timer =>
      if live before j timer then some timer else none).length = i := by
    rw [List.length_mapIdx, htake]
  have hfound : p.timers[i]?.join = some c.timers[i] := by
    rw [htimers, List.getElem?_append_right hlength.le, hlength, Nat.sub_self]
    rfl
  have hlive : live before i c.timers[i] =
      (timeUntilNextCall (before.timer i c.timers[i]) (before.now i)).toOption.isSome := rfl
  have hconcat := remaining_concat before (c.timers.take i) c.timers[i]
  rw [List.take_append_getElem hi, htake] at hconcat
  have hmap := List.mapIdx_concat (f := fun j timer =>
    if live before j timer then some timer else none) (l := c.timers.take i) (e := c.timers[i])
  rw [List.take_append_getElem hi, htake] at hmap
  simp only [prepareTimer, hfound, hmove]
  cases hread : timeUntilNextCall (before.timer i c.timers[i]) (before.now i) with
  | error reason =>
      rw [hread] at hlive hconcat
      have hnone : remaining before (c.timers.take (i + 1)) = remaining before (c.timers.take i) := by
        rw [hconcat]
        exact List.append_nil _
      constructor
      · simp [hp.count, Nat.add_assoc]
      · simpa using hp.room
      · exact hmoved
      · exact hahead
      · rw [hmap, hlive, htimers]
        rw [List.set_append_right _ _ hlength.le, hlength, Nat.sub_self]
        simp [Except.toOption]
      · rw [hnone]
        exact hp.minTimeout
      · exact hp.isTimerTimeout
  | ok time =>
      rw [hread] at hlive hconcat
      have hsome : remaining before (c.timers.take (i + 1)) =
          remaining before (c.timers.take i) ++ [time] := hconcat
      have hkept : p.timers = ((c.timers.take (i + 1)).mapIdx fun j timer =>
          if live before j timer then some timer else none) ++
          (c.timers.drop (i + 1)).map some ++ nulls (c.timersSize - c.timers.length) := by
        rw [hmap, hlive, htimers]
        simp [Except.toOption]
      have hmin : min p.minTimeout time =
          (remaining before (c.timers.take (i + 1))).foldl min (longest timeout) := by
        rw [hsome, List.foldl_append, ← hp.minTimeout]
        rfl
      have hlongest : p.minTimeout ≤ longest timeout := by
        rw [hp.minTimeout, List.foldl_min]
        exact min_le_left _ _
      dsimp only
      split
      · rename_i hless
        constructor
        · simp [hp.count, Nat.add_assoc]
        · simpa using hp.room
        · exact hmoved
        · exact hahead
        · exact hkept
        · rw [← hmin, min_eq_right hless.le]
        · exact iff_of_true rfl (hless.trans_le hlongest)
      · rename_i hmore
        constructor
        · simp [hp.count, Nat.add_assoc]
        · simpa using hp.room
        · exact hmoved
        · exact hahead
        · exact hkept
        · rw [← hmin, min_eq_left (not_lt.mp hmore)]
        · exact hp.isTimerTimeout

/-- The whole loop. -/
theorem prepared_prepare (h : Holds rmwHandle timerGuard c ws) (before : Moments Timer)
    (timeout : ℤ) :
    Prepared rmwHandle timerGuard c before timeout (ws.prepare before timeout)
      c.timers.length := by
  have hsize : (ws.slots .guardCondition).entities.length = c.sizes .guardCondition :=
    h.sized.entities .guardCondition
  have hturns : ∀ i ≤ c.timers.length, Prepared rmwHandle timerGuard c before timeout
      ((List.range i).foldl (prepareTimer before (c.sizes .guardCondition))
        { storage := (ws.slots .guardCondition).storage
          count := (ws.slots .guardCondition).count
          timers := ws.timers
          isTimerTimeout := false
          minTimeout := longest timeout }) i := by
    intro i
    induction i with
    | zero =>
        intro _
        exact
          { count := h.count .guardCondition
            room := h.room .guardCondition
            moved := by simpa using h.stored .guardCondition
            ahead := h.guards
            timers := by simpa using h.timers
            minTimeout := rfl
            isTimerTimeout := by simp }
    | succ i ih =>
        intro hi
        rw [List.range_succ, List.foldl_append]
        exact prepared_step (ih (Nat.le_of_succ_le hi)) (h.fits .guardCondition) hi h.timersFit
  rw [WaitSet.prepare, hsize, h.timerIndex]
  exact hturns c.timers.length le_rfl

/-! ## What a wait does -/

namespace Contents

variable (rmwHandle timerGuard c)

/-- The time that may pass before a timer has to be called, or before the wait has to end. -/
def shortest (before : Moments Timer) (timeout : ℤ) : ℤ :=
  (remaining before c.timers).foldl min (longest timeout)

/-- The guard conditions of all timers are waited on, canceled or not. -/
def call (before : Moments Timer) (timeout : ℤ) : RmwCall Handle where
  handles := fun kind => ((c.added kind).map fun entity => some (rmwHandle kind entity)) ++
    if kind = .guardCondition then c.timers.map fun timer => some (timerGuard timer) else []
  timeout := timeoutArgument timeout (c.shortest before timeout < longest timeout)
    (c.shortest before timeout)

/-- The entities that are left. -/
def left (ready : Kind → ℕ → Bool) (kind : Kind) : List (Option Entity) :=
  ((c.added kind).mapIdx fun i entity => if ready kind i then some entity else none) ++
    nulls (c.sizes kind - (c.added kind).length)

/-- The timers that are left. -/
def due (before after : Moments Timer) : List (Option Timer) :=
  (c.timers.mapIdx fun i timer =>
    if live before i timer ∧ isReady (after.timer i timer) (after.now i) = true then some timer
    else none) ++ nulls (c.timersSize - c.timers.length)

end Contents

theorem mapIdx_nulls {α : Type*} {f : ℕ → Option α → Option α} (hf : ∀ i, f i none = none)
    (free : ℕ) : (nulls free).mapIdx f = nulls free := by
  apply List.ext_getElem?
  intro i
  by_cases hi : i < free <;> simp [nulls, hi, hf]

theorem keepStored_keepReady {entities : List Entity} {handle : Entity → Handle}
    {storage : List (Option Handle)}
    (hstored : (entities.map fun entity => some (handle entity)) <+: storage) {count : ℕ}
    (hcount : entities.length ≤ count) (ready : ℕ → Bool) (free : ℕ) :
    keepStored (keepReady ready count storage) (entities.map some ++ nulls free) =
      (entities.mapIdx fun i entity => if ready i then some entity else none) ++ nulls free := by
  obtain ⟨rest, rfl⟩ := hstored
  rw [keepStored, List.mapIdx_append]
  congr 1
  · apply List.ext_getElem?
    intro i
    by_cases hi : i < entities.length
    · have hbefore : i < count := hi.trans_le hcount
      have hstored : (entities.map (fun entity => some (handle entity)) ++ rest)[i]? =
          some (some (handle entities[i])) := by
        rw [List.getElem?_append_left (by simpa using hi)]
        simp [hi]
      cases hready : ready i <;>
        simp [keepReady, List.getElem?_mapIdx, hi, hready, hbefore, hstored]
    · simp [hi]
  · apply mapIdx_nulls
    simp

theorem keepDue_live {timers : List Timer} (before after : Moments Timer) (free : ℕ) :
    keepDue after ((timers.mapIdx fun i timer =>
        if live before i timer then some timer else none) ++ nulls free) =
      (timers.mapIdx fun i timer =>
        if live before i timer ∧ isReady (after.timer i timer) (after.now i) = true then
          some timer else none) ++ nulls free := by
  rw [keepDue, List.mapIdx_append]
  congr 1
  · rw [List.mapIdx_mapIdx]
    apply List.mapIdx_eq_mapIdx_iff.mpr
    intro i hi
    cases hlive : live before i timers[i] <;>
      cases hready : isReady (after.timer i timers[i]) (after.now i) <;>
        simp [hlive, hready]
  · apply mapIdx_nulls
    simp

theorem passed_handles {filled storage : List (Option Handle)} (hfilled : filled <+: storage)
    {count : ℕ} (hcount : filled.length = count) : storage.take count = filled := by
  rw [← hcount]
  exact (List.prefix_iff_eq_take.mp hfilled).symm

/-- A wait of a wait set that holds contents. -/
theorem rclWait_of_holds (h : Holds rmwHandle timerGuard c ws) (hroom : ¬ ws.isEmpty)
    (before after : Moments Timer) (ready : Kind → ℕ → Bool) (timedOut : Bool) (timeout : ℤ) :
    ∃ settled, ws.rclWait before after (.waited ready timedOut) timeout =
        (settled, some (c.call rmwHandle timerGuard before timeout),
          if timedOut = true ∧ longest timeout ≤ c.shortest before timeout then .timeout
          else .ok) ∧
      (∀ kind, (settled.slots kind).entities = c.left ready kind) ∧
      settled.timers = c.due before after := by
  have hp := prepared_prepare h before timeout
  have hmoved := hp.moved
  have htimers := hp.timers
  have hmin := hp.minTimeout
  have hcount : (((c.added .guardCondition).map fun entity =>
      some (rmwHandle .guardCondition entity)) ++
        (c.timers.map fun timer => some (timerGuard timer))).length =
      (ws.prepare before timeout).count := by
    rw [hp.count, List.length_append, List.length_map, List.length_map]
  rw [List.take_length] at hmoved htimers hmin
  rw [List.drop_length, List.map_nil, List.append_nil] at htimers
  have hflag : (ws.prepare before timeout).isTimerTimeout =
      decide (c.shortest before timeout < longest timeout) := by
    rw [Bool.eq_iff_iff, hp.isTimerTimeout, hmin, decide_eq_true_iff]
    rfl
  rw [WaitSet.rclWait, if_neg hroom]
  refine ⟨_, Prod.ext rfl (Prod.ext (congrArg some ?_) ?_), fun kind => ?_, ?_⟩
  · rw [hflag, hmin]
    refine congrArg₂ RmwCall.mk (funext fun kind => ?_) rfl
    by_cases hkind : kind = .guardCondition
    · subst hkind
      simpa [WaitSet.prepared] using passed_handles hmoved hcount
    · simpa [WaitSet.prepared, hkind] using
        passed_handles (h.stored kind) (by rw [List.length_map, h.count kind])
  · simp only [WaitSet.settle, hflag, decide_eq_false_iff_not, not_lt]
  · by_cases hkind : kind = .guardCondition
    · subst hkind
      have hless : (c.added .guardCondition).length ≤ (ws.prepare before timeout).count := by
        rw [hp.count]
        exact Nat.le_add_right _ _
      have hkept := keepStored_keepReady ((List.prefix_append _ _).trans hmoved) hless
        (ready .guardCondition) (c.sizes .guardCondition - (c.added .guardCondition).length)
      simpa [WaitSet.settle, WaitSet.prepared, h.entities .guardCondition, Contents.left]
        using hkept
    · have hkept := keepStored_keepReady (h.stored kind) (h.count kind).ge (ready kind)
        (c.sizes kind - (c.added kind).length)
      simpa [WaitSet.settle, WaitSet.prepared, hkind, h.entities kind, Contents.left] using hkept
  · simpa [WaitSet.settle, WaitSet.prepared, htimers, Contents.due] using
      keepDue_live before after _

/-! ## Every sequence of operations -/

theorem length_prepareTimer (before : Moments Timer) (guardsSize : ℕ)
    (p : Preparation Timer Handle) (i : ℕ) :
    (prepareTimer before guardsSize p i).storage.length = p.storage.length ∧
      (prepareTimer before guardsSize p i).timers.length = p.timers.length := by
  have hmove : ∀ position, (moveGuard p position).storage.length = p.storage.length ∧
      (moveGuard p position).timers = p.timers := by
    intro position
    rw [moveGuard]
    split
    · exact ⟨rfl, rfl⟩
    · exact ⟨List.length_set, rfl⟩
  obtain ⟨hstorage, htimers⟩ := hmove (guardsSize + i)
  rw [prepareTimer]
  split
  · exact ⟨rfl, rfl⟩
  · dsimp only
    split
    · exact ⟨hstorage, by rw [List.length_set, htimers]⟩
    · split
      · exact ⟨hstorage, by rw [htimers]⟩
      · exact ⟨hstorage, by rw [htimers]⟩

theorem length_prepare (ws : WaitSet Entity Timer Handle) (before : Moments Timer)
    (timeout : ℤ) :
    (ws.prepare before timeout).storage.length = (ws.slots .guardCondition).storage.length ∧
      (ws.prepare before timeout).timers.length = ws.timers.length := by
  have hturns : ∀ (guardsSize : ℕ) (turns : List ℕ) (p : Preparation Timer Handle),
      (turns.foldl (prepareTimer before guardsSize) p).storage.length = p.storage.length ∧
        (turns.foldl (prepareTimer before guardsSize) p).timers.length = p.timers.length := by
    intro guardsSize turns
    induction turns with
    | nil => exact fun p => ⟨rfl, rfl⟩
    | cons i turns ih =>
        intro p
        obtain ⟨hstorage, htimers⟩ := length_prepareTimer before guardsSize p i
        obtain ⟨hstorages, htimerss⟩ := ih (prepareTimer before guardsSize p i)
        exact ⟨hstorages.trans hstorage, htimerss.trans htimers⟩
  exact hturns _ _ _

theorem sized_rclWait (h : Sized c ws) (before after : Moments Timer) (outcome : Outcome)
    (timeout : ℤ) : Sized c (ws.rclWait before after outcome timeout).1 := by
  rw [WaitSet.rclWait]
  split
  · exact h
  obtain ⟨hstorage, htimers⟩ := length_prepare ws before timeout
  have hprepared : Sized c (ws.prepared (ws.prepare before timeout)) := by
    constructor
    · intro kind
      by_cases hkind : kind = .guardCondition
      · subst hkind
        simpa [WaitSet.prepared] using h.entities .guardCondition
      · simpa [WaitSet.prepared, hkind] using h.entities kind
    · intro kind
      by_cases hkind : kind = .guardCondition
      · subst hkind
        simpa [WaitSet.prepared, hstorage] using h.room .guardCondition
      · simpa [WaitSet.prepared, hkind] using h.room kind
    · exact htimers.trans h.timers
  cases outcome with
  | failed =>
      exact ⟨hprepared.entities, hprepared.room, List.length_mapIdx.trans hprepared.timers⟩
  | waited ready timedOut =>
      exact ⟨fun kind => List.length_mapIdx.trans (hprepared.entities kind),
        fun kind => List.length_mapIdx.trans (hprepared.room kind),
        List.length_mapIdx.trans hprepared.timers⟩

theorem sized_add (h : Sized c ws) (kind : Kind) (entity : Entity) :
    Sized c (ws.add rmwHandle kind entity).1 := by
  rw [WaitSet.add]
  split
  · constructor
    · intro other
      by_cases hother : other = kind
      · subst hother
        simpa [Slots.add] using h.entities other
      · simpa [hother] using h.entities other
    · intro other
      by_cases hother : other = kind
      · subst hother
        simpa [Slots.add] using h.room other
      · simpa [hother] using h.room other
    · exact h.timers
  · exact h

theorem sized_addTimer (h : Sized c ws) (timer : Timer) :
    Sized c (ws.addTimer timerGuard timer).1 := by
  rw [WaitSet.addTimer]
  split
  · constructor
    · intro kind
      by_cases hkind : kind = .guardCondition
      · subst hkind
        simpa using h.entities .guardCondition
      · simpa [hkind] using h.entities kind
    · intro kind
      by_cases hkind : kind = .guardCondition
      · subst hkind
        simpa using h.room .guardCondition
      · simpa [hkind] using h.room kind
    · simpa using h.timers
  · exact h

/-- A wait set that has been waited on holds nothing definite but its sizes. -/
def Tracks (rmwHandle : Kind → Entity → Handle) (timerGuard : Timer → Handle)
    (state : Contents Entity Timer × Bool) (ws : WaitSet Entity Timer Handle) : Prop :=
  if state.2 then Sized state.1 ws else Holds rmwHandle timerGuard state.1 ws

theorem Tracks.sized {state : Contents Entity Timer × Bool}
    (h : Tracks rmwHandle timerGuard state ws) : Sized state.1 ws := by
  rw [Tracks] at h
  split at h
  · exact h
  · exact h.sized

theorem tracks_perform {state : Contents Entity Timer × Bool}
    (h : Tracks rmwHandle timerGuard state ws) (label : WaitSetLabel Entity Timer) :
    Tracks rmwHandle timerGuard (Contents.next state label)
      (ws.perform rmwHandle timerGuard label) := by
  obtain ⟨c, used⟩ := state
  cases label with
  | resize sizes timersSize => exact holds_resized sizes timersSize
  | clear => exact holds_clear h.sized
  | wait before after outcome timeout => exact sized_rclWait h.sized before after outcome timeout
  | add kind entity =>
      cases used with
      | true => exact sized_add h kind entity
      | false => exact holds_add h kind entity
  | addTimer timer =>
      cases used with
      | true => exact sized_addTimer h timer
      | false => exact holds_addTimer h timer

/-- What the labels of a run make of the contents of a wait set. -/
def contentsAfter (sizes : Kind → ℕ) (timersSize : ℕ)
    (labels : List (WaitSetLabel Entity Timer)) : Contents Entity Timer × Bool :=
  labels.foldl Contents.next (.empty sizes timersSize, false)

theorem tracks_run {ws' : WaitSet Entity Timer Handle}
    {trace : List (Move (WaitSet Entity Timer Handle) (WaitSetLabel Entity Timer))}
    {state : Contents Entity Timer × Bool}
    (hrun : Run (WaitSetStep rmwHandle timerGuard) ws trace ws')
    (h : Tracks rmwHandle timerGuard state ws) :
    Tracks rmwHandle timerGuard ((trace.map Move.label).foldl Contents.next state) ws' := by
  induction hrun generalizing state with
  | nil _ => exact h
  | @cons start middle finish label trace hstep _ ih =>
      obtain rfl : middle = start.perform rmwHandle timerGuard label := hstep
      exact ih (tracks_perform h label)

theorem not_isEmpty_of_sized (h : Sized c ws)
    (hroom : (∃ kind, 0 < c.sizes kind) ∨ 0 < c.timersSize) : ¬ ws.isEmpty := by
  rintro ⟨hentities, htimers⟩
  rcases hroom with ⟨kind, hpositive⟩ | hpositive
  · rw [← h.entities kind, hentities kind] at hpositive
    exact lt_irrefl _ hpositive
  · rw [← h.timers, htimers] at hpositive
    exact lt_irrefl _ hpositive

/-- However a wait set has been resized, cleared, filled and waited on before: if it has
been cleared since it was last waited on, a wait passes to the middleware exactly what was
added since, and leaves exactly what is ready of it. -/
theorem wait_serves_contents {sizes : Kind → ℕ} {timersSize : ℕ}
    {trace : List (Move (WaitSet Entity Timer Handle) (WaitSetLabel Entity Timer))}
    (hrun : Run (WaitSetStep rmwHandle timerGuard) (.resized sizes timersSize) trace ws)
    (hfresh : contentsAfter sizes timersSize (trace.map Move.label) = (c, false))
    (hroom : (∃ kind, 0 < c.sizes kind) ∨ 0 < c.timersSize) (before after : Moments Timer)
    (ready : Kind → ℕ → Bool) (timedOut : Bool) (timeout : ℤ) :
    ∃ settled, ws.rclWait before after (.waited ready timedOut) timeout =
        (settled, some (c.call rmwHandle timerGuard before timeout),
          if timedOut = true ∧ longest timeout ≤ c.shortest before timeout then .timeout
          else .ok) ∧
      (∀ kind, (settled.slots kind).entities = c.left ready kind) ∧
      settled.timers = c.due before after := by
  have hstart : Tracks rmwHandle timerGuard (Contents.empty sizes timersSize, false)
      (.resized sizes timersSize : WaitSet Entity Timer Handle) := holds_resized sizes timersSize
  have htracks := tracks_run hrun hstart
  rw [← contentsAfter, hfresh] at htracks
  have hholds : Holds rmwHandle timerGuard c ws := htracks
  exact rclWait_of_holds hholds (not_isEmpty_of_sized hholds.sized hroom) before after ready
    timedOut timeout

/-! ## Deadlines -/

theorem foldl_min_isLeast (times : List ℤ) (start : ℤ) :
    IsLeast {time | time = start ∨ time ∈ times} (times.foldl min start) := by
  induction times generalizing start with
  | nil => exact ⟨.inl rfl, by rintro time (rfl | hmem); exacts [le_rfl, by cases hmem]⟩
  | cons first times ih =>
      obtain ⟨hmem, hleast⟩ := ih (min start first)
      rw [List.foldl_cons]
      have hbound : times.foldl min (min start first) ≤ min start first := hleast (.inl rfl)
      constructor
      · rcases hmem with hstart | hmem
        · rcases min_choice start first with hmin | hmin
          · exact .inl (hstart.trans hmin)
          · exact .inr (List.mem_cons.mpr (.inl (hstart.trans hmin)))
        · exact .inr (List.mem_cons_of_mem _ hmem)
      · rintro time (rfl | hmem)
        · exact hbound.trans (min_le_left _ _)
        · rcases List.mem_cons.mp hmem with rfl | hmem
          · exact hbound.trans (min_le_right _ _)
          · exact hleast (.inr hmem)

theorem mem_remaining_iff {before : Moments Timer} {timers : List Timer} {time : ℤ} :
    time ∈ remaining before timers ↔ ∃ i timer, timers[i]? = some timer ∧
      timeUntilNextCall (before.timer i timer) (before.now i) = .ok time := by
  rw [remaining, List.mem_filterMap]
  constructor
  · rintro ⟨read, hmem, hread⟩
    obtain ⟨i, hi, rfl⟩ := List.mem_iff_getElem.mp hmem
    rw [List.length_mapIdx] at hi
    refine ⟨i, timers[i], List.getElem?_eq_getElem hi, ?_⟩
    rw [List.getElem_mapIdx, id_eq] at hread
    cases hcall : timeUntilNextCall (before.timer i timers[i]) (before.now i) with
    | error reason =>
        rw [hcall] at hread
        cases hread
    | ok read =>
        rw [hcall] at hread
        exact congrArg Except.ok (Option.some.inj hread)
  · rintro ⟨i, timer, htimer, hread⟩
    refine ⟨some time, List.mem_iff_getElem?.mpr ⟨i, ?_⟩, rfl⟩
    rw [List.getElem?_mapIdx, htimer, Option.map_some, hread]
    rfl

/-- The middleware waits from `start` to `finish`, and only says that the time was up when
it was. -/
structure Elapses (before after : Moments Timer) (timeout : Option ℤ) (timedOut : Bool)
    (start finish : ℤ) : Prop where
  starts : ∀ i, before.now i ≤ start
  finishes : ∀ i, finish ≤ after.now i
  timedOut : timedOut = true → ∀ time, timeout = some time → start + time ≤ finish

theorem Contents.shortest_isLeast (c : Contents Entity Timer) (before : Moments Timer)
    (timeout : ℤ) :
    IsLeast {time | time = longest timeout ∨ time ∈ remaining before c.timers}
      (c.shortest before timeout) :=
  foldl_min_isLeast _ _

/-- A wait never goes on for longer than it takes until a timer is due. -/
theorem call_timeout_le (before : Moments Timer) (timeout : ℤ) {time : ℤ}
    (htime : time ∈ remaining before c.timers) (hbound : time < int64Max) :
    ∃ wait, (c.call rmwHandle timerGuard before timeout).timeout = some wait ∧
      wait ≤ max time 0 := by
  obtain ⟨-, hleast⟩ := c.shortest_isLeast before timeout
  have hshortest : c.shortest before timeout ≤ time := hleast (.inr htime)
  rw [Contents.call, timeoutArgument]
  split
  · exact ⟨0, rfl, le_max_right _ _⟩
  · have hshorter : 0 < timeout ∨ decide (c.shortest before timeout < longest timeout) = true := by
      rcases lt_or_ge 0 timeout with hpositive | hnegative
      · exact .inl hpositive
      · refine .inr (decide_eq_true ?_)
        rw [longest, if_neg (not_lt.mpr hnegative)]
        exact hshortest.trans_lt hbound
    rw [if_pos hshorter]
    exact ⟨_, rfl, max_le_max_right 0 hshortest⟩

/-- A wait that is cut short for a timer and is not ended by anything else ends when the
timer is due. -/
theorem due_of_timedOut {before after : Moments Timer} {timeout start finish : ℤ}
    (helapses : Elapses before after
      (c.call rmwHandle timerGuard before timeout).timeout true start finish)
    (hkept : ∀ i timer, c.timers[i]? = some timer → after.timer i timer = before.timer i timer)
    (hblocking : timeout ≠ 0) (hshort : c.shortest before timeout < longest timeout) :
    ∃ (i : ℕ) (timer : Timer), (c.due before after)[i]? = some (some timer) := by
  have htime : c.shortest before timeout ∈ remaining before c.timers :=
    (c.shortest_isLeast before timeout).1.resolve_left hshort.ne
  obtain ⟨i, timer, htimer, hread⟩ := mem_remaining_iff.mp htime
  have hcall : (c.call rmwHandle timerGuard before timeout).timeout =
      some (max (c.shortest before timeout) 0) := by
    rw [Contents.call, timeoutArgument, if_neg hblocking, if_pos (.inr (decide_eq_true hshort))]
  have hfinish : before.now i + c.shortest before timeout ≤ after.now i := by
    have hlasts := helapses.timedOut rfl _ hcall
    linarith [helapses.starts i, helapses.finishes i, le_max_left (c.shortest before timeout) 0]
  have hcanceled : (before.timer i timer).canceled = false := by
    by_contra hcanceled
    rw [timeUntilNextCall, if_pos (by simpa using hcanceled)] at hread
    cases hread
  have hnext : (before.timer i timer).nextCallTime - before.now i = c.shortest before timeout := by
    rw [timeUntilNextCall, if_neg (by simp [hcanceled])] at hread
    exact Except.ok.inj hread
  have hlive : live before i timer = true := by
    rw [live, hread]
    rfl
  have hready : isReady (after.timer i timer) (after.now i) = true := by
    rw [isReady, hkept i timer htimer, timeUntilNextCall, if_neg (by simp [hcanceled])]
    exact decide_eq_true (by linarith)
  refine ⟨i, timer, ?_⟩
  have hi : i < c.timers.length := (List.getElem?_eq_some_iff.mp htimer).1
  rw [Contents.due, List.getElem?_append_left (by rwa [List.length_mapIdx]), List.getElem?_mapIdx,
    htimer, Option.map_some, if_pos ⟨hlive, hready⟩]

/-- The middleware is not to wait for longer than until the first timer that is not canceled
is due, and the caller is told of a timeout exactly if the time was up and no timer had
shortened the wait.  So if the time was up, the caller is not told and the timers were left
alone, a timer is handed out, unless the caller did not want to wait at all. -/
theorem wait_meets_deadlines {sizes : Kind → ℕ} {timersSize : ℕ}
    {trace : List (Move (WaitSet Entity Timer Handle) (WaitSetLabel Entity Timer))}
    (hrun : Run (WaitSetStep rmwHandle timerGuard) (.resized sizes timersSize) trace ws)
    (hfresh : contentsAfter sizes timersSize (trace.map Move.label) = (c, false))
    (hroom : (∃ kind, 0 < c.sizes kind) ∨ 0 < c.timersSize) (before after : Moments Timer)
    (ready : Kind → ℕ → Bool) (timedOut : Bool) (timeout : ℤ) :
    ∃ settled call result, ws.rclWait before after (.waited ready timedOut) timeout =
        (settled, some call, result) ∧
      (∀ time ∈ remaining before c.timers, time < int64Max →
        ∃ wait, call.timeout = some wait ∧ wait ≤ max time 0) ∧
      (result = .timeout ↔
        timedOut = true ∧ ∀ time ∈ remaining before c.timers, longest timeout ≤ time) ∧
      (timedOut = true → result ≠ .timeout → timeout ≠ 0 →
        ∀ start finish, Elapses before after call.timeout timedOut start finish →
          (∀ i timer, c.timers[i]? = some timer →
            after.timer i timer = before.timer i timer) →
          ∃ (i : ℕ) (timer : Timer), settled.timers[i]? = some (some timer)) := by
  obtain ⟨settled, hwait, -, htimers⟩ :=
    wait_serves_contents hrun hfresh hroom before after ready timedOut timeout
  obtain ⟨hmem, hleast⟩ := c.shortest_isLeast before timeout
  refine ⟨settled, _, _, hwait, fun time htime => call_timeout_le before timeout htime, ?_, ?_⟩
  · have hlongest : longest timeout ≤ c.shortest before timeout ↔
        ∀ time ∈ remaining before c.timers, longest timeout ≤ time := by
      constructor
      · exact fun hle time htime => hle.trans (hleast (.inr htime))
      · intro hall
        rcases hmem with heq | hmem
        · exact heq.ge
        · exact hall _ hmem
    rw [← hlongest]
    split <;> simp_all
  · rintro rfl huntold hblocking start finish helapses hkept
    have hshort : c.shortest before timeout < longest timeout := by
      by_contra hlong
      exact huntold (if_pos ⟨rfl, not_lt.mp hlong⟩)
    rw [htimers]
    exact due_of_timedOut helapses hkept hblocking hshort

end Representation

/-! ## A wait set that is used twice -/

section Example

/-- Timer 0 is due at 30, and timer 1 is canceled. -/
def twoTimers (now : ℤ) : Moments ℕ where
  timer := fun _ timer => ⟨false, 10, 20, 30, 0, timer = 1, 0⟩
  now := fun _ => now

def waitedTwice : List (WaitSetLabel ℕ ℕ) :=
  [.add .guardCondition 7, .addTimer 0, .addTimer 1,
    .wait (twoTimers 25) (twoTimers 25) (.waited (fun _ _ => true) false) 0, .clear,
    .addTimer 1, .add .guardCondition 8, .addTimer 0]

abbrev UsedStep : WaitSet ℕ ℕ ℕ → WaitSetLabel ℕ ℕ → WaitSet ℕ ℕ ℕ → Prop :=
  WaitSetStep (fun _ entity => entity) (fun timer => 100 + timer)

def oneGuard (kind : Kind) : ℕ := if kind = .guardCondition then 2 else 0

def secondFilling : Contents ℕ ℕ := (contentsAfter oneGuard 2 waitedTwice).1

theorem used_twice : ∃ (trace : List (Move (WaitSet ℕ ℕ ℕ) (WaitSetLabel ℕ ℕ)))
    (ws : WaitSet ℕ ℕ ℕ), Run UsedStep (.resized oneGuard 2) trace ws ∧
      contentsAfter oneGuard 2 (trace.map Move.label) = (secondFilling, false) := by
  obtain ⟨trace, ws, hrun, hlabels⟩ : ∃ (trace : List (Move (WaitSet ℕ ℕ ℕ)
      (WaitSetLabel ℕ ℕ))) (ws : WaitSet ℕ ℕ ℕ), Run UsedStep (.resized oneGuard 2) trace ws ∧
        trace.map Move.label = waitedTwice :=
    ⟨_, _, .cons rfl <| .cons rfl <| .cons rfl <| .cons rfl <| .cons rfl <| .cons rfl <|
      .cons rfl <| .cons rfl <| .nil _, rfl⟩
  exact ⟨trace, ws, hrun, by rw [hlabels]; rfl⟩

/-- The room that is left between the guard conditions and those of the timers is closed,
and nothing of the first wait is left. -/
theorem used_twice_serves : ∃ (ws settled : WaitSet ℕ ℕ ℕ) (call : RmwCall ℕ),
    ws.rclWait (twoTimers 25) (twoTimers 30) (.waited (fun _ _ => false) true) 50 =
        (settled, some call, .ok) ∧
      call.handles .guardCondition = [some 8, some 101, some 100] ∧ call.timeout = some 5 ∧
      settled.timers = [none, some 0] := by
  obtain ⟨trace, ws, hrun, hfresh⟩ := used_twice
  obtain ⟨settled, hwait, -, htimers⟩ := wait_serves_contents hrun hfresh (.inr Nat.two_pos)
    (twoTimers 25) (twoTimers 30) (fun _ _ => false) true 50
  exact ⟨ws, settled, _, hwait, by decide, by decide, htimers.trans (by decide)⟩

/-- The wait for timer 0 takes until the timer is due, and then the timer is handed out. -/
theorem used_twice_in_time : ∃ (ws settled : WaitSet ℕ ℕ ℕ) (call : RmwCall ℕ)
    (result : WaitResult),
    ws.rclWait (twoTimers 25) (twoTimers 30) (.waited (fun _ _ => false) true) 50 =
        (settled, some call, result) ∧
      (∃ wait, call.timeout = some wait ∧ wait ≤ 5) ∧ result ≠ .timeout ∧
      ∃ i timer : ℕ, settled.timers[i]? = some (some timer) := by
  obtain ⟨trace, ws, hrun, hfresh⟩ := used_twice
  have hmem : (5 : ℤ) ∈ remaining (twoTimers 25) secondFilling.timers := by decide
  obtain ⟨settled, call, result, hwait, hdeadline, htimeout, hhanded⟩ :=
    wait_meets_deadlines hrun hfresh (.inr Nat.two_pos) (twoTimers 25) (twoTimers 30)
      (fun _ _ => false) true 50
  obtain ⟨wait, hcall, hshort⟩ := hdeadline 5 hmem (by decide)
  have huntold : result ≠ .timeout := fun htold =>
    absurd ((htimeout.mp htold).2 5 hmem) (by decide)
  have helapses : Elapses (twoTimers 25) (twoTimers 30) call.timeout true 25 30 := by
    refine ⟨fun _ => le_rfl, fun _ => le_rfl, fun _ time htime => ?_⟩
    obtain rfl : wait = time := Option.some.inj (hcall.symm.trans htime)
    have hwithin : wait ≤ 5 := hshort
    omega
  have htimer := hhanded rfl huntold (by decide) 25 30 helapses fun _ _ _ => rfl
  exact ⟨ws, settled, call, result, hwait, ⟨wait, hcall, hshort⟩, huntold, htimer⟩

end Example

end RosRtems.RclWait
