import Mathlib.Logic.Function.Basic

/-!
# Event sets

The events pending on a task form a set: sending an event that is already pending
changes nothing, and a receive that finds the event takes it out.
-/

namespace RosRtems.EventSet

variable {Event : Type*} [DecidableEq Event]

/-- The events pending on a task. -/
structure Events (Event : Type*) where
  pending : Event → Bool

omit [DecidableEq Event] in
@[ext]
theorem Events.ext {first second : Events Event}
    (hpending : ∀ event, first.pending event = second.pending event) :
    first = second := by
  cases first
  cases second
  congr
  funext event
  exact hpending event

def noEvents : Events Event := ⟨fun _ => false⟩

/-- `rtems_event_send`. -/
def send (event : Event) (events : Events Event) : Events Event :=
  ⟨Function.update events.pending event true⟩

/-- `rtems_event_receive` of one event; `none` where the caller blocks. -/
def receive (event : Event) (events : Events Event) : Option (Events Event) :=
  if events.pending event then
    some ⟨Function.update events.pending event false⟩
  else none

omit [DecidableEq Event] in
@[simp]
theorem noEvents_pending (event : Event) : noEvents.pending event = false := rfl

@[simp]
theorem send_pending (event : Event) (events : Events Event) :
    (send event events).pending event = true := by
  simp [send]

theorem receive_eq_some_iff {event : Event} {events rest : Events Event} :
    receive event events = some rest ↔
      events.pending event = true ∧ rest.pending event = false ∧
        ∀ other, other ≠ event → rest.pending other = events.pending other := by
  rw [receive]
  constructor
  · split
    · rename_i hpending
      rintro ⟨⟩
      exact ⟨hpending, by simp, fun other hother => by simp [hother]⟩
    · simp
  · rintro ⟨hpending, hcleared, hothers⟩
    rw [if_pos hpending, Option.some.injEq]
    ext other
    by_cases hother : other = event
    · subst hother
      simp [hcleared]
    · simp [hother, hothers other hother]

/-- The caller blocks exactly when the event is not pending. -/
theorem receive_eq_none_iff {event : Event} {events : Events Event} :
    receive event events = none ↔ events.pending event = false := by
  simp [receive]

end RosRtems.EventSet
