import RosRtems.Core.KeepLast
import RosRtems.Core.Runs

/-!
# Keep-last mailboxes

Each mailbox is a keep-last queue.  Items arrive in any number of mailboxes at once, and
are taken from one mailbox at a time.  What is taken from a mailbox was put into it, in
that order and once.  Nothing is lost exactly if no item arrives in a full mailbox.
-/

namespace RosRtems.Mailboxes

open RosRtems.KeepLast RosRtems.Runs

variable {Box Item : Type*}

inductive Event (Box Item : Type*)
  | arrive (items : Box → List Item)
  | take (box : Box) (item : Option Item)

/-- A take of an empty mailbox yields nothing. -/
inductive MailStep [DecidableEq Box] (capacity : Box → ℕ) :
    (Box → List Item) → Event Box Item → (Box → List Item) → Prop
  | arrive (boxes : Box → List Item) (items : Box → List Item) :
      MailStep capacity boxes (.arrive items)
        (fun box => (items box).foldl (push (capacity box)) (boxes box))
  | take (boxes : Box → List Item) (box : Box) :
      MailStep capacity boxes (.take box (boxes box).head?)
        (Function.update boxes box (boxes box).tail)

def Event.arrived (box : Box) : Event Box Item → List Item
  | .arrive items => items box
  | .take _ _ => []

def Event.taken [DecidableEq Box] (box : Box) : Event Box Item → List Item
  | .arrive _ => []
  | .take other item => if other = box then item.toList else []

def arrived (box : Box) (events : List (Event Box Item)) : List Item :=
  events.flatMap (Event.arrived box)

def taken [DecidableEq Box] (box : Box) (events : List (Event Box Item)) : List Item :=
  events.flatMap (Event.taken box)

/-- What arrives in the mailbox finds room. -/
def HasRoom (capacity : Box → ℕ) (box : Box) (boxes : Box → List Item)
    (event : Event Box Item) : Prop :=
  (boxes box).length + (event.arrived box).length ≤ capacity box

section Push

variable {capacity : ℕ} {queue items : List Item}

theorem foldl_push_sublist :
    (items.foldl (push capacity) queue).Sublist (queue ++ items) := by
  induction items generalizing queue with
  | nil => simp
  | cons item items ih =>
      have hfirst := (push_sublist capacity queue item).append (List.Sublist.refl items)
      rw [List.foldl_cons]
      simpa using ih.trans hfirst

theorem foldl_push_of_room (hroom : queue.length + items.length ≤ capacity) :
    items.foldl (push capacity) queue = queue ++ items := by
  induction items generalizing queue with
  | nil => simp
  | cons item items ih =>
      rw [List.length_cons] at hroom
      have hpush : push capacity queue item = queue ++ [item] := if_pos (by omega)
      have hrest : (queue ++ [item]).length + items.length ≤ capacity := by
        rw [List.length_append, List.length_singleton]
        omega
      rw [List.foldl_cons, hpush, ih hrest, List.append_assoc, List.singleton_append]

theorem length_foldl_push_le (hcapacity : 0 < capacity) (hqueue : queue.length ≤ capacity) :
    (items.foldl (push capacity) queue).length ≤ capacity := by
  induction items generalizing queue with
  | nil => exact hqueue
  | cons item items ih =>
      apply ih
      rw [push]
      split
      · simpa using by omega
      · rw [List.length_append, List.length_tail, List.length_singleton]
        omega

end Push

section Runs

variable [DecidableEq Box] {capacity : Box → ℕ} {start middle finish : Box → List Item}
  {event : Event Box Item} {moves : List (Move (Box → List Item) (Event Box Item))}
  {box : Box}

theorem MailStep.sublist (hstep : MailStep capacity start event middle) (box : Box) :
    (event.taken box ++ middle box).Sublist (start box ++ event.arrived box) := by
  cases hstep with
  | arrive items => simpa [Event.taken, Event.arrived] using foldl_push_sublist
  | take other =>
      by_cases hsame : other = box
      · subst hsame
        cases hqueue : start other with
        | nil => simp [Event.taken, Event.arrived]
        | cons item rest => simp [Event.taken, Event.arrived]
      · simp [Event.taken, Event.arrived, hsame, Function.update_of_ne (Ne.symm hsame)]

theorem MailStep.length_le (hstep : MailStep capacity start event middle)
    (hcapacity : 0 < capacity box) (hstart : (start box).length ≤ capacity box) :
    (middle box).length ≤ capacity box := by
  cases hstep with
  | arrive items => exact length_foldl_push_le hcapacity hstart
  | take other =>
      by_cases hsame : other = box
      · subst hsame
        simpa using by omega
      · simpa [Function.update_of_ne (Ne.symm hsame)] using hstart

theorem MailStep.kept (hstep : MailStep capacity start event middle)
    (hroom : HasRoom capacity box start event) :
    event.taken box ++ middle box = start box ++ event.arrived box := by
  cases hstep with
  | arrive items => simpa [Event.taken, Event.arrived] using foldl_push_of_room hroom
  | take other =>
      by_cases hsame : other = box
      · subst hsame
        cases hqueue : start other with
        | nil => simp [Event.taken, Event.arrived]
        | cons item rest => simp [Event.taken, Event.arrived]
      · simp [Event.taken, Event.arrived, hsame, Function.update_of_ne (Ne.symm hsame)]

/-- What a mailbox gave away and still has are items that it had or that arrived, in this
order. -/
theorem taken_sublist (hrun : Run (MailStep capacity) start moves finish) (box : Box) :
    (taken box (moves.map Move.label) ++ finish box).Sublist
      (start box ++ arrived box (moves.map Move.label)) := by
  induction hrun with
  | nil _ => simp [taken, arrived]
  | @cons start middle finish event moves hstep _ ih =>
      have hrest := (List.Sublist.refl (event.taken box)).append ih
      have hfirst := (hstep.sublist box).append
        (List.Sublist.refl (arrived box (moves.map Move.label)))
      rw [List.append_assoc] at hfirst
      simpa [taken, arrived] using hrest.trans hfirst

/-- Nothing that arrives in a mailbox is lost exactly if all of it finds room. -/
theorem lossless_iff (hrun : Run (MailStep capacity) start moves finish) {box : Box}
    (hcapacity : 0 < capacity box) (hstart : (start box).length ≤ capacity box) :
    taken box (moves.map Move.label) ++ finish box =
        start box ++ arrived box (moves.map Move.label) ↔
      Admitted (HasRoom capacity box) moves := by
  induction hrun with
  | nil _ => simp [taken, arrived, Admitted.nil]
  | @cons start middle finish event moves hstep hrun ih =>
      have hmiddle := hstep.length_le hcapacity hstart
      have hrest := ih hmiddle
      rw [admitted_cons_iff, ← hrest]
      simp only [taken, arrived, List.map_cons, List.flatMap_cons]
      rw [← taken, ← arrived, List.append_assoc, ← List.append_assoc (start box)]
      constructor
      · intro hall
        have hlater := (taken_sublist hrun box).length_le
        have hlength := congrArg List.length hall
        have hhead := (hstep.sublist box).length_le
        simp only [List.length_append] at hlater hlength hhead
        have hroom : HasRoom capacity box start event := by
          rw [HasRoom]
          cases hstep with
          | arrive items =>
              simp only [Event.taken, List.length_nil] at hlength hhead
              omega
          | take other => simpa [Event.arrived] using hstart
        refine ⟨hroom, ?_⟩
        rw [← hstep.kept hroom, List.append_assoc] at hall
        exact List.append_cancel_left hall
      · rintro ⟨hroom, hall⟩
        rw [hall, ← hstep.kept hroom, List.append_assoc]

end Runs

end RosRtems.Mailboxes
