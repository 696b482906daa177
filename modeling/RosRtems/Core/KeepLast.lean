import Mathlib.Data.List.Basic
import Mathlib.Data.Nat.ModEq
import Mathlib.Logic.Function.Basic

/-!
# Keep-last queues and circular arrays

A keep-last queue drops its oldest element when one more is pushed at capacity.
The window of a circular array is the list of its slots from a start index on,
wrapped at the capacity; pushing at the end of a window and taking from its front
move the window in the way the queue operations move the queue.
-/

namespace RosRtems.KeepLast

variable {A : Type*}

/-- The queue after one more element. -/
def push (capacity : ℕ) (queue : List A) (item : A) : List A :=
  if queue.length < capacity then queue ++ [item] else queue.tail ++ [item]

theorem push_ne_nil (capacity : ℕ) (queue : List A) (item : A) :
    push capacity queue item ≠ [] := by
  rw [push]
  split <;> simp

theorem push_nil (capacity : ℕ) (item : A) : push capacity [] item = [item] := by
  rw [push]
  split <;> rfl

theorem push_map {B : Type*} (f : A → B) (capacity : ℕ) (queue : List A) (item : A) :
    push capacity (queue.map f) (f item) = (push capacity queue item).map f := by
  simp only [push, List.length_map]
  split <;> simp

theorem push_sublist (capacity : ℕ) (queue : List A) (item : A) :
    (push capacity queue item).Sublist (queue ++ [item]) := by
  rw [push]
  split
  · exact .refl _
  · exact (List.tail_sublist queue).append (.refl _)

theorem mem_push {capacity : ℕ} {queue : List A} {item member : A}
    (hmember : member ∈ push capacity queue item) : member ∈ queue ∨ member = item := by
  rw [push] at hmember
  split at hmember
  · simpa using hmember
  · rcases List.mem_append.mp hmember with htail | hitem
    · exact .inl (List.mem_of_mem_tail htail)
    · exact .inr (List.mem_singleton.mp hitem)

/-- What is done to a queue. -/
inductive Operation (A : Type*)
  | push (item : A)
  | pop

/-- The queue after an operation; a pop of the empty queue changes nothing. -/
def apply (capacity : ℕ) (queue : List A) : Operation A → List A
  | .push item => push capacity queue item
  | .pop => queue.tail

/-- A queue at capacity loses its oldest element. -/
theorem push_of_full {capacity : ℕ} {queue : List A} (hfull : capacity ≤ queue.length)
    (item : A) : push capacity queue item = queue.tail ++ [item] := by
  rw [push, if_neg (Nat.not_lt.mpr hfull)]

/-- The `length` slots from `start` on. -/
def window (slots : ℕ → A) (capacity start length : ℕ) : List A :=
  (List.range length).map fun offset => slots ((start + offset) % capacity)

section Window

variable {slots : ℕ → A} {capacity start length : ℕ}

@[simp]
theorem window_length : (window slots capacity start length).length = length := by
  simp [window]

/-- Different offsets within one revolution name different slots. -/
theorem offset_injective {first second : ℕ} (hfirst : first < capacity)
    (hsecond : second < capacity)
    (hsame : (start + first) % capacity = (start + second) % capacity) :
    first = second := by
  have hmod : first ≡ second [MOD capacity] :=
    Nat.ModEq.add_left_cancel' start hsame
  calc first = first % capacity := (Nat.mod_eq_of_lt hfirst).symm
    _ = second % capacity := hmod
    _ = second := Nat.mod_eq_of_lt hsecond

/-- The first slot of a window, and the window that starts behind it. -/
theorem window_cons :
    window slots capacity start (length + 1) =
      slots (start % capacity) ::
        window slots capacity ((start + 1) % capacity) length := by
  simp only [window, List.range_succ_eq_map, List.map_cons, List.map_map, Nat.add_zero]
  congr 1
  apply List.map_congr_left
  intro offset _
  simp only [Function.comp_apply, Nat.mod_add_mod]
  congr 2
  omega

/-- Writing the slot behind a window appends to it. -/
theorem window_append (hlength : length < capacity) (item : A) :
    window (Function.update slots ((start + length) % capacity) item) capacity start
        (length + 1) = window slots capacity start length ++ [item] := by
  simp only [window, List.range_succ, List.map_append, List.map_cons, List.map_nil,
    Function.update_self]
  congr 1
  apply List.map_congr_left
  intro offset hoffset
  apply Function.update_of_ne
  intro hsame
  have hless := List.mem_range.mp hoffset
  have := offset_injective (by omega) hlength hsame
  omega

/-- Overwriting the first slot and starting behind it drops the oldest element and
appends, which is what a push at capacity does. -/
theorem window_slide (hstart : start < capacity) (item : A) :
    window (Function.update slots start item) capacity ((start + 1) % capacity)
        capacity = (window slots capacity start capacity).tail ++ [item] := by
  obtain ⟨length, rfl⟩ : ∃ length, capacity = length + 1 := ⟨capacity - 1, by omega⟩
  have hlast : ((start + 1) % (length + 1) + length) % (length + 1) = start := by
    rw [Nat.mod_add_mod, show start + 1 + length = start + (length + 1) by omega,
      Nat.add_mod_right, Nat.mod_eq_of_lt hstart]
  calc window (Function.update slots start item) (length + 1)
        ((start + 1) % (length + 1)) (length + 1)
      = window (Function.update slots
          (((start + 1) % (length + 1) + length) % (length + 1)) item) (length + 1)
          ((start + 1) % (length + 1)) (length + 1) := by rw [hlast]
    _ = window slots (length + 1) ((start + 1) % (length + 1)) length ++ [item] :=
        window_append (Nat.lt_succ_self length) item
    _ = (window slots (length + 1) start (length + 1)).tail ++ [item] := by
        rw [window_cons, List.tail_cons]

/-- Writing a slot that is not in a window leaves the window alone. -/
theorem window_update_start (hlength : length < capacity) (hstart : start < capacity)
    (item : A) :
    window (Function.update slots start item) capacity ((start + 1) % capacity) length =
      window slots capacity ((start + 1) % capacity) length := by
  apply List.map_congr_left
  intro offset hoffset
  apply Function.update_of_ne
  intro hsame
  have hless := List.mem_range.mp hoffset
  have hwrapped : (start + (offset + 1)) % capacity = (start + 0) % capacity := by
    rw [Nat.mod_add_mod] at hsame
    rw [Nat.add_zero start, Nat.mod_eq_of_lt hstart]
    rwa [Nat.add_assoc, Nat.add_comm 1] at hsame
  have := offset_injective (by omega) (by omega) hwrapped
  omega

end Window

end RosRtems.KeepLast
