import Mathlib.Data.List.Basic

/-!
# Computations that ask for memory

An allocator grants or refuses one request after another, and a computation that asks it
cannot know the answers.  What such a computation yields is stated for all supplies of a
kind, and the rules follow its structure.
-/

namespace RosRtems.Allocation

/-- The answers that an allocator is going to give. -/
abbrev Memory := ℕ → Bool

def Memory.rest (memory : Memory) : Memory := fun n => memory (n + 1)

abbrev Allocating := StateM Memory

def allocate : Allocating Bool := modifyGet fun memory => (memory 0, memory.rest)

variable {α β : Type}

/-- A loop that stops at the first failure. -/
def foldWhile (f : β → α → Allocating (Option β)) : β → List α → Allocating (Option β)
  | b, [] => pure (some b)
  | b, a :: rest => do
      match ← f b a with
      | none => pure none
      | some next => foldWhile f next rest

/-- A kind of supply that stays what it is while it is used. -/
structure Supply where
  Holds : Memory → Prop
  rest : ∀ memory, Holds memory → Holds memory.rest

def Supply.any : Supply := ⟨fun _ => True, fun _ => id⟩

def Supply.plenty : Supply :=
  ⟨fun memory => ∀ n, memory n = true, fun _ hplenty n => hplenty (n + 1)⟩

/-- Whatever supply of its kind it is run with, the computation yields a value with the
property. -/
def Yields (supply : Supply) (x : Allocating α) (p : α → Prop) : Prop :=
  ∀ memory, supply.Holds memory → p (x.run memory).1 ∧ supply.Holds (x.run memory).2

section Rules

variable {supply : Supply} {x : Allocating α} {p q : α → Prop}

theorem Yields.pure {a : α} (ha : p a) : Yields supply (pure a) p :=
  fun _ hholds => ⟨ha, hholds⟩

theorem Yields.bind {f : α → Allocating β} {r : β → Prop} (hx : Yields supply x q)
    (hf : ∀ a, q a → Yields supply (f a) r) : Yields supply (x >>= f) r := by
  intro memory hholds
  obtain ⟨hvalue, hrest⟩ := hx memory hholds
  exact hf _ hvalue _ hrest

theorem Yields.mono (hx : Yields supply x q) (hweaken : ∀ a, q a → p a) :
    Yields supply x p :=
  fun memory hholds => (hx memory hholds).imp_left (hweaken _)

theorem yields_allocate : Yields supply allocate fun _ => True :=
  fun memory hholds => ⟨trivial, supply.rest memory hholds⟩

theorem yields_allocate_plenty : Yields .plenty allocate fun granted => granted = true :=
  fun memory hholds => ⟨hholds 0, Supply.plenty.rest memory hholds⟩

section Loops

variable {f : β → α → Allocating (Option β)} {I : List α → β → Prop} {fails : Prop}

theorem Yields.foldWhile_from
    (hturn : ∀ before a b, I before b → Yields supply (f b a) fun result =>
      result.elim fails (I (before ++ [a])))
    {before after : List α} {b : β} (hb : I before b) :
    Yields supply (foldWhile f b after) fun result =>
      result.elim fails (I (before ++ after)) := by
  induction after generalizing before b with
  | nil => exact .pure (by simpa using hb)
  | cons a after ih =>
      apply (hturn before a b hb).bind
      intro result hresult
      cases result with
      | none => exact .pure hresult
      | some next => simpa using ih hresult

/-- The rule for loops: an invariant relates the value to what has been gone through. -/
theorem Yields.foldWhile
    (hturn : ∀ before a b, I before b → Yields supply (f b a) fun result =>
      result.elim fails (I (before ++ [a])))
    {b : β} (hb : I [] b) (all : List α) :
    Yields supply (foldWhile f b all) fun result => result.elim fails (I all) :=
  Yields.foldWhile_from hturn hb

end Loops

end Rules

end RosRtems.Allocation
