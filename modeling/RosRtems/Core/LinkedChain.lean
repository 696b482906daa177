import Mathlib.Data.List.Nodup
import Mathlib.Logic.Function.Basic

/-!
# Null-terminated chains

`follow a` is the link stored at the address `a`, or nothing where there is no node.
A chain from a link to the null link is unique, so no address occurs on it twice, and
writing off the chain leaves it as it is.
-/

namespace RosRtems.LinkedChain

variable {Addr : Type*}

/-- `Chain follow link nodes`: the nodes from `link` to the null link, in order. -/
inductive Chain (follow : Addr → Option (Option Addr)) : Option Addr → List Addr → Prop
  | nil : Chain follow none []
  | cons {a : Addr} {link : Option Addr} {rest : List Addr} (hfollow : follow a = some link)
      (hrest : Chain follow link rest) : Chain follow (some a) (a :: rest)

/-- The nodes that a traversal from the link comes to. -/
inductive Reaches (follow : Addr → Option (Option Addr)) : Option Addr → Addr → Prop
  | here {a : Addr} {link : Option Addr} (hfollow : follow a = some link) :
      Reaches follow (some a) a
  | next {a b : Addr} {link : Option Addr} (hfollow : follow a = some link)
      (hrest : Reaches follow link b) : Reaches follow (some a) b

section Rules

variable {follow : Addr → Option (Option Addr)} {link : Option Addr}
variable {nodes other : List Addr} {a : Addr}

theorem Chain.unique (hnodes : Chain follow link nodes) (hother : Chain follow link other) :
    nodes = other := by
  induction hnodes generalizing other with
  | nil =>
      cases hother
      rfl
  | cons hfollow _ ih =>
      cases hother with
      | cons hfollow' hrest =>
          rw [hfollow, Option.some.injEq] at hfollow'
          subst hfollow'
          rw [ih hrest]

theorem Chain.suffix (hnodes : Chain follow link nodes) (hmem : a ∈ nodes) :
    ∃ rest, Chain follow (some a) (a :: rest) ∧ (a :: rest).length ≤ nodes.length := by
  induction hnodes with
  | nil => cases hmem
  | @cons b link rest hfollow hrest ih =>
      rcases List.mem_cons.mp hmem with rfl | htail
      · exact ⟨rest, .cons hfollow hrest, Nat.le_refl _⟩
      · obtain ⟨suffix, hsuffix, hlength⟩ := ih htail
        exact ⟨suffix, hsuffix, Nat.le_succ_of_le hlength⟩

/-- A chain ends, so it comes to no address twice. -/
theorem Chain.nodup (hnodes : Chain follow link nodes) : nodes.Nodup := by
  induction hnodes with
  | nil => exact List.nodup_nil
  | @cons b link rest hfollow hrest ih =>
      refine List.nodup_cons.mpr ⟨fun hmem => ?_, ih⟩
      obtain ⟨suffix, hsuffix, hlength⟩ := hrest.suffix hmem
      have hsame := hsuffix.unique (.cons hfollow hrest)
      rw [hsame, List.length_cons] at hlength
      omega

theorem Chain.follow_isSome (hnodes : Chain follow link nodes) (hmem : a ∈ nodes) :
    ∃ next, follow a = some next := by
  obtain ⟨rest, hrest, -⟩ := hnodes.suffix hmem
  cases hrest with
  | cons hfollow _ => exact ⟨_, hfollow⟩

/-- Only the links on the chain matter. -/
theorem Chain.frame {follow' : Addr → Option (Option Addr)}
    (hnodes : Chain follow link nodes) (hsame : ∀ b ∈ nodes, follow' b = follow b) :
    Chain follow' link nodes := by
  induction hnodes with
  | nil => exact .nil
  | @cons b link rest hfollow _ ih =>
      exact .cons ((hsame b (List.mem_cons_self ..)).trans hfollow)
        (ih fun c hc => hsame c (List.mem_cons_of_mem b hc))

theorem Chain.of_some (hnodes : Chain follow (some a) nodes) :
    ∃ next rest, nodes = a :: rest ∧ follow a = some next ∧ Chain follow next rest := by
  cases hnodes with
  | cons hfollow hrest => exact ⟨_, _, rfl, hfollow, hrest⟩

theorem Chain.of_none (hnodes : Chain follow none nodes) : nodes = [] := by
  cases hnodes
  rfl

theorem Chain.reaches (hnodes : Chain follow link nodes) (hmem : a ∈ nodes) :
    Reaches follow link a := by
  induction hnodes with
  | nil => cases hmem
  | @cons b link rest hfollow _ ih =>
      rcases List.mem_cons.mp hmem with rfl | htail
      · exact .here hfollow
      · exact .next hfollow (ih htail)

end Rules

end RosRtems.LinkedChain
