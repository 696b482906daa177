import Mathlib.Data.Set.Finite.Basic
import Mathlib.Logic.Relation
import Mathlib.Order.WellFoundedSet

/-!
# Dependencies that are tried in order

Every node has a list of dependencies.  They are tried in the order of the list, up to the
first one that blocks.  Following the blocking dependencies from a node down leads to one
end, which has no blocking dependency any more.
-/

namespace RosRtems.Dependency

variable {Node : Type*}

/-- Without cycles there is no infinite descent, if only finitely many nodes have others
below them. -/
theorem wellFounded_of_acyclic {below : Node → Node → Prop} {nodes : Set Node}
    (hfinite : nodes.Finite) (hnodes : ∀ lower upper, below lower upper → upper ∈ nodes)
    (hacyclic : ∀ node, ¬ Relation.TransGen below node node) : WellFounded below := by
  have : IsStrictOrder Node (Relation.TransGen below) :=
    { irrefl := hacyclic, trans := fun _ _ _ => Relation.TransGen.trans }
  have hon : nodes.WellFoundedOn (Relation.TransGen below) := hfinite.wellFoundedOn
  have hinner : ∀ node ∈ nodes, Acc below node := by
    intro node hmem
    refine hon.induction hmem fun node hmem ih => .intro node fun lower hlower => ?_
    by_cases hlowerMem : lower ∈ nodes
    · exact ih lower hlowerMem (.single hlower)
    · exact .intro lower fun other hother => absurd (hnodes other lower hother) hlowerMem
  refine ⟨fun node => ?_⟩
  by_cases hmem : node ∈ nodes
  · exact hinner node hmem
  · exact .intro node fun lower hlower => absurd (hnodes lower node hlower) hmem

/-- A rank that grows along the relation rules out cycles. -/
theorem acyclic_of_rank {below : Node → Node → Prop} (rank : Node → ℕ)
    (hrank : ∀ lower upper, below lower upper → rank lower < rank upper) (node : Node) :
    ¬ Relation.TransGen below node node := by
  intro hcycle
  have hgrows : ∀ {lower upper}, Relation.TransGen below lower upper → rank lower < rank upper := by
    intro lower upper hpath
    induction hpath with
    | single hstep => exact hrank _ _ hstep
    | tail _ hstep ih => exact ih.trans (hrank _ _ hstep)
  exact (hgrows hcycle).ne rfl

/-! ## Lists that are tried in order -/

/-- Nothing before the node blocks. -/
def Tried (blocks : Node → Prop) : List Node → Node → Prop
  | [], _ => False
  | first :: rest, node => node = first ∨ (¬ blocks first ∧ Tried blocks rest node)

variable {blocks : Node → Prop} {nodes : List Node}

theorem Tried.mem {node : Node} (htried : Tried blocks nodes node) : node ∈ nodes := by
  induction nodes with
  | nil => exact htried.elim
  | cons first rest ih =>
      rcases htried with rfl | ⟨-, hrest⟩
      · exact List.mem_cons_self
      · exact List.mem_cons_of_mem _ (ih hrest)

theorem exists_tried_of_blocks {node : Node} (hmem : node ∈ nodes) (hblocks : blocks node) :
    ∃ first, Tried blocks nodes first ∧ blocks first := by
  induction nodes with
  | nil => cases hmem
  | cons other rest ih =>
      by_cases hother : blocks other
      · exact ⟨other, .inl rfl, hother⟩
      · rcases List.mem_cons.mp hmem with rfl | hmemRest
        · exact absurd hblocks hother
        · obtain ⟨first, htried, hfirst⟩ := ih hmemRest
          exact ⟨first, .inr ⟨hother, htried⟩, hfirst⟩

theorem Tried.blocks_unique {first second : Node} (hfirst : Tried blocks nodes first)
    (hsecond : Tried blocks nodes second) (hblocksFirst : blocks first)
    (hblocksSecond : blocks second) : first = second := by
  induction nodes with
  | nil => exact hfirst.elim
  | cons other rest ih =>
      rcases hfirst with rfl | ⟨hother, hfirst⟩
      · rcases hsecond with rfl | ⟨hother, -⟩
        · rfl
        · exact absurd hblocksFirst hother
      · rcases hsecond with rfl | ⟨-, hsecond⟩
        · exact absurd hblocksSecond hother
        · exact ih hfirst hsecond

/-! ## Descending the blocking dependencies -/

section Blames

variable (dependencies : Node → List Node) (blocks : Node → Prop)

/-- The first dependency that blocks. -/
def FirstBlocking (upper lower : Node) : Prop :=
  Tried blocks (dependencies upper) lower ∧ blocks lower

/-- The lower node is met by following the first blocking dependencies. -/
def Blames : Node → Node → Prop := Relation.ReflTransGen (FirstBlocking dependencies blocks)

/-- No dependency blocks. -/
def Unblocked (node : Node) : Prop := ∀ lower ∈ dependencies node, ¬ blocks lower

variable {dependencies blocks}

theorem FirstBlocking.unique {upper first second : Node}
    (hfirst : FirstBlocking dependencies blocks upper first)
    (hsecond : FirstBlocking dependencies blocks upper second) : first = second :=
  hfirst.1.blocks_unique hsecond.1 hfirst.2 hsecond.2

theorem Unblocked.not_firstBlocking {upper lower : Node}
    (hunblocked : Unblocked dependencies blocks upper) :
    ¬ FirstBlocking dependencies blocks upper lower :=
  fun hfirst => hunblocked lower hfirst.1.mem hfirst.2

theorem Unblocked.blames_iff {upper lower : Node}
    (hunblocked : Unblocked dependencies blocks upper) :
    Blames dependencies blocks upper lower ↔ lower = upper := by
  constructor
  · intro hblames
    rcases Relation.ReflTransGen.cases_head hblames with rfl | ⟨other, hfirst, -⟩
    · rfl
    · exact absurd hfirst hunblocked.not_firstBlocking
  · rintro rfl
    exact .refl

/-- Whoever is blamed is the node itself, or blamed by its first blocking dependency. -/
theorem FirstBlocking.blames_iff {upper other lower : Node}
    (hfirst : FirstBlocking dependencies blocks upper other) :
    Blames dependencies blocks upper lower ↔
      lower = upper ∨ Blames dependencies blocks other lower := by
  constructor
  · intro hblames
    rcases Relation.ReflTransGen.cases_head hblames with rfl | ⟨next, hnext, hrest⟩
    · exact .inl rfl
    · rw [hnext.unique hfirst] at hrest
      exact .inr hrest
  · rintro (rfl | hrest)
    · exact .refl
    · exact .head hfirst hrest

theorem not_unblocked_iff {upper : Node} :
    ¬ Unblocked dependencies blocks upper ↔
      ∃ lower, FirstBlocking dependencies blocks upper lower := by
  constructor
  · intro hblocked
    rw [Unblocked, not_forall₂] at hblocked
    obtain ⟨lower, hmem, hblocks⟩ := hblocked
    exact exists_tried_of_blocks hmem (not_not.mp hblocks)
  · rintro ⟨lower, hfirst⟩ hunblocked
    exact hunblocked.not_firstBlocking hfirst

/-- The descent ends. -/
theorem exists_blames_unblocked
    (hwf : WellFounded fun lower upper => lower ∈ dependencies upper) (upper : Node) :
    ∃ last, Blames dependencies blocks upper last ∧ Unblocked dependencies blocks last := by
  induction upper using hwf.induction with
  | _ upper ih =>
      by_cases hunblocked : Unblocked dependencies blocks upper
      · exact ⟨upper, .refl, hunblocked⟩
      · obtain ⟨lower, hfirst⟩ := not_unblocked_iff.mp hunblocked
        obtain ⟨last, hblames, hlast⟩ := ih lower hfirst.1.mem
        exact ⟨last, .head hfirst hblames, hlast⟩

end Blames

end RosRtems.Dependency
