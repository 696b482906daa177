import Mathlib.Data.List.Count
import Mathlib.Data.List.Nodup
import Mathlib.Data.List.Perm.Subperm
import Mathlib.Data.List.Range

/-!
# Serving marked positions in order

Some positions of a growing list are marked, and each of them is served once, in any order.
The rank of a position counts the marked ones before it.  What is served comes in the order
of the ranks exactly as long as no position is served before an earlier one.
-/

namespace RosRtems.ServiceOrder

variable {Item : Type*} (marked : Item → Bool) (items : List Item)

/-- The position is that of a marked item. -/
def Marks (position : ℕ) : Prop :=
  ∃ item, items[position]? = some item ∧ marked item = true

def rank (position : ℕ) : ℕ := (items.take position).countP marked

variable {marked items}

theorem Marks.lt {position : ℕ} (hmarks : Marks marked items position) :
    position < items.length := by
  obtain ⟨item, hitem, -⟩ := hmarks
  exact (List.getElem?_eq_some_iff.mp hitem).1

theorem marks_append {position : ℕ} (hlt : position < items.length) (more : List Item) :
    Marks marked (items ++ more) position ↔ Marks marked items position := by
  rw [Marks, Marks, List.getElem?_append_left hlt]

theorem marks_new {item : Item} :
    Marks marked (items ++ [item]) items.length ↔ marked item = true := by
  simp [Marks]

theorem rank_append {position : ℕ} (hle : position ≤ items.length) (more : List Item) :
    rank marked (items ++ more) position = rank marked items position := by
  rw [rank, rank, List.take_append_of_le_length hle]

theorem rank_mono {first second : ℕ} (hle : first ≤ second) :
    rank marked items first ≤ rank marked items second :=
  (List.take_sublist_take_left hle).countP_le

theorem rank_length : rank marked items items.length = items.countP marked := by
  rw [rank, List.take_length]

theorem rank_succ_of_marks {position : ℕ} (hmarks : Marks marked items position) :
    rank marked items (position + 1) = rank marked items position + 1 := by
  obtain ⟨item, hitem, hmarked⟩ := hmarks
  rw [rank, rank, List.take_add_one, hitem]
  simp [hmarked]

theorem rank_succ_of_not_marks {position : ℕ} (hmarks : ¬ Marks marked items position) :
    rank marked items (position + 1) = rank marked items position := by
  rw [rank, rank, List.take_add_one, List.countP_append]
  cases hitem : items[position]? with
  | none => simp
  | some item =>
      have hunmarked : marked item = false :=
        eq_false_of_ne_true fun hmarked => hmarks ⟨item, hitem, hmarked⟩
      simp [hunmarked]

theorem rank_lt {first second : ℕ} (hmarks : Marks marked items first)
    (hlt : first < second) : rank marked items first < rank marked items second := by
  have hmono : rank marked items (first + 1) ≤ rank marked items second := rank_mono hlt
  rw [rank_succ_of_marks hmarks] at hmono
  exact hmono

theorem rank_injective {first second : ℕ} (hfirst : Marks marked items first)
    (hsecond : Marks marked items second)
    (hsame : rank marked items first = rank marked items second) : first = second := by
  rcases Nat.lt_trichotomy first second with hlt | heq | hgt
  · exact absurd hsame (rank_lt hfirst hlt).ne
  · exact heq
  · exact absurd hsame (rank_lt hsecond hgt).ne'

/-- Every number below a rank is the rank of an earlier position. -/
theorem exists_rank {position value : ℕ} (hlt : value < rank marked items position) :
    ∃ earlier < position, Marks marked items earlier ∧ rank marked items earlier = value := by
  induction position with
  | zero => simp [rank] at hlt
  | succ position ih =>
      by_cases hmarks : Marks marked items position
      · rw [rank_succ_of_marks hmarks] at hlt
        rcases Nat.lt_succ_iff_lt_or_eq.mp hlt with hbefore | heq
        · obtain ⟨earlier, hearlier, hrest⟩ := ih hbefore
          exact ⟨earlier, hearlier.trans (Nat.lt_succ_self _), hrest⟩
        · exact ⟨position, Nat.lt_succ_self _, hmarks, heq.symm⟩
      · rw [rank_succ_of_not_marks hmarks] at hlt
        obtain ⟨earlier, hearlier, hrest⟩ := ih hlt
        exact ⟨earlier, hearlier.trans (Nat.lt_succ_self _), hrest⟩

/-! ## What has been served -/

variable (marked items) in
/-- The positions served so far are marked, and each has been served once. -/
structure Served (served : List ℕ) : Prop where
  nodup : served.Nodup
  marks : ∀ position ∈ served, Marks marked items position

variable {served : List ℕ}

theorem Served.append (hserved : Served marked items served) (more : List Item) :
    Served marked (items ++ more) served :=
  ⟨hserved.nodup, fun position hmem =>
    (marks_append (hserved.marks position hmem).lt more).mpr (hserved.marks position hmem)⟩

theorem Served.snoc (hserved : Served marked items served) {next : ℕ}
    (hmarks : Marks marked items next) (hnew : next ∉ served) :
    Served marked items (served ++ [next]) where
  nodup := List.nodup_append.mpr ⟨hserved.nodup, List.nodup_singleton next, by
    rintro position hmem _ hnext rfl
    exact hnew (List.mem_singleton.mp hnext ▸ hmem)⟩
  marks := by
    intro position hmem
    rcases List.mem_append.mp hmem with hbefore | hnext
    · exact hserved.marks position hbefore
    · exact List.mem_singleton.mp hnext ▸ hmarks

theorem Served.ranks_nodup (hserved : Served marked items served) :
    (served.map (rank marked items)).Nodup :=
  hserved.nodup.map_on fun first hfirst second hsecond hsame =>
    rank_injective (hserved.marks first hfirst) (hserved.marks second hsecond) hsame

theorem Served.ranks_subset (hserved : Served marked items served) :
    served.map (rank marked items) ⊆ List.range (items.countP marked) := by
  intro value hmem
  obtain ⟨position, hposition, rfl⟩ := List.mem_map.mp hmem
  have hlt := rank_lt (hserved.marks position hposition) (hserved.marks position hposition).lt
  rw [rank_length] at hlt
  exact List.mem_range.mpr hlt

/-- No more positions are served than are marked. -/
theorem Served.length_le (hserved : Served marked items served) :
    served.length ≤ items.countP marked := by
  have hsubperm := hserved.ranks_nodup.subperm hserved.ranks_subset
  simpa using hsubperm.length_le

/-- Where every marked position has been served, as many have been served as are marked. -/
theorem Served.length_eq (hserved : Served marked items served)
    (hall : ∀ position, Marks marked items position → position ∈ served) :
    served.length = items.countP marked := by
  refine le_antisymm hserved.length_le ?_
  have hsubset : List.range (items.countP marked) ⊆ served.map (rank marked items) := by
    intro value hmem
    have hlt := List.mem_range.mp hmem
    rw [← rank_length] at hlt
    obtain ⟨position, -, hmarks, rfl⟩ := exists_rank hlt
    exact List.mem_map_of_mem (hall position hmarks)
  have hsubperm := List.nodup_range.subperm hsubset
  simpa using hsubperm.length_le

/-- The next position continues the order exactly when every earlier one has been
served. -/
theorem Served.next_iff (hserved : Served marked items served)
    (hordered : served.map (rank marked items) = List.range served.length) {next : ℕ}
    (hmarks : Marks marked items next) (hnew : next ∉ served) :
    rank marked items next = served.length ↔
      ∀ earlier < next, Marks marked items earlier → earlier ∈ served := by
  have hmem : ∀ position, Marks marked items position →
      (position ∈ served ↔ rank marked items position < served.length) := by
    intro position hposition
    rw [← List.mem_range, ← hordered, List.mem_map]
    constructor
    · exact fun hserved => ⟨position, hserved, rfl⟩
    · rintro ⟨other, hother, hsame⟩
      exact rank_injective (hserved.marks other hother) hposition hsame ▸ hother
  constructor
  · intro hrank earlier hlt hearlier
    rw [hmem earlier hearlier, ← hrank]
    exact rank_lt hearlier hlt
  · intro hall
    refine le_antisymm (not_lt.mp fun hlt => ?_) (not_lt.mp fun hlt => ?_)
    · obtain ⟨earlier, hearlier, hmarked, hrank⟩ := exists_rank hlt
      have hserved := (hmem earlier hmarked).mp (hall earlier hearlier hmarked)
      exact absurd hrank hserved.ne
    · exact hnew ((hmem next hmarks).mpr hlt)

end RosRtems.ServiceOrder
