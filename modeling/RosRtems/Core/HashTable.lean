import Mathlib.Data.List.Pairwise
import Mathlib.Data.List.Perm.Basic
import Mathlib.Data.List.Perm.Subperm

/-!
# Tables of buckets

Entries that are found by their keys stand in buckets, each in the one that the hash of its
key names.  Looking into that bucket is as good as looking through the whole table, and
what a table contains does not depend on the order of its entries.
-/

namespace RosRtems.HashTable

/-- A comparison of keys, and a hash that does not tell equal keys apart. -/
structure Keying (Key : Type*) where
  hash : Key → ℕ
  same : Key → Key → Bool
  refl : ∀ k, same k k = true
  symm : ∀ k k', same k k' = true → same k' k = true
  trans : ∀ k k' k'', same k k' = true → same k' k'' = true → same k k'' = true
  hash_eq : ∀ k k', same k k' = true → hash k = hash k'

variable {Key Entry : Type*} (keying : Keying Key) (key : Entry → Key)

theorem Keying.comm (k k' : Key) : keying.same k k' = keying.same k' k :=
  Bool.eq_iff_iff.mpr ⟨keying.symm k k', keying.symm k' k⟩

theorem Keying.congr_right {k k' : Key} (hsame : keying.same k k' = true) (k'' : Key) :
    keying.same k'' k = keying.same k'' k' :=
  Bool.eq_iff_iff.mpr ⟨fun h => keying.trans _ _ _ h hsame,
    fun h => keying.trans _ _ _ h (keying.symm _ _ hsame)⟩

theorem Keying.congr_left {k k' : Key} (hsame : keying.same k k' = true) (k'' : Key) :
    keying.same k k'' = keying.same k' k'' := by
  rw [keying.comm k, keying.comm k', keying.congr_right hsame]

/-! ## What a list of entries contains -/

/-- The entry under each key. -/
abbrev Contents (Key Entry : Type*) := Key → Option Entry

namespace Contents

def insert (contents : Contents Key Entry) (entry : Entry) : Contents Key Entry :=
  fun k => if keying.same (key entry) k then some entry else contents k

def erase (contents : Contents Key Entry) (k : Key) : Contents Key Entry :=
  fun k' => if keying.same k k' then none else contents k'

end Contents

def find (entries : List Entry) : Contents Key Entry :=
  fun k => entries.find? fun entry => keying.same (key entry) k

def Distinct (entries : List Entry) : Prop :=
  entries.Pairwise fun entry entry' => keying.same (key entry) (key entry') = false

variable {keying key} {entries entries' before after : List Entry} {entry : Entry} {k : Key}

theorem find_cons : find keying key (entry :: after) k =
    if keying.same (key entry) k then some entry else find keying key after k := by
  cases hsame : keying.same (key entry) k <;> simp [find, hsame]

theorem find_append : find keying key (before ++ after) k =
    (find keying key before k).or (find keying key after k) :=
  List.find?_append

theorem same_of_find (hfind : find keying key entries k = some entry) :
    keying.same (key entry) k = true := by
  simpa using List.find?_some hfind

theorem mem_of_find (hfind : find keying key entries k = some entry) : entry ∈ entries :=
  List.mem_of_find?_eq_some hfind

/-- Keys that are the same find the same. -/
theorem find_congr {k' : Key} (hsame : keying.same k k' = true) :
    find keying key entries k = find keying key entries k' := by
  simp only [find, keying.congr_right hsame]

theorem Distinct.eq_of_same (hdistinct : Distinct keying key entries) {entry' : Entry}
    (hentry : entry ∈ entries) (hentry' : entry' ∈ entries)
    (hsame : keying.same (key entry) (key entry') = true) : entry = entry' := by
  have hsymm : Std.Symm fun e e' => keying.same (key e) (key e') = false :=
    ⟨fun e e' h => by rwa [keying.comm]⟩
  by_contra hne
  have hother := List.Pairwise.forall hdistinct hentry hentry' hne
  rw [hsame] at hother
  cases hother

theorem Distinct.find_eq (hdistinct : Distinct keying key entries) (hentry : entry ∈ entries)
    (hsame : keying.same (key entry) k = true) : find keying key entries k = some entry := by
  cases hfind : find keying key entries k with
  | none =>
      have hnone := List.find?_eq_none.mp hfind entry hentry
      simp [hsame] at hnone
  | some found =>
      have hfound : keying.same (key found) (key entry) = true :=
        keying.trans _ _ _ (same_of_find hfind) (keying.symm _ _ hsame)
      rw [hdistinct.eq_of_same (mem_of_find hfind) hentry hfound]

/-- An entry stands in one place only. -/
theorem Distinct.split_unique {before' after' : List Entry}
    (hdistinct : Distinct keying key (before ++ entry :: after))
    (heq : before ++ entry :: after = before' ++ entry :: after') : after = after' := by
  have honce : ∀ front back : List Entry, Distinct keying key (front ++ entry :: back) →
      entry ∉ front := by
    intro front back h hmem
    have hself := (List.pairwise_append.mp h).2.2 entry hmem entry (by simp)
    rw [keying.refl] at hself
    cases hself
  have hbefore := honce before after hdistinct
  have hbefore' := honce before' after' (heq ▸ hdistinct)
  obtain ⟨middle, rfl, hrest⟩ | ⟨middle, rfl, hrest⟩ := List.append_eq_append_iff.mp heq
  · cases middle with
    | nil => exact (List.cons.inj hrest).2
    | cons _ _ =>
        cases hrest
        simp at hbefore'
  · cases middle with
    | nil => exact (List.cons.inj hrest).2.symm
    | cons _ _ =>
        cases hrest
        simp at hbefore

theorem Distinct.perm (hdistinct : Distinct keying key entries) (hperm : entries.Perm entries') :
    Distinct keying key entries' :=
  hperm.pairwise hdistinct fun h => by rwa [keying.comm]

/-- What is contained does not depend on the order. -/
theorem find_perm (hdistinct : Distinct keying key entries) (hperm : entries.Perm entries') :
    find keying key entries = find keying key entries' := by
  funext k
  cases hfind : find keying key entries k with
  | none =>
      refine (List.find?_eq_none.mpr fun entry hentry => ?_).symm
      exact List.find?_eq_none.mp hfind entry (hperm.mem_iff.mpr hentry)
  | some entry =>
      exact ((hdistinct.perm hperm).find_eq (hperm.mem_iff.mp (mem_of_find hfind))
        (same_of_find hfind)).symm

theorem distinct_append_iff : Distinct keying key (entries ++ [entry]) ↔
    Distinct keying key entries ∧ find keying key entries (key entry) = none := by
  simp [Distinct, find, List.pairwise_append]

theorem find_concat (hnew : find keying key entries (key entry) = none) :
    find keying key (entries ++ [entry]) = (find keying key entries).insert keying key entry := by
  funext k
  rw [find_append, find_cons]
  cases hsame : keying.same (key entry) k with
  | true =>
      have hnone := (find_congr hsame).symm.trans hnew
      simp [Contents.insert, hnone, hsame]
  | false => simp [Contents.insert, hsame, find]

/-- An entry is replaced by one under the same key. -/
theorem find_replace (hdistinct : Distinct keying key (before ++ entry :: after)) {entry' : Entry}
    (hsame : keying.same (key entry) (key entry') = true) :
    find keying key (before ++ entry' :: after) =
      (find keying key (before ++ entry :: after)).insert keying key entry' := by
  funext k
  have hleft := keying.congr_left hsame k
  cases hkey : keying.same (key entry') k with
  | true =>
      have hnone : find keying key before k = none := by
        refine List.find?_eq_none.mpr fun e he heq => ?_
        have hother := (List.pairwise_append.mp hdistinct).2.2 e he entry (by simp)
        rw [keying.congr_right (keying.trans _ _ _ hsame hkey), heq] at hother
        cases hother
      simp [Contents.insert, find_append, find_cons, hnone, hkey]
  | false =>
      rw [hkey] at hleft
      simp [Contents.insert, find_append, find_cons, hkey, hleft]

theorem find_remove (hdistinct : Distinct keying key (before ++ entry :: after))
    (hsame : keying.same (key entry) k = true) :
    find keying key (before ++ after) =
      (find keying key (before ++ entry :: after)).erase keying k := by
  funext k'
  have hleft := keying.congr_left hsame k'
  cases hkey : keying.same k k' with
  | true =>
      rw [hkey] at hleft
      have hperm : (before ++ entry :: after).Perm ((before ++ after) ++ [entry]) :=
        List.perm_middle.trans (List.perm_append_singleton _ _).symm
      have hnone := (distinct_append_iff.mp (hdistinct.perm hperm)).2
      simp only [Contents.erase, hkey, if_true]
      rw [← hnone]
      exact find_congr (keying.symm _ _ hleft)
  | false =>
      rw [hkey] at hleft
      simp [Contents.erase, find_append, find_cons, hkey, hleft]

/-! ## Buckets -/

/-- Every entry stands in the bucket of its slot. -/
def WellPlaced (slot : Entry → ℕ) (buckets : List (List Entry)) : Prop :=
  ∀ i (h : i < buckets.length), ∀ entry ∈ buckets[i], slot entry % buckets.length = i

section Buckets

variable {slot : Entry → ℕ} {buckets : List (List Entry)} {i : ℕ}

theorem wellPlaced_replicate_nil (n : ℕ) : WellPlaced slot (List.replicate n []) := by
  intro i h entry hentry
  rw [List.getElem_replicate] at hentry
  cases hentry

/-- The buckets around one of them. -/
theorem flatten_split (hi : i < buckets.length) :
    buckets.flatten = (buckets.take i).flatten ++ buckets[i] ++ (buckets.drop (i + 1)).flatten := by
  have hsplit : buckets = buckets.take i ++ buckets[i] :: buckets.drop (i + 1) := by
    rw [← List.drop_eq_getElem_cons hi, List.take_append_drop]
  calc buckets.flatten = (buckets.take i ++ buckets[i] :: buckets.drop (i + 1)).flatten :=
        congrArg List.flatten hsplit
    _ = _ := by simp only [List.flatten_append, List.flatten_cons, List.append_assoc]

theorem flatten_set (hi : i < buckets.length) (bucket : List Entry) :
    (buckets.set i bucket).flatten =
      (buckets.take i).flatten ++ bucket ++ (buckets.drop (i + 1)).flatten := by
  rw [List.set_eq_take_append_cons_drop, if_pos hi]
  simp [List.append_assoc]

/-- Who looks into the right bucket looks through the table. -/
theorem WellPlaced.find?_bucket (hplaced : WellPlaced slot buckets) (hi : i < buckets.length)
    {p : Entry → Bool} (hp : ∀ entry, p entry = true → slot entry % buckets.length = i) :
    buckets[i].find? p = buckets.flatten.find? p := by
  have hother : ∀ j (hj : j < buckets.length), j ≠ i → buckets[j].find? p = none := by
    intro j hj hne
    refine List.find?_eq_none.mpr fun entry hentry hentrySlot => hne ?_
    exact (hplaced j hj entry hentry).symm.trans (hp entry hentrySlot)
  have hbefore : (buckets.take i).flatten.find? p = none := by
    refine List.find?_eq_none.mpr fun entry hentry => ?_
    obtain ⟨bucket, hbucket, hmem⟩ := List.mem_flatten.mp hentry
    obtain ⟨j, hj, rfl⟩ := List.mem_take_iff_getElem.mp hbucket
    exact List.find?_eq_none.mp (hother j (by omega) (by omega)) entry hmem
  have hafter : (buckets.drop (i + 1)).flatten.find? p = none := by
    refine List.find?_eq_none.mpr fun entry hentry => ?_
    obtain ⟨bucket, hbucket, hmem⟩ := List.mem_flatten.mp hentry
    obtain ⟨j, hj, rfl⟩ := List.mem_drop_iff_getElem.mp hbucket
    exact List.find?_eq_none.mp (hother (i + 1 + j) (by omega) (by omega)) entry hmem
  rw [flatten_split hi, List.find?_append, List.find?_append, hbefore, hafter]
  simp

theorem WellPlaced.set (hplaced : WellPlaced slot buckets) {bucket : List Entry}
    (hbucket : ∀ entry ∈ bucket, slot entry % buckets.length = i) :
    WellPlaced slot (buckets.set i bucket) := by
  intro j hj entry hentry
  rw [List.length_set] at hj ⊢
  rw [List.getElem_set] at hentry
  split at hentry
  · next heq => exact heq ▸ hbucket entry hentry
  · exact hplaced j hj entry hentry

end Buckets

end RosRtems.HashTable
