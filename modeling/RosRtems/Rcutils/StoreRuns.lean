import RosRtems.Rcutils.KeyedStore
import Mathlib.Algebra.Ring.Nat

/-!
# Runs of the hash map

Over every run of calls, and whatever memory they get, the hash map is a store that keeps
for each key the value that was last set, and the key that it was first set with.  Going
from key to key yields each entry once.  As long as there is memory, at most three quarters
as many entries as buckets are in use.
-/

namespace RosRtems.Rcutils

open RosRtems.Allocation
open RosRtems.HashTable
open RosRtems.Runs

variable {Key Value : Type} {keying : Keying Key}

/-! ## The store -/

/-- For each key the key that it was first set with, and its value. -/
abbrev Store (Key Value : Type) := Contents Key (Key × Value)

def Store.set (keying : Keying Key) (store : Store Key Value) (key : Key) (value : Value) :
    Store Key Value :=
  store.insert keying Prod.fst (((store key).map Prod.fst).getD key, value)

def Store.unset (keying : Keying Key) (store : Store Key Value) (key : Key) :
    Store Key Value :=
  store.erase keying key

/-- `n` keys have values. -/
def Store.HasSize (keying : Keying Key) (store : Store Key Value) (n : ℕ) : Prop :=
  ∃ pairs, Distinct keying Prod.fst pairs ∧ find keying Prod.fst pairs = store ∧
    pairs.length = n

inductive Call (Key Value : Type)
  | set (key : Key) (value : Value)
  | unset (key : Key)

/-- A call that is refused changes nothing, and only a new key can be refused. -/
inductive StoreStep (keying : Keying Key) :
    Store Key Value → Call Key Value × Ret → Store Key Value → Prop
  | set (store : Store Key Value) (key : Key) (value : Value) :
      StoreStep keying store (.set key value, .ok) (store.set keying key value)
  | refused (store : Store Key Value) (key : Key) (value : Value) (hnew : store key = none) :
      StoreStep keying store (.set key value, .badAlloc) store
  | unset (store : Store Key Value) (key : Key) :
      StoreStep keying store (.unset key, .ok) (store.unset keying key)

/-- A call with any supply of a kind. -/
inductive MapStep (keying : Keying Key) (supply : Supply) :
    HashMap Key Value → Call Key Value × Ret → HashMap Key Value → Prop
  | set (hashMap : HashMap Key Value) (key : Key) (value : Value) (memory : Memory)
      (hholds : supply.Holds memory) :
      MapStep keying supply hashMap
        (.set key value, ((hashMap.set keying key value).run memory).1.1)
        ((hashMap.set keying key value).run memory).1.2
  | unset (hashMap : HashMap Key Value) (key : Key) :
      MapStep keying supply hashMap (.unset key, .ok) (hashMap.unset keying key)

/-! ## The hash map refines the store -/

def Entry.pair (entry : Entry Key Value) : Key × Value := (entry.key, entry.value)

/-- The store that a hash map stands for. -/
def view (keying : Keying Key) (hashMap : HashMap Key Value) : Store Key Value :=
  fun key => (contents keying hashMap key).map Entry.pair

/-- A hash map stands for a store. -/
def Represents (keying : Keying Key) (hashMap : HashMap Key Value) (store : Store Key Value) :
    Prop :=
  view keying hashMap = store

/-- Every call is a call of the store. -/
def observed (move : Move (HashMap Key Value) (Call Key Value × Ret)) :
    Option (Call Key Value × Ret) :=
  some move.label

section Refinement

variable {hashMap : HashMap Key Value} {supply : Supply}

theorem find_map_pair (entries : List (Entry Key Value)) (key : Key) :
    find keying Prod.fst (entries.map Entry.pair) key =
      (find keying Entry.key entries key).map Entry.pair := by
  simp [find, List.find?_map, Function.comp_def, Entry.pair]

theorem distinct_map_pair {entries : List (Entry Key Value)} :
    Distinct keying Prod.fst (entries.map Entry.pair) ↔ Distinct keying Entry.key entries := by
  simp [Distinct, List.pairwise_map, Entry.pair]

theorem view_hasSize (h : WellFormed keying hashMap) :
    (view keying hashMap).HasSize keying hashMap.size :=
  ⟨hashMap.entries.map Entry.pair, distinct_map_pair.mpr h.sound.distinct,
    funext fun key => find_map_pair _ key, by rw [List.length_map, h.size]⟩

theorem view_insert {contents' : Contents Key (Entry Key Value)} (entry : Entry Key Value) :
    (fun key => ((contents'.insert keying Entry.key entry) key).map Entry.pair) =
      Contents.insert keying Prod.fst (fun key => (contents' key).map Entry.pair)
        entry.pair := by
  funext key
  cases hsame : keying.same entry.key key <;> simp [Contents.insert, Entry.pair, hsame]

theorem view_erase {contents' : Contents Key (Entry Key Value)} (key : Key) :
    (fun k => ((contents'.erase keying key) k).map Entry.pair) =
      Contents.erase keying (fun k => (contents' k).map Entry.pair) key := by
  funext k
  cases hsame : keying.same key k <;> simp [Contents.erase, hsame]

theorem view_empty {capacity : ℕ} {hcapacity : 0 < capacity} :
    view keying (.empty capacity hcapacity : HashMap Key Value) = fun _ => none := by
  funext key
  change Option.map _ (find keying Entry.key (bucketsOf _).flatten key) = none
  simp [HashMap.empty, bucketsOf_replicate, find]

theorem get_eq (h : WellFormed keying hashMap) (key : Key) :
    hashMap.get keying key = (view keying hashMap key).map Prod.snd := by
  rw [view, ← hashMapFind_snd h.sound, Option.map_map, Option.map_map]
  rfl

theorem keyExists_eq (h : WellFormed keying hashMap) (key : Key) :
    hashMap.keyExists keying key = (view keying hashMap key).isSome := by
  rw [view, ← hashMapFind_snd h.sound, Option.isSome_map, Option.isSome_map]
  rfl

/-- Each call does to the hash map what it does to the store. -/
theorem mapStep_refines {hashMap' : HashMap Key Value} {label : Call Key Value × Ret}
    (h : WellFormed keying hashMap) (hstep : MapStep keying supply hashMap label hashMap') :
    WellFormed keying hashMap' ∧
      StoreStep keying (view keying hashMap) label (view keying hashMap') := by
  cases hstep with
  | unset key =>
      obtain ⟨hwell, hcontents⟩ := wellFormed_unset h key
      refine ⟨hwell, ?_⟩
      have hview : view keying (hashMap.unset keying key) =
          (view keying hashMap).unset keying key := by
        unfold view
        rw [hcontents]
        exact view_erase key
      rw [hview]
      exact .unset _ key
  | set key value memory hholds =>
      obtain ⟨⟨hwell, hcases⟩, -⟩ := yields_set h key value memory hholds
      refine ⟨hwell, ?_⟩
      generalize ((hashMap.set keying key value).run memory).1 = result at hwell hcases ⊢
      obtain ⟨ret, next⟩ := result
      obtain ⟨rfl, entry, hcontents, rfl, hkey⟩ | ⟨rfl, rfl, hnone⟩ := hcases
      · have hview : view keying next = (view keying hashMap).set keying key entry.value := by
          change (fun k => (contents keying next k).map Entry.pair) = _
          rw [hcontents, view_insert, Store.set, Entry.pair, hkey, view, Option.map_map]
          rfl
        rw [hview]
        exact .set _ key entry.value
      · exact .refused _ key value (by rw [view, hnone, Option.map_none])

variable {capacity : ℕ} {hcapacity : 0 < capacity}
  {trace : List (Move (HashMap Key Value) (Call Key Value × Ret))}

theorem wellFormed_run (hrun : Run (MapStep keying supply) (.empty capacity hcapacity) trace
    hashMap) : WellFormed keying hashMap :=
  hrun.always (fun _ _ _ h hstep => (mapStep_refines h hstep).1) wellFormed_empty

/-- Whatever is set and unset and whichever calls get no memory: the hash map answers as
the store does, and counts its keys. -/
theorem hashMap_refines_store
    (hrun : Run (MapStep keying supply) (.empty capacity hcapacity) trace hashMap) :
    ∃ moves store, Run (StoreStep keying) (fun _ => none) moves store ∧
      moves.map Move.label = trace.map Move.label ∧
      (∀ key, hashMap.get keying key = (store key).map Prod.snd) ∧
      (∀ key, hashMap.keyExists keying key = (store key).isSome) ∧
      store.HasSize keying hashMap.size := by
  have hkeep : ∀ (source : HashMap Key Value) label target, WellFormed keying source → True →
      MapStep keying supply source label target → WellFormed keying target :=
    fun _ _ _ h _ hstep => (mapStep_refines h hstep).1
  have hsilent : ∀ (source : HashMap Key Value) label target store, WellFormed keying source →
      True → MapStep keying supply source label target → Represents keying source store →
      observed ⟨source, label, target⟩ = none → Represents keying target store :=
    fun _ _ _ _ _ _ _ _ hnone => nomatch hnone
  have hobserved : ∀ (source : HashMap Key Value) label target store event,
      WellFormed keying source → True → MapStep keying supply source label target →
      Represents keying source store → observed ⟨source, label, target⟩ = some event →
      ∃ next, StoreStep keying store event next ∧ Represents keying target next := by
    rintro source label target _ event h - hstep rfl hevent
    cases hevent
    exact ⟨_, (mapStep_refines h hstep).2, rfl⟩
  have hstart : Represents keying (.empty capacity hcapacity : HashMap Key Value)
      fun _ => none := view_empty
  obtain ⟨moves, store, hmoves, hlabels, rfl⟩ :=
    hrun.simulates hkeep hsilent hobserved wellFormed_empty (fun _ _ => trivial) hstart
  have h := wellFormed_run hrun
  refine ⟨moves, _, hmoves, ?_, get_eq h, keyExists_eq h, view_hasSize h⟩
  rw [hlabels]
  exact congrFun List.filterMap_eq_map' trace

end Refinement

/-! ## Going from key to key -/

/-- A loop that asks for one key after another, with the last one in the variable for the
next, and the code that it ends with. -/
def HashMap.traverse (keying : Keying Key) (hashMap : HashMap Key Value) :
    ℕ → Bool → Key → List (Entry Key Value) × Option Ret
  | 0, _, _ => ([], none)
  | fuel + 1, hasPrevious, key =>
      match hashMap.getNextKeyAndData keying hasPrevious key with
      | .error ret => ([], some ret)
      | .ok entry =>
          let rest := hashMap.traverse keying fuel true entry.key
          (entry :: rest.1, rest.2)

section Traversal

variable {hashMap : HashMap Key Value}

theorem nextFrom_eq (bucket : List (Entry Key Value)) (rest : List (List (Entry Key Value)))
    (front back : List (Entry Key Value)) (hbucket : bucket = front ++ back) :
    HashMap.nextFrom (bucket :: rest) front.length = (back ++ rest.flatten).head? := by
  subst hbucket
  induction rest generalizing front back with
  | nil => cases back <;> simp [HashMap.nextFrom]
  | cons next rest ih =>
      cases back with
      | nil => simpa [HashMap.nextFrom] using ih [] next
      | cons entry back => simp [HashMap.nextFrom]

theorem nextFrom_zero (buckets : List (List (Entry Key Value))) :
    HashMap.nextFrom buckets 0 = buckets.flatten.head? := by
  cases buckets with
  | nil => rfl
  | cons bucket rest => simpa using nextFrom_eq bucket rest [] bucket rfl

/-- After a key comes what stands after its entry. -/
theorem getNextKeyAndData_after (h : WellFormed keying hashMap)
    {before after : List (Entry Key Value)} {entry : Entry Key Value}
    (hentries : hashMap.entries = before ++ entry :: after) :
    hashMap.getNextKeyAndData keying true entry.key =
      (after.head?).elim (.error .noMoreEntries) .ok := by
  have hdistinct : Distinct keying Entry.key (before ++ entry :: after) :=
    hentries ▸ h.sound.distinct
  have hsnd := hashMapFind_snd h.sound entry.key
  have hfound : contents keying hashMap entry.key = some entry := by
    rw [contents, hentries]
    exact hdistinct.find_eq (by simp) (keying.refl _)
  rw [hfound] at hsnd
  obtain ⟨⟨i, found⟩, hfind, rfl⟩ := Option.map_eq_some_iff.mp hsnd
  obtain ⟨list, front, back, hbucket, hitems, rfl, -⟩ := hashMapFind_split hfind
  have hsplit := entries_split hbucket (hitems.trans (List.append_cons front found back))
  rw [hentries, List.append_assoc, List.singleton_append] at hsplit
  have hafter := hdistinct.split_unique hsplit
  have hi : (hashMap.mapIndex keying found.key : ℕ) < hashMap.buckets.length := by
    simp [HashMap.buckets]
  have hbuckets : hashMap.buckets[(hashMap.mapIndex keying found.key : ℕ)] =
      (front ++ [found]) ++ back := by
    refine (getElem_bucketsOf _ hi).trans ?_
    rw [hbucket]
    exact hitems.trans (List.append_cons front found back)
  have hnext : HashMap.nextFrom
      (hashMap.buckets.drop (hashMap.mapIndex keying found.key)) (front.length + 1) =
        after.head? := by
    rw [List.drop_eq_getElem_cons hi, hafter]
    simpa using nextFrom_eq _ (hashMap.buckets.drop (hashMap.mapIndex keying found.key + 1))
      (front ++ [found]) back hbuckets
  simp only [HashMap.getNextKeyAndData, hfind, Option.map_some, if_true, hnext]
  cases after.head? <;> rfl

theorem traverse_after (h : WellFormed keying hashMap) {fuel : ℕ}
    {before after : List (Entry Key Value)} {entry : Entry Key Value}
    (hentries : hashMap.entries = before ++ entry :: after) (hfuel : after.length < fuel) :
    hashMap.traverse keying fuel true entry.key = (after, some .noMoreEntries) := by
  induction after generalizing before entry fuel with
  | nil =>
      obtain ⟨fuel, rfl⟩ := Nat.exists_eq_add_of_lt hfuel
      simp [HashMap.traverse, getNextKeyAndData_after h hentries]
  | cons next after ih =>
      cases fuel with
      | zero => cases hfuel
      | succ fuel =>
          have hrest := ih (hentries.trans (List.append_cons before entry (next :: after)))
            (Nat.lt_of_succ_lt_succ hfuel)
          simp [HashMap.traverse, getNextKeyAndData_after h hentries, hrest]

/-- A loop over the keys sees every entry. -/
theorem traverse_eq (h : WellFormed keying hashMap) {fuel : ℕ} (hfuel : hashMap.size < fuel)
    (key : Key) :
    hashMap.traverse keying fuel false key = (hashMap.entries, some .noMoreEntries) := by
  have hfirst : hashMap.getNextKeyAndData keying false key =
      (hashMap.entries.head?).elim (.error .noMoreEntries) .ok := by
    have hnext : HashMap.nextFrom (hashMap.buckets.drop 0) 0 = hashMap.entries.head? :=
      nextFrom_zero _
    simp only [HashMap.getNextKeyAndData, Bool.false_eq_true, if_false, hnext]
    cases hashMap.entries.head? <;> rfl
  rw [h.size] at hfuel
  cases fuel with
  | zero => cases hfuel
  | succ fuel =>
      cases hentries : hashMap.entries with
      | nil => simp [HashMap.traverse, hfirst, hentries]
      | cons entry after =>
          rw [hentries, List.length_cons] at hfuel
          have hsplit : hashMap.entries = [] ++ entry :: after := hentries
          have hrest := traverse_after h hsplit (Nat.lt_of_succ_lt_succ hfuel)
          simp [HashMap.traverse, hfirst, hentries, hrest]

/-- In every map that a run leads to, a loop over the keys yields each of them once, with its
value, and ends. -/
theorem traversal_complete {supply : Supply} {capacity : ℕ} {hcapacity : 0 < capacity}
    {trace : List (Move (HashMap Key Value) (Call Key Value × Ret))}
    (hrun : Run (MapStep keying supply) (.empty capacity hcapacity) trace hashMap) {fuel : ℕ}
    (hfuel : hashMap.size < fuel) (key : Key) :
    ∃ entries, hashMap.traverse keying fuel false key = (entries, some .noMoreEntries) ∧
      entries.length = hashMap.size ∧ Distinct keying Entry.key entries ∧
      ∀ k value, hashMap.get keying k = some value ↔
        ∃ entry ∈ entries, keying.same entry.key k = true ∧ entry.value = value := by
  have h := wellFormed_run hrun
  refine ⟨hashMap.entries, traverse_eq h hfuel key, h.size.symm, h.sound.distinct, ?_⟩
  intro k value
  rw [get_eq h, view, Option.map_map, Option.map_eq_some_iff]
  constructor
  · rintro ⟨entry, hfind, rfl⟩
    exact ⟨entry, mem_of_find hfind, same_of_find hfind, rfl⟩
  · rintro ⟨entry, hentry, hsame, rfl⟩
    exact ⟨entry, h.sound.distinct.find_eq hentry hsame, rfl⟩

end Traversal

/-! ## The load -/

/-- No more entries than the load factor allows. -/
def HashMap.Fits (hashMap : HashMap Key Value) : Prop :=
  hashMap.size ≤ loadLimit hashMap.capacity

section Load

variable {hashMap : HashMap Key Value}

theorem yields_insertEntry_plenty {capacity : ℕ} (map : Vector (Bucket Key Value) capacity)
    (i : Fin capacity) (entry : Entry Key Value) :
    Yields .plenty (insertEntry map i entry) fun result => result ≠ none := by
  have hlist : Yields .plenty (Bucket.list (map.get i)) fun result => result ≠ none := by
    cases map.get i with
    | some list => exact .pure (by simp)
    | none =>
        refine yields_allocate_plenty.bind ?_
        rintro _ rfl
        refine yields_allocate_plenty.bind ?_
        rintro _ rfl
        exact .pure (by simp)
  have hadd : ∀ list : ArrayList (Entry Key Value),
      Yields .plenty (list.add entry) fun result => result ≠ none := by
    intro list
    unfold ArrayList.add
    split
    · exact .pure (by simp)
    · refine yields_allocate_plenty.bind ?_
      rintro _ rfl
      exact .pure (by simp)
  refine hlist.bind fun result hresult => ?_
  obtain ⟨list, rfl⟩ := Option.ne_none_iff_exists'.mp hresult
  refine (hadd list).bind fun result hresult => ?_
  obtain ⟨added, rfl⟩ := Option.ne_none_iff_exists'.mp hresult
  exact .pure (by simp)

theorem yields_checkAndGrow_plenty : Yields .plenty hashMap.checkAndGrow fun grown =>
    grown.size = hashMap.size ∧ grown.capacity =
      if hashMap.size ≥ loadLimit hashMap.capacity then 2 * hashMap.capacity
      else hashMap.capacity := by
  unfold HashMap.checkAndGrow
  split
  · refine (yields_allocate_plenty.bind (r := fun result => result ≠ none) ?_).bind ?_
    · rintro _ rfl
      exact .pure (by simp)
    · intro result hresult
      obtain ⟨newMap, rfl⟩ := Option.ne_none_iff_exists'.mp hresult
      have hmoved : Yields .plenty
          (foldWhile (fun map entry => insertEntry map
            ⟨entry.hashedKey % (2 * hashMap.capacity), Nat.mod_lt _ hashMap.positive_double⟩
            entry) newMap hashMap.entries)
          fun result => result.elim False fun _ => True := by
        refine Yields.foldWhile (I := fun _ _ => True) (fun _ entry map _ => ?_) trivial _
        refine (yields_insertEntry_plenty map _ entry).mono fun result hresult => ?_
        obtain ⟨map', rfl⟩ := Option.ne_none_iff_exists'.mp hresult
        trivial
      refine hmoved.bind fun result hresult => ?_
      cases result with
      | none => exact hresult.elim
      | some map => exact .pure ⟨rfl, rfl⟩
  · exact .pure ⟨rfl, rfl⟩

/-- A map that grows has room again. -/
theorem fits_of_grown {grown : HashMap Key Value} {size capacity : ℕ} (hcapacity : 0 < capacity)
    (hfits : size ≤ loadLimit capacity + 1) (hsize : grown.size = size)
    (hgrown : grown.capacity = if size ≥ loadLimit capacity then 2 * capacity else capacity) :
    grown.Fits := by
  rw [HashMap.Fits, hsize, hgrown]
  unfold loadLimit at *
  split <;> omega

theorem yields_set_plenty (keying : Keying Key) (hfits : hashMap.Fits) (key : Key)
    (value : Value) :
    Yields .plenty (hashMap.set keying key value) fun result =>
      result.1 = .ok ∧ result.2.Fits ∧
        (result.2.capacity = hashMap.capacity ∨ result.2.capacity = 2 * hashMap.capacity) := by
  unfold HashMap.set
  cases hashMap.hashMapFind keying key with
  | some found =>
      refine yields_checkAndGrow_plenty.bind fun grown ⟨hsize, hgrown⟩ => .pure ⟨rfl, ?_, ?_⟩
      · exact fits_of_grown hashMap.positive (Nat.le_succ_of_le hfits) hsize hgrown
      · rw [hgrown]
        split
        · exact .inr rfl
        · exact .inl rfl
  | none =>
      refine yields_allocate_plenty.bind ?_
      rintro _ rfl
      refine yields_allocate_plenty.bind ?_
      rintro _ rfl
      refine yields_allocate_plenty.bind ?_
      rintro _ rfl
      refine (yields_insertEntry_plenty _ _ _).bind fun result hresult => ?_
      obtain ⟨map, rfl⟩ := Option.ne_none_iff_exists'.mp hresult
      refine yields_checkAndGrow_plenty.bind fun grown ⟨hsize, hgrown⟩ => .pure ⟨rfl, ?_, ?_⟩
      · exact fits_of_grown hashMap.positive (Nat.succ_le_succ hfits) hsize hgrown
      · rw [hgrown]
        split
        · exact .inr rfl
        · exact .inl rfl

theorem fits_unset (keying : Keying Key) (hfits : hashMap.Fits) (key : Key) :
    (hashMap.unset keying key).Fits ∧
      (hashMap.unset keying key).capacity = hashMap.capacity := by
  unfold HashMap.unset
  cases hashMap.hashMapFind keying key with
  | none => exact ⟨hfits, rfl⟩
  | some found => exact ⟨Nat.le_trans (Nat.sub_le _ _) hfits, rfl⟩

/-- As long as there is memory, no call is refused, the buckets double in number, and no more
than three quarters as many entries as buckets are in the map. -/
theorem load_bounded {capacity : ℕ} {hcapacity : 0 < capacity}
    {trace : List (Move (HashMap Key Value) (Call Key Value × Ret))}
    (hrun : Run (MapStep keying .plenty) (.empty capacity hcapacity) trace hashMap) :
    hashMap.Fits ∧ (∃ n, hashMap.capacity = 2 ^ n * capacity) ∧
      ∀ move ∈ trace, move.label.2 = .ok := by
  have hstep : ∀ (source : HashMap Key Value) label target,
      source.Fits ∧ (∃ n, source.capacity = 2 ^ n * capacity) →
      MapStep keying .plenty source label target →
      (target.Fits ∧ ∃ n, target.capacity = 2 ^ n * capacity) ∧ label.2 = .ok := by
    rintro source label target ⟨hfits, n, hn⟩ hstep
    cases hstep with
    | unset key =>
        obtain ⟨hfits', hsame⟩ := fits_unset keying hfits key
        exact ⟨⟨hfits', n, hsame.trans hn⟩, rfl⟩
    | set key value memory hholds =>
        obtain ⟨⟨hok, hfits', hgrown⟩, -⟩ :=
          yields_set_plenty keying hfits key value memory hholds
        refine ⟨⟨hfits', ?_⟩, hok⟩
        obtain hsame | hdouble := hgrown
        · exact ⟨n, hsame.trans hn⟩
        · exact ⟨n + 1, by rw [hdouble, hn, Nat.pow_succ', Nat.mul_assoc]⟩
  have hempty : (HashMap.empty capacity hcapacity : HashMap Key Value).Fits ∧
      ∃ n, (HashMap.empty capacity hcapacity : HashMap Key Value).capacity = 2 ^ n * capacity :=
    ⟨Nat.zero_le _, 0, (Nat.one_mul _).symm⟩
  have hkeep : ∀ (source : HashMap Key Value) label target,
      source.Fits ∧ (∃ n, source.capacity = 2 ^ n * capacity) →
      MapStep keying .plenty source label target →
      target.Fits ∧ ∃ n, target.capacity = 2 ^ n * capacity :=
    fun _ _ _ h hmove => (hstep _ _ _ h hmove).1
  obtain ⟨hfits, hcapacity'⟩ := hrun.always hkeep hempty
  refine ⟨hfits, hcapacity', fun move hmove => ?_⟩
  obtain ⟨hmoves, hsource, -⟩ := hrun.moves_always hkeep hempty move hmove
  exact (hstep _ _ _ hsource hmoves).2

end Load

/-! ## Two keys in one bucket -/

section Examples

def natKeying : Keying ℕ where
  hash := id
  same := fun k k' => k = k'
  refl := by simp
  symm := by simp [eq_comm]
  trans := by simp
  hash_eq := by simp

abbrev NatTrace := List (Move (HashMap ℕ ℕ) (Call ℕ ℕ × Ret))

/-- One and five share a bucket until the map grows, and then one and nine do. -/
def sixCalls : List (Call ℕ ℕ) :=
  [.set 1 10, .set 5 50, .set 1 11, .set 3 30, .set 9 90, .unset 5]

theorem bucketsShared : ∃ (trace : NatTrace) (hashMap : HashMap ℕ ℕ),
    Run (MapStep natKeying .plenty) (.empty 4 (by decide)) trace hashMap ∧
      trace.map (fun move => move.label.1) = sixCalls ∧
      hashMap.buckets.map (List.map Entry.key) = [[], [1, 9], [], [3], [], [], [], []] ∧
      hashMap.get natKeying 1 = some 11 ∧ hashMap.size = 3 :=
  ⟨_, _, .cons (.set _ 1 10 (fun _ => true) fun _ => rfl) <|
    .cons (.set _ 5 50 (fun _ => true) fun _ => rfl) <|
    .cons (.set _ 1 11 (fun _ => true) fun _ => rfl) <|
    .cons (.set _ 3 30 (fun _ => true) fun _ => rfl) <|
    .cons (.set _ 9 90 (fun _ => true) fun _ => rfl) <|
    .cons (.unset _ 5) <| .nil _, rfl, rfl, rfl, rfl⟩

/-- The store has the second value of the key that was set twice. -/
theorem bucketsShared_refines : ∃ (trace : NatTrace) (hashMap : HashMap ℕ ℕ),
    trace.map (fun move => move.label.1) = sixCalls ∧
      hashMap.buckets.map (List.map Entry.key) = [[], [1, 9], [], [3], [], [], [], []] ∧
      ∃ moves store, Run (StoreStep natKeying) (fun _ => none) moves store ∧
        moves.map Move.label = trace.map Move.label ∧ (store 1).map Prod.snd = some 11 := by
  obtain ⟨trace, hashMap, hrun, hcalls, hbuckets, hvalue, -⟩ := bucketsShared
  obtain ⟨moves, store, hmoves, hlabels, hget, -⟩ := hashMap_refines_store hrun
  exact ⟨trace, hashMap, hcalls, hbuckets, moves, store, hmoves, hlabels, hvalue ▸ (hget 1).symm⟩

theorem bucketsShared_traversed : ∃ (trace : NatTrace) (hashMap : HashMap ℕ ℕ),
    trace.map (fun move => move.label.1) = sixCalls ∧
      ∃ entries, hashMap.traverse natKeying (hashMap.size + 1) false 0 =
        (entries, some .noMoreEntries) ∧ entries.length = 3 := by
  obtain ⟨trace, hashMap, hrun, hcalls, -, -, hsize⟩ := bucketsShared
  obtain ⟨entries, htraverse, hlength, -⟩ := traversal_complete hrun (Nat.lt_succ_self _) 0
  exact ⟨trace, hashMap, hcalls, entries, htraverse, hlength.trans hsize⟩

theorem bucketsShared_fits : ∃ (trace : NatTrace) (hashMap : HashMap ℕ ℕ),
    trace.map (fun move => move.label.1) = sixCalls ∧
      hashMap.buckets.map (List.map Entry.key) = [[], [1, 9], [], [3], [], [], [], []] ∧
      hashMap.Fits ∧ ∀ move ∈ trace, move.label.2 = .ok := by
  obtain ⟨trace, hashMap, hrun, hcalls, hbuckets, -⟩ := bucketsShared
  obtain ⟨hfits, -, hok⟩ := load_bounded hrun
  exact ⟨trace, hashMap, hcalls, hbuckets, hfits, hok⟩

end Examples

end RosRtems.Rcutils
