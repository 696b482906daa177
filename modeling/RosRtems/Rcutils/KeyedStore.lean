import RosRtems.Rcutils.HashMap
import RosRtems.Core.Runs
import Mathlib.Data.List.Find

/-!
# The hash map is a store

Whatever calls to set and unset values come in any order, and whichever of them get no
memory, the hash map contains what a plain store of keys and values would.  A call that
gets no memory leaves it unchanged and says so, unless only the growing failed.
-/

namespace RosRtems.Rcutils

open RosRtems.Allocation
open RosRtems.HashTable

variable {Key Value : Type} {keying : Keying Key}

/-! ## Buckets -/

section Buckets

variable {capacity : ℕ} {map : Vector (Bucket Key Value) capacity} {supply : Supply}

def bucketsOf (map : Vector (Bucket Key Value) capacity) : List (List (Entry Key Value)) :=
  map.toList.map Bucket.items

@[simp]
theorem length_bucketsOf : (bucketsOf map).length = capacity := by simp [bucketsOf]

theorem getElem_bucketsOf (i : Fin capacity) (hi : (i : ℕ) < (bucketsOf map).length) :
    (bucketsOf map)[(i : ℕ)] = Bucket.items (map.get i) := by
  simp only [bucketsOf, List.getElem_map, Vector.getElem_toList]
  rfl

theorem bucketsOf_set (i : Fin capacity) (bucket : Bucket Key Value) :
    bucketsOf (map.set i bucket i.isLt) = (bucketsOf map).set i bucket.items := by
  rw [bucketsOf, Vector.toList_set i.isLt, List.map_set]
  rfl

theorem bucketsOf_replicate :
    bucketsOf (Vector.replicate capacity (none : Bucket Key Value)) =
      List.replicate capacity [] := by
  simp [bucketsOf, Bucket.items]

/-- The entries of a map stand where their hashes say, and the hashes are those of their
keys. -/
structure Sound (keying : Keying Key) (map : Vector (Bucket Key Value) capacity) : Prop where
  placed : WellPlaced Entry.hashedKey (bucketsOf map)
  hashed : ∀ entry ∈ (bucketsOf map).flatten, entry.hashedKey = keying.hash entry.key
  distinct : Distinct keying Entry.key (bucketsOf map).flatten

theorem sound_replicate :
    Sound keying (Vector.replicate capacity (none : Bucket Key Value)) := by
  constructor
  · rw [bucketsOf_replicate]
    exact wellPlaced_replicate_nil capacity
  · simp [bucketsOf_replicate]
  · simp [bucketsOf_replicate, Distinct]

theorem yields_init {n : ℕ} {hn : 0 < n} :
    Yields supply (ArrayList.init n hn : Allocating (Option (ArrayList (Entry Key Value))))
      fun result => ∀ list ∈ result, list.items = [] := by
  refine yields_allocate.bind fun granted _ => ?_
  cases granted with
  | false => exact .pure (by simp)
  | true =>
      refine yields_allocate.bind fun granted _ => ?_
      cases granted with
      | false => exact .pure (by simp)
      | true => exact .pure (by simp)

theorem yields_add (list : ArrayList (Entry Key Value)) (entry : Entry Key Value) :
    Yields supply (list.add entry) fun result =>
      ∀ added ∈ result, added.items = list.items ++ [entry] := by
  unfold ArrayList.add
  split
  · exact .pure (by simp)
  · refine yields_allocate.bind fun granted _ => ?_
    cases granted with
    | false => exact .pure (by simp)
    | true => exact .pure (by simp)

theorem yields_list (bucket : Bucket Key Value) :
    Yields supply (Bucket.list bucket) fun result => ∀ list ∈ result, list.items = bucket.items := by
  cases bucket with
  | none => exact yields_init
  | some list => exact .pure (by simp [Bucket.items])

theorem yields_insertEntry (i : Fin capacity) (entry : Entry Key Value) :
    Yields supply (insertEntry map i entry) fun result => ∀ map' ∈ result,
      bucketsOf map' = (bucketsOf map).set i (Bucket.items (map.get i) ++ [entry]) := by
  refine (yields_list (map.get i)).bind fun bucket hitems => ?_
  cases bucket with
  | none => exact .pure (by simp)
  | some list =>
      refine (yields_add list entry).bind fun result hadded => ?_
      cases result with
      | none => exact .pure (by simp)
      | some added =>
          refine .pure ?_
          rintro map' ⟨⟩
          rw [bucketsOf_set, ← hitems list rfl, ← hadded added rfl]
          rfl

/-- Where an entry goes does not matter to what the map contains. -/
theorem flatten_insert_perm (i : Fin capacity) (entry : Entry Key Value) :
    ((bucketsOf map).set i (Bucket.items (map.get i) ++ [entry])).flatten.Perm
      ((bucketsOf map).flatten ++ [entry]) := by
  have hi : (i : ℕ) < (bucketsOf map).length := by simp
  rw [flatten_set hi, flatten_split hi, getElem_bucketsOf]
  simp only [List.append_assoc]
  exact (List.perm_append_comm.append_left _).append_left _

theorem wellPlaced_insert (hplaced : WellPlaced Entry.hashedKey (bucketsOf map)) {i : Fin capacity}
    {entry : Entry Key Value} (hslot : entry.hashedKey % capacity = i) :
    WellPlaced Entry.hashedKey ((bucketsOf map).set i (Bucket.items (map.get i) ++ [entry])) := by
  have hi : (i : ℕ) < (bucketsOf map).length := by simp
  apply hplaced.set
  intro e he
  obtain he | he := List.mem_append.mp he
  · exact hplaced i hi e (by rwa [getElem_bucketsOf])
  · rw [List.mem_singleton.mp he, length_bucketsOf, hslot]

end Buckets

/-! ## What a map contains -/

/-- The size that a map states is the number of its entries. -/
structure WellFormed (keying : Keying Key) (hashMap : HashMap Key Value) : Prop where
  sound : Sound keying hashMap.map
  size : hashMap.size = hashMap.entries.length

def contents (keying : Keying Key) (hashMap : HashMap Key Value) :
    Contents Key (Entry Key Value) :=
  find keying Entry.key hashMap.entries

section Contents

variable {hashMap : HashMap Key Value} {supply : Supply} {key : Key} {value : Value}

theorem wellFormed_empty {capacity : ℕ} {hcapacity : 0 < capacity} :
    WellFormed keying (HashMap.empty capacity hcapacity : HashMap Key Value) where
  sound := sound_replicate
  size := by
    change 0 = (bucketsOf (Vector.replicate capacity none)).flatten.length
    simp [bucketsOf_replicate]

/-- A map that was filled with the entries of another one, in any buckets, is as good. -/
theorem sound_of_perm {capacity : ℕ} {map : Vector (Bucket Key Value) capacity}
    {entries : List (Entry Key Value)} (hplaced : WellPlaced Entry.hashedKey (bucketsOf map))
    (hperm : (bucketsOf map).flatten.Perm entries)
    (hhashed : ∀ entry ∈ entries, entry.hashedKey = keying.hash entry.key)
    (hdistinct : Distinct keying Entry.key entries) : Sound keying map :=
  ⟨hplaced, fun entry hentry => hhashed entry (hperm.mem_iff.mp hentry),
    hdistinct.perm hperm.symm⟩

theorem yields_allocateNewMap {capacity : ℕ} :
    Yields supply (allocateNewMap capacity : Allocating (Option (Vector (Bucket Key Value) _)))
      fun result => ∀ map ∈ result, map = Vector.replicate capacity none := by
  refine yields_allocate.bind fun granted _ => ?_
  cases granted with
  | false => exact .pure (by simp)
  | true => exact .pure (by simp)

/-- What the entries of a map are moved to. -/
theorem yields_move {capacity : ℕ} (hcapacity : 0 < capacity)
    (entries : List (Entry Key Value)) :
    Yields supply
      (foldWhile (fun map entry => insertEntry map
        ⟨entry.hashedKey % capacity, Nat.mod_lt _ hcapacity⟩ entry)
        (Vector.replicate capacity none) entries)
      fun result => result.elim True fun map =>
        WellPlaced Entry.hashedKey (bucketsOf map) ∧ (bucketsOf map).flatten.Perm entries := by
  apply Yields.foldWhile (I := fun done map =>
    WellPlaced Entry.hashedKey (bucketsOf map) ∧ (bucketsOf map).flatten.Perm done)
  · rintro done entry map ⟨hplaced, hperm⟩
    refine (yields_insertEntry _ entry).mono fun result hinserted => ?_
    cases result with
    | none => trivial
    | some map' =>
        simp only [Option.elim_some]
        rw [hinserted map' rfl]
        exact ⟨wellPlaced_insert hplaced rfl,
          (flatten_insert_perm _ entry).trans (hperm.append_right [entry])⟩
  · rw [bucketsOf_replicate]
    exact ⟨wellPlaced_replicate_nil _, by simp⟩

/-- Growing changes nothing but the number of buckets, whether it succeeds or not. -/
theorem yields_checkAndGrow (h : WellFormed keying hashMap) :
    Yields supply hashMap.checkAndGrow fun grown =>
      WellFormed keying grown ∧ contents keying grown = contents keying hashMap := by
  unfold HashMap.checkAndGrow
  split
  · refine yields_allocateNewMap.bind fun result hnew => ?_
    cases result with
    | none => exact .pure ⟨h, rfl⟩
    | some newMap =>
        obtain rfl := hnew newMap rfl
        refine (yields_move hashMap.positive_double hashMap.entries).bind fun result hmoved => ?_
        cases result with
        | none => exact .pure ⟨h, rfl⟩
        | some map =>
            obtain ⟨hplaced, hperm⟩ := hmoved
            have hsound : Sound keying map :=
              sound_of_perm hplaced hperm h.sound.hashed h.sound.distinct
            exact .pure ⟨⟨hsound, h.size.trans hperm.length_eq.symm⟩,
              find_perm hsound.distinct hperm⟩
  · exact .pure ⟨h, rfl⟩

/-! ## Finding a key -/

theorem findInBucket_some {α : Type} {p : α → Bool} {list : List α} {start i : ℕ} {a : α}
    (hfind : findInBucket p list start = some (i, a)) :
    ∃ before after, list = before ++ a :: after ∧ i = start + before.length ∧ p a = true := by
  induction list generalizing start with
  | nil => cases hfind
  | cons b rest ih =>
      rw [findInBucket] at hfind
      split at hfind
      · next hp =>
          cases hfind
          exact ⟨[], rest, rfl, rfl, hp⟩
      · obtain ⟨before, after, rfl, rfl, hp⟩ := ih hfind
        exact ⟨b :: before, after, rfl, by simp only [List.length_cons]; omega, hp⟩

theorem findInBucket_snd {α : Type} (p : α → Bool) (list : List α) (start : ℕ) :
    (findInBucket p list start).map Prod.snd = list.find? p := by
  induction list generalizing start with
  | nil => rfl
  | cons b rest ih => cases hp : p b <;> simp [findInBucket, hp, ih]

/-- Looking into one bucket finds what the map contains. -/
theorem hashMapFind_snd (h : Sound keying hashMap.map) (key : Key) :
    (hashMap.hashMapFind keying key).map Prod.snd = contents keying hashMap key := by
  have hi : (hashMap.mapIndex keying key : ℕ) < (bucketsOf hashMap.map).length := by simp
  rw [HashMap.hashMapFind, findInBucket_snd, ← getElem_bucketsOf _ hi,
    h.placed.find?_bucket hi]
  · apply List.find?_congr
    intro entry hentry
    cases hsame : keying.same entry.key key with
    | false => simp
    | true => simp [h.hashed entry hentry, keying.hash_eq _ _ hsame]
  · intro entry hentry
    simp only [Bool.and_eq_true, decide_eq_true_eq] at hentry
    simp [hentry.1, HashMap.mapIndex]

/-- Where an entry was found. -/
theorem hashMapFind_split {i : ℕ} {entry : Entry Key Value}
    (hfind : hashMap.hashMapFind keying key = some (i, entry)) :
    ∃ list front back, hashMap.map.get (hashMap.mapIndex keying key) = some list ∧
      list.items = front ++ entry :: back ∧ front.length = i ∧
      keying.same entry.key key = true := by
  obtain ⟨front, back, hitems, rfl, hp⟩ := findInBucket_some hfind
  rw [Nat.zero_add]
  simp only [Bool.and_eq_true, decide_eq_true_eq] at hp
  cases hbucket : hashMap.map.get (hashMap.mapIndex keying key) with
  | none =>
      rw [hbucket] at hitems
      simp [Bucket.items] at hitems
  | some list =>
      rw [hbucket] at hitems
      exact ⟨list, front, back, rfl, hitems, rfl, hp.2⟩

/-- The entries around one that stands in the bucket of a key. -/
theorem entries_split {list : ArrayList (Entry Key Value)}
    {front middle back : List (Entry Key Value)}
    (hbucket : hashMap.map.get (hashMap.mapIndex keying key) = some list)
    (hitems : list.items = front ++ middle ++ back) :
    hashMap.entries = ((hashMap.buckets.take (hashMap.mapIndex keying key)).flatten ++ front) ++
      middle ++ (back ++ (hashMap.buckets.drop (hashMap.mapIndex keying key + 1)).flatten) := by
  have hi : (hashMap.mapIndex keying key : ℕ) < (bucketsOf hashMap.map).length := by simp
  refine (flatten_split hi).trans ?_
  rw [getElem_bucketsOf, hbucket]
  change _ ++ list.items ++ _ = _
  rw [hitems]
  simp only [List.append_assoc]
  rfl

/-- What becomes of a map if the bucket of a key is changed. -/
theorem buckets_modifyBucket {list : ArrayList (Entry Key Value)}
    (hbucket : hashMap.map.get (hashMap.mapIndex keying key) = some list)
    (f : ArrayList (Entry Key Value) → ArrayList (Entry Key Value)) :
    (hashMap.modifyBucket keying key f).buckets =
      hashMap.buckets.set (hashMap.mapIndex keying key) (f list).items := by
  refine (bucketsOf_set _ _).trans ?_
  rw [hbucket]
  rfl

theorem wellPlaced_modifyBucket (h : Sound keying hashMap.map)
    {list : ArrayList (Entry Key Value)}
    (hbucket : hashMap.map.get (hashMap.mapIndex keying key) = some list)
    (f : ArrayList (Entry Key Value) → ArrayList (Entry Key Value))
    (hslots : ∀ entry ∈ (f list).items, ∃ entry' ∈ list.items,
      entry.hashedKey = entry'.hashedKey) :
    WellPlaced Entry.hashedKey (hashMap.modifyBucket keying key f).buckets := by
  have hi : (hashMap.mapIndex keying key : ℕ) < (bucketsOf hashMap.map).length := by simp
  rw [buckets_modifyBucket hbucket]
  apply h.placed.set
  intro entry hentry
  obtain ⟨entry', hentry', hslot⟩ := hslots entry hentry
  rw [hslot]
  apply h.placed _ hi
  rw [getElem_bucketsOf, hbucket]
  exact hentry'

theorem entries_modifyBucket {list : ArrayList (Entry Key Value)}
    {front middle back : List (Entry Key Value)}
    (hbucket : hashMap.map.get (hashMap.mapIndex keying key) = some list)
    (f : ArrayList (Entry Key Value) → ArrayList (Entry Key Value))
    (hitems : (f list).items = front ++ middle ++ back) :
    (hashMap.modifyBucket keying key f).entries =
      ((hashMap.buckets.take (hashMap.mapIndex keying key)).flatten ++ front) ++ middle ++
        (back ++ (hashMap.buckets.drop (hashMap.mapIndex keying key + 1)).flatten) := by
  have hi : (hashMap.mapIndex keying key : ℕ) < hashMap.buckets.length := by
    simp [HashMap.buckets]
  rw [HashMap.entries, buckets_modifyBucket hbucket, flatten_set hi, hitems]
  simp only [List.append_assoc]

/-! ## Setting and unsetting -/

theorem wellFormed_of_entries {entries : List (Entry Key Value)}
    (hplaced : WellPlaced Entry.hashedKey hashMap.buckets) (hentries : hashMap.entries = entries)
    (hhashed : ∀ entry ∈ entries, entry.hashedKey = keying.hash entry.key)
    (hdistinct : Distinct keying Entry.key entries) (hsize : hashMap.size = entries.length) :
    WellFormed keying hashMap ∧ contents keying hashMap = find keying Entry.key entries := by
  subst hentries
  exact ⟨⟨⟨hplaced, hhashed, hdistinct⟩, hsize⟩, rfl⟩

theorem wellFormed_modifyBucket (h : WellFormed keying hashMap) {i : ℕ} {entry : Entry Key Value}
    (hfind : hashMap.hashMapFind keying key = some (i, entry)) (value : Value) :
    WellFormed keying (hashMap.modifyBucket keying key fun list =>
        list.set i { entry with value := value }) ∧
      contents keying (hashMap.modifyBucket keying key fun list =>
        list.set i { entry with value := value }) =
        (contents keying hashMap).insert keying Entry.key { entry with value := value } := by
  obtain ⟨list, front, back, hbucket, hitems, rfl, -⟩ := hashMapFind_split hfind
  have hentries := entries_split hbucket (hitems.trans (List.append_cons front entry back))
  have hitems' : (list.set front.length { entry with value := value }).items =
      front ++ [{ entry with value := value }] ++ back := by
    simp [ArrayList.set, hitems]
  have hentries' := entries_modifyBucket hbucket
    (fun list => list.set front.length { entry with value := value }) hitems'
  have hplaced := wellPlaced_modifyBucket h.sound hbucket
    (fun list => list.set front.length { entry with value := value }) <| by
      intro e he
      change e ∈ (list.set _ _).items at he
      simp only [hitems', List.mem_append, List.mem_singleton] at he
      obtain (he | rfl) | he := he
      · exact ⟨e, by simp [hitems, he], rfl⟩
      · exact ⟨entry, by simp [hitems], rfl⟩
      · exact ⟨e, by simp [hitems, he], rfl⟩
  generalize (hashMap.buckets.take _).flatten ++ front = before at hentries hentries'
  generalize back ++ (hashMap.buckets.drop _).flatten = after at hentries hentries'
  rw [List.append_assoc, List.singleton_append] at hentries hentries'
  have hdistinct : Distinct keying Entry.key (before ++ entry :: after) :=
    hentries ▸ h.sound.distinct
  have hhashed : ∀ e ∈ before ++ entry :: after, e.hashedKey = keying.hash e.key :=
    hentries ▸ h.sound.hashed
  have hcontents : contents keying hashMap = find keying Entry.key (before ++ entry :: after) :=
    congrArg (find keying Entry.key) hentries
  have hkey : keying.same entry.key ({ entry with value := value } : Entry Key Value).key = true :=
    keying.refl _
  rw [hcontents, ← find_replace hdistinct hkey]
  apply wellFormed_of_entries hplaced hentries'
  · simp only [List.mem_append, List.mem_cons] at hhashed ⊢
    rintro e (he | rfl | he)
    · exact hhashed e (.inl he)
    · exact hhashed entry (.inr (.inl rfl))
    · exact hhashed e (.inr (.inr he))
  · simp only [Distinct, List.pairwise_append, List.pairwise_cons, List.mem_cons] at hdistinct ⊢
    refine ⟨hdistinct.1, hdistinct.2.1, ?_⟩
    rintro e he e' (rfl | he')
    · exact hdistinct.2.2 e he entry (.inl rfl)
    · exact hdistinct.2.2 e he e' (.inr he')
  · refine h.size.trans ?_
    rw [hentries]
    simp

theorem wellFormed_unset (h : WellFormed keying hashMap) (key : Key) :
    WellFormed keying (hashMap.unset keying key) ∧
      contents keying (hashMap.unset keying key) = (contents keying hashMap).erase keying key := by
  have hsnd := hashMapFind_snd h.sound key
  cases hfind : hashMap.hashMapFind keying key with
  | none =>
      have hunset : hashMap.unset keying key = hashMap := by rw [HashMap.unset, hfind]
      rw [hfind, Option.map_none] at hsnd
      rw [hunset]
      refine ⟨h, ?_⟩
      funext k
      cases hsame : keying.same key k with
      | false => simp [Contents.erase, hsame]
      | true =>
          have hnone : contents keying hashMap k = none := (find_congr hsame).symm.trans hsnd.symm
          simp [Contents.erase, hsame, hnone]
  | some found =>
      obtain ⟨i, entry⟩ := found
      obtain ⟨list, front, back, hbucket, hitems, rfl, hsame⟩ := hashMapFind_split hfind
      have hentries := entries_split hbucket (hitems.trans (List.append_cons front entry back))
      have hitems' : (list.remove front.length).items = front ++ [] ++ back := by
        simp [ArrayList.remove, hitems, List.eraseIdx_append_of_length_le]
      have hunset : hashMap.unset keying key =
          { hashMap.modifyBucket keying key fun list => list.remove front.length with
            size := hashMap.size - 1 } := by rw [HashMap.unset, hfind]
      have hplaced : WellPlaced Entry.hashedKey (hashMap.unset keying key).buckets := by
        rw [hunset]
        refine wellPlaced_modifyBucket h.sound hbucket _ fun e he => ⟨e, ?_, rfl⟩
        exact (List.eraseIdx_sublist _ _).subset he
      have hentries' := entries_modifyBucket hbucket (fun list => list.remove front.length) hitems'
      have hsameEntries : (hashMap.unset keying key).entries =
          (hashMap.modifyBucket keying key fun list => list.remove front.length).entries := by
        rw [hunset]
        rfl
      rw [← hsameEntries] at hentries'
      generalize (hashMap.buckets.take _).flatten ++ front = before at hentries hentries'
      generalize back ++ (hashMap.buckets.drop _).flatten = after at hentries hentries'
      rw [List.append_assoc, List.singleton_append] at hentries
      rw [List.append_nil] at hentries'
      have hdistinct : Distinct keying Entry.key (before ++ entry :: after) :=
        hentries ▸ h.sound.distinct
      have hcontents : contents keying hashMap =
          find keying Entry.key (before ++ entry :: after) :=
        congrArg (find keying Entry.key) hentries
      have hsub : (before ++ after).Sublist (before ++ entry :: after) :=
        (List.sublist_cons_self entry after).append_left before
      rw [hcontents, ← find_remove hdistinct hsame]
      apply wellFormed_of_entries hplaced hentries'
      · have hhashed : ∀ e ∈ before ++ entry :: after, e.hashedKey = keying.hash e.key :=
          hentries ▸ h.sound.hashed
        exact fun e he => hhashed e (hsub.subset he)
      · exact hdistinct.sublist hsub
      · rw [hunset]
        change hashMap.size - 1 = _
        rw [h.size, hentries]
        simp only [List.length_append, List.length_cons]
        omega

theorem wellFormed_insert (h : WellFormed keying hashMap)
    (hnew : hashMap.hashMapFind keying key = none)
    {map : Vector (Bucket Key Value) hashMap.capacity}
    (hinserted : bucketsOf map = (bucketsOf hashMap.map).set (hashMap.mapIndex keying key)
      (Bucket.items (hashMap.map.get (hashMap.mapIndex keying key)) ++
        [⟨keying.hash key, key, value⟩])) :
    WellFormed keying { hashMap with map := map, size := hashMap.size + 1 } ∧
      contents keying { hashMap with map := map, size := hashMap.size + 1 } =
        (contents keying hashMap).insert keying Entry.key ⟨keying.hash key, key, value⟩ := by
  have hnone : find keying Entry.key hashMap.entries key = none := by
    rw [← contents, ← hashMapFind_snd h.sound, hnew]
    rfl
  have hperm : (bucketsOf map).flatten.Perm
      (hashMap.entries ++ [⟨keying.hash key, key, value⟩]) := by
    rw [hinserted]
    exact flatten_insert_perm _ _
  have hdistinct : Distinct keying Entry.key
      (hashMap.entries ++ [⟨keying.hash key, key, value⟩]) :=
    distinct_append_iff.mpr ⟨h.sound.distinct, hnone⟩
  have hsound : Sound keying map := by
    refine sound_of_perm ?_ hperm ?_ hdistinct
    · rw [hinserted]
      exact wellPlaced_insert h.sound.placed rfl
    · intro entry hentry
      obtain hentry | hentry := List.mem_append.mp hentry
      · exact h.sound.hashed entry hentry
      · rw [List.mem_singleton.mp hentry]
  refine ⟨⟨hsound, ?_⟩, ?_⟩
  · refine (congrArg (· + 1) h.size).trans (Eq.trans ?_ hperm.length_eq.symm)
    rw [List.length_append, List.length_singleton]
  · have hnew' : find keying Entry.key hashMap.entries
        (⟨keying.hash key, key, value⟩ : Entry Key Value).key = none := hnone
    exact (find_perm hsound.distinct hperm).trans (find_concat hnew')

/-- What a call to set a value comes to, whatever memory it gets. -/
theorem yields_set (h : WellFormed keying hashMap) (key : Key) (value : Value) :
    Yields supply (hashMap.set keying key value) fun result =>
      WellFormed keying result.2 ∧
        (result.1 = .ok ∧ (∃ entry, (contents keying result.2) =
            (contents keying hashMap).insert keying Entry.key entry ∧ entry.value = value ∧
              entry.key = ((contents keying hashMap key).map Entry.key).getD key) ∨
          result.1 = .badAlloc ∧ result.2 = hashMap ∧ contents keying hashMap key = none) := by
  have hsnd := hashMapFind_snd h.sound key
  unfold HashMap.set
  cases hfind : hashMap.hashMapFind keying key with
  | some found =>
      obtain ⟨i, entry⟩ := found
      obtain ⟨hupdated, hcontents⟩ := wellFormed_modifyBucket h hfind value
      refine (yields_checkAndGrow hupdated).bind fun grown ⟨hgrown, hsame⟩ => ?_
      refine .pure ⟨hgrown, .inl ⟨rfl, _, hsame.trans hcontents, rfl, ?_⟩⟩
      rw [← hsnd, hfind]
      rfl
  | none =>
      have hnone : contents keying hashMap key = none := by rw [← hsnd, hfind]; rfl
      refine yields_allocate.bind fun granted _ => ?_
      cases granted with
      | false => exact .pure ⟨h, .inr ⟨rfl, rfl, hnone⟩⟩
      | true =>
          refine yields_allocate.bind fun keyGranted _ => ?_
          refine yields_allocate.bind fun valueGranted _ => ?_
          cases keyGranted && valueGranted with
          | false => exact .pure ⟨h, .inr ⟨rfl, rfl, hnone⟩⟩
          | true =>
              refine (yields_insertEntry _ _).bind fun result hinserted => ?_
              cases result with
              | none => exact .pure ⟨h, .inr ⟨rfl, rfl, hnone⟩⟩
              | some map =>
                  obtain ⟨hwell, hcontents⟩ := wellFormed_insert h hfind (hinserted map rfl)
                  refine (yields_checkAndGrow hwell).bind fun grown ⟨hgrown, hsame⟩ => ?_
                  refine .pure ⟨hgrown, .inl ⟨rfl, _, hsame.trans hcontents, rfl, ?_⟩⟩
                  rw [hnone]
                  rfl

end Contents

end RosRtems.Rcutils
