import RosRtems.Core.Allocation
import RosRtems.Core.HashTable

/-!
# The hash map

The map is an array of buckets, and a bucket a list of entries that is allocated when the
first one comes.  Every call that stores a value may double the number of buckets
afterwards; if there is no memory for that, the map stays as it is.
-/

namespace RosRtems.Rcutils

open RosRtems.Allocation
open RosRtems.HashTable

/-! ## Array lists -/

structure ArrayList (α : Type) where
  items : List α
  capacity : ℕ
  fits : items.length ≤ capacity
  positive : 0 < capacity

namespace ArrayList

variable {α : Type}

def init (capacity : ℕ) (hcapacity : 0 < capacity) : Allocating (Option (ArrayList α)) := do
  if ← allocate then
    if ← allocate then
      pure (some ⟨[], capacity, Nat.zero_le capacity, hcapacity⟩)
    else
      pure none
  else
    pure none

/-- `rcutils_array_list_add`, with the call to increase the capacity. -/
def add (list : ArrayList α) (a : α) : Allocating (Option (ArrayList α)) :=
  if hroom : list.items.length + 1 ≤ list.capacity then
    pure (some ⟨list.items ++ [a], list.capacity, by simpa using hroom, list.positive⟩)
  else do
    if ← allocate then
      have hfits : (list.items ++ [a]).length ≤ 2 * list.capacity := by
        have := list.fits
        have := list.positive
        simp only [List.length_append, List.length_singleton]
        omega
      pure (some ⟨list.items ++ [a], 2 * list.capacity, hfits, by have := list.positive; omega⟩)
    else
      pure none

def set (list : ArrayList α) (index : ℕ) (a : α) : ArrayList α :=
  ⟨list.items.set index a, list.capacity, by simpa using list.fits, list.positive⟩

def remove (list : ArrayList α) (index : ℕ) : ArrayList α :=
  ⟨list.items.eraseIdx index, list.capacity,
    Nat.le_trans (List.length_eraseIdx_le _ _) list.fits, list.positive⟩

end ArrayList

/-! ## The map -/

structure Entry (Key Value : Type) where
  hashedKey : ℕ
  key : Key
  value : Value

/-- A bucket that has not been initialized yet has no list. -/
abbrev Bucket (Key Value : Type) := Option (ArrayList (Entry Key Value))

def Bucket.items {Key Value : Type} : Bucket Key Value → List (Entry Key Value)
  | none => []
  | some list => list.items

structure HashMap (Key Value : Type) where
  capacity : ℕ
  map : Vector (Bucket Key Value) capacity
  size : ℕ
  positive : 0 < capacity

inductive Ret
  | ok
  | badAlloc
  | notFound
  | noMoreEntries
  deriving DecidableEq

variable {Key Value : Type}

/-- `(size_t)(LOAD_FACTOR * (double)capacity)`. -/
def loadLimit (capacity : ℕ) : ℕ := 3 * capacity / 4

def bucketInitialCap : ℕ := 2

def allocateNewMap (capacity : ℕ) : Allocating (Option (Vector (Bucket Key Value) capacity)) := do
  if ← allocate then
    pure (some (.replicate capacity none))
  else
    pure none

/-- The list of a bucket, which is initialized if it has not been yet. -/
def Bucket.list : Bucket Key Value → Allocating (Option (ArrayList (Entry Key Value)))
  | some list => pure (some list)
  | none => ArrayList.init bucketInitialCap (by decide)

/-- A list that has just been initialized has room, so that a map is left as it was if this
fails. -/
def insertEntry {capacity : ℕ} (map : Vector (Bucket Key Value) capacity)
    (bucketIndex : Fin capacity) (entry : Entry Key Value) :
    Allocating (Option (Vector (Bucket Key Value) capacity)) := do
  match ← Bucket.list (map.get bucketIndex) with
  | none => pure none
  | some list =>
      match ← list.add entry with
      | none => pure none
      | some list => pure (some (map.set bucketIndex (some list) bucketIndex.isLt))

/-- The loop of `hash_map_find` over a bucket. -/
def findInBucket {α : Type} (p : α → Bool) : List α → ℕ → Option (ℕ × α)
  | [], _ => none
  | a :: rest, i => if p a then some (i, a) else findInBucket p rest (i + 1)

namespace HashMap

def buckets (hashMap : HashMap Key Value) : List (List (Entry Key Value)) :=
  hashMap.map.toList.map Bucket.items

def entries (hashMap : HashMap Key Value) : List (Entry Key Value) :=
  hashMap.buckets.flatten

/-- `rcutils_hash_map_init`, where it gets all its memory. -/
def empty (capacity : ℕ) (hcapacity : 0 < capacity) : HashMap Key Value :=
  ⟨capacity, .replicate capacity none, 0, hcapacity⟩

theorem positive_double (hashMap : HashMap Key Value) : 0 < 2 * hashMap.capacity :=
  Nat.mul_pos Nat.two_pos hashMap.positive

/-- The entries are moved bucket by bucket. -/
def checkAndGrow (hashMap : HashMap Key Value) : Allocating (HashMap Key Value) :=
  if hashMap.size ≥ loadLimit hashMap.capacity then do
    match ← allocateNewMap (2 * hashMap.capacity) with
    | none => pure hashMap
    | some newMap =>
        match ← foldWhile (fun map entry => insertEntry map
          ⟨entry.hashedKey % (2 * hashMap.capacity), Nat.mod_lt _ hashMap.positive_double⟩ entry)
          newMap hashMap.entries with
        | none => pure hashMap
        | some map => pure ⟨2 * hashMap.capacity, map, hashMap.size, hashMap.positive_double⟩
  else
    pure hashMap

variable (keying : Keying Key)

def mapIndex (hashMap : HashMap Key Value) (key : Key) : Fin hashMap.capacity :=
  ⟨keying.hash key % hashMap.capacity, Nat.mod_lt _ hashMap.positive⟩

def hashMapFind (hashMap : HashMap Key Value) (key : Key) : Option (ℕ × Entry Key Value) :=
  findInBucket
    (fun entry => entry.hashedKey = keying.hash key && keying.same entry.key key)
    (Bucket.items (hashMap.map.get (hashMap.mapIndex keying key))) 0

/-- Something is done to the list of the bucket of a key. -/
def modifyBucket (hashMap : HashMap Key Value) (key : Key)
    (f : ArrayList (Entry Key Value) → ArrayList (Entry Key Value)) : HashMap Key Value :=
  let mapIndex := hashMap.mapIndex keying key
  { hashMap with map := hashMap.map.set mapIndex ((hashMap.map.get mapIndex).map f) mapIndex.isLt }

def set (hashMap : HashMap Key Value) (key : Key) (value : Value) :
    Allocating (Ret × HashMap Key Value) := do
  match hashMap.hashMapFind keying key with
  | some (bucketIndex, entry) =>
      let updated := hashMap.modifyBucket keying key fun list =>
        list.set bucketIndex { entry with value := value }
      pure (.ok, ← updated.checkAndGrow)
  | none =>
      if ← allocate then
        let keyGranted ← allocate
        let valueGranted ← allocate
        if keyGranted && valueGranted then
          match ← insertEntry hashMap.map (hashMap.mapIndex keying key)
              ⟨keying.hash key, key, value⟩ with
          | none => pure (.badAlloc, hashMap)
          | some map =>
              pure (.ok, ← checkAndGrow { hashMap with map := map, size := hashMap.size + 1 })
        else
          pure (.badAlloc, hashMap)
      else
        pure (.badAlloc, hashMap)

def unset (hashMap : HashMap Key Value) (key : Key) : HashMap Key Value :=
  match hashMap.hashMapFind keying key with
  | none => hashMap
  | some (bucketIndex, _) =>
      { hashMap.modifyBucket keying key fun list => list.remove bucketIndex with
        size := hashMap.size - 1 }

def keyExists (hashMap : HashMap Key Value) (key : Key) : Bool :=
  (hashMap.hashMapFind keying key).isSome

def get (hashMap : HashMap Key Value) (key : Key) : Option Value :=
  (hashMap.hashMapFind keying key).map fun found => found.2.value

/-- The loop of `rcutils_hash_map_get_next_key_and_data`: only in the first bucket it starts
in the middle. -/
def nextFrom : List (List (Entry Key Value)) → ℕ → Option (Entry Key Value)
  | [], _ => none
  | bucket :: rest, bucketIndex =>
      match bucket[bucketIndex]? with
      | some entry => some entry
      | none => nextFrom rest 0

/-- Of the previous key the source only asks whether there is one: it looks for what is in
the variable that the next key is written to. -/
def getNextKeyAndData (hashMap : HashMap Key Value) (hasPrevious : Bool) (key : Key) :
    Except Ret (Entry Key Value) :=
  let start := if hasPrevious then
      (hashMap.hashMapFind keying key).map fun found =>
        ((hashMap.mapIndex keying key : ℕ), found.1 + 1)
    else some (0, 0)
  match start with
  | none => .error .notFound
  | some (mapIndex, bucketIndex) =>
      match nextFrom (hashMap.buckets.drop mapIndex) bucketIndex with
      | none => .error .noMoreEntries
      | some entry => .ok entry

end HashMap

end RosRtems.Rcutils
