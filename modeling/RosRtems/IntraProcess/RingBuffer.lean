import RosRtems.Core.KeepLast

/-!
# The ring buffer of intra-process subscriptions

`RingBufferImplementation` and its refinement of a keep-last queue: the slots from
the read index on are the queue, oldest element first.
-/

namespace RosRtems.RingBuffer

open RosRtems.KeepLast

variable {BufferT : Type*}

/-- `RingBufferImplementation`.  The slots are those of a vector of `capacity`
elements; `default` is the value of `BufferT()`, which a moved-from pointer has
as well. -/
structure RingBufferImplementation (BufferT : Type*) where
  capacity : ℕ
  ringBuffer : ℕ → BufferT
  writeIndex : ℕ
  readIndex : ℕ
  size : ℕ

/-- The constructor, with the text of the exception it throws. -/
def create [Inhabited BufferT] (capacity : ℕ) :
    Except String (RingBufferImplementation BufferT) :=
  if capacity = 0 then .error "capacity must be a positive, non-zero value"
  else .ok
    { capacity := capacity
      ringBuffer := fun _ => default
      writeIndex := capacity - 1
      readIndex := 0
      size := 0 }

section Operations

variable (b : RingBufferImplementation BufferT)

def next (val : ℕ) : ℕ := (val + 1) % b.capacity

def hasData : Bool := b.size != 0

def isFull : Bool := b.size == b.capacity

def enqueue (request : BufferT) : RingBufferImplementation BufferT :=
  let writeIndex := next b b.writeIndex
  let stored :=
    { b with
      writeIndex := writeIndex
      ringBuffer := Function.update b.ringBuffer writeIndex request }
  if isFull b then { stored with readIndex := next b b.readIndex }
  else { stored with size := b.size + 1 }

def dequeue [Inhabited BufferT] : BufferT × RingBufferImplementation BufferT :=
  if hasData b then
    (b.ringBuffer b.readIndex,
      { b with
        ringBuffer := Function.update b.ringBuffer b.readIndex default
        readIndex := next b b.readIndex
        size := b.size - 1 })
  else (default, b)

/-- The stored elements, oldest first. -/
def contents : List BufferT :=
  window b.ringBuffer b.capacity b.readIndex b.size

/-- The indices are those of a window of the slots. -/
structure WellFormed : Prop where
  readIndex_lt : b.readIndex < b.capacity
  size_le : b.size ≤ b.capacity
  next_writeIndex : next b b.writeIndex = (b.readIndex + b.size) % b.capacity

end Operations

theorem create_wellFormed [Inhabited BufferT] {capacity : ℕ}
    {b : RingBufferImplementation BufferT}
    (hcreate : create capacity = .ok b) :
    WellFormed b ∧ contents b = [] ∧ b.capacity = capacity := by
  rw [create] at hcreate
  split at hcreate
  · cases hcreate
  · rename_i hpositive
    cases hcreate
    refine ⟨⟨by simp only; omega, Nat.zero_le _, ?_⟩, by simp [contents, window], rfl⟩
    simp only [next, Nat.add_zero]
    rw [Nat.sub_add_cancel (by omega), Nat.mod_self, Nat.zero_mod]

section Refinement

variable {b : RingBufferImplementation BufferT}

theorem contents_length : (contents b).length = b.size := window_length

theorem hasData_iff : hasData b = true ↔ contents b ≠ [] := by
  rw [← List.length_pos_iff, contents_length, hasData, bne_iff_ne, Nat.pos_iff_ne_zero]

theorem enqueue_of_full (hfull : b.size = b.capacity) (request : BufferT) :
    enqueue b request =
      { b with
        writeIndex := next b b.writeIndex
        ringBuffer := Function.update b.ringBuffer (next b b.writeIndex) request
        readIndex := next b b.readIndex } := by
  simp [enqueue, isFull, hfull]

theorem enqueue_of_lt (hless : b.size < b.capacity) (request : BufferT) :
    enqueue b request =
      { b with
        writeIndex := next b b.writeIndex
        ringBuffer := Function.update b.ringBuffer (next b b.writeIndex) request
        size := b.size + 1 } := by
  simp [enqueue, isFull, hless.ne]

/-- In a full buffer the slot after the written one is the oldest one. -/
theorem WellFormed.next_writeIndex_of_full (hb : WellFormed b)
    (hfull : b.size = b.capacity) : next b b.writeIndex = b.readIndex := by
  rw [hb.next_writeIndex, hfull, Nat.add_mod_right, Nat.mod_eq_of_lt hb.readIndex_lt]

theorem enqueue_wellFormed (hb : WellFormed b) (request : BufferT) :
    WellFormed (enqueue b request) := by
  have hpositive : 0 < b.capacity := Nat.zero_lt_of_lt hb.readIndex_lt
  have hread := hb.readIndex_lt
  rcases hb.size_le.eq_or_lt with hfull | hless
  · rw [enqueue_of_full hfull, hb.next_writeIndex_of_full hfull]
    refine ⟨Nat.mod_lt _ hpositive, hb.size_le, ?_⟩
    simp only [next, hfull, Nat.add_mod_right, Nat.mod_mod]
  · rw [enqueue_of_lt hless, hb.next_writeIndex]
    refine ⟨hread, hless, ?_⟩
    simp only [next, Nat.mod_add_mod, Nat.add_assoc]

/-- An enqueue is a push of the abstract queue. -/
theorem enqueue_contents (hb : WellFormed b) (request : BufferT) :
    contents (enqueue b request) = push b.capacity (contents b) request := by
  rcases hb.size_le.eq_or_lt with hfull | hless
  · have hnotLess : ¬ (contents b).length < b.capacity := by
      rw [contents_length]
      omega
    rw [push, if_neg hnotLess, enqueue_of_full hfull, hb.next_writeIndex_of_full hfull]
    simp only [contents, next, hfull]
    exact window_slide hb.readIndex_lt request
  · have hroom : (contents b).length < b.capacity := by rwa [contents_length]
    rw [push, if_pos hroom, enqueue_of_lt hless, hb.next_writeIndex]
    exact window_append hless request

end Refinement

section Dequeue

variable [Inhabited BufferT] {b : RingBufferImplementation BufferT}

theorem dequeue_of_empty (hempty : contents b = []) : dequeue b = (default, b) := by
  have hno : hasData b ≠ true := fun hdata => hasData_iff.mp hdata hempty
  rw [dequeue, if_neg hno]

/-- A dequeue takes the oldest element. -/
theorem dequeue_of_cons (hb : WellFormed b) {oldest : BufferT} {rest : List BufferT}
    (hcontents : contents b = oldest :: rest) :
    (dequeue b).1 = oldest ∧ contents (dequeue b).2 = rest ∧ WellFormed (dequeue b).2 ∧
      (dequeue b).2.capacity = b.capacity := by
  have hread := hb.readIndex_lt
  have hsizeLe := hb.size_le
  have hdata : hasData b = true := hasData_iff.mpr (by simp [hcontents])
  obtain ⟨size, hsize⟩ : ∃ size, b.size = size + 1 := by
    have hlength := contents_length (b := b)
    rw [hcontents, List.length_cons] at hlength
    exact ⟨rest.length, hlength.symm⟩
  have hwindow : contents b = b.ringBuffer b.readIndex ::
      window b.ringBuffer b.capacity (next b b.readIndex) size := by
    rw [contents, hsize, window_cons, Nat.mod_eq_of_lt hread, next]
  rw [hcontents] at hwindow
  obtain ⟨holdest, hrest⟩ := List.cons.inj hwindow
  rw [dequeue, if_pos hdata]
  refine ⟨holdest.symm, ?_, ⟨Nat.mod_lt _ (by omega), by simp only; omega, ?_⟩, rfl⟩
  · simp only [contents, hsize, Nat.add_sub_cancel]
    rw [next, window_update_start (by omega) hread, ← next, hrest]
  · have hnext := hb.next_writeIndex
    simp only [next, hsize, Nat.add_sub_cancel, Nat.mod_add_mod] at hnext ⊢
    rw [hnext]
    congr 1
    omega

/-- A dequeue that changes nothing finds nothing. -/
theorem dequeue_eq_self_iff (hb : WellFormed b) :
    dequeue b = (default, b) ↔ contents b = [] := by
  refine ⟨fun hsame => ?_, dequeue_of_empty⟩
  cases hcontents : contents b with
  | nil => rfl
  | cons oldest rest =>
      obtain ⟨-, hrest, -, -⟩ := dequeue_of_cons hb hcontents
      have hlength := congrArg List.length (hcontents.symm.trans (hsame ▸ hrest))
      simp at hlength

end Dequeue

/-! ## Sequences of operations -/

section Sequences

variable [Inhabited BufferT]

/-- An operation of the abstract queue, as the ring buffer carries it out. -/
def perform (b : RingBufferImplementation BufferT) :
    Operation BufferT → RingBufferImplementation BufferT
  | .push request => enqueue b request
  | .pop => (dequeue b).2

/-- What a ring buffer that holds a queue looks like, and what its operations do next. -/
structure KeepsLast (capacity : ℕ) (b : RingBufferImplementation BufferT)
    (queue : List BufferT) : Prop where
  size_le : b.size ≤ capacity
  readIndex_lt : b.readIndex < capacity
  writeIndex_lt : b.writeIndex < capacity
  writeIndex_eq : b.writeIndex = (b.readIndex + b.size + capacity - 1) % capacity
  contents_eq : contents b = queue
  dequeue_oldest : (dequeue b).1 = queue.headD default
  dequeue_default : dequeue b = (default, b) ↔ queue = []
  enqueue_full : ∀ request, b.size = capacity →
    contents (enqueue b request) = queue.tail ++ [request]

/-- A well-formed buffer, its write index included, and the queue that it holds. -/
structure Holds (capacity : ℕ) (b : RingBufferImplementation BufferT)
    (queue : List BufferT) : Prop where
  wellFormed : WellFormed b
  capacity_eq : b.capacity = capacity
  writeIndex_lt : b.writeIndex < capacity
  contents_eq : contents b = queue

variable {capacity : ℕ} {b : RingBufferImplementation BufferT} {queue : List BufferT}

theorem Holds.perform (hb : Holds capacity b queue) (operation : Operation BufferT) :
    Holds capacity (RingBuffer.perform b operation) (apply capacity queue operation) := by
  have hpositive : 0 < capacity :=
    hb.capacity_eq ▸ Nat.zero_lt_of_lt hb.wellFormed.readIndex_lt
  cases operation with
  | push request =>
      have hcapacity : (enqueue b request).capacity = b.capacity := by
        rw [enqueue]
        split <;> rfl
      have hwrite : (enqueue b request).writeIndex = next b b.writeIndex := by
        rw [enqueue]
        split <;> rfl
      refine ⟨enqueue_wellFormed hb.wellFormed request, hcapacity.trans hb.capacity_eq, ?_, ?_⟩
      · rw [RingBuffer.perform, hwrite, next, hb.capacity_eq]
        exact Nat.mod_lt _ hpositive
      · rw [RingBuffer.perform, enqueue_contents hb.wellFormed, hb.capacity_eq, hb.contents_eq]
        rfl
  | pop =>
      have hwrite : (dequeue b).2.writeIndex = b.writeIndex := by
        rw [dequeue]
        split <;> rfl
      cases hcontents : contents b with
      | nil =>
          have hqueue : queue = [] := hb.contents_eq.symm.trans hcontents
          rw [RingBuffer.perform, dequeue_of_empty hcontents, hqueue]
          exact ⟨hb.wellFormed, hb.capacity_eq, hb.writeIndex_lt, hcontents⟩
      | cons oldest rest =>
          obtain ⟨-, hrest, hwellFormed, hcapacity⟩ := dequeue_of_cons hb.wellFormed hcontents
          refine ⟨hwellFormed, hcapacity.trans hb.capacity_eq, hwrite ▸ hb.writeIndex_lt, ?_⟩
          rw [RingBuffer.perform, hrest, ← hb.contents_eq, hcontents]
          rfl

omit [Inhabited BufferT] in
/-- The write index is the one before the first free slot. -/
theorem Holds.writeIndex_eq (hb : Holds capacity b queue) :
    b.writeIndex = (b.readIndex + b.size + capacity - 1) % capacity := by
  have hpositive : 0 < capacity := Nat.zero_lt_of_lt hb.writeIndex_lt
  have hnext : b.writeIndex + 1 ≡ b.readIndex + b.size [MOD capacity] := by
    have hwellFormed := hb.wellFormed.next_writeIndex
    rwa [next, hb.capacity_eq] at hwellFormed
  have hback := hnext.add_right (capacity - 1)
  have hleft : b.writeIndex + 1 + (capacity - 1) = b.writeIndex + capacity := by omega
  have hright : b.readIndex + b.size + (capacity - 1) =
      b.readIndex + b.size + capacity - 1 := by omega
  rw [hleft, hright] at hback
  calc b.writeIndex = b.writeIndex % capacity := (Nat.mod_eq_of_lt hb.writeIndex_lt).symm
    _ = (b.writeIndex + capacity) % capacity := (Nat.add_mod_right _ _).symm
    _ = (b.readIndex + b.size + capacity - 1) % capacity := hback

theorem Holds.keepsLast (hb : Holds capacity b queue) : KeepsLast capacity b queue where
  size_le := hb.capacity_eq ▸ hb.wellFormed.size_le
  readIndex_lt := hb.capacity_eq ▸ hb.wellFormed.readIndex_lt
  writeIndex_lt := hb.writeIndex_lt
  writeIndex_eq := hb.writeIndex_eq
  contents_eq := hb.contents_eq
  dequeue_oldest := by
    cases hcontents : contents b with
    | nil =>
        rw [dequeue_of_empty hcontents, ← hb.contents_eq, hcontents]
        rfl
    | cons oldest rest =>
        rw [(dequeue_of_cons hb.wellFormed hcontents).1, ← hb.contents_eq, hcontents]
        rfl
  dequeue_default := by
    rw [dequeue_eq_self_iff hb.wellFormed, hb.contents_eq]
  enqueue_full := by
    intro request hfull
    have hlength : capacity ≤ queue.length := by
      rw [← hb.contents_eq, contents_length, hfull]
    rw [enqueue_contents hb.wellFormed, hb.capacity_eq, hb.contents_eq, push_of_full hlength]

/-- Whatever is done to a new ring buffer, it is the queue that keeps the last elements. -/
theorem ringBuffer_keepsLast (BufferT : Type*) [Inhabited BufferT] (capacity : ℕ)
    (hpositive : 0 < capacity) :
    ∃ fresh : RingBufferImplementation BufferT, create capacity = .ok fresh ∧
      ∀ operations : List (Operation BufferT),
        KeepsLast capacity (operations.foldl perform fresh)
          (operations.foldl (apply capacity) []) := by
  obtain ⟨fresh, hcreate⟩ : ∃ fresh : RingBufferImplementation BufferT,
      create capacity = .ok fresh := by
    rw [create, if_neg hpositive.ne']
    exact ⟨_, rfl⟩
  obtain ⟨hwellFormed, hempty, hcapacity⟩ := create_wellFormed hcreate
  have hwrite : fresh.writeIndex < capacity := by
    rw [create, if_neg hpositive.ne'] at hcreate
    cases hcreate
    exact Nat.sub_lt hpositive Nat.one_pos
  refine ⟨fresh, hcreate, fun operations => Holds.keepsLast ?_⟩
  exact List.foldl_rel ⟨hwellFormed, hcapacity, hwrite, hempty⟩
    fun operation _ b queue hb => hb.perform operation

/-- One element more than the buffer holds, and the oldest that is left comes out. -/
theorem ringBuffer_keepsLast_ofTwo :
    ∃ fresh : RingBufferImplementation ℕ, create 2 = .ok fresh ∧
      (dequeue ([.push 1, .pop, .push 2, .push 3, .push 4].foldl perform fresh)).1 = 3 := by
  obtain ⟨fresh, hcreate, hkeeps⟩ := ringBuffer_keepsLast ℕ 2 Nat.two_pos
  exact ⟨fresh, hcreate, (hkeeps [.push 1, .pop, .push 2, .push 3, .push 4]).dequeue_oldest⟩

end Sequences

end RosRtems.RingBuffer
