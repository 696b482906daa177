import RosRtems.Core.Runs
import RosRtems.Core.Custody
import RosRtems.Core.LinkedChain
import Mathlib.Logic.Function.Basic

/-!
# The stack of idle threads

`StackAtomic` swaps the head of a linked list and frees a node as soon as it has been
popped.  A thread that has loaded the head may find the node freed when it reads
its `next`, and may find the head at the same address again with another node there.
Where neither happens, the stack pops every element once and loses none.
-/

namespace RosRtems.StackAtomic

open RosRtems.Runs RosRtems.LinkedChain

variable {Thread Addr : Type*}

/-- A node, with the data named by the number of the `push` that brought it. -/
structure StackNode (Addr : Type*) where
  data : ℕ
  next : Option Addr

/-- Where a thread is.  In `push`: before the allocation, before the load of the head,
before the swap.  In `pop`: before the load, with a loaded head, with the `next` it has
read from it, past a successful swap, and with the data, before the deletion. -/
inductive StackPc (Addr : Type*)
  | outside
  | pushNew (data : ℕ)
  | pushLoad (newNode : Addr)
  | pushSwap (newNode : Addr)
  | popLoad
  | popTest (curHead : Option Addr)
  | popSwap (curHead : Addr) (next : Option Addr)
  | popData (curHead : Addr)
  | popDelete (curHead : Addr) (data : ℕ)

/-- The head and the allocated nodes, and what is recorded about the run: the calls
of `push`, those whose swap has succeeded, the data that `pop` has returned, whether a
freed node has been read, and whether the stack was found empty in the current `pop`. -/
structure StackState (Thread Addr : Type*) where
  head : Option Addr
  memory : Addr → Option (StackNode Addr)
  thread : Thread → StackPc Addr
  pushes : ℕ
  linked : List ℕ
  popped : List ℕ
  freedRead : Bool
  emptySeen : Thread → Prop

inductive StackLabel (Thread Addr : Type*)
  | push (t : Thread)
  | pop (t : Thread)
  | alloc (t : Thread) (newNode : Addr)
  | swap (t : Thread)
  | step (t : Thread)

def StackState.initial : StackState Thread Addr where
  head := none
  memory := fun _ => none
  thread := fun _ => .outside
  pushes := 0
  linked := []
  popped := []
  freedRead := false
  emptySeen := fun _ => False

/-- The thread has taken the element off the stack and not returned it yet. -/
def Taking (s : StackState Thread Addr) (t : Thread) (data : ℕ) : Prop :=
  (∃ a node, s.thread t = .popData a ∧ s.memory a = some node ∧ node.data = data) ∨
    ∃ a, s.thread t = .popDelete a data

/-- The element has been popped, by a `pop` that has returned or is about to. -/
def Popped (s : StackState Thread Addr) (data : ℕ) : Prop :=
  data ∈ s.popped ∨ ∃ t, Taking s t data

/-- Every element that was pushed has been popped. -/
def Empty (s : StackState Thread Addr) : Prop :=
  ∀ data ∈ s.linked, Popped s data

variable [DecidableEq Thread] [DecidableEq Addr]

namespace StackState

def moveThread (s : StackState Thread Addr) (t : Thread) (pc : StackPc Addr) :
    StackState Thread Addr :=
  { s with thread := Function.update s.thread t pc }

def write (s : StackState Thread Addr) (a : Addr) (node : Option (StackNode Addr)) :
    StackState Thread Addr :=
  { s with memory := Function.update s.memory a node }

/-- The load of the head in `pop`, which notes whether the stack is empty. -/
def loadHead (s : StackState Thread Addr) (t : Thread) : StackState Thread Addr :=
  { s.moveThread t (.popTest s.head) with
    emptySeen := Function.update s.emptySeen t (s.emptySeen t ∨ Empty s) }

end StackState

open StackState

/-- Any order of the atomic steps.  The allocator hands out any address that is not
allocated; a weak swap may fail although the head is as expected; and a read of a
freed node gives anything. -/
inductive StackStep : StackState Thread Addr → StackLabel Thread Addr →
    StackState Thread Addr → Prop
  | push (s : StackState Thread Addr) (t : Thread) (hpc : s.thread t = .outside) :
      StackStep s (.push t) { s.moveThread t (.pushNew s.pushes) with
        pushes := s.pushes + 1 }
  | alloc (s : StackState Thread Addr) (t : Thread) (data : ℕ) (newNode : Addr)
      (hpc : s.thread t = .pushNew data) (hfree : s.memory newNode = none) :
      StackStep s (.alloc t newNode)
        ((s.write newNode (some ⟨data, none⟩)).moveThread t (.pushLoad newNode))
  | pushLoad (s : StackState Thread Addr) (t : Thread) (newNode : Addr)
      (node : StackNode Addr) (hpc : s.thread t = .pushLoad newNode)
      (hnode : s.memory newNode = some node) :
      StackStep s (.step t)
        ((s.write newNode (some ⟨node.data, s.head⟩)).moveThread t (.pushSwap newNode))
  | pushSwap (s : StackState Thread Addr) (t : Thread) (newNode : Addr)
      (node : StackNode Addr) (hpc : s.thread t = .pushSwap newNode)
      (hnode : s.memory newNode = some node) (hexpected : s.head = node.next) :
      StackStep s (.swap t) { s.moveThread t .outside with
        head := some newNode
        linked := s.linked ++ [node.data] }
  | pushRetry (s : StackState Thread Addr) (t : Thread) (newNode : Addr)
      (node : StackNode Addr) (hpc : s.thread t = .pushSwap newNode)
      (hnode : s.memory newNode = some node) :
      StackStep s (.step t) (s.write newNode (some ⟨node.data, s.head⟩))
  | pop (s : StackState Thread Addr) (t : Thread) (hpc : s.thread t = .outside) :
      StackStep s (.pop t) { s.moveThread t .popLoad with
        emptySeen := Function.update s.emptySeen t False }
  | popLoad (s : StackState Thread Addr) (t : Thread) (hpc : s.thread t = .popLoad) :
      StackStep s (.step t) (s.loadHead t)
  | popNull (s : StackState Thread Addr) (t : Thread)
      (hpc : s.thread t = .popTest none) :
      StackStep s (.step t) (s.moveThread t .outside)
  | readNext (s : StackState Thread Addr) (t : Thread) (a : Addr)
      (node : StackNode Addr) (hpc : s.thread t = .popTest (some a))
      (hnode : s.memory a = some node) :
      StackStep s (.step t) (s.moveThread t (.popSwap a node.next))
  | readFreedNext (s : StackState Thread Addr) (t : Thread) (a : Addr)
      (next : Option Addr) (hpc : s.thread t = .popTest (some a))
      (hfree : s.memory a = none) :
      StackStep s (.step t) { s.moveThread t (.popSwap a next) with freedRead := true }
  | popSwap (s : StackState Thread Addr) (t : Thread) (a : Addr) (next : Option Addr)
      (hpc : s.thread t = .popSwap a next) (hexpected : s.head = some a) :
      StackStep s (.swap t) { s.moveThread t (.popData a) with head := next }
  | popRetry (s : StackState Thread Addr) (t : Thread) (a : Addr) (next : Option Addr)
      (hpc : s.thread t = .popSwap a next) :
      StackStep s (.step t) (s.loadHead t)
  | readData (s : StackState Thread Addr) (t : Thread) (a : Addr)
      (node : StackNode Addr) (hpc : s.thread t = .popData a)
      (hnode : s.memory a = some node) :
      StackStep s (.step t) (s.moveThread t (.popDelete a node.data))
  | readFreedData (s : StackState Thread Addr) (t : Thread) (a : Addr) (data : ℕ)
      (hpc : s.thread t = .popData a) (hfree : s.memory a = none) :
      StackStep s (.step t) { s.moveThread t (.popDelete a data) with freedRead := true }
  | delete (s : StackState Thread Addr) (t : Thread) (a : Addr) (data : ℕ)
      (hpc : s.thread t = .popDelete a data) :
      StackStep s (.step t) { (s.write a none).moveThread t .outside with
        popped := s.popped ++ [data] }

/-! ## What the stack is to do -/

/-- The link in the node at an address, where there is a node. -/
def follow (s : StackState Thread Addr) (a : Addr) : Option (Option Addr) :=
  (s.memory a).map (·.next)

/-- The element is in a node that a traversal from the head comes to. -/
def Reachable (s : StackState Thread Addr) (data : ℕ) : Prop :=
  ∃ a node, Reaches (follow s) s.head a ∧ s.memory a = some node ∧ node.data = data

/-- No element is popped twice, or without having been pushed. -/
def PoppedOnce (s : StackState Thread Addr) : Prop :=
  s.popped.Nodup ∧ (∀ t data, Taking s t data → data ∉ s.popped) ∧
    (∀ t other data, Taking s t data → Taking s other data → other = t) ∧
    ∀ data, Popped s data → data ∈ s.linked

/-- Elements are popped once, none is lost, no freed node has been read, and a `pop`
about to return null has seen the stack empty. -/
def Correct (s : StackState Thread Addr) : Prop :=
  PoppedOnce s ∧
    (∀ data ∈ s.linked, Popped s data ∨ Reachable s data) ∧
    s.freedRead = false ∧ ∀ t, s.thread t = .popTest none → s.emptySeen t

/-- No thread deletes a node that another has loaded as the head and of which it has
still to read `next`; and no `pop` swaps the head where the node at the address it
has loaded no longer has the `next` it has read. -/
def Undisturbed (s : StackState Thread Addr) : StackLabel Thread Addr → Prop
  | .push _ | .pop _ | .alloc _ _ => True
  | .swap t => ∀ a next node, s.thread t = .popSwap a next → s.memory a = some node →
      node.next = next
  | .step t => ∀ a data, s.thread t = .popDelete a data →
      ∀ other, s.thread other ≠ .popTest (some a)

/-! ## The nodes -/

/-- The node that only this thread has: not yet on the list, or no longer. -/
def StackPc.ownNode : StackPc Addr → Option Addr
  | .pushLoad a | .pushSwap a | .popData a | .popDelete a _ => some a
  | .outside | .pushNew _ | .popLoad | .popTest _ | .popSwap _ _ => none

/-- The list is a chain of allocated nodes, every other node belongs to one thread, and
a node whose `next` is about to be read is allocated. -/
structure HeapInvariant (s : StackState Thread Addr) (nodes : List Addr) : Prop where
  chain : Chain (follow s) s.head nodes
  apart : ∀ t a, (s.thread t).ownNode = some a → a ∉ nodes
  single : ∀ t other a, (s.thread t).ownNode = some a →
    (s.thread other).ownNode = some a → other = t
  owned : ∀ t a, (s.thread t).ownNode = some a → ∃ node, s.memory a = some node
  loaded : ∀ t a, s.thread t = .popTest (some a) → ∃ node, s.memory a = some node

section Heap

variable {s s' : StackState Thread Addr} {nodes : List Addr} {t : Thread}

omit [DecidableEq Thread] [DecidableEq Addr] in
theorem follow_congr (hmemory : s'.memory = s.memory) : follow s' = follow s := by
  funext a
  rw [follow, follow, hmemory]

omit [DecidableEq Addr] in
theorem thread_cases {pc : StackPc Addr} (hthread : s'.thread = Function.update s.thread t pc)
    (u : Thread) : u = t ∧ s'.thread u = pc ∨ u ≠ t ∧ s'.thread u = s.thread u := by
  rw [hthread]
  by_cases hu : u = t
  · exact .inl ⟨hu, by rw [hu, Function.update_self]⟩
  · exact .inr ⟨hu, Function.update_of_ne hu _ _⟩

omit [DecidableEq Thread] [DecidableEq Addr] in
/-- A thread that has at most a node which no other has leaves every node with one
thread. -/
theorem single_moves {own own' : Thread → Option Addr} {a : Addr}
    (hsingle : ∀ u v b, own u = some b → own v = some b → v = u)
    (hothers : ∀ u, u ≠ t → own u ≠ some a) (hmine : ∀ b, own' t = some b → b = a)
    (hsame : ∀ u, u ≠ t → own' u = own u) :
    ∀ u v b, own' u = some b → own' v = some b → v = u := by
  intro u v b hu hv
  by_cases hfirst : u = t
  · subst hfirst
    by_contra hne
    rw [hsame v hne, hmine b hu] at hv
    exact hothers v hne hv
  · rw [hsame u hfirst] at hu
    by_cases hsecond : v = t
    · subst hsecond
      rw [hmine b hv] at hu
      exact absurd hu (hothers u hfirst)
    · rw [hsame v hsecond] at hv
      exact hsingle u v b hu hv

omit [DecidableEq Thread] [DecidableEq Addr] in
theorem HeapInvariant.allocated (hs : HeapInvariant s nodes) {a : Addr} (hmem : a ∈ nodes) :
    ∃ node, s.memory a = some node := by
  obtain ⟨next, hnext⟩ := hs.chain.follow_isSome hmem
  rw [follow, Option.map_eq_some_iff] at hnext
  obtain ⟨node, hnode, -⟩ := hnext
  exact ⟨node, hnode⟩

omit [DecidableEq Addr] in
/-- A thread that goes on with the node it has, or without it. -/
theorem HeapInvariant.thread_moves (hs : HeapInvariant s nodes) (pc : StackPc Addr)
    (hown : ∀ a, pc.ownNode = some a → (s.thread t).ownNode = some a)
    (hloaded : ∀ a, pc = .popTest (some a) → ∃ node, s.memory a = some node)
    (hthread : s'.thread = Function.update s.thread t pc) (hmemory : s'.memory = s.memory)
    (hhead : s'.head = s.head) : HeapInvariant s' nodes := by
  have hbefore : ∀ other a, (s'.thread other).ownNode = some a →
      (s.thread other).ownNode = some a := by
    intro other a hother
    rcases thread_cases hthread other with ⟨rfl, hpc⟩ | ⟨-, hpc⟩
    · exact hown a (hpc ▸ hother)
    · rwa [hpc] at hother
  constructor
  case chain =>
    rw [hhead, follow_congr hmemory]
    exact hs.chain
  case apart => exact fun other a hother => hs.apart other a (hbefore other a hother)
  case single =>
    exact fun first second a hfirst hsecond =>
      hs.single first second a (hbefore first a hfirst) (hbefore second a hsecond)
  case owned =>
    intro other a hother
    rw [hmemory]
    exact hs.owned other a (hbefore other a hother)
  case loaded =>
    intro other a hother
    rw [hmemory]
    rcases thread_cases hthread other with ⟨rfl, hpc⟩ | ⟨-, hpc⟩
    · exact hloaded a (hpc ▸ hother)
    · exact hs.loaded other a (hpc ▸ hother)

/-- A thread that writes a node which is off the list and which no other has. -/
theorem HeapInvariant.writes (hs : HeapInvariant s nodes) (pc : StackPc Addr) (a : Addr)
    (content : Option (StackNode Addr)) (hoff : a ∉ nodes)
    (hothers : ∀ other, other ≠ t → (s.thread other).ownNode ≠ some a)
    (hreaders : ∀ other, other ≠ t → s.thread other = .popTest (some a) →
      ∃ node, content = some node)
    (hown : ∀ b, pc.ownNode = some b → b = a ∧ ∃ node, content = some node)
    (hpc : ∀ link, pc ≠ .popTest link)
    (hthread : s'.thread = Function.update s.thread t pc)
    (hmemory : s'.memory = Function.update s.memory a content)
    (hhead : s'.head = s.head) : HeapInvariant s' nodes := by
  have hmine : ∀ b, (s'.thread t).ownNode = some b → b = a ∧ ∃ node, content = some node := by
    intro b hb
    rw [hthread, Function.update_self] at hb
    exact hown b hb
  have hother : ∀ other, other ≠ t → s'.thread other = s.thread other := by
    intro other hne
    rw [hthread, Function.update_of_ne hne]
  constructor
  case chain =>
    rw [hhead]
    apply hs.chain.frame
    intro b hb
    have hne : b ≠ a := fun h => hoff (h ▸ hb)
    rw [follow, follow, hmemory, Function.update_of_ne hne]
  case apart =>
    intro other b hb
    by_cases hsame : other = t
    · subst hsame
      rw [(hmine b hb).1]
      exact hoff
    · rw [hother other hsame] at hb
      exact hs.apart other b hb
  case single =>
    apply single_moves hs.single hothers
    · exact fun b hb => (hmine b hb).1
    · intro other hne
      rw [hother other hne]
  case owned =>
    intro other b hb
    rw [hmemory]
    by_cases hsame : other = t
    · subst hsame
      obtain ⟨rfl, node, rfl⟩ := hmine b hb
      exact ⟨node, Function.update_self ..⟩
    · rw [hother other hsame] at hb
      have hne : b ≠ a := fun h => hothers other hsame (h ▸ hb)
      rw [Function.update_of_ne hne]
      exact hs.owned other b hb
  case loaded =>
    intro other b hb
    rw [hmemory]
    by_cases hsame : other = t
    · subst hsame
      rw [hthread, Function.update_self] at hb
      exact absurd hb (hpc _)
    · rw [hother other hsame] at hb
      by_cases hne : b = a
      · subst hne
        obtain ⟨node, rfl⟩ := hreaders other hsame hb
        exact ⟨node, Function.update_self ..⟩
      · rw [Function.update_of_ne hne]
        exact hs.loaded other b hb

omit [DecidableEq Addr] in
/-- A successful swap of `push` puts the thread's node in front. -/
theorem HeapInvariant.pushSwap (hs : HeapInvariant s nodes) {newNode : Addr}
    {node : StackNode Addr} (hpc : s.thread t = .pushSwap newNode)
    (hnode : s.memory newNode = some node) (hexpected : s.head = node.next)
    (hthread : s'.thread = Function.update s.thread t .outside)
    (hmemory : s'.memory = s.memory) (hhead : s'.head = some newNode) :
    HeapInvariant s' (newNode :: nodes) := by
  have hmine : (s.thread t).ownNode = some newNode := by rw [hpc]; rfl
  have hbefore : ∀ other a, (s'.thread other).ownNode = some a →
      other ≠ t ∧ (s.thread other).ownNode = some a := by
    intro other a hother
    rw [hthread] at hother
    have hne : other ≠ t := by
      rintro rfl
      simp [StackPc.ownNode] at hother
    exact ⟨hne, by rwa [Function.update_of_ne hne] at hother⟩
  constructor
  case chain =>
    have hfirst : follow s newNode = some s.head := by
      rw [follow, hnode, hexpected]
      rfl
    rw [hhead, follow_congr hmemory]
    exact .cons hfirst hs.chain
  case apart =>
    intro other a hother
    obtain ⟨hne, hown⟩ := hbefore other a hother
    rw [List.mem_cons, not_or]
    refine ⟨?_, hs.apart other a hown⟩
    rintro rfl
    exact hne (hs.single t other a hmine hown)
  case single =>
    exact fun first second a hfirst hsecond =>
      hs.single first second a (hbefore first a hfirst).2 (hbefore second a hsecond).2
  case owned =>
    intro other a hother
    rw [hmemory]
    exact hs.owned other a (hbefore other a hother).2
  case loaded =>
    intro other a hother
    rw [hmemory]
    rw [hthread] at hother
    have hne : other ≠ t := by
      rintro rfl
      simp at hother
    rw [Function.update_of_ne hne] at hother
    exact hs.loaded other a hother

omit [DecidableEq Addr] in
/-- A successful swap of `pop` takes the first node off the list, where its `next` is
what the thread has read. -/
theorem HeapInvariant.popSwap {a : Addr} {next : Option Addr} {rest : List Addr}
    (hs : HeapInvariant s (a :: rest)) (hrest : Chain (follow s) next rest)
    (hthread : s'.thread = Function.update s.thread t (.popData a))
    (hmemory : s'.memory = s.memory) (hhead : s'.head = next) :
    HeapInvariant s' rest := by
  have hnodup := hs.chain.nodup
  rw [List.nodup_cons] at hnodup
  have hother : ∀ other, other ≠ t → s'.thread other = s.thread other := by
    intro other hne
    rw [hthread, Function.update_of_ne hne]
  have hmine : ∀ b, (s'.thread t).ownNode = some b → b = a := by
    intro b hb
    rw [hthread, Function.update_self, StackPc.ownNode, Option.some.injEq] at hb
    exact hb.symm
  have hnone : ∀ other, (s.thread other).ownNode ≠ some a :=
    fun other hown => hs.apart other a hown (List.mem_cons_self ..)
  constructor
  case chain =>
    rw [hhead, follow_congr hmemory]
    exact hrest
  case apart =>
    intro other b hb
    by_cases hsame : other = t
    · subst hsame
      rw [hmine b hb]
      exact hnodup.1
    · rw [hother other hsame] at hb
      exact fun hmem => hs.apart other b hb (List.mem_cons_of_mem a hmem)
  case single =>
    apply single_moves hs.single (fun other _ => hnone other) hmine
    intro other hne
    rw [hother other hne]
  case owned =>
    intro other b hb
    rw [hmemory]
    by_cases hsame : other = t
    · subst hsame
      rw [hmine b hb]
      exact hs.allocated (List.mem_cons_self ..)
    · rw [hother other hsame] at hb
      exact hs.owned other b hb
  case loaded =>
    intro other b hb
    rw [hmemory]
    have hne : other ≠ t := by
      rintro rfl
      rw [hthread, Function.update_self] at hb
      cases hb
    rw [hother other hne] at hb
    exact hs.loaded other b hb

end Heap

/-! ## The elements -/

/-- The element that the thread pushes or has popped. -/
def heldData (memory : Addr → Option (StackNode Addr)) : StackPc Addr → Option ℕ
  | .pushNew data => some data
  | .pushLoad a | .pushSwap a | .popData a => (memory a).map (·.data)
  | .popDelete _ data => some data
  | .outside | .popLoad | .popTest _ | .popSwap _ _ => none

def StackPc.IsPush : StackPc Addr → Prop
  | .pushNew _ | .pushLoad _ | .pushSwap _ => True
  | .outside | .popLoad | .popTest _ | .popSwap _ _ | .popData _ | .popDelete _ _ => False

/-- No thread is in the `push` of the element. -/
def Unpushed (memory : Addr → Option (StackNode Addr)) (thread : Thread → StackPc Addr)
    (data : ℕ) : Prop :=
  ∀ t, (thread t).IsPush → heldData memory (thread t) ≠ some data

/-- The elements as tokens, in the custody of a thread or of a node of the list. -/
def ledger (s : StackState Thread Addr) (nodes : List Addr) :
    Custody.Ledger (Thread ⊕ Addr) ℕ where
  holds
    | .inl t => heldData s.memory (s.thread t)
    | .inr a => if a ∈ nodes then (s.memory a).map (·.data) else none
  issued := fun data => data < s.pushes
  finished := s.popped

/-- The elements whose `push` has succeeded are those that no thread is pushing. -/
structure StackInvariant (s : StackState Thread Addr) (nodes : List Addr) : Prop where
  heap : HeapInvariant s nodes
  balanced : (ledger s nodes).Balanced
  linked : ∀ data, data ∈ s.linked ↔ data < s.pushes ∧ Unpushed s.memory s.thread data
  sound : s.freedRead = false
  seen : ∀ t, s.thread t = .popTest none → s.emptySeen t

section Elements

variable {s s' : StackState Thread Addr} {nodes : List Addr} {t : Thread}

omit [DecidableEq Thread] [DecidableEq Addr] in
theorem taking_iff {data : ℕ} : Taking s t data ↔
    ¬ (s.thread t).IsPush ∧ heldData s.memory (s.thread t) = some data := by
  cases hpc : s.thread t <;>
    simp [Taking, hpc, heldData, StackPc.IsPush, Option.map_eq_some_iff]

omit [DecidableEq Thread] in
/-- A linked element has been popped or is in a node of the list. -/
theorem StackInvariant.popped_or_listed (hs : StackInvariant s nodes) {data : ℕ}
    (hlinked : data ∈ s.linked) :
    Popped s data ∨ ∃ a ∈ nodes, ∃ node, s.memory a = some node ∧ node.data = data := by
  obtain ⟨hissued, hpush⟩ := (hs.linked data).mp hlinked
  rcases (hs.balanced.accounted data).mp hissued with hdone | ⟨place, hheld⟩
  · exact .inl (.inl hdone)
  · cases place with
    | inl t =>
        have hnot : ¬ (s.thread t).IsPush := fun hpc => hpush t hpc hheld
        exact .inl (.inr ⟨t, taking_iff.mpr ⟨hnot, hheld⟩⟩)
    | inr a =>
        simp only [ledger] at hheld
        split at hheld
        · rename_i hmem
          obtain ⟨node, hnode, hdata⟩ := Option.map_eq_some_iff.mp hheld
          exact .inr ⟨a, hmem, node, hnode, hdata⟩
        · cases hheld

omit [DecidableEq Thread] in
/-- Where the head is null, every element has been popped. -/
theorem StackInvariant.empty (hs : StackInvariant s nodes) (hhead : s.head = none) :
    Empty s := by
  intro data hlinked
  have hchain := hs.heap.chain
  rw [hhead] at hchain
  have hnodes := hchain.of_none
  subst hnodes
  rcases hs.popped_or_listed hlinked with hpopped | ⟨a, hmem, -⟩
  · exact hpopped
  · cases hmem

omit [DecidableEq Thread] in
theorem StackInvariant.poppedOnce (hs : StackInvariant s nodes) : PoppedOnce s := by
  have hheld : ∀ {t data}, Taking s t data → (ledger s nodes).holds (.inl t) = some data :=
    fun htaking => (taking_iff.mp htaking).2
  refine ⟨hs.balanced.once, fun t data htaking => hs.balanced.pending _ _ (hheld htaking),
    fun t other data hmine hother => ?_, fun data hpopped => ?_⟩
  · exact Sum.inl.inj (hs.balanced.single _ _ _ (hheld hother) (hheld hmine))
  · rw [hs.linked]
    constructor
    · apply (hs.balanced.accounted data).mpr
      exact hpopped.imp id fun ⟨t, htaking⟩ => ⟨.inl t, hheld htaking⟩
    · intro t hpush hmine
      rcases hpopped with hdone | ⟨other, htaking⟩
      · exact hs.balanced.pending (.inl t) data hmine hdone
      · have hsame := hs.balanced.single (.inl t) (.inl other) data hmine (hheld htaking)
        rw [Sum.inl.injEq] at hsame
        exact (taking_iff.mp htaking).1 (hsame ▸ hpush)

omit [DecidableEq Thread] in
theorem StackInvariant.correct (hs : StackInvariant s nodes) : Correct s := by
  refine ⟨hs.poppedOnce, fun data hlinked => ?_, hs.sound, hs.seen⟩
  refine (hs.popped_or_listed hlinked).imp_right ?_
  rintro ⟨a, hmem, node, hnode, hdata⟩
  exact ⟨a, node, hs.heap.chain.reaches hmem, hnode, hdata⟩

omit [DecidableEq Thread] [DecidableEq Addr] in
/-- What a thread has depends on its own node. -/
theorem heldData_congr {memory memory' : Addr → Option (StackNode Addr)}
    {pc : StackPc Addr}
    (hsame : ∀ a, pc.ownNode = some a →
      (memory' a).map (·.data) = (memory a).map (·.data)) :
    heldData memory' pc = heldData memory pc := by
  cases pc with
  | pushLoad a | pushSwap a | popData a => exact hsame a rfl
  | outside | pushNew _ | popLoad | popTest _ | popSwap _ _ | popDelete _ _ => rfl

omit [DecidableEq Thread] in
/-- A step that moves no element. -/
theorem StackInvariant.stay (hs : StackInvariant s nodes) (hheap : HeapInvariant s' nodes)
    (hheld : ∀ u, heldData s'.memory (s'.thread u) = heldData s.memory (s.thread u))
    (hpush : ∀ u, (s'.thread u).IsPush ↔ (s.thread u).IsPush)
    (hdata : ∀ a ∈ nodes, (s'.memory a).map (·.data) = (s.memory a).map (·.data))
    (hpushes : s'.pushes = s.pushes) (hlinked : s'.linked = s.linked)
    (hpopped : s'.popped = s.popped) (hsound : s'.freedRead = s.freedRead)
    (hseen : ∀ u, s'.thread u = .popTest none → s'.emptySeen u) :
    StackInvariant s' nodes where
  heap := hheap
  balanced := by
    apply hs.balanced.stay
    · funext place
      cases place with
      | inl u => exact hheld u
      | inr a =>
          simp only [ledger]
          split
          · rename_i hmem
            exact hdata a hmem
          · rfl
    · simp [ledger, hpushes]
    · simp [ledger, hpopped]
  linked := by simpa only [Unpushed, hheld, hpush, hpushes, hlinked] using hs.linked
  sound := by rw [hsound]; exact hs.sound
  seen := hseen

omit [DecidableEq Addr] in
/-- A thread that is not about to return null. -/
theorem seen_moves (hseen : ∀ u, s.thread u = .popTest none → s.emptySeen u)
    {pc : StackPc Addr} (hthread : s'.thread = Function.update s.thread t pc)
    (hsame : s'.emptySeen = s.emptySeen) (hpc : pc ≠ .popTest none) :
    ∀ u, s'.thread u = .popTest none → s'.emptySeen u := by
  intro u hnull
  rcases thread_cases hthread u with ⟨-, hu⟩ | ⟨-, hu⟩
  · exact absurd (hu ▸ hnull) hpc
  · rw [hsame]
    exact hseen u (hu ▸ hnull)

/-- A thread that goes on with the element it has, or without one. -/
theorem StackInvariant.thread_moves (hs : StackInvariant s nodes) (pc : StackPc Addr)
    (hown : ∀ a, pc.ownNode = some a → (s.thread t).ownNode = some a)
    (hloaded : ∀ a, pc = .popTest (some a) → ∃ node, s.memory a = some node)
    (hheld : heldData s.memory pc = heldData s.memory (s.thread t))
    (hpush : pc.IsPush ↔ (s.thread t).IsPush)
    (hseen : pc = .popTest none → s'.emptySeen t)
    (hothers : ∀ other, other ≠ t → s'.emptySeen other = s.emptySeen other)
    (hthread : s'.thread = Function.update s.thread t pc) (hmemory : s'.memory = s.memory)
    (hhead : s'.head = s.head) (hpushes : s'.pushes = s.pushes)
    (hlinked : s'.linked = s.linked) (hpopped : s'.popped = s.popped)
    (hsound : s'.freedRead = s.freedRead) : StackInvariant s' nodes := by
  refine hs.stay (hs.heap.thread_moves pc hown hloaded hthread hmemory hhead) ?_ ?_ ?_
    hpushes hlinked hpopped hsound ?_
  · intro u
    rcases thread_cases hthread u with ⟨rfl, hpc⟩ | ⟨-, hpc⟩
    · rw [hpc, hmemory, hheld]
    · rw [hpc, hmemory]
  · intro u
    rcases thread_cases hthread u with ⟨rfl, hpc⟩ | ⟨-, hpc⟩
    · rw [hpc, hpush]
    · rw [hpc]
  · intro a _
    rw [hmemory]
  · intro u hnull
    rcases thread_cases hthread u with ⟨rfl, hpc⟩ | ⟨hu, hpc⟩
    · exact hseen (hpc ▸ hnull)
    · rw [hothers u hu]
      exact hs.seen u (hpc ▸ hnull)

/-- A thread that allocates its node or writes the `next` of it. -/
theorem StackInvariant.writes (hs : StackInvariant s nodes) (pc : StackPc Addr) (a : Addr)
    (node : StackNode Addr) (hoff : a ∉ nodes)
    (hothers : ∀ other, other ≠ t → (s.thread other).ownNode ≠ some a)
    (hpc : pc = .pushLoad a ∨ pc = .pushSwap a) (hpush : (s.thread t).IsPush)
    (hheld : heldData s.memory (s.thread t) = some node.data)
    (hthread : s'.thread = Function.update s.thread t pc)
    (hmemory : s'.memory = Function.update s.memory a (some node))
    (hhead : s'.head = s.head) (hpushes : s'.pushes = s.pushes)
    (hlinked : s'.linked = s.linked) (hpopped : s'.popped = s.popped)
    (hsound : s'.freedRead = s.freedRead) (hseen : s'.emptySeen = s.emptySeen) :
    StackInvariant s' nodes := by
  have hown : pc.ownNode = some a := by rcases hpc with rfl | rfl <;> rfl
  have hnode : heldData s'.memory pc = some node.data := by
    rcases hpc with rfl | rfl <;> simp [heldData, hmemory]
  have hispush : pc.IsPush := by rcases hpc with rfl | rfl <;> trivial
  have htest : ∀ link, pc ≠ .popTest link := by rcases hpc with rfl | rfl <;> simp
  have hother : ∀ b, b ≠ a → s'.memory b = s.memory b := by
    intro b hb
    rw [hmemory, Function.update_of_ne hb]
  refine hs.stay ?_ ?_ ?_ ?_ hpushes hlinked hpopped hsound ?_
  · refine hs.heap.writes pc a (some node) hoff hothers (fun _ _ _ => ⟨node, rfl⟩) ?_
      htest hthread hmemory hhead
    intro b hb
    rw [hown, Option.some.injEq] at hb
    exact ⟨hb.symm, node, rfl⟩
  · intro u
    rcases thread_cases hthread u with ⟨rfl, hu⟩ | ⟨hne, hu⟩
    · rw [hu, hnode, hheld]
    · rw [hu]
      apply heldData_congr
      intro b hb
      rw [hother b fun h => hothers u hne (h ▸ hb)]
  · intro u
    rcases thread_cases hthread u with ⟨rfl, hu⟩ | ⟨-, hu⟩
    · rw [hu]
      exact iff_of_true hispush hpush
    · rw [hu]
  · intro b hb
    rw [hother b fun h => hoff (h ▸ hb)]
  · exact seen_moves hs.seen hthread hseen (htest none)

omit [DecidableEq Addr] in
theorem unpushed_update {memory : Addr → Option (StackNode Addr)}
    {thread : Thread → StackPc Addr} {pc : StackPc Addr} {data : ℕ} :
    Unpushed memory (Function.update thread t pc) data ↔
      (pc.IsPush → heldData memory pc ≠ some data) ∧
        ∀ u, u ≠ t → (thread u).IsPush → heldData memory (thread u) ≠ some data := by
  constructor
  · intro hall
    constructor
    · simpa only [Function.update_self] using hall t
    · intro u hu
      simpa only [Function.update_of_ne hu] using hall u
  · rintro ⟨hmine, hothers⟩ u
    by_cases hu : u = t
    · subst hu
      simpa only [Function.update_self] using hmine
    · simpa only [Function.update_of_ne hu] using hothers u hu

omit [DecidableEq Addr] in
theorem unpushed_split (t : Thread) {memory : Addr → Option (StackNode Addr)}
    {thread : Thread → StackPc Addr} {data : ℕ} : Unpushed memory thread data ↔
      ((thread t).IsPush → heldData memory (thread t) ≠ some data) ∧
        ∀ u, u ≠ t → (thread u).IsPush → heldData memory (thread u) ≠ some data := by
  rw [← unpushed_update, Function.update_eq_self]

/-- A call of `push` brings a new element. -/
theorem StackInvariant.push (hs : StackInvariant s nodes) (hpc : s.thread t = .outside) :
    StackInvariant { s.moveThread t (.pushNew s.pushes) with pushes := s.pushes + 1 }
      nodes := by
  have hfresh : ∀ u, heldData s.memory (s.thread u) ≠ some s.pushes := fun u hheld =>
    hs.balanced.not_held (Nat.lt_irrefl s.pushes) (.inl u) hheld
  constructor
  case heap => exact hs.heap.thread_moves _ (by simp [StackPc.ownNode]) (by simp) rfl rfl rfl
  case balanced =>
    refine hs.balanced.issue (p := .inl t) (t := s.pushes) ?_ (Nat.lt_irrefl s.pushes) ?_ ?_
      rfl
    · simp [ledger, hpc, heldData]
    · funext place
      cases place with
      | inl u =>
          by_cases hu : u = t
          · subst hu
            simp [ledger, moveThread, heldData]
          · simp [ledger, moveThread, hu]
      | inr a => simp [ledger, moveThread]
    · intro data
      simp only [ledger]
      omega
  case linked =>
    intro data
    change data ∈ s.linked ↔ data < s.pushes + 1 ∧
      Unpushed s.memory (Function.update s.thread t (.pushNew s.pushes)) data
    rw [hs.linked, unpushed_split t, unpushed_update, hpc]
    simp only [StackPc.IsPush, heldData, false_implies, true_and, true_implies, ne_eq,
      Option.some.injEq, Nat.lt_succ_iff_lt_or_eq]
    have hold : data < s.pushes → ¬ s.pushes = data := Nat.ne_of_gt
    tauto
  case sound => exact hs.sound
  case seen => exact seen_moves hs.seen rfl rfl nofun

/-- A successful swap of `push` links its element. -/
theorem StackInvariant.pushSwap (hs : StackInvariant s nodes) {newNode : Addr}
    {node : StackNode Addr} (hpc : s.thread t = .pushSwap newNode)
    (hnode : s.memory newNode = some node) (hexpected : s.head = node.next) :
    StackInvariant { s.moveThread t .outside with
      head := some newNode
      linked := s.linked ++ [node.data] } (newNode :: nodes) := by
  have hheap : HeapInvariant { s.moveThread t .outside with
      head := some newNode
      linked := s.linked ++ [node.data] } (newNode :: nodes) :=
    hs.heap.pushSwap hpc hnode hexpected rfl rfl rfl
  have hoff : newNode ∉ nodes := hs.heap.apart t newNode (by rw [hpc]; rfl)
  have hmine : (ledger s nodes).holds (.inl t) = some node.data := by
    simp [ledger, hpc, heldData, hnode]
  constructor
  case heap => exact hheap
  case balanced =>
    refine hs.balanced.pass (p := .inl t) (q := .inr newNode) (t := node.data) hmine ?_ ?_
      (fun _ => Iff.rfl) rfl
    · simp [ledger, hoff]
    · funext place
      cases place with
      | inl u =>
          by_cases hu : u = t
          · subst hu
            simp [ledger, moveThread, heldData]
          · simp [ledger, moveThread, hu]
      | inr a =>
          by_cases ha : a = newNode
          · subst ha
            simp [ledger, moveThread, hnode]
          · simp [ledger, moveThread, ha]
  case linked =>
    intro data
    have hothers : ∀ u, u ≠ t → heldData s.memory (s.thread u) ≠ some node.data := by
      intro u hu hheld
      exact hu (Sum.inl.inj (hs.balanced.single (.inl u) (.inl t) _ hheld hmine))
    have hissued : node.data < s.pushes :=
      (hs.balanced.accounted node.data).mpr (.inr ⟨.inl t, hmine⟩)
    change data ∈ s.linked ++ [node.data] ↔ data < s.pushes ∧
      Unpushed s.memory (Function.update s.thread t .outside) data
    rw [List.mem_append, List.mem_singleton, hs.linked, unpushed_split t, unpushed_update, hpc]
    simp only [StackPc.IsPush, heldData, hnode, Option.map_some, false_implies, true_and,
      true_implies, ne_eq, Option.some.injEq]
    constructor
    · rintro (⟨hlt, -, hrest⟩ | rfl)
      · exact ⟨hlt, hrest⟩
      · exact ⟨hissued, fun u hu _ => hothers u hu⟩
    · rintro ⟨hlt, hrest⟩
      by_cases hdata : data = node.data
      · exact .inr hdata
      · exact .inl ⟨hlt, fun h => hdata h.symm, hrest⟩
  case sound => exact hs.sound
  case seen => exact seen_moves hs.seen rfl rfl nofun

/-- A successful swap of `pop` takes the first element, where the `next` of its node is
what the thread has read. -/
theorem StackInvariant.popSwap (hs : StackInvariant s nodes) {a : Addr}
    {next : Option Addr} (hpc : s.thread t = .popSwap a next) (hexpected : s.head = some a)
    (hfresh : ∀ node, s.memory a = some node → node.next = next) :
    ∃ rest, StackInvariant { s.moveThread t (.popData a) with head := next } rest := by
  have hchain := hs.heap.chain
  rw [hexpected] at hchain
  obtain ⟨link, rest, rfl, hfollow, hrest⟩ := hchain.of_some
  obtain ⟨node, hnode, hlink⟩ := Option.map_eq_some_iff.mp hfollow
  rw [← hlink, hfresh node hnode] at hrest
  have hoff := (List.nodup_cons.mp hs.heap.chain.nodup).1
  refine ⟨rest, ?_⟩
  constructor
  case heap => exact hs.heap.popSwap hrest rfl rfl rfl
  case balanced =>
    refine hs.balanced.pass (p := .inr a) (q := .inl t) (t := node.data) ?_ ?_ ?_
      (fun _ => Iff.rfl) rfl
    · simp [ledger, hnode]
    · simp [ledger, hpc, heldData]
    · funext place
      cases place with
      | inl u =>
          by_cases hu : u = t
          · subst hu
            simp [ledger, moveThread, heldData, hnode]
          · simp [ledger, moveThread, hu]
      | inr b =>
          by_cases hb : b = a
          · subst hb
            simp [ledger, moveThread, hoff]
          · simp [ledger, moveThread, hb]
  case linked =>
    intro data
    change data ∈ s.linked ↔ data < s.pushes ∧
      Unpushed s.memory (Function.update s.thread t (.popData a)) data
    rw [hs.linked, unpushed_split t, unpushed_update, hpc]
    simp only [StackPc.IsPush, false_implies]
  case sound => exact hs.sound
  case seen => exact seen_moves hs.seen rfl rfl nofun

/-- The deletion frees a node that is off the list, and returns its element. -/
theorem StackInvariant.delete (hs : StackInvariant s nodes) {a : Addr} {data : ℕ}
    (hpc : s.thread t = .popDelete a data)
    (hreaders : ∀ other, s.thread other ≠ .popTest (some a)) :
    StackInvariant { (s.write a none).moveThread t .outside with
      popped := s.popped ++ [data] } nodes := by
  have hown : (s.thread t).ownNode = some a := by rw [hpc]; rfl
  have hoff := hs.heap.apart t a hown
  have hothers : ∀ u, u ≠ t → (s.thread u).ownNode ≠ some a :=
    fun u hu hu' => hu (hs.heap.single t u a hown hu')
  have hheld : ∀ u, u ≠ t → heldData (Function.update s.memory a none) (s.thread u) =
      heldData s.memory (s.thread u) := by
    intro u hu
    apply heldData_congr
    intro b hb
    have hne : b ≠ a := fun h => hothers u hu (h ▸ hb)
    rw [Function.update_of_ne hne]
  constructor
  case heap =>
    refine hs.heap.writes (t := t) .outside a none hoff hothers ?_ (by simp [StackPc.ownNode])
      (by simp) rfl rfl rfl
    exact fun other _ hother => absurd hother (hreaders other)
  case balanced =>
    refine hs.balanced.finish (p := .inl t) (t := data) ?_ ?_ (fun _ => Iff.rfl) rfl
    · simp [ledger, hpc, heldData]
    · funext place
      cases place with
      | inl u =>
          by_cases hu : u = t
          · subst hu
            simp [ledger, moveThread, heldData]
          · simp [ledger, moveThread, write, hu, hheld u hu]
      | inr b =>
          by_cases hb : b = a
          · subst hb
            simp [ledger, moveThread, hoff]
          · simp [ledger, moveThread, write, hb]
  case linked =>
    intro d
    change d ∈ s.linked ↔ d < s.pushes ∧ Unpushed (Function.update s.memory a none)
      (Function.update s.thread t .outside) d
    rw [hs.linked, unpushed_split t, unpushed_update, hpc]
    simp only [StackPc.IsPush, false_implies, true_and]
    refine and_congr_right fun _ => forall_congr' fun u => forall_congr' fun hu => ?_
    rw [hheld u hu]
  case sound => exact hs.sound
  case seen => exact seen_moves hs.seen rfl rfl nofun

/-- A load of the head comes to a node that is allocated, or to an empty stack. -/
theorem StackInvariant.loadHead (hs : StackInvariant s nodes)
    (hpc : s.thread t = .popLoad ∨ ∃ a next, s.thread t = .popSwap a next) :
    StackInvariant (s.loadHead t) nodes := by
  have hnone : (s.thread t).ownNode = none ∧ heldData s.memory (s.thread t) = none ∧
      ¬ (s.thread t).IsPush := by
    rcases hpc with hpc | ⟨a, next, hpc⟩ <;> rw [hpc] <;> exact ⟨rfl, rfl, id⟩
  refine hs.thread_moves (t := t) (.popTest s.head) (by simp [StackPc.ownNode]) ?_
    hnone.2.1.symm (iff_of_false id hnone.2.2) ?_ ?_ rfl rfl rfl rfl rfl rfl rfl
  · intro a hhead
    rw [StackPc.popTest.injEq] at hhead
    have hchain := hs.heap.chain
    rw [hhead] at hchain
    obtain ⟨_, rest, rfl, -, -⟩ := hchain.of_some
    exact hs.heap.allocated (List.mem_cons_self ..)
  · intro hhead
    rw [StackPc.popTest.injEq] at hhead
    change Function.update s.emptySeen t (s.emptySeen t ∨ Empty s) t
    rw [Function.update_self]
    exact .inr (hs.empty hhead)
  · intro other hother
    exact Function.update_of_ne hother _ _

theorem stackInvariant_step (s : StackState Thread Addr) (label : StackLabel Thread Addr)
    (s' : StackState Thread Addr) (hs : ∃ nodes, StackInvariant s nodes)
    (hadmits : Undisturbed s label) (hstep : StackStep s label s') :
    ∃ nodes, StackInvariant s' nodes := by
  obtain ⟨nodes, hs⟩ := hs
  cases hstep with
  | push t hpc => exact ⟨nodes, hs.push hpc⟩
  | alloc t data newNode hpc hfree =>
      have hnone : ∀ node, s.memory newNode ≠ some node := by simp [hfree]
      refine ⟨nodes, hs.writes (t := t) (.pushLoad newNode) newNode ⟨data, none⟩ ?_ ?_
        (.inl rfl) (by simp [hpc, StackPc.IsPush]) (by simp [hpc, heldData]) rfl rfl rfl rfl
        rfl rfl rfl rfl⟩
      · intro hmem
        obtain ⟨node, hnode⟩ := hs.heap.allocated hmem
        exact hnone node hnode
      · intro other _ hown
        obtain ⟨node, hnode⟩ := hs.heap.owned other newNode hown
        exact hnone node hnode
  | pushLoad t newNode node hpc hnode =>
      have hown : (s.thread t).ownNode = some newNode := by rw [hpc]; rfl
      exact ⟨nodes, hs.writes (t := t) (.pushSwap newNode) newNode ⟨node.data, s.head⟩
        (hs.heap.apart t newNode hown)
        (fun other hne hother => hne (hs.heap.single t other newNode hown hother))
        (.inr rfl) (by simp [hpc, StackPc.IsPush]) (by simp [hpc, heldData, hnode]) rfl rfl
        rfl rfl rfl rfl rfl rfl⟩
  | pushSwap t newNode node hpc hnode hexpected =>
      exact ⟨newNode :: nodes, hs.pushSwap hpc hnode hexpected⟩
  | pushRetry t newNode node hpc hnode =>
      have hown : (s.thread t).ownNode = some newNode := by rw [hpc]; rfl
      exact ⟨nodes, hs.writes (t := t) (.pushSwap newNode) newNode ⟨node.data, s.head⟩
        (hs.heap.apart t newNode hown)
        (fun other hne hother => hne (hs.heap.single t other newNode hown hother))
        (.inr rfl) (by simp [hpc, StackPc.IsPush]) (by simp [hpc, heldData, hnode])
        (by rw [← hpc, Function.update_eq_self]; rfl) rfl rfl rfl rfl rfl rfl rfl⟩
  | pop t hpc =>
      exact ⟨nodes, hs.thread_moves (t := t) .popLoad (by simp [StackPc.ownNode]) (by simp)
        (by simp [hpc, heldData]) (by simp [hpc, StackPc.IsPush]) (by simp)
        (fun other hother => Function.update_of_ne hother _ _) rfl rfl rfl rfl rfl rfl rfl⟩
  | popLoad t hpc => exact ⟨nodes, hs.loadHead (.inl hpc)⟩
  | popNull t hpc =>
      exact ⟨nodes, hs.thread_moves (t := t) .outside (by simp [StackPc.ownNode]) (by simp)
        (by simp [hpc, heldData]) (by simp [hpc, StackPc.IsPush]) (by simp)
        (fun _ _ => rfl) rfl rfl rfl rfl rfl rfl rfl⟩
  | readNext t a node hpc hnode =>
      exact ⟨nodes, hs.thread_moves (t := t) (.popSwap a node.next)
        (by simp [StackPc.ownNode]) (by simp) (by simp [hpc, heldData])
        (by simp [hpc, StackPc.IsPush]) (by simp) (fun _ _ => rfl) rfl rfl rfl rfl rfl rfl
        rfl⟩
  | readFreedNext t a next hpc hfree =>
      obtain ⟨node, hnode⟩ := hs.heap.loaded t a hpc
      rw [hfree] at hnode
      cases hnode
  | popSwap t a next hpc hexpected =>
      exact hs.popSwap hpc hexpected fun node hnode => hadmits a next node hpc hnode
  | popRetry t a next hpc => exact ⟨nodes, hs.loadHead (.inr ⟨a, next, hpc⟩)⟩
  | readData t a node hpc hnode =>
      exact ⟨nodes, hs.thread_moves (t := t) (.popDelete a node.data)
        (by simp [hpc, StackPc.ownNode]) (by simp) (by simp [hpc, heldData, hnode])
        (by simp [hpc, StackPc.IsPush]) (by simp) (fun _ _ => rfl) rfl rfl rfl rfl rfl rfl
        rfl⟩
  | readFreedData t a data hpc hfree =>
      obtain ⟨node, hnode⟩ := hs.heap.owned t a (by rw [hpc]; rfl)
      rw [hfree] at hnode
      cases hnode
  | delete t a data hpc => exact ⟨nodes, hs.delete hpc (hadmits a data hpc)⟩

omit [DecidableEq Thread] in
theorem stackInvariant_initial :
    StackInvariant (StackState.initial : StackState Thread Addr) [] where
  heap := by
    constructor <;> simp [StackState.initial, StackPc.ownNode]
    exact .nil
  balanced := by
    have hnone : ∀ place, (ledger (StackState.initial : StackState Thread Addr) []).holds
        place = none := by
      rintro (t | a) <;> rfl
    constructor
    case single => simp [hnone]
    case pending => simp [hnone]
    case once => exact List.nodup_nil
    case accounted =>
      simp only [hnone]
      simp [ledger, StackState.initial]
  linked := by simp [StackState.initial]
  sound := rfl
  seen := by simp [StackState.initial]

/-- Where every step of a run is undisturbed, the stack is correct throughout. -/
theorem correct_of_undisturbed
    {trace : List (Move (StackState Thread Addr) (StackLabel Thread Addr))}
    {finish : StackState Thread Addr}
    (hrun : Run StackStep StackState.initial trace finish)
    (hadmitted : Admitted Undisturbed trace) :
    Throughout Correct StackState.initial trace :=
  hrun.throughout (fun _ ⟨_, hs⟩ => hs.correct) stackInvariant_step
    ⟨[], stackInvariant_initial⟩ hadmitted

end Elements

/-- Two threads push and pop at the same time.  One pops the node at an address that the
other has loaded, and pushes another node there, with the same `next`. -/
theorem reused_address_correct :
    ∃ trace finish, Run StackStep (StackState.initial : StackState Bool ℕ) trace finish ∧
      Throughout Correct StackState.initial trace ∧ finish.popped = [1, 2, 0] := by
  have hrun : Run StackStep (StackState.initial : StackState Bool ℕ) _ _ :=
    .cons (.push _ false rfl) <|
    .cons (.alloc _ false 0 0 rfl rfl) <|
    .cons (.pushLoad _ false 0 ⟨0, none⟩ rfl rfl) <|
    .cons (.pushSwap _ false 0 ⟨0, none⟩ rfl rfl rfl) <|
    .cons (.push _ true rfl) <|
    .cons (.alloc _ true 1 1 rfl rfl) <|
    .cons (.pushLoad _ true 1 ⟨1, none⟩ rfl rfl) <|
    .cons (.pop _ false rfl) <|
    .cons (.popLoad _ false rfl) <|
    .cons (.readNext _ false 0 ⟨0, none⟩ rfl rfl) <|
    .cons (.pushSwap _ true 1 ⟨1, some 0⟩ rfl rfl rfl) <|
    .cons (.popRetry _ false 0 none rfl) <|
    .cons (.readNext _ false 1 ⟨1, some 0⟩ rfl rfl) <|
    .cons (.pop _ true rfl) <|
    .cons (.popLoad _ true rfl) <|
    .cons (.readNext _ true 1 ⟨1, some 0⟩ rfl rfl) <|
    .cons (.popSwap _ false 1 (some 0) rfl rfl) <|
    .cons (.readData _ false 1 ⟨1, some 0⟩ rfl rfl) <|
    .cons (.delete _ false 1 1 rfl) <|
    .cons (.push _ false rfl) <|
    .cons (.alloc _ false 2 1 rfl rfl) <|
    .cons (.pushLoad _ false 1 ⟨2, none⟩ rfl rfl) <|
    .cons (.pushSwap _ false 1 ⟨2, some 0⟩ rfl rfl rfl) <|
    .cons (.popSwap _ true 1 (some 0) rfl rfl) <|
    .cons (.readData _ true 1 ⟨2, some 0⟩ rfl rfl) <|
    .cons (.pop _ false rfl) <|
    .cons (.popLoad _ false rfl) <|
    .cons (.delete _ true 1 2 rfl) <|
    .cons (.readNext _ false 0 ⟨0, none⟩ rfl rfl) <|
    .cons (.popSwap _ false 0 none rfl rfl) <|
    .cons (.pop _ true rfl) <|
    .cons (.popLoad _ true rfl) <|
    .cons (.readData _ false 0 ⟨0, none⟩ rfl rfl) <|
    .cons (.delete _ false 0 0 rfl) <|
    .cons (.popNull _ true rfl) <|
    .nil _
  have hstep : ∀ (s : StackState Bool ℕ) (t : Bool),
      (∀ a data, s.thread t ≠ .popDelete a data) → Undisturbed s (.step t) :=
    fun s t hpc a data hdelete => absurd hdelete (hpc a data)
  have hpush : ∀ (s : StackState Bool ℕ) (t : Bool),
      (∀ a next, s.thread t ≠ .popSwap a next) → Undisturbed s (.swap t) :=
    fun s t hpc a next _ hswap => absurd hswap (hpc a next)
  refine ⟨_, _, hrun, correct_of_undisturbed hrun ?_, rfl⟩
  refine .cons trivial <| .cons trivial <| .cons (hstep _ _ nofun) <| .cons (hpush _ _ nofun) <|
    .cons trivial <| .cons trivial <| .cons (hstep _ _ nofun) <| .cons trivial <|
    .cons (hstep _ _ nofun) <| .cons (hstep _ _ nofun) <| .cons (hpush _ _ nofun) <|
    .cons (hstep _ _ nofun) <| .cons (hstep _ _ nofun) <| .cons trivial <|
    .cons (hstep _ _ nofun) <| .cons (hstep _ _ nofun) <| .cons ?_ <| .cons (hstep _ _ nofun) <|
    .cons ?_ <| .cons trivial <| .cons trivial <| .cons (hstep _ _ nofun) <|
    .cons (hpush _ _ nofun) <| .cons ?_ <| .cons (hstep _ _ nofun) <| .cons trivial <|
    .cons (hstep _ _ nofun) <| .cons ?_ <| .cons (hstep _ _ nofun) <| .cons ?_ <| .cons trivial <|
    .cons (hstep _ _ nofun) <| .cons (hstep _ _ nofun) <| .cons ?_ <| .cons (hstep _ _ nofun) <|
    .nil _
  · rintro a next node ⟨⟩ ⟨⟩
    rfl
  · rintro a data ⟨⟩ (_ | _) <;> nofun
  · rintro a next node ⟨⟩ ⟨⟩
    rfl
  · rintro a data ⟨⟩ (_ | _) <;> nofun
  · rintro a next node ⟨⟩ ⟨⟩
    rfl
  · rintro a data ⟨⟩ (_ | _) <;> nofun

/-! ## Two threads -/

/-- One thread pops and frees the node that the other has loaded. -/
theorem freed_node_is_read :
    ∃ trace finish, Run StackStep (StackState.initial : StackState Bool ℕ) trace finish ∧
      finish.freedRead = true := by
  refine ⟨_, _,
    .cons (.push _ false rfl) <|
    .cons (.alloc _ false 0 0 rfl rfl) <|
    .cons (.pushLoad _ false 0 ⟨0, none⟩ rfl rfl) <|
    .cons (.pushSwap _ false 0 ⟨0, none⟩ rfl rfl rfl) <|
    .cons (.pop _ true rfl) <|
    .cons (.popLoad _ true rfl) <|
    .cons (.pop _ false rfl) <|
    .cons (.popLoad _ false rfl) <|
    .cons (.readNext _ false 0 ⟨0, none⟩ rfl rfl) <|
    .cons (.popSwap _ false 0 none rfl rfl) <|
    .cons (.readData _ false 0 ⟨0, none⟩ rfl rfl) <|
    .cons (.delete _ false 0 0 rfl) <|
    .cons (.readFreedNext _ true 0 none rfl rfl) <|
    .nil _, rfl⟩

/-- One thread pops the first node and pushes two more, the second at the freed
address, while the other is before its swap: the element between is lost. -/
theorem element_is_lost :
    ∃ trace finish, Run StackStep (StackState.initial : StackState Bool ℕ) trace finish ∧
      finish.freedRead = false ∧ 2 ∈ finish.linked ∧ ¬ Popped finish 2 ∧
        ¬ Reachable finish 2 := by
  refine ⟨_, _,
    .cons (.push _ false rfl) <|
    .cons (.alloc _ false 0 0 rfl rfl) <|
    .cons (.pushLoad _ false 0 ⟨0, none⟩ rfl rfl) <|
    .cons (.pushSwap _ false 0 ⟨0, none⟩ rfl rfl rfl) <|
    .cons (.push _ false rfl) <|
    .cons (.alloc _ false 1 1 rfl rfl) <|
    .cons (.pushLoad _ false 1 ⟨1, none⟩ rfl rfl) <|
    .cons (.pushSwap _ false 1 ⟨1, some 0⟩ rfl rfl rfl) <|
    .cons (.pop _ true rfl) <|
    .cons (.popLoad _ true rfl) <|
    .cons (.readNext _ true 1 ⟨1, some 0⟩ rfl rfl) <|
    .cons (.pop _ false rfl) <|
    .cons (.popLoad _ false rfl) <|
    .cons (.readNext _ false 1 ⟨1, some 0⟩ rfl rfl) <|
    .cons (.popSwap _ false 1 (some 0) rfl rfl) <|
    .cons (.readData _ false 1 ⟨1, some 0⟩ rfl rfl) <|
    .cons (.delete _ false 1 1 rfl) <|
    .cons (.push _ false rfl) <|
    .cons (.alloc _ false 2 2 rfl rfl) <|
    .cons (.pushLoad _ false 2 ⟨2, none⟩ rfl rfl) <|
    .cons (.pushSwap _ false 2 ⟨2, some 0⟩ rfl rfl rfl) <|
    .cons (.push _ false rfl) <|
    .cons (.alloc _ false 3 1 rfl rfl) <|
    .cons (.pushLoad _ false 1 ⟨3, none⟩ rfl rfl) <|
    .cons (.pushSwap _ false 1 ⟨3, some 2⟩ rfl rfl rfl) <|
    .cons (.popSwap _ true 1 (some 0) rfl rfl) <|
    .cons (.readData _ true 1 ⟨3, some 2⟩ rfl rfl) <|
    .cons (.delete _ true 1 3 rfl) <|
    .nil _, rfl, ?_, ?_, ?_⟩
  · decide
  · rintro (hdone | ⟨t, ⟨a, node, hpc, -⟩ | ⟨a, hpc⟩⟩)
    · revert hdone
      decide
    · cases t <;> cases hpc
    · cases t <;> cases hpc
  · rintro ⟨a, node, hreach, hnode, hdata⟩
    cases hreach with
    | here _ =>
        cases hnode
        cases hdata
    | next hfollow hrest =>
        cases hfollow
        cases hrest

/-- Two threads are enough to read a freed node, and to lose an element without. -/
theorem two_threads_break_the_stack :
    (∃ trace finish, Run StackStep (StackState.initial : StackState Bool ℕ) trace finish ∧
      finish.freedRead = true ∧ ¬ Throughout Correct StackState.initial trace) ∧
    ∃ trace finish, Run StackStep (StackState.initial : StackState Bool ℕ) trace finish ∧
      finish.freedRead = false ∧ ¬ Throughout Correct StackState.initial trace := by
  constructor
  · obtain ⟨trace, finish, hrun, hread⟩ := freed_node_is_read
    refine ⟨trace, finish, hrun, hread, fun hall => ?_⟩
    obtain ⟨-, -, hsound, -⟩ := hrun.finish_of_throughout hall
    rw [hread] at hsound
    cases hsound
  · obtain ⟨trace, finish, hrun, hread, hlinked, hpopped, hreachable⟩ := element_is_lost
    refine ⟨trace, finish, hrun, hread, fun hall => ?_⟩
    obtain ⟨-, hkept, -, -⟩ := hrun.finish_of_throughout hall
    exact (hkept 2 hlinked).elim hpopped hreachable

end RosRtems.StackAtomic
