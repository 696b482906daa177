import RosRtems.Rcutils.StoreRuns

/-!
# Publishers for log messages

Every node for which log messages are enabled registers a publisher for them under the name
of its logger, unless a node with the same name has done so before.  The key that is stored
is a pointer to the name, which belongs to the node.  When such a node is finalized, or its
initialization fails, it removes whatever is registered under its name.
-/

namespace RosRtems.LoggingRosout

open RosRtems.Allocation
open RosRtems.HashTable
open RosRtems.Rcutils
open RosRtems.Runs

variable {Node : Type}

/-- The hash function for strings, djb2, on machine words of 64 bits and names in ASCII. -/
def stringHash (name : List UInt8) : ℕ :=
  (name.foldl (fun (hash : UInt64) c => ((hash <<< 5) + hash) + c.toUInt64) 5381).toNat

/-- A key points to the name of a node, and the names are hashed and compared. -/
def nameKeying (loggerName : Node → List UInt8) : Keying Node where
  hash := fun node => stringHash (loggerName node)
  same := fun node node' => loggerName node = loggerName node'
  refl := by simp
  symm := by simp [eq_comm]
  trans := by simp +contextual
  hash_eq := by simp +contextual

structure RosoutEntry (Node : Type) where
  node : Node
  publisher : ℕ

/-- `loggerMap` is `__logger_map`, `live` are the nodes that are initialized, `enabled` says
for which of them log messages are, from their initialization on, and `publishers` are those
that have been initialized for log messages and not finalized.  A publisher whose finalization
fails stays among them: that its memory is freed there all the same is not followed. -/
structure Rosout (Node : Type) where
  loggerMap : HashMap Node (RosoutEntry Node)
  live : Node → Bool
  enabled : Node → Bool
  publishers : List ℕ
  created : ℕ

/-- `rcl_logging_rosout_init`. -/
def Rosout.initial : Rosout Node where
  loggerMap := .empty 2 Nat.two_pos
  live := fun _ => false
  enabled := fun _ => false
  publishers := []
  created := 0

namespace Rosout

variable (keying : Keying Node) (s : Rosout Node)

/-- `rcl_logging_rosout_init_publisher_for_node`, where `created` says whether the publisher
can be initialized and `finalized` whether it can be finalized if there is no room for it. -/
def initPublisherForNode (node : Node) (created finalized : Bool) :
    Allocating (Bool × Rosout Node) := do
  if s.loggerMap.keyExists keying node then
    pure (true, s)
  else if created then
    let entry : RosoutEntry Node := ⟨node, s.created⟩
    let (ret, loggerMap) ← s.loggerMap.set keying node entry
    if ret = .ok then
      pure (true, { s with
        loggerMap := loggerMap
        publishers := s.created :: s.publishers
        created := s.created + 1 })
    else
      pure (false, { s with
        publishers := if finalized then s.publishers else s.created :: s.publishers
        created := s.created + 1 })
  else
    pure (false, s)

/-- `rcl_logging_rosout_fini_publisher_for_node`. -/
def finiPublisherForNode (node : Node) (finalized : Bool) : Rosout Node :=
  match s.loggerMap.get keying node with
  | none => s
  | some entry =>
      if finalized then
        { s with
          loggerMap := s.loggerMap.unset keying node
          publishers := s.publishers.erase entry.publisher }
      else
        s

variable [DecidableEq Node]

def comeUp (node : Node) (enabled : Bool) : Rosout Node :=
  { s with
    live := Function.update s.live node true
    enabled := Function.update s.enabled node enabled }

/-- `rcl_node_init` from where it has created the node of the middleware on.  `enabled` is
`rcl_logging_rosout_enabled()` and the node's option `enable_rosout`, and `ready` says
whether it comes to the end but for log messages. -/
def initNode (node : Node) (enabled ready created finalized : Bool) :
    Allocating (Rosout Node) := do
  if enabled then
    if ready then
      let (ok, s) ← s.initPublisherForNode keying node created finalized
      if ok then
        pure (s.comeUp node true)
      else
        pure (s.finiPublisherForNode keying node finalized)
    else
      pure (s.finiPublisherForNode keying node finalized)
  else if ready then
    pure (s.comeUp node false)
  else
    pure s

/-- `rcl_node_fini`. -/
def finiNode (node : Node) (finalized : Bool) : Rosout Node :=
  let s := if s.enabled node then s.finiPublisherForNode keying node finalized else s
  { s with live := Function.update s.live node false }

end Rosout

inductive RosoutLabel (Node : Type)
  | init (node : Node) (enabled ready created finalized : Bool)
  | fini (node : Node) (finalized : Bool)

inductive RosoutStep [DecidableEq Node] (keying : Keying Node) :
    Rosout Node → RosoutLabel Node → Rosout Node → Prop
  | init (s : Rosout Node) (node : Node) (enabled ready created finalized : Bool)
      (memory : Memory) (hnew : s.live node = false) :
      RosoutStep keying s (.init node enabled ready created finalized)
        ((s.initNode keying node enabled ready created finalized).run memory).1
  | fini (s : Rosout Node) (node : Node) (finalized : Bool) (hlive : s.live node = true) :
      RosoutStep keying s (.fini node finalized) (s.finiNode keying node finalized)

/-! ## What a step does to the registry -/

section Steps

variable {keying : Keying Node} {s s' : Rosout Node}

/-- For each name the node that registered it, and the publisher. -/
def Rosout.registry (keying : Keying Node) (s : Rosout Node) : Store Node (RosoutEntry Node) :=
  view keying s.loggerMap

theorem same_of_registry {k owner : Node} {entry : RosoutEntry Node}
    (hentry : s.registry keying k = some (owner, entry)) : keying.same owner k = true := by
  obtain ⟨found, hfind, hpair⟩ := Option.map_eq_some_iff.mp hentry
  cases hpair
  exact same_of_find hfind

theorem registry_initial : (Rosout.initial : Rosout Node).registry keying = fun _ => none :=
  view_empty

theorem registry_congr {k k' : Node} (hsame : keying.same k k' = true) :
    s.registry keying k = s.registry keying k' :=
  congrArg (Option.map Entry.pair) (find_congr hsame)

theorem registry_unset {hashMap : HashMap Node (RosoutEntry Node)}
    (h : WellFormed keying hashMap) (node : Node) :
    WellFormed keying (hashMap.unset keying node) ∧
      view keying (hashMap.unset keying node) = (view keying hashMap).unset keying node := by
  have hunset : MapStep keying .any hashMap (.unset node, .ok) (hashMap.unset keying node) :=
    .unset hashMap node
  obtain ⟨hwell, hstep⟩ := mapStep_refines h hunset
  refine ⟨hwell, ?_⟩
  generalize view keying (hashMap.unset keying node) = store at hstep
  cases hstep with
  | unset => rfl

/-- Where a publisher can be finalized, its name is free afterwards. -/
theorem finiPublisherForNode_spec (h : WellFormed keying s.loggerMap) (node : Node)
    (finalized : Bool) :
    WellFormed keying (s.finiPublisherForNode keying node finalized).loggerMap ∧
      (s.finiPublisherForNode keying node finalized).live = s.live ∧
      (s.finiPublisherForNode keying node finalized).enabled = s.enabled ∧
      (s.finiPublisherForNode keying node finalized).registry keying =
        if finalized then (s.registry keying).unset keying node else s.registry keying := by
  have hget := get_eq h node
  have hunset := registry_unset h node
  unfold Rosout.finiPublisherForNode
  cases hfound : s.loggerMap.get keying node with
  | some entry =>
      cases finalized with
      | true => exact ⟨hunset.1, rfl, rfl, hunset.2⟩
      | false => exact ⟨h, rfl, rfl, rfl⟩
  | none =>
      have hsame : s.loggerMap.unset keying node = s.loggerMap := by
        have hnone : s.loggerMap.hashMapFind keying node = none := by
          simpa [HashMap.get] using hfound
        rw [HashMap.unset, hnone]
      rw [hsame] at hunset
      refine ⟨h, rfl, rfl, ?_⟩
      cases finalized with
      | true => exact hunset.2
      | false => rfl

theorem yields_initPublisherForNode (h : WellFormed keying s.loggerMap) (node : Node)
    (created finalized : Bool) :
    Yields .any (s.initPublisherForNode keying node created finalized) fun result =>
      WellFormed keying result.2.loggerMap ∧
        (result.2.live = s.live ∧ result.2.enabled = s.enabled) ∧
        (result.1 = true ∧ s.registry keying node ≠ none ∧
            result.2.registry keying = s.registry keying ∨
          result.1 = true ∧ s.registry keying node = none ∧
            (∃ publisher, result.2.registry keying =
              (s.registry keying).insert keying Prod.fst (node, ⟨node, publisher⟩)) ∨
          result.1 = false ∧ s.registry keying node = none ∧
            result.2.registry keying = s.registry keying) := by
  have hexists := keyExists_eq h node
  unfold Rosout.initPublisherForNode
  cases hregistered : s.loggerMap.keyExists keying node with
  | true =>
      rw [hregistered] at hexists
      exact .pure ⟨h, ⟨rfl, rfl⟩, .inl ⟨rfl, Option.isSome_iff_ne_none.mp hexists.symm, rfl⟩⟩
  | false =>
      rw [hregistered] at hexists
      have hnone : s.registry keying node = none := by
        simpa [Rosout.registry] using hexists.symm
      cases created with
      | false => exact .pure ⟨h, ⟨rfl, rfl⟩, .inr (.inr ⟨rfl, hnone, rfl⟩)⟩
      | true =>
          refine (yields_set h node ⟨node, s.created⟩).bind fun result ⟨hwell, hcases⟩ => ?_
          obtain ⟨ret, loggerMap⟩ := result
          obtain ⟨rfl, entry, hcontents, hvalue, hkey⟩ | ⟨rfl, rfl, -⟩ := hcases
          · refine .pure ⟨hwell, ⟨rfl, rfl⟩, .inr (.inl ⟨rfl, hnone, s.created, ?_⟩)⟩
            have hcontentsNone : contents keying s.loggerMap node = none := by
              simpa [Rosout.registry, view] using hnone
            rw [hcontentsNone] at hkey
            have hview : view keying loggerMap =
                (view keying s.loggerMap).insert keying Prod.fst entry.pair := by
              change (fun k => (contents keying loggerMap k).map Entry.pair) = _
              rw [hcontents]
              exact view_insert entry
            have hpair : entry.pair = (node, (⟨node, s.created⟩ : RosoutEntry Node)) := by
              rw [Entry.pair, hvalue, hkey]
              rfl
            exact hview.trans (by rw [hpair]; rfl)
          · exact .pure ⟨h, ⟨rfl, rfl⟩, .inr (.inr ⟨rfl, hnone, rfl⟩)⟩

variable [DecidableEq Node]

/-- A node comes up and is registered, or without log messages, or it does not come up. -/
inductive Initialized (keying : Keying Node) (s : Rosout Node) (node : Node) (s' : Rosout Node) :
    Prop
  | shares (hlive : s'.live = Function.update s.live node true)
      (henabled : s'.enabled = Function.update s.enabled node true)
      (hregistered : s.registry keying node ≠ none)
      (hregistry : s'.registry keying = s.registry keying)
  | registers (hlive : s'.live = Function.update s.live node true)
      (henabled : s'.enabled = Function.update s.enabled node true) (publisher : ℕ)
      (hnone : s.registry keying node = none)
      (hregistry : s'.registry keying =
        (s.registry keying).insert keying Prod.fst (node, ⟨node, publisher⟩))
  | silent (hlive : s'.live = Function.update s.live node true)
      (henabled : s'.enabled = Function.update s.enabled node false)
      (hregistry : s'.registry keying = s.registry keying)
  | fails (hlive : s'.live = s.live) (henabled : s'.enabled = s.enabled)
      (hregistry : s'.registry keying = s.registry keying)

omit [DecidableEq Node] in
theorem unset_of_none {node : Node} (hnone : s.registry keying node = none) :
    (s.registry keying).unset keying node = s.registry keying := by
  funext k
  cases hsame : keying.same node k with
  | false => simp [Store.unset, Contents.erase, hsame]
  | true => simp [Store.unset, Contents.erase, hsame, ← registry_congr hsame, hnone]

theorem yields_initNode (h : WellFormed keying s.loggerMap) (node : Node)
    (created finalized : Bool) :
    Yields .any (s.initNode keying node true true created finalized) fun s' =>
      WellFormed keying s'.loggerMap ∧ Initialized keying s node s' := by
  refine (yields_initPublisherForNode h node created finalized).bind ?_
  rintro ⟨ok, s₁⟩ ⟨hwell, ⟨hlive, henabled⟩, hcases⟩
  dsimp only at hwell hlive henabled hcases
  obtain ⟨rfl, hregistered, hregistry⟩ | ⟨rfl, hnone, publisher, hregistry⟩ |
    ⟨rfl, hnone, hregistry⟩ := hcases
  · refine .pure ⟨hwell, .shares ?_ ?_ hregistered hregistry⟩
    · rw [← hlive]
      rfl
    · rw [← henabled]
      rfl
  · refine .pure ⟨hwell, .registers ?_ ?_ publisher hnone hregistry⟩
    · rw [← hlive]
      rfl
    · rw [← henabled]
      rfl
  · obtain ⟨hwell', hlive', henabled', hregistry'⟩ :=
      finiPublisherForNode_spec hwell node finalized
    refine .pure ⟨hwell', .fails (hlive'.trans hlive) (henabled'.trans henabled)
      (hregistry'.trans ?_)⟩
    rw [unset_of_none (by rw [hregistry, hnone]), ite_self, hregistry]

/-- Without log messages the registry is left alone. -/
theorem initNode_silent (h : WellFormed keying s.loggerMap) (node : Node)
    (ready created finalized : Bool) (memory : Memory) :
    let s' := ((s.initNode keying node false ready created finalized).run memory).1
    WellFormed keying s'.loggerMap ∧ Initialized keying s node s' := by
  cases ready with
  | true => exact ⟨h, .silent rfl rfl rfl⟩
  | false => exact ⟨h, .fails rfl rfl rfl⟩

/-- A node that fails before it comes to log messages removes what is registered under its
name. -/
theorem initNode_fails (h : WellFormed keying s.loggerMap) (node : Node)
    (created finalized : Bool) (memory : Memory) :
    let s' := ((s.initNode keying node true false created finalized).run memory).1
    WellFormed keying s'.loggerMap ∧ s'.live = s.live ∧ s'.enabled = s.enabled ∧
      s'.registry keying =
        if finalized then (s.registry keying).unset keying node else s.registry keying :=
  finiPublisherForNode_spec h node finalized

theorem finiNode_spec (h : WellFormed keying s.loggerMap) (node : Node) (finalized : Bool) :
    WellFormed keying (s.finiNode keying node finalized).loggerMap ∧
      (s.finiNode keying node finalized).live = Function.update s.live node false ∧
      (s.finiNode keying node finalized).enabled = s.enabled ∧
      (s.finiNode keying node finalized).registry keying =
        if s.enabled node && finalized then (s.registry keying).unset keying node
        else s.registry keying := by
  obtain ⟨hwell, hlive, henabled, hregistry⟩ := finiPublisherForNode_spec h node finalized
  cases hnode : s.enabled node with
  | true =>
      have hfini : s.finiNode keying node finalized =
          { s.finiPublisherForNode keying node finalized with
            live := Function.update (s.finiPublisherForNode keying node finalized).live
              node false } := by
        rw [Rosout.finiNode, if_pos hnode]
      rw [hfini]
      exact ⟨hwell, by rw [hlive], henabled, by rw [Bool.true_and]; exact hregistry⟩
  | false =>
      have hfini : s.finiNode keying node finalized =
          { s with live := Function.update s.live node false } := by
        rw [Rosout.finiNode, if_neg (by rw [hnode]; nofun)]
      rw [hfini]
      exact ⟨h, rfl, rfl, rfl⟩

theorem wellFormed_step (h : WellFormed keying s.loggerMap) {label : RosoutLabel Node}
    (hstep : RosoutStep keying s label s') : WellFormed keying s'.loggerMap := by
  cases hstep with
  | init node enabled ready created finalized memory hnew =>
      match enabled, ready with
      | true, true => exact (yields_initNode h node created finalized memory trivial).1.1
      | true, false => exact (initNode_fails h node created finalized memory).1
      | false, ready => exact (initNode_silent h node ready created finalized memory).1
  | fini node finalized hlive => exact (finiNode_spec h node finalized).1

end Steps

/-! ## Names that point nowhere -/

section Dangling

variable {keying : Keying Node} {s s' : Rosout Node} [DecidableEq Node]

/-- Every name that is a key belongs to a node that is still there, and so does the publisher
that is registered under it. -/
def NoneDangling (keying : Keying Node) (s : Rosout Node) : Prop :=
  ∀ k owner entry, s.registry keying k = some (owner, entry) →
    s.live owner = true ∧ entry.node = owner

/-- No node is finalized whose own publisher cannot be. -/
def FinalizesOwn (keying : Keying Node) (s : Rosout Node) : RosoutLabel Node → Prop
  | .fini node finalized => ∀ entry, s.registry keying node = some (node, entry) →
      finalized = true
  | _ => True

/-- What is registered belongs to nodes that are there and have log messages. -/
structure Owned (keying : Keying Node) (s : Rosout Node) : Prop where
  wellFormed : WellFormed keying s.loggerMap
  noneDangling : NoneDangling keying s
  enabled : ∀ k owner entry, s.registry keying k = some (owner, entry) → s.enabled owner = true

omit [DecidableEq Node] in
theorem owned_initial : Owned keying (Rosout.initial : Rosout Node) where
  wellFormed := wellFormed_empty
  noneDangling k owner entry hentry := by
    rw [registry_initial] at hentry
    cases hentry
  enabled k owner entry hentry := by
    rw [registry_initial] at hentry
    cases hentry

omit [DecidableEq Node] in
theorem registered_of_unset {node k owner : Node} {entry : RosoutEntry Node}
    (hentry : (s.registry keying).unset keying node k = some (owner, entry)) :
    s.registry keying k = some (owner, entry) ∧ keying.same node k = false := by
  simp only [Store.unset, Contents.erase] at hentry
  split at hentry
  · cases hentry
  · next hother => exact ⟨hentry, Bool.not_eq_true _ ▸ hother⟩

theorem update_live (s : Rosout Node) (node : Node) {owner : Node}
    (howner : s.live owner = true) : Function.update s.live node true owner = true := by
  by_cases hsame : owner = node <;> simp [hsame, howner]

theorem noneDangling_initialized (hs : NoneDangling keying s) {node : Node}
    (hinit : Initialized keying s node s') : NoneDangling keying s' := by
  intro k owner entry hentry
  cases hinit with
  | shares hlive _ _ hregistry | silent hlive _ hregistry =>
      rw [hregistry] at hentry
      rw [hlive]
      exact (hs k owner entry hentry).imp_left (update_live s node)
  | registers hlive _ publisher hnone hregistry =>
      rw [hregistry] at hentry
      rw [hlive]
      unfold Contents.insert at hentry
      split at hentry
      · cases hentry
        exact ⟨Function.update_self _ _ _, rfl⟩
      · exact (hs k owner entry hentry).imp_left (update_live s node)
  | fails hlive _ hregistry =>
      rw [hregistry] at hentry
      rw [hlive]
      exact hs k owner entry hentry

/-- A node that comes up without log messages has nothing registered, as it was not there
before. -/
theorem enabled_initialized (hs : Owned keying s) {node : Node} (hnew : s.live node = false)
    (hinit : Initialized keying s node s') (k owner : Node) (entry : RosoutEntry Node)
    (hentry : s'.registry keying k = some (owner, entry)) : s'.enabled owner = true := by
  have hbefore : s.registry keying k = some (owner, entry) →
      owner ≠ node ∧ s.enabled owner = true := by
    intro hregistered
    refine ⟨?_, hs.enabled k owner entry hregistered⟩
    rintro rfl
    rw [(hs.noneDangling k owner entry hregistered).1] at hnew
    cases hnew
  have hupdate : ∀ enabled, s.registry keying k = some (owner, entry) →
      Function.update s.enabled node enabled owner = true := by
    intro enabled hregistered
    rw [Function.update_of_ne (hbefore hregistered).1]
    exact (hbefore hregistered).2
  cases hinit with
  | shares _ henabled _ hregistry | silent _ henabled hregistry =>
      rw [hregistry] at hentry
      rw [henabled]
      exact hupdate _ hentry
  | registers _ henabled publisher hnone hregistry =>
      rw [hregistry] at hentry
      rw [henabled]
      unfold Contents.insert at hentry
      split at hentry
      · cases hentry
        exact Function.update_self _ _ _
      · exact hupdate _ hentry
  | fails _ henabled hregistry =>
      rw [hregistry] at hentry
      rw [henabled]
      exact (hbefore hentry).2

omit [DecidableEq Node] in
/-- An entry that is still there after a publisher was possibly removed was there before. -/
theorem registered_of_removed {node k owner : Node} {entry : RosoutEntry Node} {removed : Bool}
    (hentry : (if removed then (s.registry keying).unset keying node
      else s.registry keying) k = some (owner, entry)) :
    s.registry keying k = some (owner, entry) := by
  cases removed with
  | true => exact (registered_of_unset hentry).1
  | false => exact hentry

theorem noneDangling_fini_iff (hs : Owned keying s) (node : Node) (finalized : Bool) :
    NoneDangling keying (s.finiNode keying node finalized) ↔
      ∀ entry, s.registry keying node = some (node, entry) → finalized = true := by
  obtain ⟨-, hlive, -, hregistry⟩ := finiNode_spec hs.wellFormed node finalized
  unfold NoneDangling
  rw [hlive, hregistry]
  constructor
  · intro hs' entry hentry
    cases finalized with
    | true => rfl
    | false =>
        rw [Bool.and_false] at hs'
        have hdead := (hs' node node entry hentry).1
        rw [Function.update_self] at hdead
        cases hdead
  · intro hown k owner entry hentry
    have hbefore := registered_of_removed hentry
    have howner : owner ≠ node := by
      rintro rfl
      have hself := (registry_congr (same_of_registry hbefore)).trans hbefore
      rw [hs.enabled k owner entry hbefore, hown entry hself] at hentry
      have hdifferent := (registered_of_unset hentry).2
      rw [same_of_registry hbefore] at hdifferent
      cases hdifferent
    rw [Function.update_of_ne howner]
    exact hs.noneDangling k owner entry hbefore

theorem noneDangling_step_iff (hs : Owned keying s) {label : RosoutLabel Node}
    (hstep : RosoutStep keying s label s') :
    NoneDangling keying s' ↔ FinalizesOwn keying s label := by
  cases hstep with
  | fini node finalized hlive => exact noneDangling_fini_iff hs node finalized
  | init node enabled ready created finalized memory hnew =>
      refine iff_of_true ?_ trivial
      match enabled, ready with
      | true, true =>
          have hinit := yields_initNode hs.wellFormed node created finalized memory trivial
          exact noneDangling_initialized hs.noneDangling hinit.1.2
      | true, false =>
          obtain ⟨-, hlive, -, hregistry⟩ :=
            initNode_fails hs.wellFormed node created finalized memory
          intro k owner entry hentry
          rw [hregistry] at hentry
          rw [hlive]
          exact hs.noneDangling k owner entry (registered_of_removed hentry)
      | false, ready =>
          have hinit := initNode_silent hs.wellFormed node ready created finalized memory
          exact noneDangling_initialized hs.noneDangling hinit.2

theorem enabled_step (hs : Owned keying s) {label : RosoutLabel Node}
    (hstep : RosoutStep keying s label s') (k owner : Node) (entry : RosoutEntry Node)
    (hentry : s'.registry keying k = some (owner, entry)) : s'.enabled owner = true := by
  cases hstep with
  | fini node finalized hlive =>
      obtain ⟨-, -, henabled, hregistry⟩ := finiNode_spec hs.wellFormed node finalized
      rw [hregistry] at hentry
      rw [henabled]
      exact hs.enabled k owner entry (registered_of_removed hentry)
  | init node enabled ready created finalized memory hnew =>
      match enabled, ready with
      | true, true =>
          have hinit := yields_initNode hs.wellFormed node created finalized memory trivial
          exact enabled_initialized hs hnew hinit.1.2 k owner entry hentry
      | true, false =>
          obtain ⟨-, -, henabled, hregistry⟩ :=
            initNode_fails hs.wellFormed node created finalized memory
          rw [hregistry] at hentry
          rw [henabled]
          exact hs.enabled k owner entry (registered_of_removed hentry)
      | false, ready =>
          have hinit := initNode_silent hs.wellFormed node ready created finalized memory
          exact enabled_initialized hs hnew hinit.2 k owner entry hentry

theorem owned_step (hs : Owned keying s) {label : RosoutLabel Node}
    (hadmits : FinalizesOwn keying s label) (hstep : RosoutStep keying s label s') :
    Owned keying s' where
  wellFormed := wellFormed_step hs.wellFormed hstep
  noneDangling := (noneDangling_step_iff hs hstep).mpr hadmits
  enabled := enabled_step hs hstep

variable {trace : List (Move (Rosout Node) (RosoutLabel Node))}

/-- The keys always point to names of nodes that are there exactly if every node can finalize
the publisher that it has registered. -/
theorem noneDangling_throughout_iff (hrun : Run (RosoutStep keying) .initial trace s) :
    Throughout (NoneDangling keying) .initial trace ↔ Admitted (FinalizesOwn keying) trace := by
  have hholds : ∀ s : Rosout Node, Owned keying s → NoneDangling keying s :=
    fun _ hs => hs.noneDangling
  apply hrun.throughout_iff_admitted hholds _ _ owned_initial
  · exact fun _ _ _ hs hadmits hstep => owned_step hs hadmits hstep
  · exact fun _ _ _ hs hstep hs' => (noneDangling_step_iff hs hstep).mp hs'

end Dangling

/-! ## Nodes whose messages go nowhere -/

section Heard

variable {keying : Keying Node} {s s' : Rosout Node} [DecidableEq Node]

/-- A publisher is registered under the name of every node that is there and for which log
messages are enabled. -/
def AllHeard (keying : Keying Node) (s : Rosout Node) : Prop :=
  ∀ node, s.live node = true → s.enabled node = true → s.registry keying node ≠ none

/-- Whoever removes what is registered under a name is the last one with that name. -/
def RemovesLast (keying : Keying Node) (s : Rosout Node) : RosoutLabel Node → Prop
  | .fini node true => s.enabled node = true → ∀ other, other ≠ node → s.live other = true →
      s.enabled other = true → keying.same node other = false
  | .init node true false _ true => ∀ other, s.live other = true → s.enabled other = true →
      keying.same node other = false
  | _ => True

omit [DecidableEq Node] in
theorem unset_ne_none_iff {node other : Node} (hother : s.registry keying other ≠ none) :
    (s.registry keying).unset keying node other ≠ none ↔ keying.same node other = false := by
  cases hsame : keying.same node other <;> simp [Store.unset, Contents.erase, hsame, hother]

theorem allHeard_initialized (hs : AllHeard keying s) {node : Node}
    (hinit : Initialized keying s node s') : AllHeard keying s' := by
  intro other hother hmessages
  cases hinit with
  | shares hlive henabled hregistered hregistry =>
      rw [hregistry]
      rw [hlive] at hother
      rw [henabled] at hmessages
      by_cases hsame : other = node
      · rwa [hsame]
      · exact hs other (by simpa [hsame] using hother) (by simpa [hsame] using hmessages)
  | registers hlive henabled publisher hnone hregistry =>
      rw [hregistry]
      rw [hlive] at hother
      rw [henabled] at hmessages
      unfold Contents.insert
      split
      · simp
      · next hdifferent =>
          have hne : other ≠ node := by
            rintro rfl
            exact hdifferent (keying.refl _)
          exact hs other (by simpa [hne] using hother) (by simpa [hne] using hmessages)
  | silent hlive henabled hregistry =>
      rw [hregistry]
      rw [hlive] at hother
      rw [henabled] at hmessages
      have hne : other ≠ node := by
        rintro rfl
        simp at hmessages
      exact hs other (by simpa [hne] using hother) (by simpa [hne] using hmessages)
  | fails hlive henabled hregistry =>
      rw [hregistry]
      exact hs other (hlive ▸ hother) (henabled ▸ hmessages)

theorem allHeard_fini_iff (h : WellFormed keying s.loggerMap) (hs : AllHeard keying s)
    (node : Node) (finalized : Bool) :
    AllHeard keying (s.finiNode keying node finalized) ↔
      RemovesLast keying s (.fini node finalized) := by
  obtain ⟨-, hlive, henabled, hregistry⟩ := finiNode_spec h node finalized
  have hleft : ∀ other, Function.update s.live node false other = true ↔
      other ≠ node ∧ s.live other = true := by
    intro other
    by_cases hsame : other = node <;> simp [hsame]
  unfold AllHeard
  rw [hlive, henabled, hregistry]
  simp only [hleft, and_imp]
  have hkept : ∀ other, other ≠ node → s.live other = true → s.enabled other = true →
      s.registry keying other ≠ none :=
    fun other _ hother hmessages => hs other hother hmessages
  cases finalized with
  | false => exact iff_of_true (by rwa [Bool.and_false]) trivial
  | true =>
      simp only [RemovesLast]
      cases hnode : s.enabled node with
      | false => exact iff_of_true hkept nofun
      | true =>
          simp only [Bool.and_self, if_true, forall_const]
          exact forall_congr' fun other => forall_congr' fun hother => forall_congr' fun hlives =>
            forall_congr' fun hmessages => unset_ne_none_iff (hkept other hother hlives hmessages)

theorem allHeard_step_iff (h : WellFormed keying s.loggerMap) (hs : AllHeard keying s)
    {label : RosoutLabel Node} (hstep : RosoutStep keying s label s') :
    AllHeard keying s' ↔ RemovesLast keying s label := by
  cases hstep with
  | fini node finalized hlive => exact allHeard_fini_iff h hs node finalized
  | init node enabled ready created finalized memory hnew =>
      match enabled, ready with
      | true, true =>
          have hinit := yields_initNode h node created finalized memory trivial
          exact iff_of_true (allHeard_initialized hs hinit.1.2) trivial
      | true, false =>
          obtain ⟨-, hlive, henabled, hregistry⟩ :=
            initNode_fails h node created finalized memory
          unfold AllHeard
          rw [hlive, henabled, hregistry]
          cases finalized with
          | false => exact iff_of_true hs trivial
          | true =>
              exact forall_congr' fun other => forall_congr' fun hother =>
                forall_congr' fun hmessages => unset_ne_none_iff (hs other hother hmessages)
      | false, ready =>
          have hinit := initNode_silent h node ready created finalized memory
          exact iff_of_true (allHeard_initialized hs hinit.2) trivial

variable {trace : List (Move (Rosout Node) (RosoutLabel Node))}

/-- Every node with log messages has a publisher for them at all times exactly if no such
node is finalized, and none fails, while another one has the same name. -/
theorem allHeard_throughout_iff (hrun : Run (RosoutStep keying) .initial trace s) :
    Throughout (AllHeard keying) .initial trace ↔ Admitted (RemovesLast keying) trace := by
  have hinitial : WellFormed keying (Rosout.initial : Rosout Node).loggerMap ∧
      AllHeard keying (Rosout.initial : Rosout Node) :=
    ⟨wellFormed_empty, fun _ hlive _ => nomatch hlive⟩
  have hholds : ∀ s : Rosout Node,
      WellFormed keying s.loggerMap ∧ AllHeard keying s → AllHeard keying s := fun _ h => h.2
  apply hrun.throughout_iff_admitted hholds _ _ hinitial
  · exact fun _ _ _ h hadmits hstep =>
      ⟨wellFormed_step h.1 hstep, (allHeard_step_iff h.1 h.2 hstep).mpr hadmits⟩
  · exact fun _ _ _ h hstep hs' => (allHeard_step_iff h.1 h.2 hstep).mp hs'

end Heard

/-! ## Three nodes with two names -/

section Examples

/-- Nodes zero and one have the same name. -/
def threeNames : Keying (Fin 3) := nameKeying fun node => if node = 2 then [66] else [65]

abbrev allocated : Memory := fun _ => true

abbrev ThreeTrace := List (Move (Rosout (Fin 3)) (RosoutLabel (Fin 3)))

/-- A node whose publisher cannot be finalized leaves a key behind, which another one with
the same name still uses. -/
theorem leaves_key : ∃ (trace : ThreeTrace) (s : Rosout (Fin 3)),
    Run (RosoutStep threeNames) .initial trace s ∧
      ¬ Throughout (NoneDangling threeNames) .initial trace := by
  obtain ⟨trace, s, hrun, hdangles⟩ : ∃ (trace : ThreeTrace) (s : Rosout (Fin 3)),
      Run (RosoutStep threeNames) .initial trace s ∧
        ¬ Admitted (FinalizesOwn threeNames) trace := by
    refine ⟨_, _, .cons (.init _ 2 true true true true allocated rfl) <|
      .cons (.init _ 0 true true true true allocated rfl) <|
      .cons (.init _ 1 true true true true allocated rfl) <|
      .cons (.fini _ 2 true rfl) <|
      .cons (.init _ 2 false true true true allocated rfl) <|
      .cons (.fini _ 0 false rfl) <| .nil _, fun hfinalizes => ?_⟩
    have hfinalized := hfinalizes _ (List.getLast_mem (List.cons_ne_nil _ _)) ⟨0, 1⟩ rfl
    cases hfinalized
  exact ⟨trace, s, hrun, fun hall => hdangles ((noneDangling_throughout_iff hrun).mp hall)⟩

/-- The first of two nodes with one name takes the publisher with it. -/
theorem twin_unheard : ∃ (trace : ThreeTrace) (s : Rosout (Fin 3)),
    Run (RosoutStep threeNames) .initial trace s ∧
      ¬ Throughout (AllHeard threeNames) .initial trace := by
  obtain ⟨trace, s, hrun, hremoves⟩ : ∃ (trace : ThreeTrace) (s : Rosout (Fin 3)),
      Run (RosoutStep threeNames) .initial trace s ∧
        ¬ Admitted (RemovesLast threeNames) trace := by
    refine ⟨_, _, .cons (.init _ 0 true true true true allocated rfl) <|
      .cons (.init _ 1 true true true true allocated rfl) <|
      .cons (.init _ 2 false true true true allocated rfl) <|
      .cons (.fini _ 0 true rfl) <| .nil _, fun hlast => ?_⟩
    have hdifferent := hlast _ (List.getLast_mem (List.cons_ne_nil _ _)) rfl 1 (by decide) rfl rfl
    cases hdifferent
  exact ⟨trace, s, hrun, fun hall => hremoves ((allHeard_throughout_iff hrun).mp hall)⟩

end Examples

end RosRtems.LoggingRosout
