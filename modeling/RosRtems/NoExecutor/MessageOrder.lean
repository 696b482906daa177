import RosRtems.Core.ServiceOrder
import RosRtems.NoExecutor.WorkerJobs

/-!
# The order of a subscription's messages

Several jobs of a subscription can be with different workers, and only the mutex of the
group puts them in order.  Where the worker takes the message, it does so when it has the
mutex, and the order of the jobs does not matter.  Where the dispatcher takes the message
and hands it to the worker, the callback gets the messages in the order in which the workers
lock the mutex.
-/

namespace RosRtems.NoExecutor

open RosRtems.Runs RosRtems.ServiceOrder PoolState

variable {Group Entity : Type*} {dispatchers : ℕ}

/-! ## The pool -/

/-- A pool with idle threads, as `thread_start_idle` begins: they are going to push
themselves. -/
def PoolState.pooled (idle : ℕ) : PoolState Group Entity dispatchers :=
  { PoolState.initial with
    worker := fun w => if w < idle then .pushing else .absent
    created := idle }

section Pool

variable {exclusive : Group → Bool} {s s' : PoolState Group Entity dispatchers}

theorem poolInvariant_pooled (idle : ℕ) : PoolInvariant exclusive
    (PoolState.pooled idle : PoolState Group Entity dispatchers) where
  places := by
    constructor <;>
      simp [PoolState.pooled, PoolState.initial, HasPopped, DispatcherPc.idleThread, Parked, Free,
        ite_eq_iff]
  slots := by
    constructor <;>
      simp [PoolState.pooled, PoolState.initial, DispatcherPc.carried, Loaded, Assigned, ite_eq_iff]
  mutexes := by
    intro group w hheld
    cases hheld
  balanced := by
    have hnothing : ∀ place, (ledger
        (PoolState.pooled idle : PoolState Group Entity dispatchers)).holds place = none := by
      rintro (d | w)
      · rfl
      · simp only [ledger, jobAt, PoolState.pooled]
        split <;> rfl
    refine ⟨fun p q job hheld => ?_, fun p job hheld => ?_, List.nodup_nil, fun job => ?_⟩
    · rw [hnothing] at hheld
      cases hheld
    · rw [hnothing] at hheld
      cases hheld
    · simp only [hnothing, reduceCtorEq, exists_const, or_false]
      simp [ledger, PoolState.pooled, PoolState.initial]

/-- A worker that executes a job of a mutually exclusive group has its mutex. -/
def GuardedInvariant (exclusive : Group → Bool) (s : PoolState Group Entity dispatchers) :
    Prop :=
  ∀ w handed group, s.worker w = .executing → s.slot w = some handed →
    handed.executable.callbackGroup = some group → exclusive group = true →
      s.groupMutex group = some w

theorem guardedInvariant_pooled (idle : ℕ) : GuardedInvariant exclusive
    (PoolState.pooled idle : PoolState Group Entity dispatchers) := by
  intro w handed group _ hslot
  cases hslot

/-- No worker has begun to execute, and the slots of the others have kept their groups. -/
theorem GuardedInvariant.frame (hs : GuardedInvariant exclusive s)
    (hmutex : s'.groupMutex = s.groupMutex)
    (hworker : ∀ w, s'.worker w = .executing → s.worker w = .executing)
    (hslot : ∀ w handed, s.worker w = .executing → s'.slot w = some handed →
      ∃ before, s.slot w = some before ∧
        before.executable.callbackGroup = handed.executable.callbackGroup) :
    GuardedInvariant exclusive s' := by
  intro w handed group hpc hcontent hgroup hexclusive
  obtain ⟨before, hbefore, hsame⟩ := hslot w handed (hworker w hpc) hcontent
  rw [hmutex]
  exact hs w before group (hworker w hpc) hbefore (hsame.trans hgroup) hexclusive

/-- A worker that does not execute goes on, and may write its own slot. -/
theorem GuardedInvariant.worker_moves (hs : GuardedInvariant exclusive s) {w : ℕ}
    {pc : WorkerPc Group Entity} (hpc : s.worker w ≠ .executing) (hnext : pc ≠ .executing)
    (hmutex : s'.groupMutex = s.groupMutex)
    (hworker : s'.worker = Function.update s.worker w pc)
    (hslot : ∀ other, other ≠ w → s'.slot other = s.slot other) :
    GuardedInvariant exclusive s' := by
  have hother : ∀ v, s.worker v = .executing → v ≠ w := by
    rintro v hv rfl
    exact hpc hv
  refine hs.frame hmutex (fun v hv => ?_) fun v handed hv hcontent => ?_
  · rw [hworker] at hv
    by_cases hsame : v = w
    · subst hsame
      rw [Function.update_self] at hv
      exact absurd hv hnext
    · rwa [Function.update_of_ne hsame] at hv
  · exact ⟨handed, (hslot v (hother v hv)).symm.trans hcontent, rfl⟩

variable [DecidableEq Group]

theorem GuardedInvariant.lock (hs : GuardedInvariant exclusive s) {w : ℕ}
    {handed : Handed Group Entity} {group : Group} (hslot : s.slot w = some handed)
    (hgroup : handed.executable.callbackGroup = some group)
    (hmutex : exclusive group = true → s.groupMutex group = none) :
    GuardedInvariant exclusive
      { (s.lockGroup exclusive w group).moveWorker w .executing with
        executions := s.executions ++ [handed] } := by
  intro v other wanted hpc hcontent hwanted hexclusive
  simp only [moveWorker, lockGroup] at hpc hcontent ⊢
  by_cases hv : v = w
  · subst hv
    obtain rfl := Option.some.inj (hslot.symm.trans hcontent)
    obtain rfl := Option.some.inj (hgroup.symm.trans hwanted)
    simp [hexclusive]
  · rw [Function.update_of_ne hv] at hpc
    have hbefore := hs v other wanted hpc hcontent hwanted hexclusive
    have hother : wanted ≠ group := by
      rintro rfl
      rw [hmutex hexclusive] at hbefore
      cases hbefore
    split
    · rwa [Function.update_of_ne hother]
    · exact hbefore

theorem GuardedInvariant.unlock (hs : GuardedInvariant exclusive s) {w : ℕ}
    {handed : Handed Group Entity} {group : Group} (hpc : s.worker w = .executing)
    (hslot : s.slot w = some handed)
    (hgroup : handed.executable.callbackGroup = some group) :
    GuardedInvariant exclusive ((s.unlockGroup exclusive w group).moveWorker w .executed) := by
  intro v other wanted hexecuting hcontent hwanted hexclusive
  have hv : v ≠ w := by
    rintro rfl
    simp [moveWorker] at hexecuting
  have hbefore : s.groupMutex wanted = some v := by
    refine hs v other wanted ?_ ?_ hwanted hexclusive
    · simpa [moveWorker, unlockGroup, hv] using hexecuting
    · exact (unlockGroup_slot exclusive hv group).symm.trans hcontent
  have hother : wanted ≠ group := by
    rintro rfl
    have hmine := hs w handed wanted hpc hslot hgroup hexclusive
    exact hv (Option.some.inj (hbefore.symm.trans hmine))
  simp only [moveWorker, unlockGroup]
  split
  · rwa [Function.update_of_ne hother]
  · exact hbefore

theorem guardedInvariant_step {label : PoolLabel Group Entity dispatchers}
    (hplaces : PlaceInvariant s) (hs : GuardedInvariant exclusive s)
    (hstep : PoolStep exclusive s label s') : GuardedInvariant exclusive s' := by
  cases hstep with
  | call | pop | popNull | wake | detach => exact hs
  | write d handed w hpc =>
      have hfree := hplaces.free_of_popped (hasPopped_of_popped hpc)
      refine hs.frame rfl (fun _ => id) fun v content hv hcontent => ?_
      have hother : v ≠ w := by
        rintro rfl
        rw [hfree.1] at hv
        cases hv
      exact ⟨content, by simpa [moveDispatcher, writeSlot, hother] using hcontent, rfl⟩
  | stamp d w timing hpc =>
      refine hs.frame rfl (fun _ => id) fun v content hv hcontent => ?_
      cases hbefore : s.slot v with
      | none =>
          by_cases hsame : v = w
          · subst hsame
            simp [moveDispatcher, writeSlot, hbefore] at hcontent
          · simp [moveDispatcher, writeSlot, hsame, hbefore] at hcontent
      | some before =>
          obtain ⟨after, hafter, hkept⟩ := writeSlot_stamped hbefore w timing
          obtain rfl := Option.some.inj (hafter.symm.trans hcontent)
          rcases hkept with rfl | rfl
          · exact ⟨_, rfl, rfl⟩
          · exact ⟨before, rfl, rfl⟩
  | create d handed hpc =>
      have hnew := (hplaces.absent s.created).mpr le_rfl
      exact hs.worker_moves (by simp [hnew]) (by simp) rfl rfl fun _ _ => rfl
  | copy w handed hpc =>
      exact hs.worker_moves (by simp [hpc]) (by simp) rfl rfl
        fun other hother => Function.update_of_ne hother _ _
  | begin w hpc | pass w hpc | clear w hpc | push w hpc =>
      exact hs.worker_moves (by simp [hpc]) (by simp) rfl rfl fun _ _ => rfl
  | execute w handed group hpc hslot hgroup hmutex => exact hs.lock hslot hgroup hmutex
  | finish w handed group hpc hslot hgroup => exact hs.unlock hpc hslot hgroup

/-- What a step of the pool does to the calls and to the executions. -/
theorem poolStep_cases {label : PoolLabel Group Entity dispatchers}
    (hstep : PoolStep exclusive s label s') :
    (∃ d request, label = .call d request ∧ s'.handed = s.handed ++ [request] ∧
      s'.executions = s.executions) ∨
    (∃ w handed, label = .worker w ∧ s.worker w = .woken ∧ s.slot w = some handed ∧
      s'.handed = s.handed ∧ s'.executions = s.executions ++ [handed]) ∨
    ((∀ d request, label ≠ .call d request) ∧
      (∀ w, label = .worker w → s.worker w ≠ .woken) ∧ s'.handed = s.handed ∧
      s'.executions = s.executions) := by
  cases hstep with
  | call d request => exact .inl ⟨d, request, rfl, rfl, rfl⟩
  | execute w handed group hpc hslot => exact .inr (.inl ⟨w, handed, rfl, hpc, hslot, rfl, rfl⟩)
  | pop | popNull | write | wake | stamp | create | detach =>
      exact .inr (.inr ⟨by simp, by simp, rfl, rfl⟩)
  | copy w handed hpc => exact .inr (.inr ⟨by simp, by simp [hpc], rfl, rfl⟩)
  | begin w hpc | pass w hpc | finish w handed group hpc | clear w hpc | push w hpc =>
      exact .inr (.inr ⟨by simp, by simp [hpc], rfl, rfl⟩)

end Pool

/-! ## Messages -/

/-- Who takes a message from the queue of the subscription: the worker, when it has the
mutex of the group, or the dispatcher, before it hands the executable over. -/
inductive Taker
  | worker
  | dispatcher
  deriving DecidableEq

/-- The pool and the queue of one subscription.  Messages are named by the order of their
arrival; `message` has those that a dispatcher has taken, by the calls of
`assign_or_create`, and `received` those that the callback has been called with. -/
structure OrderState (Group Entity : Type*) (dispatchers : ℕ) where
  pool : PoolState Group Entity dispatchers
  arrived : ℕ
  queue : List ℕ
  message : ℕ → Option ℕ
  received : List ℕ

def OrderState.starting (idle : ℕ) : OrderState Group Entity dispatchers where
  pool := PoolState.pooled idle
  arrived := 0
  queue := []
  message := fun _ => none
  received := []

section Messages

variable [DecidableEq Entity] (taker : Taker) (sub : Entity)

def Request.isFor (request : Request Group Entity) : Bool :=
  request.type = .subscription ∧ request.entity = sub

def Executable.isFor (executable : Executable Group Entity) : Bool :=
  executable.type = .subscription ∧ executable.getSchedBase = some sub

namespace OrderState

variable (s : OrderState Group Entity dispatchers)

/-- How many messages the dispatchers have handed over. -/
def dispatched : ℕ := s.pool.handed.countP (Request.isFor sub)

def arrive : OrderState Group Entity dispatchers :=
  { s with arrived := s.arrived + 1, queue := s.queue ++ [s.arrived] }

/-- `take_message` of a dispatcher, for the call that comes next. -/
def takeMessage : OrderState Group Entity dispatchers :=
  match taker, s.queue with
  | .dispatcher, m :: rest =>
      { s with
        queue := rest
        message := Function.update s.message s.pool.handed.length (some m) }
  | _, _ => s

/-- The callback gets the message that came with the job, or the one that the worker
takes. -/
def handleMessage (job : ℕ) : OrderState Group Entity dispatchers :=
  match taker with
  | .dispatcher =>
      match s.message job with
      | some m => { s with received := s.received ++ [m] }
      | none => s
  | .worker =>
      match s.queue with
      | m :: rest => { s with queue := rest, received := s.received ++ [m] }
      | [] => s

/-- What a step of the pool does to the messages of the subscription. -/
def effect : PoolLabel Group Entity dispatchers → OrderState Group Entity dispatchers
  | .call _ request => if request.isFor sub then s.takeMessage taker else s
  | .dispatcher _ => s
  | .worker w =>
      match s.pool.worker w, s.pool.slot w with
      | .woken, some handed =>
          if handed.executable.isFor sub then s.handleMessage taker handed.job else s
      | _, _ => s

/-- A message has arrived that no executable was handed over for, or is in the queue for
the dispatcher. -/
def HasMessage : Prop :=
  match taker with
  | .worker => s.dispatched sub < s.arrived
  | .dispatcher => s.queue ≠ []

instance : Decidable (s.HasMessage taker sub) :=
  match taker with
  | .worker => inferInstanceAs (Decidable (s.dispatched sub < s.arrived))
  | .dispatcher => inferInstanceAs (Decidable (s.queue ≠ []))

/-- An executable of the subscription is handed over with its group, for a message. -/
def Dispatchable (group : Group) : PoolLabel Group Entity dispatchers → Prop
  | .call _ request => request.isFor sub = true →
      request.callbackGroup = group ∧ s.HasMessage taker sub
  | .dispatcher _ | .worker _ => True

end OrderState

inductive OrderLabel (Group Entity : Type*) (dispatchers : ℕ)
  | arrive
  | pool (label : PoolLabel Group Entity dispatchers)

/-- Any order of arrivals and steps of the pool.  The executors differ in who takes the
messages, and in what a worker leaves in its slot when it has executed it; the next job
overwrites that. -/
inductive OrderStep [DecidableEq Group] (exclusive : Group → Bool) (group : Group) :
    OrderState Group Entity dispatchers → OrderLabel Group Entity dispatchers →
      OrderState Group Entity dispatchers → Prop
  | arrive (s : OrderState Group Entity dispatchers) :
      OrderStep exclusive group s .arrive s.arrive
  | pool (s : OrderState Group Entity dispatchers)
      (label : PoolLabel Group Entity dispatchers) (pool' : PoolState Group Entity dispatchers)
      (hstep : PoolStep exclusive s.pool label pool')
      (hdispatch : s.Dispatchable taker sub group label) :
      OrderStep exclusive group s (.pool label) { s.effect taker sub label with pool := pool' }

/-- The callback of the subscription is in progress in a worker. -/
def InCallback (s : PoolState Group Entity dispatchers) (w : ℕ) : Prop :=
  s.worker w = .executing ∧ ∃ handed, s.slot w = some handed ∧ handed.executable.isFor sub = true

/-- No executable of the subscription is with a dispatcher or waits in a worker. -/
def NoneWaiting (s : PoolState Group Entity dispatchers) : Prop :=
  ∀ place handed, jobAt s place = some handed → handed.executable.isFor sub = false

/-- The callback gets the messages in queue order and without a gap, never two at a time,
and it has got one for each executable that was handed over once none of them waits. -/
structure InOrder (s : OrderState Group Entity dispatchers) : Prop where
  ordered : s.received = List.range s.received.length
  single : ∀ w other, InCallback sub s.pool w → InCallback sub s.pool other → w = other
  complete : NoneWaiting sub s.pool → s.received.length = s.dispatched sub

/-- Where the dispatcher takes the messages: a worker that locks the mutex for an
executable of the subscription has none before it that was not executed. -/
def LocksInOrder (s : OrderState Group Entity dispatchers) :
    OrderLabel Group Entity dispatchers → Prop
  | .pool (.worker w) => taker = .dispatcher → ∀ handed, s.pool.worker w = .woken →
      s.pool.slot w = some handed → handed.executable.isFor sub = true →
        ∀ earlier < handed.job, Marks (Request.isFor sub) s.pool.handed earlier →
          earlier ∈ s.pool.executions.map (·.job)
  | _ => True

/-! ## Executables of the subscription -/

/-- The executed jobs of the subscription, in the order of their execution. -/
def done (s : PoolState Group Entity dispatchers) : List ℕ :=
  (s.executions.filter fun handed => handed.executable.isFor sub).map (·.job)

section Jobs

variable {taker sub} {exclusive : Group → Bool} {s : PoolState Group Entity dispatchers}

theorem Genuine.isFor_iff {calls : List (Request Group Entity)} {handed : Handed Group Entity}
    (hgenuine : Genuine calls handed) :
    handed.executable.isFor sub = true ↔ Marks (Request.isFor sub) calls handed.job := by
  obtain ⟨request, hcall, htype, -, hentity⟩ := hgenuine
  rw [executable_getSchedBase] at hentity
  have hsame : handed.executable.isFor sub = request.isFor sub := by
    simp [Executable.isFor, Request.isFor, htype, hentity, Request.executable]
  rw [hsame]
  constructor
  · exact fun hfor => ⟨request, hcall, hfor⟩
  · rintro ⟨other, hother, hfor⟩
    rw [hcall] at hother
    exact Option.some.inj hother ▸ hfor

omit [DecidableEq Entity] in
/-- Whoever has a job has the executable of its call. -/
theorem PoolInvariant.genuine_jobAt (hs : PoolInvariant exclusive s)
    {place : Fin dispatchers ⊕ ℕ} {handed : Handed Group Entity}
    (hjob : jobAt s place = some handed) : Genuine s.handed handed := by
  have hloaded : ∀ w, Loaded s w → s.slot w = some handed → Genuine s.handed handed := by
    intro w hw hslot
    obtain ⟨content, hcontent, hgenuine⟩ := hs.slots.loaded w hw
    rw [hslot] at hcontent
    exact Option.some.inj hcontent ▸ hgenuine
  cases place with
  | inl d =>
      rw [jobAt] at hjob
      cases hpc : s.dispatcher d with
      | entered other | popped other w | creating other =>
          refine hs.slots.carried d handed ?_
          rw [hpc] at hjob ⊢
          exact hjob
      | written w =>
          have hfree := hs.places.free_of_popped (hasPopped_of_written hpc)
          rw [hpc] at hjob
          exact hloaded w (.inl (.inr (.inr ⟨hfree.1, .inr ⟨d, hpc⟩⟩))) hjob
      | outside | woke w | created w =>
          rw [hpc] at hjob
          cases hjob
  | inr w =>
      rw [jobAt] at hjob
      cases hpc : s.worker w with
      | started other =>
          rw [hpc] at hjob
          exact hs.slots.started w handed (hpc.trans (congrArg _ (Option.some.inj hjob)))
      | copied | woken =>
          rw [hpc] at hjob
          exact hloaded w (by simp [Loaded, Assigned, hpc]) hjob
      | waiting =>
          rw [hpc, workerJob] at hjob
          split at hjob
          · exact hloaded w (by simp [Loaded, Assigned, *]) hjob
          · cases hjob
      | absent | executing | executed | pushing =>
          rw [hpc] at hjob
          cases hjob

theorem mem_done_iff (hs : PoolInvariant exclusive s) {job : ℕ}
    (hmarks : Marks (Request.isFor sub) s.handed job) :
    job ∈ done sub s ↔ job ∈ s.executions.map (·.job) := by
  simp only [done, List.mem_map, List.mem_filter]
  constructor
  · rintro ⟨handed, ⟨hmem, -⟩, hjob⟩
    exact ⟨handed, hmem, hjob⟩
  · rintro ⟨handed, hmem, rfl⟩
    exact ⟨handed, ⟨hmem, (hs.slots.recorded handed hmem).isFor_iff.mpr hmarks⟩, rfl⟩

theorem PoolInvariant.served (hs : PoolInvariant exclusive s) :
    Served (Request.isFor sub) s.handed (done sub s) where
  nodup := hs.balanced.once.sublist (List.filter_sublist.map _)
  marks := by
    intro job hmem
    obtain ⟨handed, hfiltered, rfl⟩ := List.mem_map.mp hmem
    obtain ⟨hexecuted, hfor⟩ := List.mem_filter.mp hfiltered
    exact (hs.slots.recorded handed hexecuted).isFor_iff.mp hfor

/-- Where no executable of the subscription waits, all of them have been executed. -/
theorem PoolInvariant.all_done (hs : PoolInvariant exclusive s) (hnone : NoneWaiting sub s)
    {job : ℕ} (hmarks : Marks (Request.isFor sub) s.handed job) : job ∈ done sub s := by
  rw [mem_done_iff hs hmarks]
  refine ((hs.balanced.accounted job).mp hmarks.lt).resolve_right ?_
  rintro ⟨place, hheld⟩
  obtain ⟨handed, hjob, rfl⟩ := Option.map_eq_some_iff.mp hheld
  have hfor := (hs.genuine_jobAt hjob).isFor_iff.mpr hmarks
  rw [hnone place handed hjob] at hfor
  cases hfor

/-- A job that a worker is about to execute has not been executed. -/
theorem PoolInvariant.not_done_of_woken (hs : PoolInvariant exclusive s) {w : ℕ}
    {handed : Handed Group Entity} (hpc : s.worker w = .woken)
    (hslot : s.slot w = some handed) : handed.job ∉ done sub s := by
  have hheld : (ledger s).holds (.inr w) = some handed.job := by
    simp [ledger, jobAt, hpc, workerJob, hslot]
  intro hmem
  obtain ⟨other, hfiltered, hsame⟩ := List.mem_map.mp hmem
  refine hs.balanced.pending (.inr w) handed.job hheld (List.mem_map.mpr ⟨other, ?_, hsame⟩)
  exact (List.mem_filter.mp hfiltered).1

end Jobs

/-! ## The messages and the jobs -/

/-- How many messages have left the queue. -/
def OrderState.taken (s : OrderState Group Entity dispatchers) : ℕ :=
  match taker with
  | .worker => s.received.length
  | .dispatcher => s.dispatched sub

structure MessageInvariant (s : OrderState Group Entity dispatchers) : Prop where
  counted : s.dispatched sub ≤ s.arrived
  queue : s.queue = List.range' (s.taken taker sub) (s.arrived - s.taken taker sub)
  length : s.received.length = (done sub s.pool).length
  values : taker = .dispatcher →
    s.received = (done sub s.pool).map (rank (Request.isFor sub) s.pool.handed)
  messages : taker = .dispatcher → ∀ job, Marks (Request.isFor sub) s.pool.handed job →
    s.message job = some (rank (Request.isFor sub) s.pool.handed job)
  ordered : s.received = List.range s.received.length

section Steps

variable {taker sub} {s : OrderState Group Entity dispatchers}
  {pool' : PoolState Group Entity dispatchers}

theorem messageInvariant_starting (idle : ℕ) : MessageInvariant taker sub
    (OrderState.starting idle : OrderState Group Entity dispatchers) where
  counted := le_rfl
  queue := by cases taker <;> rfl
  length := rfl
  values := fun _ => rfl
  messages := fun _ job hmarks => absurd hmarks.lt (Nat.not_lt_zero job)
  ordered := rfl

theorem MessageInvariant.arrive (h : MessageInvariant taker sub s)
    (hserved : Served (Request.isFor sub) s.pool.handed (done sub s.pool)) :
    MessageInvariant taker sub s.arrive where
  counted := h.counted.trans (Nat.le_succ _)
  queue := by
    have htaken : s.taken taker sub ≤ s.arrived := by
      cases taker with
      | worker => exact h.length.trans_le (hserved.length_le.trans h.counted)
      | dispatcher => exact h.counted
    have hend : s.taken taker sub + (s.arrived - s.taken taker sub) = s.arrived :=
      Nat.add_sub_cancel' htaken
    have hkept : s.arrive.taken taker sub = s.taken taker sub := rfl
    rw [hkept, OrderState.arrive, h.queue, Nat.succ_sub htaken, List.range'_1_concat, hend]
  length := h.length
  values := h.values
  messages := h.messages
  ordered := h.ordered

/-- A step of the pool with as many calls for the subscription takes no message. -/
theorem taken_of_dispatched
    (hdispatched : { s with pool := pool' }.dispatched sub = s.dispatched sub) :
    { s with pool := pool' }.taken taker sub = s.taken taker sub := by
  cases taker with
  | worker => rfl
  | dispatcher => exact hdispatched

/-- A step of the pool that neither calls nor executes. -/
theorem MessageInvariant.keep (h : MessageInvariant taker sub s)
    (hhanded : pool'.handed = s.pool.handed) (hdone : done sub pool' = done sub s.pool) :
    MessageInvariant taker sub { s with pool := pool' } := by
  have hdispatched : { s with pool := pool' }.dispatched sub = s.dispatched sub := by
    simp only [OrderState.dispatched, hhanded]
  refine ⟨hdispatched.trans_le h.counted, ?_, h.length.trans (congrArg List.length hdone.symm),
    ?_, ?_, h.ordered⟩
  · rw [taken_of_dispatched hdispatched]
    exact h.queue
  · simp only [hhanded, hdone]
    exact h.values
  · simp only [hhanded]
    exact h.messages

section Call

variable {request : Request Group Entity}

/-- The ranks of the jobs that were there do not change. -/
theorem ranks_append (hserved : Served (Request.isFor sub) s.pool.handed (done sub s.pool))
    (more : List (Request Group Entity)) :
    (done sub s.pool).map (rank (Request.isFor sub) (s.pool.handed ++ more)) =
      (done sub s.pool).map (rank (Request.isFor sub) s.pool.handed) :=
  List.map_congr_left fun job hmem => rank_append (hserved.marks job hmem).lt.le more

theorem marks_or_new {job : ℕ}
    (hmarks : Marks (Request.isFor sub) (s.pool.handed ++ [request]) job) :
    Marks (Request.isFor sub) s.pool.handed job ∨
      job = s.pool.handed.length ∧ request.isFor sub = true := by
  have hlt := hmarks.lt
  rw [List.length_append, List.length_singleton] at hlt
  rcases Nat.lt_succ_iff_lt_or_eq.mp hlt with hold | rfl
  · exact .inl ((marks_append hold [request]).mp hmarks)
  · exact .inr ⟨rfl, marks_new.mp hmarks⟩

/-- A call with an executable of somebody else. -/
theorem MessageInvariant.callOther (h : MessageInvariant taker sub s)
    (hserved : Served (Request.isFor sub) s.pool.handed (done sub s.pool))
    (hother : request.isFor sub = false) (hhanded : pool'.handed = s.pool.handed ++ [request])
    (hdone : done sub pool' = done sub s.pool) :
    MessageInvariant taker sub { s with pool := pool' } := by
  have hdispatched : { s with pool := pool' }.dispatched sub = s.dispatched sub := by
    simp [OrderState.dispatched, hhanded, hother]
  refine ⟨hdispatched.trans_le h.counted, ?_, h.length.trans (congrArg List.length hdone.symm),
    fun htaker => ?_, fun htaker job hmarks => ?_, h.ordered⟩
  · rw [taken_of_dispatched hdispatched]
    exact h.queue
  · simp only [hhanded, hdone]
    exact (h.values htaker).trans (ranks_append hserved [request]).symm
  · simp only [hhanded] at hmarks ⊢
    rcases marks_or_new hmarks with hold | ⟨-, hfor⟩
    · rw [rank_append hold.lt.le]
      exact h.messages htaker job hold
    · rw [hother] at hfor
      cases hfor

/-- A call with an executable of the subscription, whose message the dispatcher may have
taken. -/
theorem MessageInvariant.call (h : MessageInvariant taker sub s)
    (hserved : Served (Request.isFor sub) s.pool.handed (done sub s.pool))
    (hfor : request.isFor sub = true) (hhanded : pool'.handed = s.pool.handed ++ [request])
    (hdone : done sub pool' = done sub s.pool)
    (hready : s.HasMessage taker sub) :
    MessageInvariant taker sub { s.takeMessage taker with pool := pool' } := by
  have hdispatched : pool'.handed.countP (Request.isFor sub) = s.dispatched sub + 1 := by
    simp [OrderState.dispatched, hhanded, hfor]
  cases taker with
  | worker =>
      exact ⟨hdispatched.trans_le hready, h.queue,
        h.length.trans (congrArg List.length hdone.symm), nofun, nofun, h.ordered⟩
  | dispatcher =>
      have hqueue : s.queue = List.range' (s.dispatched sub) (s.arrived - s.dispatched sub) :=
        h.queue
      have hpos : 0 < s.arrived - s.dispatched sub := by
        refine Nat.pos_of_ne_zero fun hzero => hready ?_
        rw [hqueue, hzero]
        rfl
      obtain ⟨left, hleft⟩ := Nat.exists_eq_succ_of_ne_zero hpos.ne'
      rw [hleft, List.range'_succ] at hqueue
      have htake : s.takeMessage .dispatcher =
          { s with
            queue := List.range' (s.dispatched sub + 1) left
            message :=
              Function.update s.message s.pool.handed.length (some (s.dispatched sub)) } := by
        simp only [OrderState.takeMessage, hqueue]
      rw [htake]
      refine ⟨?_, ?_, h.length.trans (congrArg List.length hdone.symm), fun htaker => ?_,
        fun htaker job hmarks => ?_, h.ordered⟩
      · exact hdispatched.trans_le (Nat.lt_of_sub_pos hpos)
      · change List.range' (s.dispatched sub + 1) left =
          List.range' (pool'.handed.countP (Request.isFor sub))
            (s.arrived - pool'.handed.countP (Request.isFor sub))
        rw [hdispatched]
        congr 1
        omega
      · simp only [hhanded, hdone]
        exact (h.values htaker).trans (ranks_append hserved [request]).symm
      · simp only [hhanded] at hmarks ⊢
        rcases marks_or_new hmarks with hold | ⟨rfl, -⟩
        · rw [Function.update_of_ne hold.lt.ne, rank_append hold.lt.le]
          exact h.messages htaker job hold
        · rw [Function.update_self, rank_append le_rfl, rank_length]
          rfl

end Call

section Execute

variable {job : ℕ}

/-- The callback gets the next message: the worker takes it, or it is that of a job that
comes first. -/
theorem MessageInvariant.execute (h : MessageInvariant taker sub s)
    (hserved : Served (Request.isFor sub) s.pool.handed (done sub s.pool))
    (hmarks : Marks (Request.isFor sub) s.pool.handed job) (hnew : job ∉ done sub s.pool)
    (hfirst : taker = .dispatcher → ∀ earlier < job,
      Marks (Request.isFor sub) s.pool.handed earlier → earlier ∈ done sub s.pool)
    (hhanded : pool'.handed = s.pool.handed)
    (hdone : done sub pool' = done sub s.pool ++ [job]) :
    MessageInvariant taker sub { s.handleMessage taker job with pool := pool' } := by
  have hdispatched : pool'.handed.countP (Request.isFor sub) = s.dispatched sub := by
    rw [hhanded]
    rfl
  have hreceived : ∀ m, m = s.received.length →
      s.received ++ [m] = List.range (s.received ++ [m]).length := by
    rintro _ rfl
    rw [List.length_append, List.length_singleton, List.range_succ, ← h.ordered]
  have hlength : ∀ m, (s.received ++ [m]).length = (done sub pool').length := by
    intro m
    rw [hdone, List.length_append, List.length_append, h.length]
    rfl
  cases taker with
  | worker =>
      have hqueue : s.queue = List.range' s.received.length (s.arrived - s.received.length) :=
        h.queue
      have hlt : s.received.length < s.arrived := by
        have hmore := (hserved.snoc hmarks hnew).length_le
        rw [List.length_append, List.length_singleton, ← h.length] at hmore
        exact hmore.trans h.counted
      obtain ⟨left, hleft⟩ := Nat.exists_eq_succ_of_ne_zero (Nat.sub_pos_of_lt hlt).ne'
      rw [hleft, List.range'_succ] at hqueue
      have hhandle : s.handleMessage .worker job =
          { s with
            queue := List.range' (s.received.length + 1) left
            received := s.received ++ [s.received.length] } := by
        simp only [OrderState.handleMessage, hqueue]
      rw [hhandle]
      refine ⟨hdispatched.trans_le h.counted, ?_, hlength _, nofun, nofun, hreceived _ rfl⟩
      change List.range' (s.received.length + 1) left =
        List.range' (s.received ++ [s.received.length]).length
          (s.arrived - (s.received ++ [s.received.length]).length)
      rw [List.length_append, List.length_singleton]
      congr 1
      omega
  | dispatcher =>
      have hranks := h.values rfl
      have hordered : (done sub s.pool).map (rank (Request.isFor sub) s.pool.handed) =
          List.range (done sub s.pool).length := by
        rw [← hranks, ← h.length]
        exact h.ordered
      have hrank := (hserved.next_iff hordered hmarks hnew).mpr (hfirst rfl)
      have hhandle : s.handleMessage .dispatcher job =
          { s with
            received := s.received ++ [rank (Request.isFor sub) s.pool.handed job] } := by
        simp only [OrderState.handleMessage, h.messages rfl job hmarks]
      rw [hhandle]
      refine ⟨hdispatched.trans_le h.counted, ?_, hlength _, fun _ => ?_, fun _ => ?_,
        hreceived _ (hrank.trans h.length.symm)⟩
      · change s.queue = List.range' (pool'.handed.countP (Request.isFor sub))
          (s.arrived - pool'.handed.countP (Request.isFor sub))
        rw [hdispatched]
        exact h.queue
      · simp only [hhanded, hdone, List.map_append, ← hranks]
        rfl
      · simp only [hhanded]
        exact h.messages rfl

/-- Conversely, a callback that got the next message was that of the first job. -/
theorem MessageInvariant.first_of_ordered (h : MessageInvariant .dispatcher sub s)
    (hserved : Served (Request.isFor sub) s.pool.handed (done sub s.pool))
    (hmarks : Marks (Request.isFor sub) s.pool.handed job) (hnew : job ∉ done sub s.pool)
    (hordered : (s.handleMessage .dispatcher job).received =
      List.range (s.handleMessage .dispatcher job).received.length) :
    ∀ earlier < job, Marks (Request.isFor sub) s.pool.handed earlier →
      earlier ∈ done sub s.pool := by
  have hbefore : (done sub s.pool).map (rank (Request.isFor sub) s.pool.handed) =
      List.range (done sub s.pool).length := by
    rw [← h.values rfl, ← h.length]
    exact h.ordered
  have hhandle : (s.handleMessage .dispatcher job).received =
      s.received ++ [rank (Request.isFor sub) s.pool.handed job] := by
    simp only [OrderState.handleMessage, h.messages rfl job hmarks]
  rw [hhandle, List.length_append, List.length_singleton, List.range_succ] at hordered
  have hlast := (List.append_inj' hordered rfl).2
  refine (hserved.next_iff hbefore hmarks hnew).mp ?_
  exact (List.singleton_inj.mp hlast).trans h.length

end Execute

end Steps

/-! ## Runs -/

structure OrderInvariant (exclusive : Group → Bool) (group : Group)
    (s : OrderState Group Entity dispatchers) : Prop where
  pool : PoolInvariant exclusive s.pool
  guarded : GuardedInvariant exclusive s.pool
  groups : ∀ request ∈ s.pool.handed, request.isFor sub = true → request.callbackGroup = group
  messages : MessageInvariant taker sub s

section Runs

variable {taker sub} {exclusive : Group → Bool} {group : Group}
  {s s' : OrderState Group Entity dispatchers}

theorem orderInvariant_starting (idle : ℕ) : OrderInvariant taker sub exclusive group
    (OrderState.starting idle : OrderState Group Entity dispatchers) where
  pool := poolInvariant_pooled idle
  guarded := guardedInvariant_pooled idle
  groups := fun _ hmem => absurd hmem List.not_mem_nil
  messages := messageInvariant_starting idle

theorem OrderInvariant.inOrder (h : OrderInvariant taker sub exclusive group s)
    (hexclusive : exclusive group = true) : InOrder sub s where
  ordered := h.messages.ordered
  single := by
    have hmutex : ∀ w, InCallback sub s.pool w → s.pool.groupMutex group = some w := by
      rintro w ⟨hpc, handed, hslot, hfor⟩
      obtain ⟨content, hcontent, request, hcall, hsame⟩ := h.pool.slots.loaded w (.inr hpc)
      obtain rfl := Option.some.inj (hslot.symm.trans hcontent)
      have hmarks := (Genuine.isFor_iff ⟨request, hcall, hsame⟩).mp hfor
      obtain ⟨other, hother, hrequest⟩ := hmarks
      obtain rfl := Option.some.inj (hcall.symm.trans hother)
      have hgroup := h.groups request (List.mem_of_getElem? hcall) hrequest
      exact h.guarded w handed group hpc hslot (hgroup ▸ hsame.2.1) hexclusive
    intro w other hw hother
    exact Option.some.inj ((hmutex w hw).symm.trans (hmutex other hother))
  complete := fun hnone => h.messages.length.trans
    (h.pool.served.length_eq fun _ hmarks => h.pool.all_done hnone hmarks)

theorem effect_execution {w : ℕ} {handed : Handed Group Entity}
    (hpc : s.pool.worker w = .woken) (hslot : s.pool.slot w = some handed) :
    s.effect taker sub (.worker w) =
      if handed.executable.isFor sub then s.handleMessage taker handed.job else s := by
  simp only [OrderState.effect, hpc, hslot]

theorem effect_other {label : PoolLabel Group Entity dispatchers}
    (hcall : ∀ d request, label ≠ .call d request)
    (hwoken : ∀ w, label = .worker w → s.pool.worker w ≠ .woken) :
    s.effect taker sub label = s := by
  cases label with
  | call d request => exact absurd rfl (hcall d request)
  | dispatcher d => rfl
  | worker w =>
      have hnot := hwoken w rfl
      cases hpc : s.pool.worker w with
      | woken => exact absurd hpc hnot
      | _ => simp only [OrderState.effect, hpc]

variable (sub) in
theorem done_snoc {s' s : PoolState Group Entity dispatchers} {handed : Handed Group Entity}
    (hexecutions : s'.executions = s.executions ++ [handed]) :
    done sub s' = if handed.executable.isFor sub then done sub s ++ [handed.job]
      else done sub s := by
  split
  · rename_i hfor
    simp [done, hexecutions, hfor]
  · rename_i hfor
    simp [done, hexecutions, hfor]

variable [DecidableEq Group]

theorem messageInvariant_step {label : OrderLabel Group Entity dispatchers}
    (h : OrderInvariant taker sub exclusive group s) (hadmits : LocksInOrder taker sub s label)
    (hstep : OrderStep taker sub exclusive group s label s') : MessageInvariant taker sub s' := by
  have hserved : Served (Request.isFor sub) s.pool.handed (done sub s.pool) := h.pool.served
  cases hstep with
  | arrive => exact h.messages.arrive hserved
  | pool label pool' hstep hdispatch =>
      rcases poolStep_cases hstep with ⟨d, request, rfl, hhanded, hexecutions⟩ |
        ⟨w, handed, rfl, hpc, hslot, hhanded, hexecutions⟩ |
        ⟨hcall, hwoken, hhanded, hexecutions⟩
      · have hdone : done sub pool' = done sub s.pool := by rw [done, done, hexecutions]
        cases hfor : request.isFor sub with
        | false =>
            simp only [OrderState.effect, hfor]
            exact h.messages.callOther hserved hfor hhanded hdone
        | true =>
            simp only [OrderState.effect, hfor, if_true]
            exact h.messages.call hserved hfor hhanded hdone (hdispatch hfor).2
      · rw [effect_execution hpc hslot]
        have hdone := done_snoc sub hexecutions
        obtain ⟨content, hcontent, hgenuine⟩ := h.pool.slots.loaded w
          (.inl (.inr (.inl hpc)))
        obtain rfl := Option.some.inj (hslot.symm.trans hcontent)
        split at hdone
        · rename_i hfor
          have hmarks := hgenuine.isFor_iff.mp hfor
          rw [if_pos hfor]
          refine h.messages.execute hserved hmarks (h.pool.not_done_of_woken hpc hslot)
            (fun htaker earlier hlt hearlier => ?_) hhanded hdone
          exact (mem_done_iff h.pool hearlier).mpr
            (hadmits htaker handed hpc hslot hfor earlier hlt hearlier)
        · rename_i hfor
          rw [if_neg hfor]
          exact h.messages.keep hhanded hdone
      · rw [effect_other hcall hwoken]
        exact h.messages.keep hhanded (by rw [done, done, hexecutions])

theorem orderInvariant_step {label : OrderLabel Group Entity dispatchers}
    (h : OrderInvariant taker sub exclusive group s) (hadmits : LocksInOrder taker sub s label)
    (hstep : OrderStep taker sub exclusive group s label s') :
    OrderInvariant taker sub exclusive group s' := by
  have hmessages := messageInvariant_step h hadmits hstep
  cases hstep with
  | arrive => exact ⟨h.pool, h.guarded, h.groups, hmessages⟩
  | pool label pool' hstep hdispatch =>
      refine ⟨poolInvariant_step _ _ _ h.pool hstep,
        guardedInvariant_step h.pool.places h.guarded hstep, fun request hmem hfor => ?_, hmessages⟩
      rcases poolStep_cases hstep with ⟨d, called, rfl, hhanded, -⟩ | ⟨-, -, -, -, -, hhanded, -⟩ |
        ⟨-, -, hhanded, -⟩
      · rw [hhanded] at hmem
        rcases List.mem_append.mp hmem with hold | hcalled
        · exact h.groups request hold hfor
        · obtain rfl := List.mem_singleton.mp hcalled
          exact (hdispatch hfor).1
      · exact h.groups request (hhanded ▸ hmem) hfor
      · exact h.groups request (hhanded ▸ hmem) hfor

/-- A worker that did not lock in order has called the callback with a later message. -/
theorem locksInOrder_of_inOrder {label : OrderLabel Group Entity dispatchers}
    (h : OrderInvariant taker sub exclusive group s)
    (hstep : OrderStep taker sub exclusive group s label s') (hinOrder : InOrder sub s') :
    LocksInOrder taker sub s label := by
  cases hstep with
  | arrive => trivial
  | pool label pool' hstep hdispatch =>
      cases label with
      | call d request => trivial
      | dispatcher d => trivial
      | worker w =>
          rintro rfl handed hpc hslot hfor earlier hlt hearlier
          have hordered := hinOrder.ordered
          rw [effect_execution hpc hslot, if_pos hfor] at hordered
          obtain ⟨content, hcontent, hgenuine⟩ := h.pool.slots.loaded w
            (.inl (.inr (.inl hpc)))
          obtain rfl := Option.some.inj (hslot.symm.trans hcontent)
          have hfirst := h.messages.first_of_ordered h.pool.served (hgenuine.isFor_iff.mp hfor)
            (h.pool.not_done_of_woken hpc hslot) hordered
          exact (mem_done_iff h.pool hearlier).mp (hfirst earlier hlt hearlier)

end Runs

end Messages

/-! ## Two workers -/

/-- The job of the message. -/
def messageJob (job : ℕ) : Handed Unit Unit :=
  ⟨job, (Request.mk .subscription () ()).executable⟩

abbrev TwoWorkersStep (taker : Taker) : OrderState Unit Unit 1 → OrderLabel Unit Unit 1 →
    OrderState Unit Unit 1 → Prop :=
  OrderStep taker () (fun _ => true) ()

/-- Two messages are handed over, each to a new worker, and the worker of the second one
locks the mutex first. -/
theorem second_overtakes (taker : Taker) : ∃ trace finish,
    Run (TwoWorkersStep taker) (OrderState.starting 0) trace finish ∧
    finish.received = match taker with
      | .worker => [0, 1]
      | .dispatcher => [1, 0] := by
  cases taker <;>
    exact ⟨_, _,
      .cons (.arrive _) <|
      .cons (.arrive _) <|
      .cons (.pool _ _ _ (.call _ 0 ⟨.subscription, (), ()⟩ rfl) fun _ => ⟨rfl, by decide⟩) <|
      .cons (.pool _ _ _ (.popNull _ 0 (messageJob 0) .zero rfl rfl) trivial) <|
      .cons (.pool _ _ _ (.create _ 0 (messageJob 0) rfl) trivial) <|
      .cons (.pool _ _ _ (.detach _ 0 0 (.inl rfl)) trivial) <|
      .cons (.pool _ _ _ (.call _ 0 ⟨.subscription, (), ()⟩ rfl) fun _ => ⟨rfl, by decide⟩) <|
      .cons (.pool _ _ _ (.popNull _ 0 (messageJob 1) .zero rfl rfl) trivial) <|
      .cons (.pool _ _ _ (.create _ 0 (messageJob 1) rfl) trivial) <|
      .cons (.pool _ _ _ (.copy _ 0 (messageJob 0) rfl) trivial) <|
      .cons (.pool _ _ _ (.begin _ 0 rfl) trivial) <|
      .cons (.pool _ _ _ (.pass _ 0 rfl rfl) trivial) <|
      .cons (.pool _ _ _ (.copy _ 1 (messageJob 1) rfl) trivial) <|
      .cons (.pool _ _ _ (.begin _ 1 rfl) trivial) <|
      .cons (.pool _ _ _ (.pass _ 1 rfl rfl) trivial) <|
      .cons (.pool _ _ _ (.execute _ 1 (messageJob 1) () rfl rfl rfl fun _ => rfl) trivial) <|
      .cons (.pool _ _ _ (.finish _ 1 (messageJob 1) () rfl rfl rfl) trivial) <|
      .cons (.pool _ _ _ (.execute _ 0 (messageJob 0) () rfl rfl rfl fun _ => rfl) trivial) <|
      .nil _, rfl⟩

/-- A worker that takes the message itself may lock the mutex at any time. -/
theorem locksInOrder_worker [DecidableEq Entity] (sub : Entity)
    (s : OrderState Group Entity dispatchers) (label : OrderLabel Group Entity dispatchers) :
    LocksInOrder .worker sub s label := by
  cases label with
  | arrive => trivial
  | pool label =>
      cases label with
      | call d request => trivial
      | dispatcher d => trivial
      | worker w => exact nofun

section LocksInOrder

variable [DecidableEq Entity] {taker : Taker} {sub : Entity}
  {s : OrderState Group Entity dispatchers} {w : ℕ}

theorem locksInOrder_of_pc (pc : WorkerPc Group Entity) (hpc : s.pool.worker w = pc)
    (hwoken : pc ≠ .woken) : LocksInOrder taker sub s (.pool (.worker w)) :=
  fun _ _ h => absurd (hpc.symm.trans h) hwoken

theorem locksInOrder_of_executed (handed : Handed Group Entity)
    (hslot : s.pool.slot w = some handed)
    (hearlier : ∀ earlier < handed.job, earlier ∈ s.pool.executions.map (·.job)) :
    LocksInOrder taker sub s (.pool (.worker w)) := by
  intro _ other _ hother _ earlier hlt _
  obtain rfl := Option.some.inj (hslot.symm.trans hother)
  exact hearlier earlier hlt

end LocksInOrder

/-- The dispatcher takes two messages, and their workers lock the mutex in the same order. -/
theorem first_goes_first : ∃ trace finish,
    Run (TwoWorkersStep .dispatcher) (OrderState.starting 0) trace finish ∧
    finish.received = [0, 1] ∧ Admitted (LocksInOrder .dispatcher ()) trace := by
  refine ⟨_, _,
    .cons (.arrive _) <|
    .cons (.arrive _) <|
    .cons (.pool _ _ _ (.call _ 0 ⟨.subscription, (), ()⟩ rfl) fun _ => ⟨rfl, by decide⟩) <|
    .cons (.pool _ _ _ (.popNull _ 0 (messageJob 0) .zero rfl rfl) trivial) <|
    .cons (.pool _ _ _ (.create _ 0 (messageJob 0) rfl) trivial) <|
    .cons (.pool _ _ _ (.detach _ 0 0 (.inl rfl)) trivial) <|
    .cons (.pool _ _ _ (.call _ 0 ⟨.subscription, (), ()⟩ rfl) fun _ => ⟨rfl, by decide⟩) <|
    .cons (.pool _ _ _ (.popNull _ 0 (messageJob 1) .zero rfl rfl) trivial) <|
    .cons (.pool _ _ _ (.create _ 0 (messageJob 1) rfl) trivial) <|
    .cons (.pool _ _ _ (.copy _ 1 (messageJob 1) rfl) trivial) <|
    .cons (.pool _ _ _ (.begin _ 1 rfl) trivial) <|
    .cons (.pool _ _ _ (.pass _ 1 rfl rfl) trivial) <|
    .cons (.pool _ _ _ (.copy _ 0 (messageJob 0) rfl) trivial) <|
    .cons (.pool _ _ _ (.begin _ 0 rfl) trivial) <|
    .cons (.pool _ _ _ (.pass _ 0 rfl rfl) trivial) <|
    .cons (.pool _ _ _ (.execute _ 0 (messageJob 0) () rfl rfl rfl fun _ => rfl) trivial) <|
    .cons (.pool _ _ _ (.finish _ 0 (messageJob 0) () rfl rfl rfl) trivial) <|
    .cons (.pool _ _ _ (.execute _ 1 (messageJob 1) () rfl rfl rfl fun _ => rfl) trivial) <|
    .nil _, rfl, ?_⟩
  exact .cons trivial <| .cons trivial <| .cons trivial <| .cons trivial <| .cons trivial <|
    .cons trivial <| .cons trivial <| .cons trivial <| .cons trivial <|
    .cons (locksInOrder_of_pc (.started (messageJob 1)) rfl nofun) <|
    .cons (locksInOrder_of_pc .copied rfl nofun) <|
    .cons (locksInOrder_of_pc .waiting rfl nofun) <|
    .cons (locksInOrder_of_pc (.started (messageJob 0)) rfl nofun) <|
    .cons (locksInOrder_of_pc .copied rfl nofun) <|
    .cons (locksInOrder_of_pc .waiting rfl nofun) <|
    .cons (locksInOrder_of_executed (messageJob 0) rfl nofun) <|
    .cons (locksInOrder_of_pc .executing rfl nofun) <|
    .cons (locksInOrder_of_executed (messageJob 1) rfl (by decide)) <| .nil _

end RosRtems.NoExecutor
