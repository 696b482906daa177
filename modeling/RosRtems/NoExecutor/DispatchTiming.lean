import RosRtems.NoExecutor.WorkerJobs

/-!
# The timing of a dispatch

`assign_or_create` takes its times in variables of its thread.  A new worker is handed
an executable whose fields have been computed from them one by one.  A popped worker is
woken first, and the three fields of its slot are written after, while
`execute_executable` may already read them.
-/

namespace RosRtems.NoExecutor

open RosRtems.Runs PoolState

variable {Group Entity : Type*} {dispatchers : ℕ}

/-! ## The fields and the clocks -/

inductive TimingField
  | dispatchDoneNs
  | dispatchDurNs
  | assignDurNs
  deriving DecidableEq

/-- The fields in the order in which `assign_or_create` stores them. -/
def TimingField.all : List TimingField := [.dispatchDoneNs, .dispatchDurNs, .assignDurNs]

/-- What `execute_executable` reads: each field for the thread, then each for the
globals. -/
def TimingField.reads : List TimingField := TimingField.all ++ TimingField.all

def Timing.get (timing : Timing) : TimingField → ℤ
  | .dispatchDoneNs => timing.dispatchDoneNs
  | .dispatchDurNs => timing.dispatchDurNs
  | .assignDurNs => timing.assignDurNs

def Timing.set (timing : Timing) (field : TimingField) (value : ℤ) : Timing :=
  match field with
  | .dispatchDoneNs => { timing with dispatchDoneNs := value }
  | .dispatchDurNs => { timing with dispatchDurNs := value }
  | .assignDurNs => { timing with assignDurNs := value }

/-- The variables `tl_t0`, `tl_t1` and `tl_t3` of a thread. -/
structure Times where
  t0 : UInt64
  t1 : UInt64
  t3 : UInt64

def Times.dispatchDur (times : Times) : UInt64 := times.t3 - times.t0

def Times.assignDur (times : Times) : UInt64 := times.t3 - times.t1

/-- The casts of `assign_or_create`. -/
def Times.timing (times : Times) : Timing where
  dispatchDoneNs := times.t3.toInt64.toInt
  dispatchDurNs := times.dispatchDur.toInt64.toInt
  assignDurNs := times.assignDur.toInt64.toInt

/-- How far a call has measured: before T3; after it, with the fields that it still has to
compute for a new worker; and for a woken one with its first duration, and with both and
the fields that it still has to store. -/
inductive Stopwatch
  | running
  | stopped (unstored : List TimingField)
  | assigned (assignDur : UInt64)
  | computed (dispatchDur assignDur : UInt64) (unstored : List TimingField)

namespace Stopwatch

/-- What is measured for the job of the call. -/
def result : Stopwatch → Times → Option Timing
  | .running, _ => none
  | .stopped _, times | .assigned _, times | .computed _ _ _, times => some times.timing

/-- The fields that the call has not stored. -/
def pending : Stopwatch → List TimingField
  | .running | .assigned _ => TimingField.all
  | .stopped unstored | .computed _ _ unstored => unstored

/-- The call reads the variables of its thread again. -/
def ReadsLocals : Stopwatch → Prop
  | .running | .assigned _ => True
  | .stopped unstored => unstored ≠ []
  | .computed _ _ unstored => .dispatchDoneNs ∈ unstored

/-- The durations that the call keeps are those of its times. -/
def Agrees : Stopwatch → Times → Prop
  | .running, _ | .stopped _, _ => True
  | .assigned assignDur, times => assignDur = times.assignDur
  | .computed dispatchDur assignDur _, times =>
      dispatchDur = times.dispatchDur ∧ assignDur = times.assignDur

end Stopwatch

@[simp]
theorem mem_all (field : TimingField) : field ∈ TimingField.all := by
  cases field <;> simp [TimingField.all]

@[simp]
theorem mem_reads (field : TimingField) : field ∈ TimingField.reads := by
  simp [TimingField.reads]

@[simp]
theorem get_set_self (timing : Timing) (field : TimingField) (value : ℤ) :
    (timing.set field value).get field = value := by
  cases field <;> rfl

theorem get_set_of_ne (timing : Timing) {field other : TimingField} (value : ℤ)
    (hother : other ≠ field) : (timing.set field value).get other = timing.get other := by
  cases field <;> cases other <;> first | rfl | exact absurd rfl hother

/-! ## The pool with its clocks -/

/-- One value that a worker reads for the job in its slot. -/
structure Report where
  job : ℕ
  field : TimingField
  value : ℤ

/-- One store of a dispatch and the job of the slot that it lands in. -/
structure Store where
  job : ℕ
  slotJob : Option ℕ

/-- `job` and `times` belong to the present call of a dispatcher, and `measured` keeps
the timing of each job from its T3 on. -/
structure TimedState (Group Entity : Type*) (dispatchers : ℕ) where
  pool : PoolState Group Entity dispatchers
  threadLocals : ℕ → Times
  job : Fin dispatchers → ℕ
  times : Fin dispatchers → Times
  stopwatch : Fin dispatchers → Stopwatch
  measured : ℕ → Option Timing
  unread : ℕ → List TimingField
  reports : List Report
  stores : List Store

inductive TimedLabel (dispatchers : ℕ)
  | signal (t : ℕ)
  | call (d : Fin dispatchers)
  | dispatcher (d : Fin dispatchers)
  | worker (w : ℕ)
  | read (w : ℕ)

def TimedState.initial : TimedState Group Entity dispatchers where
  pool := .initial
  threadLocals := fun _ => ⟨0, 0, 0⟩
  job := fun _ => 0
  times := fun _ => ⟨0, 0, 0⟩
  stopwatch := fun _ => .running
  measured := fun _ => none
  unread := fun _ => TimingField.reads
  reports := []
  stores := []

/-- The dispatcher takes T3 here, with a woken worker or for a new one. -/
def DispatcherPc.Measures : DispatcherPc Group Entity → Prop
  | .woke _ | .creating _ => True
  | .outside | .entered _ | .popped _ _ | .written _ | .created _ => False

/-- The step moves executables as they are. -/
def Unstamped (s s' : PoolState Group Entity dispatchers) (d : Fin dispatchers) : Prop :=
  (∀ h, (s'.dispatcher d).carried = some h → (s.dispatcher d).carried = some h) ∧
    ∀ w h, s'.slot w = some h → s.slot w = some h ∨ (s.dispatcher d).carried = some h

theorem Unstamped.of_slot {s s' : PoolState Group Entity dispatchers} {d : Fin dispatchers}
    (hslot : s'.slot = s.slot)
    (hcarried : (s'.dispatcher d).carried = (s.dispatcher d).carried ∨
      (s'.dispatcher d).carried = none) : Unstamped s s' d := by
  refine ⟨fun h hh => ?_, fun w h hh => .inl (by rwa [← hslot])⟩
  rcases hcarried with hsame | hnone
  · rwa [← hsame]
  · rw [hnone] at hh
    cases hh

theorem Unstamped.of_write {s s' : PoolState Group Entity dispatchers}
    {d : Fin dispatchers} {handed : Handed Group Entity} {w : ℕ}
    (hpc : s.dispatcher d = .popped handed w)
    (hwrite : s' = (s.writeSlot w (some handed)).moveDispatcher d (.written w)) :
    Unstamped s s' d := by
  subst hwrite
  refine ⟨by simp [moveDispatcher, DispatcherPc.carried], fun v h hh => ?_⟩
  by_cases hv : v = w
  · subst hv
    refine .inr ?_
    simpa [moveDispatcher, writeSlot, hpc, DispatcherPc.carried] using hh
  · refine .inl ?_
    simpa [moveDispatcher, writeSlot, hv] using hh

/-- The store of `dispatch_done_ns` reads `tl_t3` again, the durations are computed. -/
def storedValue (locals : Times) (dispatchDur assignDur : UInt64) : TimingField → ℤ
  | .dispatchDoneNs => locals.t3.toInt64.toInt
  | .dispatchDurNs => dispatchDur.toInt64.toInt
  | .assignDurNs => assignDur.toInt64.toInt

/-- A dispatcher stores a field of the slot of the worker that it has woken. -/
def TimedState.storeField (s : TimedState Group Entity dispatchers) (d : Fin dispatchers)
    (w : ℕ) (field : TimingField) (value : ℤ) (stopwatch : Stopwatch) :
    TimedState Group Entity dispatchers :=
  { s with
    pool := s.pool.writeSlot w ((s.pool.slot w).map fun h =>
      h.stamped (h.executable.timing.set field value))
    stopwatch := Function.update s.stopwatch d stopwatch
    stores := s.stores ++ [⟨s.job d, (s.pool.slot w).map (·.job)⟩] }

section Steps

variable [DecidableEq Group] (exclusive : Group → Bool) (thread : Fin dispatchers → ℕ)

/-- Any order of signals, dispatchers and workers, where a dispatcher computes or stores,
and a worker reads, one field at a time.  Dispatchers of one thread interrupt each
other. -/
inductive TimedStep : TimedState Group Entity dispatchers → TimedLabel dispatchers →
    TimedState Group Entity dispatchers → Prop
  | signal (s : TimedState Group Entity dispatchers) (t : ℕ) (now : UInt64) :
      TimedStep s (.signal t)
        { s with
          threadLocals := Function.update s.threadLocals t
            { s.threadLocals t with t0 := now } }
  | call (s : TimedState Group Entity dispatchers) (d : Fin dispatchers)
      (request : Request Group Entity) (now : UInt64)
      (pool : PoolState Group Entity dispatchers)
      (hstep : PoolStep exclusive s.pool (.call d request) pool) :
      TimedStep s (.call d)
        { s with
          pool := pool
          threadLocals := Function.update s.threadLocals (thread d)
            { s.threadLocals (thread d) with t1 := now }
          job := Function.update s.job d s.pool.handed.length
          times := Function.update s.times d { s.threadLocals (thread d) with t1 := now }
          stopwatch := Function.update s.stopwatch d .running }
  | dispatch (s : TimedState Group Entity dispatchers) (d : Fin dispatchers)
      (pool : PoolState Group Entity dispatchers)
      (hstep : PoolStep exclusive s.pool (.dispatcher d) pool)
      (hunstamped : Unstamped s.pool pool d)
      (hstored : (s.pool.dispatcher d).Measures → (s.stopwatch d).pending = []) :
      TimedStep s (.dispatcher d) { s with pool := pool }
  | measure (s : TimedState Group Entity dispatchers) (d : Fin dispatchers) (now : UInt64)
      (hpc : (s.pool.dispatcher d).Measures) (hrunning : s.stopwatch d = .running) :
      TimedStep s (.dispatcher d)
        { s with
          threadLocals := Function.update s.threadLocals (thread d)
            { s.threadLocals (thread d) with t3 := now }
          times := Function.update s.times d { s.times d with t3 := now }
          stopwatch := Function.update s.stopwatch d (.stopped TimingField.all)
          measured := Function.update s.measured (s.job d)
            (some (Times.timing { s.times d with t3 := now })) }
  | assign (s : TimedState Group Entity dispatchers) (d : Fin dispatchers) (w : ℕ)
      (hpc : s.pool.dispatcher d = .woke w)
      (hstopped : s.stopwatch d = .stopped TimingField.all) :
      TimedStep s (.dispatcher d)
        { s with
          stopwatch := Function.update s.stopwatch d
            (.assigned (s.threadLocals (thread d)).assignDur) }
  | compute (s : TimedState Group Entity dispatchers) (d : Fin dispatchers) (w : ℕ)
      (assignDur : UInt64) (hpc : s.pool.dispatcher d = .woke w)
      (hassigned : s.stopwatch d = .assigned assignDur) :
      TimedStep s (.dispatcher d)
        { s with
          stopwatch := Function.update s.stopwatch d
            (.computed (s.threadLocals (thread d)).dispatchDur assignDur TimingField.all) }
  | store (s : TimedState Group Entity dispatchers) (d : Fin dispatchers) (w : ℕ)
      (dispatchDur assignDur : UInt64) (field : TimingField) (rest : List TimingField)
      (hpc : s.pool.dispatcher d = .woke w)
      (hcomputed : s.stopwatch d = .computed dispatchDur assignDur (field :: rest)) :
      TimedStep s (.dispatcher d)
        (s.storeField d w field
          (storedValue (s.threadLocals (thread d)) dispatchDur assignDur field)
          (.computed dispatchDur assignDur rest))
  | stampCarried (s : TimedState Group Entity dispatchers) (d : Fin dispatchers)
      (handed : Handed Group Entity) (field : TimingField) (rest : List TimingField)
      (hpc : s.pool.dispatcher d = .creating handed)
      (hstopped : s.stopwatch d = .stopped (field :: rest)) :
      TimedStep s (.dispatcher d)
        { s with
          pool := s.pool.moveDispatcher d
            (.creating (handed.stamped (handed.executable.timing.set field
              ((s.threadLocals (thread d)).timing.get field))))
          stopwatch := Function.update s.stopwatch d (.stopped rest) }
  | work (s : TimedState Group Entity dispatchers) (w : ℕ)
      (pool : PoolState Group Entity dispatchers)
      (hstep : PoolStep exclusive s.pool (.worker w) pool)
      (hread : s.pool.worker w = .woken → s.unread w = []) :
      TimedStep s (.worker w)
        { s with
          pool := pool
          unread := Function.update s.unread w TimingField.reads }
  | read (s : TimedState Group Entity dispatchers) (w : ℕ)
      (handed : Handed Group Entity) (field : TimingField) (rest : List TimingField)
      (hpc : s.pool.worker w = .woken) (hunread : s.unread w = field :: rest)
      (hslot : s.pool.slot w = some handed) :
      TimedStep s (.read w)
        { s with
          unread := Function.update s.unread w rest
          reports := s.reports ++
            [⟨handed.job, field, handed.executable.timing.get field⟩] }

end Steps

/-- Every value that was read is the one measured for the job, and every store landed
in the slot of its own job. -/
structure TimingsMatch (s : TimedState Group Entity dispatchers) : Prop where
  reported : ∀ r ∈ s.reports, ∃ timing, s.measured r.job = some timing ∧
    timing.get r.field = r.value
  landed : ∀ store ∈ s.stores, store.slotJob = some store.job

/-- The call is under way and reads the variables of its thread again. -/
def Measuring (s : TimedState Group Entity dispatchers) (d : Fin dispatchers) : Prop :=
  s.pool.dispatcher d ≠ .outside ∧ (s.stopwatch d).ReadsLocals

/-- No signal and no other call takes its times on a thread while a call measures
there, and a worker reads a field when whoever has woken it has stored it. -/
def InTime (thread : Fin dispatchers → ℕ) (s : TimedState Group Entity dispatchers) :
    TimedLabel dispatchers → Prop
  | .signal t => ∀ d, thread d = t → ¬ Measuring s d
  | .call d => ∀ other, thread other = thread d → ¬ Measuring s other
  | .read w => ∀ d, s.pool.dispatcher d = .woke w → ∀ field rest,
      s.unread w = field :: rest → field ∉ (s.stopwatch d).pending
  | .dispatcher _ | .worker _ => True

/-! ## The clocks -/

/-- Each call has a job of its own, which is measured from T3 on, and the variables of
its thread are its own until it has read them for the last time. -/
structure ClockInvariant (thread : Fin dispatchers → ℕ)
    (s : TimedState Group Entity dispatchers) : Prop where
  issued : ∀ d, s.pool.dispatcher d ≠ .outside → s.job d < s.pool.handed.length
  apart : ∀ d other, s.pool.dispatcher d ≠ .outside →
    s.pool.dispatcher other ≠ .outside → s.job other = s.job d → other = d
  later : ∀ job, s.pool.handed.length ≤ job → s.measured job = none
  result : ∀ d, s.pool.dispatcher d ≠ .outside →
    s.measured (s.job d) = (s.stopwatch d).result (s.times d)
  agrees : ∀ d, s.pool.dispatcher d ≠ .outside → (s.stopwatch d).Agrees (s.times d)
  locals : ∀ d, Measuring s d → s.threadLocals (thread d) = s.times d
  alone : ∀ d other, Measuring s d → Measuring s other → thread other = thread d →
    other = d

section Clocks

variable {s s' : TimedState Group Entity dispatchers} {thread : Fin dispatchers → ℕ}

theorem DispatcherPc.Measures.ne_outside {pc : DispatcherPc Group Entity}
    (hpc : pc.Measures) : pc ≠ .outside := by
  rintro rfl
  exact hpc

/-- A step that leaves the times of the calls under way alone. -/
theorem ClockInvariant.frame (hs : ClockInvariant thread s)
    (hactive : ∀ d, s'.pool.dispatcher d ≠ .outside → s.pool.dispatcher d ≠ .outside)
    (hmeasuring : ∀ d, Measuring s' d → Measuring s d)
    (hhanded : s'.pool.handed = s.pool.handed) (hjob : s'.job = s.job)
    (htimes : s'.times = s.times) (hmeasured : s'.measured = s.measured)
    (hlocals : ∀ d, Measuring s d →
      s'.threadLocals (thread d) = s.threadLocals (thread d))
    (hresult : ∀ d, (s'.stopwatch d).result = (s.stopwatch d).result)
    (hagrees : ∀ d, s.pool.dispatcher d ≠ .outside →
      (s'.stopwatch d).Agrees (s.times d)) :
    ClockInvariant thread s' := by
  constructor
  case issued =>
    intro d hd
    rw [hjob, hhanded]
    exact hs.issued d (hactive d hd)
  case apart =>
    intro d other hd hother
    rw [hjob]
    exact hs.apart d other (hactive d hd) (hactive other hother)
  case later =>
    rw [hhanded, hmeasured]
    exact hs.later
  case result =>
    intro d hd
    rw [hjob, htimes, hmeasured, hresult d]
    exact hs.result d (hactive d hd)
  case agrees =>
    intro d hd
    rw [htimes]
    exact hagrees d (hactive d hd)
  case locals =>
    intro d hd
    rw [htimes, hlocals d (hmeasuring d hd)]
    exact hs.locals d (hmeasuring d hd)
  case alone =>
    exact fun d other hd hother => hs.alone d other (hmeasuring d hd) (hmeasuring other hother)

/-- A dispatcher that goes on to another point of its measurement. -/
theorem ClockInvariant.stopwatch_moves (hs : ClockInvariant thread s) {d : Fin dispatchers}
    {stopwatch : Stopwatch} (hpc : s.pool.dispatcher d ≠ .outside)
    (hstopwatch : s'.stopwatch = Function.update s.stopwatch d stopwatch)
    (hactive : ∀ other,
      s'.pool.dispatcher other = .outside ↔ s.pool.dispatcher other = .outside)
    (hhanded : s'.pool.handed = s.pool.handed) (hjob : s'.job = s.job)
    (htimes : s'.times = s.times) (hmeasured : s'.measured = s.measured)
    (hlocals : s'.threadLocals = s.threadLocals)
    (hresult : stopwatch.result = (s.stopwatch d).result)
    (hreads : stopwatch.ReadsLocals → (s.stopwatch d).ReadsLocals)
    (hagrees : stopwatch.Agrees (s.times d)) :
    ClockInvariant thread s' := by
  have hsame : ∀ other, other ≠ d → s'.stopwatch other = s.stopwatch other := by
    intro other hother
    rw [hstopwatch, Function.update_of_ne hother]
  have hself : s'.stopwatch d = stopwatch := by
    rw [hstopwatch, Function.update_self]
  refine hs.frame (fun other => ((hactive other).not.mp)) ?_ hhanded hjob htimes hmeasured
    (fun other _ => by rw [hlocals]) ?_ ?_
  · rintro other ⟨hother, hreading⟩
    by_cases hd : other = d
    · subst hd
      rw [hself] at hreading
      exact ⟨hpc, hreads hreading⟩
    · rw [hsame other hd] at hreading
      exact ⟨(hactive other).not.mp hother, hreading⟩
  · intro other
    by_cases hd : other = d
    · subst hd
      rw [hself, hresult]
    · rw [hsame other hd]
  · intro other hother
    by_cases hd : other = d
    · subst hd
      rw [hself]
      exact hagrees
    · rw [hsame other hd]
      exact hs.agrees other hother

/-- A call takes the next job, and its thread has no other call that measures. -/
theorem ClockInvariant.call (hs : ClockInvariant thread s) {d : Fin dispatchers}
    {now : UInt64} {pc : DispatcherPc Group Entity} {request : Request Group Entity}
    {pool : PoolState Group Entity dispatchers}
    (hfree : ∀ other, thread other = thread d → ¬ Measuring s other)
    (hdispatcher : pool.dispatcher = Function.update s.pool.dispatcher d pc)
    (hhanded : pool.handed = s.pool.handed ++ [request]) :
    ClockInvariant thread
      { s with
        pool := pool
        threadLocals := Function.update s.threadLocals (thread d)
          { s.threadLocals (thread d) with t1 := now }
        job := Function.update s.job d s.pool.handed.length
        times := Function.update s.times d { s.threadLocals (thread d) with t1 := now }
        stopwatch := Function.update s.stopwatch d .running } := by
  have hlength : pool.handed.length = s.pool.handed.length + 1 := by
    rw [hhanded, List.length_append, List.length_singleton]
  have hbefore : ∀ other, other ≠ d → pool.dispatcher other ≠ .outside →
      s.pool.dispatcher other ≠ .outside := by
    intro other hother
    rw [hdispatcher, Function.update_of_ne hother]
    exact id
  constructor
  case issued =>
    intro other hactive
    by_cases hother : other = d
    · subst hother
      simp [hlength]
    · have hissued := hs.issued other (hbefore other hother hactive)
      simp only [Function.update_of_ne hother, hlength]
      omega
  case apart =>
    intro first second hfirst hsecond hjobs
    by_cases hd : first = d <;> by_cases hd' : second = d
    · rw [hd, hd']
    · have hissued := hs.issued second (hbefore second hd' hsecond)
      simp only [hd, Function.update_self, Function.update_of_ne hd'] at hjobs
      omega
    · have hissued := hs.issued first (hbefore first hd hfirst)
      simp only [hd', Function.update_self, Function.update_of_ne hd] at hjobs
      omega
    · simp only [Function.update_of_ne hd, Function.update_of_ne hd'] at hjobs
      exact hs.apart first second (hbefore first hd hfirst) (hbefore second hd' hsecond) hjobs
  case later =>
    intro job hjob
    apply hs.later job
    simp only [hlength] at hjob
    omega
  case result =>
    intro other hactive
    by_cases hother : other = d
    · subst hother
      simpa [Stopwatch.result] using hs.later _ le_rfl
    · simpa [Function.update_of_ne hother] using hs.result other (hbefore other hother hactive)
  case agrees =>
    intro other hactive
    by_cases hother : other = d
    · subst hother
      simp [Stopwatch.Agrees]
    · simp only [Function.update_of_ne hother]
      exact hs.agrees other (hbefore other hother hactive)
  case locals =>
    rintro other ⟨hactive, hreading⟩
    by_cases hother : other = d
    · subst hother
      simp
    · simp only [Function.update_of_ne hother] at hreading ⊢
      have hmeasuring : Measuring s other := ⟨hbefore other hother hactive, hreading⟩
      rw [Function.update_of_ne fun hsame => hfree other hsame hmeasuring]
      exact hs.locals other hmeasuring
  case alone =>
    rintro first second ⟨hfirst, hreading⟩ ⟨hsecond, hreading'⟩ hsame
    by_cases hd : first = d <;> by_cases hd' : second = d
    · rw [hd, hd']
    · simp only [Function.update_of_ne hd'] at hreading'
      exact absurd ⟨hbefore second hd' hsecond, hreading'⟩ (hfree second (hd ▸ hsame))
    · simp only [Function.update_of_ne hd] at hreading
      exact absurd ⟨hbefore first hd hfirst, hreading⟩ (hfree first (hd' ▸ hsame.symm))
    · simp only [Function.update_of_ne hd, Function.update_of_ne hd'] at hreading hreading'
      exact hs.alone first second ⟨hbefore first hd hfirst, hreading⟩
        ⟨hbefore second hd' hsecond, hreading'⟩ hsame

/-- T3 of a call is the measurement of its job. -/
theorem ClockInvariant.measure (hs : ClockInvariant thread s) {d : Fin dispatchers}
    (now : UInt64) (hpc : s.pool.dispatcher d ≠ .outside)
    (hrunning : s.stopwatch d = .running) :
    ClockInvariant thread
      { s with
        threadLocals := Function.update s.threadLocals (thread d)
          { s.threadLocals (thread d) with t3 := now }
        times := Function.update s.times d { s.times d with t3 := now }
        stopwatch := Function.update s.stopwatch d (.stopped TimingField.all)
        measured := Function.update s.measured (s.job d)
          (some (Times.timing { s.times d with t3 := now })) } := by
  have hmine : Measuring s d := ⟨hpc, by simp [hrunning, Stopwatch.ReadsLocals]⟩
  have hmeasuring : ∀ other,
      (Function.update s.stopwatch d (.stopped TimingField.all) other).ReadsLocals →
        s.pool.dispatcher other ≠ .outside → Measuring s other := by
    intro other hreading hactive
    by_cases hother : other = d
    · rw [hother]
      exact hmine
    · rw [Function.update_of_ne hother] at hreading
      exact ⟨hactive, hreading⟩
  constructor
  case issued => exact hs.issued
  case apart => exact hs.apart
  case later =>
    intro job hjob
    have hother : job ≠ s.job d := by
      rintro rfl
      exact absurd (hs.issued d hpc) (Nat.not_lt.mpr hjob)
    simpa [Function.update_of_ne hother] using hs.later job hjob
  case result =>
    intro other hactive
    by_cases hother : other = d
    · subst hother
      simp [Stopwatch.result]
    · have hjobs : s.job other ≠ s.job d := fun hjobs =>
        hother (hs.apart d other hpc hactive hjobs)
      simpa [Function.update_of_ne hother, Function.update_of_ne hjobs] using
        hs.result other hactive
  case agrees =>
    intro other hactive
    by_cases hother : other = d
    · subst hother
      simp [Stopwatch.Agrees]
    · simp only [Function.update_of_ne hother]
      exact hs.agrees other hactive
  case locals =>
    rintro other ⟨hactive, hreading⟩
    have hother := hmeasuring other hreading hactive
    by_cases hd : other = d
    · subst hd
      simp [hs.locals other hother]
    · have hthread : thread other ≠ thread d := fun hsame =>
        hd (hs.alone d other hmine hother hsame)
      simpa [Function.update_of_ne hd, Function.update_of_ne hthread] using
        hs.locals other hother
  case alone =>
    rintro first second ⟨hfirst, hreading⟩ ⟨hsecond, hreading'⟩
    exact hs.alone first second (hmeasuring first hreading hfirst)
      (hmeasuring second hreading' hsecond)

end Clocks

end RosRtems.NoExecutor
