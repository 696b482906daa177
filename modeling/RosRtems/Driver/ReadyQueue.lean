import RosRtems.Driver.TimeManager

/-!
# The ready queue of the timer manager

The reader pushes a callback under the semaphore of the queue and then sends an event to
the worker, which drains the queue with `try_pop` after each event.  A `try_pop` that
finds the semaphore taken gives up with callbacks left in the queue; it was the reader
who had taken it, and the event of its push is still to come.
-/

namespace RosRtems.TimeManager

open RosRtems.Runs

/-- The callback that a step puts into the queue. -/
def pushedBy (move : Move Manager ManagerLabel) : List Task :=
  match move.label, move.source.reader with
  | .push, .pushing task => [task]
  | _, _ => []

/-- The callbacks that the reader has pushed in a run, in the order of the pushes. -/
def pushed (trace : List (Move Manager ManagerLabel)) : List Task := trace.flatMap pushedBy

/-- The callback that the worker has popped and not finished. -/
def Manager.popped (m : Manager) : List Task :=
  match m.worker with
  | .executing task => [task]
  | .receiving | .obtaining | .popping => []

/-- The reader is between a push, from the semaphore on, and its event. -/
def Manager.MidPush (m : Manager) : Prop :=
  m.reader = .notifying ∨ ∃ task, m.reader = .pushing task

/-- The worker is blocked, and no event is pending that would wake it. -/
def Manager.Blocked (m : Manager) : Prop :=
  m.worker = .receiving ∧ m.workerEvent = false

/-- A blocked worker has left nothing in the queue, unless a push is under way. -/
def NotStranded (m : Manager) : Prop := m.Blocked → ¬ m.MidPush → m.queue = []

def ManagerLabel.IsRead : ManagerLabel → Prop
  | .read _ => True
  | .obtain | .push | .notify | .receive | .popObtain | .popRefused | .pop | .execute => False

/-- Nothing is to be done until the next `read` returns. -/
def Quiescent (timers : List TimerInfo) (m : Manager) : Prop :=
  ∀ label m', ManagerStep timers (fun _ => True) m label m' → label.IsRead

/-- The semaphore is taken by the one of the two that is past it, and callbacks are in
the queue only while somebody will look there. -/
structure QueueInvariant (m : Manager) : Prop where
  apart : (∃ task, m.reader = .pushing task) → m.worker ≠ .popping
  taken : m.semaphoreFree = false ↔
    (∃ task, m.reader = .pushing task) ∨ m.worker = .popping
  notStranded : NotStranded m

section Queue

variable {timers : List TimerInfo} {returns : ReadResult → Prop} {m m' : Manager}

theorem afterRead_reader (timers : List TimerInfo) (result : ReadResult) (hreader : m.reader = .reading) :
    (m.afterRead timers result).reader = .reading ∨
      ∃ task, (m.afterRead timers result).reader = .obtaining task := by
  cases result with
  | failed | short => exact .inl hreader
  | event channel =>
      rw [Manager.afterRead]
      cases findCallback timers channel with
      | none => exact .inl rfl
      | some task => exact .inr ⟨task, rfl⟩

/-- A `read` changes nothing but the reader. -/
theorem afterRead_frame (timers : List TimerInfo) (m : Manager) (result : ReadResult) :
    (m.afterRead timers result).worker = m.worker ∧
      (m.afterRead timers result).semaphoreFree = m.semaphoreFree ∧
      (m.afterRead timers result).queue = m.queue ∧
      (m.afterRead timers result).workerEvent = m.workerEvent ∧
      (m.afterRead timers result).executed = m.executed ∧
      (m.afterRead timers result).reads = m.reads + 1 := by
  cases result <;> exact ⟨rfl, rfl, rfl, rfl, rfl, rfl⟩

theorem queueInvariant_started : QueueInvariant startedManager := by
  constructor <;> simp [startedManager, NotStranded]

theorem queueInvariant_step (m : Manager) (label : ManagerLabel) (m' : Manager)
    (hm : QueueInvariant m) (hstep : ManagerStep timers returns m label m') :
    QueueInvariant m' := by
  cases hstep with
  | read result hreader hresult =>
      obtain ⟨hworker, hfree, hqueue, hevent, -, -⟩ :=
        afterRead_frame timers m result
      have hnot : ¬ ∃ task, (m.afterRead timers result).reader = .pushing task := by
        rintro ⟨task, hpushing⟩
        rcases afterRead_reader timers result hreader with hpc | ⟨other, hpc⟩ <;>
          simp [hpc] at hpushing
      have hbefore : ¬ m.MidPush := by simp [Manager.MidPush, hreader]
      constructor
      case apart => exact fun hpushing => absurd hpushing hnot
      case taken =>
        rw [hfree, hworker, hm.taken]
        exact or_congr_left (iff_of_false (by simp [hreader]) hnot)
      case notStranded =>
        rintro hblocked -
        rw [Manager.Blocked, hworker, hevent] at hblocked
        rw [hqueue]
        exact hm.notStranded hblocked hbefore
  | obtain task hreader hfree =>
      have hpopping : m.worker ≠ .popping := by
        intro hworker
        rw [hm.taken.mpr (.inr hworker)] at hfree
        cases hfree
      constructor
      case apart => exact fun _ => hpopping
      case taken => simp
      case notStranded => exact fun _ hnot => absurd (.inr ⟨task, rfl⟩) hnot
  | push task hreader =>
      have hpopping := hm.apart ⟨task, hreader⟩
      constructor
      case apart => simp
      case taken => simp [hpopping]
      case notStranded => exact fun _ hnot => absurd (.inl rfl) hnot
  | notify hreader =>
      have hnot : ¬ ∃ task, m.reader = .pushing task := by simp [hreader]
      constructor
      case apart => simp
      case taken => simpa [hreader] using hm.taken
      case notStranded => simp [NotStranded, Manager.Blocked]
  | receive hworker hevent =>
      constructor
      case apart => simp
      case taken => simpa [hworker] using hm.taken
      case notStranded => simp [NotStranded, Manager.Blocked]
  | popObtain hworker hfree =>
      have hnot : ¬ ∃ task, m.reader = .pushing task := by
        intro hpushing
        rw [hm.taken.mpr (.inl hpushing)] at hfree
        cases hfree
      constructor
      case apart => exact fun hpushing => absurd hpushing hnot
      case taken => simp
      case notStranded => simp [NotStranded, Manager.Blocked]
  | popRefused hworker hheld =>
      -- it is the reader who holds the semaphore, and its event is still to come
      have hpushing : ∃ task, m.reader = .pushing task :=
        (hm.taken.mp hheld).resolve_right (by simp [hworker])
      constructor
      case apart => simp
      case taken => simpa [hworker] using hm.taken
      case notStranded => exact fun _ hnot => absurd (.inr hpushing) hnot
  | popEmpty hworker hqueue =>
      have hnot : ¬ ∃ task, m.reader = .pushing task := fun hpushing =>
        hm.apart hpushing hworker
      constructor
      case apart => simp
      case taken => simpa using hnot
      case notStranded => exact fun _ _ => hqueue
  | pop task rest hworker hqueue =>
      have hnot : ¬ ∃ task, m.reader = .pushing task := fun hpushing =>
        hm.apart hpushing hworker
      constructor
      case apart => simp
      case taken => simpa using hnot
      case notStranded => simp [NotStranded, Manager.Blocked]
  | execute task hworker =>
      constructor
      case apart => simp
      case taken => simpa [hworker] using hm.taken
      case notStranded => simp [NotStranded, Manager.Blocked]

/-- A step executes, pops or pushes at the ends of what has been pushed. -/
theorem executed_append_step {label : ManagerLabel}
    (hstep : ManagerStep timers returns m label m') :
    m'.executed ++ m'.popped ++ m'.queue =
      m.executed ++ m.popped ++ m.queue ++ pushedBy ⟨m, label, m'⟩ := by
  cases hstep with
  | read result hreader hresult =>
      obtain ⟨hworker, -, hqueue, -, hexecuted, -⟩ :=
        afterRead_frame timers m result
      simp [Manager.popped, hworker, hqueue, hexecuted, pushedBy]
  | obtain task hreader hfree => simp [Manager.popped, pushedBy]
  | push task hreader => simp [Manager.popped, pushedBy, hreader]
  | notify hreader => simp [Manager.popped, pushedBy]
  | receive hworker hevent => simp [Manager.popped, pushedBy, hworker]
  | popObtain hworker hfree => simp [Manager.popped, pushedBy, hworker]
  | popRefused hworker hheld => simp [Manager.popped, pushedBy, hworker]
  | popEmpty hworker hqueue => simp [Manager.popped, pushedBy, hworker]
  | pop task rest hworker hqueue => simp [Manager.popped, pushedBy, hworker, hqueue]
  | execute task hworker => simp [Manager.popped, pushedBy, hworker]

theorem executed_append_run {trace : List (Move Manager ManagerLabel)}
    (hrun : Run (ManagerStep timers returns) m trace m') :
    m'.executed ++ m'.popped ++ m'.queue =
      m.executed ++ m.popped ++ m.queue ++ pushed trace := by
  induction hrun with
  | nil m => simp [pushed]
  | cons hstep _ ih =>
      rw [ih, executed_append_step hstep, pushed, pushed, List.flatMap_cons,
        List.append_assoc _ (pushedBy _)]

/-! ## The work that a `read` leads to -/

def ReaderPc.rank : ReaderPc → ℕ
  | .reading => 0
  | .obtaining _ => 9
  | .pushing _ => 8
  | .notifying => 4

def WorkerPc.rank : WorkerPc → ℕ
  | .receiving => 0
  | .obtaining => 2
  | .popping => 1
  | .executing _ => 3

/-- The steps that are left, at most, until the next `read`. -/
def Manager.potential (m : Manager) : ℕ :=
  m.reader.rank + m.worker.rank + 3 * m.queue.length + if m.workerEvent then 3 else 0

theorem potential_step {label : ManagerLabel}
    (hstep : ManagerStep timers returns m label m') :
    m'.potential + 1 + 10 * m.reads ≤ m.potential + 10 * m'.reads := by
  cases hstep with
  | read result hreader hresult =>
      obtain ⟨hworker, -, hqueue, hevent, -, hreads⟩ :=
        afterRead_frame timers m result
      have hrank : (m.afterRead timers result).reader.rank ≤ 9 := by
        rcases afterRead_reader timers result hreader with hpc | ⟨task, hpc⟩ <;>
          simp [hpc, ReaderPc.rank]
      simp only [Manager.potential, hworker, hqueue, hevent, hreads]
      omega
  | obtain task hreader hfree =>
      simp only [Manager.potential, hreader, ReaderPc.rank]
      omega
  | push task hreader =>
      simp only [Manager.potential, hreader, ReaderPc.rank, List.length_append,
        List.length_singleton]
      omega
  | notify hreader =>
      simp only [Manager.potential, hreader, ReaderPc.rank, if_true]
      split <;> omega
  | receive hworker hevent =>
      simp only [Manager.potential, hworker, hevent, WorkerPc.rank, if_true,
        Bool.false_eq_true, if_false]
      omega
  | popObtain hworker hfree =>
      simp only [Manager.potential, hworker, WorkerPc.rank]
      omega
  | popRefused hworker hheld =>
      simp only [Manager.potential, hworker, WorkerPc.rank]
      omega
  | popEmpty hworker hqueue =>
      simp only [Manager.potential, hworker, WorkerPc.rank]
      omega
  | pop task rest hworker hqueue =>
      simp only [Manager.potential, hworker, hqueue, WorkerPc.rank, List.length_cons]
      omega
  | execute task hworker =>
      simp only [Manager.potential, hworker, WorkerPc.rank]
      omega

/-- Where only a `read` is left to do, the worker is blocked and the reader is there. -/
theorem Quiescent.blocked (hquiescent : Quiescent timers m) (hm : QueueInvariant m) :
    m.Blocked ∧ m.reader = .reading := by
  have hworker : m.worker = .receiving := by
    cases hpc : m.worker with
    | receiving => rfl
    | obtaining =>
        cases hfree : m.semaphoreFree with
        | true => exact (hquiescent _ _ (.popObtain m hpc hfree)).elim
        | false => exact (hquiescent _ _ (.popRefused m hpc hfree)).elim
    | popping =>
        cases hqueue : m.queue with
        | nil => exact (hquiescent _ _ (.popEmpty m hpc hqueue)).elim
        | cons task rest => exact (hquiescent _ _ (.pop m task rest hpc hqueue)).elim
    | executing task => exact (hquiescent _ _ (.execute m task hpc)).elim
  have hevent : m.workerEvent = false := by
    rw [← Bool.not_eq_true]
    exact fun hevent => hquiescent _ _ (.receive m hworker hevent)
  refine ⟨⟨hworker, hevent⟩, ?_⟩
  cases hpc : m.reader with
  | reading => rfl
  | notifying => exact (hquiescent _ _ (.notify m hpc)).elim
  | pushing task => exact (hquiescent _ _ (.push m task hpc)).elim
  | obtaining task =>
      have hfree : m.semaphoreFree = true := by
        rw [← Bool.not_eq_false, hm.taken, not_or]
        exact ⟨by simp [hpc], by simp [hworker]⟩
      exact (hquiescent _ _ (.obtain m task hpc hfree)).elim

variable {trace : List (Move Manager ManagerLabel)} {finish : Manager}

/-- In every run, whatever is read and in whatever order the two tasks take their steps,
what has been executed, popped and queued is what was pushed, in its order; a blocked
worker leaves nothing behind; and the run comes to its next `read`, with at most ten
steps for each, where everything that was pushed has been executed. -/
theorem pushed_executed_in_order
    (hrun : Run (ManagerStep timers fun _ => True) startedManager trace finish) :
    finish.executed ++ finish.popped ++ finish.queue = pushed trace ∧
      Throughout NotStranded startedManager trace ∧
      trace.length ≤ 10 * finish.reads ∧
      (Quiescent timers finish → finish.executed = pushed trace) := by
  have hfinish := hrun.always queueInvariant_step queueInvariant_started
  have hmoves := hrun.moves_always queueInvariant_step queueInvariant_started
  have hordered : finish.executed ++ finish.popped ++ finish.queue = pushed trace :=
    executed_append_run hrun
  have hlength := hrun.length_le queueInvariant_step
    (fun _ _ _ _ hstep => potential_step hstep) queueInvariant_started
  refine ⟨hordered, ⟨queueInvariant_started.notStranded, fun move hmove =>
    (hmoves move hmove).2.2.notStranded⟩, ?_, fun hquiescent => ?_⟩
  · have hzero : startedManager.potential = 0 := rfl
    omega
  · obtain ⟨hblocked, hreader⟩ := hquiescent.blocked hfinish
    have hqueue := hfinish.notStranded hblocked (by simp [Manager.MidPush, hreader])
    rw [← hordered, hqueue, Manager.popped, hblocked.1]
    simp

end Queue

/-- Two timers, the first on channel 0 and the second on channel 1. -/
def twoTimers : List TimerInfo := registered 100 [(some 0, 10), (some 1, 20)]

/-- The worker, woken for the first callback, finds the semaphore taken for the second
and blocks again with the first in the queue; the event of the second push wakes it. -/
theorem refused_worker_woken_again :
    ∃ trace finish, Run (ManagerStep twoTimers fun _ => True) startedManager trace finish ∧
      .popRefused ∈ trace.map Move.label ∧
      finish.executed = [⟨0, 0⟩, ⟨1, 1⟩] ∧ Throughout NotStranded startedManager trace := by
  have hrun : Run (ManagerStep twoTimers fun _ => True) startedManager _ _ :=
    .cons (.read _ (.event 0) rfl trivial) <|
    .cons (.obtain _ ⟨0, 0⟩ rfl rfl) <|
    .cons (.push _ ⟨0, 0⟩ rfl) <|
    .cons (.notify _ rfl) <|
    .cons (.read _ (.event 1) rfl trivial) <|
    .cons (.obtain _ ⟨1, 1⟩ rfl rfl) <|
    .cons (.receive _ rfl rfl) <|
    .cons (.popRefused _ rfl rfl) <|
    .cons (.push _ ⟨1, 1⟩ rfl) <|
    .cons (.notify _ rfl) <|
    .cons (.receive _ rfl rfl) <|
    .cons (.popObtain _ rfl rfl) <|
    .cons (.pop _ ⟨0, 0⟩ [⟨1, 1⟩] rfl rfl) <|
    .cons (.execute _ ⟨0, 0⟩ rfl) <|
    .cons (.popObtain _ rfl rfl) <|
    .cons (.pop _ ⟨1, 1⟩ [] rfl rfl) <|
    .cons (.execute _ ⟨1, 1⟩ rfl) <|
    .nil _
  exact ⟨_, _, hrun, by simp, rfl, (pushed_executed_in_order hrun).2.1⟩

end RosRtems.TimeManager
