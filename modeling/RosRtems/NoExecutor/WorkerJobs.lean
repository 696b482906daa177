import RosRtems.Core.Custody
import RosRtems.Core.Potential
import RosRtems.NoExecutor.WorkerPool

/-!
# The jobs of the worker pool

A job is with the dispatcher it was handed to, then in the argument or the slot of one
worker, then executed.  Every step passes jobs on in this way, so each is executed at
most once, with the executable of its call; and since every step brings a job closer
to its execution, none is left behind.
-/

namespace RosRtems.NoExecutor

open RosRtems.Runs PoolState

variable {Group Entity : Type*} {dispatchers : ℕ}

/-! ## Where a job is -/

/-- The job that a dispatcher has not handed on yet. -/
def dispatcherJob (slot : ℕ → Option (Handed Group Entity)) :
    DispatcherPc Group Entity → Option (Handed Group Entity)
  | .entered handed | .popped handed _ | .creating handed => some handed
  | .written w => slot w
  | .outside | .woke _ | .created _ => none

/-- The job that a worker has not begun to execute. -/
def workerJob (slot : Option (Handed Group Entity)) (isBusy : ℕ) :
    WorkerPc Group Entity → Option (Handed Group Entity)
  | .started handed => some handed
  | .copied | .woken => slot
  | .waiting => if isBusy = 1 then slot else none
  | .absent | .executing | .executed | .pushing => none

def jobAt (s : PoolState Group Entity dispatchers) :
    Fin dispatchers ⊕ ℕ → Option (Handed Group Entity)
  | .inl d => dispatcherJob s.slot (s.dispatcher d)
  | .inr w => workerJob (s.slot w) (s.isBusy w) (s.worker w)

/-- The jobs as tokens, in the custody of dispatchers and workers until they are
executed. -/
def ledger (s : PoolState Group Entity dispatchers) :
    Custody.Ledger (Fin dispatchers ⊕ ℕ) ℕ where
  holds := fun place => (jobAt s place).map (·.job)
  issued := fun job => job < s.handed.length
  finished := s.executions.map (·.job)

/-- The slot has been assigned a job whose execution has not started. -/
def Assigned (s : PoolState Group Entity dispatchers) (w : ℕ) : Prop :=
  s.worker w = .copied ∨ s.worker w = .woken ∨
    (s.worker w = .waiting ∧ (s.isBusy w = 1 ∨ ∃ d, s.dispatcher d = .written w))

/-- The executable is that of its call, apart from the timing. -/
def Genuine (handed : List (Request Group Entity)) (h : Handed Group Entity) : Prop :=
  ∃ request, handed[h.job]? = some request ∧ h.executable.SameJob request.executable

/-- The executable that a dispatcher has not put into a slot. -/
def DispatcherPc.carried : DispatcherPc Group Entity → Option (Handed Group Entity)
  | .entered handed | .popped handed _ | .creating handed => some handed
  | .outside | .written _ | .woke _ | .created _ => none

/-- The slot has the job that the worker is to execute, or executes. -/
def Loaded (s : PoolState Group Entity dispatchers) (w : ℕ) : Prop :=
  Assigned s w ∨ s.worker w = .executing

/-- Whoever has a job has the executable of its call. -/
structure SlotInvariant (s : PoolState Group Entity dispatchers) : Prop where
  carried : ∀ d h, (s.dispatcher d).carried = some h → Genuine s.handed h
  started : ∀ w h, s.worker w = .started h → Genuine s.handed h
  loaded : ∀ w, Loaded s w → ∃ h, s.slot w = some h ∧ Genuine s.handed h
  executed : ∀ w, s.worker w = .executed → ∃ h, s.slot w = some h
  recorded : ∀ h ∈ s.executions, Genuine s.handed h

section Jobs

variable {s s' : PoolState Group Entity dispatchers}

/-- Only the dispatcher that has written a slot reads it for its job. -/
theorem dispatcherJob_update {slot : ℕ → Option (Handed Group Entity)} {w : ℕ}
    {content : Option (Handed Group Entity)} {pc : DispatcherPc Group Entity}
    (hpc : pc ≠ .written w) :
    dispatcherJob (Function.update slot w content) pc = dispatcherJob slot pc := by
  cases pc with
  | written v =>
      have hv : v ≠ w := fun hv => hpc (hv ▸ rfl)
      simp [dispatcherJob, hv]
  | outside | entered _ | popped _ _ | woke _ | creating _ | created _ => rfl

/-- The ledger after a step of a dispatcher that leaves the slots alone. -/
theorem holds_dispatcher (d : Fin dispatchers) (pc : DispatcherPc Group Entity)
    (hslot : s'.slot = s.slot) (hworker : s'.worker = s.worker)
    (hbusy : s'.isBusy = s.isBusy)
    (hdispatcher : s'.dispatcher = Function.update s.dispatcher d pc) :
    (ledger s').holds = Function.update (ledger s).holds (.inl d)
      ((dispatcherJob s.slot pc).map (·.job)) := by
  funext place
  cases place with
  | inl other =>
      by_cases hother : other = d
      · subst hother
        simp [ledger, jobAt, hslot, hdispatcher]
      · simp [ledger, jobAt, hslot, hdispatcher, hother]
  | inr w => simp [ledger, jobAt, hslot, hworker, hbusy]

/-- The ledger after a step of a worker that leaves the slots of the others alone. -/
theorem holds_worker (w : ℕ) (pc : WorkerPc Group Entity)
    (hslot : ∀ other, other ≠ w → s'.slot other = s.slot other)
    (hbusy : ∀ other, other ≠ w → s'.isBusy other = s.isBusy other)
    (hwritten : ∀ d, s.dispatcher d = .written w → s'.slot w = s.slot w)
    (hworker : s'.worker = Function.update s.worker w pc)
    (hdispatcher : s'.dispatcher = s.dispatcher) :
    (ledger s').holds = Function.update (ledger s).holds (.inr w)
      ((workerJob (s'.slot w) (s'.isBusy w) pc).map (·.job)) := by
  funext place
  cases place with
  | inl d =>
      have hsame : dispatcherJob s'.slot (s.dispatcher d) =
          dispatcherJob s.slot (s.dispatcher d) := by
        cases hpc : s.dispatcher d with
        | written v =>
            by_cases hv : v = w
            · subst hv
              exact hwritten d hpc
            · exact hslot v hv
        | outside | entered _ | popped _ _ | woke _ | creating _ | created _ => rfl
      simp [ledger, jobAt, hdispatcher, hsame]
  | inr other =>
      by_cases hother : other = w
      · subst hother
        simp [ledger, jobAt, hworker]
      · simp [ledger, jobAt, hworker, hother, hslot other hother, hbusy other hother]

theorem PlaceInvariant.not_written (hs : PlaceInvariant s) {w : ℕ}
    (hbusy : ¬ Free s w) (d : Fin dispatchers) : s.dispatcher d ≠ .written w := by
  intro hpc
  exact hbusy (hs.free_of_popped (hasPopped_of_written hpc))

/-- A dispatcher that goes on with the same job, or without one. -/
theorem booking_dispatcher (hslot : s'.slot = s.slot) (hworker : s'.worker = s.worker)
    (hbusy : s'.isBusy = s.isBusy) (hhanded : s'.handed = s.handed)
    (hexecutions : s'.executions = s.executions) {d : Fin dispatchers}
    {pc : DispatcherPc Group Entity}
    (hdispatcher : s'.dispatcher = Function.update s.dispatcher d pc)
    (hjob : (dispatcherJob s.slot pc).map (·.job) =
      (dispatcherJob s.slot (s.dispatcher d)).map (·.job)) :
    Custody.Booking (ledger s) (ledger s') := by
  apply Custody.Booking.stay
  case hholds =>
    rw [holds_dispatcher d pc hslot hworker hbusy hdispatcher, hjob]
    exact Function.update_eq_self (.inl d) (ledger s).holds
  case hissued => simp [ledger, hhanded]
  case hfinished => simp [ledger, hexecutions]

/-- A worker that goes on with the same job, or without one. -/
theorem booking_worker {w : ℕ} {pc : WorkerPc Group Entity}
    (hslot : ∀ other, other ≠ w → s'.slot other = s.slot other)
    (hbusy : ∀ other, other ≠ w → s'.isBusy other = s.isBusy other)
    (hwritten : ∀ d, s.dispatcher d = .written w → s'.slot w = s.slot w)
    (hhanded : s'.handed = s.handed) (hexecutions : s'.executions = s.executions)
    (hworker : s'.worker = Function.update s.worker w pc)
    (hdispatcher : s'.dispatcher = s.dispatcher)
    (hjob : (workerJob (s'.slot w) (s'.isBusy w) pc).map (·.job) =
      (workerJob (s.slot w) (s.isBusy w) (s.worker w)).map (·.job)) :
    Custody.Booking (ledger s) (ledger s') := by
  apply Custody.Booking.stay
  case hholds =>
    rw [holds_worker w pc hslot hbusy hwritten hworker hdispatcher, hjob]
    exact Function.update_eq_self (.inr w) (ledger s).holds
  case hissued => simp [ledger, hhanded]
  case hfinished => simp [ledger, hexecutions]

/-- A popped worker has no job while its slot is written. -/
theorem booking_write (hs : PlaceInvariant s) {d : Fin dispatchers}
    {handed : Handed Group Entity} {w : ℕ} (hpc : s.dispatcher d = .popped handed w) :
    Custody.Booking (ledger s)
      (ledger ((s.writeSlot w (some handed)).moveDispatcher d (.written w))) := by
  have hmine := hasPopped_of_popped hpc
  have hfree := hs.free_of_popped hmine
  refine .stay ?_ (fun _ => Iff.rfl) rfl
  funext place
  cases place with
  | inl other =>
      by_cases hother : other = d
      · subst hother
        simp [ledger, jobAt, moveDispatcher, writeSlot, dispatcherJob, hpc]
      · have hwritten : s.dispatcher other ≠ .written w := by
          intro hwritten
          apply hother
          exact hs.single d other w hmine (hasPopped_of_written hwritten)
        simp [ledger, jobAt, moveDispatcher, writeSlot, hother,
          dispatcherJob_update hwritten]
  | inr v =>
      by_cases hv : v = w
      · subst hv
        simp [ledger, jobAt, moveDispatcher, writeSlot, workerJob, hfree.1, hfree.2]
      · simp [ledger, jobAt, moveDispatcher, writeSlot, hv]

/-- The timing fields belong to no job. -/
theorem booking_stamp {d : Fin dispatchers} {w : ℕ} (timing : Timing)
    (hpc : s.dispatcher d = .woke w) :
    Custody.Booking (ledger s) (ledger
      ((s.writeSlot w ((s.slot w).map (·.stamped timing))).moveDispatcher d .outside)) := by
  have hslot : ∀ v, (Function.update s.slot w ((s.slot w).map (·.stamped timing)) v).map
      (·.job) = (s.slot v).map (·.job) := by
    intro v
    by_cases hv : v = w
    · subst hv
      simp [Function.comp_def, Handed.stamped]
    · rw [Function.update_of_ne hv]
  refine .stay ?_ (fun _ => Iff.rfl) rfl
  funext place
  cases place with
  | inl other =>
      by_cases hother : other = d
      · subst hother
        simp [ledger, jobAt, moveDispatcher, dispatcherJob, hpc]
      · cases hother' : s.dispatcher other with
        | written v =>
            simpa [ledger, jobAt, moveDispatcher, writeSlot, hother, hother',
              dispatcherJob] using hslot v
        | outside | entered _ | popped _ _ | woke _ | creating _ | created _ =>
            simp [ledger, jobAt, moveDispatcher, writeSlot, hother, hother', dispatcherJob]
  | inr v =>
      cases hworker : s.worker v with
      | copied | woken =>
          simpa [ledger, jobAt, moveDispatcher, writeSlot, workerJob, hworker]
            using hslot v
      | waiting =>
          by_cases hbusy : s.isBusy v = 1
          · simpa [ledger, jobAt, moveDispatcher, writeSlot, workerJob, hworker, hbusy]
              using hslot v
          · simp [ledger, jobAt, moveDispatcher, writeSlot, workerJob, hworker, hbusy]
      | absent | started _ | executing | executed | pushing =>
          simp [ledger, jobAt, moveDispatcher, writeSlot, workerJob, hworker]

/-- Setting the flag passes the job on to the worker. -/
theorem booking_wake (hs : PlaceInvariant s) (hslots : SlotInvariant s)
    {d : Fin dispatchers} {w : ℕ} (hpc : s.dispatcher d = .written w) :
    Custody.Booking (ledger s)
      (ledger ((s.setBusy w 1).moveDispatcher d (.woke w))) := by
  have hfree := hs.free_of_popped (hasPopped_of_written hpc)
  have hassigned : Assigned s w := .inr (.inr ⟨hfree.1, .inr ⟨d, hpc⟩⟩)
  obtain ⟨handed, hslot, -⟩ := hslots.loaded w (.inl hassigned)
  refine .pass (.inl d) (.inr w) handed.job ?_ ?_ ?_ (fun _ => Iff.rfl) rfl
  · simp [ledger, jobAt, dispatcherJob, hpc, hslot]
  · simp [ledger, jobAt, workerJob, hfree.1, hfree.2]
  · funext place
    cases place with
    | inl other =>
        by_cases hother : other = d
        · subst hother
          simp [ledger, jobAt, moveDispatcher, dispatcherJob]
        · simp [ledger, jobAt, moveDispatcher, setBusy, hother]
    | inr v =>
        by_cases hv : v = w
        · subst hv
          simp [ledger, jobAt, moveDispatcher, setBusy, workerJob, hfree.1, hslot]
        · simp [ledger, jobAt, moveDispatcher, setBusy, hv]

/-- A new thread takes the job over as its argument. -/
theorem booking_create (hs : PlaceInvariant s) {d : Fin dispatchers}
    {handed : Handed Group Entity} (hpc : s.dispatcher d = .creating handed) :
    Custody.Booking (ledger s) (ledger
      { (s.moveWorker s.created (.started handed)).moveDispatcher d (.created s.created)
        with created := s.created + 1 }) := by
  have hnew := (hs.absent s.created).mpr le_rfl
  refine .pass (.inl d) (.inr s.created) handed.job ?_ ?_ ?_ (fun _ => Iff.rfl) rfl
  · simp [ledger, jobAt, dispatcherJob, hpc]
  · simp [ledger, jobAt, workerJob, hnew]
  · funext place
    cases place with
    | inl other =>
        by_cases hother : other = d
        · subst hother
          simp [ledger, jobAt, moveDispatcher, dispatcherJob]
        · simp [ledger, jobAt, moveDispatcher, moveWorker, hother]
    | inr v =>
        by_cases hv : v = s.created
        · subst hv
          simp [ledger, jobAt, moveDispatcher, moveWorker, workerJob]
        · simp [ledger, jobAt, moveDispatcher, moveWorker, hv]

variable [DecidableEq Group] {exclusive : Group → Bool}

/-- Every step issues a job, passes one on, finishes one, or leaves them alone. -/
theorem ledger_booking (hs : PlaceInvariant s) (hslots : SlotInvariant s)
    {label : PoolLabel Group Entity dispatchers} (hstep : PoolStep exclusive s label s') :
    Custody.Booking (ledger s) (ledger s') := by
  cases hstep with
  | call d request hpc =>
      refine .issue (.inl d) s.handed.length ?_ (Nat.lt_irrefl _)
        (holds_dispatcher d (.entered ⟨s.handed.length, request.executable⟩) rfl rfl rfl rfl)
        ?_ rfl
      · simp [ledger, jobAt, dispatcherJob, hpc]
      · intro other
        simp only [ledger, List.length_append, List.length_singleton]
        omega
  | pop d handed w rest hpc hidle =>
      exact booking_dispatcher rfl rfl rfl rfl rfl rfl (by simp [dispatcherJob, hpc])
  | popNull d handed timing hpc hidle =>
      exact booking_dispatcher rfl rfl rfl rfl rfl rfl
        (by simp [dispatcherJob, hpc, Handed.stamped])
  | write d handed w hpc => exact booking_write hs hpc
  | wake d w hpc => exact booking_wake hs hslots hpc
  | stamp d w timing hpc => exact booking_stamp timing hpc
  | create d handed hpc => exact booking_create hs hpc
  | detach d w hpc =>
      refine booking_dispatcher rfl rfl rfl rfl rfl rfl ?_
      rcases hpc with hpc | hpc <;> simp [dispatcherJob, hpc]
  | copy w handed hpc =>
      have hnot := hs.not_written (w := w) (by simp [Free, hpc])
      exact booking_worker (fun other hother => Function.update_of_ne hother _ _)
        (fun _ _ => rfl) (fun d hd => absurd hd (hnot d)) rfl rfl rfl rfl
        (by simp [workerJob, hpc, moveWorker, writeSlot])
  | begin w hpc =>
      exact booking_worker (fun _ _ => rfl)
        (fun other hother => Function.update_of_ne hother _ _) (fun _ _ => rfl) rfl rfl
        rfl rfl (by simp [workerJob, hpc, moveWorker, setBusy])
  | pass w hpc hbusy =>
      exact booking_worker (fun _ _ => rfl) (fun _ _ => rfl) (fun _ _ => rfl) rfl rfl
        rfl rfl (by simp [workerJob, hpc, hbusy, moveWorker])
  | execute w handed group hpc hslot hgroup hmutex =>
      refine .finish (.inr w) handed.job ?_ ?_ (fun _ => Iff.rfl) ?_
      · simp [ledger, jobAt, workerJob, hpc, hslot]
      · exact holds_worker w .executing (fun _ _ => rfl) (fun _ _ => rfl) (fun _ _ => rfl)
          rfl rfl
      · simp [ledger]
  | finish w handed group hpc hslot hgroup =>
      have hnot := hs.not_written (w := w) (by simp [Free, hpc])
      refine booking_worker ?_ (fun _ _ => rfl) (fun d hd => absurd hd (hnot d)) rfl rfl
        rfl rfl (by simp [workerJob, hpc])
      exact fun other hother => unlockGroup_slot exclusive hother group
  | clear w hpc =>
      exact booking_worker (fun _ _ => rfl)
        (fun other hother => Function.update_of_ne hother _ _) (fun _ _ => rfl) rfl rfl
        rfl rfl (by simp [workerJob, hpc])
  | push w hpc =>
      exact booking_worker (fun _ _ => rfl) (fun _ _ => rfl) (fun _ _ => rfl) rfl rfl
        rfl rfl (by simp [workerJob, hpc, moveWorker, hs.cleared w hpc])

end Jobs

section Slots

variable {s s' : PoolState Group Entity dispatchers}

theorem Genuine.append {handed : List (Request Group Entity)} {h : Handed Group Entity}
    (hgenuine : Genuine handed h) (more : List (Request Group Entity)) :
    Genuine (handed ++ more) h := by
  obtain ⟨request, hrequest, hsame⟩ := hgenuine
  have hlt := (List.getElem?_eq_some_iff.mp hrequest).1
  exact ⟨request, by rw [List.getElem?_append_left hlt, hrequest], hsame⟩

theorem Genuine.stamped {handed : List (Request Group Entity)} {h : Handed Group Entity}
    (hgenuine : Genuine handed h) (timing : Timing) : Genuine handed (h.stamped timing) := by
  obtain ⟨request, hrequest, hsame⟩ := hgenuine
  exact ⟨request, hrequest, (stamped_sameJob _ timing).trans hsame⟩

/-- Whether a slot is loaded depends on its worker, and while the worker waits on its
flag and on the dispatcher that has written the slot. -/
theorem Loaded.of_waiting {w : ℕ} (hworker : s'.worker w = s.worker w)
    (hwaiting : (s'.isBusy w = 1 ∨ ∃ d, s'.dispatcher d = .written w) →
      s.isBusy w = 1 ∨ ∃ d, s.dispatcher d = .written w)
    (hloaded : Loaded s' w) : Loaded s w := by
  rw [Loaded, Assigned, hworker] at hloaded
  rw [Loaded, Assigned]
  tauto

theorem exists_written_update {dispatcher : Fin dispatchers → DispatcherPc Group Entity}
    {d : Fin dispatchers} {pc : DispatcherPc Group Entity} {w : ℕ} (hpc : pc ≠ .written w)
    (hwritten : ∃ other, Function.update dispatcher d pc other = .written w) :
    ∃ other, dispatcher other = .written w := by
  obtain ⟨other, hother⟩ := hwritten
  by_cases hsame : other = d
  · subst hsame
    rw [Function.update_self] at hother
    exact absurd hother hpc
  · rw [Function.update_of_ne hsame] at hother
    exact ⟨other, hother⟩

/-- A dispatcher that leaves the slots and the flags alone. -/
theorem SlotInvariant.dispatcher_moves (hs : SlotInvariant s) {d : Fin dispatchers}
    {pc : DispatcherPc Group Entity} (more : List (Request Group Entity))
    (hcarried : ∀ h, pc.carried = some h → Genuine s'.handed h)
    (hwritten : ∀ w, pc ≠ .written w)
    (hdispatcher : s'.dispatcher = Function.update s.dispatcher d pc)
    (hworker : s'.worker = s.worker) (hbusy : s'.isBusy = s.isBusy)
    (hslot : s'.slot = s.slot) (hhanded : s'.handed = s.handed ++ more)
    (hexecutions : s'.executions = s.executions) : SlotInvariant s' := by
  constructor
  case carried =>
    intro other h hother
    rw [hdispatcher] at hother
    by_cases hsame : other = d
    · subst hsame
      rw [Function.update_self] at hother
      exact hcarried h hother
    · rw [Function.update_of_ne hsame] at hother
      rw [hhanded]
      exact (hs.carried other h hother).append more
  case started =>
    intro w h hstarted
    rw [hworker] at hstarted
    rw [hhanded]
    exact (hs.started w h hstarted).append more
  case loaded =>
    intro w hloaded
    have hbefore : Loaded s w := by
      apply hloaded.of_waiting (congrFun hworker w)
      rw [hbusy, hdispatcher]
      exact Or.imp_right (exists_written_update (hwritten w))
    obtain ⟨h, hcontent, hgenuine⟩ := hs.loaded w hbefore
    rw [hslot, hhanded]
    exact ⟨h, hcontent, hgenuine.append more⟩
  case executed =>
    rw [hworker, hslot]
    exact hs.executed
  case recorded =>
    intro h hmem
    rw [hexecutions] at hmem
    rw [hhanded]
    exact (hs.recorded h hmem).append more

/-- A worker that leaves the slots of the others alone. -/
theorem SlotInvariant.worker_moves (hs : SlotInvariant s) {w : ℕ}
    {pc : WorkerPc Group Entity} (hstarted : ∀ h, pc ≠ .started h)
    (hloaded : Loaded s' w → ∃ h, s'.slot w = some h ∧ Genuine s.handed h)
    (hexecuted : pc = .executed → ∃ h, s'.slot w = some h)
    (hrecorded : ∀ h ∈ s'.executions, Genuine s.handed h)
    (hworker : s'.worker = Function.update s.worker w pc)
    (hslot : ∀ other, other ≠ w → s'.slot other = s.slot other)
    (hbusy : ∀ other, other ≠ w → s'.isBusy other = s.isBusy other)
    (hdispatcher : s'.dispatcher = s.dispatcher) (hhanded : s'.handed = s.handed) :
    SlotInvariant s' := by
  constructor
  case carried =>
    rw [hdispatcher, hhanded]
    exact hs.carried
  case started =>
    intro other h hother
    rw [hworker] at hother
    rw [hhanded]
    by_cases hsame : other = w
    · subst hsame
      rw [Function.update_self] at hother
      exact absurd hother (hstarted h)
    · rw [Function.update_of_ne hsame] at hother
      exact hs.started other h hother
  case loaded =>
    intro other hother
    rw [hhanded]
    by_cases hsame : other = w
    · subst hsame
      exact hloaded hother
    · rw [hslot other hsame]
      apply hs.loaded other
      simpa [Loaded, Assigned, hworker, hsame, hbusy other hsame, hdispatcher]
        using hother
  case executed =>
    intro other hother
    rw [hworker] at hother
    by_cases hsame : other = w
    · subst hsame
      rw [Function.update_self] at hother
      exact hexecuted hother
    · rw [Function.update_of_ne hsame] at hother
      rw [hslot other hsame]
      exact hs.executed other hother
  case recorded =>
    rw [hhanded]
    exact hrecorded

theorem SlotInvariant.write (hs : SlotInvariant s) {d : Fin dispatchers}
    {handed : Handed Group Entity} {w : ℕ} (hpc : s.dispatcher d = .popped handed w) :
    SlotInvariant ((s.writeSlot w (some handed)).moveDispatcher d (.written w)) := by
  have hgenuine := hs.carried d handed (by simp [hpc, DispatcherPc.carried])
  constructor
  case carried =>
    intro other h hother
    by_cases hsame : other = d
    · subst hsame
      simp [moveDispatcher, DispatcherPc.carried] at hother
    · exact hs.carried other h (by simpa [moveDispatcher, writeSlot, hsame] using hother)
  case started => exact hs.started
  case loaded =>
    intro v hloaded
    by_cases hv : v = w
    · subst hv
      exact ⟨handed, by simp [moveDispatcher, writeSlot], hgenuine⟩
    · have hbefore : Loaded s v := by
        refine Loaded.of_waiting (s := s) (by rfl) ?_ hloaded
        exact Or.imp_right (exists_written_update (by simpa using Ne.symm hv))
      simpa [moveDispatcher, writeSlot, hv] using hs.loaded v hbefore
  case executed =>
    intro v hpc
    by_cases hv : v = w
    · subst hv
      exact ⟨handed, by simp [moveDispatcher, writeSlot]⟩
    · simpa [moveDispatcher, writeSlot, hv] using hs.executed v hpc
  case recorded => exact hs.recorded

theorem SlotInvariant.wake (hs : SlotInvariant s) {d : Fin dispatchers} {w : ℕ}
    (hpc : s.dispatcher d = .written w) :
    SlotInvariant ((s.setBusy w 1).moveDispatcher d (.woke w)) := by
  constructor
  case carried =>
    intro other h hother
    by_cases hsame : other = d
    · subst hsame
      simp [moveDispatcher, DispatcherPc.carried] at hother
    · exact hs.carried other h (by simpa [moveDispatcher, setBusy, hsame] using hother)
  case started => exact hs.started
  case loaded =>
    intro v hloaded
    apply hs.loaded v
    refine Loaded.of_waiting (s := s) (by rfl) ?_ hloaded
    rintro (hone | hwritten)
    · by_cases hv : v = w
      · exact .inr ⟨d, hv ▸ hpc⟩
      · exact .inl (by simpa [moveDispatcher, setBusy, hv] using hone)
    · exact .inr (exists_written_update (by simp) hwritten)
  case executed => exact hs.executed
  case recorded => exact hs.recorded

theorem SlotInvariant.create (hs : SlotInvariant s) {d : Fin dispatchers}
    {handed : Handed Group Entity} (hpc : s.dispatcher d = .creating handed) :
    SlotInvariant
      { (s.moveWorker s.created (.started handed)).moveDispatcher d (.created s.created)
        with created := s.created + 1 } := by
  have hgenuine := hs.carried d handed (by simp [hpc, DispatcherPc.carried])
  constructor
  case carried =>
    intro other h hother
    by_cases hsame : other = d
    · subst hsame
      simp [moveDispatcher, DispatcherPc.carried] at hother
    · exact hs.carried other h (by simpa [moveDispatcher, moveWorker, hsame] using hother)
  case started =>
    intro w h hstarted
    by_cases hw : w = s.created
    · subst hw
      obtain rfl : handed = h := by simpa [moveDispatcher, moveWorker] using hstarted
      exact hgenuine
    · exact hs.started w h (by simpa [moveDispatcher, moveWorker, hw] using hstarted)
  case loaded =>
    intro w hloaded
    by_cases hw : w = s.created
    · subst hw
      simp [Loaded, Assigned, moveDispatcher, moveWorker] at hloaded
    · apply hs.loaded w
      apply hloaded.of_waiting (Function.update_of_ne hw _ _)
      exact Or.imp_right (exists_written_update (by simp))
  case executed =>
    intro w hpc
    have hw : w ≠ s.created := by
      rintro rfl
      simp [moveDispatcher, moveWorker] at hpc
    exact hs.executed w (by simpa [moveDispatcher, moveWorker, hw] using hpc)
  case recorded => exact hs.recorded

/-- The timing that is written late, into the slot of whatever job is there by then. -/
theorem writeSlot_stamped {v : ℕ} {h : Handed Group Entity} (hcontent : s.slot v = some h)
    (w : ℕ) (timing : Timing) :
    ∃ h', (s.writeSlot w ((s.slot w).map (·.stamped timing))).slot v = some h' ∧
      (h' = h ∨ h' = h.stamped timing) := by
  by_cases hv : v = w
  · subst hv
    exact ⟨h.stamped timing, by simp [writeSlot, hcontent], .inr rfl⟩
  · exact ⟨h, by simpa [writeSlot, hv] using hcontent, .inl rfl⟩

theorem SlotInvariant.stamp (hs : SlotInvariant s) (w : ℕ) (timing : Timing) :
    SlotInvariant (s.writeSlot w ((s.slot w).map (·.stamped timing))) where
  carried := hs.carried
  started := hs.started
  loaded := by
    intro v hloaded
    obtain ⟨h, hcontent, hgenuine⟩ := hs.loaded v hloaded
    obtain ⟨h', hcontent', rfl | rfl⟩ := writeSlot_stamped hcontent w timing
    · exact ⟨h', hcontent', hgenuine⟩
    · exact ⟨h.stamped timing, hcontent', hgenuine.stamped timing⟩
  executed := by
    intro v hpc
    obtain ⟨h, hcontent⟩ := hs.executed v hpc
    obtain ⟨h', hcontent', -⟩ := writeSlot_stamped hcontent w timing
    exact ⟨h', hcontent'⟩
  recorded := hs.recorded

variable [DecidableEq Group] {exclusive : Group → Bool}

theorem slotInvariant_step (s : PoolState Group Entity dispatchers)
    (label : PoolLabel Group Entity dispatchers)
    (s' : PoolState Group Entity dispatchers) (hplaces : PlaceInvariant s)
    (hs : SlotInvariant s) (hstep : PoolStep exclusive s label s') : SlotInvariant s' := by
  cases hstep with
  | call d request hpc =>
      refine hs.dispatcher_moves [request] ?_ (by simp) rfl rfl rfl rfl rfl rfl
      rintro h ⟨⟩
      exact ⟨request, by simp, .refl _⟩
  | pop d handed w rest hpc hidle =>
      refine hs.dispatcher_moves [] ?_ (by simp) rfl rfl rfl rfl (List.append_nil _).symm rfl
      exact fun h hh => hs.carried d h (by rw [hpc]; exact hh)
  | popNull d handed timing hpc hidle =>
      refine hs.dispatcher_moves [] ?_ (by simp) rfl rfl rfl rfl (List.append_nil _).symm rfl
      rintro h ⟨⟩
      exact (hs.carried d handed (by rw [hpc]; rfl)).stamped timing
  | write d handed w hpc => exact hs.write hpc
  | wake d w hpc => exact hs.wake hpc
  | stamp d w timing hpc =>
      exact (hs.stamp w timing).dispatcher_moves [] (by simp [DispatcherPc.carried]) (by simp)
        rfl rfl rfl rfl (List.append_nil _).symm rfl
  | create d handed hpc => exact hs.create hpc
  | detach d w hpc =>
      exact hs.dispatcher_moves [] (by simp [DispatcherPc.carried]) (by simp) rfl rfl rfl rfl
        (List.append_nil _).symm rfl
  | copy w handed hpc =>
      refine hs.worker_moves (by simp) (fun _ => ?_) (by simp) hs.recorded rfl
        (fun other hother => Function.update_of_ne hother _ _) (fun _ _ => rfl) rfl rfl
      exact ⟨handed, by simp [moveWorker, writeSlot], hs.started w handed hpc⟩
  | begin w hpc =>
      exact hs.worker_moves (by simp)
        (fun _ => hs.loaded w (.inl (by simp [Assigned, hpc]))) (by simp) hs.recorded rfl
        (fun _ _ => rfl) (fun other hother => Function.update_of_ne hother _ _) rfl rfl
  | pass w hpc hbusy =>
      exact hs.worker_moves (by simp)
        (fun _ => hs.loaded w (.inl (by simp [Assigned, hpc, hbusy]))) (by simp) hs.recorded
        rfl (fun _ _ => rfl) (fun _ _ => rfl) rfl rfl
  | execute w handed group hpc hslot hgroup hmutex =>
      obtain ⟨h, hcontent, hgenuine⟩ := hs.loaded w (.inl (by simp [Assigned, hpc]))
      refine hs.worker_moves (by simp) (fun _ => ⟨h, hcontent, hgenuine⟩) (by simp) ?_ rfl
        (fun _ _ => rfl) (fun _ _ => rfl) rfl rfl
      obtain rfl : h = handed := by simpa [hslot, eq_comm] using hcontent
      intro other hmem
      rcases List.mem_append.mp hmem with hbefore | hnow
      · exact hs.recorded other hbefore
      · rw [List.mem_singleton.mp hnow]
        exact hgenuine
  | finish w handed group hpc hslot hgroup =>
      refine hs.worker_moves (by simp) ?_ ?_ hs.recorded rfl ?_ (fun _ _ => rfl) rfl rfl
      · intro hloaded
        simp [Loaded, Assigned, moveWorker] at hloaded
      · intro _
        simp only [moveWorker, unlockGroup]
        split
        · exact ⟨dropGroup handed, by simp [hslot]⟩
        · exact ⟨handed, hslot⟩
      · exact fun other hother => unlockGroup_slot exclusive hother group
  | clear w hpc =>
      refine hs.worker_moves (by simp) ?_ (by simp) hs.recorded rfl (fun _ _ => rfl)
        (fun other hother => Function.update_of_ne hother _ _) rfl rfl
      intro hloaded
      simp [Loaded, Assigned, moveWorker] at hloaded
  | push w hpc =>
      refine hs.worker_moves (by simp) ?_ (by simp) hs.recorded rfl (fun _ _ => rfl)
        (fun _ _ => rfl) rfl rfl
      have hnot := hplaces.not_written (w := w) (by simp [Free, hpc])
      have hcleared := hplaces.cleared w hpc
      intro hloaded
      simp [Loaded, Assigned, moveWorker, hnot, hcleared] at hloaded

omit [DecidableEq Group] in
theorem SlotInvariant.hasJob (hs : SlotInvariant s) {w : ℕ} (hbusy : Busy s w) :
    ∃! job, HasJob s w job := by
  have hslot : ∀ {h}, s.slot w = some h →
      ∃! job, ∃ handed, s.slot w = some handed ∧ handed.job = job := by
    intro h hcontent
    refine ⟨h.job, ⟨h, hcontent, rfl⟩, ?_⟩
    rintro job ⟨handed, hhanded, rfl⟩
    rw [hcontent, Option.some.injEq] at hhanded
    rw [hhanded]
  cases hpc : s.worker w with
  | started h => exact ⟨h.job, by simp [HasJob, hpc], by simp [HasJob, hpc]⟩
  | copied | woken | executing =>
      obtain ⟨h, hcontent, -⟩ := hs.loaded w (by simp [Loaded, Assigned, hpc])
      simpa only [HasJob, hpc] using hslot hcontent
  | executed =>
      obtain ⟨h, hcontent⟩ := hs.executed w hpc
      simpa only [HasJob, hpc] using hslot hcontent
  | waiting =>
      have hone : s.isBusy w = 1 := by simpa [Busy, hpc] using hbusy
      obtain ⟨h, hcontent, -⟩ := hs.loaded w (by simp [Loaded, Assigned, hpc, hone])
      simpa only [HasJob, hpc] using hslot hcontent
  | absent | pushing => simp [Busy, hpc] at hbusy

end Slots

/-! ## An assigned slot -/

section Assignment

variable {s s' : PoolState Group Entity dispatchers}

/-- From its assignment to the start of its execution a job stays in its slot, with
its entity, type and callback group. -/
def KeepsAssigned (s s' : PoolState Group Entity dispatchers) : Prop :=
  ∀ w, Assigned s w → (Assigned s' w ∨ s'.worker w = .executing) ∧
    ∃ h h', s.slot w = some h ∧ s'.slot w = some h' ∧ h'.job = h.job ∧
      h'.executable.SameJob h.executable

theorem Assigned.of_waiting {w : ℕ} (hassigned : Assigned s w)
    (hworker : s'.worker w = s.worker w)
    (hwaiting : s.worker w = .waiting → (s.isBusy w = 1 ∨ ∃ d, s.dispatcher d = .written w) →
      s'.isBusy w = 1 ∨ ∃ d, s'.dispatcher d = .written w) : Assigned s' w := by
  rw [Assigned] at hassigned
  rw [Assigned, hworker]
  tauto

theorem exists_written_of_update {dispatcher : Fin dispatchers → DispatcherPc Group Entity}
    {d : Fin dispatchers} (pc : DispatcherPc Group Entity) {w : ℕ}
    (hpc : dispatcher d ≠ .written w) (hwritten : ∃ other, dispatcher other = .written w) :
    ∃ other, Function.update dispatcher d pc other = .written w := by
  obtain ⟨other, hother⟩ := hwritten
  have hsame : other ≠ d := by
    rintro rfl
    exact hpc hother
  exact ⟨other, by rw [Function.update_of_ne hsame, hother]⟩

/-- A step that leaves the assigned slots alone. -/
theorem SlotInvariant.keepsAssigned (hs : SlotInvariant s)
    (hassigned : ∀ w, Assigned s w → Assigned s' w ∨ s'.worker w = .executing)
    (hslot : ∀ w, Assigned s w → s'.slot w = s.slot w) : KeepsAssigned s s' := by
  intro w hw
  obtain ⟨h, hcontent, -⟩ := hs.loaded w (.inl hw)
  exact ⟨hassigned w hw, h, h, hcontent, (hslot w hw).trans hcontent, rfl, .refl _⟩

/-- A dispatcher that had not written a slot, and writes none. -/
theorem SlotInvariant.keepsAssigned_dispatcher (hs : SlotInvariant s)
    {d : Fin dispatchers} (pc : DispatcherPc Group Entity)
    (hpc : ∀ w, s.dispatcher d ≠ .written w)
    (hdispatcher : s'.dispatcher = Function.update s.dispatcher d pc)
    (hworker : s'.worker = s.worker) (hbusy : s'.isBusy = s.isBusy)
    (hslot : s'.slot = s.slot) : KeepsAssigned s s' := by
  refine hs.keepsAssigned (fun w hw => .inl ?_) (fun w _ => congrFun hslot w)
  apply hw.of_waiting (congrFun hworker w)
  rw [hbusy, hdispatcher]
  exact fun _ => Or.imp_right (exists_written_of_update pc (hpc w))

/-- A worker that leaves the slots and the flags of the others alone. -/
theorem SlotInvariant.keepsAssigned_worker (hs : SlotInvariant s) {w : ℕ}
    {pc : WorkerPc Group Entity}
    (hassigned : Assigned s w → Assigned s' w ∨ s'.worker w = .executing)
    (hslot : Assigned s w → s'.slot w = s.slot w)
    (hothers : ∀ other, other ≠ w → s'.slot other = s.slot other)
    (hworker : s'.worker = Function.update s.worker w pc)
    (hbusy : ∀ other, other ≠ w → s'.isBusy other = s.isBusy other)
    (hdispatcher : s'.dispatcher = s.dispatcher) : KeepsAssigned s s' := by
  refine hs.keepsAssigned (fun other hother => ?_) fun other hother => ?_
  · by_cases hsame : other = w
    · subst hsame
      exact hassigned hother
    · refine .inl (hother.of_waiting ?_ ?_)
      · rw [hworker, Function.update_of_ne hsame]
      · rw [hbusy other hsame, hdispatcher]
        exact fun _ => id
  · by_cases hsame : other = w
    · subst hsame
      exact hslot hother
    · exact hothers other hsame

/-- A popped worker has not been assigned anything yet. -/
theorem PlaceInvariant.not_assigned (hs : PlaceInvariant s) {d : Fin dispatchers}
    {handed : Handed Group Entity} {w : ℕ} (hpc : s.dispatcher d = .popped handed w) :
    ¬ Assigned s w := by
  have hmine := hasPopped_of_popped hpc
  have hfree := hs.free_of_popped hmine
  have hwritten : ∀ other, s.dispatcher other ≠ .written w := by
    intro other hother
    have hsame := hs.single d other w hmine (hasPopped_of_written hother)
    rw [hsame, hpc] at hother
    cases hother
  simp [Assigned, hfree.1, hfree.2, hwritten]

variable [DecidableEq Group] {exclusive : Group → Bool}

theorem step_keepsAssigned (hplaces : PlaceInvariant s) (hs : SlotInvariant s)
    {label : PoolLabel Group Entity dispatchers} (hstep : PoolStep exclusive s label s') :
    KeepsAssigned s s' := by
  cases hstep with
  | call d request hpc =>
      exact hs.keepsAssigned_dispatcher _ (by simp [hpc]) rfl rfl rfl rfl
  | pop d handed w rest hpc hidle =>
      exact hs.keepsAssigned_dispatcher _ (by simp [hpc]) rfl rfl rfl rfl
  | popNull d handed timing hpc hidle =>
      exact hs.keepsAssigned_dispatcher _ (by simp [hpc]) rfl rfl rfl rfl
  | write d handed w hpc =>
      have hnot := hplaces.not_assigned hpc
      have hother : ∀ v, Assigned s v → v ≠ w := by
        rintro v hv rfl
        exact hnot hv
      refine hs.keepsAssigned (fun v hv => .inl ?_)
        fun v hv => Function.update_of_ne (hother v hv) _ _
      refine Assigned.of_waiting hv (by rfl) ?_
      exact fun _ => Or.imp_right (exists_written_of_update _ (by simp [hpc]))
  | wake d w hpc =>
      refine hs.keepsAssigned (fun v hv => .inl ?_) fun _ _ => rfl
      refine Assigned.of_waiting hv (by rfl) ?_
      intro _ hwaiting
      by_cases hv : v = w
      · subst hv
        exact .inl (by simp [moveDispatcher, setBusy])
      · refine hwaiting.imp ?_
          (exists_written_of_update _ (by simpa [setBusy, hpc] using Ne.symm hv))
        intro hone
        simpa [moveDispatcher, setBusy, hv] using hone
  | stamp d w timing hpc =>
      intro v hv
      obtain ⟨h, hcontent, -⟩ := hs.loaded v (.inl hv)
      refine ⟨.inl ?_, h, ?_⟩
      · refine Assigned.of_waiting hv (by rfl) ?_
        exact fun _ => Or.imp_right (exists_written_of_update _ (by simp [hpc]))
      · obtain ⟨h', hcontent', rfl | rfl⟩ := writeSlot_stamped hcontent w timing
        · exact ⟨h', hcontent, hcontent', rfl, .refl _⟩
        · exact ⟨h.stamped timing, hcontent, hcontent', rfl, stamped_sameJob _ timing⟩
  | create d handed hpc =>
      have hnew := (hplaces.absent s.created).mpr le_rfl
      have hother : ∀ w, Assigned s w → w ≠ s.created := by
        rintro w hw rfl
        simp [Assigned, hnew] at hw
      refine hs.keepsAssigned (fun w hw => .inl ?_) fun _ _ => rfl
      refine hw.of_waiting (Function.update_of_ne (hother w hw) _ _) ?_
      exact fun _ => Or.imp_right (exists_written_of_update _ (by simp [hpc]))
  | detach d w hpc =>
      refine hs.keepsAssigned_dispatcher _ (fun w => ?_) rfl rfl rfl rfl
      rcases hpc with hpc | hpc <;> simp [hpc]
  | copy w handed hpc =>
      have hnot : ¬ Assigned s w := by simp [Assigned, hpc]
      exact hs.keepsAssigned_worker (fun hw => absurd hw hnot) (fun hw => absurd hw hnot)
        (fun other hother => Function.update_of_ne hother _ _) rfl (fun _ _ => rfl) rfl
  | begin w hpc =>
      exact hs.keepsAssigned_worker
        (fun _ => .inl (by simp [Assigned, moveWorker, setBusy])) (fun _ => rfl)
        (fun _ _ => rfl) rfl (fun other hother => Function.update_of_ne hother _ _) rfl
  | pass w hpc hbusy =>
      exact hs.keepsAssigned_worker (fun _ => .inl (by simp [Assigned, moveWorker]))
        (fun _ => rfl) (fun _ _ => rfl) rfl (fun _ _ => rfl) rfl
  | execute w handed group hpc hslot hgroup hmutex =>
      exact hs.keepsAssigned_worker (fun _ => .inr (by simp [moveWorker])) (fun _ => rfl)
        (fun _ _ => rfl) rfl (fun _ _ => rfl) rfl
  | finish w handed group hpc hslot hgroup =>
      have hnot : ¬ Assigned s w := by simp [Assigned, hpc]
      refine hs.keepsAssigned_worker (fun hw => absurd hw hnot) (fun hw => absurd hw hnot)
        (fun other hother => unlockGroup_slot exclusive hother group) rfl (fun _ _ => rfl) rfl
  | clear w hpc =>
      have hnot : ¬ Assigned s w := by simp [Assigned, hpc]
      exact hs.keepsAssigned_worker (fun hw => absurd hw hnot) (fun hw => absurd hw hnot)
        (fun _ _ => rfl) rfl (fun other hother => Function.update_of_ne hother _ _) rfl
  | push w hpc =>
      have hnot : ¬ Assigned s w := by simp [Assigned, hpc]
      exact hs.keepsAssigned_worker (fun hw => absurd hw hnot) (fun hw => absurd hw hnot)
        (fun _ _ => rfl) rfl (fun _ _ => rfl) rfl

end Assignment

/-! ## No job is left behind -/

section Progress

variable {s s' : PoolState Group Entity dispatchers} {exclusive : Group → Bool}

/-- The mutex of a group is held by a worker that executes a job of the group. -/
def MutexInvariant (exclusive : Group → Bool) (s : PoolState Group Entity dispatchers) :
    Prop :=
  ∀ group w, s.groupMutex group = some w →
    exclusive group = true ∧ s.worker w = .executing ∧
      ∃ h, s.slot w = some h ∧ h.executable.callbackGroup = some group

theorem MutexInvariant.frame (hs : MutexInvariant exclusive s)
    (hmutex : ∀ group w, s'.groupMutex group = some w → s.groupMutex group = some w)
    (hworker : ∀ group w, s'.groupMutex group = some w → s'.worker w = s.worker w)
    (hslot : ∀ group w h, s'.groupMutex group = some w → s.slot w = some h →
      ∃ h', s'.slot w = some h' ∧
        h'.executable.callbackGroup = h.executable.callbackGroup) :
    MutexInvariant exclusive s' := by
  intro group w hheld
  obtain ⟨hexclusive, hpc, h, hcontent, hgroup⟩ := hs group w (hmutex group w hheld)
  obtain ⟨h', hcontent', hsame⟩ := hslot group w h hheld hcontent
  exact ⟨hexclusive, by rw [hworker group w hheld, hpc], h', hcontent',
    hsame.trans hgroup⟩

/-- A worker that is not executing, and may write its own slot. -/
theorem MutexInvariant.worker_moves (hs : MutexInvariant exclusive s) {w : ℕ}
    {pc : WorkerPc Group Entity} (hpc : s.worker w ≠ .executing)
    (hmutex : s'.groupMutex = s.groupMutex)
    (hworker : s'.worker = Function.update s.worker w pc)
    (hslot : ∀ other, other ≠ w → s'.slot other = s.slot other) :
    MutexInvariant exclusive s' := by
  have hother : ∀ group v, s'.groupMutex group = some v → v ≠ w := by
    rintro group v hheld rfl
    rw [hmutex] at hheld
    exact hpc (hs group v hheld).2.1
  refine hs.frame (fun group v => by rw [hmutex]; exact id) ?_ ?_
  · intro group v hheld
    rw [hworker, Function.update_of_ne (hother group v hheld)]
  · intro group v h hheld hcontent
    exact ⟨h, by rw [hslot v (hother group v hheld), hcontent], rfl⟩

variable [DecidableEq Group]

/-- A worker that starts to execute a job may lock the mutex of its group. -/
theorem MutexInvariant.lock (hs : MutexInvariant exclusive s) {w : ℕ}
    {handed : Handed Group Entity} {group : Group} (hpc : s.worker w = .woken)
    (hslot : s.slot w = some handed) (hgroup : handed.executable.callbackGroup = some group) :
    MutexInvariant exclusive
      { (s.lockGroup exclusive w group).moveWorker w .executing with
        executions := s.executions ++ [handed] } := by
  intro g v hheld
  simp only [moveWorker, lockGroup] at hheld ⊢
  have hbefore : s.groupMutex g = some v → exclusive g = true ∧
      Function.update s.worker w .executing v = .executing ∧
        ∃ h, s.slot v = some h ∧ h.executable.callbackGroup = some g := by
    intro hheld
    obtain ⟨hexclusive, hexecuting, hcontent⟩ := hs g v hheld
    have hv : v ≠ w := by
      rintro rfl
      rw [hpc] at hexecuting
      cases hexecuting
    rw [Function.update_of_ne hv]
    exact ⟨hexclusive, hexecuting, hcontent⟩
  split at hheld
  · rename_i hexclusive
    by_cases hg : g = group
    · subst hg
      rw [Function.update_self, Option.some.injEq] at hheld
      subst hheld
      exact ⟨hexclusive, Function.update_self .., handed, hslot, hgroup⟩
    · rw [Function.update_of_ne hg] at hheld
      exact hbefore hheld
  · exact hbefore hheld

/-- A worker that has executed a job unlocks the mutex of the job's group, and held no
other. -/
theorem MutexInvariant.unlock (hs : MutexInvariant exclusive s) {w : ℕ}
    {handed : Handed Group Entity} {group : Group} (hslot : s.slot w = some handed)
    (hgroup : handed.executable.callbackGroup = some group) :
    MutexInvariant exclusive ((s.unlockGroup exclusive w group).moveWorker w .executed) := by
  have hmine : ∀ g v, g ≠ group → s.groupMutex g = some v → v ≠ w := by
    rintro g v hg hheld rfl
    obtain ⟨-, -, h, hcontent, hgroup'⟩ := hs g v hheld
    rw [hslot, Option.some.injEq] at hcontent
    rw [← hcontent, hgroup, Option.some.injEq] at hgroup'
    exact hg hgroup'.symm
  have hother : ∀ g v, (s.unlockGroup exclusive w group).groupMutex g = some v →
      s.groupMutex g = some v ∧ v ≠ w := by
    intro g v hheld
    simp only [unlockGroup] at hheld
    split at hheld
    · by_cases hg : g = group
      · simp [hg] at hheld
      · rw [Function.update_of_ne hg] at hheld
        exact ⟨hheld, hmine g v hg hheld⟩
    · rename_i hshared
      have hg : g ≠ group := by
        rintro rfl
        exact hshared (hs g v hheld).1
      exact ⟨hheld, hmine g v hg hheld⟩
  apply hs.frame
  · exact fun g v hheld => (hother g v hheld).1
  · exact fun g v hheld => Function.update_of_ne (hother g v hheld).2 _ _
  · intro g v h hheld hcontent
    exact ⟨h, (unlockGroup_slot exclusive (hother g v hheld).2 group).trans hcontent, rfl⟩

theorem mutexInvariant_step (s : PoolState Group Entity dispatchers)
    (label : PoolLabel Group Entity dispatchers)
    (s' : PoolState Group Entity dispatchers) (hplaces : PlaceInvariant s)
    (hs : MutexInvariant exclusive s) (hstep : PoolStep exclusive s label s') :
    MutexInvariant exclusive s' := by
  cases hstep with
  | call | pop | popNull | wake | detach => exact hs
  | write d handed w hpc =>
      have hfree := hplaces.free_of_popped (hasPopped_of_popped hpc)
      refine hs.frame (fun _ _ => id) (fun _ _ _ => rfl) ?_
      intro group v h hheld hcontent
      have hv : v ≠ w := by
        rintro rfl
        have hexecuting := (hs group v hheld).2.1
        rw [hfree.1] at hexecuting
        cases hexecuting
      exact ⟨h, by simpa [moveDispatcher, writeSlot, hv] using hcontent, rfl⟩
  | stamp d w timing hpc =>
      refine hs.frame (fun _ _ => id) (fun _ _ _ => rfl) ?_
      intro group v h hheld hcontent
      obtain ⟨h', hcontent', rfl | rfl⟩ := writeSlot_stamped hcontent w timing
      · exact ⟨h', hcontent', rfl⟩
      · exact ⟨h.stamped timing, hcontent', rfl⟩
  | create d handed hpc =>
      have hnew := (hplaces.absent s.created).mpr le_rfl
      exact hs.worker_moves (by simp [hnew]) rfl rfl fun _ _ => rfl
  | copy w handed hpc =>
      exact hs.worker_moves (by simp [hpc]) rfl rfl
        fun other hother => Function.update_of_ne hother _ _
  | begin w hpc => exact hs.worker_moves (by simp [hpc]) rfl rfl fun _ _ => rfl
  | pass w hpc hbusy => exact hs.worker_moves (by simp [hpc]) rfl rfl fun _ _ => rfl
  | execute w handed group hpc hslot hgroup hmutex => exact hs.lock hpc hslot hgroup
  | finish w handed group hpc hslot hgroup => exact hs.unlock hslot hgroup
  | clear w hpc => exact hs.worker_moves (by simp [hpc]) rfl rfl fun _ _ => rfl
  | push w hpc => exact hs.worker_moves (by simp [hpc]) rfl rfl fun _ _ => rfl

end Progress

section Bound

variable {s s' : PoolState Group Entity dispatchers} {exclusive : Group → Bool}

/-- How many steps are left for what the dispatcher does. -/
def DispatcherPc.rank : DispatcherPc Group Entity → ℕ
  | .entered _ => 10
  | .popped _ _ | .creating _ => 9
  | .written _ => 8
  | .woke _ | .created _ => 1
  | .outside => 0

/-- How many steps are left for the job of the worker. -/
def WorkerPc.rank (isBusy : ℕ) : WorkerPc Group Entity → ℕ
  | .started _ => 7
  | .copied => 6
  | .waiting => if isBusy = 1 then 5 else 0
  | .woken => 4
  | .executing => 3
  | .executed => 2
  | .pushing => 1
  | .absent => 0

def potential (s : PoolState Group Entity dispatchers) : ℕ :=
  ∑ d, (s.dispatcher d).rank + ∑ w ∈ Finset.range s.created, (s.worker w).rank (s.isBusy w)

variable (s s') in
theorem potential_dispatcher {d : Fin dispatchers} {pc : DispatcherPc Group Entity}
    (hdispatcher : s'.dispatcher = Function.update s.dispatcher d pc)
    (hworker : s'.worker = s.worker) (hbusy : s'.isBusy = s.isBusy)
    (hcreated : s'.created = s.created) :
    potential s' + (s.dispatcher d).rank = potential s + pc.rank := by
  have hsum := Potential.sum_add_of_eq_off (f := fun d => (s.dispatcher d).rank)
    (g := fun d => (s'.dispatcher d).rank) (Finset.mem_univ d)
    (fun other hother => by rw [hdispatcher, Function.update_of_ne hother])
  simp only [hdispatcher, Function.update_self] at hsum
  simp only [potential, hworker, hbusy, hcreated, hdispatcher]
  omega

theorem potential_worker {w : ℕ} {pc : WorkerPc Group Entity} (hw : w < s.created)
    (hworker : s'.worker = Function.update s.worker w pc)
    (hbusy : ∀ other, other ≠ w → s'.isBusy other = s.isBusy other)
    (hdispatcher : s'.dispatcher = s.dispatcher) (hcreated : s'.created = s.created) :
    potential s' + (s.worker w).rank (s.isBusy w) = potential s + pc.rank (s'.isBusy w) := by
  have hsum := Potential.sum_add_of_eq_off (f := fun w => (s.worker w).rank (s.isBusy w))
    (g := fun w => (s'.worker w).rank (s'.isBusy w)) (Finset.mem_range.mpr hw)
    (fun other hother => by rw [hworker, Function.update_of_ne hother, hbusy other hother])
  simp only [hworker, Function.update_self] at hsum
  simp only [potential, hdispatcher, hcreated, hworker]
  omega

/-- A dispatcher that goes on within its call. -/
theorem dispatcher_pays {d : Fin dispatchers} (pc : DispatcherPc Group Entity)
    (hrank : pc.rank < (s.dispatcher d).rank)
    (hdispatcher : s'.dispatcher = Function.update s.dispatcher d pc)
    (hworker : s'.worker = s.worker) (hbusy : s'.isBusy = s.isBusy)
    (hcreated : s'.created = s.created) (hhanded : s'.handed = s.handed) :
    potential s' + 1 + 11 * s.handed.length ≤ potential s + 11 * s'.handed.length := by
  have hsum := potential_dispatcher s s' hdispatcher hworker hbusy hcreated
  rw [hhanded]
  omega

/-- A worker that goes on with its job. -/
theorem worker_pays {w : ℕ} (pc : WorkerPc Group Entity) (hw : w < s.created)
    (hrank : pc.rank (s'.isBusy w) < (s.worker w).rank (s.isBusy w))
    (hworker : s'.worker = Function.update s.worker w pc)
    (hbusy : ∀ other, other ≠ w → s'.isBusy other = s.isBusy other)
    (hdispatcher : s'.dispatcher = s.dispatcher) (hcreated : s'.created = s.created)
    (hhanded : s'.handed = s.handed) :
    potential s' + 1 + 11 * s.handed.length ≤ potential s + 11 * s'.handed.length := by
  have hsum := potential_worker hw hworker hbusy hdispatcher hcreated
  rw [hhanded]
  omega

theorem potential_wake {d : Fin dispatchers} {w : ℕ} (hw : w < s.created)
    (hpc : s.dispatcher d = .written w) (hwaiting : s.worker w = .waiting)
    (hbusy : s.isBusy w ≠ 1) :
    potential ((s.setBusy w 1).moveDispatcher d (.woke w)) + 2 = potential s := by
  have hset : potential (s.setBusy w 1) + 0 = potential s + 5 := by
    have hworker : (s.setBusy w 1).worker = Function.update s.worker w .waiting := by
      rw [← hwaiting, Function.update_eq_self]
      rfl
    have hsum := potential_worker hw hworker
      (fun other hother => Function.update_of_ne hother _ _) rfl rfl
    simpa [hwaiting, hbusy, WorkerPc.rank, setBusy] using hsum
  have hmove := potential_dispatcher (s.setBusy w 1)
    ((s.setBusy w 1).moveDispatcher d (.woke w)) rfl rfl rfl rfl
  simp only [setBusy, hpc, DispatcherPc.rank] at hmove hset ⊢
  omega

theorem potential_create {d : Fin dispatchers} {handed : Handed Group Entity}
    (hpc : s.dispatcher d = .creating handed) :
    potential { (s.moveWorker s.created (.started handed)).moveDispatcher d
      (.created s.created) with created := s.created + 1 } + 1 = potential s := by
  have hnew : potential { s.moveWorker s.created (.started handed) with
      created := s.created + 1 } = potential s + 7 := by
    have hsum : ∑ w ∈ Finset.range s.created,
        (Function.update s.worker s.created (.started handed) w).rank (s.isBusy w) =
          ∑ w ∈ Finset.range s.created, (s.worker w).rank (s.isBusy w) := by
      refine Finset.sum_congr rfl fun w hw => ?_
      rw [Function.update_of_ne (Finset.mem_range.mp hw).ne]
    have hstarted : (WorkerPc.started handed).rank (s.isBusy s.created) = 7 := rfl
    simp only [potential, moveWorker, Finset.sum_range_succ, Function.update_self, hsum,
      hstarted]
    omega
  have hmove := potential_dispatcher
    { s.moveWorker s.created (.started handed) with created := s.created + 1 }
    { (s.moveWorker s.created (.started handed)).moveDispatcher d
      (.created s.created) with created := s.created + 1 } rfl rfl rfl rfl
  simp only [moveWorker, hpc, DispatcherPc.rank] at hmove hnew ⊢
  omega

variable [DecidableEq Group]

/-- A call of `assign_or_create` leaves ten steps to do, and every other step is one
of those. -/
theorem step_pays (hplaces : PlaceInvariant s)
    {label : PoolLabel Group Entity dispatchers} (hstep : PoolStep exclusive s label s') :
    potential s' + 1 + 11 * s.handed.length ≤ potential s + 11 * s'.handed.length := by
  have hcreated : ∀ w, s.worker w ≠ .absent → w < s.created := by
    intro w hpresent
    rw [ne_eq, hplaces.absent w] at hpresent
    omega
  cases hstep with
  | call d request hpc =>
      have hsum := potential_dispatcher s
        { s.moveDispatcher d (.entered ⟨s.handed.length, request.executable⟩) with
          handed := s.handed ++ [request] } rfl rfl rfl rfl
      simp only [hpc, DispatcherPc.rank] at hsum
      simp only [List.length_append, List.length_singleton]
      omega
  | pop d handed w rest hpc hidle =>
      exact dispatcher_pays _ (by simp [hpc, DispatcherPc.rank]) rfl rfl rfl rfl rfl
  | popNull d handed timing hpc hidle =>
      exact dispatcher_pays _ (by simp [hpc, DispatcherPc.rank]) rfl rfl rfl rfl rfl
  | write d handed w hpc =>
      exact dispatcher_pays _ (by simp [hpc, DispatcherPc.rank]) rfl rfl rfl rfl rfl
  | wake d w hpc =>
      have hfree := hplaces.free_of_popped (hasPopped_of_written hpc)
      have hsum := potential_wake (hcreated w (by simp [hfree.1])) hpc hfree.1 hfree.2
      simp only [moveDispatcher, setBusy] at hsum ⊢
      omega
  | stamp d w timing hpc =>
      exact dispatcher_pays _ (by simp [hpc, DispatcherPc.rank]) rfl rfl rfl rfl rfl
  | create d handed hpc =>
      have hsum := potential_create hpc
      simp only [moveDispatcher, moveWorker] at hsum ⊢
      omega
  | detach d w hpc =>
      refine dispatcher_pays _ ?_ rfl rfl rfl rfl rfl
      rcases hpc with hpc | hpc <;> simp [hpc, DispatcherPc.rank]
  | copy w handed hpc =>
      exact worker_pays _ (hcreated w (by simp [hpc])) (by simp [hpc, WorkerPc.rank]) rfl
        (fun _ _ => rfl) rfl rfl rfl
  | begin w hpc =>
      exact worker_pays _ (hcreated w (by simp [hpc]))
        (by simp [hpc, WorkerPc.rank, moveWorker, setBusy]) rfl
        (fun other hother => Function.update_of_ne hother _ _) rfl rfl rfl
  | pass w hpc hbusy =>
      exact worker_pays _ (hcreated w (by simp [hpc])) (by simp [hpc, hbusy, WorkerPc.rank])
        rfl (fun _ _ => rfl) rfl rfl rfl
  | execute w handed group hpc hslot hgroup hmutex =>
      exact worker_pays _ (hcreated w (by simp [hpc])) (by simp [hpc, WorkerPc.rank]) rfl
        (fun _ _ => rfl) rfl rfl rfl
  | finish w handed group hpc hslot hgroup =>
      exact worker_pays _ (hcreated w (by simp [hpc])) (by simp [hpc, WorkerPc.rank]) rfl
        (fun _ _ => rfl) rfl rfl rfl
  | clear w hpc =>
      exact worker_pays _ (hcreated w (by simp [hpc])) (by simp [hpc, WorkerPc.rank]) rfl
        (fun other hother => Function.update_of_ne hother _ _) rfl rfl rfl
  | push w hpc =>
      have hcleared := hplaces.cleared w hpc
      exact worker_pays _ (hcreated w (by simp [hpc]))
        (by simp [hpc, hcleared, WorkerPc.rank, moveWorker]) rfl (fun _ _ => rfl) rfl rfl rfl

end Bound

section Quiescence

variable {s : PoolState Group Entity dispatchers} {exclusive : Group → Bool}

theorem Genuine.callbackGroup {handed : List (Request Group Entity)}
    {h : Handed Group Entity} (hgenuine : Genuine handed h) :
    ∃ group, h.executable.callbackGroup = some group := by
  obtain ⟨request, -, -, hgroup, -⟩ := hgenuine
  exact ⟨request.callbackGroup, hgroup⟩

variable [DecidableEq Group]

/-- Nothing is to be done until the next call of `assign_or_create`. -/
def Quiescent (exclusive : Group → Bool) (s : PoolState Group Entity dispatchers) : Prop :=
  ∀ label s', PoolStep exclusive s label s' → label.IsCall

/-- A dispatcher always has a next step until it has returned. -/
theorem Quiescent.outside (hquiescent : Quiescent exclusive s) (d : Fin dispatchers) :
    s.dispatcher d = .outside := by
  cases hpc : s.dispatcher d with
  | outside => rfl
  | entered handed =>
      cases hidle : s.idleThreads with
      | nil => exact (hquiescent _ _ (.popNull s d handed .zero hpc hidle)).elim
      | cons w rest => exact (hquiescent _ _ (.pop s d handed w rest hpc hidle)).elim
  | popped handed w => exact (hquiescent _ _ (.write s d handed w hpc)).elim
  | written w => exact (hquiescent _ _ (.wake s d w hpc)).elim
  | woke w => exact (hquiescent _ _ (.detach s d w (.inr hpc))).elim
  | creating handed => exact (hquiescent _ _ (.create s d handed hpc)).elim
  | created w => exact (hquiescent _ _ (.detach s d w (.inl hpc))).elim

theorem Quiescent.not_executing (hquiescent : Quiescent exclusive s)
    (hslots : SlotInvariant s) (w : ℕ) : s.worker w ≠ .executing := by
  intro hpc
  obtain ⟨h, hcontent, hgenuine⟩ := hslots.loaded w (.inr hpc)
  obtain ⟨group, hgroup⟩ := hgenuine.callbackGroup
  exact hquiescent _ _ (.finish s w h group hpc hcontent hgroup)

/-- A worker always has a next step until it waits on the stack: where it needs the
mutex of its group, the worker that has it will return from its callback. -/
theorem Quiescent.workerJob (hquiescent : Quiescent exclusive s) (hslots : SlotInvariant s)
    (hmutexes : MutexInvariant exclusive s) (w : ℕ) : jobAt s (.inr w) = none := by
  rw [jobAt]
  cases hpc : s.worker w with
  | absent | executing | executed | pushing => rfl
  | started handed => exact (hquiescent _ _ (.copy s w handed hpc)).elim
  | copied => exact (hquiescent _ _ (.begin s w hpc)).elim
  | waiting =>
      by_cases hbusy : s.isBusy w = 1
      · exact (hquiescent _ _ (.pass s w hpc hbusy)).elim
      · simp [NoExecutor.workerJob, hbusy]
  | woken =>
      obtain ⟨h, hcontent, hgenuine⟩ := hslots.loaded w (by simp [Loaded, Assigned, hpc])
      obtain ⟨group, hgroup⟩ := hgenuine.callbackGroup
      have hfree : s.groupMutex group = none := by
        cases hheld : s.groupMutex group with
        | none => rfl
        | some owner =>
            exact absurd (hmutexes group owner hheld).2.1
              (hquiescent.not_executing hslots owner)
      exact (hquiescent _ _ (.execute s w h group hpc hcontent hgroup fun _ => hfree)).elim

theorem Quiescent.jobAt (hquiescent : Quiescent exclusive s) (hslots : SlotInvariant s)
    (hmutexes : MutexInvariant exclusive s) (place : Fin dispatchers ⊕ ℕ) :
    jobAt s place = none := by
  cases place with
  | inl d => simp [NoExecutor.jobAt, hquiescent.outside d, dispatcherJob]
  | inr w => exact hquiescent.workerJob hslots hmutexes w

end Quiescence

/-! ## Every job is executed once -/

section Pool

variable [DecidableEq Group] {exclusive : Group → Bool}

structure PoolInvariant (exclusive : Group → Bool) (s : PoolState Group Entity dispatchers) :
    Prop where
  places : PlaceInvariant s
  slots : SlotInvariant s
  mutexes : MutexInvariant exclusive s
  balanced : (ledger s).Balanced

omit [DecidableEq Group] in
theorem poolInvariant_initial : PoolInvariant exclusive
    (PoolState.initial : PoolState Group Entity dispatchers) where
  places := by
    constructor <;>
      simp [PoolState.initial, HasPopped, DispatcherPc.idleThread, Parked, Free]
  slots := by
    constructor <;>
      simp [PoolState.initial, DispatcherPc.carried, Loaded, Assigned]
  mutexes := by
    intro group w hheld
    cases hheld
  balanced := by
    constructor <;>
      simp [ledger, PoolState.initial, jobAt, dispatcherJob, workerJob]

theorem poolInvariant_step (s : PoolState Group Entity dispatchers)
    (label : PoolLabel Group Entity dispatchers)
    (s' : PoolState Group Entity dispatchers) (hs : PoolInvariant exclusive s)
    (hstep : PoolStep exclusive s label s') : PoolInvariant exclusive s' where
  places := placeInvariant_step s label s' hs.places hstep
  slots := slotInvariant_step s label s' hs.places hs.slots hstep
  mutexes := mutexInvariant_step s label s' hs.places hs.mutexes hstep
  balanced := (ledger_booking hs.places hs.slots hstep).balanced hs.balanced

omit [DecidableEq Group] in
theorem PoolInvariant.inOnePlace {s : PoolState Group Entity dispatchers}
    (hs : PoolInvariant exclusive s) : ∀ w < s.created, InOnePlace s w :=
  fun _ hw => hs.places.inOnePlace hw hs.slots.hasJob

/-- In every run of the pool each worker is in one place, an assigned job keeps its
slot until it starts, what is executed is the executable of a call, no call's twice,
and the run ends with every call's executed once: it has at most eleven steps for each
call, and no step is left only where every executable has been executed. -/
theorem jobs_executed_once
    {trace : List (Move (PoolState Group Entity dispatchers)
      (PoolLabel Group Entity dispatchers))}
    {finish : PoolState Group Entity dispatchers}
    (hrun : Run (PoolStep exclusive) PoolState.initial trace finish) :
    Throughout (fun s => ∀ w < s.created, InOnePlace s w) PoolState.initial trace ∧
      (∀ move ∈ trace, KeepsAssigned move.source move.target) ∧
      (∀ h ∈ finish.executions, Genuine finish.handed h) ∧
      (finish.executions.map (·.job)).Nodup ∧
      trace.length ≤ 11 * finish.handed.length ∧
      (Quiescent exclusive finish → ∀ job < finish.handed.length,
        (finish.executions.map (·.job)).count job = 1) := by
  have hmoves := hrun.moves_always poolInvariant_step poolInvariant_initial
  have hfinish := hrun.always poolInvariant_step poolInvariant_initial
  have hlength := hrun.length_le poolInvariant_step
    (fun s label s' hs hstep => step_pays hs.places hstep) poolInvariant_initial
  have hinitial : PoolInvariant exclusive
      (PoolState.initial : PoolState Group Entity dispatchers) := poolInvariant_initial
  refine ⟨⟨hinitial.inOnePlace, fun move hmove => ?_⟩, fun move hmove => ?_,
    hfinish.slots.recorded, hfinish.balanced.once, ?_, fun hquiescent job hjob => ?_⟩
  · exact (hmoves move hmove).2.2.inOnePlace
  · obtain ⟨hstep, hsource, -⟩ := hmoves move hmove
    exact step_keepsAssigned hsource.places hsource.slots hstep
  · have hzero : potential (PoolState.initial : PoolState Group Entity dispatchers) = 0 := by
      simp [potential, PoolState.initial, DispatcherPc.rank]
    omega
  · apply hfinish.balanced.count_finished (t := job) ?_ hjob
    intro place
    simp [ledger, hquiescent.jobAt hfinish.slots hfinish.mutexes place]

end Pool

/-- Two dispatchers and three jobs of one group.  A second worker is created while the first
one executes; the first one is then idle, and is popped, written and woken for the third
job, which it executes before the second worker gets to its own. -/
theorem created_worker_executes_once :
    ∃ trace finish, Run (PoolStep fun _ => true)
        (PoolState.initial : PoolState Unit Unit 2) trace finish ∧
      Throughout (fun s => ∀ w < s.created, InOnePlace s w) PoolState.initial trace ∧
      finish.idleThreads = [1, 0] ∧ finish.executions.map (·.job) = [0, 2, 1] ∧
      (Quiescent (fun _ => true) finish → ∀ job < finish.handed.length,
        (finish.executions.map (·.job)).count job = 1) := by
  let first : Handed Unit Unit := ⟨0, (Request.mk .timer () ()).executable⟩
  let second : Handed Unit Unit := ⟨1, (Request.mk .subscription () ()).executable⟩
  let third : Handed Unit Unit := ⟨2, (Request.mk .timer () ()).executable⟩
  have hrun : Run (PoolStep fun _ => true) (PoolState.initial : PoolState Unit Unit 2) _ _ :=
    .cons (.call _ 0 ⟨.timer, (), ()⟩ rfl) <|
    .cons (.popNull _ 0 first .zero rfl rfl) <|
    .cons (.create _ 0 (first.stamped .zero) rfl) <|
    .cons (.copy _ 0 (first.stamped .zero) rfl) <|
    .cons (.begin _ 0 rfl) <|
    .cons (.pass _ 0 rfl rfl) <|
    .cons (.execute _ 0 (first.stamped .zero) () rfl rfl rfl fun _ => rfl) <|
    .cons (.call _ 1 ⟨.subscription, (), ()⟩ rfl) <|
    .cons (.popNull _ 1 second .zero rfl rfl) <|
    .cons (.create _ 1 (second.stamped .zero) rfl) <|
    .cons (.detach _ 0 0 (.inl rfl)) <|
    .cons (.finish _ 0 (first.stamped .zero) () rfl rfl rfl) <|
    .cons (.clear _ 0 rfl) <|
    .cons (.push _ 0 rfl) <|
    .cons (.call _ 0 ⟨.timer, (), ()⟩ rfl) <|
    .cons (.pop _ 0 third 0 [] rfl rfl) <|
    .cons (.copy _ 1 (second.stamped .zero) rfl) <|
    .cons (.write _ 0 third 0 rfl) <|
    .cons (.wake _ 0 0 rfl) <|
    .cons (.pass _ 0 rfl rfl) <|
    .cons (.stamp _ 0 0 .zero rfl) <|
    .cons (.execute _ 0 (third.stamped .zero) () rfl rfl rfl fun _ => rfl) <|
    .cons (.begin _ 1 rfl) <|
    .cons (.pass _ 1 rfl rfl) <|
    .cons (.detach _ 1 1 (.inl rfl)) <|
    .cons (.finish _ 0 (third.stamped .zero) () rfl rfl rfl) <|
    .cons (.execute _ 1 (second.stamped .zero) () rfl rfl rfl fun _ => rfl) <|
    .cons (.clear _ 0 rfl) <|
    .cons (.push _ 0 rfl) <|
    .cons (.finish _ 1 (second.stamped .zero) () rfl rfl rfl) <|
    .cons (.clear _ 1 rfl) <|
    .cons (.push _ 1 rfl) <|
    .nil _
  obtain ⟨hplaces, -, -, -, -, hexecuted⟩ := jobs_executed_once hrun
  exact ⟨_, _, hrun, hplaces, rfl, rfl, hexecuted⟩

end RosRtems.NoExecutor
