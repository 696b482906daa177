import RosRtems.NoExecutor.DispatchTiming

/-!
# What a worker reads of the timing

A field of a slot is the one measured for its job, or it is still to be stored by the
dispatcher of the job, and the worker has not read it.  The steps keep this where a
worker reads a field after it is stored: then every value that is read was measured for
the job that is executed, and every store lands in the slot of its own job.
-/

namespace RosRtems.NoExecutor

open RosRtems.Runs PoolState

variable {Group Entity : Type*} {dispatchers : ℕ}

/-! ## The slots -/

/-- The field of the executable has the value measured for its job. -/
def Settled (s : TimedState Group Entity dispatchers) (h : Handed Group Entity)
    (field : TimingField) : Prop :=
  ∃ timing, s.measured h.job = some timing ∧
    timing.get field = h.executable.timing.get field

/-- The worker has a job in its slot that it has not begun to execute. -/
def Delivered (pool : PoolState Group Entity dispatchers) (w : ℕ) : Prop :=
  pool.worker w = .copied ∨ pool.worker w = .woken ∨
    (pool.worker w = .waiting ∧ pool.isBusy w = 1)

/-- A field that is not settled is still to be stored by the dispatcher of the job, and
the worker that it is stored for has not read it. -/
structure StampInvariant (s : TimedState Group Entity dispatchers) : Prop where
  carried : ∀ d h, (s.pool.dispatcher d).carried = some h → h.job = s.job d ∧
    ∀ field, field ∈ (s.stopwatch d).pending ∨ Settled s h field
  written : ∀ d w, s.pool.dispatcher d = .written w →
    ∃ h, s.pool.slot w = some h ∧ h.job = s.job d ∧
      ∀ field, field ∈ (s.stopwatch d).pending ∨ Settled s h field
  woke : ∀ d w, s.pool.dispatcher d = .woke w → (s.stopwatch d).pending ≠ [] →
    Delivered s.pool w ∧ (∃ h, s.pool.slot w = some h ∧ h.job = s.job d) ∧
      ∀ field ∈ (s.stopwatch d).pending, field ∈ s.unread w
  delivered : ∀ w, Delivered s.pool w → ∃ h, s.pool.slot w = some h ∧
    ∀ field, (∃ d, s.pool.dispatcher d = .woke w ∧ field ∈ (s.stopwatch d).pending) ∨
      Settled s h field
  started : ∀ w h, s.pool.worker w = .started h → ∀ field, Settled s h field
  rested : ∀ w, s.pool.worker w ≠ .woken → s.unread w = TimingField.reads

section Slots

variable {s s' : TimedState Group Entity dispatchers}

theorem Delivered.not_free {pool : PoolState Group Entity dispatchers} {w : ℕ}
    (hdelivered : Delivered pool w) : ¬ Free pool w := by
  rintro ⟨hwaiting, hbusy⟩
  rcases hdelivered with hpc | hpc | ⟨-, hone⟩
  · simp [hwaiting] at hpc
  · simp [hwaiting] at hpc
  · exact hbusy hone

theorem PlaceInvariant.not_delivered {pool : PoolState Group Entity dispatchers}
    (hs : PlaceInvariant pool) {d : Fin dispatchers} {w v : ℕ} (hpopped : HasPopped pool d w)
    (hdelivered : Delivered pool v) : v ≠ w := by
  rintro rfl
  exact hdelivered.not_free (hs.free_of_popped hpopped)

theorem Settled.mono {h : Handed Group Entity} {field : TimingField}
    (hsettled : Settled s h field)
    (hmeasured : ∀ job timing, s.measured job = some timing → s'.measured job = some timing) :
    Settled s' h field := by
  obtain ⟨timing, hresult, hfield⟩ := hsettled
  exact ⟨timing, hmeasured _ _ hresult, hfield⟩

/-- The field that is stored is settled, and the others stay so. -/
theorem Settled.stamped {h : Handed Group Entity} {field g : TimingField} {result : Timing}
    {value : ℤ} (hmeasured : s.measured h.job = some result)
    (hvalue : value = result.get field) (hsettled : g ≠ field → Settled s h g) :
    Settled s (h.stamped (h.executable.timing.set field value)) g := by
  by_cases hg : g = field
  · subst hg
    exact ⟨result, hmeasured, by simp [Handed.stamped, Executable.stamped, hvalue]⟩
  · obtain ⟨timing, hresult, hkept⟩ := hsettled hg
    refine ⟨timing, hresult, ?_⟩
    simp [Handed.stamped, Executable.stamped, get_set_of_ne _ _ hg, hkept]

/-- A step of a clock. -/
theorem StampInvariant.frame (hs : StampInvariant s) (hpool : s'.pool = s.pool)
    (hjob : s'.job = s.job)
    (hpending : ∀ d, (s'.stopwatch d).pending = (s.stopwatch d).pending)
    (hmeasured : ∀ job timing, s.measured job = some timing → s'.measured job = some timing)
    (hunread : s'.unread = s.unread) : StampInvariant s' := by
  constructor
  case carried =>
    intro d h hcarried
    rw [hpool] at hcarried
    obtain ⟨hown, hfields⟩ := hs.carried d h hcarried
    rw [hjob, hpending]
    exact ⟨hown, fun field => (hfields field).imp_right (·.mono hmeasured)⟩
  case written =>
    intro d w hpc
    rw [hpool] at hpc ⊢
    obtain ⟨h, hslot, hown, hfields⟩ := hs.written d w hpc
    rw [hjob, hpending]
    exact ⟨h, hslot, hown, fun field => (hfields field).imp_right (·.mono hmeasured)⟩
  case woke =>
    intro d w
    rw [hpool, hjob, hpending, hunread]
    exact hs.woke d w
  case delivered =>
    intro w hdelivered
    rw [hpool] at hdelivered ⊢
    obtain ⟨h, hslot, hfields⟩ := hs.delivered w hdelivered
    simp only [hpending]
    exact ⟨h, hslot, fun field => (hfields field).imp_right (·.mono hmeasured)⟩
  case started =>
    intro w h hpc field
    rw [hpool] at hpc
    exact (hs.started w h hpc field).mono hmeasured
  case rested =>
    rw [hpool, hunread]
    exact hs.rested

/-- A dispatcher that has no woken worker to store for, before and after. -/
theorem StampInvariant.dispatcher_moves (hs : StampInvariant s) {d : Fin dispatchers}
    {pc : DispatcherPc Group Entity}
    (hdispatcher : s'.pool.dispatcher = Function.update s.pool.dispatcher d pc)
    (hslot : s'.pool.slot = s.pool.slot) (hworker : s'.pool.worker = s.pool.worker)
    (hbusy : s'.pool.isBusy = s.pool.isBusy)
    (hjob : ∀ other, other ≠ d → s'.job other = s.job other)
    (hpending : ∀ other, other ≠ d → s'.stopwatch other = s.stopwatch other)
    (hmeasured : s'.measured = s.measured) (hunread : s'.unread = s.unread)
    (hcarried : ∀ h, pc.carried = some h → h.job = s'.job d ∧
      ∀ field, field ∈ (s'.stopwatch d).pending ∨ Settled s h field)
    (hwritten : ∀ w, pc ≠ .written w) (hwoke : ∀ w, pc ≠ .woke w)
    (hstored : ∀ w, s.pool.dispatcher d = .woke w → (s.stopwatch d).pending = []) :
    StampInvariant s' := by
  have hself : s'.pool.dispatcher d = pc := by
    rw [hdispatcher, Function.update_self]
  have hsame : ∀ other, other ≠ d → s'.pool.dispatcher other = s.pool.dispatcher other := by
    intro other hother
    rw [hdispatcher, Function.update_of_ne hother]
  have hdelivered : ∀ w, Delivered s'.pool w ↔ Delivered s.pool w := by
    intro w
    rw [Delivered, Delivered, hworker, hbusy]
  have hsettled : ∀ h field, Settled s' h field ↔ Settled s h field := by
    intro h field
    rw [Settled, Settled, hmeasured]
  constructor
  case carried =>
    intro other h hcarries
    simp only [hsettled]
    by_cases hother : other = d
    · subst hother
      rw [hself] at hcarries
      exact hcarried h hcarries
    · rw [hsame other hother] at hcarries
      rw [hjob other hother, hpending other hother]
      exact hs.carried other h hcarries
  case written =>
    intro other w hpc
    have hother : other ≠ d := by
      rintro rfl
      exact hwritten w (hself.symm.trans hpc)
    rw [hsame other hother] at hpc
    simp only [hsettled, hslot, hjob other hother, hpending other hother]
    exact hs.written other w hpc
  case woke =>
    intro other w hpc
    have hother : other ≠ d := by
      rintro rfl
      exact hwoke w (hself.symm.trans hpc)
    rw [hsame other hother] at hpc
    simp only [hdelivered, hslot, hjob other hother, hpending other hother, hunread]
    exact hs.woke other w hpc
  case delivered =>
    intro w hw
    obtain ⟨h, hcontent, hfields⟩ := hs.delivered w ((hdelivered w).mp hw)
    refine ⟨h, by rw [hslot, hcontent], fun field => ?_⟩
    rw [hsettled]
    refine (hfields field).imp_left ?_
    rintro ⟨other, hpc, hunstored⟩
    have hother : other ≠ d := by
      rintro rfl
      rw [hstored w hpc] at hunstored
      cases hunstored
    exact ⟨other, by rw [hsame other hother, hpc], by rwa [hpending other hother]⟩
  case started =>
    intro w h hpc field
    rw [hworker] at hpc
    rw [hsettled]
    exact hs.started w h hpc field
  case rested =>
    rw [hworker, hunread]
    exact hs.rested

/-- A field of the executable for a new worker takes the measured value. -/
theorem StampInvariant.stampCarried (hs : StampInvariant s) {d : Fin dispatchers}
    {handed : Handed Group Entity} {field : TimingField} {rest : List TimingField}
    {value : ℤ} {result : Timing} (hpc : s.pool.dispatcher d = .creating handed)
    (hstopped : s.stopwatch d = .stopped (field :: rest))
    (hmeasured : s.measured (s.job d) = some result) (hvalue : value = result.get field) :
    StampInvariant
      { s with
        pool := s.pool.moveDispatcher d
          (.creating (handed.stamped (handed.executable.timing.set field value)))
        stopwatch := Function.update s.stopwatch d (.stopped rest) } := by
  obtain ⟨hown, hfields⟩ := hs.carried d handed (by rw [hpc]; rfl)
  rw [hstopped, Stopwatch.pending] at hfields
  refine hs.dispatcher_moves rfl rfl rfl rfl (fun _ _ => rfl)
    (fun other hother => Function.update_of_ne hother _ _) rfl rfl ?_ (by simp) (by simp)
    (by simp [hpc])
  rintro h ⟨⟩
  refine ⟨hown, fun g => ?_⟩
  by_cases hg : g ∈ rest
  · exact .inl (by simpa [Stopwatch.pending] using hg)
  · refine .inr (Settled.stamped (hown ▸ hmeasured) hvalue fun hne => ?_)
    refine (hfields g).resolve_left ?_
    rw [List.mem_cons, not_or]
    exact ⟨hne, hg⟩

/-- A popped worker takes what its dispatcher has carried. -/
theorem StampInvariant.write (hs : StampInvariant s) (hplaces : PlaceInvariant s.pool)
    {d : Fin dispatchers} {handed : Handed Group Entity} {w : ℕ}
    (hpc : s.pool.dispatcher d = .popped handed w) :
    StampInvariant
      { s with pool := (s.pool.writeSlot w (some handed)).moveDispatcher d (.written w) } := by
  have hmine := hasPopped_of_popped hpc
  have hslot : ∀ v, v ≠ w →
      Function.update s.pool.slot w (some handed) v = s.pool.slot v :=
    fun v hv => Function.update_of_ne hv _ _
  have hsame : ∀ other, other ≠ d →
      Function.update s.pool.dispatcher d (.written w) other = s.pool.dispatcher other :=
    fun other hother => Function.update_of_ne hother _ _
  constructor
  case carried =>
    intro other h hcarries
    by_cases hother : other = d
    · subst hother
      simp [moveDispatcher, DispatcherPc.carried] at hcarries
    · simp only [moveDispatcher, writeSlot, hsame other hother] at hcarries
      exact hs.carried other h hcarries
  case written =>
    intro other v hwritten
    by_cases hother : other = d
    · subst hother
      obtain rfl : w = v := by simpa [moveDispatcher] using hwritten
      refine ⟨handed, by simp [moveDispatcher, writeSlot], ?_⟩
      exact hs.carried other handed (by rw [hpc]; rfl)
    · simp only [moveDispatcher, writeSlot, hsame other hother] at hwritten
      have hv : v ≠ w := by
        rintro rfl
        exact hother (hplaces.single d other v hmine (hasPopped_of_written hwritten))
      obtain ⟨h, hcontent, hrest⟩ := hs.written other v hwritten
      exact ⟨h, (hslot v hv).trans hcontent, hrest⟩
  case woke =>
    intro other v hwoke hunstored
    have hother : other ≠ d := by
      rintro rfl
      simp [moveDispatcher] at hwoke
    simp only [moveDispatcher, writeSlot, hsame other hother] at hwoke
    obtain ⟨hdelivered, ⟨h, hcontent, hown⟩, hunread⟩ := hs.woke other v hwoke hunstored
    have hv := hplaces.not_delivered hmine hdelivered
    exact ⟨hdelivered, ⟨h, (hslot v hv).trans hcontent, hown⟩, hunread⟩
  case delivered =>
    intro v hdelivered
    have hv := hplaces.not_delivered hmine hdelivered
    obtain ⟨h, hcontent, hfields⟩ := hs.delivered v hdelivered
    refine ⟨h, (hslot v hv).trans hcontent, fun field => (hfields field).imp_left ?_⟩
    rintro ⟨other, hwoke, hunstored⟩
    have hother : other ≠ d := by
      rintro rfl
      simp [hpc] at hwoke
    exact ⟨other, (hsame other hother).trans hwoke, hunstored⟩
  case started => exact hs.started
  case rested => exact hs.rested

/-- A worker that is woken has read nothing of what its dispatcher has not stored. -/
theorem StampInvariant.wake (hs : StampInvariant s) (hplaces : PlaceInvariant s.pool)
    {d : Fin dispatchers} {w : ℕ} (hpc : s.pool.dispatcher d = .written w) :
    StampInvariant { s with pool := (s.pool.setBusy w 1).moveDispatcher d (.woke w) } := by
  have hfree := hplaces.free_of_popped (hasPopped_of_written hpc)
  have hsame : ∀ other, other ≠ d →
      Function.update s.pool.dispatcher d (.woke w) other = s.pool.dispatcher other :=
    fun other hother => Function.update_of_ne hother _ _
  have hbefore : ∀ v, v ≠ w → Delivered ((s.pool.setBusy w 1).moveDispatcher d (.woke w)) v →
      Delivered s.pool v := by
    intro v hv
    simp [Delivered, moveDispatcher, setBusy, hv]
  obtain ⟨h, hcontent, hown, hfields⟩ := hs.written d w hpc
  constructor
  case carried =>
    intro other h' hcarries
    by_cases hother : other = d
    · subst hother
      simp [moveDispatcher, DispatcherPc.carried] at hcarries
    · simp only [moveDispatcher, setBusy, hsame other hother] at hcarries
      exact hs.carried other h' hcarries
  case written =>
    intro other v hwritten
    by_cases hother : other = d
    · subst hother
      simp [moveDispatcher] at hwritten
    · simp only [moveDispatcher, setBusy, hsame other hother] at hwritten
      exact hs.written other v hwritten
  case woke =>
    intro other v hwoke hunstored
    by_cases hother : other = d
    · subst hother
      obtain rfl : w = v := by simpa [moveDispatcher] using hwoke
      refine ⟨.inr (.inr ⟨hfree.1, Function.update_self ..⟩), ⟨h, hcontent, hown⟩, ?_⟩
      intro field _
      simp [hs.rested w (by simp [hfree.1])]
    · simp only [moveDispatcher, setBusy, hsame other hother] at hwoke
      obtain ⟨hdelivered, hrest⟩ := hs.woke other v hwoke hunstored
      have hv : v ≠ w := hplaces.not_delivered (hasPopped_of_written hpc) hdelivered
      refine ⟨?_, hrest⟩
      simpa [Delivered, moveDispatcher, setBusy, hv] using hdelivered
  case delivered =>
    intro v hdelivered
    by_cases hv : v = w
    · subst hv
      refine ⟨h, hcontent, fun field => (hfields field).imp_left fun hunstored => ?_⟩
      exact ⟨d, Function.update_self .., hunstored⟩
    · obtain ⟨h', hcontent', hfields'⟩ := hs.delivered v (hbefore v hv hdelivered)
      refine ⟨h', hcontent', fun field => (hfields' field).imp_left ?_⟩
      rintro ⟨other, hwoke, hunstored⟩
      have hother : other ≠ d := by
        rintro rfl
        simp [hpc] at hwoke
      exact ⟨other, (hsame other hother).trans hwoke, hunstored⟩
  case started => exact hs.started
  case rested => exact hs.rested

/-- A new worker starts with an executable that has been stamped. -/
theorem StampInvariant.create (hs : StampInvariant s) (hplaces : PlaceInvariant s.pool)
    {d : Fin dispatchers} {handed : Handed Group Entity}
    (hpc : s.pool.dispatcher d = .creating handed) (hstored : (s.stopwatch d).pending = []) :
    StampInvariant
      { s with pool :=
          { (s.pool.moveWorker s.pool.created (.started handed)).moveDispatcher d
            (.created s.pool.created) with created := s.pool.created + 1 } } := by
  have hnew := (hplaces.absent s.pool.created).mpr le_rfl
  have hsame : ∀ other, other ≠ d →
      Function.update s.pool.dispatcher d (.created s.pool.created) other =
        s.pool.dispatcher other :=
    fun other hother => Function.update_of_ne hother _ _
  have hold : ∀ v, v ≠ s.pool.created →
      Function.update s.pool.worker s.pool.created (.started handed) v = s.pool.worker v :=
    fun v hv => Function.update_of_ne hv _ _
  have hnone : ∀ v, Delivered s.pool v → v ≠ s.pool.created := by
    rintro v hdelivered rfl
    simp [Delivered, hnew] at hdelivered
  constructor
  case carried =>
    intro other h hcarries
    by_cases hother : other = d
    · subst hother
      simp [moveDispatcher, DispatcherPc.carried] at hcarries
    · simp only [moveDispatcher, moveWorker, hsame other hother] at hcarries
      exact hs.carried other h hcarries
  case written =>
    intro other v hwritten
    by_cases hother : other = d
    · subst hother
      simp [moveDispatcher] at hwritten
    · simp only [moveDispatcher, moveWorker, hsame other hother] at hwritten
      exact hs.written other v hwritten
  case woke =>
    intro other v hwoke hunstored
    by_cases hother : other = d
    · subst hother
      simp [moveDispatcher] at hwoke
    · simp only [moveDispatcher, moveWorker, hsame other hother] at hwoke
      obtain ⟨hdelivered, hrest⟩ := hs.woke other v hwoke hunstored
      refine ⟨?_, hrest⟩
      simpa [Delivered, moveDispatcher, moveWorker, hnone v hdelivered] using hdelivered
  case delivered =>
    intro v hdelivered
    have hv : v ≠ s.pool.created := by
      rintro rfl
      simp [Delivered, moveDispatcher, moveWorker] at hdelivered
    have hbefore : Delivered s.pool v := by
      simpa [Delivered, moveDispatcher, moveWorker, hv] using hdelivered
    obtain ⟨h, hcontent, hfields⟩ := hs.delivered v hbefore
    refine ⟨h, hcontent, fun field => (hfields field).imp_left ?_⟩
    rintro ⟨other, hwoke, hunstored⟩
    have hother : other ≠ d := by
      rintro rfl
      simp [hpc] at hwoke
    exact ⟨other, (hsame other hother).trans hwoke, hunstored⟩
  case started =>
    intro v h hstarted field
    by_cases hv : v = s.pool.created
    · subst hv
      obtain rfl : handed = h := by simpa [moveDispatcher, moveWorker] using hstarted
      obtain ⟨-, hfields⟩ := hs.carried d handed (by rw [hpc]; rfl)
      have hsettled : Settled s handed field := by simpa [hstored] using hfields field
      exact hsettled
    · simp only [moveDispatcher, moveWorker, hold v hv] at hstarted
      exact hs.started v h hstarted field
  case rested =>
    intro v hv
    by_cases hcreated : v = s.pool.created
    · subst hcreated
      exact hs.rested _ (by simp [hnew])
    · simp only [moveDispatcher, moveWorker, hold v hcreated] at hv
      exact hs.rested v hv

section Store

variable {d : Fin dispatchers} {w : ℕ} {field : TimingField} {rest : List TimingField}
  {value : ℤ} {stopwatch : Stopwatch}

theorem storeField_slot_of_ne {v : ℕ} (hv : v ≠ w) :
    (s.storeField d w field value stopwatch).pool.slot v = s.pool.slot v :=
  Function.update_of_ne hv _ _

variable (d w field value stopwatch) in
/-- A store leaves every slot with its job. -/
theorem storeField_slot {v : ℕ} {h : Handed Group Entity}
    (hcontent : s.pool.slot v = some h) : ∃ after : Handed Group Entity,
      (s.storeField d w field value stopwatch).pool.slot v = some after ∧
        after.job = h.job := by
  by_cases hv : v = w
  · subst hv
    exact ⟨h.stamped (h.executable.timing.set field value),
      by simp [TimedState.storeField, writeSlot, hcontent], rfl⟩
  · exact ⟨h, (storeField_slot_of_ne hv).trans hcontent, rfl⟩

theorem storeField_stopwatch_of_ne {other : Fin dispatchers} (hother : other ≠ d) :
    (s.storeField d w field value stopwatch).stopwatch other = s.stopwatch other :=
  Function.update_of_ne hother _ _

theorem storeField_stopwatch_self :
    (s.storeField d w field value stopwatch).stopwatch d = stopwatch :=
  Function.update_self ..

/-- The dispatchers that have woken a worker still have its job and what it has not
read. -/
theorem StampInvariant.woke_store (hs : StampInvariant s)
    (hpending : (s.stopwatch d).pending = field :: rest) (hafter : stopwatch.pending = rest)
    (other : Fin dispatchers) (v : ℕ) (hwoke : s.pool.dispatcher other = .woke v)
    (hunstored : ((s.storeField d w field value stopwatch).stopwatch other).pending ≠ []) :
    Delivered s.pool v ∧
      (∃ h, (s.storeField d w field value stopwatch).pool.slot v = some h ∧
        h.job = s.job other) ∧
      ∀ g ∈ ((s.storeField d w field value stopwatch).stopwatch other).pending,
        g ∈ s.unread v := by
  have hsubset : ∀ g ∈ ((s.storeField d w field value stopwatch).stopwatch other).pending,
      g ∈ (s.stopwatch other).pending := by
    intro g hg
    by_cases hother : other = d
    · subst hother
      rw [storeField_stopwatch_self, hafter] at hg
      rw [hpending]
      exact List.mem_cons_of_mem field hg
    · rwa [storeField_stopwatch_of_ne hother] at hg
  have hbefore : (s.stopwatch other).pending ≠ [] := by
    obtain ⟨g, hg⟩ := List.exists_mem_of_ne_nil _ hunstored
    exact List.ne_nil_of_mem (hsubset g hg)
  obtain ⟨hdelivered, ⟨h, hcontent, hown⟩, hunread⟩ := hs.woke other v hwoke hbefore
  obtain ⟨after, hstored, hsame⟩ := storeField_slot d w field value stopwatch hcontent
  exact ⟨hdelivered, ⟨after, hstored, hsame.trans hown⟩,
    fun g hg => hunread g (hsubset g hg)⟩

/-- Every slot of a worker that has been woken has its fields settled or pending. -/
theorem StampInvariant.delivered_store (hs : StampInvariant s) {result : Timing}
    (hpc : s.pool.dispatcher d = .woke w)
    (hpending : (s.stopwatch d).pending = field :: rest) (hafter : stopwatch.pending = rest)
    (hmeasured : s.measured (s.job d) = some result) (hvalue : value = result.get field)
    (v : ℕ) (hdelivered : Delivered s.pool v) :
    ∃ h, (s.storeField d w field value stopwatch).pool.slot v = some h ∧
      ∀ g, (∃ other, s.pool.dispatcher other = .woke v ∧
        g ∈ ((s.storeField d w field value stopwatch).stopwatch other).pending) ∨
          Settled s h g := by
  obtain ⟨h, hcontent, hfields⟩ := hs.delivered v hdelivered
  by_cases hv : v = w
  · subst hv
    obtain ⟨-, ⟨h', hcontent', hown⟩, -⟩ := hs.woke d v hpc (by rw [hpending]; simp)
    obtain rfl : h = h' := by simpa [hcontent] using hcontent'
    refine ⟨h.stamped (h.executable.timing.set field value),
      by simp [TimedState.storeField, writeSlot, hcontent], fun g => ?_⟩
    by_cases hother : ∃ other, s.pool.dispatcher other = .woke v ∧
        g ∈ ((s.storeField d v field value stopwatch).stopwatch other).pending
    · exact .inl hother
    · refine .inr (Settled.stamped (hown ▸ hmeasured) hvalue fun hg => ?_)
      refine (hfields g).resolve_left ?_
      rintro ⟨other, hwoke, hunstored⟩
      refine hother ⟨other, hwoke, ?_⟩
      by_cases hd : other = d
      · subst hd
        rw [hpending] at hunstored
        rw [storeField_stopwatch_self, hafter]
        exact List.mem_of_ne_of_mem hg hunstored
      · rwa [storeField_stopwatch_of_ne hd]
  · refine ⟨h, (storeField_slot_of_ne hv).trans hcontent, fun g => (hfields g).imp_left ?_⟩
    rintro ⟨other, hwoke, hunstored⟩
    have hother : other ≠ d := by
      rintro rfl
      rw [hpc] at hwoke
      cases hwoke
      exact hv rfl
    exact ⟨other, hwoke, by rwa [storeField_stopwatch_of_ne hother]⟩

/-- A store of the measured value lands in the slot of its own job. -/
theorem StampInvariant.store (hs : StampInvariant s) (hplaces : PlaceInvariant s.pool)
    {result : Timing} (hpc : s.pool.dispatcher d = .woke w)
    (hpending : (s.stopwatch d).pending = field :: rest) (hafter : stopwatch.pending = rest)
    (hmeasured : s.measured (s.job d) = some result) (hvalue : value = result.get field) :
    StampInvariant (s.storeField d w field value stopwatch) := by
  obtain ⟨hdelivered, -, -⟩ := hs.woke d w hpc (by rw [hpending]; simp)
  constructor
  case carried =>
    intro other h hcarries
    have hother : other ≠ d := by
      rintro rfl
      simp [TimedState.storeField, writeSlot, hpc, DispatcherPc.carried] at hcarries
    rw [storeField_stopwatch_of_ne hother]
    exact hs.carried other h hcarries
  case written =>
    intro other v hwritten
    have hother : other ≠ d := by
      rintro rfl
      simp [TimedState.storeField, writeSlot, hpc] at hwritten
    have hv : w ≠ v := hplaces.not_delivered (hasPopped_of_written hwritten) hdelivered
    obtain ⟨h, hcontent, hrest⟩ := hs.written other v hwritten
    rw [storeField_stopwatch_of_ne hother]
    exact ⟨h, (storeField_slot_of_ne hv.symm).trans hcontent, hrest⟩
  case woke => exact hs.woke_store hpending hafter
  case delivered => exact hs.delivered_store hpc hpending hafter hmeasured hvalue
  case started => exact hs.started
  case rested => exact hs.rested

end Store

/-- A read of a field that is stored. -/
theorem StampInvariant.read (hs : StampInvariant s) {w : ℕ} {field : TimingField}
    {rest : List TimingField} {reports : List Report} (hpc : s.pool.worker w = .woken)
    (hunread : s.unread w = field :: rest)
    (hstored : ∀ d, s.pool.dispatcher d = .woke w → field ∉ (s.stopwatch d).pending) :
    StampInvariant
      { s with unread := Function.update s.unread w rest, reports := reports } := by
  constructor
  case carried => exact hs.carried
  case written => exact hs.written
  case woke =>
    intro d v hwoke hunstored
    obtain ⟨hdelivered, hcontent, hfields⟩ := hs.woke d v hwoke hunstored
    refine ⟨hdelivered, hcontent, fun g hg => ?_⟩
    by_cases hv : v = w
    · subst hv
      have hmem := hfields g hg
      have hother : g ≠ field := by
        rintro rfl
        exact hstored d hwoke hg
      simpa [hunread, hother] using hmem
    · simpa only [Function.update_of_ne hv] using hfields g hg
  case delivered => exact hs.delivered
  case started => exact hs.started
  case rested =>
    intro v hv
    have hother : v ≠ w := by
      rintro rfl
      exact hv hpc
    simpa only [Function.update_of_ne hother] using hs.rested v hv

section Moves

variable [DecidableEq Group] {exclusive : Group → Bool}
variable {pool pool' : PoolState Group Entity dispatchers}

/-- What a step of a dispatcher leaves alone. -/
theorem dispatcher_step {d : Fin dispatchers}
    (hstep : PoolStep exclusive pool (.dispatcher d) pool') :
    pool.dispatcher d ≠ .outside ∧ pool'.handed = pool.handed ∧
      ∃ pc, pool'.dispatcher = Function.update pool.dispatcher d pc := by
  cases hstep with
  | pop _ handed w rest hpc hidle => exact ⟨by simp [hpc], rfl, _, rfl⟩
  | popNull _ handed timing hpc hidle => exact ⟨by simp [hpc], rfl, _, rfl⟩
  | write _ handed w hpc => exact ⟨by simp [hpc], rfl, _, rfl⟩
  | wake _ w hpc => exact ⟨by simp [hpc], rfl, _, rfl⟩
  | stamp _ w timing hpc => exact ⟨by simp [hpc], rfl, _, rfl⟩
  | create _ handed hpc => exact ⟨by simp [hpc], rfl, _, rfl⟩
  | detach _ w hpc =>
      refine ⟨?_, rfl, _, rfl⟩
      rcases hpc with hpc | hpc <;> simp [hpc]

/-- What a step of a worker does to the jobs in the slots. -/
structure WorkerMove (pool pool' : PoolState Group Entity dispatchers) (w : ℕ) : Prop where
  dispatcher : pool'.dispatcher = pool.dispatcher
  handed : pool'.handed = pool.handed
  moves : ¬ Free pool w
  others : ∀ v, v ≠ w → pool'.worker v = pool.worker v ∧
    pool'.isBusy v = pool.isBusy v ∧ pool'.slot v = pool.slot v
  begun : ∀ h, pool'.worker w ≠ .started h
  stays : Delivered pool w → pool.worker w = .woken ∨
    (Delivered pool' w ∧ pool'.slot w = pool.slot w)
  arrives : Delivered pool' w → (Delivered pool w ∧ pool'.slot w = pool.slot w) ∨
    ∃ h, pool.worker w = .started h ∧ pool'.slot w = some h

theorem worker_step {w : ℕ} (hplaces : PlaceInvariant pool)
    (hstep : PoolStep exclusive pool (.worker w) pool') : WorkerMove pool pool' w := by
  cases hstep with
  | copy _ handed hpc =>
      constructor <;>
        simp +contextual [moveWorker, writeSlot, Free, Delivered, hpc]
  | begin _ hpc =>
      constructor <;> simp +contextual [moveWorker, setBusy, Free, Delivered, hpc]
  | pass _ hpc hbusy =>
      constructor <;> simp +contextual [moveWorker, Free, Delivered, hpc, hbusy]
  | execute _ handed group hpc hslot hgroup hmutex =>
      constructor <;> simp +contextual [moveWorker, lockGroup, Free, Delivered, hpc]
  | finish _ handed group hpc hslot hgroup =>
      constructor
      case others =>
        exact fun v hv => ⟨Function.update_of_ne hv _ _, rfl,
          unlockGroup_slot exclusive hv group⟩
      all_goals simp [moveWorker, unlockGroup, Free, Delivered, hpc]
  | clear _ hpc =>
      constructor <;> simp +contextual [moveWorker, setBusy, Free, Delivered, hpc]
  | push _ hpc =>
      have hcleared := hplaces.cleared w hpc
      constructor <;> simp +contextual [moveWorker, Free, Delivered, hpc, hcleared]

/-- A worker begins to execute when it has read all fields. -/
theorem StampInvariant.work (hs : StampInvariant s) (hplaces : PlaceInvariant s.pool)
    {w : ℕ} (hstep : PoolStep exclusive s.pool (.worker w) pool)
    (hread : s.pool.worker w = .woken → s.unread w = []) :
    StampInvariant
      { s with pool := pool, unread := Function.update s.unread w TimingField.reads } := by
  have hmove := worker_step hplaces hstep
  have hdelivered : ∀ v, v ≠ w → (Delivered pool v ↔ Delivered s.pool v) := by
    intro v hv
    obtain ⟨hworker, hbusy, -⟩ := hmove.others v hv
    rw [Delivered, Delivered, hworker, hbusy]
  constructor
  case carried =>
    intro d h hcarries
    simp only [hmove.dispatcher] at hcarries
    exact hs.carried d h hcarries
  case written =>
    intro d v hwritten
    simp only [hmove.dispatcher] at hwritten
    have hv : v ≠ w := by
      rintro rfl
      exact hmove.moves (hplaces.free_of_popped (hasPopped_of_written hwritten))
    simp only [(hmove.others v hv).2.2]
    exact hs.written d v hwritten
  case woke =>
    intro d v hwoke hunstored
    simp only [hmove.dispatcher] at hwoke
    obtain ⟨hbefore, hcontent, hunread⟩ := hs.woke d v hwoke hunstored
    by_cases hv : v = w
    · subst hv
      rcases hmove.stays hbefore with hwoken | ⟨hafter, hslot⟩
      · obtain ⟨field, hfield⟩ := List.exists_mem_of_ne_nil _ hunstored
        have hnone := hunread field hfield
        rw [hread hwoken] at hnone
        cases hnone
      · exact ⟨hafter, by simpa only [hslot] using hcontent, by simp⟩
    · obtain ⟨-, -, hslot⟩ := hmove.others v hv
      exact ⟨(hdelivered v hv).mpr hbefore, by simpa only [hslot] using hcontent,
        by simpa only [Function.update_of_ne hv] using hunread⟩
  case delivered =>
    intro v hafter
    simp only [hmove.dispatcher]
    by_cases hv : v = w
    · subst hv
      rcases hmove.arrives hafter with ⟨hbefore, hslot⟩ | ⟨h, hstarted, hslot⟩
      · simp only [hslot]
        exact hs.delivered v hbefore
      · exact ⟨h, hslot, fun field => .inr (hs.started v h hstarted field)⟩
    · simp only [(hmove.others v hv).2.2]
      exact hs.delivered v ((hdelivered v hv).mp hafter)
  case started =>
    intro v h hstarted
    have hv : v ≠ w := by
      rintro rfl
      exact hmove.begun h hstarted
    exact hs.started v h ((hmove.others v hv).1.symm.trans hstarted)
  case rested =>
    intro v hwoken
    by_cases hv : v = w
    · subst hv
      simp
    · simp only [Function.update_of_ne hv, (hmove.others v hv).1] at hwoken ⊢
      exact hs.rested v hwoken

/-- A dispatcher returns, or hands its executable to a new thread, when it has stored
all fields. -/
theorem StampInvariant.dispatch (hs : StampInvariant s) (hplaces : PlaceInvariant s.pool)
    {d : Fin dispatchers} (hstep : PoolStep exclusive s.pool (.dispatcher d) pool)
    (hunstamped : Unstamped s.pool pool d)
    (hstored : (s.pool.dispatcher d).Measures → (s.stopwatch d).pending = []) :
    StampInvariant { s with pool := pool } := by
  have hwoken : ∀ w, s.pool.dispatcher d = .woke w → (s.stopwatch d).pending = [] := by
    intro w hpc
    exact hstored (by rw [hpc]; trivial)
  cases hstep with
  | pop _ handed w rest hpc hidle =>
      refine hs.dispatcher_moves rfl rfl rfl rfl (fun _ _ => rfl) (fun _ _ => rfl) rfl rfl
        (fun h hcarries => ?_) (by simp) (by simp) hwoken
      exact hs.carried d h (by rw [hpc]; exact hcarries)
  | popNull _ handed timing hpc hidle =>
      refine hs.dispatcher_moves rfl rfl rfl rfl (fun _ _ => rfl) (fun _ _ => rfl) rfl rfl
        (fun h hcarries => ?_) (by simp) (by simp) hwoken
      apply hs.carried d h
      apply hunstamped.1 h
      simpa only [moveDispatcher, Function.update_self] using hcarries
  | write _ handed w hpc => exact hs.write hplaces hpc
  | wake _ w hpc => exact hs.wake hplaces hpc
  | stamp _ w timing hpc =>
      have hslot : Function.update s.pool.slot w ((s.pool.slot w).map (·.stamped timing)) =
          s.pool.slot := by
        rw [Function.update_eq_self_iff]
        cases hcontent : s.pool.slot w with
        | none => rfl
        | some h =>
            rcases hunstamped.2 w (h.stamped timing)
              (by simp [moveDispatcher, writeSlot, hcontent]) with hkept | hcarried
            · rw [Option.map_some, ← hkept, hcontent]
            · simp [hpc, DispatcherPc.carried] at hcarried
      exact hs.dispatcher_moves rfl hslot rfl rfl (fun _ _ => rfl) (fun _ _ => rfl) rfl rfl
        (by simp [DispatcherPc.carried]) (by simp) (by simp) hwoken
  | create _ handed hpc => exact hs.create hplaces hpc (hstored (by rw [hpc]; trivial))
  | detach _ w hpc =>
      exact hs.dispatcher_moves rfl rfl rfl rfl (fun _ _ => rfl) (fun _ _ => rfl) rfl rfl
        (by simp [DispatcherPc.carried]) (by simp) (by simp) hwoken

end Moves

end Slots

/-! ## Every value that is read is the one measured -/

section Runs

variable {thread : Fin dispatchers → ℕ}

structure TimedInvariant (thread : Fin dispatchers → ℕ)
    (s : TimedState Group Entity dispatchers) : Prop where
  places : PlaceInvariant s.pool
  clocks : ClockInvariant thread s
  stamps : StampInvariant s
  timings : TimingsMatch s

theorem TimingsMatch.mono {s s' : TimedState Group Entity dispatchers}
    (hs : TimingsMatch s)
    (hmeasured : ∀ job timing, s.measured job = some timing → s'.measured job = some timing)
    (hreports : s'.reports = s.reports) (hstores : s'.stores = s.stores) :
    TimingsMatch s' where
  reported := by
    intro r hr
    rw [hreports] at hr
    obtain ⟨timing, hresult, hvalue⟩ := hs.reported r hr
    exact ⟨timing, hmeasured _ _ hresult, hvalue⟩
  landed := by
    rw [hstores]
    exact hs.landed

/-- The slots and the flags of the workers have no part in the places but for the
workers that wait. -/
theorem PlaceInvariant.writeSlot {pool : PoolState Group Entity dispatchers}
    (hs : PlaceInvariant pool) (w : ℕ) (slot : Option (Handed Group Entity)) :
    PlaceInvariant (pool.writeSlot w slot) :=
  hs.frame rfl (fun _ => rfl) (fun _ => Iff.rfl) hs.cleared hs.absent

theorem timedInvariant_initial : TimedInvariant thread
    (TimedState.initial : TimedState Group Entity dispatchers) where
  places := by
    have hinitial : PoolInvariant (fun _ => true)
        (PoolState.initial : PoolState Group Entity dispatchers) := poolInvariant_initial
    exact hinitial.places
  clocks := by
    constructor <;> simp [TimedState.initial, PoolState.initial, Measuring]
  stamps := by
    constructor <;>
      simp [TimedState.initial, PoolState.initial, Delivered, DispatcherPc.carried]
  timings := by
    constructor <;> simp [TimedState.initial]

/-- T3 of a job is taken once. -/
theorem ClockInvariant.measured_mono {s : TimedState Group Entity dispatchers}
    (hs : ClockInvariant thread s) {d : Fin dispatchers} (result : Timing)
    (hpc : s.pool.dispatcher d ≠ .outside) (hrunning : s.stopwatch d = .running) :
    ∀ job timing, s.measured job = some timing →
      Function.update s.measured (s.job d) (some result) job = some timing := by
  intro job timing hresult
  have hnone : s.measured (s.job d) = none := by
    rw [hs.result d hpc, hrunning, Stopwatch.result]
  have hother : job ≠ s.job d := by
    rintro rfl
    rw [hnone] at hresult
    cases hresult
  rw [Function.update_of_ne hother, hresult]

/-- What is stored is what was measured. -/
theorem ClockInvariant.storedValue {s : TimedState Group Entity dispatchers}
    (hs : ClockInvariant thread s) {d : Fin dispatchers} {dispatchDur assignDur : UInt64}
    {field : TimingField} {rest : List TimingField} (hpc : s.pool.dispatcher d ≠ .outside)
    (hcomputed : s.stopwatch d = .computed dispatchDur assignDur (field :: rest)) :
    storedValue (s.threadLocals (thread d)) dispatchDur assignDur field =
      (s.times d).timing.get field := by
  have hagrees := hs.agrees d hpc
  rw [hcomputed] at hagrees
  obtain ⟨rfl, rfl⟩ := hagrees
  cases field with
  | dispatchDoneNs =>
      have hlocals := hs.locals d ⟨hpc, by simp [hcomputed, Stopwatch.ReadsLocals]⟩
      rw [NoExecutor.storedValue, hlocals]
      rfl
  | dispatchDurNs | assignDurNs => rfl

/-- What a call has measured from T3 on. -/
theorem ClockInvariant.result_of_ne {s : TimedState Group Entity dispatchers}
    (hs : ClockInvariant thread s) {d : Fin dispatchers}
    (hpc : s.pool.dispatcher d ≠ .outside) (hrunning : s.stopwatch d ≠ .running) :
    s.measured (s.job d) = some (s.times d).timing := by
  rw [hs.result d hpc]
  cases hstopwatch : s.stopwatch d with
  | running => exact absurd hstopwatch hrunning
  | stopped unstored | assigned assignDur | computed dispatchDur assignDur unstored => rfl

section Steps

variable [DecidableEq Group] {exclusive : Group → Bool}
variable {s : TimedState Group Entity dispatchers} {d : Fin dispatchers} {w : ℕ}

omit [DecidableEq Group] in
theorem TimedInvariant.signal (hs : TimedInvariant thread s) {t : ℕ} (now : UInt64)
    (hfree : ∀ d, thread d = t → ¬ Measuring s d) :
    TimedInvariant thread
      { s with
        threadLocals := Function.update s.threadLocals t
          { s.threadLocals t with t0 := now } } where
  places := hs.places
  clocks := by
    refine hs.clocks.frame (fun _ h => h) (fun _ h => h) rfl rfl rfl rfl (fun d hd => ?_)
      (fun _ => rfl) hs.clocks.agrees
    exact Function.update_of_ne (fun hsame => hfree d hsame hd) _ _
  stamps := hs.stamps.frame rfl rfl (fun _ => rfl) (fun _ _ h => h) rfl
  timings := hs.timings.mono (fun _ _ h => h) rfl rfl

theorem TimedInvariant.call (hs : TimedInvariant thread s) {request : Request Group Entity}
    {pool : PoolState Group Entity dispatchers} (now : UInt64)
    (hstep : PoolStep exclusive s.pool (.call d request) pool)
    (hfree : ∀ other, thread other = thread d → ¬ Measuring s other) :
    TimedInvariant thread
      { s with
        pool := pool
        threadLocals := Function.update s.threadLocals (thread d)
          { s.threadLocals (thread d) with t1 := now }
        job := Function.update s.job d s.pool.handed.length
        times := Function.update s.times d { s.threadLocals (thread d) with t1 := now }
        stopwatch := Function.update s.stopwatch d .running } := by
  have hplaces := placeInvariant_step _ _ _ hs.places hstep
  cases hstep with
  | call _ _ hpc =>
      refine ⟨hplaces, hs.clocks.call hfree rfl rfl, ?_,
        hs.timings.mono (fun _ _ h => h) rfl rfl⟩
      refine hs.stamps.dispatcher_moves rfl rfl rfl rfl
        (fun other hother => Function.update_of_ne hother _ _)
        (fun other hother => Function.update_of_ne hother _ _) rfl rfl ?_ (by simp)
        (by simp) (by simp [hpc])
      rintro h ⟨⟩
      simp [Stopwatch.pending]

theorem TimedInvariant.dispatch (hs : TimedInvariant thread s)
    {pool : PoolState Group Entity dispatchers}
    (hstep : PoolStep exclusive s.pool (.dispatcher d) pool)
    (hunstamped : Unstamped s.pool pool d)
    (hstored : (s.pool.dispatcher d).Measures → (s.stopwatch d).pending = []) :
    TimedInvariant thread { s with pool := pool } where
  places := placeInvariant_step _ _ _ hs.places hstep
  clocks := by
    obtain ⟨hpc, hhanded, pc, hdispatcher⟩ := dispatcher_step hstep
    have hactive : ∀ other, pool.dispatcher other ≠ .outside →
        s.pool.dispatcher other ≠ .outside := by
      intro other hother
      by_cases hd : other = d
      · rw [hd]
        exact hpc
      · rwa [hdispatcher, Function.update_of_ne hd] at hother
    exact hs.clocks.frame hactive (fun other h => ⟨hactive other h.1, h.2⟩) hhanded rfl rfl
      rfl (fun _ _ => rfl) (fun _ => rfl) hs.clocks.agrees
  stamps := hs.stamps.dispatch hs.places hstep hunstamped hstored
  timings := hs.timings.mono (fun _ _ h => h) rfl rfl

omit [DecidableEq Group] in
theorem TimedInvariant.measure (hs : TimedInvariant thread s) (now : UInt64)
    (hpc : (s.pool.dispatcher d).Measures) (hrunning : s.stopwatch d = .running) :
    TimedInvariant thread
      { s with
        threadLocals := Function.update s.threadLocals (thread d)
          { s.threadLocals (thread d) with t3 := now }
        times := Function.update s.times d { s.times d with t3 := now }
        stopwatch := Function.update s.stopwatch d (.stopped TimingField.all)
        measured := Function.update s.measured (s.job d)
          (some (Times.timing { s.times d with t3 := now })) } := by
  have hmono := hs.clocks.measured_mono (Times.timing { s.times d with t3 := now })
    hpc.ne_outside hrunning
  refine ⟨hs.places, hs.clocks.measure now hpc.ne_outside hrunning, ?_,
    hs.timings.mono hmono rfl rfl⟩
  refine hs.stamps.frame rfl rfl (fun other => ?_) hmono rfl
  by_cases hother : other = d
  · subst hother
    simp [hrunning, Stopwatch.pending]
  · simp [hother]

omit [DecidableEq Group] in
/-- A dispatcher that has woken its worker keeps a duration in a variable of its own. -/
theorem TimedInvariant.keeps (hs : TimedInvariant thread s) {stopwatch : Stopwatch}
    (hpc : s.pool.dispatcher d ≠ .outside)
    (hresult : stopwatch.result = (s.stopwatch d).result)
    (hpending : stopwatch.pending = (s.stopwatch d).pending)
    (hreads : (s.stopwatch d).ReadsLocals) (hagrees : stopwatch.Agrees (s.times d)) :
    TimedInvariant thread
      { s with stopwatch := Function.update s.stopwatch d stopwatch } where
  places := hs.places
  clocks := hs.clocks.stopwatch_moves hpc rfl (fun _ => Iff.rfl) rfl rfl rfl rfl rfl hresult
    (fun _ => hreads) hagrees
  stamps := by
    refine hs.stamps.frame rfl rfl (fun other => ?_) (fun _ _ h => h) rfl
    by_cases hother : other = d
    · subst hother
      simp [hpending]
    · simp [hother]
  timings := hs.timings.mono (fun _ _ h => h) rfl rfl

omit [DecidableEq Group] in
theorem TimedInvariant.assign (hs : TimedInvariant thread s)
    (hpc : s.pool.dispatcher d = .woke w)
    (hstopped : s.stopwatch d = .stopped TimingField.all) :
    TimedInvariant thread
      { s with
        stopwatch := Function.update s.stopwatch d
          (.assigned (s.threadLocals (thread d)).assignDur) } := by
  have hactive : s.pool.dispatcher d ≠ .outside := by simp [hpc]
  have hreads : (s.stopwatch d).ReadsLocals := by
    simp [hstopped, Stopwatch.ReadsLocals, TimingField.all]
  refine hs.keeps hactive (by rw [hstopped]; rfl) (by rw [hstopped]; rfl) hreads ?_
  rw [hs.clocks.locals d ⟨hactive, hreads⟩]
  rfl

omit [DecidableEq Group] in
theorem TimedInvariant.compute (hs : TimedInvariant thread s) {assignDur : UInt64}
    (hpc : s.pool.dispatcher d = .woke w) (hassigned : s.stopwatch d = .assigned assignDur) :
    TimedInvariant thread
      { s with
        stopwatch := Function.update s.stopwatch d
          (.computed (s.threadLocals (thread d)).dispatchDur assignDur
            TimingField.all) } := by
  have hactive : s.pool.dispatcher d ≠ .outside := by simp [hpc]
  have hreads : (s.stopwatch d).ReadsLocals := by simp [hassigned, Stopwatch.ReadsLocals]
  have hagrees := hs.clocks.agrees d hactive
  rw [hassigned] at hagrees
  refine hs.keeps hactive (by rw [hassigned]; rfl) (by rw [hassigned]; rfl) hreads ?_
  rw [hs.clocks.locals d ⟨hactive, hreads⟩]
  exact ⟨rfl, hagrees⟩

omit [DecidableEq Group] in
theorem TimedInvariant.store (hs : TimedInvariant thread s)
    {dispatchDur assignDur : UInt64} {field : TimingField} {rest : List TimingField}
    (hpc : s.pool.dispatcher d = .woke w)
    (hcomputed : s.stopwatch d = .computed dispatchDur assignDur (field :: rest)) :
    TimedInvariant thread
      (s.storeField d w field
        (NoExecutor.storedValue (s.threadLocals (thread d)) dispatchDur assignDur field)
        (.computed dispatchDur assignDur rest)) := by
  have hactive : s.pool.dispatcher d ≠ .outside := by simp [hpc]
  have hpending : (s.stopwatch d).pending = field :: rest := by
    rw [hcomputed, Stopwatch.pending]
  have hagrees := hs.clocks.agrees d hactive
  rw [hcomputed] at hagrees
  refine ⟨hs.places.writeSlot w _, ?_, ?_, ?_⟩
  · refine hs.clocks.stopwatch_moves hactive rfl (fun _ => Iff.rfl) rfl rfl rfl rfl rfl
      (by rw [hcomputed]; rfl) (fun hreads => ?_) hagrees
    rw [hcomputed]
    exact List.mem_cons_of_mem field hreads
  · exact hs.stamps.store hs.places hpc hpending rfl
      (hs.clocks.result_of_ne hactive (by rw [hcomputed]; nofun))
      (hs.clocks.storedValue hactive hcomputed)
  · obtain ⟨-, ⟨h, hcontent, hown⟩, -⟩ := hs.stamps.woke d w hpc (by simp [hpending])
    refine ⟨hs.timings.reported, fun store hstore => ?_⟩
    rcases List.mem_append.mp hstore with hbefore | hnow
    · exact hs.timings.landed store hbefore
    · rw [List.mem_singleton.mp hnow, hcontent, Option.map_some, hown]

omit [DecidableEq Group] in
theorem TimedInvariant.stampCarried (hs : TimedInvariant thread s)
    {handed : Handed Group Entity} {field : TimingField} {rest : List TimingField}
    (hpc : s.pool.dispatcher d = .creating handed)
    (hstopped : s.stopwatch d = .stopped (field :: rest)) :
    TimedInvariant thread
      { s with
        pool := s.pool.moveDispatcher d
          (.creating (handed.stamped (handed.executable.timing.set field
            ((s.threadLocals (thread d)).timing.get field))))
        stopwatch := Function.update s.stopwatch d (.stopped rest) } := by
  have hactive : s.pool.dispatcher d ≠ .outside := by simp [hpc]
  have hreads : (s.stopwatch d).ReadsLocals := by simp [hstopped, Stopwatch.ReadsLocals]
  refine ⟨hs.places.dispatcher_moves (by simp [hpc, DispatcherPc.idleThread]) rfl rfl rfl
    rfl rfl, ?_, ?_, hs.timings.mono (fun _ _ h => h) rfl rfl⟩
  · refine hs.clocks.stopwatch_moves hactive rfl (fun other => ?_) rfl rfl rfl rfl rfl
      (by rw [hstopped]; rfl) (fun _ => hreads) trivial
    by_cases hother : other = d
    · subst hother
      simp [moveDispatcher, hpc]
    · simp [moveDispatcher, hother]
  · refine hs.stamps.stampCarried hpc hstopped
      (hs.clocks.result_of_ne hactive (by simp [hstopped])) ?_
    rw [hs.clocks.locals d ⟨hactive, hreads⟩]

theorem TimedInvariant.work (hs : TimedInvariant thread s)
    {pool : PoolState Group Entity dispatchers}
    (hstep : PoolStep exclusive s.pool (.worker w) pool)
    (hread : s.pool.worker w = .woken → s.unread w = []) :
    TimedInvariant thread
      { s with
        pool := pool
        unread := Function.update s.unread w TimingField.reads } where
  places := placeInvariant_step _ _ _ hs.places hstep
  clocks := by
    have hmove := worker_step hs.places hstep
    have hactive : ∀ d, pool.dispatcher d ≠ .outside → s.pool.dispatcher d ≠ .outside := by
      intro d
      rw [hmove.dispatcher]
      exact id
    exact hs.clocks.frame hactive (fun d h => ⟨hactive d h.1, h.2⟩) hmove.handed rfl rfl rfl
      (fun _ _ => rfl) (fun _ => rfl) hs.clocks.agrees
  stamps := hs.stamps.work hs.places hstep hread
  timings := hs.timings.mono (fun _ _ h => h) rfl rfl

omit [DecidableEq Group] in
theorem TimedInvariant.read (hs : TimedInvariant thread s) {handed : Handed Group Entity}
    {field : TimingField} {rest : List TimingField} (hpc : s.pool.worker w = .woken)
    (hunread : s.unread w = field :: rest) (hslot : s.pool.slot w = some handed)
    (hstored : ∀ d, s.pool.dispatcher d = .woke w → field ∉ (s.stopwatch d).pending) :
    TimedInvariant thread
      { s with
        unread := Function.update s.unread w rest
        reports := s.reports ++
          [⟨handed.job, field, handed.executable.timing.get field⟩] } where
  places := hs.places
  clocks := hs.clocks.frame (fun _ h => h) (fun _ h => h) rfl rfl rfl rfl (fun _ _ => rfl)
    (fun _ => rfl) hs.clocks.agrees
  stamps := hs.stamps.read hpc hunread hstored
  timings := by
    refine ⟨fun r hr => ?_, hs.timings.landed⟩
    rcases List.mem_append.mp hr with hbefore | hnow
    · exact hs.timings.reported r hbefore
    · obtain ⟨h, hcontent, hfields⟩ := hs.stamps.delivered w (.inr (.inl hpc))
      obtain rfl : handed = h := by simpa [hslot] using hcontent
      obtain ⟨timing, hresult, hvalue⟩ := (hfields field).resolve_left (by
        rintro ⟨d, hwoke, hunstored⟩
        exact hstored d hwoke hunstored)
      rw [List.mem_singleton.mp hnow]
      exact ⟨timing, hresult, hvalue⟩

theorem timedInvariant_step (s : TimedState Group Entity dispatchers)
    (label : TimedLabel dispatchers) (s' : TimedState Group Entity dispatchers)
    (hs : TimedInvariant thread s) (hintime : InTime thread s label)
    (hstep : TimedStep exclusive thread s label s') : TimedInvariant thread s' := by
  cases hstep with
  | signal t now => exact hs.signal now hintime
  | call d request now pool hstep => exact hs.call now hstep hintime
  | dispatch d pool hstep hunstamped hstored => exact hs.dispatch hstep hunstamped hstored
  | measure d now hpc hrunning => exact hs.measure now hpc hrunning
  | assign d w hpc hstopped => exact hs.assign hpc hstopped
  | compute d w assignDur hpc hassigned => exact hs.compute hpc hassigned
  | store d w dispatchDur assignDur field rest hpc hcomputed => exact hs.store hpc hcomputed
  | stampCarried d handed field rest hpc hstopped => exact hs.stampCarried hpc hstopped
  | work w pool hstep hread => exact hs.work hstep hread
  | read w handed field rest hpc hunread hslot =>
      exact hs.read hpc hunread hslot fun d hwoke => hintime d hwoke field rest hunread

end Steps

variable [DecidableEq Group] {exclusive : Group → Bool}

/-- In every run in which no signal and no call takes its times on a thread while
another call measures there, and no worker reads a field before it is stored, what the
workers read was measured for their jobs, and every store lands in its own job's slot. -/
theorem timings_of_own_dispatch
    {trace : List (Move (TimedState Group Entity dispatchers) (TimedLabel dispatchers))}
    {finish : TimedState Group Entity dispatchers}
    (hrun : Run (TimedStep exclusive thread) TimedState.initial trace finish)
    (hintime : Admitted (InTime thread) trace) :
    Throughout TimingsMatch TimedState.initial trace :=
  hrun.throughout (fun _ hs => hs.timings) timedInvariant_step timedInvariant_initial hintime

/-- The worker that is created for a first job is woken for a second, and reads each field
when it is stored, the first while its dispatcher has still to store the others.  Another
thread is signalled while the dispatcher measures, and its own when it has measured. -/
theorem woken_worker_reads_own_timing :
    ∃ trace finish, Run (TimedStep (fun _ => true) fun d => d.val)
        (TimedState.initial : TimedState Unit Unit 2) trace finish ∧
      finish.reports.map (fun r => (r.job, r.value)) =
        [(0, 9), (0, 4), (0, 2), (0, 9), (0, 4), (0, 2),
          (1, 25), (1, 5), (1, 4), (1, 25), (1, 5), (1, 4)] ∧
      finish.stores.length = 3 ∧ Throughout TimingsMatch TimedState.initial trace := by
  let request : Request Unit Unit := ⟨.timer, (), ()⟩
  let first : Handed Unit Unit := ⟨0, request.executable⟩
  let second : Handed Unit Unit := ⟨1, request.executable⟩
  have hrun : Run (TimedStep (fun _ => true) fun d => d.val)
      (TimedState.initial : TimedState Unit Unit 2) _ _ :=
    .cons (.signal _ 0 5) <|
    .cons (.call _ 0 request 7 _ (.call _ 0 request rfl)) <|
    .cons (.dispatch _ 0 _ (.popNull _ 0 first .zero rfl rfl) (.of_slot rfl (.inl rfl))
      False.elim) <|
    .cons (.signal _ 1 8) <|
    .cons (.measure _ 0 9 trivial rfl) <|
    .cons (.stampCarried _ 0 first .dispatchDoneNs _ rfl rfl) <|
    .cons (.stampCarried _ 0 _ .dispatchDurNs _ rfl rfl) <|
    .cons (.stampCarried _ 0 _ .assignDurNs _ rfl rfl) <|
    .cons (.dispatch _ 0 _ (.create _ 0 _ rfl) (.of_slot rfl (.inr rfl))
      fun _ => rfl) <|
    .cons (.work _ 0 _ (.copy _ 0 _ rfl) fun h => by cases h) <|
    .cons (.work _ 0 _ (.begin _ 0 rfl) fun h => by cases h) <|
    .cons (.work _ 0 _ (.pass _ 0 rfl rfl) fun h => by cases h) <|
    .cons (.read _ 0 _ _ _ rfl rfl rfl) <|
    .cons (.read _ 0 _ _ _ rfl rfl rfl) <|
    .cons (.read _ 0 _ _ _ rfl rfl rfl) <|
    .cons (.read _ 0 _ _ _ rfl rfl rfl) <|
    .cons (.read _ 0 _ _ _ rfl rfl rfl) <|
    .cons (.read _ 0 _ _ _ rfl rfl rfl) <|
    .cons (.work _ 0 _ (.execute _ 0 _ () rfl rfl rfl fun _ => rfl) fun _ => rfl) <|
    .cons (.work _ 0 _ (.finish _ 0 _ () rfl rfl rfl) fun h => by cases h) <|
    .cons (.work _ 0 _ (.clear _ 0 rfl) fun h => by cases h) <|
    .cons (.work _ 0 _ (.push _ 0 rfl) fun h => by cases h) <|
    .cons (.dispatch _ 0 _ (.detach _ 0 0 (.inl rfl)) (.of_slot rfl (.inr rfl))
      False.elim) <|
    .cons (.signal _ 0 20) <|
    .cons (.call _ 0 request 21 _ (.call _ 0 request rfl)) <|
    .cons (.dispatch _ 0 _ (.pop _ 0 second 0 [] rfl rfl) (.of_slot rfl (.inl rfl))
      False.elim) <|
    .cons (.dispatch _ 0 _ (.write _ 0 second 0 rfl) (.of_write rfl rfl) False.elim) <|
    .cons (.dispatch _ 0 _ (.wake _ 0 0 rfl) (.of_slot rfl (.inr rfl)) False.elim) <|
    .cons (.work _ 0 _ (.pass _ 0 rfl rfl) fun h => by cases h) <|
    .cons (.measure _ 0 25 trivial rfl) <|
    .cons (.assign _ 0 0 rfl rfl) <|
    .cons (.compute _ 0 0 (25 - 21) rfl rfl) <|
    .cons (.store _ 0 0 (25 - 20) (25 - 21) .dispatchDoneNs _ rfl rfl) <|
    .cons (.read _ 0 _ _ _ rfl rfl rfl) <|
    .cons (.signal _ 0 30) <|
    .cons (.store _ 0 0 (25 - 20) (25 - 21) .dispatchDurNs _ rfl rfl) <|
    .cons (.store _ 0 0 (25 - 20) (25 - 21) .assignDurNs _ rfl rfl) <|
    .cons (.read _ 0 _ _ _ rfl rfl rfl) <|
    .cons (.read _ 0 _ _ _ rfl rfl rfl) <|
    .cons (.read _ 0 _ _ _ rfl rfl rfl) <|
    .cons (.read _ 0 _ _ _ rfl rfl rfl) <|
    .cons (.read _ 0 _ _ _ rfl rfl rfl) <|
    .nil _
  have houtside : ∀ (s : TimedState Unit Unit 2) (u : Fin 2),
      s.pool.dispatcher u = .outside → ∀ d : Fin 2, d.val = u.val → ¬ Measuring s d := by
    rintro s u hpc d hd ⟨hactive, -⟩
    exact hactive (Fin.ext hd ▸ hpc)
  have hstored : ∀ s : TimedState Unit Unit 2, s.pool.dispatcher 1 = .outside →
      (∀ field rest, s.unread 0 = field :: rest → field ∉ (s.stopwatch 0).pending) →
        InTime (fun d => d.val) s (.read 0) := by
    intro s hpc hfields
    rw [InTime, Fin.forall_fin_two, hpc]
    exact ⟨fun _ => hfields, nofun⟩
  refine ⟨_, _, hrun, by decide, rfl, timings_of_own_dispatch hrun ?_⟩
  refine .cons (houtside _ 0 rfl) <| .cons (houtside _ 0 rfl) <| .cons trivial <|
    .cons (houtside _ 1 rfl) <| .cons trivial <| .cons trivial <| .cons trivial <|
    .cons trivial <| .cons trivial <| .cons trivial <| .cons trivial <| .cons trivial <|
    .cons (hstored _ rfl nofun) <| .cons (hstored _ rfl nofun) <|
    .cons (hstored _ rfl nofun) <| .cons (hstored _ rfl nofun) <|
    .cons (hstored _ rfl nofun) <| .cons (hstored _ rfl nofun) <|
    .cons trivial <| .cons trivial <| .cons trivial <| .cons trivial <| .cons trivial <|
    .cons (houtside _ 0 rfl) <| .cons (houtside _ 0 rfl) <| .cons trivial <|
    .cons trivial <| .cons trivial <| .cons trivial <| .cons trivial <| .cons trivial <|
    .cons trivial <| .cons trivial <| .cons (hstored _ rfl ?_) <| .cons ?_ <|
    .cons trivial <| .cons trivial <| .cons (hstored _ rfl nofun) <|
    .cons (hstored _ rfl nofun) <| .cons (hstored _ rfl nofun) <|
    .cons (hstored _ rfl nofun) <| .cons (hstored _ rfl nofun) <| .nil _
  · rintro field rest ⟨⟩
    decide
  · rintro d hd ⟨-, hreads⟩
    obtain rfl : d = 0 := Fin.ext hd
    revert hreads
    change TimingField.dispatchDoneNs ∉ [.dispatchDurNs, .assignDurNs]
    decide

/-- A worker that is woken reads its second job's fields before the dispatcher has
taken T3: what it reports was never measured. -/
theorem woken_worker_reads_unmeasured :
    ¬ ∀ (trace : List (Move (TimedState Unit Unit 1) (TimedLabel 1))) finish,
      Run (TimedStep (fun _ => true) fun _ => 0) TimedState.initial trace finish →
        Throughout TimingsMatch TimedState.initial trace := by
  intro hclaim
  let request : Request Unit Unit := ⟨.timer, (), ()⟩
  let handed : Handed Unit Unit := ⟨0, request.executable⟩
  let second : Handed Unit Unit := ⟨1, request.executable⟩
  have hrun : Run (TimedStep (fun _ => true) fun _ => 0)
      (TimedState.initial : TimedState Unit Unit 1) _ _ :=
    .cons (.signal _ 0 5) <|
    .cons (.call _ 0 request 7 _ (.call _ 0 request rfl)) <|
    .cons (.dispatch _ 0 _ (.popNull _ 0 handed .zero rfl rfl)
      (.of_slot rfl (.inl rfl)) False.elim) <|
    .cons (.measure _ 0 9 trivial rfl) <|
    .cons (.stampCarried _ 0 handed .dispatchDoneNs _ rfl rfl) <|
    .cons (.stampCarried _ 0 _ .dispatchDurNs _ rfl rfl) <|
    .cons (.stampCarried _ 0 _ .assignDurNs _ rfl rfl) <|
    .cons (.dispatch _ 0 _ (.create _ 0 _ rfl) (.of_slot rfl (.inr rfl))
      fun _ => rfl) <|
    .cons (.work _ 0 _ (.copy _ 0 _ rfl) fun h => by cases h) <|
    .cons (.work _ 0 _ (.begin _ 0 rfl) fun h => by cases h) <|
    .cons (.work _ 0 _ (.pass _ 0 rfl rfl) fun h => by cases h) <|
    .cons (.read _ 0 _ _ _ rfl rfl rfl) <|
    .cons (.read _ 0 _ _ _ rfl rfl rfl) <|
    .cons (.read _ 0 _ _ _ rfl rfl rfl) <|
    .cons (.read _ 0 _ _ _ rfl rfl rfl) <|
    .cons (.read _ 0 _ _ _ rfl rfl rfl) <|
    .cons (.read _ 0 _ _ _ rfl rfl rfl) <|
    .cons (.work _ 0 _ (.execute _ 0 _ () rfl rfl rfl fun _ => rfl) fun _ => rfl) <|
    .cons (.work _ 0 _ (.finish _ 0 _ () rfl rfl rfl) fun h => by cases h) <|
    .cons (.work _ 0 _ (.clear _ 0 rfl) fun h => by cases h) <|
    .cons (.work _ 0 _ (.push _ 0 rfl) fun h => by cases h) <|
    .cons (.dispatch _ 0 _ (.detach _ 0 0 (.inl rfl)) (.of_slot rfl (.inr rfl))
      False.elim) <|
    .cons (.signal _ 0 20) <|
    .cons (.call _ 0 request 21 _ (.call _ 0 request rfl)) <|
    .cons (.dispatch _ 0 _ (.pop _ 0 second 0 [] rfl rfl) (.of_slot rfl (.inl rfl))
      False.elim) <|
    .cons (.dispatch _ 0 _ (.write _ 0 second 0 rfl) (.of_write rfl rfl) False.elim) <|
    .cons (.dispatch _ 0 _ (.wake _ 0 0 rfl) (.of_slot rfl (.inr rfl)) False.elim) <|
    .cons (.work _ 0 _ (.pass _ 0 rfl rfl) fun h => by cases h) <|
    .cons (.read _ 0 second _ _ rfl rfl rfl) <|
    .nil _
  have hfinish := hrun.finish_of_throughout (hclaim _ _ hrun)
  obtain ⟨timing, hmeasured, -⟩ :=
    hfinish.reported _ (List.mem_append_right _ (List.mem_singleton_self _))
  cases hmeasured

end Runs

end RosRtems.NoExecutor
