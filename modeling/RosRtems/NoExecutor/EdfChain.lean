import RosRtems.Core.Runs
import Mathlib.Algebra.Group.Nat.Defs
import Mathlib.Data.List.Basic

/-!
# The deadline of an EDF chain

The callbacks of a chain share one `PureEDF`, whose `abs_deadline` every release of a
source overwrites.  A downstream job gets what stands there when it is dispatched, which
is the deadline of its own release exactly where the newest release has the same one.
-/

namespace RosRtems.EdfChain

open RosRtems.Runs

/-- The time that a source has read, and its `relative_deadline`. -/
structure Release where
  now : ℕ
  relativeDeadline : ℕ
  deriving DecidableEq

def Release.deadline (release : Release) : ℕ := release.now + release.relativeDeadline

/-- The sum in 64 bits. -/
def Release.absDeadline (release : Release) : ℕ := release.deadline % 2 ^ 64

/-- Whether `assign_or_create` has popped an idle worker. -/
inductive Path
  | idleWorker
  | newThread
  deriving DecidableEq

inductive Phase
  | entered
  | dispatching (path : Path)
  | running (path : Path)
  | finished (path : Path)
  deriving DecidableEq

/-- A job of the chain: the relative deadline where its callback is a source and the time
that the source has read, the release that it belongs to, once a source has stored its
deadline, and the deadline that `update_deadline` has written for its thread. -/
structure EdfJob where
  source : Option ℕ
  now : Option ℕ
  release : Option Release
  phase : Phase
  deadline : Option ℕ
  deriving DecidableEq

/-- `releases` lists the releases in the order in which they have written
`abs_deadline`. -/
structure ChainState where
  clock : ℕ
  absDeadline : ℕ
  releases : List Release
  jobs : List EdfJob

def ChainState.initial (absDeadline : ℕ) : ChainState := ⟨0, absDeadline, [], []⟩

def ChainState.setJob (s : ChainState) (i : ℕ) (job : EdfJob) : ChainState :=
  { s with jobs := s.jobs.set i job }

def ChainState.addJob (s : ChainState) (job : EdfJob) : ChainState :=
  { s with jobs := s.jobs ++ [job] }

inductive ChainLabel
  | tick (elapsed : ℕ)
  | release (relativeDeadline : ℕ)
  | trigger (i : ℕ)
  | pop (i : ℕ) (path : Path)
  | read (i : ℕ)
  | store (i : ℕ)
  | update (i : ℕ)
  | start (i : ℕ)
  | finish (i : ℕ)

/-- Any order of the steps of any number of jobs.  A job of an idle worker starts once its
deadline has been written; a new thread starts at once, and its deadline is written
at any time after.  Where `update_deadline` fails, the one is not started, as an assertion
fails, and the other goes on without a deadline. -/
inductive ChainStep : ChainState → ChainLabel → ChainState → Prop
  | tick (s : ChainState) (elapsed : ℕ) :
      ChainStep s (.tick elapsed) { s with clock := s.clock + elapsed }
  | release (s : ChainState) (relativeDeadline : ℕ) (hwidth : relativeDeadline < 2 ^ 64) :
      ChainStep s (.release relativeDeadline)
        (s.addJob ⟨some relativeDeadline, none, none, .entered, none⟩)
  | trigger (s : ChainState) (i : ℕ) (job : EdfJob) (path : Path) (release : Release)
      (hjob : s.jobs[i]? = some job) (hphase : job.phase = .running path)
      (hrelease : job.release = some release) :
      ChainStep s (.trigger i) (s.addJob ⟨none, none, some release, .entered, none⟩)
  | pop (s : ChainState) (i : ℕ) (job : EdfJob) (path : Path)
      (hjob : s.jobs[i]? = some job) (hphase : job.phase = .entered) :
      ChainStep s (.pop i path) (s.setJob i { job with phase := .dispatching path })
  | read (s : ChainState) (i : ℕ) (job : EdfJob) (path : Path) (relativeDeadline : ℕ)
      (hjob : s.jobs[i]? = some job) (hphase : job.phase = .dispatching path)
      (hsource : job.source = some relativeDeadline) (hnew : job.now = none) :
      ChainStep s (.read i) (s.setJob i { job with now := some s.clock })
  | store (s : ChainState) (i : ℕ) (job : EdfJob) (now relativeDeadline : ℕ)
      (hjob : s.jobs[i]? = some job) (hnow : job.now = some now)
      (hsource : job.source = some relativeDeadline) (hnew : job.release = none) :
      ChainStep s (.store i)
        { s.setJob i { job with release := some ⟨now, relativeDeadline⟩ } with
          absDeadline := Release.absDeadline ⟨now, relativeDeadline⟩
          releases := s.releases ++ [⟨now, relativeDeadline⟩] }
  | updateIdle (s : ChainState) (i : ℕ) (job : EdfJob) (release : Release)
      (hjob : s.jobs[i]? = some job) (hphase : job.phase = .dispatching .idleWorker)
      (hrelease : job.release = some release) (hnew : job.deadline = none) :
      ChainStep s (.update i) (s.setJob i { job with deadline := some s.absDeadline })
  | updateNew (s : ChainState) (i : ℕ) (job : EdfJob) (hjob : s.jobs[i]? = some job)
      (hphase : job.phase = .running .newThread ∨ job.phase = .finished .newThread)
      (hnew : job.deadline = none) :
      ChainStep s (.update i) (s.setJob i { job with deadline := some s.absDeadline })
  | startIdle (s : ChainState) (i : ℕ) (job : EdfJob) (deadline : ℕ)
      (hjob : s.jobs[i]? = some job) (hphase : job.phase = .dispatching .idleWorker)
      (hdeadline : job.deadline = some deadline) :
      ChainStep s (.start i) (s.setJob i { job with phase := .running .idleWorker })
  | startNew (s : ChainState) (i : ℕ) (job : EdfJob) (release : Release)
      (hjob : s.jobs[i]? = some job) (hphase : job.phase = .dispatching .newThread)
      (hrelease : job.release = some release) :
      ChainStep s (.start i) (s.setJob i { job with phase := .running .newThread })
  | finish (s : ChainState) (i : ℕ) (job : EdfJob) (path : Path)
      (hjob : s.jobs[i]? = some job) (hphase : job.phase = .running path) :
      ChainStep s (.finish i) (s.setJob i { job with phase := .finished path })

/-- A downstream job that has a deadline has that of the release that triggered it. -/
def OwnDeadline (job : EdfJob) : Prop :=
  job.source = none → ∀ deadline, job.deadline = some deadline →
    ∃ release, job.release = some release ∧ deadline = release.deadline

def DeadlinesPropagate (s : ChainState) : Prop := ∀ job ∈ s.jobs, OwnDeadline job

/-- Where the deadline of a downstream job is read, the newest release of the chain has
stored the deadline of the job's own release. -/
def NewestAgrees (s : ChainState) : ChainLabel → Prop
  | .update i => ∀ job release, s.jobs[i]? = some job → job.source = none →
      job.release = some release →
        ∃ newest, s.releases.getLast? = some newest ∧ newest.absDeadline = release.deadline
  | .tick _ | .release _ | .trigger _ | .pop _ _ => True
  | .read _ | .store _ | .start _ | .finish _ => True

/-! ## The exact condition -/

section Propagation

variable {s : ChainState}

/-- The attribute holds what the newest release has stored, and only jobs of releases
have been triggered. -/
structure ChainInvariant (s : ChainState) : Prop where
  stored : ∀ newest, s.releases.getLast? = some newest → s.absDeadline = newest.absDeadline
  released : ∀ job ∈ s.jobs, job.release ≠ none → s.releases ≠ []
  triggered : ∀ job ∈ s.jobs, job.source = none → job.release ≠ none
  propagates : DeadlinesPropagate s

theorem chainInvariant_initial (absDeadline : ℕ) :
    ChainInvariant (.initial absDeadline) where
  stored := by simp [ChainState.initial]
  released := by simp [ChainState.initial]
  triggered := by simp [ChainState.initial]
  propagates := by simp [DeadlinesPropagate, ChainState.initial]

theorem ChainInvariant.setJob (h : ChainInvariant s) {i : ℕ} {job after : EdfJob}
    (hjob : s.jobs[i]? = some job) (hsource : after.source = job.source)
    (hrelease : after.release = job.release) (hown : OwnDeadline after) :
    ChainInvariant (s.setJob i after) := by
  have hmem := List.mem_of_getElem? hjob
  have hall : ∀ {keeps : EdfJob → Prop}, (∀ job ∈ s.jobs, keeps job) → keeps after →
      ∀ job ∈ (s.setJob i after).jobs, keeps job := by
    intro keeps hbefore hnew other hother
    exact (List.mem_or_eq_of_mem_set hother).elim (hbefore other) fun hsame => hsame ▸ hnew
  constructor
  · exact h.stored
  · exact hall h.released (by rw [hrelease]; exact h.released job hmem)
  · exact hall h.triggered (by rw [hsource, hrelease]; exact h.triggered job hmem)
  · exact hall h.propagates hown

theorem ChainInvariant.addJob (h : ChainInvariant s) {job : EdfJob}
    (hreleased : job.release ≠ none → s.releases ≠ [])
    (htriggered : job.source = none → job.release ≠ none) (hnew : job.deadline = none) :
    ChainInvariant (s.addJob job) := by
  constructor
  · exact h.stored
  · exact List.forall_mem_append.mpr ⟨h.released, List.forall_mem_singleton.mpr hreleased⟩
  · exact List.forall_mem_append.mpr ⟨h.triggered, List.forall_mem_singleton.mpr htriggered⟩
  · refine List.forall_mem_append.mpr ⟨h.propagates, List.forall_mem_singleton.mpr ?_⟩
    intro _ deadline hdeadline
    rw [hnew] at hdeadline
    cases hdeadline

/-- What `update_deadline` writes is right exactly where the newest release agrees. -/
theorem ChainInvariant.update_iff (h : ChainInvariant s) {i : ℕ} {job : EdfJob}
    (hjob : s.jobs[i]? = some job) :
    OwnDeadline { job with deadline := some s.absDeadline } ↔
      NewestAgrees s (.update i) := by
  have hmem := List.mem_of_getElem? hjob
  constructor
  · intro hown other release hother hsource hrelease
    rw [hjob, Option.some.injEq] at hother
    subst hother
    obtain ⟨own, howned, hdeadline⟩ := hown hsource s.absDeadline rfl
    obtain rfl : release = own := Option.some.inj (hrelease.symm.trans howned)
    have hsome := h.released job hmem (by rw [hrelease]; nofun)
    obtain ⟨newest, hnewest⟩ := Option.isSome_iff_exists.mp
      (List.getLast?_isSome.mpr hsome)
    exact ⟨newest, hnewest, (h.stored newest hnewest).symm.trans hdeadline⟩
  · rintro hagrees hsource deadline ⟨⟩
    obtain ⟨release, hrelease⟩ :=
      Option.ne_none_iff_exists'.mp (h.triggered job hmem hsource)
    obtain ⟨newest, hnewest, hsame⟩ := hagrees job release hjob hsource hrelease
    exact ⟨release, hrelease, (h.stored newest hnewest).trans hsame⟩

theorem chainInvariant_step (s : ChainState) (label : ChainLabel) (t : ChainState)
    (h : ChainInvariant s) (hadmits : NewestAgrees s label) (hstep : ChainStep s label t) :
    ChainInvariant t := by
  cases hstep with
  | tick elapsed => exact ⟨h.stored, h.released, h.triggered, h.propagates⟩
  | release relativeDeadline hwidth => exact h.addJob (by simp) (by simp) rfl
  | trigger i job path release hjob hphase hrelease =>
      have hmem := List.mem_of_getElem? hjob
      refine h.addJob (fun _ => h.released job hmem ?_) (fun _ => nofun) rfl
      rw [hrelease]
      nofun
  | pop i job path hjob hphase =>
      exact h.setJob hjob rfl rfl (h.propagates job (List.mem_of_getElem? hjob))
  | read i job path relativeDeadline hjob hphase hsource hnew =>
      exact h.setJob hjob rfl rfl (h.propagates job (List.mem_of_getElem? hjob))
  | store i job now relativeDeadline hjob hnow hsource hnew =>
      have hset : ∀ other ∈ s.jobs.set i
          { job with release := some ⟨now, relativeDeadline⟩ },
          other ∈ s.jobs ∨ other.source = some relativeDeadline := by
        intro other hother
        exact (List.mem_or_eq_of_mem_set hother).imp_right fun hsame => by
          rw [hsame]
          exact hsource
      constructor
      · intro newest hnewest
        change (s.releases ++ [_]).getLast? = some newest at hnewest
        rw [List.getLast?_concat, Option.some.injEq] at hnewest
        rw [← hnewest]
      · intro other _ _
        exact List.append_ne_nil_of_right_ne_nil _ (List.cons_ne_nil _ _)
      · intro other hother hnone
        rcases hset other hother with hbefore | hmine
        · exact h.triggered other hbefore hnone
        · rw [hnone] at hmine
          cases hmine
      · intro other hother hnone
        rcases hset other hother with hbefore | hmine
        · exact h.propagates other hbefore hnone
        · rw [hnone] at hmine
          cases hmine
  | updateIdle i job release hjob hphase hrelease hnew =>
      exact h.setJob hjob rfl rfl ((h.update_iff hjob).mpr hadmits)
  | updateNew i job hjob hphase hnew =>
      exact h.setJob hjob rfl rfl ((h.update_iff hjob).mpr hadmits)
  | startIdle i job deadline hjob hphase hdeadline =>
      exact h.setJob hjob rfl rfl (h.propagates job (List.mem_of_getElem? hjob))
  | startNew i job release hjob hphase hrelease =>
      exact h.setJob hjob rfl rfl (h.propagates job (List.mem_of_getElem? hjob))
  | finish i job path hjob hphase =>
      exact h.setJob hjob rfl rfl (h.propagates job (List.mem_of_getElem? hjob))

theorem mem_setJob {i : ℕ} {job after : EdfJob} (hjob : s.jobs[i]? = some job) :
    after ∈ (s.setJob i after).jobs :=
  List.mem_set (List.getElem?_eq_some_iff.mp hjob).1 after

theorem newestAgrees_of_propagates (s : ChainState) (label : ChainLabel) (t : ChainState)
    (h : ChainInvariant s) (hstep : ChainStep s label t) (ht : DeadlinesPropagate t) :
    NewestAgrees s label := by
  cases hstep with
  | updateIdle i job release hjob hphase hrelease hnew =>
      exact (h.update_iff hjob).mp (ht _ (mem_setJob hjob))
  | updateNew i job hjob hphase hnew =>
      exact (h.update_iff hjob).mp (ht _ (mem_setJob hjob))
  | tick | release | trigger | pop | read | store | startIdle | startNew | finish =>
      exact trivial

end Propagation

/-! ## One release at a time -/

section OneRelease

variable {s : ChainState}

/-- The callback has returned, and its thread has its deadline. -/
def EdfJob.Done (job : EdfJob) : Prop :=
  (∃ path, job.phase = .finished path) ∧ job.deadline ≠ none

/-- A source stores its deadline when the jobs of all releases before are done, and this
deadline has 64 bits. -/
def NoOverlap (s : ChainState) : ChainLabel → Prop
  | .store i => (∀ job ∈ s.jobs, job.release ≠ none → job.Done) ∧
      ∀ job now relativeDeadline, s.jobs[i]? = some job → job.now = some now →
        job.source = some relativeDeadline → now + relativeDeadline < 2 ^ 64
  | .tick _ | .release _ | .trigger _ | .pop _ _ | .read _ => True
  | .update _ | .start _ | .finish _ => True

/-- The jobs that are not done belong to the newest release. -/
def OneInFlight (s : ChainState) : Prop :=
  ∀ job ∈ s.jobs, ∀ release, job.release = some release → job.Done ∨
    s.releases.getLast? = some release ∧ release.absDeadline = release.deadline

theorem OneInFlight.setJob (h : OneInFlight s) {i : ℕ} {job after : EdfJob}
    (hjob : s.jobs[i]? = some job) (hrelease : after.release = job.release)
    (hbusy : ¬ job.Done ∨ after.Done) : OneInFlight (s.setJob i after) := by
  intro other hother
  rcases List.mem_or_eq_of_mem_set hother with hbefore | rfl
  · exact h other hbefore
  · intro release hmine
    rw [hrelease] at hmine
    rcases h job (List.mem_of_getElem? hjob) release hmine with hdone | hnewest
    · exact .inl (hbusy.resolve_left (not_not_intro hdone))
    · exact .inr hnewest

theorem oneInFlight_step (s : ChainState) (label : ChainLabel) (t : ChainState)
    (h : OneInFlight s) (hadmits : NoOverlap s label) (hstep : ChainStep s label t) :
    OneInFlight t := by
  have hbusy : ∀ {job : EdfJob} {phase : Phase}, job.phase = phase →
      (∀ path, phase ≠ .finished path) → ¬ job.Done := by
    rintro job phase hphase hnever ⟨⟨path, hfinished⟩, -⟩
    exact hnever path (hphase.symm.trans hfinished)
  cases hstep with
  | tick elapsed => exact h
  | release relativeDeadline hwidth =>
      exact List.forall_mem_append.mpr ⟨h, List.forall_mem_singleton.mpr nofun⟩
  | trigger i job path release hjob hphase hrelease =>
      refine List.forall_mem_append.mpr ⟨h, List.forall_mem_singleton.mpr ?_⟩
      rintro other ⟨⟩
      exact .inr ((h job (List.mem_of_getElem? hjob) release hrelease).resolve_left
        (hbusy hphase nofun))
  | pop i job path hjob hphase => exact h.setJob hjob rfl (.inl (hbusy hphase nofun))
  | read i job path relativeDeadline hjob hphase hsource hnew =>
      exact h.setJob hjob rfl (.inl (hbusy hphase nofun))
  | store i job now relativeDeadline hjob hnow hsource hnew =>
      intro other hother release hrelease
      rcases List.mem_or_eq_of_mem_set hother with hbefore | rfl
      · exact .inl (hadmits.1 other hbefore (by rw [hrelease]; nofun))
      · cases hrelease
        exact .inr ⟨List.getLast?_concat,
          Nat.mod_eq_of_lt (hadmits.2 job now relativeDeadline hjob hnow hsource)⟩
  | updateIdle i job release hjob hphase hrelease hnew =>
      exact h.setJob hjob rfl (.inl (hbusy hphase nofun))
  | updateNew i job hjob hphase hnew =>
      exact h.setJob hjob rfl (.inl fun hdone => hdone.2 hnew)
  | startIdle i job deadline hjob hphase hdeadline =>
      exact h.setJob hjob rfl (.inl (hbusy hphase nofun))
  | startNew i job release hjob hphase hrelease =>
      exact h.setJob hjob rfl (.inl (hbusy hphase nofun))
  | finish i job path hjob hphase => exact h.setJob hjob rfl (.inl (hbusy hphase nofun))

/-- Where releases do not overlap, the newest one always agrees. -/
theorem newestAgrees_of_noOverlap {absDeadline : ℕ}
    {trace : List (Move ChainState ChainLabel)} {finish : ChainState}
    (hrun : Run ChainStep (.initial absDeadline) trace finish)
    (hadmitted : Admitted NoOverlap trace) : Admitted NewestAgrees trace := by
  have hmoves := hrun.moves oneInFlight_step (by simp [OneInFlight, ChainState.initial])
    hadmitted
  intro move hmove
  obtain ⟨hstep, hflight, -⟩ := hmoves move hmove
  generalize move.source = source at hstep hflight ⊢
  generalize move.label = label at hstep ⊢
  generalize move.target = target at hstep
  have hagrees : ∀ {i : ℕ} {job : EdfJob}, source.jobs[i]? = some job →
      job.deadline = none → NewestAgrees source (.update i) := by
    intro i job hjob hnew other release hother _ hrelease
    rw [hjob, Option.some.injEq] at hother
    subst hother
    obtain ⟨hnewest, hdeadline⟩ :=
      (hflight job (List.mem_of_getElem? hjob) release hrelease).resolve_left
        fun hdone => hdone.2 hnew
    exact ⟨release, hnewest, hdeadline⟩
  cases hstep with
  | updateIdle i job release hjob hphase hrelease hnew => exact hagrees hjob hnew
  | updateNew i job hjob hphase hnew => exact hagrees hjob hnew
  | tick | release | trigger | pop | read | store | startIdle | startNew | finish =>
      exact trivial

end OneRelease

end RosRtems.EdfChain
