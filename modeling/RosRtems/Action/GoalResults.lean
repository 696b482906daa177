import RosRtems.Action.ActionServer
import Mathlib.Data.List.Nodup

/-!
# Requests for results

However the threads of an action server interleave, and whatever it fails to send, a
request for a result is answered at most once, and with the result of its goal.  Ids of
goals must not be used twice.
-/

namespace RosRtems.ActionServer

open Function
open RosRtems.Runs

variable {Thread Uuid Request Result : Type*}

/-- The request that a thread is handling. -/
def ServerPc.request : ServerPc Uuid Request Result → Option (Request × Uuid)
  | .taken q u | .found q u | .sending q u _ => some (q, u)
  | _ => none

/-- The result that a thread is about to publish. -/
def ServerPc.publication : ServerPc Uuid Request Result → Option (Uuid × Result)
  | .ended u result | .publishing u result => some (u, result)
  | _ => none

namespace ServerState

variable (s : ServerState Thread Uuid Request Result)

def IsActive (u : Uuid) : Prop := ∃ state, s.goal u = some state ∧ state.isActive = true

def answered : List Request := s.answers.map Prod.fst

/-- The result of the goal is still going to be published. -/
def Pending (u : Uuid) : Prop :=
  s.IsActive u ∨ ∃ t result, (s.thread t).publication = some (u, result)

end ServerState

/-! ## Goals -/

/-- No id is used for two goals. -/
def FreshIds (s : ServerState Thread Uuid Request Result) :
    ServerLabel Thread Uuid Request Result → Prop
  | .accept u => s.goal u = none
  | _ => True

structure GoalsInOrder (s : ServerState Thread Uuid Request Result) : Prop where
  unborn : ∀ u, s.goal u = none → s.listed u = false ∧ s.requests u = [] ∧
    s.results u = none ∧ s.endedWith u = none
  active : ∀ u, s.IsActive u → s.listed u = true ∧ s.results u = none ∧ s.endedWith u = none
  inactive : ∀ u state, s.goal u = some state → state.isActive = false → s.endedWith u ≠ none
  publication : ∀ t u result, (s.thread t).publication = some (u, result) →
    s.endedWith u = some result ∧ s.results u = none
  publisher : ∀ t t' u result result', (s.thread t).publication = some (u, result) →
    (s.thread t').publication = some (u, result') → t = t'
  results : ∀ u result, s.results u = some result → s.endedWith u = some result
  expired : ∀ t u, s.thread t = .expired u → s.listed u = false ∧ s.endedWith u ≠ none
  found : ∀ t q u, s.thread t = .found q u → s.goal u ≠ none

section Goals

variable [DecidableEq Thread] [DecidableEq Uuid]
  {s s' : ServerState Thread Uuid Request Result}
  {label : ServerLabel Thread Uuid Request Result}

omit [DecidableEq Thread] [DecidableEq Uuid] in
theorem goalsInOrder_initial :
    GoalsInOrder (ServerState.initial : ServerState Thread Uuid Request Result) where
  unborn := fun _ _ => ⟨rfl, rfl, rfl, rfl⟩
  active := fun _ ⟨_, hgoal, _⟩ => nomatch hgoal
  inactive := fun _ _ hgoal => nomatch hgoal
  publication := fun _ _ _ hpc => nomatch hpc
  publisher := fun _ _ _ _ _ hpc => nomatch hpc
  results := fun _ _ hresult => nomatch hresult
  expired := fun _ _ hpc => nomatch hpc
  found := fun _ _ _ hpc => nomatch hpc

omit [DecidableEq Uuid] in
/-- A thread may go where it publishes nothing new, and where it only relies on what is
so. -/
theorem GoalsInOrder.goto (h : GoalsInOrder s) {t : Thread} {pc : ServerPc Uuid Request Result}
    (hpublication : ∀ u result, pc.publication = some (u, result) →
      (s.thread t).publication = some (u, result))
    (hexpired : ∀ u, pc = .expired u → s.listed u = false ∧ s.endedWith u ≠ none)
    (hfound : ∀ q u, pc = .found q u → s.goal u ≠ none) : GoalsInOrder (s.goto t pc) := by
  have hbefore : ∀ t' u result, ((s.goto t pc).thread t').publication = some (u, result) →
      (s.thread t').publication = some (u, result) := by
    intro t' u result hpc
    by_cases hsame : t' = t
    · subst hsame
      exact hpublication u result (by simpa [ServerState.goto] using hpc)
    · simpa [ServerState.goto, hsame] using hpc
  refine ⟨h.unborn, h.active, h.inactive, ?_, ?_, h.results, ?_, ?_⟩
  · exact fun t' u result hpc => h.publication t' u result (hbefore t' u result hpc)
  · exact fun t' t'' u result result' hpc hpc' =>
      h.publisher t' t'' u result result' (hbefore _ _ _ hpc) (hbefore _ _ _ hpc')
  · intro t' u hpc
    by_cases hsame : t' = t
    · exact hexpired u (by simpa [ServerState.goto, hsame] using hpc)
    · exact h.expired t' u (by simpa [ServerState.goto, hsame] using hpc)
  · intro t' q u hpc
    by_cases hsame : t' = t
    · exact hfound q u (by simpa [ServerState.goto, hsame] using hpc)
    · exact h.found t' q u (by simpa [ServerState.goto, hsame] using hpc)

omit [DecidableEq Thread] [DecidableEq Uuid] in
theorem GoalsInOrder.publication_of_active (h : GoalsInOrder s) {u : Uuid}
    (hactive : s.IsActive u) (t : Thread) (result : Result) :
    (s.thread t).publication ≠ some (u, result) := by
  intro hpc
  have hended := (h.active u hactive).2.2
  rw [(h.publication t u result hpc).1] at hended
  cases hended

omit [DecidableEq Thread] in
theorem goalsInOrder_accept (h : GoalsInOrder s) {u : Uuid} (hnew : s.goal u = none) :
    GoalsInOrder (s.accept u) := by
  obtain ⟨hunborn, hactive, hinactive, hpublication, hpublisher, hresults, hexpired, hfound⟩ := h
  constructor <;>
    simp only [ServerState.accept, ServerState.setGoal, ServerState.IsActive, update_apply] at * <;>
    grind [GoalState.isActive]

omit [DecidableEq Thread] in
theorem goalsInOrder_event (h : GoalsInOrder s) {u : Uuid} {state next : GoalState}
    (hgoal : s.goal u = some state) (hbefore : state.isActive = true)
    (hafter : next.isActive = true) : GoalsInOrder (s.setGoal u next) := by
  obtain ⟨hunborn, hactive, hinactive, hpublication, hpublisher, hresults, hexpired, hfound⟩ := h
  constructor <;>
    simp only [ServerState.setGoal, ServerState.IsActive, update_apply] at * <;> grind

theorem goalsInOrder_finish (h : GoalsInOrder s) {t : Thread} {u : Uuid}
    {state next : GoalState} (result : Result) (hgoal : s.goal u = some state)
    (hbefore : state.isActive = true) (hafter : next.isActive = false) :
    GoalsInOrder (s.finish t u next result) := by
  have hnobody := h.publication_of_active ⟨state, hgoal, hbefore⟩
  obtain ⟨hunborn, hactive, hinactive, hpublication, hpublisher, hresults, hexpired, hfound⟩ := h
  constructor <;>
    simp only [ServerState.finish, ServerState.setGoal, ServerState.goto, ServerState.IsActive,
      update_apply] at * <;> grind [ServerPc.publication]

omit [DecidableEq Thread] in
theorem goalsInOrder_store (h : GoalsInOrder s) {u : Uuid} (q : Request)
    (hgoal : s.goal u ≠ none) : GoalsInOrder (s.store q u) := by
  refine ⟨fun u' hgoal' => ?_, h.active, h.inactive, h.publication, h.publisher, h.results,
    h.expired, h.found⟩
  have hne : u' ≠ u := by
    rintro rfl
    exact hgoal hgoal'
  obtain ⟨hlisted, hrequests, hresults, hended⟩ := h.unborn u' hgoal'
  exact ⟨hlisted, by simpa [ServerState.store, hne] using hrequests, hresults, hended⟩

theorem goalsInOrder_publish (h : GoalsInOrder s) {t : Thread} {u : Uuid} {result : Result}
    (sent : Request → Sent) (hpc : s.thread t = .publishing u result) :
    GoalsInOrder ((s.publish u result sent).goto t .idle) := by
  obtain ⟨hended, -⟩ := h.publication t u result (by rw [hpc]; rfl)
  have hpublishes : ∀ t' result', (s.thread t').publication = some (u, result') → t' = t :=
    fun t' result' hpc' => h.publisher t' t u result' result hpc' (by rw [hpc]; rfl)
  obtain ⟨hunborn, hactive, hinactive, hpublication, hpublisher, hresults, hexpired, hfound⟩ := h
  constructor <;>
    simp only [ServerState.publish, ServerState.answer, ServerState.goto, ServerState.IsActive,
      update_apply] at * <;> grind [ServerPc.publication]

theorem goalsInOrder_expire (h : GoalsInOrder s) {t : Thread} {u : Uuid} {state : GoalState}
    (hgoal : s.goal u = some state) (hinactive : state.isActive = false) :
    GoalsInOrder ((s.expire u).goto t (.expired u)) := by
  have hended := h.inactive u state hgoal hinactive
  obtain ⟨hunborn, hactive, hinactive, hpublication, hpublisher, hresults, hexpired, hfound⟩ := h
  constructor <;>
    simp only [ServerState.expire, ServerState.goto, ServerState.IsActive, update_apply] at * <;>
    grind [ServerPc.publication]

theorem goalsInOrder_erase (h : GoalsInOrder s) {t : Thread} {u : Uuid}
    (hpc : s.thread t = .expired u) : GoalsInOrder ((s.erase u).goto t .idle) := by
  have hended := (h.expired t u hpc).2
  obtain ⟨hunborn, hactive, hinactive, hpublication, hpublisher, hresults, hexpired, hfound⟩ := h
  constructor <;>
    simp only [ServerState.erase, ServerState.goto, ServerState.IsActive, update_apply] at * <;>
    grind [ServerPc.publication]

theorem goalsInOrder_step (h : GoalsInOrder s) (hfresh : FreshIds s label)
    (hstep : ServerStep s label s') : GoalsInOrder s' := by
  cases hstep with
  | accept u hunlisted => exact goalsInOrder_accept h hfresh
  | event u event state next hgoal htransition hactive =>
      exact goalsInOrder_event h hgoal (isActive_of_transition htransition) hactive
  | finish t u ending result state next hidle hgoal hending =>
      obtain ⟨hbefore, hafter⟩ := ending.apply_active hending
      exact goalsInOrder_finish h result hgoal hbefore hafter
  | take t q u hidle hnew =>
      have hgoto : GoalsInOrder (s.goto t (.taken q u)) :=
        h.goto (by simp [ServerPc.publication]) (by simp) (by simp)
      exact ⟨hgoto.1, hgoto.2, hgoto.3, hgoto.4, hgoto.5, hgoto.6, hgoto.7, hgoto.8⟩
  | lookup t q u hpc =>
      split
      · rename_i hlisted
        apply h.goto (by simp [ServerPc.publication]) (by simp)
        rintro _ _ hsame
        cases hsame
        intro hgoal
        rw [(h.unborn u hgoal).1] at hlisted
        cases hlisted
      · exact h.goto (by simp [ServerPc.publication]) (by simp) (by simp)
  | fetchResult t q u result hpc hresult =>
      exact h.goto (by simp [ServerPc.publication]) (by simp) (by simp)
  | fetchNothing t q u hpc hresult =>
      exact (goalsInOrder_store h q (h.found t q u hpc)).goto (by simp [ServerPc.publication])
        (by simp) (by simp)
  | send t q u answer sent hpc =>
      have hgoto : GoalsInOrder (s.goto t .idle) :=
        h.goto (by simp [ServerPc.publication]) (by simp) (by simp)
      exact ⟨hgoto.1, hgoto.2, hgoto.3, hgoto.4, hgoto.5, hgoto.6, hgoto.7, hgoto.8⟩
  | check t u result hpc =>
      split
      · apply h.goto _ (by simp) (by simp)
        rw [hpc]
        exact fun u' result' => id
      · exact h.goto (by simp [ServerPc.publication]) (by simp) (by simp)
  | publish t u result sent hpc => exact goalsInOrder_publish h sent hpc
  | expire t u state hidle hlisted hgoal hinactive => exact goalsInOrder_expire h hgoal hinactive
  | erase t u hpc => exact goalsInOrder_erase h hpc

end Goals

/-! ## Requests -/

structure RequestsInOrder (s : ServerState Thread Uuid Request Result) : Prop where
  nodup : (s.taken.map Prod.fst).Nodup
  held : ∀ t q u, (s.thread t).request = some (q, u) →
    (q, u) ∈ s.taken ∧ q ∉ s.answered ∧ ∀ u', q ∉ s.requests u'
  holder : ∀ t t' q u u', (s.thread t).request = some (q, u) →
    (s.thread t').request = some (q, u') → t = t'
  stored : ∀ q u, q ∈ s.requests u → (q, u) ∈ s.taken
  distinct : ∀ u, (s.requests u).Nodup
  waiting : ∀ q u, q ∈ s.requests u → s.results u = none → q ∉ s.answered
  sending : ∀ t q u result, s.thread t = .sending q u (some result) →
    s.endedWith u = some result

/-- Of the answers that were sent: there is one to a request at most, and one that brings a
result brings that of the goal. -/
structure AnswersInOrder (s : ServerState Thread Uuid Request Result) : Prop where
  once : s.answered.Nodup
  known : ∀ q ∈ s.answered, q ∈ s.taken.map Prod.fst
  right : ∀ q result, (q, some result) ∈ s.answers →
    ∃ u, (q, u) ∈ s.taken ∧ s.endedWith u = some result

section Requests

variable [DecidableEq Thread] [DecidableEq Uuid]
  {s s' : ServerState Thread Uuid Request Result}
  {label : ServerLabel Thread Uuid Request Result}

omit [DecidableEq Thread] [DecidableEq Uuid] in
theorem requestsInOrder_initial :
    RequestsInOrder (ServerState.initial : ServerState Thread Uuid Request Result) where
  nodup := List.nodup_nil
  held := fun _ _ _ hpc => nomatch hpc
  holder := fun _ _ _ _ _ hpc => nomatch hpc
  stored := fun _ _ hq => nomatch hq
  distinct := fun _ => List.nodup_nil
  waiting := fun _ _ hq => nomatch hq
  sending := fun _ _ _ _ hpc => nomatch hpc

omit [DecidableEq Thread] [DecidableEq Uuid] in
theorem answersInOrder_initial :
    AnswersInOrder (ServerState.initial : ServerState Thread Uuid Request Result) where
  once := List.nodup_nil
  known := fun _ hq => nomatch hq
  right := fun _ _ hq => nomatch hq

omit [DecidableEq Thread] [DecidableEq Uuid] in
/-- A request has one goal. -/
theorem RequestsInOrder.goal_unique (h : RequestsInOrder s) {q : Request} {u u' : Uuid}
    (hu : (q, u) ∈ s.taken) (hu' : (q, u') ∈ s.taken) : u = u' :=
  congrArg Prod.snd (List.inj_on_of_nodup_map h.nodup hu hu' rfl)

omit [DecidableEq Uuid] in
/-- A thread may go where it handles no other request, and sends no other result. -/
theorem RequestsInOrder.goto (h : RequestsInOrder s) {t : Thread}
    {pc : ServerPc Uuid Request Result}
    (hrequest : ∀ q u, pc.request = some (q, u) → (s.thread t).request = some (q, u))
    (hsending : ∀ q u result, pc = .sending q u (some result) → s.endedWith u = some result) :
    RequestsInOrder (s.goto t pc) := by
  have hbefore : ∀ t' q u, ((s.goto t pc).thread t').request = some (q, u) →
      (s.thread t').request = some (q, u) := by
    intro t' q u hpc
    by_cases hsame : t' = t
    · subst hsame
      exact hrequest q u (by simpa [ServerState.goto] using hpc)
    · simpa [ServerState.goto, hsame] using hpc
  refine ⟨h.nodup, ?_, ?_, h.stored, h.distinct, h.waiting, ?_⟩
  · exact fun t' q u hpc => h.held t' q u (hbefore t' q u hpc)
  · exact fun t' t'' q u u' hpc hpc' =>
      h.holder t' t'' q u u' (hbefore _ _ _ hpc) (hbefore _ _ _ hpc')
  · intro t' q u result hpc
    by_cases hsame : t' = t
    · exact hsending q u result (by simpa [ServerState.goto, hsame] using hpc)
    · exact h.sending t' q u result (by simpa [ServerState.goto, hsame] using hpc)

theorem requestsInOrder_finish (hgoals : GoalsInOrder s) (h : RequestsInOrder s) {t : Thread}
    {u : Uuid} {state : GoalState} (next : GoalState) (result : Result)
    (hgoal : s.goal u = some state) (hactive : state.isActive = true) :
    RequestsInOrder (s.finish t u next result) := by
  have hgoto : RequestsInOrder (s.goto t (.ended u result)) :=
    h.goto (by simp [ServerPc.request]) (by simp)
  refine ⟨hgoto.nodup, hgoto.held, hgoto.holder, hgoto.stored, hgoto.distinct, hgoto.waiting,
    fun t' q u' result' hpc => ?_⟩
  have hended := hgoto.sending t' q u' result' hpc
  have hne : u' ≠ u := by
    rintro rfl
    exact Option.some_ne_none _ (hended.symm.trans (hgoals.active u' ⟨state, hgoal, hactive⟩).2.2)
  exact (update_of_ne hne _ _).trans hended

theorem answersInOrder_finish (hgoals : GoalsInOrder s) (h : AnswersInOrder s) {t : Thread}
    {u : Uuid} {state : GoalState} (next : GoalState) (result : Result)
    (hgoal : s.goal u = some state) (hactive : state.isActive = true) :
    AnswersInOrder (s.finish t u next result) := by
  refine ⟨h.once, h.known, fun q result' hanswer => ?_⟩
  obtain ⟨u', htaken, hended⟩ := h.right q result' hanswer
  have hne : u' ≠ u := by
    rintro rfl
    exact Option.some_ne_none _ (hended.symm.trans (hgoals.active u' ⟨state, hgoal, hactive⟩).2.2)
  exact ⟨u', htaken, (update_of_ne hne _ _).trans hended⟩

omit [DecidableEq Uuid] in
theorem requestsInOrder_take (h : RequestsInOrder s) (hanswers : AnswersInOrder s) {t : Thread}
    {q : Request} (u : Uuid) (hnew : q ∉ s.taken.map Prod.fst) :
    RequestsInOrder { s.goto t (.taken q u) with taken := s.taken ++ [(q, u)] } := by
  have hfresh : ∀ u', (q, u') ∉ s.taken := fun u' hq => hnew (List.mem_map_of_mem hq)
  have hother : ∀ t' q' u', t' ≠ t →
      ((s.goto t (.taken q u)).thread t').request = some (q', u') →
        (s.thread t').request = some (q', u') := by
    intro t' q' u' hne hpc
    simpa [ServerState.goto, hne] using hpc
  have hown : ∀ q' u', ((s.goto t (.taken q u)).thread t).request = some (q', u') →
      q = q' ∧ u = u' := by
    intro q' u' hpc
    simpa [ServerState.goto, ServerPc.request] using hpc
  constructor
  · simpa using h.nodup.concat hnew
  · intro t' q' u' hpc
    by_cases hsame : t' = t
    · subst hsame
      obtain ⟨rfl, rfl⟩ := hown q' u' hpc
      exact ⟨by simp, fun hq => hnew (hanswers.known q hq),
        fun u' hq => hfresh u' (h.stored q u' hq)⟩
    · obtain ⟨htaken, hunanswered, hunstored⟩ := h.held t' q' u' (hother t' q' u' hsame hpc)
      exact ⟨List.mem_append_left _ htaken, hunanswered, hunstored⟩
  · intro t' t'' q' u' u'' hpc hpc'
    by_cases hsame : t' = t
    · subst hsame
      obtain ⟨rfl, rfl⟩ := hown q' u' hpc
      by_contra hne
      exact hfresh u'' (h.held t'' q u'' (hother t'' q u'' (Ne.symm hne) hpc')).1
    · by_cases hsame' : t'' = t
      · subst hsame'
        obtain ⟨rfl, rfl⟩ := hown q' u'' hpc'
        exact absurd (h.held t' q u' (hother t' q u' hsame hpc)).1 (hfresh u')
      · exact h.holder t' t'' q' u' u'' (hother t' q' u' hsame hpc)
          (hother t'' q' u'' hsame' hpc')
  · exact fun q' u' hq => List.mem_append_left _ (h.stored q' u' hq)
  · exact h.distinct
  · exact h.waiting
  · intro t' q' u' result hpc
    by_cases hsame : t' = t
    · subst hsame
      simp [ServerState.goto] at hpc
    · exact h.sending t' q' u' result (by simpa [ServerState.goto, hsame] using hpc)

theorem requestsInOrder_store (h : RequestsInOrder s) {t : Thread} {q : Request} {u : Uuid}
    (hheld : (s.thread t).request = some (q, u)) :
    RequestsInOrder ((s.store q u).goto t .idle) := by
  obtain ⟨htaken, hunanswered, hunstored⟩ := h.held t q u hheld
  have hgoto : RequestsInOrder (s.goto t .idle) := h.goto (by simp [ServerPc.request]) (by simp)
  have hstored : ∀ q' u', q' ∈ (s.store q u).requests u' →
      q' ∈ s.requests u' ∨ q' = q ∧ u' = u := by
    intro q' u' hq
    by_cases hsame : u' = u
    · subst hsame
      simpa [ServerState.store] using hq
    · exact .inl (by simpa [ServerState.store, hsame] using hq)
  refine ⟨h.nodup, fun t' q' u' hpc => ?_, hgoto.holder, fun q' u' hq => ?_, fun u' => ?_,
    fun q' u' hq hresult => ?_, hgoto.sending⟩
  · obtain ⟨htaken', hunanswered', hunstored'⟩ := hgoto.held t' q' u' hpc
    refine ⟨htaken', hunanswered', fun u'' hq => ?_⟩
    obtain hq | ⟨rfl, rfl⟩ := hstored q' u'' hq
    · exact hunstored' u'' hq
    · have hne : t' ≠ t := by
        rintro rfl
        simp [ServerState.goto, ServerPc.request] at hpc
      have hpc' : (s.thread t').request = some (q', u') := by
        simpa [ServerState.goto, ServerState.store, hne] using hpc
      exact hne (h.holder t' t q' u' u'' hpc' hheld)
  · obtain hq | ⟨rfl, rfl⟩ := hstored q' u' hq
    · exact h.stored q' u' hq
    · exact htaken
  · by_cases hsame : u' = u
    · subst hsame
      simpa [ServerState.store, ServerState.goto] using (h.distinct u').concat (hunstored u')
    · simpa [ServerState.store, ServerState.goto, hsame] using h.distinct u'
  · obtain hq | ⟨rfl, rfl⟩ := hstored q' u' hq
    · exact h.waiting q' u' hq hresult
    · exact hunanswered

omit [DecidableEq Thread] [DecidableEq Uuid] in
/-- Answers may be sent to requests that are not stored for a goal without a result, and
that no other thread handles. -/
theorem RequestsInOrder.answer (h : RequestsInOrder s) {answers : List (Request × Option Result)}
    (hheld : ∀ t q u, (s.thread t).request = some (q, u) → q ∉ answers.map Prod.fst)
    (hwaiting : ∀ q u, q ∈ s.requests u → s.results u = none → q ∉ answers.map Prod.fst) :
    RequestsInOrder (s.answer answers) := by
  have hanswered : ∀ q, q ∉ s.answered → q ∉ answers.map Prod.fst →
      q ∉ (s.answer answers).answered := by
    intro q hbefore hnow hq
    simp only [ServerState.answered, ServerState.answer, List.map_append, List.mem_append] at hq
    exact hq.elim hbefore hnow
  refine ⟨h.nodup, fun t q u hpc => ?_, h.holder, h.stored, h.distinct, fun q u hq hresult => ?_,
    h.sending⟩
  · obtain ⟨htaken, hunanswered, hunstored⟩ := h.held t q u hpc
    exact ⟨htaken, hanswered q hunanswered (hheld t q u hpc), hunstored⟩
  · exact hanswered q (h.waiting q u hq hresult) (hwaiting q u hq hresult)

omit [DecidableEq Thread] [DecidableEq Uuid] in
theorem AnswersInOrder.answer (h : AnswersInOrder s) {answers : List (Request × Option Result)}
    (honce : (answers.map Prod.fst).Nodup)
    (hnew : ∀ q ∈ answers.map Prod.fst, q ∉ s.answered ∧ q ∈ s.taken.map Prod.fst)
    (hright : ∀ q result, (q, some result) ∈ answers →
      ∃ u, (q, u) ∈ s.taken ∧ s.endedWith u = some result) :
    AnswersInOrder (s.answer answers) := by
  constructor
  · simp only [ServerState.answered, ServerState.answer, List.map_append]
    exact h.once.append honce fun q hbefore hnow => (hnew q hnow).1 hbefore
  · intro q hq
    simp only [ServerState.answered, ServerState.answer, List.map_append, List.mem_append] at hq
    exact hq.elim (h.known q) fun hnow => (hnew q hnow).2
  · intro q result hq
    exact (List.mem_append.mp hq).elim (h.right q result) (hright q result)

omit [DecidableEq Uuid] in
theorem requestsInOrder_send (h : RequestsInOrder s) {t : Thread} {q : Request} {u : Uuid}
    {answer : Option Result} (sent : Sent) (hpc : s.thread t = .sending q u answer) :
    RequestsInOrder ((s.answer (if sent = .ok then [(q, answer)] else [])).goto t .idle) := by
  have hgoto : RequestsInOrder (s.goto t .idle) := h.goto (by simp [ServerPc.request]) (by simp)
  have hheld : (s.thread t).request = some (q, u) := by rw [hpc]; rfl
  split
  · apply hgoto.answer
    · intro t' q' u' hpc' hq
      obtain rfl : q' = q := by simpa using hq
      have hne : t' ≠ t := by
        rintro rfl
        simp [ServerState.goto, ServerPc.request] at hpc'
      exact hne (h.holder t' t q' u' u (by simpa [ServerState.goto, hne] using hpc') hheld)
    · intro q' u' hstored _ hq
      obtain rfl : q' = q := by simpa using hq
      exact (h.held t q' u hheld).2.2 u' hstored
  · exact hgoto.answer (by simp) (by simp)

omit [DecidableEq Thread] [DecidableEq Uuid] in
theorem answersInOrder_send (h : RequestsInOrder s) (hanswers : AnswersInOrder s) {t : Thread}
    {q : Request} {u : Uuid} {answer : Option Result} (sent : Sent)
    (hpc : s.thread t = .sending q u answer) :
    AnswersInOrder (s.answer (if sent = .ok then [(q, answer)] else [])) := by
  have hheld : (s.thread t).request = some (q, u) := by rw [hpc]; rfl
  obtain ⟨htaken, hunanswered, -⟩ := h.held t q u hheld
  split
  · apply hanswers.answer (by simp)
    · intro q' hq
      obtain rfl : q' = q := by simpa using hq
      exact ⟨hunanswered, List.mem_map_of_mem htaken⟩
    · intro q' result hq
      obtain ⟨rfl, rfl⟩ : q' = q ∧ answer = some result := by simpa [eq_comm] using hq
      exact ⟨u, htaken, h.sending t q' u result hpc⟩
  · exact hanswers.answer (by simp) (by simp) (by simp)

theorem delivered_sublist (sent : Request → Sent) (requests : List Request) :
    (delivered sent requests).Sublist requests :=
  List.filter_sublist.trans (List.takeWhile_sublist _)

/-- The requests that `publish_result` answers. -/
theorem map_delivered (sent : Request → Sent) (requests : List Request) (result : Result) :
    ((delivered sent requests).map fun q => (q, some result)).map Prod.fst =
      delivered sent requests := by
  simp [Function.comp_def]

theorem requestsInOrder_publish (h : RequestsInOrder s) {t : Thread} {u : Uuid}
    {result : Result} (sent : Request → Sent) :
    RequestsInOrder ((s.publish u result sent).goto t .idle) := by
  have hgoto : RequestsInOrder (s.goto t .idle) := h.goto (by simp [ServerPc.request]) (by simp)
  have hdelivered : ∀ q ∈ delivered sent (s.requests u), q ∈ s.requests u :=
    fun q hq => (delivered_sublist sent _).subset hq
  refine ⟨h.nodup, fun t' q u' hpc => ?_, hgoto.holder, h.stored, h.distinct,
    fun q u' hq hresult => ?_, hgoto.sending⟩
  · obtain ⟨htaken, hunanswered, hunstored⟩ := hgoto.held t' q u' hpc
    refine ⟨htaken, fun hanswered => ?_, hunstored⟩
    simp only [ServerState.answered, ServerState.publish, ServerState.answer, ServerState.goto,
      List.map_append, map_delivered, List.mem_append] at hanswered
    exact hanswered.elim hunanswered fun hnow => hunstored u (hdelivered q hnow)
  · have hne : u' ≠ u := by
      rintro rfl
      simp [ServerState.publish, ServerState.goto] at hresult
    have hresult' : s.results u' = none := by
      simpa [ServerState.publish, ServerState.goto, hne] using hresult
    intro hanswered
    simp only [ServerState.answered, ServerState.publish, ServerState.answer, ServerState.goto,
      List.map_append, map_delivered, List.mem_append] at hanswered
    obtain hbefore | hnow := hanswered
    · exact h.waiting q u' hq hresult' hbefore
    · exact hne (h.goal_unique (h.stored q u' hq) (h.stored q u (hdelivered q hnow)))

omit [DecidableEq Thread] [DecidableEq Uuid] in
theorem answersInOrder_publish (h : RequestsInOrder s) (hanswers : AnswersInOrder s) {u : Uuid}
    {result : Result} (sent : Request → Sent) (hresult : s.results u = none)
    (hended : s.endedWith u = some result) :
    AnswersInOrder (s.answer ((delivered sent (s.requests u)).map fun q => (q, some result))) := by
  have hdelivered : ∀ q ∈ delivered sent (s.requests u), q ∈ s.requests u :=
    fun q hq => (delivered_sublist sent _).subset hq
  apply hanswers.answer
  · rw [map_delivered]
    exact (h.distinct u).sublist (delivered_sublist sent _)
  · rw [map_delivered]
    intro q hq
    have hstored := hdelivered q hq
    exact ⟨h.waiting q u hstored hresult, List.mem_map_of_mem (h.stored q u hstored)⟩
  · intro q result' hq
    obtain ⟨q', hq', hsame⟩ := List.mem_map.mp hq
    cases hsame
    exact ⟨u, h.stored q u (hdelivered q hq'), hended⟩

theorem requestsInOrder_erase (h : RequestsInOrder s) {t : Thread} (u : Uuid) :
    RequestsInOrder ((s.erase u).goto t .idle) := by
  have hgoto : RequestsInOrder (s.goto t .idle) := h.goto (by simp [ServerPc.request]) (by simp)
  have hleft : ∀ q u', q ∈ (s.erase u).requests u' → q ∈ s.requests u' ∧ u' ≠ u := by
    intro q u' hq
    have hne : u' ≠ u := by
      rintro rfl
      simp [ServerState.erase] at hq
    exact ⟨by simpa [ServerState.erase, hne] using hq, hne⟩
  refine ⟨h.nodup, fun t' q u' hpc => ?_, hgoto.holder,
    fun q u' hq => h.stored q u' (hleft q u' hq).1, fun u' => ?_, fun q u' hq hresult => ?_,
    hgoto.sending⟩
  · obtain ⟨htaken, hunanswered, hunstored⟩ := hgoto.held t' q u' hpc
    exact ⟨htaken, hunanswered, fun u'' hq => hunstored u'' (hleft q u'' hq).1⟩
  · by_cases hsame : u' = u
    · simp [ServerState.erase, ServerState.goto, hsame]
    · simpa [ServerState.erase, ServerState.goto, hsame] using h.distinct u'
  · obtain ⟨hq, hne⟩ := hleft q u' hq
    exact h.waiting q u' hq (by simpa [ServerState.erase, ServerState.goto, hne] using hresult)

theorem requestsInOrder_step (hgoals : GoalsInOrder s) (h : RequestsInOrder s)
    (hanswers : AnswersInOrder s) (hstep : ServerStep s label s') : RequestsInOrder s' := by
  cases hstep with
  | accept u hunlisted =>
      exact ⟨h.nodup, h.held, h.holder, h.stored, h.distinct, h.waiting, h.sending⟩
  | event u event state next hgoal htransition hactive =>
      exact ⟨h.nodup, h.held, h.holder, h.stored, h.distinct, h.waiting, h.sending⟩
  | finish t u ending result state next hidle hgoal hending =>
      exact requestsInOrder_finish hgoals h next result hgoal (ending.apply_active hending).1
  | take t q u hidle hnew => exact requestsInOrder_take h hanswers u hnew
  | lookup t q u hpc =>
      apply h.goto
      · rw [hpc]
        split <;> exact fun _ _ hrequest => hrequest
      · split <;> simp
  | fetchResult t q u result hpc hresult =>
      apply h.goto
      · rw [hpc]
        exact fun _ _ hrequest => hrequest
      · rintro _ _ _ hsame
        cases hsame
        exact hgoals.results u result hresult
  | fetchNothing t q u hpc hresult => exact requestsInOrder_store h (by rw [hpc]; rfl)
  | send t q u answer sent hpc => exact requestsInOrder_send h sent hpc
  | check t u result hpc =>
      apply h.goto
      · split <;> simp [ServerPc.request]
      · split <;> simp
  | publish t u result sent hpc => exact requestsInOrder_publish h sent
  | expire t u state hidle hlisted hgoal hinactive =>
      have hgoto : RequestsInOrder (s.goto t (.expired u)) :=
        h.goto (by simp [ServerPc.request]) (by simp)
      exact ⟨hgoto.nodup, hgoto.held, hgoto.holder, hgoto.stored, hgoto.distinct, hgoto.waiting,
        hgoto.sending⟩
  | erase t u hpc => exact requestsInOrder_erase h u

theorem answersInOrder_step (hgoals : GoalsInOrder s) (h : RequestsInOrder s)
    (hanswers : AnswersInOrder s) (hstep : ServerStep s label s') : AnswersInOrder s' := by
  cases hstep with
  | finish t u ending result state next hidle hgoal hending =>
      exact answersInOrder_finish hgoals hanswers next result hgoal
        (ending.apply_active hending).1
  | take t q u hidle hnew =>
      refine ⟨hanswers.once, fun q' hq => ?_, fun q' result hq => ?_⟩
      · simp only [List.map_append, List.mem_append]
        exact .inl (hanswers.known q' hq)
      · obtain ⟨u', htaken, hended⟩ := hanswers.right q' result hq
        exact ⟨u', List.mem_append_left _ htaken, hended⟩
  | send t q u answer sent hpc =>
      have hafter := answersInOrder_send h hanswers sent hpc
      exact ⟨hafter.once, hafter.known, hafter.right⟩
  | publish t u result sent hpc =>
      obtain ⟨hended, hresult⟩ := hgoals.publication t u result (by rw [hpc]; rfl)
      have hafter := answersInOrder_publish h hanswers sent hresult hended
      exact ⟨hafter.once, hafter.known, hafter.right⟩
  | _ => exact ⟨hanswers.once, hanswers.known, hanswers.right⟩

/-- What holds of a server all of whose goals have ids of their own. -/
structure InOrder (s : ServerState Thread Uuid Request Result) : Prop where
  goals : GoalsInOrder s
  requests : RequestsInOrder s
  answers : AnswersInOrder s

omit [DecidableEq Thread] [DecidableEq Uuid] in
theorem inOrder_initial :
    InOrder (ServerState.initial : ServerState Thread Uuid Request Result) :=
  ⟨goalsInOrder_initial, requestsInOrder_initial, answersInOrder_initial⟩

theorem InOrder.step (h : InOrder s) (hfresh : FreshIds s label)
    (hstep : ServerStep s label s') : InOrder s' where
  goals := goalsInOrder_step h.goals hfresh hstep
  requests := requestsInOrder_step h.goals h.requests h.answers hstep
  answers := answersInOrder_step h.goals h.requests h.answers hstep

variable {trace : List (Move (ServerState Thread Uuid Request Result)
  (ServerLabel Thread Uuid Request Result))}

/-- However the threads interleave, and whatever fails to be sent: no request is answered
twice, nobody is answered who did not ask, and the results that are brought are the right
ones. -/
theorem answersInOrder (hrun : Run ServerStep .initial trace s)
    (hfresh : Admitted FreshIds trace) : AnswersInOrder s := by
  have hkeep : ∀ (source : ServerState Thread Uuid Request Result) label target,
      InOrder source → FreshIds source label → ServerStep source label target →
      InOrder target := fun _ _ _ h hfresh hstep => h.step hfresh hstep
  exact (hrun.invariant hkeep inOrder_initial hfresh).answers

end Requests

/-! ## A goal that ends while its result is asked for -/

section Examples

abbrev BoolState := ServerState Bool Unit Unit Unit
abbrev BoolLabel := ServerLabel Bool Unit Unit Unit

theorem stored_then_answered : ∃ (trace : List (Move BoolState BoolLabel)) (s : BoolState),
    Run ServerStep .initial trace s ∧ s.answers = [((), some ())] ∧ AnswersInOrder s := by
  obtain ⟨trace, s, hrun, hfresh, hanswers⟩ : ∃ (trace : List (Move BoolState BoolLabel))
      (s : BoolState), Run ServerStep .initial trace s ∧ Admitted FreshIds trace ∧
        s.answers = [((), some ())] := by
    refine ⟨_, _, .cons (.accept _ () rfl) <| .cons (.event _ () .execute _ _ rfl rfl rfl) <|
      .cons (.take _ true () () rfl (by simp [ServerState.initial, ServerState.accept,
        ServerState.setGoal])) <| .cons (.lookup _ true () () rfl) <|
      .cons (.fetchNothing _ true () () rfl rfl) <|
      .cons (.finish _ false () .succeed () _ _ rfl rfl rfl) <|
      .cons (.check _ false () () rfl) <| .cons (.publish _ false () () (fun _ => .ok) rfl) <|
      .nil _, ?_, rfl⟩
    simp [Admitted, FreshIds, ServerState.initial]
  exact ⟨trace, s, hrun, hanswers, answersInOrder hrun hfresh⟩

end Examples

end RosRtems.ActionServer
