import RosRtems.Action.GoalResults
import Mathlib.Data.List.TakeWhile

/-!
# Requests that are forgotten

A request for a result is forgotten if its goal expires between two locks of the thread
that handles the request, or of the thread that publishes the result, or if sending fails.
Otherwise every request has been answered, or somebody is still going to answer it.  The
same races leave results and requests behind in the maps of the server.
-/

namespace RosRtems.ActionServer

open Function
open RosRtems.Runs

variable {Thread Uuid Request Result : Type*}

/-! ## Requests that are forgotten -/

/-- A request that was taken has been answered, or a thread is handling it, or it waits for
a result that is going to be published. -/
def NobodyForgotten (s : ServerState Thread Uuid Request Result) : Prop :=
  ∀ q u, (q, u) ∈ s.taken → q ∈ s.answered ∨ (∃ t, (s.thread t).request = some (q, u)) ∨
    (q ∈ s.requests u ∧ s.results u = none ∧ s.Pending u)

/-- No goal expires while a thread stores a request for its result or publishes it, and
whatever is sent arrives. -/
def KeepsRequests (s : ServerState Thread Uuid Request Result) :
    ServerLabel Thread Uuid Request Result → Prop
  | .fetch t => ∀ q u, s.thread t = .found q u → s.results u = none → s.Pending u
  | .send _ sent => sent = .ok
  | .check t => ∀ u result, s.thread t = .ended u result → s.listed u = false →
      s.requests u = []
  | .publish t sent => ∀ u result, s.thread t = .publishing u result →
      ∀ q ∈ s.requests u, sent q = .ok
  | .erase t => ∀ u, s.thread t = .expired u → s.results u = none → s.requests u = []
  | _ => True

section Forgotten

variable [DecidableEq Thread] [DecidableEq Uuid]
  {s s' : ServerState Thread Uuid Request Result}
  {label : ServerLabel Thread Uuid Request Result}

omit [DecidableEq Uuid] in
theorem pending_goto_iff {t : Thread} {pc : ServerPc Uuid Request Result} {u : Uuid}
    (hsame : pc.publication = (s.thread t).publication) :
    (s.goto t pc).Pending u ↔ s.Pending u := by
  have hthread : ∀ t', ((s.goto t pc).thread t').publication = (s.thread t').publication := by
    intro t'
    by_cases heq : t' = t
    · subst heq
      simpa [ServerState.goto] using hsame
    · simp [ServerState.goto, heq]
  simp only [ServerState.Pending, hthread]
  rfl

omit [DecidableEq Uuid] in
/-- A thread that goes on with the same request forgets nothing. -/
theorem NobodyForgotten.goto (hkept : NobodyForgotten s) {t : Thread}
    {pc : ServerPc Uuid Request Result} (hrequest : pc.request = (s.thread t).request)
    (hpublication : pc.publication = (s.thread t).publication) :
    NobodyForgotten (s.goto t pc) := by
  intro q u htaken
  obtain hanswered | ⟨t', hheld⟩ | ⟨hstored, hresult, hpending⟩ := hkept q u htaken
  · exact .inl hanswered
  · refine .inr (.inl ⟨t', ?_⟩)
    by_cases hsame : t' = t
    · subst hsame
      simpa [ServerState.goto, hrequest] using hheld
    · simpa [ServerState.goto, hsame] using hheld
  · exact .inr (.inr ⟨hstored, hresult, (pending_goto_iff hpublication).mpr hpending⟩)

theorem nobodyForgotten_store_iff (h : InOrder s) (hkept : NobodyForgotten s) {t : Thread}
    {q : Request} {u : Uuid} (hpc : s.thread t = .found q u) (hresult : s.results u = none) :
    NobodyForgotten ((s.store q u).goto t .idle) ↔ s.Pending u := by
  have hheld : (s.thread t).request = some (q, u) := by rw [hpc]; rfl
  obtain ⟨htaken, hunanswered, -⟩ := h.requests.held t q u hheld
  have hpending : ∀ u', ((s.store q u).goto t .idle).Pending u' ↔ s.Pending u' :=
    fun u' => pending_goto_iff (s := s.store q u) (by simp [ServerState.store, hpc,
      ServerPc.publication])
  constructor
  · intro hkept'
    obtain hanswered | ⟨t', hheld'⟩ | ⟨-, -, hafter⟩ := hkept' q u htaken
    · exact absurd hanswered hunanswered
    · have hne : t' ≠ t := by
        rintro rfl
        simp [ServerState.goto, ServerPc.request] at hheld'
      refine absurd (h.requests.holder t' t q u u ?_ hheld) hne
      simpa [ServerState.goto, ServerState.store, hne] using hheld'
    · exact (hpending u).mp hafter
  · intro hbefore q' u' htaken'
    obtain hanswered | ⟨t', hheld'⟩ | ⟨hstored, hresult', hpending'⟩ := hkept q' u' htaken'
    · exact .inl hanswered
    · by_cases hsame : t' = t
      · obtain ⟨rfl, rfl⟩ : q' = q ∧ u' = u := by
          rw [hsame, hheld] at hheld'
          simpa [eq_comm] using hheld'
        refine .inr (.inr ⟨?_, hresult, (hpending u').mpr hbefore⟩)
        simp [ServerState.goto, ServerState.store]
      · exact .inr (.inl ⟨t', by simpa [ServerState.goto, ServerState.store, hsame] using hheld'⟩)
    · refine .inr (.inr ⟨?_, hresult', (hpending u').mpr hpending'⟩)
      by_cases hsame : u' = u
      · subst hsame
        simp [ServerState.goto, ServerState.store, hstored]
      · simpa [ServerState.goto, ServerState.store, hsame] using hstored

omit [DecidableEq Uuid] in
theorem nobodyForgotten_send_iff (h : InOrder s) (hkept : NobodyForgotten s) {t : Thread}
    {q : Request} {u : Uuid} {answer : Option Result} (sent : Sent)
    (hpc : s.thread t = .sending q u answer) :
    NobodyForgotten ((s.answer (if sent = .ok then [(q, answer)] else [])).goto t .idle) ↔
      sent = .ok := by
  have hheld : (s.thread t).request = some (q, u) := by rw [hpc]; rfl
  obtain ⟨htaken, hunanswered, hunstored⟩ := h.requests.held t q u hheld
  constructor
  · intro hkept'
    by_contra hfailed
    obtain hanswered | ⟨t', hheld'⟩ | ⟨hstored, -, -⟩ := hkept' q u htaken
    · simp [ServerState.goto, ServerState.answered, ServerState.answer, hfailed] at hanswered
      exact hunanswered (by simpa [ServerState.answered] using hanswered)
    · have hne : t' ≠ t := by
        rintro rfl
        simp [ServerState.goto, ServerPc.request] at hheld'
      refine hne (h.requests.holder t' t q u u ?_ hheld)
      simpa [ServerState.goto, ServerState.answer, hne] using hheld'
    · exact hunstored u hstored
  · rintro rfl q' u' htaken'
    obtain hanswered | ⟨t', hheld'⟩ | ⟨hstored, hresult, hpending⟩ := hkept q' u' htaken'
    · refine .inl ?_
      simp only [ServerState.answered, ServerState.goto, ServerState.answer, List.map_append]
      exact List.mem_append_left _ hanswered
    · by_cases hsame : t' = t
      · obtain ⟨rfl, rfl⟩ : q' = q ∧ u' = u := by
          rw [hsame, hheld] at hheld'
          simpa [eq_comm] using hheld'
        exact .inl (by simp [ServerState.answered, ServerState.goto, ServerState.answer])
      · exact .inr (.inl ⟨t', by simpa [ServerState.goto, ServerState.answer, hsame] using hheld'⟩)
    · refine .inr (.inr ⟨hstored, hresult, ?_⟩)
      have hsame : (s.goto t .idle).Pending u' ↔ s.Pending u' :=
        pending_goto_iff (by rw [hpc]; rfl)
      exact hsame.mpr hpending

omit [DecidableEq Thread] in
theorem nobodyForgotten_accept (h : InOrder s) (hkept : NobodyForgotten s) {u : Uuid}
    (hnew : s.goal u = none) : NobodyForgotten (s.accept u) := by
  intro q u' htaken
  obtain hanswered | hheld | ⟨hstored, hresult, hpending⟩ := hkept q u' htaken
  · exact .inl hanswered
  · exact .inr (.inl hheld)
  · refine .inr (.inr ⟨hstored, hresult, ?_⟩)
    have hne : u' ≠ u := by
      rintro rfl
      rw [(h.goals.unborn u' hnew).2.1] at hstored
      cases hstored
    exact hpending.imp
      (fun ⟨state, hgoal, hactive⟩ => ⟨state, (update_of_ne hne _ _).trans hgoal, hactive⟩) id

omit [DecidableEq Thread] in
theorem nobodyForgotten_event (hkept : NobodyForgotten s) {u : Uuid} {next : GoalState}
    (hactive : next.isActive = true) : NobodyForgotten (s.setGoal u next) := by
  intro q u' htaken
  obtain hanswered | hheld | ⟨hstored, hresult, hpending⟩ := hkept q u' htaken
  · exact .inl hanswered
  · exact .inr (.inl hheld)
  · refine .inr (.inr ⟨hstored, hresult, hpending.imp (fun ⟨state, hgoal, hstate⟩ => ?_) id⟩)
    by_cases hsame : u' = u
    · exact ⟨next, by simp [ServerState.setGoal, hsame], hactive⟩
    · exact ⟨state, (update_of_ne hsame _ _).trans hgoal, hstate⟩

/-- Whoever ends a goal is going to publish its result. -/
theorem nobodyForgotten_finish (hkept : NobodyForgotten s) {t : Thread} {u : Uuid}
    {next : GoalState} {result : Result} (hidle : s.thread t = .idle) :
    NobodyForgotten (s.finish t u next result) := by
  intro q u' htaken
  obtain hanswered | ⟨t', hheld⟩ | ⟨hstored, hresult, hpending⟩ := hkept q u' htaken
  · exact .inl hanswered
  · have hne : t' ≠ t := by
      rintro rfl
      simp [hidle, ServerPc.request] at hheld
    refine .inr (.inl ⟨t', ?_⟩)
    simpa [ServerState.finish, ServerState.goto, ServerState.setGoal, hne] using hheld
  · refine .inr (.inr ⟨hstored, hresult, ?_⟩)
    by_cases hsame : u' = u
    · refine .inr ⟨t, result, ?_⟩
      simp [ServerState.finish, ServerState.goto, ServerPc.publication, hsame]
    · obtain ⟨state, hgoal, hactive⟩ | ⟨t', result', hpublishes⟩ := hpending
      · exact .inl ⟨state, (update_of_ne hsame _ _).trans hgoal, hactive⟩
      · have hne : t' ≠ t := by
          rintro rfl
          simp [hidle, ServerPc.publication] at hpublishes
        refine .inr ⟨t', result', ?_⟩
        simpa [ServerState.finish, ServerState.goto, ServerState.setGoal, hne] using hpublishes

omit [DecidableEq Uuid] in
theorem nobodyForgotten_take (hkept : NobodyForgotten s) {t : Thread} (q : Request) (u : Uuid)
    (hidle : s.thread t = .idle) :
    NobodyForgotten { s.goto t (.taken q u) with taken := s.taken ++ [(q, u)] } := by
  intro q' u' htaken
  obtain hbefore | hnow := List.mem_append.mp htaken
  · obtain hanswered | ⟨t', hheld⟩ | ⟨hstored, hresult, hpending⟩ := hkept q' u' hbefore
    · exact .inl hanswered
    · have hne : t' ≠ t := by
        rintro rfl
        simp [hidle, ServerPc.request] at hheld
      exact .inr (.inl ⟨t', by simpa [ServerState.goto, hne] using hheld⟩)
    · have hsame : (s.goto t (.taken q u)).Pending u' ↔ s.Pending u' :=
        pending_goto_iff (by rw [hidle]; rfl)
      exact .inr (.inr ⟨hstored, hresult, hsame.mpr hpending⟩)
  · cases List.mem_singleton.mp hnow
    exact .inr (.inl ⟨t, by simp [ServerState.goto, ServerPc.request]⟩)

omit [DecidableEq Uuid] in
theorem pending_of_unpublished (h : GoalsInOrder s) {t : Thread} {u : Uuid} {result : Result}
    (hpublishes : (s.thread t).publication = some (u, result)) (u' : Uuid) :
    (s.goto t .idle).Pending u' ↔ u' ≠ u ∧ s.Pending u' := by
  have hother : ∀ t', t' ≠ t → (s.goto t .idle).thread t' = s.thread t' :=
    fun t' hne => update_of_ne hne _ _
  have hpublisher : ∀ t' result', ((s.goto t .idle).thread t').publication = some (u', result') →
      t' ≠ t ∧ (s.thread t').publication = some (u', result') := by
    intro t' result' hpc
    have hne : t' ≠ t := by
      rintro rfl
      simp [ServerState.goto, ServerPc.publication] at hpc
    exact ⟨hne, by rwa [hother t' hne] at hpc⟩
  constructor
  · rintro (hactive | ⟨t', result', hpc⟩)
    · refine ⟨?_, .inl hactive⟩
      rintro rfl
      exact h.publication_of_active hactive t result hpublishes
    · obtain ⟨hne, hpc'⟩ := hpublisher t' result' hpc
      refine ⟨?_, .inr ⟨t', result', hpc'⟩⟩
      rintro rfl
      exact hne (h.publisher t' t _ result' result hpc' hpublishes)
  · rintro ⟨hne, hactive | ⟨t', result', hpc⟩⟩
    · exact .inl hactive
    · have hne' : t' ≠ t := by
        rintro rfl
        cases hpublishes.symm.trans hpc
        exact hne rfl
      exact .inr ⟨t', result', by rwa [hother t' hne']⟩

omit [DecidableEq Uuid] in
/-- If there is no goal to publish a result for, whoever has asked for it gets none. -/
theorem nobodyForgotten_unpublished_iff (h : InOrder s) (hkept : NobodyForgotten s) {t : Thread}
    {u : Uuid} {result : Result} (hpc : s.thread t = .ended u result) :
    NobodyForgotten (s.goto t .idle) ↔ s.requests u = [] := by
  have hpublishes : (s.thread t).publication = some (u, result) := by rw [hpc]; rfl
  have hpending := pending_of_unpublished h.goals hpublishes
  have hresult := (h.goals.publication t u result hpublishes).2
  have hheld : ∀ t' q u', ((s.goto t .idle).thread t').request = some (q, u') ↔
      (s.thread t').request = some (q, u') := by
    intro t' q u'
    by_cases hsame : t' = t
    · simp [ServerState.goto, ServerPc.request, hsame, hpc]
    · simp [ServerState.goto, hsame]
  constructor
  · intro hkept'
    apply List.eq_nil_iff_forall_not_mem.mpr
    intro q hstored
    obtain hanswered | ⟨t', hrequest⟩ | ⟨-, -, hafter⟩ :=
      hkept' q u (h.requests.stored q u hstored)
    · exact h.requests.waiting q u hstored hresult hanswered
    · exact (h.requests.held t' q u ((hheld t' q u).mp hrequest)).2.2 u hstored
    · exact ((hpending u).mp hafter).1 rfl
  · intro hempty q u' htaken
    obtain hanswered | ⟨t', hrequest⟩ | ⟨hstored, hresult', hbefore⟩ := hkept q u' htaken
    · exact .inl hanswered
    · exact .inr (.inl ⟨t', (hheld t' q u').mpr hrequest⟩)
    · refine .inr (.inr ⟨hstored, hresult', (hpending u').mpr ⟨?_, hbefore⟩⟩)
      rintro rfl
      rw [hempty] at hstored
      cases hstored

theorem delivered_eq_self (sent : Request → Sent) {requests : List Request}
    (hsent : ∀ q ∈ requests, sent q = .ok) : delivered sent requests = requests := by
  have hwhole : requests.takeWhile (fun q => sent q ≠ .error) = requests :=
    List.takeWhile_eq_self_iff.mpr fun q hq => by simp [hsent q hq]
  rw [delivered, hwhole]
  exact List.filter_eq_self.mpr fun q hq => by simp [hsent q hq]

theorem nobodyForgotten_publish_iff (h : InOrder s) (hkept : NobodyForgotten s) {t : Thread}
    {u : Uuid} {result : Result} (sent : Request → Sent)
    (hpc : s.thread t = .publishing u result) :
    NobodyForgotten ((s.publish u result sent).goto t .idle) ↔
      ∀ q ∈ s.requests u, sent q = .ok := by
  have hpublishes : (s.thread t).publication = some (u, result) := by rw [hpc]; rfl
  have hresult := (h.goals.publication t u result hpublishes).2
  have hheld : ∀ t' q u', (((s.publish u result sent).goto t .idle).thread t').request =
      some (q, u') ↔ (s.thread t').request = some (q, u') := by
    intro t' q u'
    by_cases hsame : t' = t
    · simp [ServerState.goto, ServerPc.request, hsame, hpc]
    · simp [ServerState.goto, ServerState.publish, ServerState.answer, hsame]
  have hanswered : ∀ q, q ∈ ((s.publish u result sent).goto t .idle).answered ↔
      q ∈ s.answered ∨ q ∈ delivered sent (s.requests u) := by
    intro q
    simp only [ServerState.answered, ServerState.publish, ServerState.answer, ServerState.goto,
      List.map_append, map_delivered, List.mem_append]
  constructor
  · intro hkept' q hstored
    obtain hdone | ⟨t', hrequest⟩ | ⟨-, hnone, -⟩ :=
      hkept' q u (h.requests.stored q u hstored)
    · obtain hbefore | hnow := (hanswered q).mp hdone
      · exact absurd hbefore (h.requests.waiting q u hstored hresult)
      · simpa using (List.mem_filter.mp hnow).2
    · exact absurd hstored ((h.requests.held t' q u ((hheld t' q u).mp hrequest)).2.2 u)
    · simp [ServerState.goto, ServerState.publish] at hnone
  · intro hsent q u' htaken
    obtain hdone | ⟨t', hrequest⟩ | ⟨hstored, hnone, hpending⟩ := hkept q u' htaken
    · exact .inl ((hanswered q).mpr (.inl hdone))
    · exact .inr (.inl ⟨t', (hheld t' q u').mpr hrequest⟩)
    · by_cases hsame : u' = u
      · rw [delivered_eq_self sent hsent] at hanswered
        rw [hsame] at hstored
        exact .inl ((hanswered q).mpr (.inr hstored))
      · refine .inr (.inr ⟨hstored, ?_, ?_⟩)
        · simpa [ServerState.goto, ServerState.publish, hsame] using hnone
        · exact (pending_of_unpublished h.goals hpublishes u').mpr ⟨hsame, hpending⟩

theorem nobodyForgotten_erase_iff (h : InOrder s) (hkept : NobodyForgotten s) {t : Thread}
    {u : Uuid} (hpc : s.thread t = .expired u) :
    NobodyForgotten ((s.erase u).goto t .idle) ↔ (s.results u = none → s.requests u = []) := by
  have hheld : ∀ t' q u', (((s.erase u).goto t .idle).thread t').request = some (q, u') ↔
      (s.thread t').request = some (q, u') := by
    intro t' q u'
    by_cases hsame : t' = t
    · simp [ServerState.goto, ServerPc.request, hsame, hpc]
    · simp [ServerState.goto, ServerState.erase, hsame]
  have hpending : ∀ u', ((s.erase u).goto t .idle).Pending u' ↔ s.Pending u' :=
    fun u' => pending_goto_iff (s := s.erase u) (by simp [ServerState.erase, hpc,
      ServerPc.publication])
  constructor
  · intro hkept' hresult
    apply List.eq_nil_iff_forall_not_mem.mpr
    intro q hstored
    obtain hdone | ⟨t', hrequest⟩ | ⟨hstored', -, -⟩ :=
      hkept' q u (h.requests.stored q u hstored)
    · exact h.requests.waiting q u hstored hresult hdone
    · exact (h.requests.held t' q u ((hheld t' q u).mp hrequest)).2.2 u hstored
    · simp [ServerState.goto, ServerState.erase] at hstored'
  · intro hempty q u' htaken
    obtain hdone | ⟨t', hrequest⟩ | ⟨hstored, hresult, hbefore⟩ := hkept q u' htaken
    · exact .inl hdone
    · exact .inr (.inl ⟨t', (hheld t' q u').mpr hrequest⟩)
    · have hne : u' ≠ u := by
        rintro rfl
        rw [hempty hresult] at hstored
        cases hstored
      refine .inr (.inr ⟨?_, ?_, (hpending u').mpr hbefore⟩)
      · simpa [ServerState.goto, ServerState.erase, hne] using hstored
      · simpa [ServerState.goto, ServerState.erase, hne] using hresult

theorem nobodyForgotten_step_iff (h : InOrder s) (hkept : NobodyForgotten s)
    (hfresh : FreshIds s label) (hstep : ServerStep s label s') :
    NobodyForgotten s' ↔ KeepsRequests s label := by
  cases hstep with
  | accept u hunlisted => exact iff_of_true (nobodyForgotten_accept h hkept hfresh) trivial
  | event u event state next hgoal htransition hactive =>
      exact iff_of_true (nobodyForgotten_event hkept hactive) trivial
  | finish t u ending result state next hidle hgoal hending =>
      exact iff_of_true (nobodyForgotten_finish hkept hidle) trivial
  | take t q u hidle hnew => exact iff_of_true (nobodyForgotten_take hkept q u hidle) trivial
  | lookup t q u hpc =>
      refine iff_of_true (hkept.goto ?_ ?_) trivial
      · rw [hpc]
        split <;> rfl
      · rw [hpc]
        split <;> rfl
  | fetchResult t q u result hpc hresult =>
      refine iff_of_true (hkept.goto (by rw [hpc]; rfl) (by rw [hpc]; rfl)) ?_
      intro q' u' hpc' hnone
      cases hpc.symm.trans hpc'
      cases hresult.symm.trans hnone
  | fetchNothing t q u hpc hresult =>
      rw [nobodyForgotten_store_iff h hkept hpc hresult]
      simp [KeepsRequests, hpc, hresult]
  | send t q u answer sent hpc => exact nobodyForgotten_send_iff h hkept sent hpc
  | check t u result hpc =>
      cases hlisted : s.listed u with
      | true =>
          refine iff_of_true (hkept.goto (by rw [hpc]; rfl) (by rw [hpc]; rfl)) ?_
          intro u' result' hpc' hunlisted
          cases hpc.symm.trans hpc'
          cases hlisted.symm.trans hunlisted
      | false =>
          refine (nobodyForgotten_unpublished_iff h hkept hpc).trans ?_
          simp [KeepsRequests, hpc, hlisted]
  | publish t u result sent hpc =>
      rw [nobodyForgotten_publish_iff h hkept sent hpc]
      simp [KeepsRequests, hpc]
  | expire t u state hidle hlisted hgoal hinactive =>
      exact iff_of_true (hkept.goto (by rw [hidle]; rfl) (by rw [hidle]; rfl)) trivial
  | erase t u hpc =>
      rw [nobodyForgotten_erase_iff h hkept hpc]
      simp [KeepsRequests, hpc]

variable {trace : List (Move (ServerState Thread Uuid Request Result)
  (ServerLabel Thread Uuid Request Result))}

/-- Nobody who asks for a result is ever forgotten exactly if no goal expires at the wrong
moment and no answer fails to be sent. -/
theorem nobodyForgotten_throughout_iff (hrun : Run ServerStep .initial trace s)
    (hfresh : Admitted FreshIds trace) :
    Throughout NobodyForgotten .initial trace ↔ Admitted KeepsRequests trace := by
  have hinitial : InOrder (ServerState.initial : ServerState Thread Uuid Request Result) ∧
      NobodyForgotten (ServerState.initial : ServerState Thread Uuid Request Result) :=
    ⟨inOrder_initial, fun _ _ htaken => nomatch htaken⟩
  have hholds : ∀ s : ServerState Thread Uuid Request Result,
      InOrder s ∧ NobodyForgotten s → NobodyForgotten s := fun _ h => h.2
  apply (hrun.restrict hfresh).throughout_iff_admitted hholds _ _ hinitial
  · rintro _ _ _ ⟨h, hkept⟩ hkeeps ⟨hstep, hnew⟩
    exact ⟨h.step hnew hstep, (nobodyForgotten_step_iff h hkept hnew hstep).mpr hkeeps⟩
  · rintro _ _ _ ⟨h, hkept⟩ ⟨hstep, hnew⟩ hkept'
    exact (nobodyForgotten_step_iff h hkept hnew hstep).mp hkept'

end Forgotten

/-! ## Results and requests that stay behind -/

/-- The server has the goal in its list, or is about to erase what it keeps for it. -/
def ServerState.Keeps (s : ServerState Thread Uuid Request Result) (u : Uuid) : Prop :=
  s.listed u = true ∨ ∃ t, s.thread t = .expired u

/-- Nothing is kept for a goal that is gone. -/
def NothingLeft (s : ServerState Thread Uuid Request Result) : Prop :=
  ∀ u, s.results u ≠ none ∨ s.requests u ≠ [] → s.Keeps u

/-- Nobody stores a request or a result for a goal that is gone. -/
def StoresInTime (s : ServerState Thread Uuid Request Result) :
    ServerLabel Thread Uuid Request Result → Prop
  | .fetch t => ∀ q u, s.thread t = .found q u → s.results u = none → s.Keeps u
  | .publish t _ => ∀ u result, s.thread t = .publishing u result → s.Keeps u
  | _ => True

section Left

variable [DecidableEq Thread] [DecidableEq Uuid]
  {s s' : ServerState Thread Uuid Request Result}
  {label : ServerLabel Thread Uuid Request Result}

omit [DecidableEq Uuid] in
theorem keeps_goto_iff {t : Thread} {pc : ServerPc Uuid Request Result} {u : Uuid}
    (hbefore : s.thread t ≠ .expired u) (hafter : pc ≠ .expired u) :
    (s.goto t pc).Keeps u ↔ s.Keeps u := by
  apply or_congr_right
  constructor
  · rintro ⟨t', hpc⟩
    have hne : t' ≠ t := by
      rintro rfl
      exact hafter (by simpa [ServerState.goto] using hpc)
    exact ⟨t', by simpa [ServerState.goto, hne] using hpc⟩
  · rintro ⟨t', hpc⟩
    have hne : t' ≠ t := by
      rintro rfl
      exact hbefore hpc
    exact ⟨t', by simpa [ServerState.goto, hne] using hpc⟩

omit [DecidableEq Uuid] in
/-- A thread that stores nothing leaves nothing behind. -/
theorem NothingLeft.goto (hleft : NothingLeft s) {t : Thread} {pc : ServerPc Uuid Request Result}
    (hbefore : ∀ u, s.thread t ≠ .expired u) (hafter : ∀ u, pc ≠ .expired u) :
    NothingLeft (s.goto t pc) :=
  fun u hstored => (keeps_goto_iff (hbefore u) (hafter u)).mpr (hleft u hstored)

theorem nothingLeft_store_iff (hleft : NothingLeft s) {t : Thread} {q : Request} {u : Uuid}
    (hpc : s.thread t = .found q u) :
    NothingLeft ((s.store q u).goto t .idle) ↔ s.Keeps u := by
  have hkeeps : ∀ u', ((s.store q u).goto t .idle).Keeps u' ↔ s.Keeps u' := fun u' =>
    keeps_goto_iff (s := s.store q u) (by simp [ServerState.store, hpc]) (by simp)
  constructor
  · exact fun hleft' => (hkeeps u).mp (hleft' u (.inr (by simp [ServerState.store,
      ServerState.goto])))
  · intro hkept u' hstored
    rw [hkeeps]
    by_cases hsame : u' = u
    · rwa [hsame]
    · exact hleft u' (by simpa [ServerState.store, ServerState.goto, hsame] using hstored)

theorem nothingLeft_publish_iff (hleft : NothingLeft s) {t : Thread} {u : Uuid}
    {result : Result} (sent : Request → Sent) (hpc : s.thread t = .publishing u result) :
    NothingLeft ((s.publish u result sent).goto t .idle) ↔ s.Keeps u := by
  have hkeeps : ∀ u', ((s.publish u result sent).goto t .idle).Keeps u' ↔ s.Keeps u' := fun u' =>
    keeps_goto_iff (s := s.publish u result sent)
      (by simp [ServerState.publish, ServerState.answer, hpc]) (by simp)
  constructor
  · exact fun hleft' => (hkeeps u).mp (hleft' u (.inl (by simp [ServerState.publish,
      ServerState.goto])))
  · intro hkept u' hstored
    rw [hkeeps]
    by_cases hsame : u' = u
    · rwa [hsame]
    · apply hleft u'
      simpa [ServerState.publish, ServerState.answer, ServerState.goto, hsame] using hstored

theorem nothingLeft_expire (hleft : NothingLeft s) {t : Thread} {u : Uuid}
    (hidle : s.thread t = .idle) : NothingLeft ((s.expire u).goto t (.expired u)) := by
  intro u' hstored
  by_cases hsame : u' = u
  · exact .inr ⟨t, by simp [ServerState.goto, hsame]⟩
  · obtain hlisted | ⟨t', hpc⟩ := hleft u' hstored
    · exact .inl ((update_of_ne hsame _ _).trans hlisted)
    · have hne : t' ≠ t := by
        rintro rfl
        cases hidle.symm.trans hpc
      exact .inr ⟨t', (update_of_ne hne _ _).trans hpc⟩

theorem nothingLeft_erase (hleft : NothingLeft s) {t : Thread} {u : Uuid}
    (hpc : s.thread t = .expired u) : NothingLeft ((s.erase u).goto t .idle) := by
  intro u' hstored
  have hne : u' ≠ u := by
    rintro rfl
    simp [ServerState.goto, ServerState.erase] at hstored
  have hbefore : (s.erase u).thread t ≠ .expired u' := by
    intro hpc'
    cases hpc.symm.trans hpc'
    exact hne rfl
  apply (keeps_goto_iff hbefore (by simp)).mpr
  exact hleft u' (by simpa [ServerState.goto, ServerState.erase, hne] using hstored)

theorem nothingLeft_step_iff (hleft : NothingLeft s) (hstep : ServerStep s label s') :
    NothingLeft s' ↔ StoresInTime s label := by
  cases hstep with
  | accept u hunlisted =>
      refine iff_of_true (fun u' hstored => (hleft u' hstored).imp (fun hlisted => ?_) id) trivial
      by_cases hsame : u' = u
      · simp [ServerState.accept, hsame]
      · exact (update_of_ne hsame _ _).trans hlisted
  | event u event state next hgoal htransition hactive => exact iff_of_true hleft trivial
  | finish t u ending result state next hidle hgoal hending =>
      exact iff_of_true (hleft.goto (by simp [hidle]) (by simp)) trivial
  | take t q u hidle hnew =>
      exact iff_of_true (hleft.goto (by simp [hidle]) (by simp)) trivial
  | lookup t q u hpc =>
      refine iff_of_true (hleft.goto (by simp [hpc]) ?_) trivial
      split <;> simp
  | fetchResult t q u result hpc hresult =>
      refine iff_of_true (hleft.goto (by simp [hpc]) (by simp)) ?_
      simp [StoresInTime, hpc, hresult]
  | fetchNothing t q u hpc hresult =>
      rw [nothingLeft_store_iff hleft hpc]
      simp [StoresInTime, hpc, hresult]
  | send t q u answer sent hpc =>
      exact iff_of_true (hleft.goto (by simp [hpc]) (by simp)) trivial
  | check t u result hpc =>
      refine iff_of_true (hleft.goto (by simp [hpc]) ?_) trivial
      split <;> simp
  | publish t u result sent hpc =>
      rw [nothingLeft_publish_iff hleft sent hpc]
      simp [StoresInTime, hpc]
  | expire t u state hidle hlisted hgoal hinactive =>
      exact iff_of_true (nothingLeft_expire hleft hidle) trivial
  | erase t u hpc => exact iff_of_true (nothingLeft_erase hleft hpc) trivial

variable {trace : List (Move (ServerState Thread Uuid Request Result)
  (ServerLabel Thread Uuid Request Result))}

/-- The maps of the server never outgrow its list of goals exactly if nobody stores anything
for a goal that has expired since it was looked up. -/
theorem nothingLeft_throughout_iff (hrun : Run ServerStep .initial trace s) :
    Throughout NothingLeft .initial trace ↔ Admitted StoresInTime trace := by
  have hinitial : NothingLeft (ServerState.initial : ServerState Thread Uuid Request Result) :=
    fun _ hstored => (hstored.elim (· rfl) (· rfl)).elim
  apply hrun.throughout_iff_admitted (fun _ => id) _ _ hinitial
  · exact fun _ _ _ hleft hstores hstep => (nothingLeft_step_iff hleft hstep).mpr hstores
  · exact fun _ _ _ hleft hstep hleft' => (nothingLeft_step_iff hleft hstep).mp hleft'

end Left

/-! ## A goal that expires while its result is asked for -/

section Examples

/-- One thread looks the goal up, another one ends it, publishes its result and lets it
expire, and then the first one stores the request. -/
theorem late_store : ∃ (trace : List (Move BoolState BoolLabel)) (s : BoolState),
    Run ServerStep .initial trace s ∧ Admitted FreshIds trace ∧ s.taken = [((), ())] ∧
      s.answers = [] ∧ s.requests () = [()] ∧ (∀ t, s.thread t = .idle) ∧
      s.goal () = some .succeeded ∧ s.listed () = false := by
  refine ⟨_, _, .cons (.accept _ () rfl) <| .cons (.event _ () .execute _ _ rfl rfl rfl) <|
    .cons (.take _ true () () rfl (by simp [ServerState.initial, ServerState.accept,
      ServerState.setGoal])) <| .cons (.lookup _ true () () rfl) <|
    .cons (.finish _ false () .succeed () _ _ rfl rfl rfl) <|
    .cons (.check _ false () () rfl) <| .cons (.publish _ false () () (fun _ => .ok) rfl) <|
    .cons (.expire _ false () _ rfl rfl rfl rfl) <| .cons (.erase _ false () rfl) <|
    .cons (.fetchNothing _ true () () rfl rfl) <| .nil _, ?_, rfl, rfl, rfl, ?_, rfl, rfl⟩
  · simp [Admitted, FreshIds, ServerState.initial]
  · rintro (_ | _) <;> rfl

/-- The request is forgotten. -/
theorem late_store_forgotten : ∃ (trace : List (Move BoolState BoolLabel)) (s : BoolState),
    Run ServerStep .initial trace s ∧ ¬ Admitted KeepsRequests trace := by
  obtain ⟨trace, s, hrun, hfresh, htaken, hanswers, -, hidle, hgoal, -⟩ := late_store
  refine ⟨trace, s, hrun, fun hkeeps => ?_⟩
  have hall := (nobodyForgotten_throughout_iff hrun hfresh).mpr hkeeps
  obtain hanswered | ⟨t, hheld⟩ | ⟨-, -, hactive | ⟨t, result, hpublishes⟩⟩ :=
    hrun.finish_of_throughout hall () () (by simp [htaken])
  · simp [ServerState.answered, hanswers] at hanswered
  · simp [hidle, ServerPc.request] at hheld
  · obtain ⟨state, hstate, hactive⟩ := hactive
    cases hgoal.symm.trans hstate
    cases hactive
  · simp [hidle, ServerPc.publication] at hpublishes

/-- And it stays in the map. -/
theorem late_store_left : ∃ (trace : List (Move BoolState BoolLabel)) (s : BoolState),
    Run ServerStep .initial trace s ∧ ¬ Admitted StoresInTime trace := by
  obtain ⟨trace, s, hrun, -, -, -, hstored, hidle, -, hlisted⟩ := late_store
  refine ⟨trace, s, hrun, fun hstores => ?_⟩
  have hall := (nothingLeft_throughout_iff hrun).mpr hstores
  obtain hlisted' | ⟨t, hpc⟩ := hrun.finish_of_throughout hall () (.inr (by simp [hstored]))
  · cases hlisted.symm.trans hlisted'
  · cases (hidle t).symm.trans hpc

end Examples

end RosRtems.ActionServer
