import RosRtems.Core.Runs
import Mathlib.Logic.Function.Basic

/-!
# The action server

A goal is accepted, executed and ended by whoever holds its handle; its result is then
published, and some time after it was accepted the goal expires.  Requests for results are
answered at once if the result is there, or if the goal is not known, and are stored
otherwise.  All of this happens in threads that take the locks of the server one at a
time, so that others come in between.
-/

namespace RosRtems.ActionServer

open Function
open RosRtems.Runs

/-! ## The states of a goal -/

inductive GoalState
  | accepted
  | executing
  | canceling
  | succeeded
  | canceled
  | aborted
  deriving DecidableEq

inductive GoalEvent
  | execute
  | cancelGoal
  | succeed
  | abort
  | canceled
  deriving DecidableEq

/-- `_goal_state_transition_map`; where it has no handler, the state is unknown. -/
def transitionGoalState : GoalState → GoalEvent → Option GoalState
  | .accepted, .execute => some .executing
  | .accepted, .cancelGoal => some .canceling
  | .executing, .cancelGoal => some .canceling
  | .executing, .succeed => some .succeeded
  | .executing, .abort => some .aborted
  | .canceling, .succeed => some .succeeded
  | .canceling, .abort => some .aborted
  | .canceling, .canceled => some .canceled
  | _, _ => none

def GoalState.isActive : GoalState → Bool
  | .accepted | .executing | .canceling => true
  | .succeeded | .canceled | .aborted => false

def GoalState.isCancelable (state : GoalState) : Bool :=
  transitionGoalState state .cancelGoal = some .canceling

/-- `try_canceling`, which a handle calls that is destroyed. -/
def tryCanceling (state : GoalState) : Option GoalState :=
  let state := if state.isCancelable then .canceling else state
  if state = .canceling then transitionGoalState state .canceled else none

/-- How the holder of a handle ends the goal. -/
inductive Ending
  | succeed
  | abort
  | canceled
  | destroy
  deriving DecidableEq

def Ending.apply : Ending → GoalState → Option GoalState
  | .succeed, state => transitionGoalState state .succeed
  | .abort, state => transitionGoalState state .abort
  | .canceled, state => transitionGoalState state .canceled
  | .destroy, state => tryCanceling state

theorem isActive_of_transition {state next : GoalState} {event : GoalEvent}
    (htransition : transitionGoalState state event = some next) : state.isActive = true := by
  cases state with
  | accepted | executing | canceling => rfl
  | succeeded | canceled | aborted => cases htransition

/-- Only an active goal is ended, and it is not active afterwards. -/
theorem Ending.apply_active {ending : Ending} {state next : GoalState}
    (hending : ending.apply state = some next) :
    state.isActive = true ∧ next.isActive = false := by
  cases ending <;> cases state <;> simp [Ending.apply, tryCanceling, GoalState.isCancelable,
    transitionGoalState] at hending <;> subst hending <;> decide

/-! ## The server and its threads -/

/-- What a call of the middleware to send a response comes to.  After a timeout the
response is given up, and after any other error an exception is thrown. -/
inductive Sent
  | ok
  | timeout
  | error
  deriving DecidableEq

variable {Thread Uuid Request Result : Type*}

/-- Where a thread is between two locks.  An answer without a result says that the goal is
unknown. -/
inductive ServerPc (Uuid Request Result : Type*)
  | idle
  | taken (q : Request) (u : Uuid)
  | found (q : Request) (u : Uuid)
  | sending (q : Request) (u : Uuid) (answer : Option Result)
  | ended (u : Uuid) (result : Result)
  | publishing (u : Uuid) (result : Result)
  | expired (u : Uuid)

/-- `goal` is the state that a handle refers to, `listed` the goals of the action server in
C, and `results` and `requests` the maps `goal_results_` and `result_requests_`.  The last
three fields are a record of what has happened: the results with which goals were ended,
the requests that were taken, and the answers that were sent. -/
structure ServerState (Thread Uuid Request Result : Type*) where
  goal : Uuid → Option GoalState
  listed : Uuid → Bool
  results : Uuid → Option Result
  requests : Uuid → List Request
  thread : Thread → ServerPc Uuid Request Result
  endedWith : Uuid → Option Result
  taken : List (Request × Uuid)
  answers : List (Request × Option Result)

def ServerState.initial : ServerState Thread Uuid Request Result where
  goal := fun _ => none
  listed := fun _ => false
  results := fun _ => none
  requests := fun _ => []
  thread := fun _ => .idle
  endedWith := fun _ => none
  taken := []
  answers := []

inductive ServerLabel (Thread Uuid Request Result : Type*)
  | accept (u : Uuid)
  | event (u : Uuid) (event : GoalEvent)
  | finish (t : Thread) (u : Uuid) (ending : Ending) (result : Result)
  | take (t : Thread) (q : Request) (u : Uuid)
  | lookup (t : Thread)
  | fetch (t : Thread)
  | send (t : Thread) (sent : Sent)
  | check (t : Thread)
  | publish (t : Thread) (sent : Request → Sent)
  | expire (t : Thread) (u : Uuid)
  | erase (t : Thread)

/-- The loop of `publish_result` over the requests. -/
def delivered (sent : Request → Sent) (requests : List Request) : List Request :=
  (requests.takeWhile fun q => sent q ≠ .error).filter fun q => sent q = .ok

namespace ServerState

variable (s : ServerState Thread Uuid Request Result)

def goto [DecidableEq Thread] (t : Thread) (pc : ServerPc Uuid Request Result) :
    ServerState Thread Uuid Request Result :=
  { s with thread := update s.thread t pc }

def setGoal [DecidableEq Uuid] (u : Uuid) (state : GoalState) :
    ServerState Thread Uuid Request Result :=
  { s with goal := update s.goal u (some state) }

variable [DecidableEq Uuid]

/-- `rcl_action_accept_new_goal`. -/
def accept (u : Uuid) : ServerState Thread Uuid Request Result :=
  { s.setGoal u .accepted with listed := update s.listed u true }

def finish [DecidableEq Thread] (t : Thread) (u : Uuid) (state : GoalState) (result : Result) :
    ServerState Thread Uuid Request Result :=
  { (s.setGoal u state).goto t (.ended u result) with
    endedWith := update s.endedWith u (some result) }

def store (q : Request) (u : Uuid) : ServerState Thread Uuid Request Result :=
  { s with requests := update s.requests u (s.requests u ++ [q]) }

def answer (answers : List (Request × Option Result)) :
    ServerState Thread Uuid Request Result :=
  { s with answers := s.answers ++ answers }

/-- The requests are answered and stay where they are. -/
def publish (u : Uuid) (result : Result) (sent : Request → Sent) :
    ServerState Thread Uuid Request Result :=
  { s.answer ((delivered sent (s.requests u)).map fun q => (q, some result)) with
    results := update s.results u (some result) }

def expire (u : Uuid) : ServerState Thread Uuid Request Result :=
  { s with listed := update s.listed u false }

def erase (u : Uuid) : ServerState Thread Uuid Request Result :=
  { s with
    results := update s.results u none
    requests := update s.requests u [] }

end ServerState

/-- Which goals expire when is left open: `rcl_action_expire_goals` removes goals that are
not active. -/
inductive ServerStep [DecidableEq Thread] [DecidableEq Uuid] :
    ServerState Thread Uuid Request Result → ServerLabel Thread Uuid Request Result →
      ServerState Thread Uuid Request Result → Prop
  | accept (s : ServerState Thread Uuid Request Result) (u : Uuid)
      (hunlisted : s.listed u = false) : ServerStep s (.accept u) (s.accept u)
  | event (s : ServerState Thread Uuid Request Result) (u : Uuid) (event : GoalEvent)
      (state next : GoalState) (hgoal : s.goal u = some state)
      (htransition : transitionGoalState state event = some next)
      (hactive : next.isActive = true) : ServerStep s (.event u event) (s.setGoal u next)
  | finish (s : ServerState Thread Uuid Request Result) (t : Thread) (u : Uuid)
      (ending : Ending) (result : Result) (state next : GoalState)
      (hidle : s.thread t = .idle) (hgoal : s.goal u = some state)
      (hending : ending.apply state = some next) :
      ServerStep s (.finish t u ending result) (s.finish t u next result)
  | take (s : ServerState Thread Uuid Request Result) (t : Thread) (q : Request) (u : Uuid)
      (hidle : s.thread t = .idle) (hnew : q ∉ s.taken.map Prod.fst) :
      ServerStep s (.take t q u)
        { s.goto t (.taken q u) with taken := s.taken ++ [(q, u)] }
  | lookup (s : ServerState Thread Uuid Request Result) (t : Thread) (q : Request) (u : Uuid)
      (hpc : s.thread t = .taken q u) :
      ServerStep s (.lookup t)
        (s.goto t (if s.listed u then .found q u else .sending q u none))
  | fetchResult (s : ServerState Thread Uuid Request Result) (t : Thread) (q : Request)
      (u : Uuid) (result : Result) (hpc : s.thread t = .found q u)
      (hresult : s.results u = some result) :
      ServerStep s (.fetch t) (s.goto t (.sending q u (some result)))
  | fetchNothing (s : ServerState Thread Uuid Request Result) (t : Thread) (q : Request)
      (u : Uuid) (hpc : s.thread t = .found q u) (hresult : s.results u = none) :
      ServerStep s (.fetch t) ((s.store q u).goto t .idle)
  | send (s : ServerState Thread Uuid Request Result) (t : Thread) (q : Request) (u : Uuid)
      (answer : Option Result) (sent : Sent) (hpc : s.thread t = .sending q u answer) :
      ServerStep s (.send t sent)
        ((s.answer (if sent = .ok then [(q, answer)] else [])).goto t .idle)
  | check (s : ServerState Thread Uuid Request Result) (t : Thread) (u : Uuid)
      (result : Result) (hpc : s.thread t = .ended u result) :
      ServerStep s (.check t) (s.goto t (if s.listed u then .publishing u result else .idle))
  | publish (s : ServerState Thread Uuid Request Result) (t : Thread) (u : Uuid)
      (result : Result) (sent : Request → Sent) (hpc : s.thread t = .publishing u result) :
      ServerStep s (.publish t sent) ((s.publish u result sent).goto t .idle)
  | expire (s : ServerState Thread Uuid Request Result) (t : Thread) (u : Uuid)
      (state : GoalState) (hidle : s.thread t = .idle) (hlisted : s.listed u = true)
      (hgoal : s.goal u = some state) (hinactive : state.isActive = false) :
      ServerStep s (.expire t u) ((s.expire u).goto t (.expired u))
  | erase (s : ServerState Thread Uuid Request Result) (t : Thread) (u : Uuid)
      (hpc : s.thread t = .expired u) : ServerStep s (.erase t) ((s.erase u).goto t .idle)

end RosRtems.ActionServer
