import Mathlib.Data.List.Basic
import Mathlib.Algebra.Group.Int.Defs

/-!
# The executables of the executor without a loop

Every handler builds an `Executable` with its type, its callback group and the one
pointer that belongs to the type, and hands it to `assign_or_create`.  The timing
fields are written later, by the dispatching thread.
-/

namespace RosRtems.NoExecutor

inductive ExecutableType
  | subscription
  | service
  | client
  | waitable
  | timer
  deriving DecidableEq

/-- The timestamps that `assign_or_create` leaves in an executable. -/
structure Timing where
  dispatchDoneNs : ℤ
  dispatchDurNs : ℤ
  assignDurNs : ℤ
  deriving DecidableEq

def Timing.zero : Timing := ⟨0, 0, 0⟩

variable {Group Entity : Type*}

/-- `Entity` stands for the objects behind the five kinds of shared pointers. -/
structure Executable (Group Entity : Type*) where
  type : ExecutableType
  callbackGroup : Option Group
  subscription : Option Entity
  service : Option Entity
  client : Option Entity
  waitable : Option Entity
  timer : Option Entity
  timing : Timing

/-- The pointer of the executable's type, which `get_sched_base` returns and which
`execute_executable` runs. -/
def Executable.getSchedBase (executable : Executable Group Entity) : Option Entity :=
  match executable.type with
  | .subscription => executable.subscription
  | .service => executable.service
  | .client => executable.client
  | .waitable => executable.waitable
  | .timer => executable.timer

def Executable.stamped (executable : Executable Group Entity) (timing : Timing) :
    Executable Group Entity :=
  { executable with timing := timing }

/-- What a handler is bound to. -/
structure Request (Group Entity : Type*) where
  type : ExecutableType
  callbackGroup : Group
  entity : Entity
  deriving DecidableEq

/-- The executable that the handler of the type builds. -/
def Request.executable (request : Request Group Entity) : Executable Group Entity where
  type := request.type
  callbackGroup := some request.callbackGroup
  subscription := if request.type = .subscription then some request.entity else none
  service := if request.type = .service then some request.entity else none
  client := if request.type = .client then some request.entity else none
  waitable := if request.type = .waitable then some request.entity else none
  timer := if request.type = .timer then some request.entity else none
  timing := .zero

/-- Two executables that differ in their timing at most. -/
def Executable.SameJob (first second : Executable Group Entity) : Prop :=
  first.type = second.type ∧ first.callbackGroup = second.callbackGroup ∧
    first.getSchedBase = second.getSchedBase

section Lemmas

variable (executable : Executable Group Entity) (timing : Timing)

@[simp]
theorem stamped_type : (executable.stamped timing).type = executable.type := rfl

@[simp]
theorem stamped_callbackGroup :
    (executable.stamped timing).callbackGroup = executable.callbackGroup := rfl

@[simp]
theorem stamped_getSchedBase :
    (executable.stamped timing).getSchedBase = executable.getSchedBase := rfl

@[simp]
theorem executable_callbackGroup (request : Request Group Entity) :
    request.executable.callbackGroup = some request.callbackGroup := rfl

/-- The assertion of `assign_or_create` holds of what the handlers build. -/
@[simp]
theorem executable_getSchedBase (request : Request Group Entity) :
    request.executable.getSchedBase = some request.entity := by
  cases hkind : request.type <;> simp [Executable.getSchedBase, Request.executable, hkind]

theorem Executable.SameJob.refl : executable.SameJob executable := ⟨rfl, rfl, rfl⟩

theorem stamped_sameJob : (executable.stamped timing).SameJob executable := ⟨rfl, rfl, rfl⟩

theorem Executable.SameJob.trans {first second third : Executable Group Entity}
    (hfirst : first.SameJob second) (hsecond : second.SameJob third) :
    first.SameJob third :=
  ⟨hfirst.1.trans hsecond.1, hfirst.2.1.trans hsecond.2.1, hfirst.2.2.trans hsecond.2.2⟩

end Lemmas

end RosRtems.NoExecutor
