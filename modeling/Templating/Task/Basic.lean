import Templating.Task.EvalError
import Templating.Value.Property
import Templating.State.Basic

/-!
Computations that may have to wait. A task started in a state is done, has failed, or waits for
a deferred value and says how to go on once there is one, and how to unwind if nobody will wait.
-/
namespace Templating

inductive Step (α : Type) where
  | done (result : α) (state : State)
  | failed (error : EvalError) (state : State)
  | waiting (id : Nat) (label : Option String) (state : State) (unwind : State → State)
      (resume : State → Step α)

namespace Step

def bind {α β : Type} (next : α → State → Step β) : Step α → Step β
  | .done a s => next a s
  | .failed e s => .failed e s
  | .waiting id label s unwind resume =>
    .waiting id label s unwind fun s => (resume s).bind next

/-- Cleans up at every end of a computation, also when it is abandoned. -/
def ensuring {α : Type} (cleanup : State → State) : Step α → Step α
  | .done a s => .done a (cleanup s)
  | .failed e s => .failed e (cleanup s)
  | .waiting id label s unwind resume =>
    .waiting id label s (cleanup ∘ unwind) fun s => (resume s).ensuring cleanup

end Step

def Task (α : Type) := State → Step α

namespace Task

instance : Monad Task where
  pure a := fun s => .done a s
  bind t f := fun s => (t s).bind fun a s => f a s

def fail {α : Type} (e : EvalError) : Task α := fun s => .failed e s

def state : Task State := fun s => .done s s

def modify (f : State → State) : Task Unit := fun s => .done () (f s)

def read {α : Type} (r : Read α) : Task α := fun s =>
  let (a, store) := r s.store
  .done a { s with store }

/-- Runs a task inside a scope and takes the scope away again, however the task ends. -/
def within {α : Type} (scope : Object) (t : Task α) : Task α := fun s =>
  (t (s.mapBindings (·.push scope))).ensuring State.pop

def isolated {α : Type} (data : Object) (t : Task α) : Task α := fun s =>
  (t (s.spawn data)).ensuring (State.rejoin s)

def write (text : String) : Task Unit := modify (·.write text)

def wait (id : Nat) (label : Option String) : Task Unit := fun s =>
  .waiting id label s (fun s => s) fun s => .done () s

def settle : Value → Task Value
  | .deferred id label result => do wait id label; settle result
  | v => pure v
termination_by structural v => v

mutual

/-- Waits as `settle` does and replaces a drop by the value it stands for, if any. -/
def resolve : Value → Task Value
  | .deferred id label result => do wait id label; resolve result
  | .drop ⟨id, label, name, answer, missing, whole⟩ =>
    resolveWhole ⟨id, label, name, answer, missing, whole⟩ whole
  | v => pure v
termination_by structural v => v

def resolveWhole (d : Drop) : Option Value → Task Value
  | none => pure (.drop d)
  | some v => resolve v
termination_by structural v => v

end

/-- Charges the memory budget; the units count even if they exceed it. -/
def charge (count : Nat) : Task Unit := fun s =>
  let s := { s with memory := s.memory.charge count }
  if s.memory.isExceeded then .failed (.resourceExceeded s.memory.resource) s else .done () s

def checkTime : Task Unit := fun s =>
  if s.look.time.isExceeded then .failed (.resourceExceeded s.time.resource) s.look
  else .done () s.look

end Task
end Templating
