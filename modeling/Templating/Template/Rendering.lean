import Templating.Template.Node
import Templating.Template.Selection

/-!
Rendering. Nodes are rendered in order, the time budget being checked before each; after a node
that asks to leave a loop or to go on with its next element, the rest of its list is skipped and
the enclosing loop decides.
-/
namespace Templating

def offsetsRegister : String := "for"

def storeOffset (key : String) (n : Int64) : List (String × Int64) → List (String × Int64)
  | [] => [(key, n)]
  | (k, m) :: rest => if k = key then (k, n) :: rest else (k, m) :: storeOffset key n rest

def offsetsCell : Task Nat := fun s =>
  let (cell, registers) := s.registers.get .offsets offsetsRegister
  .done cell { s with registers }

def recallOffset (cell : Nat) (key : String) : Task Value := do
  let s ← Task.state
  return .int (((s.registers.offsetsAt cell).lookup key).getD 0)

def recordOffset (cell : Nat) (key : String) (n : Int64) : Task Unit :=
  Task.modify fun s =>
    let entries := storeOffset key n (s.registers.offsetsAt cell)
    { s with registers := s.registers.write cell (.offsets entries) }

def beginLoop (length : Nat) (header : LoopHeader) : Task LoopPosition := fun s =>
  let (id, store) := s.store.begin
  .done (.make id length header.variableName header.collection.text) { s with store }

def stepLoop (position : LoopPosition) : Task Unit :=
  Task.modify fun s => { s with store := s.store.step position.id }

def enterElement (variableName : String) (item : Value) : Task Unit :=
  Task.modify fun s => (s.mapBindings (·.bindTop variableName item)).clearJumps

/-- Renders the body once for each element until one asks to leave the loop. -/
def iterate (variableName : String) (position : LoopPosition) (body : Task Unit) :
    List Value → Task Unit
  | [] => pure ()
  | item :: rest => do
    enterElement variableName item
    body
    let s ← Task.state
    if s.breaking then pure ()
    else do
      stepLoop position
      iterate variableName position body rest

/-- The modifiers of a loop, evaluated where `continue` says how far it got before. -/
def evaluateModifiers (header : LoopHeader) (previous : Value) : Task Object :=
  Task.within (.single "continue" previous) (evaluateNamed .empty header.modifiers)

def visit (header : LoopHeader) (items : List Value) (body : Task Unit) : Task Unit := do
  let cell ← offsetsCell
  let previous ← recallOffset cell header.continueKey
  let modifiers ← evaluateModifiers header previous
  let selected := select header.ordered modifiers items
  recordOffset cell header.continueKey (resumeAt modifiers selected)
  let position ← beginLoop selected.length header
  Task.within (.single "forloop" (.position position)) do
    iterate header.variableName position body selected
    Task.modify State.clearJumps

def renderLoop (header : LoopHeader) (body otherwise : Task Unit) : Task Unit := do
  let collection ← Task.resolve (← header.collection.evaluate)
  match collection.elements with
  | [] => otherwise
  | item :: rest => visit header (item :: rest) body

/-- A counter keeps a number that is already there and starts at zero otherwise. -/
def counterBefore (data : Object) (name : String) : Value :=
  match data.own? name with
  | some (.int n) => .int n
  | some (.float x) => .float x
  | _ => .int 0

def counterAfter (delta : Int) : Value → Value
  | .float x => .float (x + Float.ofInt delta)
  | .int n => .int (Int64.ofIntClamp (n.toInt + delta))
  | v => v

/-- Counts by `delta` in the data and writes the value before or after. -/
def count (name : String) (delta : Int) (showsBefore : Bool) : Task Unit := fun s =>
  let before := counterBefore s.bindings.data name
  let after := counterAfter delta before
  let s := s.mapBindings (·.bindData name after)
  .done () (s.write (if showsBefore then before.text else after.text))

def renderOutput : Option Argument → Task Unit
  | none => pure ()
  | some a => do
    let v ← Task.resolve (← a.evaluate)
    Task.write v.text

def renderAssign (name : String) (value : Argument) : Task Unit := do
  let v ← value.evaluate
  Task.modify (·.mapBindings (·.bindBottom name v))

mutual

def Node.render : Node → Task Unit
  | .text text _ => Task.write text
  | .output value _ => renderOutput value
  | .loop header body otherwise _ => renderLoop header (renderAll body) (renderAll otherwise)
  | .choice branches otherwise _ => renderBranches (renderAll otherwise) branches
  | .assign name value _ => renderAssign name value
  | .increment name _ => count name 1 true
  | .decrement name _ => count name (-1) false
  | .leave _ => Task.modify fun s => { s with breaking := true }
  | .next _ => Task.modify fun s => { s with continuing := true }
  | .custom c bodies _ => c.render (renderBodies bodies)
termination_by structural n => n

def renderAll : List Node → Task Unit
  | [] => pure ()
  | n :: rest => do
    Task.checkTime
    n.render
    let s ← Task.state
    if s.stopped then pure () else renderAll rest
termination_by structural nodes => nodes

def renderBranches (otherwise : Task Unit) : List (Condition × List Node) → Task Unit
  | [] => otherwise
  | (condition, nodes) :: rest => do
    if ← condition.evaluate then renderAll nodes else renderBranches otherwise rest
termination_by structural branches => branches

def renderBodies : List (List Node) → List (Task Unit)
  | [] => []
  | nodes :: rest => renderAll nodes :: renderBodies rest
termination_by structural bodies => bodies

end

end Templating
