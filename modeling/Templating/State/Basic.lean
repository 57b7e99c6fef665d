import Templating.State.Budget
import Templating.State.Registers
import Templating.State.Sink
import Templating.Value.Store
import Templating.Value.Object

/-!
The state of a render. Names are bound in scopes, innermost first, of which the bottom one is
always there; behind them lie the data of the render and the globals.
-/
namespace Templating

structure Bindings where
  inner : List Object
  bottom : Object
  data : Object
  globals : Object

namespace Bindings

def start (data globals : Object) : Bindings := ⟨[], .empty, data, globals⟩

def depth (b : Bindings) : Nat := b.inner.length + 1

def push (b : Bindings) (scope : Object) : Bindings := { b with inner := scope :: b.inner }

/-- The bottom scope is never popped. -/
def pop (b : Bindings) : Bindings := { b with inner := b.inner.tail }

def popped? (b : Bindings) : Option Object := b.inner.head?

def scopes (b : Bindings) : List Object := b.inner ++ [b.bottom]

def mapTop (b : Bindings) (f : Object → Object) : Bindings :=
  match b.inner with
  | [] => { b with bottom := f b.bottom }
  | top :: rest => { b with inner := f top :: rest }

def top (b : Bindings) : Object := b.inner.head?.getD b.bottom

def bindTop (b : Bindings) (name : String) (value : Value) : Bindings :=
  b.mapTop (·.insert name value)

def bindBottom (b : Bindings) (name : String) (value : Value) : Bindings :=
  { b with bottom := b.bottom.insert name value }

def bindData (b : Bindings) (name : String) (value : Value) : Bindings :=
  { b with data := b.data.insert name value }

/-- Where a name is looked up: the innermost scope that has it, else the data,
    what they inherit included, else the globals. -/
def owner (b : Bindings) (name : String) : Object :=
  match b.scopes.find? (·.hasOwn name) with
  | some scope => scope
  | none => if b.data.contains name then b.data else b.globals

/-- Every visible binding in one object, inner ones over outer ones. -/
def flatten (b : Bindings) : Object :=
  b.scopes.reverse.foldl Object.assign ((Object.empty.assign b.globals).assign b.data)

end Bindings

structure Modes where
  strict : Bool
  ownOnly : Bool
  immediate : Bool
  deriving DecidableEq

structure State where
  bindings : Bindings
  modes : Modes
  breaking : Bool
  continuing : Bool
  registers : Registers
  memory : Budget
  time : Budget
  store : Store
  sink : Sink

namespace State

def stopped (s : State) : Bool := s.breaking || s.continuing

def clearJumps (s : State) : State := { s with breaking := false, continuing := false }

def write (s : State) (text : String) : State := { s with sink := s.sink.write text }

def look (s : State) : State := { s with time := s.time.look }

def mapBindings (s : State) (f : Bindings → Bindings) : State := { s with bindings := f s.bindings }

def pop (s : State) : State := s.mapBindings Bindings.pop

/-- The state of an isolated part over data of its own. -/
def spawn (s : State) (data : Object) : State :=
  { s with bindings := .start data s.bindings.globals, breaking := false, continuing := false }

/-- Back to the names and jumps of `outer`, keeping what is shared. -/
def rejoin (outer s : State) : State :=
  { s with bindings := outer.bindings, breaking := outer.breaking, continuing := outer.continuing }

end State
end Templating
