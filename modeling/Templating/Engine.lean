import Templating.Template.Survey
import Templating.Task.Schedule
import Templating.Template.Parsing
import Templating.Template.Rendering

namespace Templating

structure Engine where
  options : Options
  tags : TagSet

/-- Settings of one render. What is not given is as in the options, or fresh. -/
structure Settings where
  immediate : Option Bool
  globals : Option Object
  strict : Option Bool
  ownOnly : Option Bool
  memory : Option Budget
  time : Option Budget
  registers : Option Registers
  clock : Clock := .still

def Settings.default : Settings := ⟨none, none, none, none, none, none, none, .still⟩

instance : Inhabited Settings := ⟨Settings.default⟩

def Options.memoryBudget (o : Options) : Budget :=
  match o.memoryLimit with
  | some units => .memory units
  | none => .unbounded .memory

def Options.timeBudget (o : Options) (clock : Clock) : Budget :=
  match o.timeLimit with
  | some milliseconds => ⟨.rendering, .deadline (clock milliseconds)⟩
  | none => .unbounded .rendering

namespace Engine

def make (options : Options) : Engine := ⟨options, .builtins⟩

instance : Inhabited Engine := ⟨make default⟩

def parse (e : Engine) (source : String) : Except ParseError (List Node) :=
  Templating.parse e.tags e.options source

def globalVariables (e : Engine) (source : String) : Except ParseError (List String) :=
  (e.parse source).map Templating.globalVariables

def start (e : Engine) (data : Object) (r : Settings) (store : Store) (sink : Sink) : State :=
  { bindings := .start data (r.globals.getD e.options.globals)
    modes :=
      { strict := r.strict.getD e.options.strict
        ownOnly := r.ownOnly.getD e.options.ownOnly
        immediate := r.immediate.getD false }
    breaking := false
    continuing := false
    registers := r.registers.getD default
    memory := r.memory.getD e.options.memoryBudget
    time := r.time.getD (e.options.timeBudget r.clock)
    store := store
    sink := sink }

/-- Renders as the state says: at once, or waiting for deferred values. -/
def render (nodes : List Node) (s : State) (schedule : Schedule) : Run Unit :=
  (renderAll nodes).run s schedule

end Engine
end Templating
