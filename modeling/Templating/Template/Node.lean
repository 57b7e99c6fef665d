import Templating.Expr.Condition

namespace Templating

structure LoopHeader where
  variableName : String
  collection : Argument
  modifiers : List NamedArgument
  ordered : Bool

/-- Loops with one variable and one collection text go on from each other. -/
def LoopHeader.continueKey (h : LoopHeader) : String :=
  "continue-" ++ h.variableName ++ "-" ++ h.collection.text

def LoopHeader.arguments (h : LoopHeader) : List Argument := h.collection :: givenValues h.modifiers

/-- While the header is evaluated, `continue` says where the last such loop stopped. -/
def LoopHeader.argumentScope : List String := ["continue"]

def LoopHeader.blockScope (h : LoopHeader) : List String := [h.variableName, "forloop"]

structure Custom where
  arguments : List Argument
  argumentScope : List String
  blockScope : List String
  declarations : List String
  render : List (Task Unit) → Task Unit

inductive Node where
  | text (text : String) (span : Span)
  | output (value : Option Argument) (span : Span)
  | loop (header : LoopHeader) (body otherwise : List Node) (span : Span)
  | choice (branches : List (Condition × List Node)) (otherwise : List Node) (span : Span)
  | assign (name : String) (value : Argument) (span : Span)
  | increment (name : String) (span : Span)
  | decrement (name : String) (span : Span)
  | leave (span : Span)
  | next (span : Span)
  | custom (c : Custom) (bodies : List (List Node)) (span : Span)

namespace Node

def span : Node → Span
  | .text _ span => span
  | .output _ span => span
  | .loop _ _ _ span => span
  | .choice _ _ span => span
  | .assign _ _ span => span
  | .increment _ span => span
  | .decrement _ span => span
  | .leave span => span
  | .next span => span
  | .custom _ _ span => span

def children : Node → List Node
  | .loop _ body otherwise _ => body ++ otherwise
  | .choice branches otherwise _ => branches.flatMap (·.2) ++ otherwise
  | .custom _ bodies _ => bodies.flatten
  | _ => []

def arguments : Node → List Argument
  | .output value _ => value.toList
  | .loop header _ _ _ => header.arguments
  | .choice branches _ _ => branches.flatMap (·.1.arguments)
  | .assign _ value _ => [value]
  | .custom c _ _ => c.arguments
  | _ => []

def argumentScope : Node → List String
  | .loop .. => LoopHeader.argumentScope
  | .custom c _ _ => c.argumentScope
  | _ => []

def blockScope : Node → List String
  | .loop header _ _ _ => header.blockScope
  | .custom c _ _ => c.blockScope
  | _ => []

def declarations : Node → List String
  | .assign name _ _ => [name]
  | .custom c _ _ => c.declarations
  | _ => []

end Node
end Templating
