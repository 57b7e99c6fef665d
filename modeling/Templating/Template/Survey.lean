import Templating.Template.Node

namespace Templating

structure Survey where
  declared : List String
  found : List String

namespace Survey

def empty : Survey := ⟨[], []⟩

def addRoot (scope : List String) (s : Survey) (root : String) : Survey :=
  if scope.contains root || s.declared.contains root || s.found.contains root then s
  else { s with found := s.found ++ [root] }

def addArguments (scope : List String) (s : Survey) (arguments : List Argument) : Survey :=
  (arguments.flatMap (·.expr.roots)).foldl (addRoot scope) s

def declare (s : Survey) (names : List String) : Survey :=
  { s with declared := s.declared ++ names }

end Survey

mutual

/-- Surveys a node inside blocks that bind `scope`. -/
def Node.survey : Node → List String → Survey → Survey
  | .loop header body otherwise _ => fun scope s =>
    let s := s.addArguments (scope ++ LoopHeader.argumentScope) header.arguments
    let inside := scope ++ header.blockScope
    surveyAll otherwise inside (surveyAll body inside s)
  | .choice branches otherwise _ => fun scope s =>
    let s := s.addArguments scope (branches.flatMap (·.1.arguments))
    surveyAll otherwise scope (surveyBranches branches scope s)
  | .custom c bodies _ => fun scope s =>
    let s := s.addArguments (scope ++ c.argumentScope) c.arguments
    (surveyBodies bodies (scope ++ c.blockScope) s).declare c.declarations
  | .text _ _ => fun _ s => s
  | .output value _ => fun scope s => s.addArguments scope value.toList
  | .assign name value _ => fun scope s => (s.addArguments scope [value]).declare [name]
  | .increment _ _ => fun _ s => s
  | .decrement _ _ => fun _ s => s
  | .leave _ => fun _ s => s
  | .next _ => fun _ s => s
termination_by structural n => n

def surveyAll : List Node → List String → Survey → Survey
  | [] => fun _ s => s
  | n :: rest => fun scope s => surveyAll rest scope (n.survey scope s)
termination_by structural nodes => nodes

def surveyBranches : List (Condition × List Node) → List String → Survey → Survey
  | [] => fun _ s => s
  | (_, nodes) :: rest => fun scope s => surveyBranches rest scope (surveyAll nodes scope s)
termination_by structural branches => branches

def surveyBodies : List (List Node) → List String → Survey → Survey
  | [] => fun _ s => s
  | nodes :: rest => fun scope s => surveyBodies rest scope (surveyAll nodes scope s)
termination_by structural bodies => bodies

end

def globalVariables (nodes : List Node) : List String := (surveyAll nodes [] .empty).found

end Templating
