import Templating.Source.Span
import Templating.Value.Basic

namespace Templating

inductive Literal where
  | nil
  | bool (b : Bool)
  | int (n : Int64)
  | float (x : Float)
  | str (s : String)

def Literal.toValue : Literal → Value
  | .nil => .nil
  | .bool b => .bool b
  | .int n => .int n
  | .float x => .float x
  | .str s => .str s

mutual

inductive Expr where
  | literal (l : Literal)
  | path (root : String) (segments : List Segment)
  | range (low high : Expr)

inductive Segment where
  | name (s : String)
  | index (e : Expr)

end

mutual

def Expr.roots : Expr → List String
  | .literal _ => []
  | .path root segments => root :: segmentRoots segments
  | .range low high => low.roots ++ high.roots
termination_by structural e => e

def Segment.roots : Segment → List String
  | .name _ => []
  | .index e => e.roots
termination_by structural s => s

def segmentRoots : List Segment → List String
  | [] => []
  | s :: rest => s.roots ++ segmentRoots rest
termination_by structural segments => segments

end

structure Argument where
  expr : Expr
  text : String
  span : Span

/-- `key: value`; a bare key has no value and counts as true. -/
structure NamedArgument where
  key : String
  value : Option Argument
  span : Span

def givenValues (named : List NamedArgument) : List Argument := named.filterMap (·.value)

def named? (key : String) (named : List NamedArgument) : Option NamedArgument :=
  named.find? (·.key == key)

end Templating
