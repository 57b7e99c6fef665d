import Templating.Value.Object
import Templating.Value.Reading

/-!
Which elements a loop visits. `offset` drops elements from the front, `limit` keeps that many,
`reversed` turns the sequence around.
-/
namespace Templating

/-- Position `n` of a sequence, held between its start and its end. -/
def clampIndex (n : Int64) (length : Nat) : Nat :=
  if n.toInt < 0 then (length + n.toInt).toNat else min n.toInt.toNat length

def offset (items : List Value) (n : Int64) : List Value := items.drop (clampIndex n items.length)

def limit (items : List Value) (n : Int64) : List Value := items.take (clampIndex n items.length)

inductive Modifier where
  | offset
  | limit
  | reversed
  deriving DecidableEq

def Modifier.text : Modifier → String
  | .offset => "offset"
  | .limit => "limit"
  | .reversed => "reversed"

def Modifier.named? (key : String) : Option Modifier :=
  if key = "offset" then some .offset
  else if key = "limit" then some .limit
  else if key = "reversed" then some .reversed
  else none

def Modifier.given? (m : Modifier) (arguments : Object) : Option Value :=
  (arguments.own? m.text).filter (!·.isUndefined)

def countOr0 (v : Value) : Int64 := v.asInteger?.getD 0

def Modifier.apply (arguments : Object) (items : List Value) (m : Modifier) : List Value :=
  match m with
  | .reversed => items.reverse
  | .offset => match m.given? arguments with
    | some v => Templating.offset items (countOr0 v)
    | none => items
  | .limit => match m.given? arguments with
    | some v => Templating.limit items (countOr0 v)
    | none => items

/-- The modifiers that apply, in order. -/
def modifiers (ordered : Bool) (arguments : Object) : List Modifier :=
  if ordered then arguments.keys.filterMap Modifier.named?
  else [.offset, .limit, .reversed].filter fun m => (m.given? arguments).isSome

def select (ordered : Bool) (arguments : Object) (items : List Value) : List Value :=
  (modifiers ordered arguments).foldl (Modifier.apply arguments) items

/-- Where a later loop goes on: behind what this one was to visit. -/
def resumeAt (arguments : Object) (selected : List Value) : Int64 :=
  let start := ((arguments.own? "offset").bind Value.asInteger?).getD 0
  Int64.ofIntClamp (start.toInt + selected.length)

end Templating
