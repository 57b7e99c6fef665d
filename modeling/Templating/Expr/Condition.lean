import Templating.Expr.Evaluation
import Templating.Source.Cursor
import Templating.Value.Equality

/-!
Conditions: tests of one value or of two values and an operator, chained by `and` and `or`.
-/
namespace Templating

inductive Condition where
  | test (left : Argument) (comparison : Option (Operator × Argument))
  | both (left right : Condition)
  | either (left right : Condition)

def looselyEqual (a b : Value) : Bool := (a.isNullish && b.isNullish) || a == b

def floatOrdering (x y : Float) : Option Ordering :=
  if x < y then some .lt else if x == y then some .eq else if y < x then some .gt else none

def ordering (a b : Value) : Option Ordering :=
  match a, b with
  | .str s, .str t => some (compare s t)
  | a, b =>
    match a.asFloat?, b.asFloat? with
    | some x, some y => floatOrdering x y
    | _, _ => none

def holdsPart (whole part : Value) : Bool :=
  match whole with
  | .str s => occursIn part.text.toList s.toList
  | .array items => items.any (looselyEqual · part)
  | .object o => o.contains part.keyText
  | _ => false

def Operator.holds (left right : Value) : Operator → Bool
  | .equal => looselyEqual left right
  | .unequal | .different => !looselyEqual left right
  | .below => ordering left right == some .lt
  | .above => ordering left right == some .gt
  | .atMost => ordering left right == some .lt || ordering left right == some .eq
  | .atLeast => ordering left right == some .gt || ordering left right == some .eq
  | .contains => holdsPart left right

namespace Condition

def arguments : Condition → List Argument
  | .test left none => [left]
  | .test left (some (_, right)) => [left, right]
  | .both c d => c.arguments ++ d.arguments
  | .either c d => c.arguments ++ d.arguments

def evaluate : Condition → Task Bool
  | .test left comparison => do
    let left ← Task.resolve (← left.evaluate)
    match comparison with
    | none => return left.isTruthy
    | some (operator, right) => do
      let right ← Task.resolve (← right.evaluate)
      return operator.holds left right
  | .both c d => do
    if ← c.evaluate then d.evaluate else return false
  | .either c d => do
    if ← c.evaluate then return true else d.evaluate

end Condition
end Templating
