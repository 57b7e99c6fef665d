import Templating.Value.Text
import Templating.Text.Blank
import Templating.Decimal.Real

namespace Templating

def isFinite (x : Float) : Bool := !(x.isNaN || x.isInf)

namespace Value

/-- An index is an exact integer: one written in a string counts, blanks around it do not. -/
def asIndex? : Value → Option Int64
  | .int n => some n
  | .float x => if isFinite x && x.floor == x then some x.toInt64 else none
  | .str s => integer? s.toList
  | _ => none

def asInteger? : Value → Option Int64
  | .int n => some n
  | .float x => if isFinite x then some x.toInt64 else none
  | .str s =>
    let text := trim s.toList
    match integer? text with
    | some n => some n
    | none => (real? text).map Float.toInt64
  | .nil => some 0
  | _ => none

def asFloat? : Value → Option Float
  | .int n => some (nearestFloat n)
  | .float x => some x
  | _ => none

def string? : Value → Option String
  | .str s => some s
  | _ => none

/-- What a loop visits: the elements of an array, the own values of an object. -/
def elements : Value → List Value
  | .array items => items
  | .object o => o.values
  | _ => []

end Value
end Templating
