import Templating.Value.Object
import Templating.Decimal.Integer

namespace Templating

inductive Json where
  | null
  | bool (b : Bool)
  | integer (n : Int)
  | real (x : Float)
  | str (s : String)
  | array (items : List Json)
  | object (members : List (String × Json))

instance : Inhabited Json := ⟨.null⟩

namespace Json

/-- Keys are ordered by their characters, which is also the order of their bytes. -/
def addMember (key : String) (value : Json) : List (String × Json) → List (String × Json)
  | [] => [(key, value)]
  | (k, v) :: rest =>
    if key < k then (key, value) :: (k, v) :: rest
    else if k = key then (k, value) :: rest
    else (k, v) :: addMember key value rest

def integerValue (n : Int) : Value :=
  if n < wordBound then .int (Int64.ofInt n) else .float (Float.ofInt n)

mutual

def toValue : Json → Value
  | .null => .nil
  | .bool b => .bool b
  | .integer n => integerValue n
  | .real x => .float x
  | .str s => .str s
  | .array items => .array (toValues items)
  | .object members => .object ⟨toEntries members, none⟩
termination_by structural j => j

def toValues : List Json → List Value
  | [] => []
  | j :: rest => toValue j :: toValues rest
termination_by structural items => items

def toEntries : List (String × Json) → List (String × Value)
  | [] => []
  | (k, j) :: rest => (k, toValue j) :: toEntries rest
termination_by structural members => members

end

end Json
end Templating
