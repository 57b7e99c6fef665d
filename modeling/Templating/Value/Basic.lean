/-!
Values that flow through a template. Undefined means absent, nil is an explicit nothing; both
are nullish.
-/
namespace Templating

/-- The position of a loop. Its index is read from the store under `id`. -/
structure LoopPosition where
  id : Nat
  length : Nat
  name : String

mutual

inductive Value where
  | undefined
  | nil
  | bool (b : Bool)
  | int (n : Int64)
  | float (x : Float)
  | str (s : String)
  | array (items : List Value)
  | object (o : Object)
  | drop (d : Drop)
  | position (p : LoopPosition)
  /-- A property computed when it is read; `answer n` is what call `n` gives. -/
  | computed (id : Nat) (label : Option String) (answer : Nat → Value)
  /-- A value that may not be available yet, and what it will be. -/
  | deferred (id : Nat) (label : Option String) (result : Value)

structure Object where
  entries : List (String × Value)
  ancestor : Option Object

/-- An object that answers for each key: `answer` where it knows the key, else
    `missing`. As a whole it may stand for a plain value. -/
structure Drop where
  id : Nat
  label : Option String
  name : String
  answer : String → Option Value
  missing : String → Value
  whole : Option Value

end

namespace Value

def isUndefined : Value → Bool
  | .undefined => true
  | _ => false

def isNullish : Value → Bool
  | .undefined | .nil => true
  | _ => false

/-- Only false and nullish values are falsy; zero and the empty string are not. -/
def isTruthy : Value → Bool
  | .undefined | .nil | .bool false => false
  | _ => true

def typeName : Value → String
  | .undefined => "undefined"
  | .nil => "nil"
  | .bool _ => "bool"
  | .int _ => "int"
  | .float _ => "float"
  | .str _ => "string"
  | .array _ => "array"
  | .object _ => "object"
  | .drop _ | .position _ => "drop"
  | .computed .. => "function"
  | .deferred .. => "deferred"

end Value

instance : Inhabited Value := ⟨.undefined⟩

end Templating
