import Templating.Value.Object
import Templating.Text.Quoted
import Templating.Decimal.Shortest

namespace Templating

/-- Whole numbers below 10^15 print without a sign of zero and as integers. -/
def printedFloat (x : Float) : String :=
  if x.floor == x && x.abs < 1e15 then String.ofList (integerText x.toInt64)
  else String.ofList (floatText x)

def boolText (b : Bool) : String := if b then "true" else "false"

def joined (separator : String) : List String → String
  | [] => ""
  | [s] => s
  | s :: rest => s ++ separator ++ joined separator rest

namespace Value

mutual

def text : Value → String
  | .undefined | .nil | .computed .. | .deferred .. | .position _ => ""
  | .bool b => boolText b
  | .int n => String.ofList (integerText n)
  | .float x => printedFloat x
  | .str s => s
  | .array items => itemsText items
  | .object o => objectText o
  | .drop ⟨_, _, _, _, _, whole⟩ => wholeText whole
termination_by structural v => v

def itemsText : List Value → String
  | [] => ""
  | v :: rest => text v ++ itemsText rest
termination_by structural items => items

def objectText : Object → String
  | ⟨entries, _⟩ => "\x7b" ++ joined "," (entryTexts entries) ++ "\x7d"
termination_by structural o => o

def entryTexts : List (String × Value) → List String
  | [] => []
  | (k, v) :: rest =>
    (quoted k ++ ":" ++ match v with
      | .str s => quoted s
      | .undefined | .nil => "null"
      | other => text other) :: entryTexts rest
termination_by structural entries => entries

def wholeText : Option Value → String
  | none => ""
  | some v => text v
termination_by structural v => v

end

mutual

def description (completed : Nat → Bool) : Value → String
  | .undefined => "Undefined"
  | .nil => "Nil"
  | .bool b => "Bool(" ++ boolText b ++ ")"
  | .int n => "Int(" ++ String.ofList (integerText n) ++ ")"
  | .float x => "Float(" ++ String.ofList (floatText x) ++ ")"
  | .str s => "Str(" ++ quoted s ++ ")"
  | .array items => "[" ++ joined ", " (descriptions completed items) ++ "]"
  | .object o => objectDescription completed o
  | .drop d => "Drop(" ++ d.name ++ ")"
  | .position _ => "Drop(ForloopDrop)"
  | .computed .. => "Func"
  | .deferred id _ result =>
    if completed id then "Deferred(" ++ description completed result ++ ")"
    else "Deferred(<pending>)"
termination_by structural v => v

def descriptions (completed : Nat → Bool) : List Value → List String
  | [] => []
  | v :: rest => description completed v :: descriptions completed rest
termination_by structural items => items

def objectDescription (completed : Nat → Bool) : Object → String
  | ⟨entries, _⟩ => "\x7b" ++ joined ", " (entryDescriptions completed entries) ++ "\x7d"
termination_by structural o => o

def entryDescriptions (completed : Nat → Bool) : List (String × Value) → List String
  | [] => []
  | (k, v) :: rest =>
    (quoted k ++ ": " ++ description completed v) :: entryDescriptions completed rest
termination_by structural entries => entries

end

/-- Keys are compared by text, so `1` and `"1"` address one entry. -/
def keyText (v : Value) : String := v.text

end Value

def Object.text (o : Object) : String := Value.objectText o

def Object.description (completed : Nat → Bool) (o : Object) : String :=
  Value.objectDescription completed o

end Templating
