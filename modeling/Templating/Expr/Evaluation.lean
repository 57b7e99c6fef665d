import Templating.Expr.Basic
import Templating.Task.Basic

/-!
Evaluating expressions. The first key of a path chooses where to look, every further one is a
property of what was found so far.
-/
namespace Templating

def pathText (walked : List Value) : String := joined "." (walked.map Value.keyText)

/-- Fails in strict mode if the value found at the end of `walked` is absent. -/
def checkDefined (value : Value) (walked : List Value) : Task Unit := fun s =>
  if s.modes.strict && value.isUndefined then .failed (.undefinedVariable (pathText walked)) s
  else .done () s

def property (receiver key : Value) : Task Value := do
  let receiver ← Task.settle receiver
  let key ← Task.resolve key
  let s ← Task.state
  Task.read (readProperty receiver key s.modes.ownOnly)

/-- Walks the keys one property after the other; `walked` are those behind. -/
def follow (value : Value) (walked : List Value) : List Value → Task Value
  | [] => pure value
  | key :: rest => do
    let next ← property value key
    let next ← Task.settle next
    checkDefined next (walked ++ [key])
    follow next (walked ++ [key]) rest

def readName (name : String) : Task Value := do
  let s ← Task.state
  Task.read ((s.bindings.owner name).read name s.modes.ownOnly)

def lookup : List Value → Task Value
  | [] => pure .undefined
  | first :: rest => do
    let key ← Task.resolve first
    let found ← readName key.keyText
    let value ← Task.settle found
    checkDefined value [first]
    follow value [first] rest

/-- Walks a path from a value, whatever names are bound. -/
def lookupFrom (start : Value) (keys : List Value) : Task Value := follow start [] keys

def rangeCharge (low high : Int64) : Nat :=
  let distance := Int64.ofIntClamp (high.toInt - low.toInt)
  (Int64.ofIntClamp (distance.toInt + 1)).toInt.toNat

def rangeElements (low high : Int64) : List Value :=
  (List.range (high.toInt - low.toInt + 1).toNat).map
    fun (k : Nat) => .int (Int64.ofInt (low.toInt + k))

def boundOf (v : Value) : Task Int64 := do
  let v ← Task.resolve v
  return v.asInteger?.getD 0

mutual

def Expr.evaluate : Expr → Task Value
  | .literal l => pure l.toValue
  | .path root segments => do
    let keys ← segmentKeys segments
    lookup (.str root :: keys)
  | .range low high => do
    let low ← boundOf (← low.evaluate)
    let high ← boundOf (← high.evaluate)
    Task.charge (rangeCharge low high)
    return .array (rangeElements low high)
termination_by structural e => e

def Segment.key : Segment → Task Value
  | .name s => pure (.str s)
  | .index e => e.evaluate
termination_by structural s => s

def segmentKeys : List Segment → Task (List Value)
  | [] => pure []
  | s :: rest => do
    let key ← s.key
    let keys ← segmentKeys rest
    return key :: keys
termination_by structural segments => segments

end

def Argument.evaluate (a : Argument) : Task Value := a.expr.evaluate

def NamedArgument.evaluate (a : NamedArgument) : Task Value :=
  match a.value with
  | some v => v.evaluate
  | none => pure (.bool true)

/-- Evaluates named arguments in order; a repeated key keeps its first place and last value. -/
def evaluateNamed (before : Object) : List NamedArgument → Task Object
  | [] => pure before
  | a :: rest => do
    let v ← a.evaluate
    evaluateNamed (before.insert a.key v) rest

end Templating
