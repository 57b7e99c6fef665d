import Templating.Template.Node
import Templating.Template.ParseError

namespace Templating

open Cursor (Reader lift)

def TagToken.read {α : Type} (t : TagToken) (r : Reader (Option α)) : Except ParseError α :=
  match r (Cursor.ofText t.arguments t.offset) with
  | .ok (some a) _ => .ok a
  | .ok none _ => .error t.illegal
  | .error e _ => .error (.lex e)

theorem TagToken.read_eq_ok {α : Type} {t : TagToken} {r : Reader (Option α)} {a : α} :
    t.read r = .ok a ↔ ∃ c, r (Cursor.ofText t.arguments t.offset) = .ok (some a) c := by
  unfold TagToken.read
  cases r (Cursor.ofText t.arguments t.offset) with
  | error e c => simp
  | ok found c => cases found <;> simp

def readEnd : Reader Bool := lift fun c => (c.atEnd, c)

def readLoop (separator : Char) (ordered : Bool) : Reader (Option LoopHeader) := do
  let variableName ← lift Cursor.identifier
  let keyword ← lift Cursor.identifier
  let collection ← Cursor.value
  match variableName, keyword, collection with
  | some variableName, some "in", some collection => do
    let modifiers ← Cursor.namedArguments separator
    return some ⟨variableName, collection, modifiers, ordered⟩
  | _, _, _ => return none

def readTest : Reader (Option Condition) := do
  match ← Cursor.value with
  | none => return none
  | some left => do
    match ← lift Cursor.operator with
    | none => return some (.test left none)
    | some operator => do
      match ← Cursor.value with
      | none => return none
      | some right => return some (.test left (some (operator, right)))

/-- A chain of tests; each takes a character, so `fuel` above their number is enough. -/
def readChain : Nat → Reader (Option Condition)
  | 0 => return none
  | fuel + 1 => do
    match ← readTest with
    | none => return none
    | some test => do
      if ← lift (Cursor.takeWord "and") then
        return (← readChain fuel).map (.both test)
      else if ← lift (Cursor.takeWord "or") then
        return (← readChain fuel).map (.either test)
      else return some test

def readCondition : Reader (Option Condition) := do
  let c ← get
  let condition ← readChain (c.rest.length + 1)
  if ← readEnd then return condition else return none

def readAssignment : Reader (Option (String × Argument)) := do
  let name ← lift Cursor.identifier
  let equals ← lift (Cursor.take ['='])
  let value ← Cursor.value
  let done ← readEnd
  match name, value with
  | some name, some value => return if equals && done then some (name, value) else none
  | _, _ => return none

def readCounter : Reader (Option String) := do
  let name ← lift Cursor.identifier
  if ← readEnd then return name else return none

def OutputToken.read (t : OutputToken) : Except ParseError (Option Argument) :=
  match Cursor.value (Cursor.ofText t.content t.offset) with
  | .ok value c =>
    if c.atEnd then .ok value
    else .error (.illegalOutput ("\x7b\x7b" ++ t.content ++ "\x7d\x7d") t.span)
  | .error e _ => .error (.lex e)

end Templating
