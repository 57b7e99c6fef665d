import Templating.Expr.Basic
import Templating.Source.LexError
import Templating.Decimal.Real
import Templating.Text.Blank

/-!
Reading tag arguments and outputs. A cursor stands between what has been read of a text and what
has not; every operation moves it forward or leaves it.
-/
namespace Templating

structure Cursor where
  rest : List Char
  position : Nat
  base : Nat

inductive Operator where
  | equal
  | unequal
  | different
  | atMost
  | atLeast
  | below
  | above
  | contains
  deriving DecidableEq

def Operator.text : Operator → String
  | .equal => "=="
  | .unequal => "!="
  | .different => "<>"
  | .atMost => "<="
  | .atLeast => ">="
  | .below => "<"
  | .above => ">"
  | .contains => "contains"

def isNameStart (c : Char) : Bool := c.isAlpha || c == '_'

def isNameChar (c : Char) : Bool := c.isAlphanum || c == '_' || c == '-'

namespace Cursor

/-- A cursor at the start of a text that begins at offset `base` of the source. -/
def ofText (text : String) (base : Nat) : Cursor := ⟨text.toList, 0, base⟩

def advance (c : Cursor) (n : Nat) : Cursor :=
  { c with rest := c.rest.drop n, position := c.position + byteLength (c.rest.take n) }

def atEnd (c : Cursor) : Bool := (trimStart c.rest).isEmpty

def skipBlank (c : Cursor) : Cursor := c.advance (c.rest.takeWhile isBlank).length

def spanFrom (c : Cursor) (start : Nat) : Span := (Span.ofRange start c.position).shift c.base

def restSpan (c : Cursor) : Span :=
  (Span.ofRange c.position (c.position + byteLength c.rest)).shift c.base

def take (text : List Char) (c : Cursor) : Bool × Cursor :=
  let c := c.skipBlank
  if (afterLead? text c.rest).isSome then (true, c.advance text.length) else (false, c)

def identifier (c : Cursor) : Option String × Cursor :=
  let c := c.skipBlank
  if (c.rest.head?.map isNameStart).getD false then
    let name := c.rest.takeWhile isNameChar
    (some (String.ofList name), c.advance name.length)
  else (none, c)

/-- Takes `word` if it comes next as a whole name, and does not move otherwise. -/
def takeWord (word : String) (c : Cursor) : Bool × Cursor :=
  match c.identifier with
  | (some name, moved) => if name = word then (true, moved) else (false, c)
  | (none, _) => (false, c)

/-- The longer signs come first, so that `<=` is not read as `<`. -/
def signs : List Operator := [.equal, .unequal, .different, .atMost, .atLeast, .below, .above]

def operator (c : Cursor) : Option Operator × Cursor :=
  let c := c.skipBlank
  match signs.find? (fun o => (afterLead? o.text.toList c.rest).isSome) with
  | some o => (some o, c.advance o.text.length)
  | none =>
    match c.takeWord "contains" with
    | (true, c) => (some .contains, c)
    | (false, c) => (none, c)

/-- A reader moves a cursor and gives a result or fails, in both cases leaving
    the cursor somewhere. -/
abbrev Reader := EStateM LexError Cursor

def fail {α : Type} (cause : LexCause) (start : Nat) : Reader α := fun c =>
  .error ⟨cause, c.spanFrom start⟩ c

def skip (n : Nat) : Reader Unit := fun c => .ok () (c.advance n)

def blanks : Reader Unit := fun c => .ok () c.skipBlank

def lift {α : Type} (f : Cursor → α × Cursor) : Reader α := fun c => .ok (f c).1 (f c).2

/-- The characters of a number: an optional minus, digits, and a fraction if a
    digit follows the point, so that `1..5` is not one. -/
def numberText (cs : List Char) : List Char × Bool :=
  let minus := cs.take (if cs.head? == some '-' then 1 else 0)
  let cs := cs.drop minus.length
  let whole := minus ++ cs.takeWhile Char.isDigit
  match cs.dropWhile Char.isDigit with
  | '.' :: d :: rest =>
    if d.isDigit then (whole ++ '.' :: (d :: rest).takeWhile Char.isDigit, true) else (whole, false)
  | _ => (whole, false)

def readNumber (start : Nat) : Reader Expr := do
  let c ← get
  let (text, isReal) := numberText c.rest
  skip text.length
  let literal := if isReal then (real? text).map .float else (integer? text).map .int
  match literal with
  | some l => return .literal l
  | none => fail (.invalidNumber (String.ofList text)) start

def readString (quote : Char) (start : Nat) : Reader Expr := do
  let c ← get
  let body := (c.rest.drop 1).takeWhile (· ≠ quote)
  if 1 + body.length < c.rest.length then
    skip (body.length + 2)
    return .literal (.str (String.ofList body))
  else
    skip c.rest.length
    fail .unterminatedString start

def word? : String → Option Literal
  | "nil" => some .nil
  | "null" => some .nil
  | "true" => some (.bool true)
  | "false" => some (.bool false)
  | _ => none

/-- A word alone may be a literal; with segments it is always a path. -/
def pathExpr (root : String) (segments : List Segment) : Expr :=
  match segments, word? root with
  | [], some l => .literal l
  | segments, _ => .path root segments

def startsNegative : List Char → Bool
  | '-' :: d :: _ => d.isDigit
  | _ => false

mutual

/-- Reads an expression if one starts at the cursor. Whatever starts there takes
    a character, so `fuel` above the number of characters left is enough. -/
def readExpr : Nat → Reader (Option Expr)
  | 0 => return none
  | fuel + 1 => do
    let c ← get
    let start := c.position
    match c.rest with
    | [] => return none
    | d :: rest =>
      if d = '(' then some <$> readRange fuel start
      else if d = '"' ∨ d = '\'' then some <$> readString d start
      else if d.isDigit || startsNegative (d :: rest) then some <$> readNumber start
      else if isNameStart d then do
        let name := (d :: rest).takeWhile isNameChar
        skip name.length
        let segments ← readSegments fuel start
        return some (pathExpr (String.ofList name) segments)
      else return none
termination_by structural fuel => fuel

def readRange : Nat → Nat → Reader Expr
  | 0, start => fail .unterminatedRange start
  | fuel + 1, start => do
    skip 1
    blanks
    let low ← readExpr fuel
    let dots ← lift (take ['.', '.'])
    if !dots then fail .unterminatedRange start
    else do
      blanks
      let high ← readExpr fuel
      match low, high with
      | some low, some high => do
        let closed ← lift (take [')'])
        if closed then return .range low high else fail .unterminatedRange start
      | _, _ => fail .expectedValue start
termination_by structural fuel => fuel

/-- Reads the names and indices of a path. Two dots end it, they belong to a range. -/
def readSegments : Nat → Nat → Reader (List Segment)
  | 0, _ => return []
  | fuel + 1, start => do
    let c ← get
    match c.rest with
    | '.' :: rest =>
      if rest.head? = some '.' then return []
      else do
        skip 1
        let name := rest.takeWhile isNameChar
        if name.isEmpty then fail .expectedProperty start
        else do
          skip name.length
          let segments ← readSegments fuel start
          return .name (String.ofList name) :: segments
    | '[' :: _ => do
      skip 1
      blanks
      match ← readExpr fuel with
      | none => fail .expectedValue start
      | some index => do
        let closed ← lift (take [']'])
        if !closed then fail .expectedCloseBracket start
        else do
          let segments ← readSegments fuel start
          return .index index :: segments
    | _ => return []
termination_by structural fuel => fuel

end

/-- A segment or range spends at most three steps for each character it takes. -/
def enough (c : Cursor) : Nat := 3 * c.rest.length + 3

def value : Reader (Option Argument) := do
  blanks
  let c ← get
  match ← readExpr c.enough with
  | none => return none
  | some e => do
    let after ← get
    let text := c.rest.take (c.rest.length - after.rest.length)
    return some ⟨e, String.ofList text, after.spanFrom c.position⟩

def readGiven (separator : Char) (start : Nat) : Reader (Option Argument) := do
  let c ← get
  if c.rest.head? = some separator then do
    skip 1
    match ← value with
    | some v => return some v
    | none => fail .expectedValue start
  else return none

def readNamed (separator : Char) : Nat → Reader (List NamedArgument)
  | 0 => return []
  | fuel + 1 => do
    blanks
    let c ← get
    if c.rest.isEmpty then return []
    else do
      match ← lift identifier with
      | none => fail (.unexpectedCharacter (c.rest.head?.getD ' ')) c.position
      | some key => do
        blanks
        let given ← readGiven separator c.position
        let after ← get
        let entry : NamedArgument := ⟨key, given, after.spanFrom c.position⟩
        let _ ← lift (take [','])
        let entries ← readNamed separator fuel
        return entry :: entries

/-- Reads named arguments up to the end; blanks or a comma stand between them. -/
def namedArguments (separator : Char) : Reader (List NamedArgument) := fun c =>
  readNamed separator (c.rest.length + 1) c

end Cursor
end Templating
