import Templating.Proofs.Source.Bytes

/-!
Reading by offsets. The readers once more, over a text in which a place is a number of bytes:
every look at the text is a slice of it.
-/
namespace Templating

inductive Mishap where
  | refused (e : LexError)
  | outside
  | unended

abbrev Walk := ExceptT Mishap (StateM Nat)

namespace Walk

def within {α : Type} : Option α → Walk α
  | some a => pure a
  | none => throw .outside

def move (n : Nat) : Walk Unit := modify (· + n)

section
variable (text : List Char)

def remaining : Walk (List Char) := do within (from? (← get) text)

def skipBlank : Walk Unit := do
  let rest ← remaining text
  move (byteLength rest - byteLength (trimStart rest))

def take (wanted : List Char) : Walk Bool := do
  skipBlank text
  let rest ← remaining text
  if (afterLead? wanted rest).isSome then do
    move (byteLength wanted)
    return true
  else return false

def letters (rest : List Char) : Walk (List Char) := do
  let length := (find? (!isNameChar ·) rest).getD (byteLength rest)
  move length
  within (upTo? length rest)

def identifier : Walk (Option String) := do
  skipBlank text
  let rest ← remaining text
  if (rest.head?.map isNameStart).getD false then do
    let name ← letters rest
    return some (String.ofList name)
  else return none

def takeWord (word : String) : Walk Bool := do
  let saved ← get
  match ← identifier text with
  | some found =>
    if found = word then return true
    else do
      set saved
      return false
  | none => do
    set saved
    return false

def operator : Walk (Option Operator) := do
  skipBlank text
  let rest ← remaining text
  match Cursor.signs.find? (fun o => (afterLead? o.text.toList rest).isSome) with
  | some o => do
    move (byteLength o.text.toList)
    return some o
  | none => do
    let found ← takeWord text "contains"
    return if found then some .contains else none

variable (base : Nat)

def spanFrom (start : Nat) : Walk Span := do return (Span.ofRange start (← get)).shift base

def fail {α : Type} (cause : LexCause) (start : Nat) : Walk α := do
  let span ← spanFrom base start
  throw (.refused ⟨cause, span⟩)

def readNumber (start : Nat) : Walk Expr := do
  let (stop, isReal) := numberEnd (utf8 text) (← get)
  set stop
  let digits ← within (slice? start stop text)
  let literal := if isReal then (real? digits).map .float else (integer? digits).map .int
  match literal with
  | some l => return .literal l
  | none => fail base (.invalidNumber (String.ofList digits)) start

def readString (quote : Char) (start : Nat) : Walk Expr := do
  let rest ← remaining text
  let body ← within (from? 1 rest)
  match find? (· == quote) body with
  | some length => do
    move (length + 2)
    let content ← within (upTo? length body)
    return .literal (.str (String.ofList content))
  | none => do
    set (byteLength text)
    fail base .unterminatedString start

mutual

def readExpr : Nat → Walk (Option Expr)
  | 0 => throw .unended
  | steps + 1 => do
    let start ← get
    match ← remaining text with
    | [] => return none
    | d :: rest =>
      if d = '(' then do
        let range ← readRange steps start
        return some range
      else if d = '"' ∨ d = '\'' then do
        let string ← readString text base d start
        return some string
      else if d.isDigit || Cursor.startsNegative (d :: rest) then do
        let number ← readNumber text base start
        return some number
      else if isNameStart d then do
        match ← identifier text with
        | none => fail base .expectedValue start
        | some root => do
          let segments ← readSegments steps start
          return some (Cursor.pathExpr root segments)
      else return none
termination_by structural steps => steps

def readRange : Nat → Nat → Walk Expr
  | 0, _ => throw .unended
  | steps + 1, start => do
    move 1
    skipBlank text
    let low ← readExpr steps
    let dots ← take text ['.', '.']
    if !dots then fail base .unterminatedRange start
    else do
      skipBlank text
      let high ← readExpr steps
      match low, high with
      | some low, some high => do
        let closed ← take text [')']
        if closed then return .range low high else fail base .unterminatedRange start
      | _, _ => fail base .expectedValue start
termination_by structural steps => steps

def readSegments : Nat → Nat → Walk (List Segment)
  | 0, _ => throw .unended
  | steps + 1, start => do
    match ← remaining text with
    | '.' :: next =>
      if next.head? = some '.' then return []
      else do
        move 1
        let rest ← remaining text
        if (rest.head?.map isNameChar).getD false then do
          let name ← letters rest
          let segments ← readSegments steps start
          return .name (String.ofList name) :: segments
        else fail base .expectedProperty start
    | '[' :: _ => do
      move 1
      skipBlank text
      match ← readExpr steps with
      | none => fail base .expectedValue start
      | some index => do
        let closed ← take text [']']
        if !closed then fail base .expectedCloseBracket start
        else do
          let segments ← readSegments steps start
          return .index index :: segments
    | _ => return []
termination_by structural steps => steps

end

variable (steps : Nat)

def value : Walk (Option Argument) := do
  skipBlank text
  let start ← get
  match ← readExpr text base steps with
  | none => return none
  | some e => do
    let stop ← get
    let part ← within (slice? start stop text)
    let span ← spanFrom base start
    return some ⟨e, String.ofList part, span⟩

def readGiven (separator : Char) (start : Nat) : Walk (Option Argument) := do
  let rest ← remaining text
  if rest.head? = some separator then do
    move separator.utf8Size
    match ← value text base steps with
    | some v => return some v
    | none => fail base .expectedValue start
  else return none

def namedArguments (separator : Char) : Nat → Walk (List NamedArgument)
  | 0 => throw .unended
  | steps + 1 => do
    skipBlank text
    let rest ← remaining text
    if (trimStart rest).isEmpty then return []
    else do
      let start ← get
      match ← identifier text with
      | none => do
        let rest ← remaining text
        fail base (.unexpectedCharacter (rest.head?.getD ' ')) start
      | some key => do
        skipBlank text
        let given ← readGiven text base steps separator start
        let span ← spanFrom base start
        let _ ← take text [',']
        let entries ← namedArguments separator steps
        return ⟨key, given, span⟩ :: entries
termination_by structural steps => steps

end

end Walk

/-- What is asked of a text that is read. -/
inductive Call where
  | identifier
  | word (word : String)
  | take (wanted : String)
  | operator
  | value
  | hash (separator : Char)
  | skip
  | atEnd
  | remaining
  | spanFrom (start : Nat)
  | restSpan

inductive Answer where
  | name (found : Option String)
  | truth (b : Bool)
  | operator (found : Option Operator)
  | value (found : Option Argument)
  | entries (entries : List NamedArgument)
  | text (cs : List Char)
  | span (s : Span)
  | moved

def Call.walk (text : List Char) (base steps : Nat) : Call → Walk Answer
  | .identifier => do return .name (← Walk.identifier text)
  | .word name => do return .truth (← Walk.takeWord text name)
  | .take wanted => do return .truth (← Walk.take text wanted.toList)
  | .operator => do return .operator (← Walk.operator text)
  | .value => do return .value (← Walk.value text base steps)
  | .hash separator => do return .entries (← Walk.namedArguments text base separator steps)
  | .skip => do
    Walk.skipBlank text
    return .moved
  | .atEnd => do return .truth (trimStart (← Walk.remaining text)).isEmpty
  | .remaining => do return .text (← Walk.remaining text)
  | .spanFrom start => do return .span (← Walk.spanFrom base start)
  | .restSpan => do return .span ((Span.ofRange (← get) (byteLength text)).shift base)

def Call.read : Call → Cursor.Reader Answer
  | .identifier => do return .name (← Cursor.lift Cursor.identifier)
  | .word name => do return .truth (← Cursor.lift (Cursor.takeWord name))
  | .take wanted => do return .truth (← Cursor.lift (Cursor.take wanted.toList))
  | .operator => do return .operator (← Cursor.lift Cursor.operator)
  | .value => do return .value (← Cursor.value)
  | .hash separator => do return .entries (← Cursor.namedArguments separator)
  | .skip => do
    Cursor.blanks
    return .moved
  | .atEnd => do return .truth (← get).atEnd
  | .remaining => do return .text (← get).rest
  | .spanFrom start => do return .span ((← get).spanFrom start)
  | .restSpan => do return .span (← get).restSpan

/-- Calls in turn, each from where the one before has stopped, whatever became of it; with where
    each stops. -/
def walkAll (text : List Char) (base steps : Nat) :
    List Call → Nat → List (Except Mishap Answer × Nat)
  | [], _ => []
  | call :: calls, place =>
    let outcome := (call.walk text base steps).run.run place
    outcome :: walkAll text base steps calls outcome.2

end Templating
