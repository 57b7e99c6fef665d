import Templating.Text.Blank

namespace Templating
namespace Json

inductive Cause where
  | unfinishedList
  | unfinishedObject
  | unfinishedString
  | unfinishedValue
  | expectedColon
  | expectedListCommaOrEnd
  | expectedObjectCommaOrEnd
  | expectedWord
  | expectedValue
  | invalidEscape
  | invalidNumber
  | numberOutOfRange
  | controlCharacter
  | keyNotString
  | loneSurrogate
  | unfinishedPair
  | trailingComma
  | trailingCharacters
  | tooDeep
  | mismatch (text : String)
  deriving DecidableEq

def Cause.text : Cause → String
  | .unfinishedList => "EOF while parsing a list"
  | .unfinishedObject => "EOF while parsing an object"
  | .unfinishedString => "EOF while parsing a string"
  | .unfinishedValue => "EOF while parsing a value"
  | .expectedColon => "expected `:`"
  | .expectedListCommaOrEnd => "expected `,` or `]`"
  | .expectedObjectCommaOrEnd => "expected `,` or `\x7d`"
  | .expectedWord => "expected ident"
  | .expectedValue => "expected value"
  | .invalidEscape => "invalid escape"
  | .invalidNumber => "invalid number"
  | .numberOutOfRange => "number out of range"
  | .controlCharacter => "control character (\\u0000-\\u001F) found while parsing a string"
  | .keyNotString => "key must be a string"
  | .loneSurrogate => "lone leading surrogate in hex escape"
  | .unfinishedPair => "unexpected end of hex escape"
  | .trailingComma => "trailing comma"
  | .trailingCharacters => "trailing characters"
  | .tooDeep => "recursion limit exceeded"
  | .mismatch text => text

structure Fault where
  cause : Cause
  left : Nat

abbrev Reading (α : Type) := Except Fault (α × List Char)

def refuse {α : Type} (cause : Cause) (rest : List Char) : Except Fault α :=
  .error ⟨cause, byteLength rest⟩

def refuseNext {α : Type} (cause : Cause) (rest : List Char) : Except Fault α :=
  .error ⟨cause, byteLength rest - 1⟩

def placeAfter : Nat → List Char → Nat × Nat
  | count, cs => go count cs 1 0
where
  go (count : Nat) : List Char → Nat → Nat → Nat × Nat
    | [], line, column => (line, column)
    | c :: rest, line, column =>
      if count < c.utf8Size then (line, column + count)
      else if c = '\n' then go (count - 1) rest (line + 1) 0
      else go (count - c.utf8Size) rest line (column + c.utf8Size)

def Fault.message (fault : Fault) (source : String) : String :=
  let cs := source.toList
  let place := placeAfter (byteLength cs - fault.left) cs
  fault.cause.text ++ " at line " ++ toString place.1 ++ " column " ++ toString place.2

end Json
end Templating
