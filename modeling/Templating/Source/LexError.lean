import Templating.Source.Span

namespace Templating

inductive LexCause where
  | unterminatedOutput
  | unterminatedTag
  | missingTagName
  | unterminatedString
  | unterminatedRange
  | expectedCloseBracket
  | expectedProperty
  | expectedValue
  | invalidNumber (text : String)
  | unexpectedCharacter (found : Char)
  deriving DecidableEq

def LexCause.text : LexCause → String
  | .unterminatedOutput => "output not closed, expected `\x7d\x7d`"
  | .unterminatedTag => "tag not closed, expected `%\x7d`"
  | .missingTagName => "tag has no name"
  | .unterminatedString => "unterminated string literal"
  | .unterminatedRange => "range not closed, expected `)`"
  | .expectedCloseBracket => "expected `]`"
  | .expectedProperty => "expected a property name after `.`"
  | .expectedValue => "expected a value"
  | .invalidNumber text => "invalid number literal `" ++ text ++ "`"
  | .unexpectedCharacter found => "unexpected character `" ++ String.singleton found ++ "`"

structure LexError where
  cause : LexCause
  span : Span
  deriving DecidableEq

def LexError.message (e : LexError) : String := e.cause.text ++ " at " ++ e.span.text

end Templating
