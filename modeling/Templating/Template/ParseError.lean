import Templating.Source.LexError
import Templating.Source.Markup

namespace Templating

inductive ParseError where
  | illegalTag (text : String) (span : Span)
  | illegalOutput (text : String) (span : Span)
  | notClosed (text : String) (span : Span)
  | unexpectedArguments (tag : String) (span : Span)
  | unknownTag (name : String) (span : Span)
  | unexpectedTag (name : String) (span : Span)
  | lex (e : LexError)
  deriving DecidableEq

namespace ParseError

def message : ParseError → String
  | .illegalTag text _ => "illegal tag: " ++ text
  | .illegalOutput text _ => "illegal output: " ++ text
  | .notClosed text _ => "tag " ++ text ++ " not closed"
  | .unexpectedArguments tag _ => "tag `" ++ tag ++ "` takes no arguments"
  | .unknownTag name _ => "tag `" ++ name ++ "` not found"
  | .unexpectedTag name _ => "unexpected tag `" ++ name ++ "`"
  | .lex e => e.message

def span : ParseError → Span
  | .illegalTag _ span => span
  | .illegalOutput _ span => span
  | .notClosed _ span => span
  | .unexpectedArguments _ span => span
  | .unknownTag _ span => span
  | .unexpectedTag _ span => span
  | .lex e => e.span

end ParseError

namespace TagToken

def illegal (t : TagToken) : ParseError := .illegalTag t.text t.span

def neverClosed (t : TagToken) : ParseError := .notClosed t.text t.span

def unexpected (t : TagToken) : ParseError := .unexpectedTag t.name t.span

def unknown (t : TagToken) : ParseError := .unknownTag t.name t.span

def expectNoArguments (t : TagToken) : Except ParseError Unit :=
  if t.hasArguments then .error (.unexpectedArguments t.name t.span) else .ok ()

end TagToken
end Templating
