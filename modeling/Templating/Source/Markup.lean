import Templating.Source.LexError
import Templating.Text.Blank

/-!
Cutting a source into text, outputs and tags. A markup opens at the leftmost pair of braces or
brace and percent sign and closes at the first closing pair of its kind.
-/
namespace Templating

inductive Markup where
  | output
  | tag
  deriving DecidableEq

/-- Both kinds open with a brace and close with one; this is the inner sign of each. -/
def Markup.opening : Markup → Char
  | .output => '\x7b'
  | .tag => '%'

def Markup.closing : Markup → Char
  | .output => '\x7d'
  | .tag => '%'

structure Trimming where
  tagLeft : Bool
  tagRight : Bool
  outputLeft : Bool
  outputRight : Bool
  deriving DecidableEq

def Trimming.none : Trimming := ⟨false, false, false, false⟩

def Trimming.left (t : Trimming) : Markup → Bool
  | .output => t.outputLeft
  | .tag => t.tagLeft

def Trimming.right (t : Trimming) : Markup → Bool
  | .output => t.outputRight
  | .tag => t.tagRight

/-- A run of text, or what stands between the delimiters of a markup. -/
inductive Piece where
  | text (cs : List Char)
  | markup (kind : Markup) (inside : List Char)
  | unclosed (kind : Markup) (inside : List Char)

def textPiece (seen : List Char) : List Piece :=
  if seen.isEmpty then [] else [.text seen.reverse]

mutual

/-- Reads text; `seen` is what was read of it, most recent first. -/
def piecesOfText (seen : List Char) : List Char → List Piece
  | [] => textPiece seen
  | [c] => textPiece (c :: seen)
  | a :: b :: rest =>
    if a = '\x7b' ∧ b = '\x7b' then textPiece seen ++ piecesOfMarkup .output [] rest
    else if a = '\x7b' ∧ b = '%' then textPiece seen ++ piecesOfMarkup .tag [] rest
    else piecesOfText (a :: seen) (b :: rest)
termination_by structural cs => cs

def piecesOfMarkup (kind : Markup) (seen : List Char) : List Char → List Piece
  | [] => [.unclosed kind seen.reverse]
  | [c] => [.unclosed kind (c :: seen).reverse]
  | a :: b :: rest =>
    if a = kind.closing ∧ b = '\x7d' then .markup kind seen.reverse :: piecesOfText [] rest
    else piecesOfMarkup kind (a :: seen) (b :: rest)
termination_by structural cs => cs

end

def pieces (source : List Char) : List Piece := piecesOfText [] source

structure TextToken where
  text : String
  span : Span

structure OutputToken where
  content : String
  offset : Nat
  span : Span

/-- A tag: everything after its name is arguments; `text` is the whole tag. -/
structure TagToken where
  name : String
  arguments : String
  offset : Nat
  span : Span
  text : String

inductive Token where
  | text (t : TextToken)
  | output (t : OutputToken)
  | tag (t : TagToken)

def Token.span : Token → Span
  | .text t => t.span
  | .output t => t.span
  | .tag t => t.span

def TagToken.hasArguments (t : TagToken) : Bool := !(trim t.arguments.toList).isEmpty

def isTagNameChar (c : Char) : Bool := c.isAlphanum || c == '_'

def beginsWithDash (inside : List Char) : Bool := inside.head? == some '-'

def withoutLeadingDash (inside : List Char) : List Char :=
  if beginsWithDash inside then inside.drop 1 else inside

def endsWithDash (inside : List Char) : Bool := (withoutLeadingDash inside).getLast? == some '-'

def withoutDashes (inside : List Char) : List Char :=
  let body := withoutLeadingDash inside
  if endsWithDash inside then body.dropLast else body

def Piece.trimsLeft (t : Trimming) : Piece → Bool
  | .text _ => false
  | .markup kind inside => beginsWithDash inside || t.left kind
  | .unclosed kind inside => beginsWithDash inside || t.left kind

def delimited (kind : Markup) (inside : List Char) : String :=
  String.ofList ('\x7b' :: kind.opening :: inside ++ [kind.closing, '\x7d'])

def tagToken (inside : List Char) (start : Nat) (span : Span) : Except LexError TagToken :=
  let said := withoutDashes inside
  let body := trimStart said
  let name := body.takeWhile isTagNameChar
  let arguments := body.dropWhile isTagNameChar
  let before := start + 2 + (if beginsWithDash inside then 1 else 0)
  if name.isEmpty then .error ⟨.missingTagName, span⟩
  else .ok
    { name := String.ofList name
      arguments := String.ofList arguments
      offset := min (before + byteLength said - byteLength arguments) furthestOffset
      span := span
      text := delimited .tag inside }

def outputToken (inside : List Char) (start : Nat) (span : Span) : OutputToken :=
  let before := start + 2 + (if beginsWithDash inside then 1 else 0)
  { content := String.ofList (withoutDashes inside)
    offset := min before furthestOffset
    span := span }

def markupToken (inside : List Char) (start : Nat) (span : Span) :
    Markup → Except LexError Token
  | .output => .ok (.output (outputToken inside start span))
  | .tag => (tagToken inside start span).map .tag

/-- The token of a text at `start`, unless trimming leaves nothing of it. -/
def textToken (cs : List Char) (start : Nat) (trimsStart trimsEnd : Bool) : List Token :=
  let led := if trimsStart then trimStart cs else cs
  let kept := if trimsEnd then trimEnd led else led
  let first := start + (byteLength cs - byteLength led)
  if kept.isEmpty then []
  else [.text ⟨String.ofList kept, Span.ofRange first (first + byteLength kept)⟩]

/-- The tokens of the pieces from `start` on; `trims` says whether the markup
    just before trims what follows it. -/
def tokensFrom (t : Trimming) (start : Nat) (trims : Bool) :
    List Piece → Except LexError (List Token)
  | [] => .ok []
  | .text cs :: rest => do
    let trimsEnd := (rest.head?.map (·.trimsLeft t)).getD false
    let tokens ← tokensFrom t (start + byteLength cs) false rest
    return textToken cs start trims trimsEnd ++ tokens
  | .markup kind inside :: rest => do
    let stop := start + byteLength inside + 4
    let token ← markupToken inside start (Span.ofRange start stop) kind
    let tokens ← tokensFrom t stop (endsWithDash inside || t.right kind) rest
    return token :: tokens
  | .unclosed kind inside :: _ =>
    let cause := match kind with
      | .output => .unterminatedOutput
      | .tag => .unterminatedTag
    .error ⟨cause, Span.ofRange start (start + byteLength inside + 2)⟩

def tokens (t : Trimming) (source : String) : Except LexError (List Token) :=
  tokensFrom t 0 false (pieces source.toList)

end Templating
