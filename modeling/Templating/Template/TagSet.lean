import Templating.Template.Header
import Templating.State.Registers

namespace Templating

inductive Move where
  | next
  | close
  deriving DecidableEq

/-- A custom node without its bodies. `sections` gives the tags that end each
    body; without sections there is no body and no closing tag. -/
structure Construct where
  custom : Custom
  sections : List (List (String × Move))

inductive TagKind where
  | loop
  | choice
  | assign
  | increment
  | decrement
  | leave
  | next
  | custom (opening : TagToken → Except ParseError Construct)

structure TagSet where
  entries : List (String × TagKind)

namespace TagSet

def empty : TagSet := ⟨[]⟩

def find? (tags : TagSet) (name : String) : Option TagKind := tags.entries.lookup name

def contains (tags : TagSet) (name : String) : Bool := (tags.find? name).isSome

def register (tags : TagSet) (name : String) (kind : TagKind) : TagSet :=
  ⟨(name, kind) :: tags.entries.filter (·.1 != name)⟩

def builtins : TagSet :=
  ⟨[("for", .loop), ("break", .leave), ("continue", .next), ("if", .choice), ("assign", .assign),
    ("increment", .increment), ("decrement", .decrement)]⟩

def description (tags : TagSet) : String := nameSet (tags.entries.map (·.1))

end TagSet
end Templating
