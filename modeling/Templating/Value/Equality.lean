import Templating.Decimal.Real
import Templating.Value.Object

/-!
Equality of values. Plain data is compared by content, an integer and a float as floats; objects
have equal sizes, equal entries in any order and equal ancestors; what has an identity equals
itself alone.
-/
namespace Templating
namespace Value

mutual

def equal : Value → Value → Bool
  | .undefined, .undefined => true
  | .nil, .nil => true
  | .bool a, .bool b => a == b
  | .int a, .int b => a == b
  | .float a, .float b => a == b
  | .int a, .float b => nearestFloat a == b
  | .float a, .int b => nearestFloat b == a
  | .str a, .str b => a == b
  | .array a, .array b => equalItems a b
  | .object a, .object b => equalObjects a b
  | .drop a, .drop b => a.id == b.id
  | .position a, .position b => a.id == b.id
  | .computed a _ _, .computed b _ _ => a == b
  | .deferred a _ _, .deferred b _ _ => a == b
  | _, _ => false
termination_by structural v => v

def equalItems : List Value → List Value → Bool
  | [], [] => true
  | a :: as, b :: bs => equal a b && equalItems as bs
  | _, _ => false
termination_by structural items => items

def equalObjects : Object → Object → Bool
  | ⟨entries, ancestor⟩, o =>
    entries.length == o.entries.length && foundIn entries o.entries
      && equalAncestors ancestor o.ancestor
termination_by structural o => o

def foundIn : List (String × Value) → List (String × Value) → Bool
  | [], _ => true
  | (k, v) :: rest, entries =>
    (match entries.lookup k with
      | some w => equal v w
      | none => false) && foundIn rest entries
termination_by structural entries => entries

def equalAncestors : Option Object → Option Object → Bool
  | none, none => true
  | some a, some b => equalObjects a b
  | _, _ => false
termination_by structural o => o

end

instance : BEq Value := ⟨equal⟩

end Value

instance : BEq Object := ⟨Value.equalObjects⟩

end Templating
