import Templating.Source.Cursor
import Mathlib.Data.Nat.Digits.Defs

/-!
The written forms of value expressions. `Written e text` holds of every text that stands for `e`
in a source: numbers by their digits, strings in quotes that they do not contain, paths step by
step, and blanks wherever brackets and range dots leave room for them.
-/
namespace Templating

def Blanks (cs : List Char) : Prop := ∀ c ∈ cs, isBlank c = true

def Digits (cs : List Char) : Prop := cs ≠ [] ∧ ∀ c ∈ cs, c.isDigit = true

def Gap (cs : List Char) : Prop := cs ≠ [] ∧ Blanks cs

/-- A letter or underscore, then letters, digits, underscores and dashes. -/
def IsName (cs : List Char) : Prop :=
  (∃ c ∈ cs.head?, isNameStart c = true) ∧ ∀ c ∈ cs, isNameChar c = true

def IsProperty (cs : List Char) : Prop := cs ≠ [] ∧ ∀ c ∈ cs, isNameChar c = true

instance (cs : List Char) : Decidable (Blanks cs) :=
  decidable_of_iff (cs.all isBlank = true) List.all_eq_true

instance (cs : List Char) : Decidable (Gap cs) := inferInstanceAs (Decidable (_ ∧ _))

instance (cs : List Char) : Decidable (Digits cs) :=
  decidable_of_iff (cs ≠ [] ∧ cs.all Char.isDigit = true) (by simp [Digits])

instance (cs : List Char) : Decidable (IsName cs) :=
  decidable_of_iff (cs.head?.any isNameStart = true ∧ cs.all isNameChar = true)
    (by simp [IsName, Option.any_eq_true])

instance (cs : List Char) : Decidable (IsProperty cs) :=
  decidable_of_iff (cs ≠ [] ∧ cs.all isNameChar = true) (by simp [IsProperty])

def minusSign (negative : Bool) : List Char := if negative then ['-'] else []

def signedValue (negative : Bool) (digits : List Char) : Int :=
  if negative then -(valueOfDigits digits : Int) else valueOfDigits digits

def decimalValue (negative : Bool) (whole fraction : List Char) : Float :=
  let x := roundDecimal (valueOfDigits (whole ++ fraction)) (-(fraction.length : Int))
  if negative then -x else x

def keywords : List String := ["nil", "null", "true", "false"]

mutual

/-- Every text that stands for the expression. -/
inductive Written : Expr → List Char → Prop
  | nil {word : String} (either : word = "nil" ∨ word = "null") :
      Written (.literal .nil) word.toList
  | yes : Written (.literal (.bool true)) "true".toList
  | no : Written (.literal (.bool false)) "false".toList
  | int {n : Int64} {negative : Bool} {digits : List Char} (numeral : Digits digits)
      (value : n.toInt = signedValue negative digits) :
      Written (.literal (.int n)) (minusSign negative ++ digits)
  | float {negative : Bool} {whole fraction : List Char} (before : Digits whole)
      (behind : Digits fraction) :
      Written (.literal (.float (decimalValue negative whole fraction)))
        (minusSign negative ++ whole ++ '.' :: fraction)
  | str {s : String} {quote : Char} (either : quote = '"' ∨ quote = '\'')
      (apart : quote ∉ s.toList) : Written (.literal (.str s)) (quote :: s.toList ++ [quote])
  | path {root : String} {steps : List Segment} {rest : List Char} (name : IsName root.toList)
      (alone : steps = [] → root ∉ keywords) (onward : WrittenSteps steps rest) :
      Written (.path root steps) (root.toList ++ rest)
  | range {low high : Expr} {first second a b c d : List Char} (lower : Written low first)
      (upper : Written high second) (opened : Blanks a) (ahead : Blanks b) (past : Blanks c)
      (closing : Blanks d) :
      Written (.range low high)
        ('(' :: a ++ first ++ b ++ ['.', '.'] ++ c ++ second ++ d ++ [')'])

inductive WrittenSteps : List Segment → List Char → Prop
  | nil : WrittenSteps [] []
  | name {word : String} {steps : List Segment} {rest : List Char}
      (property : IsProperty word.toList) (onward : WrittenSteps steps rest) :
      WrittenSteps (.name word :: steps) ('.' :: word.toList ++ rest)
  | index {e : Expr} {steps : List Segment} {text rest a b : List Char} (inner : Written e text)
      (opened : Blanks a) (closing : Blanks b) (onward : WrittenSteps steps rest) :
      WrittenSteps (.index e :: steps) ('[' :: a ++ text ++ b ++ ']' :: rest)

end

mutual

/-- What the language can say: no float without a decimal that rounds to it, no string with quotes
    of both kinds, names only where names are asked for, and no literal word as a path. -/
def Expr.Sayable : Expr → Prop
  | .literal (.float x) => ∃ negative whole fraction,
      Digits whole ∧ Digits fraction ∧ x = decimalValue negative whole fraction
  | .literal (.str s) => '"' ∉ s.toList ∨ '\'' ∉ s.toList
  | .literal _ => True
  | .path root steps => IsName root.toList ∧ (steps = [] → root ∉ keywords) ∧ SayableSteps steps
  | .range low high => low.Sayable ∧ high.Sayable
termination_by structural e => e

def Segment.Sayable : Segment → Prop
  | .name word => IsProperty word.toList
  | .index e => e.Sayable
termination_by structural s => s

def SayableSteps : List Segment → Prop
  | [] => True
  | s :: steps => s.Sayable ∧ SayableSteps steps
termination_by structural steps => steps

end

theorem blanks_nil : Blanks [] := List.forall_mem_nil _

theorem valueOfDigits_naturalText (n : Nat) : valueOfDigits (naturalText n) = n :=
  Nat.ofDigitChars_toDigits (by decide) (by decide)

theorem digits_naturalText (n : Nat) : Digits (naturalText n) :=
  ⟨Nat.toDigits_ne_nil, fun _ member => Nat.isDigit_of_mem_toDigits (by decide) (by decide) member⟩

theorem Written.integer (n : Int64) :
    ∃ negative, Written (.literal (.int n)) (minusSign negative ++ naturalText n.toInt.natAbs) := by
  refine ⟨decide (n.toInt < 0), .int (digits_naturalText _) ?_⟩
  simp only [signedValue, valueOfDigits_naturalText, decide_eq_true_eq]
  split <;> omega

mutual

theorem Expr.Sayable.written : ∀ {e : Expr}, e.Sayable → ∃ text, Written e text
  | .literal .nil, _ => ⟨_, .nil (.inl rfl)⟩
  | .literal (.bool true), _ => ⟨_, .yes⟩
  | .literal (.bool false), _ => ⟨_, .no⟩
  | .literal (.int n), _ =>
    have ⟨_, written⟩ := Written.integer n
    ⟨_, written⟩
  | .literal (.float _), sayable => by
    obtain ⟨negative, whole, fraction, before, behind, rfl⟩ := sayable
    exact ⟨_, .float before behind⟩
  | .literal (.str _), sayable => by
    rcases sayable with double | single
    · exact ⟨_, .str (.inl rfl) double⟩
    · exact ⟨_, .str (.inr rfl) single⟩
  | .path _ _, ⟨name, alone, sayable⟩ =>
    have ⟨_, onward⟩ := SayableSteps.written sayable
    ⟨_, .path name alone onward⟩
  | .range _ _, ⟨lower, upper⟩ =>
    have ⟨_, low⟩ := lower.written
    have ⟨_, high⟩ := upper.written
    ⟨_, .range low high blanks_nil blanks_nil blanks_nil blanks_nil⟩
termination_by structural e => e

theorem SayableSteps.written : ∀ {steps : List Segment}, SayableSteps steps →
    ∃ text, WrittenSteps steps text
  | [], _ => ⟨_, .nil⟩
  | .name _ :: _, ⟨property, sayable⟩ =>
    have ⟨_, onward⟩ := SayableSteps.written sayable
    ⟨_, .name property onward⟩
  | .index _ :: _, ⟨inner, sayable⟩ =>
    have ⟨_, text⟩ := Expr.Sayable.written inner
    have ⟨_, onward⟩ := SayableSteps.written sayable
    ⟨_, .index text blanks_nil blanks_nil onward⟩
termination_by structural steps => steps

end

mutual

theorem Written.sayable : ∀ {e : Expr} {text : List Char}, Written e text → e.Sayable
  | _, _, .nil _ => trivial
  | _, _, .yes => trivial
  | _, _, .no => trivial
  | _, _, .int _ _ => trivial
  | _, _, .float before behind => ⟨_, _, _, before, behind, rfl⟩
  | _, _, .str either apart => by
    rcases either with rfl | rfl
    · exact .inl apart
    · exact .inr apart
  | _, _, .path name alone onward => ⟨name, alone, onward.sayable⟩
  | _, _, .range lower upper _ _ _ _ => ⟨lower.sayable, upper.sayable⟩
termination_by structural _ _ h => h

theorem WrittenSteps.sayable : ∀ {steps : List Segment} {text : List Char},
    WrittenSteps steps text → SayableSteps steps
  | _, _, .nil => trivial
  | _, _, .name property onward => ⟨property, onward.sayable⟩
  | _, _, .index inner _ _ onward => ⟨inner.sayable, onward.sayable⟩
termination_by structural _ _ h => h

end

end Templating
