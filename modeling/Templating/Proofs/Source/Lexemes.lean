import Mathlib.Data.List.TakeWhile
import Templating.Proofs.Source.Written

namespace Templating

theorem takeWhile_append_stop {p : Char → Bool} {text after : List Char}
    (all : ∀ c ∈ text, p c = true) (stops : ∀ c ∈ after.head?, p c = false) :
    (text ++ after).takeWhile p = text := by
  rw [List.takeWhile_append_of_pos all]
  cases after with
  | nil => simp
  | cons c rest => simp [stops c rfl]

theorem dropWhile_append_stop {p : Char → Bool} {text after : List Char}
    (all : ∀ c ∈ text, p c = true) (stops : ∀ c ∈ after.head?, p c = false) :
    (text ++ after).dropWhile p = after := by
  rw [List.dropWhile_append_of_pos all]
  cases after with
  | nil => rfl
  | cons c rest => simp [stops c rfl]

open Cursor

theorem isBlank_bounds {c : Char} (blank : isBlank c = true) : c.toNat ≤ 0x20 ∨ 0x85 ≤ c.toNat := by
  simp only [isBlank, Bool.or_eq_true, Bool.and_eq_true, decide_eq_true_eq, beq_iff_eq] at blank
  omega

theorem isAlpha_iff_toNat {c : Char} : c.isAlpha = true ↔
    (0x41 ≤ c.toNat ∧ c.toNat ≤ 0x5A) ∨ (0x61 ≤ c.toNat ∧ c.toNat ≤ 0x7A) := by
  change (decide (c.val ≥ 'A'.val ∧ c.val ≤ 'Z'.val)
    || (decide (c.val ≥ 'a'.val) && decide (c.val ≤ 'z'.val))) = true ↔ _
  simp [UInt32.le_iff_toNat_le]

theorem isNameChar_bounds {c : Char} (name : isNameChar c = true) :
    0x2D ≤ c.toNat ∧ c.toNat ≤ 0x7A := by
  simp only [isNameChar, Char.isAlphanum, Bool.or_eq_true, isAlpha_iff_toNat,
    Char.isDigit_iff_toNat, beq_iff_eq, Char.reduceToNat] at name
  rcases name with (alphanumeric | rfl) | rfl
  · omega
  · decide
  · decide

theorem isNameStart_bounds {c : Char} (start : isNameStart c = true) : 0x41 ≤ c.toNat := by
  simp only [isNameStart, Bool.or_eq_true, isAlpha_iff_toNat, beq_iff_eq] at start
  rcases start with letter | rfl
  · omega
  · decide

theorem isNameStart_unlike {c : Char} (start : isNameStart c = true) (rest : List Char) :
    c ≠ '(' ∧ ¬ (c = '"' ∨ c = '\'') ∧ (c.isDigit || startsNegative (c :: rest)) = false := by
  have bound := isNameStart_bounds start
  refine ⟨?_, ?_, ?_⟩
  · rintro rfl
    exact absurd bound (by decide)
  · rintro (rfl | rfl)
    · exact absurd bound (by decide)
    · exact absurd bound (by decide)
  · have textual : c.isDigit = false := by
      by_contra digit
      have low := (Char.isDigit_iff_toNat.mp (eq_true_of_ne_false digit)).2
      simp only [Char.reduceToNat] at low
      omega
    rw [textual, Bool.false_or]
    unfold startsNegative
    split
    · rename_i dash
      rw [(List.cons.inj dash).1] at bound
      exact absurd bound (by decide)
    · rfl

theorem isNameChar_of_isDigit {c : Char} (digit : c.isDigit = true) : isNameChar c = true := by
  simp [isNameChar, Char.isAlphanum, digit]

theorem isNameChar_of_isBlank {c : Char} (blank : isBlank c = true) : isNameChar c = false := by
  by_contra name
  have low := isBlank_bounds blank
  have high := isNameChar_bounds (eq_true_of_ne_false name)
  omega

theorem isNameChar_of_isNameStart {c : Char} (start : isNameStart c = true) :
    isNameChar c = true := by
  simp only [isNameStart, isNameChar, Char.isAlphanum, Bool.or_eq_true] at start ⊢
  tauto

theorem isBlank_of_isNameChar {c : Char} (name : isNameChar c = true) : isBlank c = false := by
  by_contra blank
  rw [isNameChar_of_isBlank (eq_true_of_ne_false blank)] at name
  cases name

def Ends : List Char → Prop
  | [] => True
  | c :: rest => isNameChar c = false ∧ c ≠ '[' ∧ (c = '.' → rest.head? = some '.')

theorem Ends.of_head? {cs : List Char}
    (apart : ∀ c ∈ cs.head?, isNameChar c = false ∧ c ≠ '.' ∧ c ≠ '[') : Ends cs := by
  cases cs with
  | nil => trivial
  | cons c rest =>
    obtain ⟨name, dot, bracket⟩ := apart c rfl
    exact ⟨name, bracket, fun eq => absurd eq dot⟩

theorem Ends.stops {cs : List Char} (ends : Ends cs) : ∀ c ∈ cs.head?, isNameChar c = false := by
  cases cs with
  | nil => simp
  | cons c rest => simpa using ends.1

theorem Ends.blanks {lead cs : List Char} (blank : Blanks lead) (ends : Ends cs) :
    Ends (lead ++ cs) := by
  cases lead with
  | nil => exact ends
  | cons c rest =>
    have first : isBlank c = true := blank c List.mem_cons_self
    refine ⟨isNameChar_of_isBlank first, ?_, ?_⟩
    · rintro rfl
      exact absurd first (by decide)
    · rintro rfl
      exact absurd first (by decide)

theorem IsName.ne_nil {cs : List Char} (name : IsName cs) : cs ≠ [] := by
  obtain ⟨⟨c, first, -⟩, -⟩ := name
  rintro rfl
  cases first

theorem Blanks.stops {lead cs : List Char} (blank : Blanks lead)
    (stops : ∀ c ∈ cs.head?, isNameChar c = false) :
    ∀ c ∈ (lead ++ cs).head?, isNameChar c = false := by
  cases lead with
  | nil => exact stops
  | cons d rest =>
    rintro _ ⟨⟩
    exact isNameChar_of_isBlank (blank d List.mem_cons_self)

theorem ne_of_isBlank {c d : Char} (blank : isBlank d = true) (other : isBlank c = false) :
    d ≠ c := by
  rintro rfl
  rw [blank] at other
  cases other

theorem Gap.ends {gap : List Char} (some : Gap gap) (after : List Char) : Ends (gap ++ after) := by
  obtain ⟨d, rest, rfl⟩ := List.exists_cons_of_ne_nil some.1
  have blank : isBlank d = true := some.2 d List.mem_cons_self
  refine .of_head? ?_
  rintro _ ⟨⟩
  exact ⟨isNameChar_of_isBlank blank, ne_of_isBlank blank rfl, ne_of_isBlank blank rfl⟩

theorem not_isDigit_of_stops {cs : List Char} (stops : ∀ c ∈ cs.head?, isNameChar c = false) :
    ∀ c ∈ cs.head?, c.isDigit = false := by
  intro c first
  by_contra digit
  have name := isNameChar_of_isDigit (eq_true_of_ne_false digit)
  rw [stops c first] at name
  cases name

theorem Digits.head?_append {digits : List Char} (numeral : Digits digits) (rest : List Char) :
    ∃ d, (digits ++ rest).head? = some d ∧ d.isDigit = true := by
  obtain ⟨some, all⟩ := numeral
  cases digits with
  | nil => exact absurd rfl some
  | cons d more => exact ⟨d, rfl, all d List.mem_cons_self⟩

theorem Digits.ne_cons {digits : List Char} (numeral : Digits digits) (rest : List Char)
    {sign : Char} (other : sign.isDigit = false) (cs : List Char) :
    digits ++ rest ≠ sign :: cs := by
  intro eq
  obtain ⟨d, first, digit⟩ := numeral.head?_append rest
  rw [eq] at first
  cases first
  rw [other] at digit
  cases digit

theorem take_minusSign (negative : Bool) {digits : List Char} (numeral : Digits digits)
    (rest : List Char) : (minusSign negative ++ (digits ++ rest)).take
      (if (minusSign negative ++ (digits ++ rest)).head? == some '-' then 1 else 0)
        = minusSign negative := by
  cases negative with
  | true => rfl
  | false =>
    obtain ⟨d, first, digit⟩ := numeral.head?_append rest
    have other : d ≠ '-' := by
      rintro rfl
      cases digit
    simp [minusSign, first, other]

theorem numberText_whole {negative : Bool} {digits behind : List Char} (numeral : Digits digits)
    (stops : ∀ c ∈ behind.head?, c.isDigit = false)
    (none : ∀ d rest, behind = '.' :: d :: rest → d.isDigit = false) :
    numberText (minusSign negative ++ (digits ++ behind))
      = (minusSign negative ++ digits, false) := by
  simp only [numberText, take_minusSign negative numeral, List.drop_left,
    takeWhile_append_stop numeral.2 stops, dropWhile_append_stop numeral.2 stops]
  split
  · rename_i d rest
    rw [none d rest rfl]
    rfl
  · rfl

theorem numberText_point {negative : Bool} {digits rest : List Char} {d : Char}
    (numeral : Digits digits) (digit : d.isDigit = true) :
    numberText (minusSign negative ++ (digits ++ '.' :: d :: rest))
      = (minusSign negative ++ digits ++ '.' :: (d :: rest).takeWhile Char.isDigit, true) := by
  have point : ∀ c ∈ ('.' :: d :: rest).head?, c.isDigit = false := by simp
  simp only [numberText, take_minusSign negative numeral, List.drop_left,
    takeWhile_append_stop numeral.2 point, dropWhile_append_stop numeral.2 point, digit, if_true]

theorem numberText_integer {negative : Bool} {digits after : List Char} (numeral : Digits digits)
    (ends : Ends after) : numberText (minusSign negative ++ digits ++ after)
      = (minusSign negative ++ digits, false) := by
  rw [List.append_assoc]
  refine numberText_whole numeral (not_isDigit_of_stops ends.stops) ?_
  rintro d rest rfl
  obtain rfl : d = '.' := Option.some.inj (ends.2.2 rfl)
  rfl

theorem numberText_decimal {negative : Bool} {whole fraction after : List Char}
    (before : Digits whole) (behind : Digits fraction) (ends : Ends after) :
    numberText (minusSign negative ++ whole ++ '.' :: fraction ++ after)
      = (minusSign negative ++ whole ++ '.' :: fraction, true) := by
  obtain ⟨d, first, digit⟩ := behind.head?_append after
  obtain ⟨more, eq⟩ := List.head?_eq_some_iff.mp first
  rw [List.append_assoc, List.append_assoc, List.cons_append, eq, numberText_point before digit,
    ← eq, takeWhile_append_stop behind.2 (not_isDigit_of_stops ends.stops)]

theorem natural?_digits {digits : List Char} (numeral : Digits digits) :
    natural? digits = some (valueOfDigits digits) := by
  have all : digits.all Char.isDigit = true := List.all_eq_true.mpr numeral.2
  simp [natural?, numeral.1, all]

theorem integer?_digits (negative : Bool) {digits : List Char} (numeral : Digits digits) :
    integer? (minusSign negative ++ digits) = Templating.word? (signedValue negative digits) := by
  cases negative with
  | true => simp [minusSign, integer?, natural?_digits numeral, signedValue]
  | false =>
    have unsigned {sign : Char} (other : sign.isDigit = false) (cs : List Char) :
        digits = sign :: cs → False := by
      rw [← List.append_nil digits]
      exact numeral.ne_cons [] other cs
    simp only [minusSign, Bool.false_eq_true, if_false, List.nil_append, signedValue]
    rw [integer?.eq_3 _ (unsigned rfl) (unsigned rfl), natural?_digits numeral, Option.bind_some]

theorem integer?_signed {n : Int64} {negative : Bool} {digits : List Char}
    (numeral : Digits digits) (value : n.toInt = signedValue negative digits) :
    integer? (minusSign negative ++ digits) = some n := by
  rw [integer?_digits negative numeral, ← value, Templating.word?, if_pos ⟨n.le_toInt, n.toInt_lt⟩,
    Int64.ofInt_toInt]

theorem signedValue_of_integer? {n : Int64} {negative : Bool} {digits : List Char}
    (numeral : Digits digits) (read : integer? (minusSign negative ++ digits) = some n) :
    n.toInt = signedValue negative digits := by
  rw [integer?_digits negative numeral, Templating.word?] at read
  split at read
  · rename_i fits
    obtain rfl := Option.some.inj read
    have bound : (wordBound : Int) = 2 ^ 63 := rfl
    exact Int64.toInt_ofInt_of_le (by omega) (by omega)
  · cases read

theorem special?_of_point {cs : List Char} (point : '.' ∈ cs) : special? cs = none := by
  have kept : '.' ∈ cs.map Char.toLower := List.mem_map.mpr ⟨'.', point, rfl⟩
  have other (word : String) (without : '.' ∉ word.toList) :
      String.ofList (cs.map Char.toLower) ≠ word := by
    rintro rfl
    rw [String.toList_ofList] at without
    exact without kept
  rw [special?, if_neg, if_neg]
  · exact other "nan" (by decide)
  · exact not_or.mpr ⟨other "inf" (by decide), other "infinity" (by decide)⟩

theorem unsigned?_decimal {whole fraction : List Char} (before : Digits whole)
    (behind : Digits fraction) : unsigned? (whole ++ '.' :: fraction) =
      some (roundDecimal (valueOfDigits (whole ++ fraction)) (-(fraction.length : Int))) := by
  have point : ∀ c ∈ ('.' :: fraction).head?, c.isDigit = false := by simp
  have all : fraction.takeWhile Char.isDigit = fraction ∧ fraction.dropWhile Char.isDigit = [] :=
    ⟨List.takeWhile_eq_self_iff.mpr behind.2, List.dropWhile_eq_nil_iff.mpr behind.2⟩
  rw [unsigned?, special?_of_point (by simp)]
  simp only [magnitude?, takeWhile_append_stop before.2 point, dropWhile_append_stop before.2 point,
    all.1, all.2]
  rw [if_neg (by simp [before.1]), Int.zero_sub]

theorem real?_signed {negative : Bool} {whole fraction : List Char} (before : Digits whole)
    (behind : Digits fraction) :
    real? (minusSign negative ++ whole ++ '.' :: fraction)
      = some (decimalValue negative whole fraction) := by
  have value := unsigned?_decimal before behind
  cases negative with
  | true => simp [minusSign, real?, value, decimalValue]
  | false =>
    simp only [minusSign, Bool.false_eq_true, if_false, List.nil_append]
    rw [real?.eq_3 _ (before.ne_cons _ rfl) (before.ne_cons _ rfl), value]
    simp only [decimalValue, Bool.false_eq_true, if_false]

end Templating
