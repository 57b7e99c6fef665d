import Mathlib.Data.List.Basic
import Templating.Source.Cursor

/-!
Texts as bytes. A text is cut only between its characters, so a slice between two offsets is
there if each of them is the length of some characters from the start.
-/
namespace Templating

def cutAt? : Nat → List Char → Option (List Char × List Char)
  | 0, cs => some ([], cs)
  | _ + 1, [] => none
  | n + 1, c :: cs =>
    if c.utf8Size ≤ n + 1 then
      (cutAt? (n + 1 - c.utf8Size) cs).map fun (before, after) => (c :: before, after)
    else none
termination_by structural _ cs => cs

def upTo? (n : Nat) (cs : List Char) : Option (List Char) := (cutAt? n cs).map (·.1)

def from? (n : Nat) (cs : List Char) : Option (List Char) := (cutAt? n cs).map (·.2)

def slice? (start stop : Nat) (cs : List Char) : Option (List Char) :=
  if start ≤ stop then (from? start cs).bind (upTo? (stop - start)) else none

theorem cutAt?_eq_some_iff {n : Nat} {cs before after : List Char} :
    cutAt? n cs = some (before, after) ↔ cs = before ++ after ∧ byteLength before = n := by
  induction cs generalizing n before with
  | nil => cases n <;> cases before <;> simp [cutAt?, byteLength, eq_comm]
  | cons c cs ih =>
    have wide := c.utf8Size_pos
    cases n with
    | zero =>
      constructor
      · rintro ⟨⟩
        exact ⟨rfl, rfl⟩
      · rintro ⟨same, none⟩
        cases before with
        | nil => rw [same, cutAt?, List.nil_append]
        | cons d before =>
          cases same
          simp only [byteLength] at none
          omega
    | succ n =>
      cases before with
      | nil =>
        constructor
        · simp only [cutAt?, Option.ite_none_right_eq_some, Option.map_eq_some_iff]
          rintro ⟨_, _, _, ⟨⟩⟩
        · rintro ⟨_, ⟨⟩⟩
      | cons d before =>
        simp only [cutAt?, Option.ite_none_right_eq_some, Option.map_eq_some_iff, Prod.exists,
          Prod.mk.injEq, List.cons.injEq, List.cons_append, byteLength]
        constructor
        · rintro ⟨fits, b, a, cut, ⟨rfl, rfl⟩, rfl⟩
          obtain ⟨same, length⟩ := ih.mp cut
          exact ⟨⟨rfl, same⟩, by omega⟩
        · rintro ⟨⟨rfl, same⟩, length⟩
          exact ⟨by omega, before, after, ih.mpr ⟨same, by omega⟩, ⟨rfl, rfl⟩, rfl⟩

theorem upTo?_append (before after : List Char) :
    upTo? (byteLength before) (before ++ after) = some before := by
  rw [upTo?, cutAt?_eq_some_iff.mpr ⟨rfl, rfl⟩]
  rfl

theorem from?_append (before after : List Char) :
    from? (byteLength before) (before ++ after) = some after := by
  rw [from?, cutAt?_eq_some_iff.mpr ⟨rfl, rfl⟩]
  rfl

theorem slice?_append (before part after : List Char) :
    slice? (byteLength before) (byteLength (before ++ part)) (before ++ (part ++ after))
      = some part := by
  have length := byteLength_append before part
  rw [slice?, if_pos (by omega), from?_append, Option.bind_some,
    show byteLength (before ++ part) - byteLength before = byteLength part by omega, upTo?_append]

example : slice? 1 3 "aé".toList = some ['é'] ∧ slice? 1 2 "aé".toList = none := by decide

def find? (p : Char → Bool) : List Char → Option Nat
  | [] => none
  | c :: cs => if p c then some 0 else (find? p cs).map (c.utf8Size + ·)

theorem find?_cases (p : Char → Bool) (cs : List Char) :
    let passed := cs.takeWhile fun c => !p c
    (find? p cs = none ∧ passed = cs) ∨
      (find? p cs = some (byteLength passed) ∧
        ∃ c after, p c = true ∧ cs = passed ++ c :: after) := by
  induction cs with
  | nil => exact .inl ⟨rfl, rfl⟩
  | cons c cs ih =>
    simp only [find?, List.takeWhile_cons]
    cases here : p c with
    | true => exact .inr ⟨rfl, c, cs, here, rfl⟩
    | false =>
      rcases ih with ⟨none, all⟩ | ⟨found, d, after, there, cut⟩
      · exact .inl ⟨by simp [none], by simpa using all⟩
      · refine .inr ⟨by simp [found, byteLength], d, after, there, ?_⟩
        simpa using cut

theorem find?_getD (p : Char → Bool) (cs : List Char) :
    (find? p cs).getD (byteLength cs) = byteLength (cs.takeWhile fun c => !p c) := by
  rcases find?_cases p cs with ⟨none, all⟩ | ⟨found, -⟩
  · rw [none, all, Option.getD_none]
  · rw [found, Option.getD_some]

def utf8 (cs : List Char) : List UInt8 := cs.flatMap String.utf8EncodeChar

def isDigitByte (b : UInt8) : Bool := 0x30 ≤ b && b ≤ 0x39

def digitsEnd (bytes : List UInt8) (n : Nat) : Nat :=
  n + ((bytes.drop n).takeWhile isDigitByte).length

def fractionEnd (bytes : List UInt8) (n : Nat) : Nat × Bool :=
  if bytes[n]? = some 0x2E ∧ bytes[n + 1]?.any isDigitByte = true then
    (digitsEnd bytes (n + 1), true)
  else (n, false)

def numberEnd (bytes : List UInt8) (n : Nat) : Nat × Bool :=
  fractionEnd bytes (digitsEnd bytes (if bytes[n]? = some 0x2D then n + 1 else n))

theorem length_utf8 (cs : List Char) : (utf8 cs).length = byteLength cs := by
  induction cs with
  | nil => rfl
  | cons c cs ih =>
    rw [utf8, List.flatMap_cons, List.length_append, String.length_utf8EncodeChar, byteLength, ← ih]
    rfl

theorem utf8_append (a b : List Char) : utf8 (a ++ b) = utf8 a ++ utf8 b := List.flatMap_append

theorem drop_utf8 (before after : List Char) :
    (utf8 (before ++ after)).drop (byteLength before) = utf8 after := by
  rw [utf8_append, ← length_utf8, List.drop_left]

theorem getElem?_utf8 (before after : List Char) :
    (utf8 (before ++ after))[byteLength before]? = (utf8 after).head? := by
  rw [← drop_utf8 before after, List.head?_drop]

theorem utf8EncodeChar_cases (c : Char) :
    (c.toNat < 128 ∧ String.utf8EncodeChar c = [UInt8.ofNat c.toNat]) ∨
      (128 ≤ c.toNat ∧ ∃ b more, String.utf8EncodeChar c = b :: more ∧ 128 ≤ b.toNat) := by
  unfold String.utf8EncodeChar
  have same : c.val.toNat = c.toNat := rfl
  simp only [same]
  split
  · exact .inl ⟨by omega, rfl⟩
  · refine .inr ⟨by omega, ?_⟩
    split
    · exact ⟨_, _, rfl, by simp; omega⟩
    · split
      · exact ⟨_, _, rfl, by simp; omega⟩
      · exact ⟨_, _, rfl, by simp; omega⟩

theorem isDigitByte_eq (b : UInt8) : isDigitByte b = decide (48 ≤ b.toNat ∧ b.toNat ≤ 57) := by
  simp [isDigitByte, UInt8.le_iff_toNat_le]

theorem isDigit_eq (c : Char) : c.isDigit = decide (48 ≤ c.toNat ∧ c.toNat ≤ 57) := by
  rw [Bool.eq_iff_iff, Char.isDigit_iff_toNat, decide_eq_true_iff]
  exact Iff.rfl

theorem head?_utf8 {cs : List Char} {sign : Char} (narrow : sign.toNat < 128) :
    (utf8 cs).head? = some (UInt8.ofNat sign.toNat) ↔ cs.head? = some sign := by
  cases cs with
  | nil => simp [utf8]
  | cons c cs =>
    rcases utf8EncodeChar_cases c with ⟨low, one⟩ | ⟨high, b, more, several, wide⟩
    · simp only [utf8, List.flatMap_cons, one, List.cons_append, List.head?_cons, Option.some.injEq]
      constructor
      · intro same
        have codes := congrArg UInt8.toNat same
        simp only [UInt8.toNat_ofNat'] at codes
        exact Char.toNat_inj.mp (by omega)
      · rintro rfl
        rfl
    · simp only [utf8, List.flatMap_cons, several, List.cons_append, List.head?_cons,
        Option.some.injEq]
      constructor
      · rintro rfl
        simp only [UInt8.toNat_ofNat'] at wide
        omega
      · rintro rfl
        omega

theorem utf8EncodeChar_digit (c : Char) : ∃ b more, String.utf8EncodeChar c = b :: more ∧
    isDigitByte b = c.isDigit ∧ (c.isDigit = true → more = []) := by
  rcases utf8EncodeChar_cases c with ⟨low, one⟩ | ⟨high, b, more, several, wide⟩
  · refine ⟨_, [], one, ?_, fun _ => rfl⟩
    have small : c.toNat % 256 = c.toNat := by omega
    rw [isDigitByte_eq, isDigit_eq, UInt8.toNat_ofNat', small]
  · have other : c.isDigit = false := by
      rw [isDigit_eq, decide_eq_false_iff_not]
      omega
    refine ⟨b, more, several, ?_, fun digit => absurd digit (ne_true_of_eq_false other)⟩
    rw [other, isDigitByte_eq, decide_eq_false_iff_not]
    omega

theorem digits_utf8 (cs : List Char) :
    ((utf8 cs).takeWhile isDigitByte).length = byteLength (cs.takeWhile Char.isDigit) := by
  induction cs with
  | nil => rfl
  | cons c cs ih =>
    obtain ⟨b, more, encoded, alike, alone⟩ := utf8EncodeChar_digit c
    rw [utf8, List.flatMap_cons, encoded, List.cons_append, List.takeWhile_cons, alike,
      List.takeWhile_cons]
    cases digit : c.isDigit with
    | false => rfl
    | true =>
      have narrow : c.utf8Size = 1 := by
        rw [← String.length_utf8EncodeChar, encoded, alone digit, List.length_singleton]
      rw [alone digit, List.nil_append, if_pos rfl, if_pos rfl, List.length_cons, byteLength,
        narrow, ← ih, Nat.add_comm]
      rfl

theorem startsDigit_utf8 (cs : List Char) :
    (utf8 cs).head?.any isDigitByte = cs.head?.any Char.isDigit := by
  cases cs with
  | nil => rfl
  | cons c cs =>
    obtain ⟨b, more, encoded, alike, -⟩ := utf8EncodeChar_digit c
    rw [utf8, List.flatMap_cons, encoded]
    exact alike

theorem digitsEnd_utf8 (before cs : List Char) : digitsEnd (utf8 (before ++ cs)) (byteLength before)
    = byteLength (before ++ cs.takeWhile Char.isDigit) := by
  rw [digitsEnd, drop_utf8, digits_utf8, byteLength_append]

theorem getElem?_sign (before cs : List Char) {sign : Char} (narrow : sign.toNat < 128) :
    (utf8 (before ++ cs))[byteLength before]? = some (UInt8.ofNat sign.toNat)
      ↔ cs.head? = some sign := by
  rw [getElem?_utf8, head?_utf8 narrow]

theorem fractionEnd_utf8 (whole tail : List Char) :
    fractionEnd (utf8 (whole ++ tail)) (byteLength whole) = match tail with
      | '.' :: d :: more =>
        if d.isDigit then (byteLength (whole ++ '.' :: (d :: more).takeWhile Char.isDigit), true)
        else (byteLength whole, false)
      | _ => (byteLength whole, false) := by
  have dot : (utf8 (whole ++ tail))[byteLength whole]? = some 0x2E ↔ tail.head? = some '.' :=
    @getElem?_sign whole tail '.' (by decide)
  have point : byteLength whole + 1 = byteLength (whole ++ ['.']) := by
    rw [byteLength_append]
    rfl
  split
  · rename_i d more
    have behind : whole ++ '.' :: d :: more = (whole ++ ['.']) ++ (d :: more) := by simp
    have digit : (utf8 (whole ++ '.' :: d :: more))[byteLength whole + 1]?.any isDigitByte
        = d.isDigit := by
      rw [behind, point, getElem?_utf8, startsDigit_utf8]
      rfl
    have ends : digitsEnd (utf8 (whole ++ '.' :: d :: more)) (byteLength whole + 1)
        = byteLength (whole ++ '.' :: (d :: more).takeWhile Char.isDigit) := by
      rw [behind, point, digitsEnd_utf8, List.append_assoc, List.singleton_append]
    simp only [fractionEnd, dot.mpr rfl, digit, ends, true_and]
  · rename_i other
    refine if_neg ?_
    rintro ⟨here, digit⟩
    obtain ⟨more, rfl⟩ := List.head?_eq_some_iff.mp (dot.mp here)
    rw [show whole ++ '.' :: more = (whole ++ ['.']) ++ more by simp, point, getElem?_utf8,
      startsDigit_utf8] at digit
    cases more with
    | nil => cases digit
    | cons d more => exact other d more rfl

def textBehind (minus rest : List Char) : List Char × Bool :=
  let whole := minus ++ rest.takeWhile Char.isDigit
  match rest.dropWhile Char.isDigit with
  | '.' :: d :: more =>
    if d.isDigit then (whole ++ '.' :: (d :: more).takeWhile Char.isDigit, true) else (whole, false)
  | _ => (whole, false)

theorem numberText_parts (cs : List Char) : ∃ minus rest, cs = minus ++ rest ∧
    (minus = ['-'] ∨ minus = [] ∧ cs.head? ≠ some '-') ∧
    Cursor.numberText cs = textBehind minus rest := by
  by_cases negative : cs.head? = some '-'
  · obtain ⟨rest, rfl⟩ := List.head?_eq_some_iff.mp negative
    exact ⟨['-'], rest, rfl, .inl rfl, rfl⟩
  · refine ⟨[], cs, rfl, .inr ⟨rfl, negative⟩, ?_⟩
    have none : (cs.head? == some '-') = false := beq_eq_false_iff_ne.mpr negative
    simp only [Cursor.numberText, none, Bool.false_eq_true, if_false, List.take_zero,
      List.length_nil, List.drop_zero]
    rfl

theorem numberText_prefix (cs : List Char) : (Cursor.numberText cs).1 <+: cs := by
  obtain ⟨minus, rest, rfl, -, scan⟩ := numberText_parts cs
  have digits : rest = rest.takeWhile Char.isDigit ++ rest.dropWhile Char.isDigit :=
    List.takeWhile_append_dropWhile.symm
  rw [scan, textBehind]
  split
  · rename_i d more behind
    rw [behind] at digits
    split
    · refine ⟨(d :: more).dropWhile Char.isDigit, ?_⟩
      conv => rhs; rw [digits]
      simp only [List.append_assoc, List.cons_append, List.takeWhile_append_dropWhile]
    · refine ⟨'.' :: d :: more, ?_⟩
      conv => rhs; rw [digits]
      rw [List.append_assoc]
  · refine ⟨rest.dropWhile Char.isDigit, ?_⟩
    rw [List.append_assoc, ← digits]

/-- A scan of bytes for a number ends between characters, behind the text of the number. -/
theorem numberEnd_utf8 (before cs : List Char) : numberEnd (utf8 (before ++ cs)) (byteLength before)
    = (byteLength (before ++ (Cursor.numberText cs).1), (Cursor.numberText cs).2) := by
  have sign : (utf8 (before ++ cs))[byteLength before]? = some 0x2D ↔ cs.head? = some '-' :=
    @getElem?_sign before cs '-' (by decide)
  obtain ⟨minus, rest, rfl, signed, scan⟩ := numberText_parts cs
  have start : (if (utf8 (before ++ (minus ++ rest)))[byteLength before]? = some 0x2D
      then byteLength before + 1 else byteLength before) = byteLength (before ++ minus) := by
    rcases signed with rfl | ⟨rfl, none⟩
    · rw [if_pos (sign.mpr rfl), byteLength_append]
      rfl
    · rw [if_neg (mt sign.mp none), List.append_nil]
  rw [numberEnd, start, scan, ← List.append_assoc, digitsEnd_utf8]
  have cut : before ++ minus ++ rest = (before ++ minus ++ rest.takeWhile Char.isDigit)
      ++ rest.dropWhile Char.isDigit := by
    rw [List.append_assoc _ (rest.takeWhile _), List.takeWhile_append_dropWhile]
  rw [cut, fractionEnd_utf8, textBehind]
  split
  · split <;> simp only [List.append_assoc]
  · simp only [List.append_assoc]

end Templating
