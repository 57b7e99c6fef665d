import Templating.Proofs.Source.Lexemes
import Templating.Proofs.Source.Readers

/-!
A written expression is read back. A reader `Reads` a text before some other text when it moves
over exactly this text and gives one result, from wherever a cursor stands before it; that
carries over to sequences of readers.
-/
namespace Templating

theorem Digits.opens {digits : List Char} (numeral : Digits digits) (negative : Bool)
    (rest : List Char) : ∃ c cs, minusSign negative ++ digits ++ rest = c :: cs ∧
      isNameChar c = true ∧ (c.isDigit || Cursor.startsNegative (c :: cs)) = true := by
  obtain ⟨d, first, digit⟩ := numeral.head?_append rest
  obtain ⟨more, eq⟩ := List.head?_eq_some_iff.mp first
  rw [List.append_assoc, eq]
  cases negative with
  | true => exact ⟨'-', d :: more, rfl, rfl, by simp [Cursor.startsNegative, digit]⟩
  | false => exact ⟨d, more, rfl, isNameChar_of_isDigit digit, by simp [digit]⟩

theorem Written.bare {e : Expr} {text : List Char} (written : Written e text)
    (after : List Char) : ∀ c ∈ (text ++ after).head?, isBlank c = false := by
  cases written with
  | nil either => rcases either with rfl | rfl <;> exact fun c first => by cases first; rfl
  | yes => exact fun c first => by cases first; rfl
  | no => exact fun c first => by cases first; rfl
  | @int n negative digits numeral value =>
    obtain ⟨c, cs, eq, name, _⟩ := numeral.opens negative after
    rw [eq]
    simpa using isBlank_of_isNameChar name
  | @float negative whole fraction before behind =>
    obtain ⟨c, cs, eq, name, _⟩ := before.opens negative ('.' :: fraction ++ after)
    rw [List.append_assoc, eq]
    simpa using isBlank_of_isNameChar name
  | str either apart => rcases either with rfl | rfl <;> exact fun c first => by cases first; rfl
  | @path root steps rest name alone onward =>
    obtain ⟨c, first, start⟩ := name.1
    obtain ⟨more, eq⟩ := List.head?_eq_some_iff.mp first
    rw [eq]
    simpa using isBlank_of_isNameChar (isNameChar_of_isNameStart start)
  | range lower upper opened ahead past closing => exact fun c first => by cases first; rfl

theorem WrittenSteps.stops {steps : List Segment} {text after : List Char}
    (written : WrittenSteps steps text) (ends : Ends after) :
    ∀ c ∈ (text ++ after).head?, isNameChar c = false := by
  cases written with
  | nil => exact ends.stops
  | name property onward => exact fun c first => by cases first; rfl
  | index inner opened closing onward => exact fun c first => by cases first; rfl

namespace Cursor
variable {α β : Type}

theorem advance_length {c : Cursor} {text after : List Char} (rest : c.rest = text ++ after) :
    c.advance text.length = ⟨after, c.position + byteLength text, c.base⟩ := by
  rw [advance, rest, List.drop_left, List.take_left]

theorem rest_advance {c : Cursor} {text after : List Char} (rest : c.rest = text ++ after) :
    (c.advance text.length).rest = after := by rw [advance_length rest]

/-- From wherever `text` comes next, with `after` behind it, the reader gives `a` and has moved over
    `text` and no further. -/
def Reads (r : Reader α) (text after : List Char) (a : α) : Prop :=
  ∀ c : Cursor, c.rest = text ++ after → r c = .ok a (c.advance text.length)

theorem reads_pure (a : α) (after : List Char) : Reads (pure a) [] after a := by
  intro c _
  rw [List.length_nil, advance_zero]
  rfl

theorem Reads.bind {r : Reader α} {f : α → Reader β} {s t after : List Char} {a : α} {b : β}
    (first : Reads r s (t ++ after) a) (second : Reads (f a) t after b) :
    Reads (r >>= f) (s ++ t) after b := by
  intro c rest
  rw [List.append_assoc] at rest
  rw [bind_of_ok (first c rest), second _ (rest_advance rest), advance_advance, List.length_append]

theorem Reads.last {r : Reader α} {f : α → Reader β} {text after : List Char} {a : α} {b : β}
    (first : Reads r text after a) (second : Reads (f a) [] after b) :
    Reads (r >>= f) text after b := by
  rw [← List.append_nil text]
  exact first.bind second

theorem Reads.return {r : Reader α} {text after : List Char} {a : α} (reads : Reads r text after a)
    (f : α → β) : Reads (r >>= fun a => pure (f a)) text after (f a) :=
  reads.last (reads_pure (f a) after)

theorem Reads.map {r : Reader α} {text after : List Char} {a : α} (reads : Reads r text after a)
    (f : α → β) : Reads (f <$> r) text after (f a) := by
  rw [map_eq_pure_bind]
  exact reads.return f

theorem reads_skip (text after : List Char) : Reads (skip text.length) text after () :=
  fun _ _ => rfl

theorem reads_get {f : Cursor → Reader α} {text after : List Char} {a : α}
    (reads : ∀ c : Cursor, c.rest = text ++ after → Reads (f c) text after a) :
    Reads (get >>= f) text after a := fun c rest => reads c rest c rest

theorem skipBlank_eq {c : Cursor} {lead after : List Char} (blank : Blanks lead)
    (bare : ∀ d ∈ after.head?, isBlank d = false) (rest : c.rest = lead ++ after) :
    c.skipBlank = c.advance lead.length := by
  rw [skipBlank, rest, takeWhile_append_stop blank bare]

theorem reads_blanks {lead after : List Char} (blank : Blanks lead)
    (bare : ∀ d ∈ after.head?, isBlank d = false) : Reads blanks lead after () := by
  intro c rest
  rw [← skipBlank_eq blank bare rest]
  rfl

theorem reads_take {lead cs : List Char} {c : Char} (blank : Blanks lead) (bare : isBlank c = false)
    (after : List Char) : Reads (lift (take (c :: cs))) (lead ++ c :: cs) after true := by
  intro o rest
  rw [List.append_assoc] at rest
  have skipped : o.skipBlank = o.advance lead.length :=
    skipBlank_eq blank (by simpa using bare) rest
  have found : (afterLead? (c :: cs) o.skipBlank.rest).isSome = true := by
    rw [skipped, rest_advance rest, afterLead?_eq_some_iff.mpr rfl]
    rfl
  simp only [lift, take, if_pos found]
  rw [skipped, advance_advance, List.length_append]

theorem reads_number {text after : List Char} {isReal : Bool} {l : Literal}
    (scan : numberText (text ++ after) = (text, isReal))
    (value : (if isReal then (real? text).map Literal.float else (integer? text).map Literal.int)
      = some l) (start : Nat) : Reads (readNumber start) text after (.literal l) := by
  refine reads_get fun c rest => ?_
  rw [rest, scan]
  simp only [value]
  exact (reads_skip text after).return fun _ => Expr.literal l

theorem reads_string {body : List Char} {quote : Char} (apart : quote ∉ body) (start : Nat)
    (after : List Char) : Reads (readString quote start) (quote :: body ++ [quote]) after
      (.literal (.str (String.ofList body))) := by
  refine reads_get fun c rest => ?_
  have stops : ∀ d ∈ (quote :: after).head?, decide (d ≠ quote) = false := by simp
  have inside : ∀ d ∈ body, decide (d ≠ quote) = true :=
    fun d member => decide_eq_true (ne_of_mem_of_not_mem member apart)
  have found : (c.rest.drop 1).takeWhile (· ≠ quote) = body := by
    rw [rest, List.cons_append, List.cons_append, List.drop_one, List.tail_cons, List.append_assoc]
    exact takeWhile_append_stop inside stops
  have closed : 1 + body.length < c.rest.length := by
    rw [rest]
    simp only [List.length_append, List.length_cons]
    omega
  have length : (quote :: body ++ [quote]).length = body.length + 2 := by simp
  rw [found, if_pos closed, ← length]
  exact (reads_skip _ after).return fun _ => Expr.literal (.str (String.ofList body))

theorem pathExpr_eq {root : String} {steps : List Segment}
    (alone : steps = [] → root ∉ keywords) : pathExpr root steps = .path root steps := by
  cases steps with
  | cons s steps => rfl
  | nil =>
    have plain : word? root = none := by
      have other := alone rfl
      simp only [keywords, List.mem_cons, not_or] at other
      simp only [word?]
      split <;> tauto
    simp only [pathExpr, plain]

theorem pathExpr_keyword {word : String} {l : Literal} (literal : Cursor.word? word = some l) :
    pathExpr word [] = .literal l := by
  simp only [pathExpr, literal]

theorem reads_stop {fuel start : Nat} {after : List Char} (ends : Ends after) :
    Reads (readSegments fuel start) [] after [] := by
  cases fuel with
  | zero => exact reads_pure [] after
  | succ fuel =>
    rw [readSegments]
    refine reads_get fun c rest => ?_
    rw [rest, List.nil_append]
    split
    -- a dot here is the first of the two of a range
    · rw [if_pos (ends.2.2 rfl)]
      exact reads_pure [] _
    · exact absurd rfl ends.2.1
    · exact reads_pure [] _

theorem readExpr_of_digit {fuel : Nat} {text after : List Char} {e : Expr}
    (opens : ∃ d rest, text ++ after = d :: rest ∧ (d.isDigit || startsNegative (d :: rest)) = true)
    (number : ∀ start, Reads (readNumber start) text after e) :
    Reads (readExpr (fuel + 1)) text after (some e) := by
  obtain ⟨d, more, starts, numeric⟩ := opens
  have unlike : d ≠ '(' ∧ ¬ (d = '"' ∨ d = '\'') := by
    refine ⟨?_, ?_⟩
    · rintro rfl
      exact absurd numeric (by simp [startsNegative])
    · rintro (rfl | rfl)
      · exact absurd numeric (by simp [startsNegative])
      · exact absurd numeric (by simp [startsNegative])
  rw [readExpr]
  refine reads_get fun c rest => ?_
  rw [rest, starts]
  simp only [if_neg unlike.1, if_neg unlike.2, if_pos numeric]
  exact (number c.position).map some

theorem readExpr_of_quote {fuel : Nat} {quote : Char} {body : List Char}
    (either : quote = '"' ∨ quote = '\'') (apart : quote ∉ body) (after : List Char) :
    Reads (readExpr (fuel + 1)) (quote :: body ++ [quote]) after
      (some (.literal (.str (String.ofList body)))) := by
  have unlike : quote ≠ '(' := by rcases either with rfl | rfl <;> decide
  rw [readExpr]
  refine reads_get fun c here => ?_
  rw [here, List.cons_append, List.cons_append]
  simp only [if_neg unlike, if_pos either]
  exact (reads_string apart c.position after).map some

theorem readExpr_of_name {fuel : Nat} {root rest after : List Char} {steps : List Segment}
    (name : IsName root) (stops : ∀ c ∈ (rest ++ after).head?, isNameChar c = false)
    (onward : ∀ start, Reads (readSegments fuel start) rest after steps) :
    Reads (readExpr (fuel + 1)) (root ++ rest) after
      (some (pathExpr (String.ofList root) steps)) := by
  obtain ⟨⟨d, first, start⟩, all⟩ := name
  obtain ⟨more, rfl⟩ := List.head?_eq_some_iff.mp first
  obtain ⟨noRange, noString, noNumber⟩ := isNameStart_unlike start (more ++ (rest ++ after))
  rw [readExpr]
  refine reads_get fun c here => ?_
  rw [here, List.append_assoc, List.cons_append]
  simp only [if_neg noRange, if_neg noString, noNumber, start, if_true, Bool.false_eq_true,
    if_false]
  rw [← List.cons_append, takeWhile_append_stop all stops]
  refine (reads_skip _ _).bind ?_
  exact (onward c.position).return fun steps => some (pathExpr (String.ofList (d :: more)) steps)

theorem reads_keyword {fuel : Nat} {word : String} {after : List Char} {l : Literal}
    (name : IsName word.toList) (literal : Cursor.word? word = some l) (ends : Ends after) :
    Reads (readExpr (fuel + 1)) word.toList after (some (.literal l)) := by
  have reads : Reads (readExpr (fuel + 1)) (word.toList ++ []) after _ :=
    readExpr_of_name name ends.stops fun _ => reads_stop ends
  rwa [List.append_nil, String.ofList_toList, pathExpr_keyword literal] at reads

theorem reads_range {fuel : Nat} {low high : Expr} {first second a b c d : List Char}
    (lower : Written low first) (upper : Written high second) (opened : Blanks a)
    (ahead : Blanks b) (past : Blanks c) (closing : Blanks d)
    (lowReads : ∀ {after}, Ends after → Reads (readExpr fuel) first after (some low))
    (highReads : ∀ {after}, Ends after → Reads (readExpr fuel) second after (some high))
    (start : Nat) (after : List Char) : Reads (readRange (fuel + 1) start)
      ('(' :: a ++ first ++ b ++ ['.', '.'] ++ c ++ second ++ d ++ [')']) after
        (.range low high) := by
  have parts : '(' :: a ++ first ++ b ++ ['.', '.'] ++ c ++ second ++ d ++ [')'] =
      ['('] ++ (a ++ (first ++ ((b ++ ['.', '.']) ++ (c ++ (second ++ (d ++ [')'])))))) := by simp
  have dots (cs : List Char) : Ends (b ++ ['.', '.'] ++ cs) := by
    rw [List.append_assoc]
    exact .blanks ahead ⟨rfl, by decide, fun _ => rfl⟩
  have bracket (cs : List Char) : Ends (d ++ [')'] ++ cs) := by
    rw [List.append_assoc]
    exact .blanks closing (.of_head? (by rintro d ⟨⟩; decide))
  rw [parts, readRange]
  refine (reads_skip ['('] _).bind ?_
  refine (reads_blanks opened ?_).bind ?_
  · rw [List.append_assoc]
    exact lower.bare _
  refine (lowReads ?_).bind ?_
  · rw [List.append_assoc]
    exact dots _
  refine (reads_take ahead rfl _).bind ?_
  rw [if_neg (by decide)]
  refine (reads_blanks past ?_).bind ?_
  · rw [List.append_assoc]
    exact upper.bare _
  refine (highReads (bracket after)).bind ?_
  refine (reads_take closing rfl after).last ?_
  exact reads_pure (Expr.range low high) after

theorem reads_name {fuel start : Nat} {word : String} {steps : List Segment}
    {rest after : List Char} (property : IsProperty word.toList)
    (stops : ∀ c ∈ (rest ++ after).head?, isNameChar c = false)
    (onward : Reads (readSegments fuel start) rest after steps) :
    Reads (readSegments (fuel + 1) start) ('.' :: word.toList ++ rest) after
      (.name word :: steps) := by
  have taken : (word.toList ++ (rest ++ after)).takeWhile isNameChar = word.toList :=
    takeWhile_append_stop property.2 stops
  obtain ⟨d, more, eq⟩ := List.exists_cons_of_ne_nil property.1
  -- the property starts with a character of names, so the dot is not the first of two
  have single : (word.toList ++ (rest ++ after)).head? ≠ some '.' := by
    rw [eq]
    rintro ⟨⟩
    exact absurd (property.2 '.' (by simp [eq])) (by decide)
  have nonempty : word.toList.isEmpty = false := by rw [eq, List.isEmpty_cons]
  rw [readSegments]
  refine reads_get fun c here => ?_
  rw [here, List.append_assoc, List.cons_append]
  simp only [if_neg single, taken, nonempty, Bool.false_eq_true, if_false]
  refine Reads.bind (s := ['.']) (reads_skip ['.'] _) ?_
  refine (reads_skip word.toList _).bind ?_
  rw [String.ofList_toList]
  exact onward.return (Segment.name word :: ·)

theorem reads_index {fuel start : Nat} {e : Expr} {steps : List Segment}
    {text rest a b after : List Char} (inner : Written e text) (opened : Blanks a)
    (closing : Blanks b)
    (innerReads : ∀ {after}, Ends after → Reads (readExpr fuel) text after (some e))
    (onward : Reads (readSegments fuel start) rest after steps) :
    Reads (readSegments (fuel + 1) start) ('[' :: a ++ text ++ b ++ ']' :: rest) after
      (.index e :: steps) := by
  have parts : '[' :: a ++ text ++ b ++ ']' :: rest =
      ['['] ++ (a ++ (text ++ ((b ++ [']']) ++ rest))) := by simp
  have bracket (cs : List Char) : Ends (b ++ [']'] ++ cs) := by
    rw [List.append_assoc]
    exact .blanks closing (.of_head? (by rintro d ⟨⟩; decide))
  rw [parts, readSegments]
  refine reads_get fun c here => ?_
  rw [here]
  refine (reads_skip ['['] _).bind ?_
  refine (reads_blanks opened ?_).bind ?_
  · rw [List.append_assoc]
    exact inner.bare _
  refine (innerReads ?_).bind ?_
  · rw [List.append_assoc]
    exact bracket _
  refine (reads_take closing rfl _).bind ?_
  exact onward.return (Segment.index e :: ·)

theorem value_of_readExpr {c o later : Cursor} {e : Expr} (skipped : c.skipBlank = o)
    (read : readExpr o.enough o = .ok (some e) later) :
    value c = .ok (some ⟨e, String.ofList (o.rest.take (o.rest.length - later.rest.length)),
      later.spanFrom o.position⟩) later := by
  have blank : blanks c = .ok () o := by rw [← skipped, blanks]
  have looked : (get : Reader Cursor) o = .ok o o := rfl
  rw [value, bind_of_ok blank, bind_of_ok looked, bind_of_ok read]
  rfl

end Cursor

open Cursor

mutual

theorem Written.reads : ∀ {e : Expr} {text : List Char}, Written e text →
    ∀ {fuel : Nat} {after : List Char}, 3 * text.length ≤ fuel → Ends after →
      Reads (readExpr (fuel + 1)) text after (some e)
  | _, _, .nil either, _, _, _, ends => by
    rcases either with rfl | rfl
    · exact reads_keyword (by decide) rfl ends
    · exact reads_keyword (by decide) rfl ends
  | _, _, .yes, _, _, _, ends => reads_keyword (by decide) rfl ends
  | _, _, .no, _, _, _, ends => reads_keyword (by decide) rfl ends
  | _, _, @Written.int n negative digits numeral value, _, after, _, ends => by
    obtain ⟨c, cs, starts, _, numeric⟩ := numeral.opens negative after
    refine readExpr_of_digit ⟨c, cs, starts, numeric⟩
      (reads_number (numberText_integer numeral ends) ?_)
    rw [if_neg (by decide), integer?_signed numeral value]
    rfl
  | _, _, @Written.float negative whole fraction before behind, _, after, _, ends => by
    obtain ⟨c, cs, starts, _, numeric⟩ := before.opens negative ('.' :: fraction ++ after)
    rw [← List.append_assoc] at starts
    refine readExpr_of_digit ⟨c, cs, starts, numeric⟩
      (reads_number (numberText_decimal before behind ends) ?_)
    rw [if_pos rfl, real?_signed before behind]
    rfl
  | _, _, .str either apart, fuel, after, _, _ => by
    have string : Reads (readExpr (fuel + 1)) _ after _ := readExpr_of_quote either apart after
    rwa [String.ofList_toList] at string
  | _, _, .path name alone onward, fuel, _, enough, ends => by
    rw [List.length_append] at enough
    have path : Reads (readExpr (fuel + 1)) _ _ _ :=
      readExpr_of_name name (onward.stops ends) fun start => onward.reads (by omega) ends start
    rwa [String.ofList_toList, pathExpr_eq alone] at path
  | _, _, .range lower upper opened ahead past closing, fuel, after, enough, ends => by
    simp only [List.length_append, List.length_cons] at enough
    -- one step for the range, one for its bounds
    obtain ⟨fuel, rfl⟩ := Nat.exists_eq_add_of_le' (show 2 ≤ fuel by omega)
    rw [readExpr]
    refine reads_get fun c here => ?_
    rw [here]
    exact (reads_range lower upper opened ahead past closing (lower.reads (by omega))
      (upper.reads (by omega)) c.position after).map some
termination_by structural _ _ h => h

theorem WrittenSteps.reads : ∀ {steps : List Segment} {text : List Char},
    WrittenSteps steps text → ∀ {fuel : Nat} {after : List Char}, 3 * text.length ≤ fuel →
      Ends after → ∀ start, Reads (readSegments fuel start) text after steps
  | _, _, .nil, _, _, _, ends, _ => reads_stop ends
  | _, _, .name property onward, fuel, _, enough, ends, start => by
    simp only [List.length_append, List.length_cons] at enough
    obtain ⟨fuel, rfl⟩ := Nat.exists_eq_add_of_le' (show 1 ≤ fuel by omega)
    exact reads_name property (onward.stops ends) (onward.reads (by omega) ends start)
  | _, _, .index inner opened closing onward, fuel, _, enough, ends, start => by
    simp only [List.length_append, List.length_cons] at enough
    obtain ⟨fuel, rfl⟩ := Nat.exists_eq_add_of_le' (show 2 ≤ fuel by omega)
    exact reads_index inner opened closing (inner.reads (by omega))
      (onward.reads (by omega) ends start)
termination_by structural _ _ h => h

end

namespace Cursor
variable {c : Cursor} {lead after : List Char}

theorem lift_of_eq {α : Type} {f : Cursor → α × Cursor} {a : α} {later : Cursor}
    (gives : f c = (a, later)) : lift f c = .ok a later := by rw [lift, gives]

theorem value_at_written {e : Expr} {text : List Char} (written : Written e text)
    (blank : Blanks lead) (ends : Ends after) (rest : c.rest = lead ++ (text ++ after)) :
    value c = .ok
      (some ⟨e, String.ofList text, (Span.ofRange (c.position + byteLength lead)
        (c.position + byteLength (lead ++ text))).shift c.base⟩)
      ⟨after, c.position + byteLength (lead ++ text), c.base⟩ := by
  have skipped : c.skipBlank = ⟨text ++ after, c.position + byteLength lead, c.base⟩ := by
    rw [skipBlank_eq blank (written.bare after) rest, advance_length rest]
  have paid : 3 * text.length ≤ 3 * (text ++ after).length + 2 := by
    rw [List.length_append]
    omega
  have read := written.reads paid ends ⟨text ++ after, c.position + byteLength lead, c.base⟩ rfl
  rw [advance_length rfl] at read
  have found := value_of_readExpr skipped read
  rw [List.length_append, Nat.add_sub_cancel, List.take_left, Nat.add_assoc,
    ← byteLength_append] at found
  exact found

theorem value_of_written {e : Expr} {text : List Char} (written : Written e text)
    (blank : Blanks lead) (ends : Ends after) (rest : c.rest = lead ++ (text ++ after)) :
    ∃ a later, value c = .ok (some a) later ∧ a.expr = e ∧ later.rest = after :=
  ⟨_, _, value_at_written written blank ends rest, rfl, rfl⟩

theorem identifier_at_word {word : String} (name : IsName word.toList) (blank : Blanks lead)
    (stops : ∀ d ∈ after.head?, isNameChar d = false)
    (rest : c.rest = lead ++ (word.toList ++ after)) :
    c.identifier
      = (some word, ⟨after, c.position + byteLength (lead ++ word.toList), c.base⟩) := by
  obtain ⟨⟨d, first, start⟩, all⟩ := name
  have opens : (word.toList ++ after).head? = some d := by
    obtain ⟨more, eq⟩ := List.head?_eq_some_iff.mp first
    rw [eq]
    rfl
  have bare : ∀ e ∈ (word.toList ++ after).head?, isBlank e = false := by
    rw [opens]
    rintro _ ⟨⟩
    exact isBlank_of_isNameChar (isNameChar_of_isNameStart start)
  have skipped := skipBlank_eq blank bare rest
  have here : (c.advance lead.length).rest = word.toList ++ after := rest_advance rest
  simp only [identifier, skipped, here, opens, Option.map_some, Option.getD_some, start, if_true,
    takeWhile_append_stop all stops, String.ofList_toList, advance_length here]
  rw [advance_length rest, Nat.add_assoc, ← byteLength_append]

theorem identifier_of_word {word : String} (name : IsName word.toList) (blank : Blanks lead)
    (stops : ∀ d ∈ after.head?, isNameChar d = false)
    (rest : c.rest = lead ++ (word.toList ++ after)) :
    ∃ later, c.identifier = (some word, later) ∧ later.rest = after :=
  ⟨_, identifier_at_word name blank stops rest, rfl⟩

end Cursor

/-- An expression that can be said has written forms, and each of them is read as just this
    expression, up to its last character, whatever blanks it has and wherever it stands. -/
theorem reading_undoes_writing (e : Expr) : (e.Sayable ↔ ∃ text, Written e text) ∧
    ∀ text, Written e text → ∀ (c : Cursor) (lead after : List Char), Blanks lead →
      (∀ d ∈ after.head?, isNameChar d = false ∧ d ≠ '.' ∧ d ≠ '[') →
        c.rest = lead ++ text ++ after →
          value c = .ok
            (some ⟨e, String.ofList text, (Span.ofRange (c.position + byteLength lead)
              (c.position + byteLength (lead ++ text))).shift c.base⟩)
            ⟨after, c.position + byteLength (lead ++ text), c.base⟩ := by
  have sayable : (∃ text, Written e text) → e.Sayable := by
    rintro ⟨text, written⟩
    exact written.sayable
  refine ⟨⟨Expr.Sayable.written, sayable⟩, ?_⟩
  intro text written c lead after blank apart rest
  rw [List.append_assoc] at rest
  exact value_at_written written blank (.of_head? apart) rest

def widestRange : Expr := .range (.literal (.int Int64.minValue))
  (.path "nil" [.name "k-1", .index (.literal (.str "it's")),
    .index (.literal (.float (decimalValue false ['1'] ['5', '0'])))])

def widestRangeText : String := "(-9223372036854775808 ..nil.k-1[ \"it's\"][1.50] )"

theorem reading_undoes_writing_widest :
    widestRange.Sayable ∧ Written widestRange widestRangeText.toList ∧
      value ⟨(" " ++ widestRangeText ++ ", x").toList, 3, 40⟩
        = .ok (some ⟨widestRange, widestRangeText, ⟨44, 92⟩⟩) ⟨", x".toList, 52, 40⟩ := by
  have low : Written (.literal (.int Int64.minValue))
      (minusSign true ++ "9223372036854775808".toList) := .int (by decide) (by decide)
  have last : WrittenSteps _ ('[' :: [] ++ (minusSign false ++ ['1'] ++ ['.', '5', '0']) ++ []
      ++ ']' :: []) := .index (.float (by decide) (by decide)) (by decide) (by decide) .nil
  have second : WrittenSteps _ ('[' :: [' '] ++ ('"' :: "it's".toList ++ ['"']) ++ []
      ++ ']' :: _) := .index (.str (.inl rfl) (by decide)) (by decide) (by decide) last
  have high : Written _ ("nil".toList ++ ('.' :: "k-1".toList ++ _)) :=
    .path (by decide) (by simp) (.name (by decide) second)
  have written : Written widestRange widestRangeText.toList := by
    have range := Written.range (a := []) (b := [' ']) (c := []) (d := [' ']) low high
      (by decide) (by decide) (by decide) (by decide)
    exact range
  have apart : ∀ d ∈ (", x".toList).head?, isNameChar d = false ∧ d ≠ '.' ∧ d ≠ '[' := by
    rintro d ⟨⟩
    decide
  have read := (reading_undoes_writing widestRange).2 widestRangeText.toList written
    ⟨(" " ++ widestRangeText ++ ", x").toList, 3, 40⟩ [' '] ", x".toList (by decide) apart
    (by decide)
  exact ⟨written.sayable, written, read⟩

end Templating
