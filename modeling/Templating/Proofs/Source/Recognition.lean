import Templating.Proofs.Source.NamedLists
import Templating.Template.Header

namespace Templating

def StartsBare (cs : List Char) : Prop := ∃ c ∈ cs.head?, isBlank c = false

def EndsBare (cs : List Char) : Prop := ∃ c ∈ cs.getLast?, isBlank c = false

theorem EndsBare.behind {cs : List Char} (bare : EndsBare cs) (before : List Char) :
    EndsBare (before ++ cs) := by
  obtain ⟨c, last, solid⟩ := bare
  refine ⟨c, ?_, solid⟩
  rw [List.getLast?_append, Option.mem_def.mp last]
  rfl

theorem endsBare_single {c : Char} (solid : isBlank c = false) : EndsBare [c] := ⟨c, rfl, solid⟩

theorem endsBare_of_names {cs : List Char} (some : cs ≠ [])
    (names : ∀ c ∈ cs, isNameChar c = true) : EndsBare cs :=
  ⟨cs.getLast some, List.getLast?_eq_some_getLast some,
    isBlank_of_isNameChar (names _ (List.getLast_mem some))⟩

theorem Digits.endsBare {digits : List Char} (numeral : Digits digits) : EndsBare digits :=
  endsBare_of_names numeral.1 fun c member => isNameChar_of_isDigit (numeral.2 c member)

theorem WrittenSteps.endsBare : ∀ {steps : List Segment} {text : List Char},
    WrittenSteps steps text → ∀ {before : List Char}, EndsBare before → EndsBare (before ++ text)
  | _, _, .nil, _, bare => by rwa [List.append_nil]
  | _, _, @WrittenSteps.name word steps rest property onward, before, _ => by
    have ended : EndsBare (before ++ ('.' :: word.toList)) :=
      ((endsBare_of_names property.1 property.2).behind ['.']).behind before
    rw [← List.append_assoc]
    exact onward.endsBare ended
  | _, _, @WrittenSteps.index e steps text rest a b inner opened closing onward, before, _ => by
    have ended : EndsBare (before ++ ('[' :: a ++ text ++ b ++ [']'])) :=
      ((endsBare_single rfl).behind _).behind before
    rw [show '[' :: a ++ text ++ b ++ ']' :: rest = '[' :: a ++ text ++ b ++ [']'] ++ rest by simp,
      ← List.append_assoc]
    exact onward.endsBare ended
termination_by structural _ _ h => h

theorem Written.endsBare {e : Expr} {text : List Char} (written : Written e text) :
    EndsBare text := by
  cases written with
  | nil either => rcases either with rfl | rfl <;> exact ⟨'l', rfl, rfl⟩
  | yes => exact ⟨'e', rfl, rfl⟩
  | no => exact ⟨'e', rfl, rfl⟩
  | int numeral value => exact numeral.endsBare.behind _
  | float before behind => exact (behind.endsBare.behind ['.']).behind _
  | str either apart =>
    rcases either with rfl | rfl
    · exact (endsBare_single rfl).behind _
    · exact (endsBare_single rfl).behind _
  | path name alone onward => exact onward.endsBare (endsBare_of_names name.ne_nil name.2)
  | range lower upper opened ahead past closing => exact (endsBare_single rfl).behind _

namespace Cursor

/-- Where the reader succeeds from this cursor on, it has moved over a text that has the property
    together with the result. -/
def Takes {α : Type} (c : Cursor) (r : Reader α) (P : α → List Char → Prop) : Prop :=
  ∀ a later, r c = .ok a later → ∃ text, c.rest = text ++ later.rest ∧ P a text

section
variable {α β : Type} {c : Cursor} {P : α → List Char → Prop} {Q : β → List Char → Prop}

theorem takes_pure {a : α} (h : P a []) : c.Takes (pure a) P := by
  rintro _ _ ⟨⟩
  exact ⟨[], rfl, h⟩

theorem takes_get {f : Cursor → Reader α} (h : c.Takes (f c) P) : c.Takes (get >>= f) P := h

theorem takes_fail (cause : LexCause) (start : Nat) : c.Takes (fail cause start) P := by
  rintro _ _ ⟨⟩

theorem takes_skip (n : Nat) : c.Takes (skip n) fun _ text => text = c.rest.take n := by
  rintro _ _ ⟨⟩
  exact ⟨_, (List.take_append_drop n c.rest).symm, rfl⟩

theorem skipBlank_parts (c : Cursor) :
    ∃ lead, Blanks lead ∧ c.rest = lead ++ c.skipBlank.rest := by
  refine ⟨c.rest.takeWhile isBlank, List.all_eq_true.mp List.all_takeWhile, ?_⟩
  have whole : c.rest = c.rest.takeWhile isBlank ++ c.rest.dropWhile isBlank :=
    List.takeWhile_append_dropWhile.symm
  have moved : c.skipBlank = c.advance (c.rest.takeWhile isBlank).length := rfl
  rw [moved, rest_advance whole]
  exact whole

theorem takes_blanks : c.Takes blanks fun _ text => Blanks text := by
  rintro _ _ ⟨⟩
  obtain ⟨lead, blank, cut⟩ := c.skipBlank_parts
  exact ⟨lead, cut, blank⟩

theorem takes_take (cs : List Char) : c.Takes (lift (take cs)) fun found text =>
    found = true → ∃ lead, Blanks lead ∧ text = lead ++ cs := by
  obtain ⟨lead, blank, cut⟩ := c.skipBlank_parts
  rintro _ _ ⟨⟩
  simp only [take]
  split
  · rename_i found
    obtain ⟨after, here⟩ := Option.isSome_iff_exists.mp found
    have comes := afterLead?_eq_some_iff.mp here
    refine ⟨lead ++ cs, ?_, fun _ => ⟨lead, blank, rfl⟩⟩
    rw [rest_advance comes, List.append_assoc, ← comes]
    exact cut
  · exact ⟨lead, cut, fun found => absurd found Bool.false_ne_true⟩

theorem Takes.bind {r : Reader α} {f : α → Reader β} (first : c.Takes r P)
    (next : ∀ a text (later : Cursor), c.rest = text ++ later.rest → P a text →
      later.Takes (f a) fun b more => Q b (text ++ more)) : c.Takes (r >>= f) Q := by
  intro b last read
  cases result : r c with
  | error e middle =>
    rw [bind_of_error result] at read
    cases read
  | ok a middle =>
    rw [bind_of_ok result] at read
    obtain ⟨text, cut, holds⟩ := first a middle result
    obtain ⟨more, behind, holds⟩ := next a text middle cut holds b last read
    exact ⟨text ++ more, by rw [cut, behind, List.append_assoc], holds⟩

theorem Takes.map {r : Reader α} {f : α → β} (h : c.Takes r P)
    (image : ∀ a text, P a text → Q (f a) text) : c.Takes (f <$> r) Q := by
  rw [map_eq_pure_bind]
  refine h.bind fun a text later _ holds => takes_pure ?_
  rw [List.append_nil]
  exact image a text holds

end

/-- What a number at the front of a text looks like, and that it is found. -/
inductive Numeral : List Char → Prop where
  | integer {negative : Bool} {digits after : List Char} (numeral : Digits digits)
      (scan : numberText (minusSign negative ++ digits ++ after)
        = (minusSign negative ++ digits, false)) : Numeral (minusSign negative ++ digits ++ after)
  | decimal {negative : Bool} {whole fraction after : List Char} (before : Digits whole)
      (behind : Digits fraction)
      (scan : numberText (minusSign negative ++ whole ++ '.' :: fraction ++ after)
        = (minusSign negative ++ whole ++ '.' :: fraction, true)) :
      Numeral (minusSign negative ++ whole ++ '.' :: fraction ++ after)

theorem digits_takeWhile {cs : List Char} (some : ∃ d ∈ cs.head?, d.isDigit = true) :
    Digits (cs.takeWhile Char.isDigit) := by
  obtain ⟨d, first, digit⟩ := some
  obtain ⟨more, rfl⟩ := List.head?_eq_some_iff.mp first
  exact ⟨by simp [digit], List.all_eq_true.mp List.all_takeWhile⟩

theorem numeral_of_opens {d : Char} {rest : List Char}
    (opens : (d.isDigit || startsNegative (d :: rest)) = true) : Numeral (d :: rest) := by
  obtain ⟨negative, digits, signed, some⟩ : ∃ negative digits,
      d :: rest = minusSign negative ++ digits ∧ ∃ e ∈ digits.head?, e.isDigit = true := by
    by_cases digit : d.isDigit = true
    · exact ⟨false, d :: rest, rfl, d, rfl, digit⟩
    · rw [eq_false_of_ne_true digit, Bool.false_or] at opens
      unfold startsNegative at opens
      split at opens
      · rename_i e more same
        exact ⟨true, e :: more, same, e, rfl, opens⟩
      · cases opens
  have whole := digits_takeWhile some
  obtain ⟨front, behind, cut, numeral, stops⟩ : ∃ front behind, digits = front ++ behind ∧
      Digits front ∧ ∀ c ∈ behind.head?, c.isDigit = false := by
    refine ⟨_, digits.dropWhile Char.isDigit, List.takeWhile_append_dropWhile.symm, whole, ?_⟩
    intro c first
    have kept := List.head?_dropWhile_not Char.isDigit digits
    simpa [Option.mem_def.mp first] using kept
  rw [signed, cut, ← List.append_assoc]
  by_cases point : ∃ e more, behind = '.' :: e :: more ∧ e.isDigit = true
  · obtain ⟨e, more, rfl, digit⟩ := point
    have fraction : Digits ((e :: more).takeWhile Char.isDigit) :=
      digits_takeWhile ⟨e, rfl, digit⟩
    have parts : minusSign negative ++ front ++ '.' :: e :: more
        = minusSign negative ++ front ++ '.' :: (e :: more).takeWhile Char.isDigit
          ++ (e :: more).dropWhile Char.isDigit := by
      rw [List.append_assoc _ ('.' :: _), List.cons_append, List.takeWhile_append_dropWhile]
    rw [parts]
    refine .decimal numeral fraction ?_
    rw [← parts, List.append_assoc]
    exact numberText_point numeral digit
  · refine .integer numeral ?_
    rw [List.append_assoc]
    refine numberText_whole numeral stops fun e more same => ?_
    exact eq_false_of_ne_true fun digit => point ⟨e, more, same, digit⟩

theorem takes_number {c : Cursor} {text after : List Char} {isReal : Bool} (start : Nat)
    (cut : c.rest = text ++ after) (scan : numberText (text ++ after) = (text, isReal))
    (value : ∀ l, (if isReal then (real? text).map Literal.float else (integer? text).map .int)
      = some l → Written (.literal l) text) : c.Takes (readNumber start) Written := by
  apply takes_get
  rw [cut, scan]
  refine (takes_skip _).bind fun _ _ later _ taken => ?_
  rw [cut, List.take_left] at taken
  subst taken
  dsimp only
  split
  · rename_i l read
    apply takes_pure
    rw [List.append_nil]
    exact value l read
  · exact takes_fail _ _

theorem readNumber_takes {c : Cursor} (numeral : Numeral c.rest) (start : Nat) :
    c.Takes (readNumber start) Written := by
  generalize here : c.rest = cs at numeral
  cases numeral with
  | integer numeral scan =>
    refine takes_number start here scan fun l given => ?_
    rw [if_neg (by decide)] at given
    obtain ⟨n, read, rfl⟩ := Option.map_eq_some_iff.mp given
    exact .int numeral (signedValue_of_integer? numeral read)
  | decimal before behind scan =>
    refine takes_number start here scan fun l given => ?_
    rw [if_pos rfl, real?_signed before behind] at given
    obtain rfl := Option.some.inj given
    exact .float before behind

theorem exists_takeWhile_ne {stop : Char} {cs : List Char}
    (shorter : (cs.takeWhile (· ≠ stop)).length < cs.length) :
    ∃ body after, cs = body ++ stop :: after ∧ stop ∉ body ∧ cs.takeWhile (· ≠ stop) = body := by
  have cut : cs.takeWhile (· ≠ stop) ++ cs.dropWhile (· ≠ stop) = cs :=
    List.takeWhile_append_dropWhile
  have next := List.head?_dropWhile_not (fun d => decide (d ≠ stop)) cs
  cases behind : cs.dropWhile (· ≠ stop) with
  | nil =>
    rw [behind, List.append_nil] at cut
    rw [cut] at shorter
    exact absurd shorter (Nat.lt_irrefl _)
  | cons d after =>
    rw [behind] at cut next
    obtain rfl : d = stop := by simpa using next
    refine ⟨_, after, cut.symm, fun member => ?_, rfl⟩
    have other := List.all_eq_true.mp List.all_takeWhile d member
    simp at other

theorem readString_takes {c : Cursor} {quote : Char} {rest : List Char}
    (either : quote = '"' ∨ quote = '\'') (here : c.rest = quote :: rest) (start : Nat) :
    c.Takes (readString quote start) Written := by
  apply takes_get
  rw [here, List.drop_one, List.tail_cons, List.length_cons]
  dsimp only
  split
  · rename_i closed
    have shorter : (rest.takeWhile (· ≠ quote)).length < rest.length := by omega
    obtain ⟨body, after, cut, apart, found⟩ := exists_takeWhile_ne shorter
    rw [found]
    refine (takes_skip _).bind fun _ _ later _ taken => takes_pure ?_
    have text : c.rest = quote :: body ++ [quote] ++ after := by
      rw [here, cut]
      simp
    have length : (quote :: body ++ [quote]).length = body.length + 2 := by simp
    rw [text, ← length, List.take_left] at taken
    have written := Written.str either (s := String.ofList body) (by rwa [String.toList_ofList])
    rw [taken, List.append_nil]
    rwa [String.toList_ofList] at written
  · exact (takes_skip _).bind fun _ _ later _ _ => takes_fail _ _

theorem written_pathExpr {root : String} {steps : List Segment} {text : List Char}
    (name : IsName root.toList) (onward : WrittenSteps steps text) :
    Written (pathExpr root steps) (root.toList ++ text) := by
  by_cases keyword : steps = [] ∧ root ∈ keywords
  · obtain ⟨rfl, word⟩ := keyword
    cases onward
    rw [List.append_nil]
    simp only [keywords, List.mem_cons, List.not_mem_nil, or_false] at word
    rcases word with rfl | rfl | rfl | rfl
    · exact .nil (.inl rfl)
    · exact .nil (.inr rfl)
    · exact .yes
    · exact .no
  · have alone : steps = [] → root ∉ keywords := fun none word => keyword ⟨none, word⟩
    rw [pathExpr_eq alone]
    exact .path name alone onward

def Finding (found : Option Expr) (text : List Char) : Prop := ∀ e ∈ found, Written e text

theorem finding_none (text : List Char) : Finding none text := nofun

theorem finding_some {e : Expr} {text : List Char} (written : Written e text) :
    Finding (some e) text := by
  rintro _ ⟨⟩
  exact written

theorem isName_takeWhile {d : Char} (start : isNameStart d = true) (rest : List Char) :
    IsName ((d :: rest).takeWhile isNameChar) := by
  have first : isNameChar d = true := isNameChar_of_isNameStart start
  exact ⟨⟨d, by simp [first], start⟩, List.all_eq_true.mp List.all_takeWhile⟩

theorem takes_takeWhile {c : Cursor} {p : Char → Bool} {cs : List Char} (here : c.rest = cs) :
    c.Takes (skip (cs.takeWhile p).length) fun _ text => text = cs.takeWhile p := by
  have cut : c.rest = cs.takeWhile p ++ cs.dropWhile p := by
    rw [List.takeWhile_append_dropWhile, here]
  have taken := takes_skip (c := c) (cs.takeWhile p).length
  rwa [cut, List.take_left] at taken

theorem takes_one {c : Cursor} {d : Char} {rest : List Char} (here : c.rest = d :: rest) :
    c.Takes (skip 1) fun _ text => text = [d] := by
  have taken := takes_skip (c := c) 1
  rwa [here] at taken

mutual

/-- Whatever steps are left, an expression that is read is one that the text stands for. -/
theorem readExpr_takes : ∀ (fuel : Nat) (c : Cursor), c.Takes (readExpr fuel) Finding
  | 0, _ => takes_pure (finding_none [])
  | fuel + 1, c => by
    rw [readExpr]
    apply takes_get
    dsimp only
    split
    · exact takes_pure (finding_none [])
    · rename_i d rest here
      split
      · rename_i bracket
        subst bracket
        exact (readRange_takes fuel c c.position here).map fun _ _ => finding_some
      · split
        · rename_i quote
          exact (readString_takes quote here c.position).map fun _ _ => finding_some
        · split
          · rename_i opens
            have numeral : Numeral c.rest := here ▸ numeral_of_opens opens
            exact (readNumber_takes numeral c.position).map fun _ _ => finding_some
          · split
            · rename_i start
              refine (takes_takeWhile here).bind fun _ name middle _ taken => ?_
              refine (readSegments_takes fuel middle c.position).bind
                fun steps text later _ onward => takes_pure (finding_some ?_)
              subst taken
              have named := isName_takeWhile start rest
              rw [← String.toList_ofList (l := (d :: rest).takeWhile isNameChar)] at named ⊢
              rw [List.append_nil]
              rw [String.ofList_toList]
              exact written_pathExpr named onward
            · exact takes_pure (finding_none [])
termination_by structural fuel => fuel

theorem readRange_takes : ∀ (fuel : Nat) (c : Cursor) (start : Nat) {rest : List Char},
    c.rest = '(' :: rest → c.Takes (readRange fuel start) Written
  | 0, _, _, _, _ => takes_fail _ _
  | fuel + 1, c, start, rest, here => by
    rw [readRange]
    refine (takes_one here).bind fun _ _ c₁ _ bracket => ?_
    refine takes_blanks.bind fun _ a c₂ _ opened => ?_
    refine (readExpr_takes fuel c₂).bind fun low first c₃ _ lower => ?_
    refine (takes_take _).bind fun dots middle c₄ _ between => ?_
    split
    · exact takes_fail _ _
    · rename_i found
      obtain ⟨b, ahead, rfl⟩ := between (by simpa using found)
      refine takes_blanks.bind fun _ c c₅ _ past => ?_
      refine (readExpr_takes fuel c₅).bind fun high second c₆ _ upper => ?_
      split
      · refine (takes_take _).bind fun closed last c₇ _ behind => ?_
        split
        · rename_i ended
          obtain ⟨d, closing, rfl⟩ := behind ended
          apply takes_pure
          subst bracket
          have range := Written.range (lower _ rfl) (upper _ rfl) opened ahead past closing
          simpa only [List.append_assoc, List.cons_append, List.nil_append, List.append_nil]
            using range
        · exact takes_fail _ _
      · exact takes_fail _ _
termination_by structural fuel => fuel

theorem readSegments_takes : ∀ (fuel : Nat) (c : Cursor) (start : Nat),
    c.Takes (readSegments fuel start) WrittenSteps
  | 0, _, _ => takes_pure .nil
  | fuel + 1, c, start => by
    rw [readSegments]
    apply takes_get
    split
    · rename_i rest here
      split
      · exact takes_pure .nil
      · refine (takes_one here).bind fun _ _ c₁ cut dot => ?_
        subst dot
        have next : c₁.rest = rest := (List.cons.inj (cut.symm.trans here)).2
        dsimp only
        split
        · exact takes_fail _ _
        · rename_i some
          refine (takes_takeWhile next).bind fun _ name c₂ _ taken => ?_
          refine (readSegments_takes fuel c₂ start).bind fun steps more _ _ onward => takes_pure ?_
          subst taken
          have property : IsProperty (String.ofList (rest.takeWhile isNameChar)).toList := by
            rw [String.toList_ofList]
            exact ⟨by simpa using some, List.all_eq_true.mp List.all_takeWhile⟩
          have named := WrittenSteps.name property onward
          rw [String.toList_ofList] at named
          rwa [List.append_nil]
    · rename_i rest here
      refine (takes_one here).bind fun _ _ c₁ _ bracket => ?_
      refine takes_blanks.bind fun _ a c₂ _ opened => ?_
      refine (readExpr_takes fuel c₂).bind fun found text c₃ _ written => ?_
      cases found with
      | none => exact takes_fail _ _
      | some e =>
        refine (takes_take _).bind fun closed last c₄ _ behind => ?_
        split
        · exact takes_fail _ _
        · rename_i ended
          obtain ⟨b, closing, rfl⟩ := behind (by simpa using ended)
          refine (readSegments_takes fuel c₄ start).bind fun steps more c₅ _ onward => takes_pure ?_
          subst bracket
          have index := WrittenSteps.index (written e rfl) opened closing onward
          simpa only [List.append_assoc, List.cons_append, List.nil_append, List.append_nil]
            using index
    · exact takes_pure .nil
termination_by structural fuel => fuel

end

theorem value_takes (c : Cursor) : c.Takes value fun found text => ∀ a ∈ found,
    ∃ lead, Blanks lead ∧ text = lead ++ a.text.toList ∧ Written a.expr a.text.toList := by
  refine takes_blanks.bind fun _ lead start _ blank => takes_get ?_
  refine (readExpr_takes _ start).bind fun found text after cut written => ?_
  cases found with
  | none => exact takes_pure nofun
  | some e =>
    refine takes_get (takes_pure ?_)
    rintro _ ⟨⟩
    have taken : start.rest.take (start.rest.length - after.rest.length) = text := by
      rw [cut, List.length_append, Nat.add_sub_cancel, List.take_left]
    refine ⟨lead, blank, ?_, ?_⟩
    · rw [List.append_nil, String.toList_ofList, taken]
    · rw [String.toList_ofList, taken]
      exact written e rfl

theorem value_written {c later : Cursor} {a : Argument} (read : value c = .ok (some a) later) :
    Written a.expr a.text.toList := by
  obtain ⟨_, _, holds⟩ := value_takes c _ _ read
  obtain ⟨_, _, _, written⟩ := holds a rfl
  exact written

theorem Onward.takes {α : Type} {c : Cursor} {r : Reader α} {P : α → Prop}
    (onward : Onward c r P) : c.Takes r fun a _ => P a := by
  intro a later read
  have lands := onward c (.refl c)
  rw [read] at lands
  obtain ⟨⟨n, rfl⟩, holds⟩ := lands
  exact ⟨c.rest.take n, (List.take_append_drop n c.rest).symm, holds⟩

theorem identifier_takes (c : Cursor) :
    c.Takes (lift identifier) fun found _ => ∀ name ∈ found, IsName name.toList := by
  have moved : c.Takes (lift identifier) fun _ _ => True := (onward_lift .identifier).takes
  intro found later read
  obtain ⟨text, cut, -⟩ := moved found later read
  refine ⟨text, cut, ?_⟩
  obtain ⟨rfl, -⟩ := EStateM.Result.ok.inj read
  intro name same
  unfold identifier at same
  dsimp only at same
  split at same
  · rename_i opens
    cases same
    cases here : c.skipBlank.rest with
    | nil =>
      rw [here] at opens
      cases opens
    | cons d rest =>
      rw [here] at opens
      rw [String.toList_ofList]
      exact isName_takeWhile opens rest
  · cases same

theorem readLoop_takes (c : Cursor) (separator : Char) (ordered : Bool) :
    c.Takes (readLoop separator ordered) fun found _ => ∀ h ∈ found,
      IsName h.variableName.toList ∧ Written h.collection.expr h.collection.text.toList := by
  refine (identifier_takes c).bind fun variableName _ second _ name => ?_
  refine (identifier_takes second).bind fun _ _ third _ _ => ?_
  refine (value_takes third).bind fun collection _ fourth _ written => ?_
  split
  · refine (namedArguments_onward fourth separator).takes.bind fun _ _ _ _ _ => takes_pure ?_
    rintro _ ⟨⟩
    obtain ⟨_, _, _, written⟩ := written _ rfl
    exact ⟨name _ rfl, written⟩
  · exact takes_pure nofun

end Cursor

open Cursor

theorem TagToken.read_takes {α : Type} {t : TagToken} {r : Reader (Option α)} {a : α}
    {P : Option α → List Char → Prop} (takes : ∀ c : Cursor, c.Takes r P)
    (read : t.read r = .ok a) :
    ∃ text, P (some a) text := by
  obtain ⟨later, result⟩ := TagToken.read_eq_ok.mp read
  obtain ⟨text, -, holds⟩ := takes _ _ _ result
  exact ⟨text, holds⟩

theorem Written.startsBare {e : Expr} {text : List Char} (written : Written e text) :
    StartsBare text := by
  obtain ⟨last, isLast, -⟩ := written.endsBare
  have some : text ≠ [] := by
    rintro rfl
    cases isLast
  obtain ⟨c, more, rfl⟩ := List.exists_cons_of_ne_nil some
  exact ⟨c, rfl, written.bare [] c (by simp)⟩

/-- A written form is read alone, up to its end. -/
theorem Written.read_alone {e : Expr} {text : String} (written : Written e text.toList)
    (base : Nat) :
    ∃ a finish, value (Cursor.ofText text base) = .ok (some a) finish ∧ a.expr = e ∧
      finish.rest = [] :=
  value_of_written written blanks_nil trivial (List.append_nil _).symm

theorem Written.unique {e f : Expr} {text : String} (first : Written e text.toList)
    (second : Written f text.toList) : e = f := by
  obtain ⟨a, _, read, rfl, -⟩ := first.read_alone 0
  obtain ⟨b, _, again, rfl, -⟩ := second.read_alone 0
  rw [read] at again
  cases again
  rfl

/-- The text of a value has no blanks around it, and read alone, wherever it is said to stand, it
    gives the expression again and is used up. So loops with one collection text have one
    collection. -/
theorem text_determines_value :
    (∀ (c later : Cursor) (a : Argument), value c = .ok (some a) later →
      StartsBare a.text.toList ∧ EndsBare a.text.toList ∧
      ∀ base, ∃ again finish, value (Cursor.ofText a.text base) = .ok (some again) finish ∧
        again.expr = a.expr ∧ finish.rest = []) ∧
    ∀ (t t' : TagToken) (separator separator' : Char) (ordered ordered' : Bool) (h h' : LoopHeader),
      t.read (readLoop separator ordered) = .ok h →
      t'.read (readLoop separator' ordered') = .ok h' →
      h.collection.text = h'.collection.text → h.collection.expr = h'.collection.expr := by
  constructor
  · intro c later a read
    have written := value_written read
    exact ⟨written.startsBare, written.endsBare, written.read_alone⟩
  · intro t t' separator separator' ordered ordered' h h' read read' same
    obtain ⟨_, header⟩ := TagToken.read_takes (readLoop_takes · separator ordered) read
    obtain ⟨_, header'⟩ := TagToken.read_takes (readLoop_takes · separator' ordered') read'
    have written := (header h rfl).2
    rw [same] at written
    exact written.unique (header' h' rfl).2

theorem read_loop_of_written {t : TagToken} {x : String} {e : Expr}
    {lead a b text past : List Char} (name : IsName x.toList) (written : Written e text)
    (before : Blanks lead) (first : Gap a) (second : Gap b) (behind : Blanks past)
    (said : t.arguments.toList
      = lead ++ (x.toList ++ (a ++ ("in".toList ++ (b ++ (text ++ past))))))
    (separator : Char) (ordered : Bool) :
    let start := byteLength (lead ++ x.toList) + byteLength (a ++ "in".toList)
    t.read (readLoop separator ordered) = .ok ⟨x, ⟨e, String.ofList text,
      (Span.ofRange (start + byteLength b) (start + byteLength (b ++ text))).shift t.offset⟩,
      [], ordered⟩ := by
  intro start
  let named : Cursor :=
    ⟨a ++ ("in".toList ++ (b ++ (text ++ past))), byteLength (lead ++ x.toList), t.offset⟩
  let inside : Cursor := ⟨b ++ (text ++ past), start, t.offset⟩
  have variableName : lift identifier (ofText t.arguments t.offset) = .ok (some x) named := by
    have found := identifier_at_word (c := ofText t.arguments t.offset) name before
      (first.ends _).stops said
    rw [lift_of_eq found, ofText, Nat.zero_add]
  have keyword : lift identifier named = .ok (some "in") inside :=
    lift_of_eq (identifier_at_word (by decide) first.2 (second.ends (text ++ past)).stops rfl)
  have ends : Ends past := by
    rw [← List.append_nil past]
    exact .blanks behind trivial
  have collection := value_at_written (c := inside) written second.2 ends rfl
  let behindValue : Cursor := ⟨past, start + byteLength (b ++ text), t.offset⟩
  obtain ⟨later, modifiers, -⟩ : ∃ later,
      readNamed separator (past.length + 1) behindValue = .ok [] later ∧ later.rest = [] :=
    readNamed_blanks behind
  refine TagToken.read_eq_ok.mpr ⟨later, ?_⟩
  rw [readLoop, bind_of_ok variableName, bind_of_ok keyword, bind_of_ok collection]
  exact bind_of_ok modifiers

def forTag (arguments : String) : TagToken :=
  ⟨"for", arguments, 6, ⟨0, 8 + arguments.utf8ByteSize⟩, "\x7b% for" ++ arguments ++ "%\x7d"⟩

theorem text_determines_value_ranges :
    let c : Cursor := ⟨"  (-1 ..a[ 'x' ].b ), (".toList, 4, 30⟩
    let a : Argument := ⟨.range (.literal (.int (-1)))
      (.path "a" [.index (.literal (.str "x")), .name "b"]), "(-1 ..a[ 'x' ].b )", ⟨36, 54⟩⟩
    let h : LoopHeader :=
      ⟨"i", ⟨.range (.literal (.int 1)) (.path "n" []), "(1..n)", ⟨12, 18⟩⟩, [], true⟩
    let h' : LoopHeader :=
      ⟨"word", ⟨.range (.literal (.int 1)) (.path "n" []), "(1..n)", ⟨16, 22⟩⟩, [], false⟩
    value c = .ok (some a) ⟨", (".toList, 24, 30⟩ ∧
    (∀ base, ∃ again finish, value (Cursor.ofText a.text base) = .ok (some again) finish ∧
      again.expr = a.expr ∧ finish.rest = []) ∧
    (forTag " i in (1..n) ").read (readLoop ':' true) = .ok h ∧
    (forTag " word in  (1..n)").read (readLoop '=' false) = .ok h' ∧
    h.collection.expr = h'.collection.expr := by
  intro c a h h'
  have low : Written (.literal (.int (-1))) (minusSign true ++ ['1']) :=
    .int (by decide) (by decide)
  have index : WrittenSteps _ ('[' :: [' '] ++ ('\'' :: "x".toList ++ ['\'']) ++ [' ']
      ++ ']' :: _) := .index (.str (.inr rfl) (by decide)) (by decide) (by decide)
    (.name (show IsProperty "b".toList by decide) .nil)
  have high : Written _ ("a".toList ++ _) := .path (by decide) (by simp) index
  have written : Written a.expr a.text.toList := by
    have range := Written.range (a := []) (b := [' ']) (c := []) (d := [' ']) low high
      (by decide) (by decide) (by decide) (by decide)
    exact (congrArg (Written a.expr) (by decide)).mp range
  have counted : Written h.collection.expr "(1..n)".toList := by
    have one : Written (.literal (.int 1)) (minusSign false ++ ['1']) :=
      .int (by decide) (by decide)
    have name : Written (.path "n" []) ("n".toList ++ []) := .path (by decide) (by decide) .nil
    have range := Written.range (a := []) (b := []) (c := []) (d := []) one name
      (by decide) (by decide) (by decide) (by decide)
    exact (congrArg (Written h.collection.expr) (by decide)).mp range
  have comma : Ends ", (".toList := .of_head? (by rintro d ⟨⟩; decide)
  have none : Blanks [] := by decide
  have one : Gap [' '] := by decide
  have two : Gap [' ', ' '] := by decide
  have read : value c = .ok (some a) ⟨", (".toList, 24, 30⟩ := by
    have found := value_at_written (c := c) written two.2 comma (by decide)
    have length : byteLength ([' ', ' '] ++ a.text.toList) = 20 := by decide
    rw [String.ofList_toList, length] at found
    exact found
  have first : (forTag " i in (1..n) ").read (readLoop ':' true) = .ok h :=
    read_loop_of_written (by decide) counted one.2 one one one.2 rfl ':' true
  have second : (forTag " word in  (1..n)").read (readLoop '=' false) = .ok h' :=
    read_loop_of_written (by decide) counted one.2 one two none rfl '=' false
  obtain ⟨values, loops⟩ := text_determines_value
  refine ⟨read, (values c _ a read).2.2, first, second, ?_⟩
  exact loops _ _ _ _ _ _ h h' first second rfl

end Templating
