import Templating.Proofs.Source.RoundTrip

namespace Templating

structure Separates (separator : Char) : Prop where
  solid : isBlank separator = false
  apart : isNameChar separator = false
  single : separator ≠ ','

def NamedArgument.said (n : NamedArgument) : String × Option Expr := (n.key, n.value.map (·.expr))

inductive WrittenNamed (separator : Char) : String × Option Expr → List Char → Prop where
  | bare {key : String} (name : IsName key.toList) : WrittenNamed separator (key, none) key.toList
  | given {key : String} {e : Expr} {text a b : List Char} (name : IsName key.toList)
      (before : Blanks a) (behind : Blanks b) (value : Written e text) :
      WrittenNamed separator (key, some e) (key.toList ++ (a ++ separator :: (b ++ text)))

/-- The texts of a list: blanks, or a comma, between the arguments. -/
inductive WrittenList (separator : Char) : List (String × Option Expr) → List Char → Prop where
  | nil : WrittenList separator [] []
  | last {n : String × Option Expr} {text : List Char} (written : WrittenNamed separator n text) :
      WrittenList separator [n] text
  | blank {n m : String × Option Expr} {rest : List (String × Option Expr)}
      {text more gap : List Char} (written : WrittenNamed separator n text) (apart : Gap gap)
      (later : WrittenList separator (m :: rest) more) :
      WrittenList separator (n :: m :: rest) (text ++ (gap ++ more))
  | comma {n m : String × Option Expr} {rest : List (String × Option Expr)}
      {text more a b : List Char} (written : WrittenNamed separator n text) (before : Blanks a)
      (behind : Blanks b) (later : WrittenList separator (m :: rest) more) :
      WrittenList separator (n :: m :: rest) (text ++ (a ++ ',' :: (b ++ more)))

def SayableNamed (n : String × Option Expr) : Prop := IsName n.1.toList ∧ ∀ e ∈ n.2, e.Sayable

theorem WrittenNamed.sayable {separator : Char} {n : String × Option Expr} {text : List Char}
    (written : WrittenNamed separator n text) : SayableNamed n := by
  cases written with
  | bare name => exact ⟨name, nofun⟩
  | given name before behind value =>
    refine ⟨name, ?_⟩
    rintro _ ⟨⟩
    exact value.sayable

theorem SayableNamed.written {n : String × Option Expr} (sayable : SayableNamed n)
    (separator : Char) : ∃ text, WrittenNamed separator n text := by
  obtain ⟨key, given⟩ := n
  obtain ⟨name, sayable⟩ := sayable
  cases given with
  | none => exact ⟨_, .bare name⟩
  | some e =>
    obtain ⟨_, written⟩ := (sayable e rfl).written
    exact ⟨_, .given name blanks_nil blanks_nil written⟩

theorem WrittenList.sayable {separator : Char} {entries : List (String × Option Expr)}
    {text : List Char} (written : WrittenList separator entries text) :
    ∀ n ∈ entries, SayableNamed n := by
  induction written with
  | nil => exact nofun
  | last written => exact List.forall_mem_singleton.mpr written.sayable
  | blank written apart later ih => exact List.forall_mem_cons.mpr ⟨written.sayable, ih⟩
  | comma written before behind later ih => exact List.forall_mem_cons.mpr ⟨written.sayable, ih⟩

theorem exists_writtenList (separator : Char) : ∀ {entries : List (String × Option Expr)},
    (∀ n ∈ entries, SayableNamed n) → ∃ text, WrittenList separator entries text
  | [], _ => ⟨_, .nil⟩
  | [n], sayable =>
    have ⟨_, written⟩ := (sayable n List.mem_cons_self).written separator
    ⟨_, .last written⟩
  | n :: m :: rest, sayable =>
    have ⟨first, others⟩ := List.forall_mem_cons.mp sayable
    have ⟨_, written⟩ := first.written separator
    have ⟨_, later⟩ := exists_writtenList separator others
    have gap : Gap [' '] := by decide
    ⟨_, .blank written gap later⟩

inductive BehindNamed (gap : List Char) : List Char → Prop where
  | nothing (blank : Blanks gap) : BehindNamed gap []
  | comma (blank : Blanks gap) (more : List Char) : BehindNamed gap (',' :: more)
  | name {d : Char} (apart : Gap gap) (start : isNameStart d = true) (more : List Char) :
      BehindNamed gap (d :: more)

namespace BehindNamed
variable {gap after : List Char}

theorem blanks (behind : BehindNamed gap after) : Blanks gap := by
  cases behind with
  | nothing blank => exact blank
  | comma blank _ => exact blank
  | name apart _ _ => exact apart.2

theorem ends (behind : BehindNamed gap after) : Ends (gap ++ after) := by
  cases behind with
  | nothing blank => exact .blanks blank trivial
  | comma blank more => exact .blanks blank (.of_head? (by rintro _ ⟨⟩; decide))
  | name apart _ _ => exact apart.ends _

theorem bare (behind : BehindNamed gap after) : ∀ d ∈ after.head?, isBlank d = false := by
  cases behind with
  | nothing _ => exact nofun
  | comma _ _ =>
    rintro _ ⟨⟩
    rfl
  | name _ start _ =>
    rintro _ ⟨⟩
    exact isBlank_of_isNameChar (isNameChar_of_isNameStart start)

theorem no_separator (behind : BehindNamed gap after) {separator : Char}
    (separates : Separates separator) : after.head? ≠ some separator := by
  cases behind with
  | nothing _ => exact nofun
  | comma _ _ =>
    rintro ⟨⟩
    exact separates.single rfl
  | name _ start _ =>
    rintro ⟨⟩
    have other := separates.apart
    rw [isNameChar_of_isNameStart start] at other
    cases other

end BehindNamed

namespace Cursor
variable {c : Cursor} {lead after : List Char}

theorem take_comma (blank : Blanks lead) (rest : c.rest = lead ++ ',' :: after) :
    (c.take [',']).2.rest = after := by
  have cut : c.rest = lead ++ [','] ++ after := by
    rw [rest, List.append_assoc]
    rfl
  obtain ⟨-, moved⟩ := EStateM.Result.ok.inj (reads_take blank rfl after c cut)
  rw [moved, rest_advance cut]

theorem take_no_comma (blank : Blanks lead) (bare : ∀ d ∈ after.head?, isBlank d = false)
    (other : after.head? ≠ some ',') (rest : c.rest = lead ++ after) :
    (c.take [',']).2.rest = after := by
  have here : c.skipBlank.rest = after := by rw [skipBlank_eq blank bare rest, rest_advance rest]
  have absent : ¬ (afterLead? [','] c.skipBlank.rest).isSome = true := by
    intro found
    obtain ⟨more, taken⟩ := Option.isSome_iff_exists.mp found
    rw [here] at taken
    rw [afterLead?_eq_some_iff.mp taken] at other
    exact other rfl
  simp only [take, if_neg absent]
  exact here

theorem readNamed_of_name {separator : Char} {key : String} (name : IsName key.toList)
    (blank : Blanks lead) (stops : ∀ d ∈ after.head?, isNameChar d = false)
    (rest : c.rest = lead ++ (key.toList ++ after)) :
    ∃ mid : Cursor, mid.rest = after ∧ ∀ (fuel : Nat) (given : Option Argument) (later : Cursor),
      readGiven separator c.skipBlank.position mid.skipBlank = .ok given later →
      readNamed separator (fuel + 1) c =
        ((⟨key, given, later.spanFrom c.skipBlank.position⟩ :: ·) <$> readNamed separator fuel)
          (later.take [',']).2 := by
  obtain ⟨d, more, eq⟩ := List.exists_cons_of_ne_nil name.ne_nil
  have bare : ∀ x ∈ (key.toList ++ after).head?, isBlank x = false := by
    rw [eq]
    rintro _ ⟨⟩
    exact isBlank_of_isNameChar (name.2 d (by simp [eq]))
  have here : c.skipBlank.rest = key.toList ++ after := by
    rw [skipBlank_eq blank bare rest, rest_advance rest]
  obtain ⟨mid, found, moved⟩ := identifier_of_word name blanks_nil stops here
  refine ⟨mid, moved, fun fuel given later value => ?_⟩
  have present : c.skipBlank.rest.isEmpty = false := by
    rw [here, eq, List.cons_append, List.isEmpty_cons]
  have skipped : Cursor.blanks c = .ok () c.skipBlank := rfl
  have looked : (get : Reader Cursor) c.skipBlank = .ok c.skipBlank c.skipBlank := rfl
  have skippedAgain : Cursor.blanks mid = .ok () mid.skipBlank := rfl
  rw [readNamed, bind_of_ok skipped, bind_of_ok looked]
  simp only [present, Bool.false_eq_true, if_false]
  rw [bind_of_ok (lift_of_eq found)]
  dsimp only
  rw [bind_of_ok skippedAgain, bind_of_ok value, map_eq_pure_bind]
  rfl

theorem readNamed_blanks {separator : Char} {fuel : Nat} (blank : Blanks c.rest) :
    ∃ later, readNamed separator (fuel + 1) c = .ok [] later ∧ later.rest = [] := by
  have cut : c.rest = c.rest ++ [] := (List.append_nil c.rest).symm
  have here : c.skipBlank.rest = [] := by rw [skipBlank_eq blank (by simp) cut, rest_advance cut]
  have skipped : Cursor.blanks c = .ok () c.skipBlank := rfl
  have looked : (get : Reader Cursor) c.skipBlank = .ok c.skipBlank c.skipBlank := rfl
  refine ⟨c.skipBlank, ?_, here⟩
  rw [readNamed, bind_of_ok skipped, bind_of_ok looked, if_pos (by rw [here]; rfl)]
  rfl

theorem readGiven_none {separator : Char} (other : c.rest.head? ≠ some separator) (start : Nat) :
    readGiven separator start c = .ok none c := by
  have looked : (get : Reader Cursor) c = .ok c c := rfl
  rw [readGiven, bind_of_ok looked, if_neg other]
  rfl

theorem readGiven_some {separator : Char} {e : Expr} {text : List Char} (written : Written e text)
    (blank : Blanks lead) (ends : Ends after)
    (rest : c.rest = separator :: (lead ++ (text ++ after))) (start : Nat) :
    ∃ a later, readGiven separator start c = .ok (some a) later ∧ a.expr = e ∧
      later.rest = after := by
  have first : c.rest = [separator] ++ (lead ++ (text ++ after)) := rest
  have moved : (c.advance 1).rest = lead ++ (text ++ after) := rest_advance first
  obtain ⟨a, later, read, same, reached⟩ := value_of_written written blank ends moved
  have looked : (get : Reader Cursor) c = .ok c c := rfl
  have skipped : skip 1 c = .ok () (c.advance 1) := rfl
  refine ⟨a, later, ?_, same, reached⟩
  rw [readGiven, bind_of_ok looked, if_pos (by rw [rest]; rfl), bind_of_ok skipped, bind_of_ok read]
  rfl

theorem readNamed_cons {separator : Char} {fuel : Nat} {a : NamedArgument}
    {later last : Cursor} {others : List NamedArgument}
    (first : readNamed separator (fuel + 1) c =
      ((a :: ·) <$> readNamed separator fuel) (later.take [',']).2)
    (next : readNamed separator fuel (later.take [',']).2 = .ok others last) :
    readNamed separator (fuel + 1) c = .ok (a :: others) last := by
  rw [first, map_eq_pure_bind, bind_of_ok next]
  rfl

theorem readNamed_of_written {separator : Char} (separates : Separates separator)
    {n : String × Option Expr} {text gap : List Char} (written : WrittenNamed separator n text)
    (blank : Blanks lead) (behind : BehindNamed gap after)
    (rest : c.rest = lead ++ (text ++ (gap ++ after))) (fuel : Nat) :
    ∃ (a : NamedArgument) (later : Cursor) (left : List Char),
      a.said = n ∧ Blanks left ∧ later.rest = left ++ after ∧
      readNamed separator (fuel + 1) c =
        ((a :: ·) <$> readNamed separator fuel) (later.take [',']).2 := by
  cases written with
  | @bare key name =>
    obtain ⟨mid, moved, reads⟩ := readNamed_of_name name blank behind.ends.stops rest
    have here : mid.skipBlank.rest = after := by
      rw [skipBlank_eq behind.blanks behind.bare moved, rest_advance moved]
    have none := readGiven_none (here ▸ behind.no_separator separates) c.skipBlank.position
    exact ⟨_, mid.skipBlank, [], rfl, blanks_nil, here, reads fuel _ _ none⟩
  | @given key e text a b name before next value =>
    simp only [List.append_assoc, List.cons_append] at rest
    have stops : ∀ d ∈ (separator :: (b ++ (text ++ (gap ++ after)))).head?,
        isNameChar d = false := by
      rintro _ ⟨⟩
      exact separates.apart
    obtain ⟨mid, moved, reads⟩ := readNamed_of_name name blank (before.stops stops) rest
    have bare : ∀ d ∈ (separator :: (b ++ (text ++ (gap ++ after)))).head?, isBlank d = false := by
      rintro _ ⟨⟩
      exact separates.solid
    have here : mid.skipBlank.rest = separator :: (b ++ (text ++ (gap ++ after))) := by
      rw [skipBlank_eq before bare moved, rest_advance moved]
    obtain ⟨x, later, read, rfl, reached⟩ :=
      readGiven_some value next behind.ends here c.skipBlank.position
    exact ⟨_, later, gap, rfl, behind.blanks, reached, reads fuel _ _ read⟩

end Cursor

theorem WrittenNamed.starts {separator : Char} {n : String × Option Expr} {text : List Char}
    (written : WrittenNamed separator n text) :
    ∃ d more, text = d :: more ∧ isNameStart d = true := by
  have opens {key : String} (name : IsName key.toList) :
      ∃ d more, key.toList = d :: more ∧ isNameStart d = true := by
    obtain ⟨⟨d, first, start⟩, -⟩ := name
    obtain ⟨more, eq⟩ := List.head?_eq_some_iff.mp first
    exact ⟨d, more, eq, start⟩
  cases written with
  | bare name => exact opens name
  | given name before behind value =>
    obtain ⟨d, more, eq, start⟩ := opens name
    rw [eq]
    exact ⟨d, _, rfl, start⟩

theorem WrittenList.starts {separator : Char} {n : String × Option Expr}
    {rest : List (String × Option Expr)} {text : List Char}
    (written : WrittenList separator (n :: rest) text) :
    ∃ d more, text = d :: more ∧ isNameStart d = true := by
  cases written with
  | last written => exact written.starts
  | blank written apart later =>
    obtain ⟨d, more, rfl, start⟩ := written.starts
    exact ⟨d, _, rfl, start⟩
  | comma written before behind later =>
    obtain ⟨d, more, rfl, start⟩ := written.starts
    exact ⟨d, _, rfl, start⟩

open Cursor

theorem readNamed_of_list {separator : Char} (separates : Separates separator)
    {entries : List (String × Option Expr)} {text trail : List Char}
    (written : WrittenList separator entries text) (trailing : Blanks trail) :
    ∀ {fuel : Nat} {lead : List Char} {c : Cursor}, text.length < fuel → Blanks lead →
      c.rest = lead ++ (text ++ trail) →
      ∃ (found : List NamedArgument) (later : Cursor), found.map NamedArgument.said = entries ∧
        readNamed separator fuel c = .ok found later ∧ later.rest = [] := by
  induction written with
  | nil =>
    intro fuel lead c enough blank rest
    obtain ⟨fuel, rfl⟩ := Nat.exists_eq_add_of_le' (Nat.one_le_of_lt enough)
    have empty : Blanks c.rest := by
      rw [rest]
      exact List.forall_mem_append.mpr ⟨blank, trailing⟩
    obtain ⟨later, read, ended⟩ := readNamed_blanks empty
    exact ⟨[], later, rfl, read, ended⟩
  | last written =>
    intro fuel lead c enough blank rest
    obtain ⟨fuel, rfl⟩ := Nat.exists_eq_add_of_le' (Nat.one_le_of_lt enough)
    obtain ⟨a, later, left, said, leftBlank, reached, first⟩ :=
      readNamed_of_written separates written blank (.nothing trailing)
        (by rwa [List.append_nil]) fuel
    have moved := take_no_comma leftBlank (by simp) (by simp) reached
    -- the argument has a character, so there is a step left to see the end
    obtain ⟨d, more, rfl, -⟩ := written.starts
    obtain ⟨fuel, rfl⟩ :=
      Nat.exists_eq_add_of_le' (Nat.one_le_of_lt (Nat.lt_of_succ_lt_succ enough))
    obtain ⟨last, read, ended⟩ := readNamed_blanks (moved ▸ blanks_nil)
    exact ⟨[a], last, congrArg (· :: []) said, readNamed_cons first read, ended⟩
  | @blank n m others text more gap written apart later ih =>
    intro fuel lead c enough blank rest
    obtain ⟨fuel, rfl⟩ := Nat.exists_eq_add_of_le' (Nat.one_le_of_lt enough)
    simp only [List.length_append, List.append_assoc] at enough rest
    have spent : 0 < gap.length := List.length_pos_iff.mpr apart.1
    obtain ⟨d, name, rfl, start⟩ := later.starts
    have behind : BehindNamed gap (d :: name ++ trail) := .name apart start (name ++ trail)
    obtain ⟨a, stop, left, said, leftBlank, reached, first⟩ :=
      readNamed_of_written separates written blank behind rest fuel
    have moved := take_no_comma leftBlank behind.bare (by
      rintro ⟨⟩
      cases start) reached
    have fewer : (d :: name).length < fuel := by omega
    obtain ⟨found, last, same, read, ended⟩ := ih fewer blanks_nil moved
    exact ⟨a :: found, last, by rw [List.map_cons, said, same], readNamed_cons first read, ended⟩
  | @comma n m others text more b d written before behind later ih =>
    intro fuel lead c enough blank rest
    obtain ⟨fuel, rfl⟩ := Nat.exists_eq_add_of_le' (Nat.one_le_of_lt enough)
    simp only [List.length_append, List.length_cons, List.append_assoc, List.cons_append]
      at enough rest
    obtain ⟨a, stop, left, said, leftBlank, reached, first⟩ :=
      readNamed_of_written separates written blank (.comma before _) rest fuel
    have moved := take_comma leftBlank reached
    have fewer : more.length < fuel := by omega
    obtain ⟨found, last, same, read, ended⟩ := ih fewer behind moved
    exact ⟨a :: found, last, by rw [List.map_cons, said, same], readNamed_cons first read, ended⟩

/-- A list of named arguments has texts when its names are names and its values can be said. Each of
    them, with whatever blanks, is read as this list in its order, up to its end. -/
theorem reading_undoes_writing_lists {separator : Char} (separates : Separates separator)
    (entries : List (String × Option Expr)) :
    ((∀ n ∈ entries, SayableNamed n) ↔ ∃ text, WrittenList separator entries text) ∧
    ∀ text, WrittenList separator entries text → ∀ (c : Cursor) (lead trail : List Char),
      Blanks lead → Blanks trail → c.rest = lead ++ text ++ trail →
        ∃ (found : List NamedArgument) (later : Cursor), found.map NamedArgument.said = entries ∧
          namedArguments separator c = .ok found later ∧ later.rest = [] := by
  have sayable : (∃ text, WrittenList separator entries text) → ∀ n ∈ entries, SayableNamed n := by
    rintro ⟨text, written⟩
    exact written.sayable
  refine ⟨⟨exists_writtenList separator, sayable⟩, ?_⟩
  intro text written c lead trail blank trailing rest
  rw [List.append_assoc] at rest
  have enough : text.length < c.rest.length + 1 := by
    rw [rest]
    simp only [List.length_append]
    omega
  exact readNamed_of_list separates written trailing enough blank rest

def quotedList : List (String × Option Expr) :=
  [("reversed", none), ("limit", some (.path "a" [.name "b"])),
    ("limit", some (.literal (.str "it's")))]

def quotedListText : String := "reversed ,limit\"a.b  limit \" \"it's\""

theorem reading_undoes_writing_lists_quotes :
    Separates '"' ∧ WrittenList '"' quotedList quotedListText.toList ∧
      ∃ (found : List NamedArgument) (later : Cursor), found.map NamedArgument.said = quotedList ∧
        namedArguments '"' ⟨(" " ++ quotedListText ++ " ").toList, 2, 10⟩ = .ok found later ∧
        later.rest = [] := by
  have separates : Separates '"' := ⟨rfl, rfl, by decide⟩
  have limit : IsName "limit".toList := by decide
  have path : Written (.path "a" [.name "b"]) ("a".toList ++ ('.' :: "b".toList ++ [])) :=
    .path (by decide) nofun (.name (by decide) .nil)
  have string : Written (.literal (.str "it's")) ('"' :: "it's".toList ++ ['"']) :=
    .str (.inl rfl) (by decide)
  have flag : WrittenNamed '"' ("reversed", none) "reversed".toList := .bare (by decide)
  have first : WrittenNamed '"' _ ("limit".toList ++ ([] ++ '"' :: ([] ++ _))) :=
    .given limit blanks_nil blanks_nil path
  have second : WrittenNamed '"' _ ("limit".toList ++ ([' '] ++ '"' :: ([' '] ++ _))) :=
    .given limit (by decide) (by decide) string
  have later : WrittenList '"' _ (_ ++ ([' ', ' '] ++ _)) :=
    .blank first (by decide) (.last second)
  have written : WrittenList '"' quotedList (_ ++ ([' '] ++ ',' :: ([] ++ _))) :=
    .comma flag (by decide) blanks_nil later
  have read := (reading_undoes_writing_lists separates quotedList).2 quotedListText.toList written
    ⟨(" " ++ quotedListText ++ " ").toList, 2, 10⟩ [' '] [' '] (by decide) (by decide) (by decide)
  exact ⟨separates, written, read⟩

end Templating
