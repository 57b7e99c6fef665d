import Templating.Proofs.Expr.Chains
import Templating.Proofs.Source.RoundTrip
import Templating.Template.Parsing
import Templating.Template.Rendering

namespace Templating

inductive WrittenTest : Test Expr → List Char → Prop where
  | value {e : Expr} {text : List Char} (written : Written e text) : WrittenTest ⟨e, none⟩ text
  | comparison {e f : Expr} {operator : Operator} {first second a b : List Char}
      (left : Written e first) (before : Gap a) (behind : Gap b) (right : Written f second) :
      WrittenTest ⟨e, some (operator, f)⟩ (first ++ (a ++ (operator.text.toList ++ (b ++ second))))

/-- The texts of a chain: `and` or `or` between the tests. -/
inductive WrittenChain : Chain (Test Expr) → List Char → Prop where
  | last {t : Test Expr} {text : List Char} (written : WrittenTest t text) :
      WrittenChain ⟨[], t⟩ text
  | link {t : Test Expr} {c : Connective} {chain : Chain (Test Expr)} {text rest a b : List Char}
      (written : WrittenTest t text) (before : Gap a) (behind : Gap b)
      (later : WrittenChain chain rest) :
      WrittenChain (chain.behind [(t, c)]) (text ++ (a ++ (c.word.toList ++ (b ++ rest))))

namespace Cursor
variable {c : Cursor} {lead after : List Char}

theorem takeWord_of_word (word : String) (name : IsName word.toList) (blank : Blanks lead)
    (stops : ∀ d ∈ after.head?, isNameChar d = false)
    (rest : c.rest = lead ++ (word.toList ++ after)) :
    ∃ later, later.rest = after ∧
      ∀ other, c.takeWord other = if word = other then (true, later) else (false, c) := by
  obtain ⟨later, found, moved⟩ := identifier_of_word name blank stops rest
  refine ⟨later, moved, fun other => ?_⟩
  rw [takeWord, found]

theorem takeWord_of_blanks (blank : Blanks c.rest) (word : String) :
    c.takeWord word = (false, c) := by
  have skipped : c.skipBlank = c.advance c.rest.length :=
    skipBlank_eq blank (by simp) (List.append_nil c.rest).symm
  have empty : (c.advance c.rest.length).rest = [] := rest_advance (List.append_nil c.rest).symm
  simp only [takeWord, identifier, skipped, empty]
  rfl

theorem operator_of_unsigned (unsigned : ∀ d ∈ c.skipBlank.rest.head?, isNameStart d = true) :
    c.operator = ((if (c.skipBlank.takeWord "contains").1 then some .contains else none),
      (c.skipBlank.takeWord "contains").2) := by
  have spelt : ∀ o ∈ signs, o.text.toList.head?.map isNameStart = some false := by decide
  have none : signs.find? (fun o => (afterLead? o.text.toList c.skipBlank.rest).isSome) = none := by
    refine List.find?_eq_none.mpr fun o member found => ?_
    obtain ⟨more, taken⟩ := Option.isSome_iff_exists.mp found
    obtain ⟨d, first, sign⟩ := Option.map_eq_some_iff.mp (spelt o member)
    have ahead : d ∈ c.skipBlank.rest.head? := by
      rw [afterLead?_eq_some_iff.mp taken, List.head?_append, first]
      rfl
    rw [unsigned d ahead] at sign
    cases sign
  simp only [operator, none]
  cases c.skipBlank.takeWord "contains" with
  | mk taken later => cases taken <;> rfl

theorem find?_sign {o : Operator} (sign : o ∈ signs) {d : Char} (blank : isBlank d = true)
    (cs : List Char) : signs.find? (fun p => (afterLead? p.text.toList
      (o.text.toList ++ d :: cs)).isSome) = some o := by
  have equal : d ≠ '=' := ne_of_isBlank blank rfl
  have above : d ≠ '>' := ne_of_isBlank blank rfl
  cases o <;> simp [signs, Operator.text, afterLead?, equal.symm, above.symm] at sign ⊢

theorem operator_of_text (o : Operator) {gap : List Char} (blank : Blanks lead) (apart : Gap gap)
    (rest : c.rest = lead ++ (o.text.toList ++ (gap ++ after))) :
    ∃ later, c.operator = (some o, later) ∧ later.rest = gap ++ after := by
  have bare : ∀ d ∈ (o.text.toList ++ (gap ++ after)).head?, isBlank d = false := by
    cases o <;> · rintro _ ⟨⟩; rfl
  have skipped := skipBlank_eq blank bare rest
  have here : (c.advance lead.length).rest = o.text.toList ++ (gap ++ after) := rest_advance rest
  obtain ⟨d, more, eq⟩ := List.exists_cons_of_ne_nil apart.1
  by_cases sign : o ∈ signs
  · have blank : isBlank d = true := apart.2 d (by simp [eq])
    have found := find?_sign sign blank (more ++ after)
    refine ⟨_, ?_, rest_advance here⟩
    simp only [operator, skipped, here, eq, List.cons_append, found, String.length_toList]
  · obtain rfl : o = .contains := by cases o <;> first | rfl | exact absurd (by decide) sign
    obtain ⟨later, moved, taken⟩ := takeWord_of_word "contains" (by decide) blanks_nil
      (apart.ends after).stops here
    refine ⟨later, ?_, moved⟩
    rw [operator_of_unsigned, skipped, taken]
    · rfl
    · rw [skipped, here]
      rintro _ ⟨⟩
      rfl

theorem operator_of_none (c : Cursor)
    (bare : c.skipBlank.rest = [] ∨ ∃ (link : Connective) (more : List Char),
      c.skipBlank.rest = link.word.toList ++ more ∧ ∀ d ∈ more.head?, isNameChar d = false) :
    c.operator = (none, c.skipBlank) := by
  have other : c.skipBlank.takeWord "contains" = (false, c.skipBlank) := by
    rcases bare with empty | ⟨link, more, here, stops⟩
    · exact takeWord_of_blanks (empty ▸ blanks_nil) "contains"
    · obtain ⟨later, -, taken⟩ := takeWord_of_word link.word (by cases link <;> decide)
        blanks_nil stops here
      rw [taken, if_neg (by cases link <;> decide)]
  rw [operator_of_unsigned, other]
  · rfl
  · rcases bare with empty | ⟨link, more, here, -⟩
    · simp [empty]
    · rw [here]
      cases link <;> · rintro _ ⟨⟩; rfl

end Cursor

inductive BehindTest (gap : List Char) : List Char → Prop where
  | nothing (blank : Blanks gap) : BehindTest gap []
  | connective {c : Connective} {b more : List Char} (before : Gap gap) (behind : Gap b) :
      BehindTest gap (c.word.toList ++ (b ++ more))

namespace BehindTest
variable {gap after : List Char}

theorem blanks (behind : BehindTest gap after) : Blanks gap := by
  cases behind with
  | nothing blank => exact blank
  | connective before _ => exact before.2

theorem ends (behind : BehindTest gap after) : Ends (gap ++ after) := by
  cases behind with
  | nothing blank => exact .blanks blank trivial
  | connective before _ => exact before.ends _

theorem no_operator (behind : BehindTest gap after) {c : Cursor} (rest : c.rest = gap ++ after) :
    c.operator = (none, c.skipBlank) ∧ c.skipBlank.rest = after := by
  have bare : ∀ d ∈ after.head?, isBlank d = false := by
    cases behind with
    | nothing _ => simp
    | @connective link _ _ _ _ => cases link <;> · rintro _ ⟨⟩; rfl
  have moved : c.skipBlank.rest = after := by
    rw [Cursor.skipBlank_eq behind.blanks bare rest, Cursor.rest_advance rest]
  refine ⟨Cursor.operator_of_none c ?_, moved⟩
  cases behind with
  | nothing _ => exact .inl moved
  | @connective link b more _ apart => exact .inr ⟨link, b ++ more, moved, (apart.ends more).stops⟩

end BehindTest

open Cursor (bind_of_ok lift_of_eq value_of_written operator_of_text takeWord_of_word
  takeWord_of_blanks)

theorem readTest_of_written {t : Test Expr} {text : List Char} (written : WrittenTest t text)
    {lead gap after : List Char} (blank : Blanks lead) (behind : BehindTest gap after) {c : Cursor}
    (rest : c.rest = lead ++ (text ++ (gap ++ after))) :
    ∃ (found : Test Argument) (later : Cursor) (left : List Char),
      found.map Argument.expr = t ∧ readTest c = .ok (some found.condition) later ∧
      Blanks left ∧ later.rest = left ++ after := by
  cases written with
  | value written =>
    obtain ⟨a, later, read, rfl, moved⟩ := value_of_written written blank behind.ends rest
    obtain ⟨alone, passed⟩ := behind.no_operator moved
    refine ⟨⟨a, none⟩, later.skipBlank, [], rfl, ?_, blanks_nil, passed⟩
    rw [readTest, bind_of_ok read]
    exact bind_of_ok (lift_of_eq alone)
  | @comparison e f operator first second a b left before next right =>
    simp only [List.append_assoc] at rest
    obtain ⟨x, atSign, read, rfl, moved⟩ := value_of_written left blank (before.ends _) rest
    obtain ⟨behindSign, sign, passed⟩ := operator_of_text operator before.2 next moved
    obtain ⟨y, later, readNext, rfl, reached⟩ :=
      value_of_written right next.2 behind.ends passed
    refine ⟨⟨x, some (operator, y)⟩, later, gap, rfl, ?_, behind.blanks, reached⟩
    rw [readTest, bind_of_ok read]
    refine (bind_of_ok (lift_of_eq sign)).trans ?_
    exact bind_of_ok readNext

theorem readChain_of_written {chain : Chain (Test Expr)} {text : List Char}
    (written : WrittenChain chain text) {trail : List Char} (trailing : Blanks trail) :
    ∀ {fuel : Nat} {lead : List Char} {c : Cursor}, text.length < fuel → Blanks lead →
      c.rest = lead ++ (text ++ trail) →
      ∃ (found : Chain (Test Argument)) (later : Cursor),
        found.map (Test.map Argument.expr) = chain ∧
        readChain fuel c = .ok (some found.condition) later ∧ Blanks later.rest := by
  induction written with
  | last written =>
    intro fuel lead c enough blank rest
    obtain ⟨fuel, rfl⟩ := Nat.exists_eq_add_of_le' (Nat.one_le_of_lt enough)
    obtain ⟨found, later, left, same, read, blank, moved⟩ :=
      readTest_of_written written blank (.nothing trailing) (by rwa [List.append_nil])
    rw [List.append_nil] at moved
    refine ⟨⟨[], found⟩, later, congrArg (Chain.mk []) same, ?_, moved ▸ blank⟩
    have stays (word : String) : Cursor.lift (Cursor.takeWord word) later = .ok false later :=
      lift_of_eq (takeWord_of_blanks (moved ▸ blank) word)
    rw [readChain, bind_of_ok read]
    refine (bind_of_ok (stays "and")).trans ?_
    exact bind_of_ok (stays "or")
  | @link t link chain text more a b written before behind _ ih =>
    intro fuel lead c enough blank rest
    obtain ⟨fuel, rfl⟩ := Nat.exists_eq_add_of_le' (Nat.one_le_of_lt enough)
    -- a test alone is read with the blanks behind it, so some of them may be left, or none
    have spent : 0 < a.length := List.length_pos_iff.mpr before.1
    simp only [List.length_append] at enough
    simp only [List.append_assoc] at rest
    obtain ⟨first, atWord, left, rfl, read, leftBlank, moved⟩ :=
      readTest_of_written written blank (.connective before behind) rest
    obtain ⟨onward, passed, taken⟩ := takeWord_of_word link.word (by cases link <;> decide)
      leftBlank (behind.ends _).stops moved
    have fewer : more.length < fuel := by omega
    obtain ⟨others, later, rfl, readOthers, empty⟩ := ih fewer behind.2 passed
    refine ⟨others.behind [(first, link)], later, rfl, ?_, empty⟩
    rw [readChain, bind_of_ok read]
    cases link with
    | and =>
      refine (bind_of_ok (lift_of_eq (taken "and"))).trans ?_
      exact bind_of_ok readOthers
    | or =>
      refine (bind_of_ok (lift_of_eq (taken "and"))).trans ?_
      refine (bind_of_ok (lift_of_eq (taken "or"))).trans ?_
      exact bind_of_ok readOthers

theorem read_condition {chain : Chain (Test Expr)} {text lead trail : List Char}
    (written : WrittenChain chain text) (blank : Blanks lead) (trailing : Blanks trail)
    {t : TagToken} (header : t.arguments.toList = lead ++ (text ++ trail)) :
    ∃ found : Chain (Test Argument), found.map (Test.map Argument.expr) = chain ∧
      t.read readCondition = .ok found.condition := by
  let c := Cursor.ofText t.arguments t.offset
  have enough : text.length < c.rest.length + 1 := by
    change text.length < t.arguments.toList.length + 1
    rw [header]
    simp only [List.length_append]
    omega
  obtain ⟨found, later, same, read, empty⟩ :=
    readChain_of_written written trailing (c := c) enough blank header
  refine ⟨found, same, ?_⟩
  have ended : readEnd later = .ok true later := by
    have trimmed : trimStart later.rest = [] := List.dropWhile_eq_nil_iff.mpr empty
    exact lift_of_eq (by rw [Cursor.atEnd, trimmed]; rfl)
  have done : readCondition c = .ok (some found.condition) later := by
    have looked : (get : Cursor.Reader Cursor) c = .ok c c := rfl
    rw [readCondition, bind_of_ok looked]
    refine (bind_of_ok read).trans ?_
    exact bind_of_ok ended
  exact TagToken.read_eq_ok.mpr ⟨later, done⟩

inductive Refused : List (Condition × List Node) → Moment → Moment → Prop where
  | nil {m : Moment} : Refused [] m m
  | cons {c : Condition} {nodes : List Node} {rest : List (Condition × List Node)}
      {m next last : Moment} (ran : c.evaluate.drive m = ⟨.finished false, next⟩)
      (later : Refused rest next last) : Refused ((c, nodes) :: rest) m last

/-- How a choice runs: conditions are false in turn, until one is true and its nodes are rendered,
    or one has no result, or there are none left and the nodes that stand for that are rendered. -/
inductive FirstTrue (branches : List (Condition × List Node)) (otherwise : List Node)
    (m : Moment) : Halt Unit → Prop where
  | taken {before later : List (Condition × List Node)} {c : Condition} {nodes : List Node}
      {reached inside : Moment} (cut : branches = before ++ (c, nodes) :: later)
      (refused : Refused before m reached)
      (holds : c.evaluate.drive reached = ⟨.finished true, inside⟩) :
      FirstTrue branches otherwise m ((renderAll nodes).drive inside)
  | failed {before later : List (Condition × List Node)} {c : Condition} {nodes : List Node}
      {reached last : Moment} {e : EvalError} (cut : branches = before ++ (c, nodes) :: later)
      (refused : Refused before m reached) (fails : c.evaluate.drive reached = ⟨.failed e, last⟩) :
      FirstTrue branches otherwise m ⟨.failed e, last⟩
  | unfinished {before later : List (Condition × List Node)} {c : Condition} {nodes : List Node}
      {reached last : Moment} (cut : branches = before ++ (c, nodes) :: later)
      (refused : Refused before m reached)
      (waits : c.evaluate.drive reached = ⟨.unfinished, last⟩) :
      FirstTrue branches otherwise m ⟨.unfinished, last⟩
  | none {reached : Moment} (refused : Refused branches m reached) :
      FirstTrue branches otherwise m ((renderAll otherwise).drive reached)

theorem FirstTrue.later {branches : List (Condition × List Node)} {otherwise nodes : List Node}
    {c : Condition} {m next : Moment} {h : Halt Unit}
    (ran : c.evaluate.drive m = ⟨.finished false, next⟩)
    (later : FirstTrue branches otherwise next h) :
    FirstTrue ((c, nodes) :: branches) otherwise m h := by
  cases later with
  | taken cut refused holds => exact .taken (congrArg _ cut) (.cons ran refused) holds
  | failed cut refused fails => exact .failed (congrArg _ cut) (.cons ran refused) fails
  | unfinished cut refused waits => exact .unfinished (congrArg _ cut) (.cons ran refused) waits
  | none refused => exact .none (.cons ran refused)

theorem renderBranches_first (branches : List (Condition × List Node)) (otherwise : List Node)
    (m : Moment) :
    FirstTrue branches otherwise m ((renderBranches (renderAll otherwise) branches).drive m) := by
  induction branches generalizing m with
  | nil => exact .none .nil
  | cons branch rest ih =>
    obtain ⟨c, nodes⟩ := branch
    rw [renderBranches, Task.drive_bind]
    generalize ran : c.evaluate.drive m = h
    obtain ⟨ending, next⟩ := h
    cases ending with
    | finished v =>
      cases v with
      | true => exact .taken rfl .nil ran
      | false => exact .later ran (ih next)
    | failed e => exact .failed rfl .nil ran
    | unfinished => exact .unfinished rfl .nil ran

/-- Where an `if` or `elsif` says a chain of tests, it is read, and its condition evaluates to the
    right fold of the chain, by no more tests than that takes; and of the branches there are in the
    end the first one is rendered whose condition is true, and those behind it are not tried. -/
theorem chain_header_folds_right {chain : Chain (Test Expr)} {text lead trail : List Char}
    (written : WrittenChain chain text) (blank : Blanks lead) (trailing : Blanks trail)
    (t : TagToken) (header : t.arguments.toList = lead ++ (text ++ trail)) :
    ∃ condition : Condition,
      (∀ (tags : TagSet) (o : Options) (p : Parse), t.name = "if" →
        tags.find? "if" = some .choice → (∀ b ∈ p.blocks.head?, b.claims "if" = false) →
          p.tag tags o t = .ok (p.push (.choice t [] condition [] none))) ∧
      (∀ (tags : TagSet) (o : Options) (p : Parse) (opener : TagToken)
        (closed : List (Condition × List Node)) (before : Condition) (nodes : List Node)
        (outer : List Block), t.name = "elsif" →
        p.blocks = .choice opener closed before nodes none :: outer →
          p.tag tags o t = .ok ⟨p.nodes,
            .choice opener ((before, nodes.reverse) :: closed) condition [] none :: outer⟩) ∧
      (∀ m, chain.Folds m (condition.evaluate.drive m)) ∧
      ∀ (branches : List (Condition × List Node)) (otherwise : List Node) (span : Span)
        (m : Moment), FirstTrue branches otherwise m
          ((Node.choice branches otherwise span).render.drive m) := by
  obtain ⟨found, rfl, read⟩ := read_condition written blank trailing header
  refine ⟨found.condition, ?_, ?_, Chain.condition_folds found,
    fun branches otherwise _ => renderBranches_first branches otherwise⟩
  · intro tags o p named known free
    have opened : p.freeTag tags o t = .ok (p.push (.choice t [] found.condition [] none)) := by
      simp only [Parse.freeTag, named, known, Parse.openTag, read]
      rfl
    unfold Parse.tag
    split
    · exact opened
    · rename_i b rest top
      rw [named, free b (by simp [top])]
      exact opened
  · intro tags o p opener closed before nodes outer named top
    simp [Parse.tag, top, Block.claims, Block.mark, named, read, bind, Except.bind, pure,
      Except.pure]

def keywordTests : Chain (Test Expr) :=
  ⟨[(⟨.path "or" [], none⟩, .or), (⟨.path "and" [], some (.contains, .path "contains" [])⟩, .and)],
    ⟨.path "p" [], none⟩⟩

theorem chain_header_folds_right_keywords :
    let header (name : String) : TagToken :=
      ⟨name, "or or and contains contains and p ", 6, ⟨0, 43⟩, ""⟩
    let opener : Parse := ⟨[], [.choice (header "if") [] (.test ⟨.literal .nil, "nil", ⟨0, 0⟩⟩ none)
      [] none]⟩
    (∃ condition : Condition,
      Parse.start.tag .builtins default (header "if")
        = .ok ⟨[], [.choice (header "if") [] condition [] none]⟩ ∧
      ∀ m, keywordTests.Folds m (condition.evaluate.drive m)) ∧
    ∃ (condition before : Condition),
      opener.tag .builtins default (header "elsif")
        = .ok ⟨[], [.choice (header "if") [(before, [])] condition [] none]⟩ ∧
      ∀ m, keywordTests.Folds m (condition.evaluate.drive m) := by
  intro header opener
  have named (word : String) (name : IsName word.toList) (other : word ∉ keywords) :
      Written (.path word []) word.toList := by
    rw [← List.append_nil word.toList]
    exact .path name (fun _ => other) .nil
  have blank : Gap [' '] := by decide
  have holds : WrittenTest ⟨.path "and" [], some (.contains, .path "contains" [])⟩ _ :=
    .comparison (named "and" (by decide) (by decide)) blank blank
      (named "contains" (by decide) (by decide))
  have pending := WrittenChain.last (.value (named "p" (by decide) (by decide)))
  have written : WrittenChain keywordTests _ :=
    .link (.value (named "or" (by decide) (by decide))) blank blank
      (.link holds blank blank pending)
  obtain ⟨condition, opens, -, folds, -⟩ :=
    chain_header_folds_right written blanks_nil blank.2 (header "if") (by decide)
  obtain ⟨other, -, marks, foldsToo, -⟩ :=
    chain_header_folds_right written blanks_nil blank.2 (header "elsif") (by decide)
  exact ⟨⟨condition, opens .builtins default .start rfl rfl nofun, folds⟩,
    other, _, marks .builtins default opener _ _ _ _ _ rfl rfl, foldsToo⟩

end Templating
