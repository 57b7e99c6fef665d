import Templating.Proofs.Source.Pieces

namespace Templating

def Token.markup? : Token → Option Markup
  | .text _ => none
  | .output _ => some .output
  | .tag _ => some .tag

def Token.Quotes (source : List Char) : Token → Prop
  | .text x => Stands source x.span.start x.span.stop x.text.toList
  | .output x =>
    Stands source x.offset (x.offset + byteLength x.content.toList) x.content.toList
  | .tag x =>
    Stands source x.span.start x.span.stop x.text.toList ∧
      Stands source x.offset (x.offset + byteLength x.arguments.toList) x.arguments.toList

def Token.TrimsBefore (t : Trimming) (source : List Char) (tok : Token) : Prop :=
  ∃ kind ∈ tok.markup?,
    t.left kind = true ∨ Stands source (tok.span.start + 2) (tok.span.start + 3) ['-']

def Token.TrimsAfter (t : Trimming) (source : List Char) (tok : Token) : Prop :=
  ∃ kind ∈ tok.markup?,
    t.right kind = true ∨
      (tok.span.start + 6 ≤ tok.span.stop ∧
        Stands source (tok.span.stop - 3) (tok.span.stop - 2) ['-'])

namespace Stands
variable {source : List Char} {start stop : Nat}

theorem head_eq {c d : Char} {cs ds : List Char} {stop' : Nat}
    (h : Stands source start stop (c :: cs)) (h' : Stands source start stop' (d :: ds)) :
    c = d := by
  obtain ⟨before, after, rfl, rfl, -⟩ := h
  obtain ⟨before', after', cut, long, -⟩ := h'
  rw [List.append_assoc, List.append_assoc] at cut
  obtain ⟨-, rest⟩ := append_inj_of_byteLength cut long.symm
  exact (List.cons.inj rest).1

theorem last_eq {c d : Char} (cs ds : List Char) {start' : Nat}
    (h : Stands source start stop (cs ++ [c])) (h' : Stands source start' stop (ds ++ [d])) :
    c = d := by
  obtain ⟨before, after, rfl, rfl, stops⟩ := h
  obtain ⟨before', after', cut, rfl, stops'⟩ := h'
  obtain ⟨upTo, -⟩ := append_inj_of_byteLength cut (by simp only [byteLength_append] at *; omega)
  rw [← List.append_assoc, ← List.append_assoc] at upTo
  exact List.singleton_inj.mp (List.append_inj' upTo rfl).2

end Stands

theorem byteLength_markup (kind : Markup) (inside : List Char) :
    byteLength (Piece.markup kind inside).source = byteLength inside + 4 := by
  have closing : byteLength [kind.closing, '\x7d'] = 2 := by cases kind <;> rfl
  have opening : byteLength ['\x7b', kind.opening] = 2 := by cases kind <;> rfl
  have parts : (Piece.markup kind inside).source
      = ['\x7b', kind.opening] ++ inside ++ [kind.closing, '\x7d'] := by simp [Piece.source]
  rw [parts, byteLength_append, byteLength_append, opening, closing]
  omega

theorem inside_eq (inside : List Char) :
    inside = (if beginsWithDash inside then ['-'] else []) ++ withoutDashes inside
      ++ (if endsWithDash inside then ['-'] else []) := by
  have first : inside
      = (if beginsWithDash inside then ['-'] else []) ++ withoutLeadingDash inside := by
    unfold withoutLeadingDash beginsWithDash
    cases inside with
    | nil => rfl
    | cons c rest =>
      by_cases dash : c = '-'
      · simp [dash]
      · simp [dash]
  have last : withoutLeadingDash inside
      = withoutDashes inside ++ (if endsWithDash inside then ['-'] else []) := by
    unfold withoutDashes
    by_cases dash : endsWithDash inside = true
    · have ends : (withoutLeadingDash inside).getLast? = some '-' := by
        simpa [endsWithDash] using dash
      simp only [dash, if_true]
      exact (List.dropLast_append_getLast? _ ends).symm
    · simp [dash]
  calc inside = _ := first
    _ = _ := by rw [List.append_assoc, ← last]

theorem dashed_eq (inside : List Char) (dashed : beginsWithDash inside = true) :
    ∃ rest, inside = '-' :: rest := by
  cases inside with
  | nil => simp [beginsWithDash] at dashed
  | cons c rest => exact ⟨rest, by simpa [beginsWithDash] using dashed⟩

theorem endsWithDash_iff (inside : List Char) :
    endsWithDash inside = true ↔ ∃ init, init ≠ [] ∧ inside = init ++ ['-'] := by
  constructor
  · intro dashed
    have parts := inside_eq inside
    rw [if_pos dashed] at parts
    refine ⟨_, ?_, parts⟩
    intro none
    rw [none] at parts
    subst parts
    exact absurd dashed (by decide)
  · rintro ⟨init, filled, rfl⟩
    cases init with
    | nil => exact absurd rfl filled
    | cons c rest =>
      unfold endsWithDash withoutLeadingDash
      split
      · simp
      · rw [List.getLast?_append]
        simp

theorem Trimming.left_eq (t : Trimming) (kind : Markup) (inside : List Char) :
    (Piece.markup kind inside).trimsLeft t = true ↔
      t.left kind = true ∨ beginsWithDash inside = true := by
  simp only [Piece.trimsLeft, Bool.or_eq_true]
  exact or_comm

structure MarkupAt (source : List Char) (start : Nat) (kind : Markup) (inside : List Char)
    (tok : Token) : Prop where
  markup : tok.markup? = some kind
  span : tok.span = ⟨start, start + byteLength inside + 4⟩
  whole : Stands source tok.span.start tok.span.stop (Piece.markup kind inside).source

namespace MarkupAt
variable {source : List Char} {start : Nat} {kind : Markup} {inside : List Char} {tok : Token}
  {t : Trimming}

theorem opening (h : MarkupAt source start kind inside tok) :
    Stands source (tok.span.start + 2) tok.span.stop (inside ++ [kind.closing, '\x7d']) := by
  have two : byteLength ['\x7b', kind.opening] = 2 := by cases kind <;> rfl
  rw [← two]
  exact h.whole.back ['\x7b', kind.opening] _

theorem closing (h : MarkupAt source start kind inside tok) :
    Stands source tok.span.start (tok.span.stop - 2) ('\x7b' :: kind.opening :: inside) := by
  have two : byteLength [kind.closing, '\x7d'] = 2 := by cases kind <;> rfl
  rw [← two]
  exact h.whole.front ('\x7b' :: kind.opening :: inside) _

theorem trimsBefore_iff (h : MarkupAt source start kind inside tok) :
    tok.TrimsBefore t source ↔ (Piece.markup kind inside).trimsLeft t = true := by
  rw [Trimming.left_eq]
  simp only [Token.TrimsBefore, h.markup, Option.mem_some_iff, exists_eq_left']
  refine or_congr_right ⟨?_, ?_⟩
  · intro dash
    cases inside with
    | nil => exact absurd (dash.head_eq h.opening) (by cases kind <;> decide)
    | cons c rest =>
      have same : '-' = c := dash.head_eq h.opening
      simp [beginsWithDash, ← same]
  · intro dashed
    obtain ⟨rest, rfl⟩ := dashed_eq inside dashed
    have dash := h.opening.front ['-'] (rest ++ [kind.closing, '\x7d'])
    rwa [← dash.stop_eq] at dash

theorem trimsAfter_iff (h : MarkupAt source start kind inside tok) :
    tok.TrimsAfter t source ↔ (endsWithDash inside || t.right kind) = true := by
  have long : tok.span.stop = tok.span.start + byteLength inside + 4 := by rw [h.span]
  rw [Bool.or_eq_true, or_comm, endsWithDash_iff]
  simp only [Token.TrimsAfter, h.markup, Option.mem_some_iff, exists_eq_left']
  refine or_congr_right ⟨?_, ?_⟩
  · rintro ⟨room, dash⟩
    rcases List.eq_nil_or_concat inside with rfl | ⟨init, c, rfl⟩
    · simp only [byteLength] at long
      omega
    · rw [List.concat_eq_append] at *
      have last := h.closing
      rw [← List.cons_append, ← List.cons_append] at last
      have same : '-' = c := Stands.last_eq [] _ dash last
      subst same
      refine ⟨init, ?_, rfl⟩
      rintro rfl
      simp only [List.nil_append, byteLength] at long
      have one : '-'.utf8Size = 1 := rfl
      omega
  · rintro ⟨init, filled, rfl⟩
    have one : byteLength ['-'] = 1 := rfl
    have bytes := byteLength_pos filled
    rw [byteLength_append, one] at long
    refine ⟨by omega, ?_⟩
    have dash := h.closing.back ('\x7b' :: kind.opening :: init) ['-']
    have stops := dash.stop_eq
    rw [one] at stops
    rwa [show tok.span.stop - 3 = tok.span.start + byteLength ('\x7b' :: kind.opening :: init)
      by omega]

theorem said (h : MarkupAt source start kind inside tok) :
    Stands source (tok.span.start + 2 + (if beginsWithDash inside then 1 else 0))
      (tok.span.start + 2 + (if beginsWithDash inside then 1 else 0)
        + byteLength (withoutDashes inside)) (withoutDashes inside) := by
  have opened := h.opening
  rw [inside_eq inside, List.append_assoc, List.append_assoc] at opened
  have part := (opened.back _ _).front _ _
  have dash : byteLength (if beginsWithDash inside then ['-'] else [])
      = if beginsWithDash inside then 1 else 0 := by split <;> rfl
  rw [dash] at part
  rw [part.stop_eq]
  exact part

end MarkupAt

theorem tagToken_eq_ok {inside : List Char} {start : Nat} {span : Span} {x : TagToken}
    (made : tagToken inside start span = .ok x) :
    x.span = span ∧ x.text = delimited .tag inside ∧
      ∃ lead, withoutDashes inside = lead ++ x.arguments.toList ∧
        x.offset = min (start + 2 + (if beginsWithDash inside then 1 else 0) + byteLength lead)
          furthestOffset := by
  simp only [tagToken] at made
  split at made
  · cases made
  · cases made
    refine ⟨rfl, rfl, (withoutDashes inside).takeWhile isBlank
      ++ (trimStart (withoutDashes inside)).takeWhile isTagNameChar, ?_, ?_⟩
    · rw [String.toList_ofList, List.append_assoc, List.takeWhile_append_dropWhile]
      exact (takeWhile_blank_append_trimStart _).symm
    · have blanks := congrArg byteLength (takeWhile_blank_append_trimStart (withoutDashes inside))
      have named : byteLength ((trimStart (withoutDashes inside)).takeWhile isTagNameChar
          ++ (trimStart (withoutDashes inside)).dropWhile isTagNameChar)
          = byteLength (trimStart (withoutDashes inside)) := by
        rw [List.takeWhile_append_dropWhile]
      simp only [byteLength_append] at blanks named ⊢
      congr 1
      omega

theorem markupToken_tag_eq_ok {inside : List Char} {start : Nat} {span : Span} {tok : Token}
    (made : markupToken inside start span .tag = .ok tok) :
    ∃ x, tagToken inside start span = .ok x ∧ tok = .tag x := by
  cases tagged : tagToken inside start span with
  | error e => simp [markupToken, tagged, Except.map] at made
  | ok x => exact ⟨x, rfl, by simpa [markupToken, tagged, Except.map, eq_comm] using made⟩

theorem markupToken_at {source before after inside : List Char} {kind : Markup} {tok : Token}
    (cut : source = before ++ (Piece.markup kind inside).source ++ after)
    (short : byteLength source ≤ furthestOffset)
    (made : markupToken inside (byteLength before)
      (Span.ofRange (byteLength before) (byteLength before + byteLength inside + 4)) kind
        = .ok tok) :
    MarkupAt source (byteLength before) kind inside tok ∧ tok.Quotes source := by
  have long := byteLength_markup kind inside
  have whole : Stands source (byteLength before) (byteLength before + byteLength inside + 4)
      (Piece.markup kind inside).source := ⟨before, after, cut, rfl, by omega⟩
  have fits := whole.within
  rw [Span.ofRange_eq (by omega) (by omega)] at made
  cases kind with
  | output =>
    obtain rfl := Except.ok.inj made
    have placed : MarkupAt source (byteLength before) .output inside (.output
        (outputToken inside (byteLength before)
          ⟨byteLength before, byteLength before + byteLength inside + 4⟩)) := ⟨rfl, rfl, whole⟩
    have said := placed.said
    have ends := said.within
    refine ⟨placed, ?_⟩
    simp only [Token.Quotes, outputToken, Token.span, String.toList_ofList] at said ends ⊢
    rwa [Nat.min_eq_left (by omega)]
  | tag =>
    obtain ⟨x, tagged, rfl⟩ := markupToken_tag_eq_ok made
    obtain ⟨span, text, lead, parts, offset⟩ := tagToken_eq_ok tagged
    have placed : MarkupAt source (byteLength before) .tag inside (.tag x) :=
      ⟨rfl, span, by rw [Token.span, span]; exact whole⟩
    have named := placed.said
    rw [parts] at named
    have arguments := named.back _ _
    have ends := arguments.within
    have stops := arguments.stop_eq
    rw [Token.span, span] at arguments ends stops
    dsimp only at arguments ends stops
    refine ⟨placed, ?_, ?_⟩
    · rw [text, delimited, String.toList_ofList]
      exact placed.whole
    · rw [offset, Nat.min_eq_left (by omega), stops]
      exact arguments

structure Trims (left right : Bool) (lead kept trail : List Char) : Prop where
  lead_blank : ∀ c ∈ lead, isBlank c = true
  trail_blank : ∀ c ∈ trail, isBlank c = true
  lead_nil : left = false → lead = []
  trail_nil : right = false → trail = []
  first : left = true → ∀ c ∈ kept.head?, isBlank c = false
  last : right = true → ∀ c ∈ kept.getLast?, isBlank c = false

theorem trimStart_parts (cs : List Char) (trims : Bool) :
    ∃ lead, cs = lead ++ (if trims then trimStart cs else cs) ∧
      (∀ c ∈ lead, isBlank c = true) ∧ (trims = false → lead = []) := by
  cases trims with
  | false => exact ⟨[], rfl, by simp, fun _ => rfl⟩
  | true =>
    refine ⟨cs.takeWhile isBlank, (takeWhile_blank_append_trimStart cs).symm, ?_, by simp⟩
    intro c member
    exact List.all_eq_true.mp List.all_takeWhile c member

theorem trimEnd_parts (cs : List Char) (trims : Bool) :
    ∃ trail, cs = (if trims then trimEnd cs else cs) ++ trail ∧
      (∀ c ∈ trail, isBlank c = true) ∧ (trims = false → trail = []) := by
  obtain ⟨lead, parts, blank, none⟩ := trimStart_parts cs.reverse trims
  refine ⟨lead.reverse, ?_, by simpa using blank, fun off => by simp [none off]⟩
  have turned := congrArg List.reverse parts
  rw [List.reverse_reverse, List.reverse_append] at turned
  cases trims with
  | false => simpa using turned
  | true => exact turned

theorem trimStart_head? (cs : List Char) : ∀ c ∈ (trimStart cs).head?, isBlank c = false := by
  intro c first
  have kept := List.head?_dropWhile_not isBlank cs
  rw [trimStart] at first
  simpa [Option.mem_def.mp first] using kept

theorem trimEnd_getLast? (cs : List Char) : ∀ c ∈ (trimEnd cs).getLast?, isBlank c = false := by
  intro c last
  rw [trimEnd, List.getLast?_reverse] at last
  exact trimStart_head? cs.reverse c last

theorem textToken_parts (cs : List Char) (start : Nat) (left right : Bool) :
    ∃ lead kept trail, cs = lead ++ kept ++ trail ∧ Trims left right lead kept trail ∧
      textToken cs start left right = if kept.isEmpty then [] else
        [.text ⟨String.ofList kept, Span.ofRange (start + byteLength lead)
          (start + byteLength lead + byteLength kept)⟩] := by
  obtain ⟨led, ledEq⟩ : ∃ led, (if left then trimStart cs else cs) = led := ⟨_, rfl⟩
  obtain ⟨kept, keptEq⟩ : ∃ kept, (if right then trimEnd led else led) = kept := ⟨_, rfl⟩
  obtain ⟨lead, front, leadBlank, leadNil⟩ := trimStart_parts cs left
  obtain ⟨trail, back, trailBlank, trailNil⟩ := trimEnd_parts led right
  rw [ledEq] at front
  rw [keptEq] at back
  refine ⟨lead, kept, trail, ?_, ⟨leadBlank, trailBlank, leadNil, trailNil, ?_, ?_⟩, ?_⟩
  · rw [List.append_assoc, ← back]
    exact front
  · rintro rfl c first
    rw [if_pos rfl] at ledEq
    refine trimStart_head? cs c ?_
    rw [ledEq, back, List.head?_append, Option.mem_def.mp first]
    rfl
  · rintro rfl c last
    rw [if_pos rfl] at keptEq
    exact trimEnd_getLast? led c (keptEq ▸ last)
  · have long : byteLength cs - byteLength led = byteLength lead := by
      have sum := congrArg byteLength front
      rw [byteLength_append] at sum
      omega
    simp only [textToken, ledEq, keptEq, long]

end Templating
