import Templating.Proofs.Source.Layout

/-!
Nothing of a source is lost in its tokens but blanks that were trimmed away.
-/
namespace Templating

def Token.Covers (tok : Token) (position : Nat) : Prop :=
  tok.span.start ≤ position ∧ position < tok.span.stop

def Token.TrimsAway (t : Trimming) (source : List Char) (start : Nat) (c : Char) (tok : Token) :
    Prop :=
  ∃ gap : List Char, (∀ d ∈ gap, isBlank d = true) ∧
    ((tok.TrimsBefore t source ∧ Stands source start tok.span.start (c :: gap)) ∨
      (tok.TrimsAfter t source ∧ Stands source tok.span.stop (start + c.utf8Size) (gap ++ [c])))

structure Joined (t : Trimming) (source : List Char) (a b : Token) : Prop where
  apart : a.markup? ≠ none ∨ b.markup? ≠ none
  kept_end : ∀ x, a = .text x → b.TrimsBefore t source →
    ∀ c ∈ x.text.toList.getLast?, isBlank c = false
  kept_start : ∀ x, b = .text x → a.TrimsAfter t source →
    ∀ c ∈ x.text.toList.head?, isBlank c = false

theorem tokensFrom_text_eq_ok {t : Trimming} {start : Nat} {trims : Bool} {cs : List Char}
    {rest : List Piece} {ts : List Token}
    (made : tokensFrom t start trims (.text cs :: rest) = .ok ts) :
    ∃ later, tokensFrom t (start + byteLength cs) false rest = .ok later ∧
      ts = textToken cs start trims ((rest.head?.map (·.trimsLeft t)).getD false) ++ later := by
  rw [tokensFrom] at made
  cases found : tokensFrom t (start + byteLength cs) false rest with
  | error e => simp [found, bind, Except.bind] at made
  | ok later =>
    refine ⟨later, rfl, ?_⟩
    simpa [found, bind, Except.bind, pure, Except.pure, eq_comm] using made

theorem tokensFrom_markup_eq_ok {t : Trimming} {start : Nat} {trims : Bool} {kind : Markup}
    {inside : List Char} {rest : List Piece} {ts : List Token}
    (made : tokensFrom t start trims (.markup kind inside :: rest) = .ok ts) :
    ∃ tok later,
      markupToken inside start (Span.ofRange start (start + byteLength inside + 4)) kind
        = .ok tok ∧
      tokensFrom t (start + byteLength inside + 4) (endsWithDash inside || t.right kind) rest
        = .ok later ∧ ts = tok :: later := by
  rw [tokensFrom] at made
  generalize Span.ofRange start (start + byteLength inside + 4) = span at made ⊢
  cases token : markupToken inside start span kind with
  | error e => simp [token, bind, Except.bind] at made
  | ok tok =>
    cases found : tokensFrom t (start + byteLength inside + 4)
        (endsWithDash inside || t.right kind) rest with
    | error e => simp [token, found, bind, Except.bind] at made
    | ok later =>
      exact ⟨tok, later, rfl, rfl, by
        simpa [token, found, bind, Except.bind, pure, Except.pure, eq_comm] using made⟩

def Lost (t : Trimming) (source before : List Char) (trims : Bool) (ts : List Token)
    (b : List Char) (c : Char) : Prop :=
  isBlank c = true ∧ ((∃ tok ∈ ts, tok.TrimsAway t source (byteLength (before ++ b)) c) ∨
    (trims = true ∧ ∀ d ∈ b, isBlank d = true))

/-- The tokens `ts` of the pieces `ps` of a source, of which `before` comes first. `trims` says
    whether the markup at the end of that trims what follows it. -/
structure Laid (t : Trimming) (source before : List Char) (trims : Bool) (ps : List Piece)
    (ts : List Token) : Prop where
  spans : ∀ tok ∈ ts, byteLength before ≤ tok.span.start ∧ tok.span.start < tok.span.stop ∧
    ∃ whole, Stands source tok.span.start tok.span.stop whole
  ordered : ts.Pairwise fun a b => a.span.stop ≤ b.span.start
  quotes : ∀ tok ∈ ts, tok.Quotes source
  plain : ∀ x, Token.text x ∈ ts → Plain x.text.toList
  joined : ts.IsChain (Joined t source)
  gaps : ∀ b c a position, sourceOf ps = b ++ c :: a →
    byteLength (before ++ b) ≤ position → position < byteLength (before ++ b) + c.utf8Size →
    (∀ tok ∈ ts, ¬ tok.Covers position) → Lost t source before trims ts b c
  first_text : ∀ x, ts.head? = some (.text x) → trims = true →
    ∀ c ∈ x.text.toList.head?, isBlank c = false
  exhausted : ps = [] → ts = []
  first_markup : ∀ kind inside later, ps = .markup kind inside :: later →
    ∃ tok, ts.head? = some tok ∧ MarkupAt source (byteLength before) kind inside tok

namespace Laid
variable {t : Trimming} {source before : List Char} {trims : Bool} {rest : List Piece}
  {ts : List Token}

theorem nil : Laid t source before trims [] [] where
  spans := by simp
  ordered := .nil
  quotes := by simp
  plain := by simp
  joined := .nil
  gaps b c a _ cut := by simp [sourceOf] at cut
  first_text := by simp
  exhausted _ := rfl
  first_markup := by simp

theorem cut_cases {front later b a : List Char} {c : Char} (cut : front ++ later = b ++ c :: a) :
    (∃ more, front = b ++ c :: more) ∨ ∃ more, b = front ++ more ∧ later = more ++ c :: a := by
  rcases List.append_eq_append_iff.mp cut with ⟨more, rfl, rest⟩ | ⟨more, rfl, rest⟩
  · exact .inr ⟨more, rfl, rest⟩
  · cases more with
    | nil => exact .inr ⟨[], by simp, by simpa using rest.symm⟩
    | cons d more =>
      obtain ⟨rfl, -⟩ := List.cons.inj rest
      exact .inl ⟨more, rfl⟩

section
variable {front : List Char} {trimming : Bool}

theorem behind (h : Laid t source (before ++ front) trimming rest ts) :
    ∀ tok ∈ ts, byteLength before + byteLength front ≤ tok.span.start ∧
      tok.span.start < tok.span.stop ∧
      ∃ whole, Stands source tok.span.start tok.span.stop whole := by
  rw [← byteLength_append]
  exact h.spans

theorem spans_cons (h : Laid t source (before ++ front) trimming rest ts) (tok : Token)
    (starts : byteLength before ≤ tok.span.start) (filled : tok.span.start < tok.span.stop)
    (stops : tok.span.stop ≤ byteLength before + byteLength front)
    {whole : List Char} (stands : Stands source tok.span.start tok.span.stop whole) :
    (∀ u ∈ tok :: ts, byteLength before ≤ u.span.start ∧ u.span.start < u.span.stop ∧
      ∃ whole, Stands source u.span.start u.span.stop whole) ∧
    (tok :: ts).Pairwise fun a b => a.span.stop ≤ b.span.start := by
  constructor
  · rw [List.forall_mem_cons]
    refine ⟨⟨starts, filled, whole, stands⟩, ?_⟩
    intro u later
    obtain ⟨behind, placed⟩ := h.behind u later
    exact ⟨by omega, placed⟩
  · refine List.pairwise_cons.mpr ⟨?_, h.ordered⟩
    intro u later
    have behind := (h.behind u later).1
    omega

end

theorem lost_behind_markup {kind : Markup} {inside : List Char} {tok : Token}
    (cut : source = before ++ (Piece.markup kind inside).source ++ sourceOf rest)
    (placed : MarkupAt source (byteLength before) kind inside tok) {more a : List Char} {c : Char}
    (later : sourceOf rest = more ++ c :: a)
    (lost : Lost t source (before ++ (Piece.markup kind inside).source)
      (endsWithDash inside || t.right kind) ts more c) :
    Lost t source before trims (tok :: ts) ((Piece.markup kind inside).source ++ more) c := by
  have long := byteLength_markup kind inside
  have stop : tok.span.stop = byteLength before + (byteLength inside + 4) := by
    rw [placed.span, Nat.add_assoc]
  unfold Lost at lost ⊢
  rw [← List.append_assoc]
  obtain ⟨blank, ⟨u, member, away⟩ | ⟨trimming, between⟩⟩ := lost
  · exact ⟨blank, .inl ⟨u, List.mem_cons_of_mem tok member, away⟩⟩
  · refine ⟨blank, .inl ⟨tok, List.mem_cons_self, more, between, .inr ⟨?_, ?_⟩⟩⟩
    · exact placed.trimsAfter_iff.mpr trimming
    · refine ⟨before ++ (Piece.markup kind inside).source, a, ?_, ?_, ?_⟩
      · rw [cut, later]
        simp only [List.append_assoc, List.cons_append, List.nil_append]
      · rw [byteLength_append]
        omega
      · simp only [byteLength_append, byteLength]
        omega

theorem markup {kind : Markup} {inside : List Char} {tok : Token}
    (cut : source = before ++ (Piece.markup kind inside).source ++ sourceOf rest)
    (placed : MarkupAt source (byteLength before) kind inside tok) (quotes : tok.Quotes source)
    (h : Laid t source (before ++ (Piece.markup kind inside).source)
      (endsWithDash inside || t.right kind) rest ts) :
    Laid t source before trims (.markup kind inside :: rest) (tok :: ts) := by
  have long := byteLength_markup kind inside
  have start : tok.span.start = byteLength before := by rw [placed.span]
  have stop : tok.span.stop = byteLength before + (byteLength inside + 4) := by
    rw [placed.span, Nat.add_assoc]
  have notText : ∀ x, tok ≠ .text x := by
    rintro x rfl
    exact absurd placed.markup (by simp [Token.markup?])
  obtain ⟨spans, ordered⟩ := h.spans_cons tok (by omega) (by omega) (by omega) placed.whole
  refine ⟨spans, ordered, List.forall_mem_cons.mpr ⟨quotes, h.quotes⟩, ?_, ?_, ?_, ?_, by simp, ?_⟩
  · intro x member
    rcases List.mem_cons.mp member with same | later
    · exact absurd same.symm (notText x)
    · exact h.plain x later
  · refine List.isChain_cons.mpr ⟨?_, h.joined⟩
    intro u first
    refine ⟨.inl (by simp [placed.markup]), ?_, ?_⟩
    · intro x same
      exact absurd same (notText x)
    · rintro x rfl trimming
      exact h.first_text x first (placed.trimsAfter_iff.mp trimming)
  · intro b c a position parts low high outside
    rw [sourceOf_cons] at parts
    rw [List.forall_mem_cons] at outside
    rcases cut_cases parts with ⟨more, whole⟩ | ⟨more, rfl, later⟩
    · -- The character is one of the markup, which its token covers.
      have sum := congrArg byteLength whole
      simp only [byteLength_append, byteLength] at sum low high
      exact absurd ⟨by omega, by omega⟩ outside.1
    · rw [← List.append_assoc] at low high
      exact lost_behind_markup cut placed later (h.gaps more c a position later low high outside.2)
  · intro x first
    exact absurd (Option.some.inj first) (notText x)
  · intro kind' inside' later same
    obtain ⟨⟨rfl, rfl⟩, -⟩ : (kind = kind' ∧ inside = inside') ∧ rest = later := by simpa using same
    exact ⟨tok, rfl, placed⟩

theorem trimmed_away {cs lead kept trail : List Char} {trimsEnd : Bool}
    (cut : source = before ++ cs ++ sourceOf rest) (parts : cs = lead ++ kept ++ trail)
    (trimmed : Trims trims trimsEnd lead kept trail)
    (follows : trimsEnd = true → ∃ tok ∈ ts, tok.TrimsBefore t source ∧
      tok.span.start = byteLength (before ++ cs))
    {b more : List Char} {c : Char} {position : Nat} (here : cs = b ++ c :: more)
    (low : byteLength (before ++ b) ≤ position)
    (high : position < byteLength (before ++ b) + c.utf8Size)
    (outside : ¬ (byteLength before + byteLength lead ≤ position ∧
      position < byteLength before + byteLength lead + byteLength kept)) :
    Lost t source before trims ts b c := by
  rw [parts, List.append_assoc] at here
  rcases cut_cases here with ⟨m, leading⟩ | ⟨m, behind, later⟩
  · have blank := trimmed.lead_blank
    simp only [leading, List.forall_mem_append, List.forall_mem_cons] at blank
    refine ⟨blank.2.1, .inr ⟨?_, blank.1⟩⟩
    by_contra off
    have none := trimmed.lead_nil (by simpa using off)
    simp [none] at leading
  · rcases cut_cases later with ⟨n, keeping⟩ | ⟨n, further, trailing⟩
    · have sum := congrArg byteLength keeping
      simp only [behind, byteLength_append, byteLength] at sum low high
      exact absurd ⟨by omega, by omega⟩ outside
    · have blank := trimmed.trail_blank
      simp only [trailing, List.forall_mem_append, List.forall_mem_cons] at blank
      have trimming : trimsEnd = true := by
        by_contra off
        have none := trimmed.trail_nil (by simpa using off)
        simp [none] at trailing
      obtain ⟨tok, member, trims, start⟩ := follows trimming
      refine ⟨blank.2.1, .inl ⟨tok, member, more, blank.2.2, .inl ⟨trims, ?_⟩⟩⟩
      have whole : cs = b ++ c :: more := by rw [parts, List.append_assoc, here]
      refine ⟨before ++ b, sourceOf rest, ?_, rfl, ?_⟩
      · rw [cut, whole]
        simp only [List.append_assoc, List.cons_append]
      · rw [start, whole]
        simp only [byteLength_append, byteLength]
        omega

theorem first_token (h : Laid t source before trims rest ts)
    (markups : ∀ p later, rest = p :: later → ∃ kind inside, p = .markup kind inside) :
    (∀ tok, ts.head? = some tok → tok.markup? ≠ none ∧
      (tok.TrimsBefore t source ↔ (rest.head?.map (·.trimsLeft t)).getD false = true)) ∧
    ((rest.head?.map (·.trimsLeft t)).getD false = true →
      ∃ tok ∈ ts, tok.TrimsBefore t source ∧ tok.span.start = byteLength before) := by
  cases rest with
  | nil => simp [h.exhausted rfl]
  | cons p later =>
    obtain ⟨kind, inside, rfl⟩ := markups p later rfl
    obtain ⟨tok, first, placed⟩ := h.first_markup kind inside later rfl
    constructor
    · intro other same
      obtain rfl : tok = other := Option.some.inj (first.symm.trans same)
      exact ⟨by simp [placed.markup], placed.trimsBefore_iff⟩
    · intro trimming
      exact ⟨tok, List.mem_of_head? first, placed.trimsBefore_iff.mpr trimming, by rw [placed.span]⟩

theorem text_kept {cs lead kept trail : List Char} {trimsEnd : Bool} {x : TextToken}
    (cut : source = before ++ cs ++ sourceOf rest) (parts : cs = lead ++ kept ++ trail)
    (trimmed : Trims trims trimsEnd lead kept trail) (filled : kept ≠ []) (plain : Plain cs)
    (content : x.text.toList = kept)
    (placed : x.span = ⟨byteLength before + byteLength lead,
      byteLength before + byteLength lead + byteLength kept⟩)
    (next : ∀ tok, ts.head? = some tok → tok.markup? ≠ none ∧
      (tok.TrimsBefore t source ↔ trimsEnd = true))
    (gaps : ∀ b c a position, cs ++ sourceOf rest = b ++ c :: a →
      byteLength (before ++ b) ≤ position → position < byteLength (before ++ b) + c.utf8Size →
      (∀ tok ∈ ts, ¬ tok.Covers position) →
      ¬ (byteLength before + byteLength lead ≤ position ∧
        position < byteLength before + byteLength lead + byteLength kept) →
      Lost t source before trims ts b c)
    (h : Laid t source (before ++ cs) false rest ts) :
    Laid t source before trims (.text cs :: rest) (.text x :: ts) := by
  obtain ⟨written, _⟩ := x
  cases placed
  have bytes := byteLength_pos filled
  have long := congrArg byteLength parts
  simp only [byteLength_append] at long
  have stands : Stands source (byteLength before + byteLength lead)
      (byteLength before + byteLength lead + byteLength kept) kept := by
    refine ⟨before ++ lead, trail ++ sourceOf rest, ?_, byteLength_append _ _, rfl⟩
    rw [cut, parts]
    simp only [List.append_assoc]
  have within : byteLength before + byteLength lead + byteLength kept
      ≤ byteLength before + byteLength cs := by omega
  obtain ⟨spans, ordered⟩ := h.spans_cons (.text ⟨written, _, _⟩) (Nat.le_add_right _ _)
    (Nat.lt_add_of_pos_right bytes) within stands
  refine ⟨spans, ordered, ?_, ?_, ?_, ?_, ?_, by simp, by simp⟩
  · refine List.forall_mem_cons.mpr ⟨?_, h.quotes⟩
    simpa only [Token.Quotes, content] using stands
  · intro y member
    rcases List.mem_cons.mp member with same | later
    · cases same
      rw [content]
      exact plain.part ⟨lead, trail, parts.symm⟩
    · exact h.plain y later
  · refine List.isChain_cons.mpr ⟨?_, h.joined⟩
    intro tok first
    obtain ⟨markup, trims⟩ := next tok first
    refine ⟨.inr markup, ?_, ?_⟩
    · intro y same trimming
      cases same
      rw [content]
      exact trimmed.last (trims.mp trimming)
    · rintro y rfl
      exact absurd rfl markup
  · intro b c a position whole low high outside
    rw [List.forall_mem_cons] at outside
    obtain ⟨blank, away⟩ := gaps b c a position whole low high outside.2 outside.1
    refine ⟨blank, away.imp_left ?_⟩
    rintro ⟨tok, member, trims⟩
    exact ⟨tok, List.mem_cons_of_mem _ member, trims⟩
  · intro y first trimming
    cases first
    rw [content]
    exact trimmed.first trimming

theorem text {cs : List Char} (cut : source = before ++ cs ++ sourceOf rest)
    (short : byteLength source ≤ furthestOffset) (plain : Plain cs)
    (markups : ∀ p later, rest = p :: later → ∃ kind inside, p = .markup kind inside)
    (h : Laid t source (before ++ cs) false rest ts) :
    Laid t source before trims (.text cs :: rest)
      (textToken cs (byteLength before) trims
        ((rest.head?.map (·.trimsLeft t)).getD false) ++ ts) := by
  obtain ⟨next, follows⟩ := h.first_token markups
  generalize (rest.head?.map (·.trimsLeft t)).getD false = trimsEnd at next follows ⊢
  obtain ⟨lead, kept, trail, parts, trimmed, made⟩ :=
    textToken_parts cs (byteLength before) trims trimsEnd
  have gaps : ∀ b c a position, cs ++ sourceOf rest = b ++ c :: a →
      byteLength (before ++ b) ≤ position → position < byteLength (before ++ b) + c.utf8Size →
      (∀ tok ∈ ts, ¬ tok.Covers position) →
      ¬ (byteLength before + byteLength lead ≤ position ∧
        position < byteLength before + byteLength lead + byteLength kept) →
      Lost t source before trims ts b c := by
    intro b c a position whole low high outside unkept
    rcases cut_cases whole with ⟨more, here⟩ | ⟨more, rfl, later⟩
    · exact trimmed_away cut parts trimmed follows here low high unkept
    · rw [← List.append_assoc] at low high
      obtain ⟨blank, away⟩ := h.gaps more c a position later low high outside
      rw [List.append_assoc] at away
      exact ⟨blank, .inl (away.resolve_right (by simp))⟩
  have long := congrArg byteLength parts
  have fits := congrArg byteLength cut
  simp only [byteLength_append] at long fits
  rw [made, Span.ofRange_eq (by omega) (by omega)]
  by_cases filled : kept = []
  · subst filled
    refine ⟨?_, h.ordered, h.quotes, h.plain, h.joined, ?_, ?_, by simp, by simp⟩
    · intro tok member
      obtain ⟨behind, placed⟩ := h.behind tok member
      exact ⟨by omega, placed⟩
    · intro b c a position whole low high outside
      refine gaps b c a position whole low high outside ?_
      rw [show byteLength [] = 0 from rfl]
      omega
    · intro x first
      exact absurd rfl (next _ first).1
  · have written : kept.isEmpty = false := by simpa using filled
    rw [written]
    exact text_kept cut parts trimmed filled plain String.toList_ofList rfl next gaps h

end Laid

theorem laid_tokensFrom {t : Trimming} {source : List Char}
    (short : byteLength source ≤ furthestOffset) (ps : List Piece) (before : List Char)
    (trims : Bool) (ts : List Token) (cut : source = before ++ sourceOf ps) (apart : CutApart ps)
    (made : tokensFrom t (byteLength before) trims ps = .ok ts) :
    Laid t source before trims ps ts := by
  induction ps generalizing before trims ts with
  | nil =>
    obtain rfl : [] = ts := Except.ok.inj made
    exact .nil
  | cons p rest ih =>
    rw [sourceOf_cons, ← List.append_assoc] at cut
    cases p with
    | text cs =>
      obtain ⟨later, found, rfl⟩ := tokensFrom_text_eq_ok made
      obtain ⟨-, plain, other, still⟩ := apart
      rw [← byteLength_append] at found
      refine Laid.text cut short plain ?_ (ih _ _ _ cut still found)
      intro p more same
      cases p with
      | text ds => exact absurd same (other ds more)
      | markup kind inside => exact ⟨kind, inside, rfl⟩
      | unclosed kind inside =>
        subst same
        simp [tokensFrom] at found
    | markup kind inside =>
      obtain ⟨tok, later, token, found, rfl⟩ := tokensFrom_markup_eq_ok made
      obtain ⟨placed, quotes⟩ := markupToken_at cut short token
      rw [Nat.add_assoc, ← byteLength_markup kind, ← byteLength_append] at found
      exact Laid.markup cut placed quotes (ih _ _ _ cut apart found)
    | unclosed kind inside => simp [tokensFrom] at made

/-- Nothing of a source is lost in its tokens but blanks that were trimmed away. -/
structure Lossless (t : Trimming) (source : List Char) (ts : List Token) : Prop where
  spans : ∀ tok ∈ ts, tok.span.start < tok.span.stop ∧
    ∃ whole, Stands source tok.span.start tok.span.stop whole
  ordered : ts.Pairwise fun a b => a.span.stop ≤ b.span.start
  quotes : ∀ tok ∈ ts, tok.Quotes source
  no_output_sign : ∀ x, Token.text x ∈ ts → ¬ ['\x7b', '\x7b'] <:+: x.text.toList
  no_tag_sign : ∀ x, Token.text x ∈ ts → ¬ ['\x7b', '%'] <:+: x.text.toList
  joined : ts.IsChain (Joined t source)
  gaps : ∀ before c after position, source = before ++ c :: after →
    byteLength before ≤ position → position < byteLength before + c.utf8Size →
    (∀ tok ∈ ts, ¬ tok.Covers position) →
    isBlank c = true ∧ ∃ tok ∈ ts, tok.TrimsAway t source (byteLength before) c

theorem tokens_lose_blanks_only (t : Trimming) (source : String)
    (short : source.utf8ByteSize ≤ furthestOffset) (ts : List Token)
    (made : tokens t source = .ok ts) : Lossless t source.toList ts := by
  have laid : Laid t source.toList [] false (pieces source.toList) ts :=
    laid_tokensFrom (by rwa [byteLength_toList]) (pieces source.toList) [] false ts
      (sourceOf_pieces source.toList).symm (cutApart_pieces source.toList) made
  constructor
  case spans => exact fun tok member => (laid.spans tok member).2
  case ordered => exact laid.ordered
  case quotes => exact laid.quotes
  case no_output_sign => exact fun x member => (laid.plain x member).lacks rfl
  case no_tag_sign => exact fun x member => (laid.plain x member).lacks rfl
  case joined => exact laid.joined
  case gaps =>
    intro before c after position parts low high outside
    rw [← sourceOf_pieces source.toList] at parts
    obtain ⟨blank, away⟩ := laid.gaps before c after position parts low high outside
    exact ⟨blank, away.resolve_right (by simp)⟩

/-- The dash of the output trims before it only, the blanks after it go for the dash of the tag,
    and the last blank for an option. -/
theorem overlapping_dash_loses_blanks_only :
    "é {{-}} \n{%- x ü%} ö".utf8ByteSize ≤ furthestOffset ∧
      ∃ ts, tokens ⟨false, true, false, false⟩ "é {{-}} \n{%- x ü%} ö" = .ok ts ∧
        ts.map Token.span = [⟨0, 2⟩, ⟨3, 8⟩, ⟨10, 20⟩, ⟨21, 23⟩] ∧
        Lossless ⟨false, true, false, false⟩ "é {{-}} \n{%- x ü%} ö".toList ts := by
  have made : tokens ⟨false, true, false, false⟩ "é {{-}} \n{%- x ü%} ö" = .ok
      [.text ⟨"é", ⟨0, 2⟩⟩, .output ⟨"", 6, ⟨3, 8⟩⟩, .tag ⟨"x", " ü", 15, ⟨10, 20⟩, "{%- x ü%}"⟩,
        .text ⟨"ö", ⟨21, 23⟩⟩] := by rfl
  have short : "é {{-}} \n{%- x ü%} ö".utf8ByteSize ≤ furthestOffset := by decide
  exact ⟨short, _, made, rfl, tokens_lose_blanks_only _ _ short _ made⟩

end Templating
