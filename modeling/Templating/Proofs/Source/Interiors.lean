import Templating.Proofs.Source.Lossless
import Templating.Proofs.Source.Readers

namespace Templating

def Token.interior? : Token → Option (String × Nat)
  | .text _ => none
  | .output t => some (t.content, t.offset)
  | .tag t => some (t.arguments, t.offset)

def Token.Cites (tok : Token) (a : Argument) : Prop :=
  ∃ inner ∈ tok.interior?, (Cursor.ofText inner.1 inner.2).Cites a

theorem Token.Cites.markup {tok : Token} {a : Argument} (cites : tok.Cites a) :
    tok.markup? ≠ none := by
  obtain ⟨inner, holds, -⟩ := cites
  cases tok with
  | text => cases holds
  | output => simp [Token.markup?]
  | tag => simp [Token.markup?]

/-- What the token holds stands in the source, strictly inside of the token. -/
def Token.Encloses (source : List Char) (tok : Token) : Prop :=
  ∀ inner ∈ tok.interior?, tok.span.start < inner.2 ∧
    inner.2 + byteLength inner.1.toList < tok.span.stop ∧
    Stands source inner.2 (inner.2 + byteLength inner.1.toList) inner.1.toList

theorem byteLength_inside (inside : List Char) :
    byteLength inside = (if beginsWithDash inside then 1 else 0) + byteLength (withoutDashes inside)
      + (if endsWithDash inside then 1 else 0) := by
  have dash (b : Bool) : byteLength (if b then ['-'] else []) = if b then 1 else 0 := by
    cases b <;> rfl
  have parts := congrArg byteLength (inside_eq inside)
  rwa [byteLength_append, byteLength_append, dash, dash] at parts

theorem markupToken_encloses {source before after inside : List Char} {kind : Markup} {tok : Token}
    (cut : source = before ++ (Piece.markup kind inside).source ++ after)
    (short : byteLength source ≤ furthestOffset)
    (made : markupToken inside (byteLength before)
      (Span.ofRange (byteLength before) (byteLength before + byteLength inside + 4)) kind
        = .ok tok) : tok.Encloses source := by
  obtain ⟨placed, quotes⟩ := markupToken_at cut short made
  have fits := placed.whole.within
  have long := byteLength_inside inside
  have span := placed.span
  rw [span] at fits
  dsimp only at fits
  cases kind with
  | output =>
    obtain rfl := Except.ok.inj made
    rintro inner ⟨⟩
    rw [span]
    refine ⟨?_, ?_, quotes⟩
    · simp only [outputToken]
      omega
    · simp only [outputToken, String.toList_ofList]
      omega
  | tag =>
    obtain ⟨x, tagged, rfl⟩ := markupToken_tag_eq_ok made
    obtain ⟨-, -, lead, parts, offset⟩ := tagToken_eq_ok tagged
    have said := congrArg byteLength parts
    rw [byteLength_append] at said
    rintro inner ⟨⟩
    rw [span]
    exact ⟨by dsimp only; omega, by dsimp only; omega, quotes.2⟩

theorem Token.encloses_text {source : List Char} (x : TextToken) :
    Token.Encloses source (.text x) := by
  rintro inner ⟨⟩

theorem mem_textToken {cs : List Char} {start : Nat} {trimsStart trimsEnd : Bool} {tok : Token}
    (member : tok ∈ textToken cs start trimsStart trimsEnd) : ∃ x, tok = .text x := by
  obtain ⟨_, kept, _, -, -, made⟩ := textToken_parts cs start trimsStart trimsEnd
  rw [made] at member
  split at member
  · cases member
  · exact ⟨_, List.mem_singleton.mp member⟩

theorem tokensFrom_enclose {t : Trimming} {source : List Char}
    (short : byteLength source ≤ furthestOffset) (ps : List Piece) (before : List Char)
    (trims : Bool) (ts : List Token) (cut : source = before ++ sourceOf ps)
    (made : tokensFrom t (byteLength before) trims ps = .ok ts) :
    ∀ tok ∈ ts, tok.Encloses source := by
  induction ps generalizing before trims ts with
  | nil =>
    obtain rfl : [] = ts := Except.ok.inj made
    exact List.forall_mem_nil _
  | cons p rest ih =>
    rw [sourceOf_cons, ← List.append_assoc] at cut
    cases p with
    | text cs =>
      obtain ⟨later, found, rfl⟩ := tokensFrom_text_eq_ok made
      rw [← byteLength_append] at found
      refine List.forall_mem_append.mpr ⟨?_, ih _ _ _ cut found⟩
      intro tok member
      obtain ⟨x, rfl⟩ := mem_textToken member
      exact Token.encloses_text x
    | markup kind inside =>
      obtain ⟨tok, later, token, found, rfl⟩ := tokensFrom_markup_eq_ok made
      rw [Nat.add_assoc, ← byteLength_markup kind, ← byteLength_append] at found
      exact List.forall_mem_cons.mpr
        ⟨markupToken_encloses cut short token, ih _ _ _ cut found⟩
    | unclosed kind inside => simp [tokensFrom] at made

theorem tokens_enclose {t : Trimming} {source : String}
    (short : source.utf8ByteSize ≤ furthestOffset) {ts : List Token}
    (made : tokens t source = .ok ts) : ∀ tok ∈ ts, tok.Encloses source.toList :=
  tokensFrom_enclose (by rwa [byteLength_toList]) (pieces source.toList) [] false ts
    (sourceOf_pieces source.toList).symm made

namespace Cursor
variable {source : List Char} {text : String} {offset : Nat}

theorem LeadsTo.stands {start : Cursor} (short : byteLength source ≤ furthestOffset)
    (there : Stands source offset (offset + byteLength text.toList) text.toList)
    (leads : (Cursor.ofText text offset).LeadsTo start) (n : Nat) {span : Span}
    (same : span = (start.advance n).spanFrom start.position) :
    Stands source span.start span.stop (start.rest.take n) ∧
      offset ≤ span.start ∧ span.stop ≤ offset + byteLength text.toList := by
  obtain ⟨k, rfl⟩ := leads
  have fits := there.within
  have parts : text.toList
      = text.toList.take k ++ ((text.toList.drop k).take n ++ (text.toList.drop k).drop n) := by
    rw [List.take_append_drop, List.take_append_drop]
  have long := congrArg byteLength parts
  rw [byteLength_append, byteLength_append] at long
  have words : ((Cursor.ofText text offset).advance k).rest.take n
      = (text.toList.drop k).take n := rfl
  have place : span = ⟨offset + byteLength (text.toList.take k),
      offset + byteLength (text.toList.take k) + byteLength ((text.toList.drop k).take n)⟩ := by
    rw [same]
    simp only [Cursor.spanFrom, Cursor.advance, Cursor.ofText, Nat.zero_add]
    rw [Span.shift_ofRange (by omega) (by omega)]
    simp only [Nat.add_comm, Nat.add_left_comm]
  rw [parts] at there
  have stands := (there.back _ _).front _ _
  rw [← stands.stop_eq] at stands
  rw [words, place]
  exact ⟨stands, by dsimp only; omega, by dsimp only; omega⟩

theorem Cites.stands {a : Argument} (short : byteLength source ≤ furthestOffset)
    (there : Stands source offset (offset + byteLength text.toList) text.toList)
    (cites : (Cursor.ofText text offset).Cites a) :
    Stands source a.span.start a.span.stop a.text.toList ∧
      offset ≤ a.span.start ∧ a.span.stop ≤ offset + byteLength text.toList := by
  obtain ⟨start, n, leads, same, span⟩ := cites
  have stands := leads.stands short there n span
  rwa [same, String.toList_ofList]

theorem Marks.stands {span : Span} (short : byteLength source ≤ furthestOffset)
    (there : Stands source offset (offset + byteLength text.toList) text.toList)
    (marks : (Cursor.ofText text offset).Marks span) :
    (∃ part, Stands source span.start span.stop part) ∧
      offset ≤ span.start ∧ span.stop ≤ offset + byteLength text.toList := by
  obtain ⟨start, _, leads, ⟨n, rfl⟩, same⟩ := marks
  obtain ⟨stands, inside⟩ := leads.stands short there n same
  exact ⟨⟨_, stands⟩, inside⟩

end Cursor

theorem Token.Encloses.argument {source : List Char} {tok : Token} {a : Argument}
    (encloses : tok.Encloses source) (short : byteLength source ≤ furthestOffset)
    (cites : tok.Cites a) :
    Stands source a.span.start a.span.stop a.text.toList ∧
      tok.span.start < a.span.start ∧ a.span.stop < tok.span.stop := by
  obtain ⟨inner, holds, cites⟩ := cites
  obtain ⟨starts, stops, there⟩ := encloses inner holds
  obtain ⟨stands, low, high⟩ := cites.stands short there
  exact ⟨stands, by omega, by omega⟩

theorem Token.Encloses.marked {source : List Char} {tok : Token} {inner : String × Nat}
    {span : Span} (encloses : tok.Encloses source) (short : byteLength source ≤ furthestOffset)
    (holds : inner ∈ tok.interior?) (marks : (Cursor.ofText inner.1 inner.2).Marks span) :
    (∃ part, Stands source span.start span.stop part) ∧
      tok.span.start < span.start ∧ span.stop < tok.span.stop := by
  obtain ⟨starts, stops, there⟩ := encloses inner holds
  obtain ⟨stands, low, high⟩ := marks.stands short there
  exact ⟨stands, by omega, by omega⟩

end Templating
