import Templating.Proofs.Source.Interiors
import Templating.Proofs.Source.Scanning
import Templating.Proofs.Template.Prefixes

namespace Templating

/-- What the scan found stands in the source where it says, an unclosed opener up to the end. -/
def Opener.Placed (source : List Char) : Opener → Prop
  | .closed _ start stop _ => ∃ whole, Stands source start stop whole
  | .unclosed _ start stop => stop = byteLength source ∧ ∃ whole, Stands source start stop whole

theorem Scan.placed {source before cs : List Char} {start : Nat} {found : List Opener}
    (scan : Scan start cs found) (cut : source = before ++ cs) (here : byteLength before = start) :
    ∀ opener ∈ found, opener.Placed source := by
  induction scan generalizing before with
  | plain none => exact nofun
  | @unclosed start kind cs ahead after opens none =>
    refine List.forall_mem_singleton.mpr ⟨?_, '\x7b' :: kind.opening :: after, ?_⟩
    · rw [cut, byteLength_append, here]
    · refine ⟨before ++ ahead, [], ?_, ?_, ?_⟩
      · rw [cut, opens.cut, List.append_nil, List.append_assoc]
      · rw [byteLength_append, here]
      · rw [opens.cut, byteLength_append, Nat.add_assoc]
  | @closed start stop kind cs ahead after body rest found opens closes reached later ih =>
    obtain ⟨inside, -, -, parts, -⟩ := pieces_closed opens closes
    have long := congrArg byteLength parts
    rw [byteLength_append, byteLength_append] at long
    have cutLater : source = before ++ ahead ++ (Piece.markup kind inside).source ++ rest := by
      rw [cut, parts]
      simp only [List.append_assoc]
    have hereLater : byteLength (before ++ ahead ++ (Piece.markup kind inside).source) = stop := by
      rw [byteLength_append, byteLength_append, here]
      omega
    refine List.forall_mem_cons.mpr ⟨⟨_, before ++ ahead, rest, cutLater, ?_, ?_⟩, ?_⟩
    · rw [byteLength_append, here]
    · omega
    · exact ih cutLater hereLater

section
variable {t : Trimming} {start : Nat} {trims : Bool} {ts : List Token}

theorem tokensFrom_textPiece_eq_ok {seen : List Char} {rest : List Piece}
    (made : tokensFrom t start trims (textPiece seen ++ rest) = .ok ts) :
    ∃ trims' front later, tokensFrom t (start + byteLength seen.reverse) trims' rest = .ok later ∧
      ts = front ++ later ∧ ∀ tok ∈ front, ∃ x, tok = .text x := by
  cases seen with
  | nil => exact ⟨trims, [], ts, made, rfl, nofun⟩
  | cons c seen =>
    obtain ⟨later, found, rfl⟩ := tokensFrom_text_eq_ok made
    exact ⟨false, _, later, found, rfl, fun _ member => mem_textToken member⟩

theorem markupToken_span {kind : Markup} {inside : List Char} {span : Span} {tok : Token}
    (made : markupToken inside start span kind = .ok tok) : tok.span = span := by
  cases kind with
  | output =>
    cases made
    rfl
  | tag =>
    obtain ⟨x, tagged, rfl⟩ := markupToken_tag_eq_ok made
    exact (tagToken_eq_ok tagged).1

theorem Scan.token_opens {cs : List Char} {found : List Opener} (scan : Scan start cs found)
    (made : tokensFrom t start trims (pieces cs) = .ok ts) :
    ∀ tok ∈ ts, (∃ x, tok = .text x) ∨ ∃ kind first last body,
      Opener.closed kind first last body ∈ found ∧ tok.span = .ofRange first last := by
  induction scan generalizing trims ts with
  | @plain start cs none =>
    rw [pieces, piecesOfText_plain none, ← List.append_nil (textPiece _)] at made
    obtain ⟨_, front, later, empty, rfl, texts⟩ := tokensFrom_textPiece_eq_ok made
    cases empty
    intro tok member
    rw [List.append_nil] at member
    exact .inl (texts tok member)
  | @unclosed start kind cs before after opens none =>
    rw [pieces_unclosed opens none] at made
    obtain ⟨_, _, _, failed, -, -⟩ := tokensFrom_textPiece_eq_ok made
    simp [tokensFrom] at failed
  | @closed start stop kind cs before after body rest found opens closes reached later ih =>
    obtain ⟨inside, cut, -, -, long⟩ := pieces_closed opens closes
    rw [cut] at made
    obtain ⟨_, front, _, behind, rfl, texts⟩ := tokensFrom_textPiece_eq_ok made
    obtain ⟨mine, others, token, next, rfl⟩ := tokensFrom_markup_eq_ok behind
    have ends : start + byteLength before + byteLength inside + 4 = stop := by omega
    rw [List.reverse_reverse, ends] at token next
    refine List.forall_mem_append.mpr ⟨fun tok member => .inl (texts tok member), ?_⟩
    refine List.forall_mem_cons.mpr ⟨.inr ⟨kind, _, stop, body, List.mem_cons_self, ?_⟩, ?_⟩
    · exact markupToken_span token
    · intro tok member
      refine (ih next tok member).imp_right ?_
      rintro ⟨kind, first, last, body, scanned, span⟩
      exact ⟨kind, first, last, body, List.mem_cons_of_mem _ scanned, span⟩

end

theorem mem_openAfter {t : TagToken} {waiting : List TagToken} {tok : Token}
    (member : t ∈ openAfter waiting tok) : t ∈ waiting ∨ tok = .tag t := by
  unfold openAfter at member
  split at member
  · split at member
    · rcases List.mem_cons.mp member with rfl | later
      · exact .inr rfl
      · exact .inl later
    · split at member
      · cases member
      · split at member
        · exact .inl (List.mem_cons_of_mem _ member)
        · exact .inl member
  · exact .inl member

theorem mem_of_openTags {t : TagToken} {ts : List Token} (waiting : List TagToken)
    (member : t ∈ ts.foldl openAfter waiting) : t ∈ waiting ∨ .tag t ∈ ts := by
  induction ts generalizing waiting with
  | nil => exact .inl member
  | cons tok rest ih =>
    rcases ih _ member with before | later
    · rcases mem_openAfter before with earlier | rfl
      · exact .inl earlier
      · exact .inr List.mem_cons_self
    · exact .inr (List.mem_cons_of_mem _ later)

/-- The error is about the token: that is refused, or it opens a block that is open at the end. -/
inductive Token.Blamed : Token → ParseError → Prop where
  | refused {tok : Token} {e : ParseError} (refused : tok.Refused e) : Blamed tok e
  | neverClosed (t : TagToken) : Blamed (.tag t) (.notClosed t.text t.span)

theorem parseTokens_blames {o : Options} {ts : List Token} {e : ParseError}
    (failed : parseTokens .builtins o ts = .error e) : ∃ tok ∈ ts, tok.Blamed e := by
  cases read : Parse.start.read .builtins o ts with
  | error e' =>
    rw [parseTokens_eq, read] at failed
    cases failed
    obtain ⟨tok, member, refused⟩ := Parse.read_fails _ ts _ read
    exact ⟨tok, member, .refused refused⟩
  | ok p =>
    have ended := failed
    rw [parseTokens_eq, read] at ended
    obtain ⟨nodes, blocks⟩ := p
    cases blocks with
    | nil => cases ended
    | cons b rest =>
      cases ended
      obtain ⟨opener, others, _, waiting, ⟨text, span⟩, -, -⟩ := unclosed_innermost failed
      have waits : opener ∈ ts.foldl openAfter [] := by
        change opener ∈ openTags ts
        rw [waiting]
        exact List.mem_cons_self
      rcases mem_of_openTags [] waits with none | member
      · cases none
      · refine ⟨.tag opener, member, ?_⟩
        rw [TagToken.neverClosed, text, span]
        exact .neverClosed opener

inductive PointsAt (found : List Opener) (length : Nat) : Span → Prop where
  | markup {kind : Markup} {start stop : Nat} {body : List Char}
      (scanned : Opener.closed kind start stop body ∈ found) : PointsAt found length ⟨start, stop⟩
  | inside {kind : Markup} {start stop : Nat} {body : List Char} {span : Span}
      (scanned : Opener.closed kind start stop body ∈ found) (behind : start < span.start)
      (ahead : span.stop < stop) : PointsAt found length span
  | unclosed {kind : Markup} {start : Nat} (scanned : Opener.unclosed kind start length ∈ found) :
      PointsAt found length ⟨start, length⟩

/-- The error is about a place in the source, between characters, and if it quotes a tag, that is
    what stands there. -/
structure ParseError.PointsInto (source : String) (e : ParseError) : Prop where
  forward : e.span.start ≤ e.span.stop
  within : e.span.stop ≤ source.utf8ByteSize
  between : ∃ part, Stands source.toList e.span.start e.span.stop part
  place : ∃ found, Scan 0 source.toList found ∧ PointsAt found source.utf8ByteSize e.span
  quote : ∀ text span, e = .illegalTag text span ∨ e = .notClosed text span →
    Stands source.toList span.start span.stop text.toList

theorem ParseError.PointsInto.of_stands {source : String} {e : ParseError} {found : List Opener}
    (scan : Scan 0 source.toList found)
    (between : ∃ part, Stands source.toList e.span.start e.span.stop part)
    (place : PointsAt found source.utf8ByteSize e.span)
    (quote : ∀ text span, e = .illegalTag text span ∨ e = .notClosed text span →
      Stands source.toList span.start span.stop text.toList) : e.PointsInto source := by
  obtain ⟨part, stands⟩ := between
  have forward := stands.stop_eq
  have within := stands.within
  rw [byteLength_toList] at within
  exact ⟨by omega, within, ⟨part, stands⟩, ⟨found, scan, place⟩, quote⟩

theorem Stands.ofRange_eq {source part : List Char} {start stop : Nat}
    (stands : Stands source start stop part) (short : byteLength source ≤ furthestOffset) :
    Span.ofRange start stop = ⟨start, stop⟩ := by
  have forward := stands.stop_eq
  have within := stands.within
  exact Span.ofRange_eq (by omega) (by omega)

section
variable {source : String} {found : List Opener} {kind : Markup} {start stop : Nat}
  {body : List Char}

theorem lex_points_into {cause : LexCause} (short : byteLength source.toList ≤ furthestOffset)
    (scan : Scan 0 source.toList found)
    (whole : ∃ part, Stands source.toList start stop part)
    (place : PointsAt found source.utf8ByteSize ⟨start, stop⟩) :
    (ParseError.lex ⟨cause, .ofRange start stop⟩).PointsInto source := by
  obtain ⟨part, stands⟩ := whole
  rw [stands.ofRange_eq short]
  exact .of_stands scan ⟨part, stands⟩ place (by simp)

theorem fault_points_into (short : byteLength source.toList ≤ furthestOffset)
    (scan : Scan 0 source.toList found) {opener : Opener} (scanned : opener ∈ found) {e : LexError}
    (fault : opener.fault? = some e) : (ParseError.lex e).PointsInto source := by
  have placed := scan.placed (List.nil_append _).symm rfl opener scanned
  cases opener with
  | closed kind start stop body =>
    cases kind with
    | output => cases fault
    | tag =>
      rw [Opener.fault?] at fault
      split at fault
      · cases fault
      · cases fault
        exact lex_points_into short scan placed (.markup scanned)
  | unclosed kind start stop =>
    obtain ⟨rfl, whole⟩ := placed
    have place : PointsAt found source.utf8ByteSize ⟨start, byteLength source.toList⟩ := by
      rw [byteLength_toList] at scanned ⊢
      exact .unclosed scanned
    cases kind <;>
    · cases fault
      exact lex_points_into short scan whole place

theorem token_points_into (short : byteLength source.toList ≤ furthestOffset)
    (scan : Scan 0 source.toList found) {tok : Token} {e : ParseError} (blamed : tok.Blamed e)
    (encloses : tok.Encloses source.toList) (quotes : tok.Quotes source.toList)
    (scanned : Opener.closed kind start stop body ∈ found)
    (placed : tok.span = .ofRange start stop) : e.PointsInto source := by
  have whole := scan.placed (List.nil_append _).symm rfl _ scanned
  obtain ⟨part, stands⟩ := whole
  rw [stands.ofRange_eq short] at placed
  have between : ∃ part, Stands source.toList tok.span.start tok.span.stop part := by
    rw [placed]
    exact ⟨part, stands⟩
  have place : PointsAt found source.utf8ByteSize tok.span := by
    rw [placed]
    exact .markup scanned
  cases blamed with
  | neverClosed t =>
    refine .of_stands scan between place fun text span same => ?_
    obtain ⟨rfl, rfl⟩ : t.text = text ∧ t.span = span := by simpa using same
    exact quotes.1
  | refused refused =>
    cases refused with
    | header t =>
      refine .of_stands scan between place fun text span same => ?_
      obtain ⟨rfl, rfl⟩ : t.text = text ∧ t.span = span := by simpa using same
      exact quotes.1
    | arguments t => exact .of_stands scan between place (by simp)
    | place t => exact .of_stands scan between place (by simp)
    | name t => exact .of_stands scan between place (by simp)
    | content t text => exact .of_stands scan between place (by simp)
    | within holds marks =>
      obtain ⟨inner, behind, ahead⟩ := encloses.marked short holds marks
      rw [placed] at behind ahead
      exact .of_stands scan inner (.inside scanned behind ahead) (by simp)

end

theorem Token.Blamed.not_text {x : TextToken} {e : ParseError} (blamed : (Token.text x).Blamed e) :
    False := by
  cases blamed with
  | refused refused =>
    cases refused with
    | within holds marks => cases holds

/-- The errors of a source up to the largest offset, with the built-in tags and under any options,
    are about places in it. -/
theorem parse_errors_point_into {o : Options} {source : String}
    (short : source.utf8ByteSize ≤ furthestOffset) {e : ParseError}
    (failed : parse .builtins o source = .error e) : e.PointsInto source := by
  obtain ⟨found, scan⟩ := Scan.exists 0 source.toList
  have bytes : byteLength source.toList ≤ furthestOffset := by rwa [byteLength_toList]
  unfold parse at failed
  split at failed
  · rename_i ts made
    obtain ⟨tok, member, blamed⟩ := parseTokens_blames failed
    have laid : Laid o.trimming source.toList [] false (pieces source.toList) ts :=
      laid_tokensFrom bytes _ [] false ts (sourceOf_pieces _).symm (cutApart_pieces _) made
    rcases scan.token_opens made tok member with ⟨x, rfl⟩ | ⟨kind, start, stop, body, scanned, span⟩
    · exact blamed.not_text.elim
    · exact token_points_into bytes scan blamed (tokens_enclose short made tok member)
        (laid.quotes tok member) scanned span
  · rename_i fault failure
    cases failed
    have first : found.findSome? Opener.fault? = some fault := by
      rw [← scan.failure?_eq false]
      exact failure?_eq_some.mpr failure
    obtain ⟨opener, scanned, fails⟩ := List.exists_of_findSome?_eq_some first
    exact fault_points_into bytes scan scanned fails

theorem parse_errors_point_into_unended :
    let string : ParseError := .lex ⟨.unterminatedString, ⟨10, 14⟩⟩
    let block : ParseError := .notClosed "{%- if x -%}" ⟨2, 14⟩
    (parse .builtins default "é \x7b\x7b xs[ 'a] -\x7d\x7d z" = .error string ∧
      string.PointsInto "é \x7b\x7b xs[ 'a] -\x7d\x7d z") ∧
    parse .builtins default "ü{%- if x -%} y" = .error block ∧
      block.PointsInto "ü{%- if x -%} y" := by
  intro string block
  have first : parse .builtins default "é \x7b\x7b xs[ 'a] -\x7d\x7d z" = .error string :=
    failure?_eq_some.mp (by decide +kernel)
  have second : parse .builtins default "ü{%- if x -%} y" = .error block :=
    failure?_eq_some.mp (by decide +kernel)
  exact ⟨⟨first, parse_errors_point_into (by decide) first⟩,
    second, parse_errors_point_into (by decide) second⟩

end Templating
