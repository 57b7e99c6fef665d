import Templating.Proofs.Source.Pieces

/-!
Which sources have tokens. A scan goes from opener to opener: it finds the leftmost opening
sign, leaves a dash behind it aside, finds the first closing sign of that kind from there, and
goes on behind it.
-/
namespace Templating

def closesMarkup (kind : Markup) (a b : Char) : Bool := a == kind.closing && b == '\x7d'

def Markup.Unclosed (kind : Markup) (cs : List Char) : Prop :=
  cs.IsChain fun a b => closesMarkup kind a b = false

/-- The leftmost opening sign of `cs` is of this kind and stands between `before` and `after`. -/
structure OpensFirst (kind : Markup) (cs before after : List Char) : Prop where
  cut : cs = before ++ '\x7b' :: kind.opening :: after
  leftmost : Plain (before ++ ['\x7b'])

structure ClosesFirst (kind : Markup) (cs body after : List Char) : Prop where
  cut : cs = body ++ kind.closing :: '\x7d' :: after
  first : kind.Unclosed (body ++ [kind.closing])

/-- What a scan finds: a markup from byte `start` to byte `stop`, or an opener without its closer,
    the source going on to byte `stop`. -/
inductive Opener where
  | closed (kind : Markup) (start stop : Nat) (body : List Char)
  | unclosed (kind : Markup) (start stop : Nat)

/-- The scan of a text that starts at byte `start` of the source. -/
inductive Scan : Nat → List Char → List Opener → Prop where
  | plain {start : Nat} {cs : List Char} (none : Plain cs) : Scan start cs []
  | unclosed {start : Nat} {kind : Markup} {cs before after : List Char}
      (opens : OpensFirst kind cs before after)
      (none : kind.Unclosed (withoutLeadingDash after)) :
      Scan start cs [.unclosed kind (start + byteLength before) (start + byteLength cs)]
  | closed {start stop : Nat} {kind : Markup} {cs before after body rest : List Char}
      {found : List Opener} (opens : OpensFirst kind cs before after)
      (closes : ClosesFirst kind (withoutLeadingDash after) body rest)
      (reached : stop + byteLength rest = start + byteLength cs) (later : Scan stop rest found) :
      Scan start cs (.closed kind (start + byteLength before) stop body :: found)

def withoutTrailingDash (body : List Char) : List Char :=
  if body.getLast? == some '-' then body.dropLast else body

def namesTag (body : List Char) : Bool :=
  (trimStart (withoutTrailingDash body)).head?.any isTagNameChar

/-- What is wrong with an opener, if anything is. -/
def Opener.fault? : Opener → Option LexError
  | .closed .output _ _ _ => none
  | .closed .tag start stop body =>
    if namesTag body then none else some ⟨.missingTagName, .ofRange start stop⟩
  | .unclosed .output start stop => some ⟨.unterminatedOutput, .ofRange start stop⟩
  | .unclosed .tag start stop => some ⟨.unterminatedTag, .ofRange start stop⟩

section
variable {p : Char → Char → Bool}

theorem first_pair_or_none (p : Char → Char → Bool) (cs : List Char) :
    cs.IsChain (fun a b => p a b = false) ∨
      ∃ before a b after, cs = before ++ a :: b :: after ∧ p a b = true ∧
        (before ++ [a]).IsChain fun a b => p a b = false := by
  induction cs with
  | nil => exact .inl .nil
  | cons c rest ih =>
    cases rest with
    | nil => exact .inl (.singleton c)
    | cons d rest =>
      by_cases here : p c d = true
      · exact .inr ⟨[], c, d, rest, rfl, here, .singleton c⟩
      · have apart : p c d = false := by simpa using here
        rcases ih with none | ⟨before, a, b, after, cut, pair, first⟩
        · exact .inl (.cons_cons apart none)
        · refine .inr ⟨c :: before, a, b, after, by rw [cut]; rfl, pair, ?_⟩
          refine List.isChain_cons.mpr ⟨?_, first⟩
          intro e next
          -- The character behind `c` is `d`, whether or not the pair begins with it.
          cases before <;> simp_all

theorem first_pair_unique {before before' after after' : List Char} {a a' b b' : Char}
    (same : before ++ a :: b :: after = before' ++ a' :: b' :: after')
    (pair : p a b = true) (pair' : p a' b' = true)
    (first : (before ++ [a]).IsChain fun a b => p a b = false)
    (first' : (before' ++ [a']).IsChain fun a b => p a b = false) :
    before = before' ∧ a = a' ∧ b = b' ∧ after = after' := by
  induction before generalizing before' with
  | nil =>
    cases before' with
    | nil => simpa using same
    | cons c rest =>
      exfalso
      cases rest <;> simp_all
  | cons c rest ih =>
    cases before' with
    | nil =>
      exfalso
      cases rest <;> simp_all
    | cons c' rest' =>
      obtain ⟨rfl, tails⟩ := List.cons.inj same
      obtain ⟨rfl, others⟩ := ih tails first.tail first'.tail
      exact ⟨rfl, others⟩

theorem pair_not_chain {before after : List Char} {a b : Char} (pair : p a b = true) :
    ¬ (before ++ a :: b :: after).IsChain fun a b => p a b = false := by
  intro none
  have apart := List.isChain_iff_forall_rel_of_append_cons_cons.mp none rfl
  simp [pair] at apart

end

theorem opensMarkup_opening (kind : Markup) : opensMarkup '\x7b' kind.opening = true := by
  cases kind <;> rfl

theorem opensMarkup_eq {a b : Char} (opens : opensMarkup a b = true) :
    a = '\x7b' ∧ ∃ kind : Markup, b = kind.opening := by
  simp only [opensMarkup, Bool.and_eq_true, Bool.or_eq_true, beq_iff_eq] at opens
  obtain ⟨brace, output | tag⟩ := opens
  · exact ⟨brace, .output, output⟩
  · exact ⟨brace, .tag, tag⟩

theorem not_opening {a b : Char} (apart : opensMarkup a b = false) :
    ¬ (a = '\x7b' ∧ b = '\x7b') ∧ ¬ (a = '\x7b' ∧ b = '%') := by
  constructor
  · rintro ⟨rfl, rfl⟩
    exact absurd apart (by decide)
  · rintro ⟨rfl, rfl⟩
    exact absurd apart (by decide)

theorem not_closing {kind : Markup} {a b : Char} (apart : closesMarkup kind a b = false) :
    ¬ (a = kind.closing ∧ b = '\x7d') := by
  simpa [closesMarkup] using apart

theorem closesMarkup_iff {kind : Markup} {a b : Char} :
    closesMarkup kind a b = true ↔ a = kind.closing ∧ b = '\x7d' := by
  simp [closesMarkup]

theorem closesMarkup_closing (kind : Markup) : closesMarkup kind kind.closing '\x7d' = true :=
  closesMarkup_iff.mpr ⟨rfl, rfl⟩

theorem Markup.opening_inj {k k' : Markup} (same : k.opening = k'.opening) : k = k' := by
  cases k <;> cases k' <;> first | rfl | exact absurd same (by decide)

theorem plain_or_opens (cs : List Char) :
    Plain cs ∨ ∃ kind before after, OpensFirst kind cs before after := by
  refine (first_pair_or_none opensMarkup cs).imp_right ?_
  rintro ⟨before, a, b, after, cut, pair, first⟩
  obtain ⟨rfl, kind, rfl⟩ := opensMarkup_eq pair
  exact ⟨kind, before, after, cut, first⟩

theorem unclosed_or_closes (kind : Markup) (cs : List Char) :
    kind.Unclosed cs ∨ ∃ body after, ClosesFirst kind cs body after := by
  refine (first_pair_or_none (closesMarkup kind) cs).imp_right ?_
  rintro ⟨body, a, b, after, cut, pair, first⟩
  obtain ⟨rfl, rfl⟩ := closesMarkup_iff.mp pair
  exact ⟨body, after, cut, first⟩

theorem OpensFirst.not_plain {kind : Markup} {cs before after : List Char}
    (opens : OpensFirst kind cs before after) : ¬ Plain cs := by
  rw [opens.cut]
  exact pair_not_chain (opensMarkup_opening kind)

theorem OpensFirst.unique {kind kind' : Markup} {cs before before' after after' : List Char}
    (opens : OpensFirst kind cs before after) (opens' : OpensFirst kind' cs before' after') :
    kind = kind' ∧ before = before' ∧ after = after' := by
  obtain ⟨front, -, sign, back⟩ := first_pair_unique (opens.cut.symm.trans opens'.cut)
    (opensMarkup_opening kind) (opensMarkup_opening kind') opens.leftmost opens'.leftmost
  exact ⟨Markup.opening_inj sign, front, back⟩

theorem ClosesFirst.not_unclosed {kind : Markup} {cs body after : List Char}
    (closes : ClosesFirst kind cs body after) : ¬ kind.Unclosed cs := by
  rw [closes.cut]
  exact pair_not_chain (closesMarkup_closing kind)

theorem ClosesFirst.unique {kind : Markup} {cs body body' after after' : List Char}
    (closes : ClosesFirst kind cs body after) (closes' : ClosesFirst kind cs body' after') :
    body = body' ∧ after = after' := by
  obtain ⟨front, -, -, back⟩ := first_pair_unique (closes.cut.symm.trans closes'.cut)
    (closesMarkup_closing kind) (closesMarkup_closing kind) closes.first closes'.first
  exact ⟨front, back⟩

theorem piecesOfText_plain {cs : List Char} (plain : Plain cs) :
    ∀ seen, piecesOfText seen cs = textPiece (cs.reverse ++ seen) := by
  induction cs with
  | nil => exact fun seen => rfl
  | cons a rest ih =>
    intro seen
    cases rest with
    | nil => rfl
    | cons b rest =>
      obtain ⟨apart, plain⟩ := List.isChain_cons_cons.mp plain
      obtain ⟨output, tag⟩ := not_opening apart
      rw [piecesOfText, if_neg output, if_neg tag, ih plain]
      simp

theorem piecesOfText_opens (kind : Markup) (before after : List Char)
    (leftmost : Plain (before ++ ['\x7b'])) : ∀ seen,
    piecesOfText seen (before ++ '\x7b' :: kind.opening :: after)
      = textPiece (before.reverse ++ seen) ++ piecesOfMarkup kind [] after := by
  induction before with
  | nil => intro seen; cases kind <;> rfl
  | cons a before ih =>
    intro seen
    obtain ⟨b, rest, next, apart⟩ : ∃ b rest,
        before ++ '\x7b' :: kind.opening :: after = b :: rest ∧ opensMarkup a b = false := by
      cases before with
      | nil => exact ⟨_, _, rfl, (List.isChain_cons_cons.mp leftmost).1⟩
      | cons b before => exact ⟨_, _, rfl, (List.isChain_cons_cons.mp leftmost).1⟩
    obtain ⟨output, tag⟩ := not_opening apart
    rw [List.cons_append, next, piecesOfText, if_neg output, if_neg tag, ← next,
      ih leftmost.tail]
    simp

theorem piecesOfMarkup_unclosed {kind : Markup} {cs : List Char} (none : kind.Unclosed cs) :
    ∀ seen, piecesOfMarkup kind seen cs = [.unclosed kind (seen.reverse ++ cs)] := by
  induction cs with
  | nil => intro seen; simp [piecesOfMarkup]
  | cons a rest ih =>
    intro seen
    cases rest with
    | nil => simp [piecesOfMarkup]
    | cons b rest =>
      obtain ⟨apart, later⟩ := List.isChain_cons_cons.mp none
      rw [piecesOfMarkup, if_neg (not_closing apart), ih later]
      simp

theorem piecesOfMarkup_closes {kind : Markup} (inside after : List Char)
    (first : kind.Unclosed (inside ++ [kind.closing])) : ∀ seen,
    piecesOfMarkup kind seen (inside ++ kind.closing :: '\x7d' :: after)
      = .markup kind (seen.reverse ++ inside) :: piecesOfText [] after := by
  induction inside with
  | nil => intro seen; simp [piecesOfMarkup]
  | cons a inside ih =>
    intro seen
    obtain ⟨b, rest, next, apart⟩ : ∃ b rest,
        inside ++ kind.closing :: '\x7d' :: after = b :: rest ∧ closesMarkup kind a b = false := by
      cases inside with
      | nil => exact ⟨_, _, rfl, (List.isChain_cons_cons.mp first).1⟩
      | cons b inside => exact ⟨_, _, rfl, (List.isChain_cons_cons.mp first).1⟩
    rw [List.cons_append, next, piecesOfMarkup, if_neg (not_closing apart), ← next, ih first.tail]
    simp

theorem withoutLeadingDash_cases (cs : List Char) :
    cs = '-' :: withoutLeadingDash cs ∨
      (withoutLeadingDash cs = cs ∧ beginsWithDash cs = false) := by
  cases dashed : beginsWithDash cs with
  | false => exact .inr ⟨by simp [withoutLeadingDash, dashed], rfl⟩
  | true =>
    cases cs with
    | nil => simp [beginsWithDash] at dashed
    | cons c rest =>
      obtain rfl : c = '-' := by simpa [beginsWithDash] using dashed
      exact .inl rfl

theorem Markup.Unclosed.dash {kind : Markup} {cs : List Char} (none : kind.Unclosed cs) :
    kind.Unclosed ('-' :: cs) := by
  refine List.isChain_cons.mpr ⟨?_, none⟩
  intro b _
  cases kind <;> rfl

theorem Markup.Unclosed.of_withoutLeadingDash {kind : Markup} {cs : List Char}
    (none : kind.Unclosed (withoutLeadingDash cs)) : kind.Unclosed cs := by
  rcases withoutLeadingDash_cases cs with dashed | ⟨same, -⟩
  · rw [dashed]
    exact none.dash
  · rwa [same] at none

theorem ClosesFirst.inside {kind : Markup} {cs body after : List Char}
    (closes : ClosesFirst kind (withoutLeadingDash cs) body after) :
    ∃ inside, ClosesFirst kind cs inside after ∧ withoutLeadingDash inside = body := by
  rcases withoutLeadingDash_cases cs with dashed | ⟨same, plain⟩
  · refine ⟨'-' :: body, ⟨?_, closes.first.dash⟩, rfl⟩
    rw [dashed, closes.cut]
    rfl
  · rw [same] at closes
    refine ⟨body, closes, ?_⟩
    have begins : beginsWithDash body = false := by
      cases body with
      | nil => rfl
      | cons c rest => simpa [closes.cut, beginsWithDash] using plain
    simp [withoutLeadingDash, begins]

def failure? {ε α : Type} : Except ε α → Option ε
  | .ok _ => none
  | .error e => some e

theorem failure?_eq_some {ε α : Type} {x : Except ε α} {e : ε} :
    failure? x = some e ↔ x = .error e := by
  cases x <;> simp [failure?]

theorem failure?_eq_none {α : Type} {x : Except LexError α} :
    failure? x = none ↔ ∃ a, x = .ok a := by
  cases x <;> simp [failure?]

theorem isEmpty_takeWhile {α : Type} (p : α → Bool) (l : List α) :
    (l.takeWhile p).isEmpty = !l.head?.any p := by
  cases l with
  | nil => rfl
  | cons a rest => by_cases h : p a = true <;> simp [h]

theorem failure?_tagToken (inside : List Char) (start : Nat) (span : Span) :
    failure? (tagToken inside start span)
      = if namesTag (withoutLeadingDash inside) then none else some ⟨.missingTagName, span⟩ := by
  have said : withoutDashes inside = withoutTrailingDash (withoutLeadingDash inside) := rfl
  simp only [tagToken, said, isEmpty_takeWhile]
  cases named : namesTag (withoutLeadingDash inside) <;>
    simp [namesTag] at named <;> simp [named, failure?]

theorem failure?_markupToken (kind : Markup) (inside : List Char) (start stop : Nat) :
    failure? (markupToken inside start (.ofRange start stop) kind)
      = (Opener.closed kind start stop (withoutLeadingDash inside)).fault? := by
  cases kind with
  | output => rfl
  | tag =>
    rw [Opener.fault?, ← failure?_tagToken inside start]
    cases h : tagToken inside start (.ofRange start stop) <;>
      simp [markupToken, h, Except.map, failure?]

variable {t : Trimming}

theorem failure?_unclosed (start : Nat) (trims : Bool) (kind : Markup) (inside : List Char) :
    failure? (tokensFrom t start trims [.unclosed kind inside])
      = (Opener.unclosed kind start (start + byteLength inside + 2)).fault? := by
  cases kind <;> rfl

theorem failure?_text (start : Nat) (trims : Bool) (cs : List Char) (rest : List Piece) :
    failure? (tokensFrom t start trims (.text cs :: rest))
      = failure? (tokensFrom t (start + byteLength cs) false rest) := by
  rw [tokensFrom]
  cases tokensFrom t (start + byteLength cs) false rest <;> rfl

theorem failure?_markup (start : Nat) (trims : Bool) (kind : Markup) (inside : List Char)
    (rest : List Piece) :
    failure? (tokensFrom t start trims (.markup kind inside :: rest))
      = (failure? (markupToken inside start
          (.ofRange start (start + byteLength inside + 4)) kind)).or
        (failure? (tokensFrom t (start + byteLength inside + 4)
          (endsWithDash inside || t.right kind) rest)) := by
  rw [tokensFrom]
  generalize Span.ofRange start (start + byteLength inside + 4) = span
  cases markupToken inside start span kind with
  | error e => rfl
  | ok tok =>
    cases tokensFrom t (start + byteLength inside + 4) (endsWithDash inside || t.right kind) rest
      <;> rfl

theorem failure?_textPiece (seen : List Char) (start : Nat) (trims : Bool) (rest : List Piece) :
    ∃ trims', failure? (tokensFrom t start trims (textPiece seen ++ rest))
      = failure? (tokensFrom t (start + byteLength seen.reverse) trims' rest) := by
  cases seen with
  | nil => exact ⟨trims, rfl⟩
  | cons c seen => exact ⟨false, failure?_text start trims (c :: seen).reverse rest⟩

theorem OpensFirst.byteLength_eq {kind : Markup} {cs before after : List Char}
    (opens : OpensFirst kind cs before after) :
    byteLength cs = byteLength before + byteLength after + 2 := by
  have two : '\x7b'.utf8Size + kind.opening.utf8Size = 2 := by cases kind <;> rfl
  simp only [opens.cut, byteLength_append, byteLength]
  omega

theorem ClosesFirst.byteLength_eq {kind : Markup} {cs body after : List Char}
    (closes : ClosesFirst kind cs body after) :
    byteLength cs = byteLength body + byteLength after + 2 := by
  have two : kind.closing.utf8Size + '\x7d'.utf8Size = 2 := by cases kind <;> rfl
  simp only [closes.cut, byteLength_append, byteLength]
  omega

theorem pieces_opens {kind : Markup} {cs before after : List Char}
    (opens : OpensFirst kind cs before after) :
    pieces cs = textPiece before.reverse ++ piecesOfMarkup kind [] after := by
  rw [pieces, opens.cut, piecesOfText_opens kind before after opens.leftmost, List.append_nil]

theorem pieces_unclosed {kind : Markup} {cs before after : List Char}
    (opens : OpensFirst kind cs before after) (none : kind.Unclosed (withoutLeadingDash after)) :
    pieces cs = textPiece before.reverse ++ [.unclosed kind after] := by
  have whole : piecesOfMarkup kind [] after = [.unclosed kind after] :=
    piecesOfMarkup_unclosed none.of_withoutLeadingDash []
  rw [pieces_opens opens, whole]

theorem pieces_closed {kind : Markup} {cs before after body rest : List Char}
    (opens : OpensFirst kind cs before after)
    (closes : ClosesFirst kind (withoutLeadingDash after) body rest) :
    ∃ inside, pieces cs = textPiece before.reverse ++ .markup kind inside :: pieces rest ∧
      withoutLeadingDash inside = body ∧ cs = before ++ (Piece.markup kind inside).source ++ rest ∧
      byteLength cs = byteLength before + (byteLength inside + 4) + byteLength rest := by
  obtain ⟨inside, closesWhole, dashless⟩ := closes.inside
  have whole : piecesOfMarkup kind [] after = .markup kind inside :: pieces rest := by
    rw [closesWhole.cut]
    exact piecesOfMarkup_closes inside rest closesWhole.first []
  have long := opens.byteLength_eq
  have longer := closesWhole.byteLength_eq
  refine ⟨inside, by rw [pieces_opens opens, whole], dashless, ?_, by omega⟩
  rw [opens.cut, closesWhole.cut]
  simp [Piece.source]

/-- Cutting fails for the first opener of the scan with which something is wrong. -/
theorem Scan.failure?_eq {start : Nat} {cs : List Char} {found : List Opener}
    (scan : Scan start cs found) : ∀ trims,
    failure? (tokensFrom t start trims (pieces cs)) = found.findSome? Opener.fault? := by
  induction scan with
  | @plain start cs none =>
    intro trims
    obtain ⟨trims', same⟩ := failure?_textPiece (t := t) (cs.reverse ++ []) start trims []
    rw [pieces, piecesOfText_plain none, ← List.append_nil (textPiece _), same]
    rfl
  | @unclosed start kind cs before after opens none =>
    intro trims
    have long := opens.byteLength_eq
    obtain ⟨trims', same⟩ :=
      failure?_textPiece (t := t) before.reverse start trims [.unclosed kind after]
    rw [pieces_unclosed opens none, same, List.reverse_reverse, failure?_unclosed,
      show start + byteLength before + byteLength after + 2 = start + byteLength cs by omega,
      List.findSome?_singleton]
  | @closed start stop kind cs before after body rest found opens closes reached later ih =>
    intro trims
    obtain ⟨inside, cut, dashless, -, long⟩ := pieces_closed opens closes
    obtain ⟨trims', same⟩ :=
      failure?_textPiece (t := t) before.reverse start trims (.markup kind inside :: pieces rest)
    rw [cut, same, List.reverse_reverse, failure?_markup, failure?_markupToken, dashless,
      show start + byteLength before + byteLength inside + 4 = stop by omega, ih,
      List.findSome?_cons]
    cases (Opener.closed kind (start + byteLength before) stop body).fault? <;> rfl

theorem Scan.exists (start : Nat) (cs : List Char) : ∃ found, Scan start cs found := by
  induction long : cs.length using Nat.strongRecOn generalizing start cs with
  | ind n ih =>
    rcases plain_or_opens cs with none | ⟨kind, before, after, opens⟩
    · exact ⟨_, .plain none⟩
    · rcases unclosed_or_closes kind (withoutLeadingDash after) with open_ | ⟨body, rest, closes⟩
      · exact ⟨_, .unclosed opens open_⟩
      · obtain ⟨inside, closesWhole, -⟩ := closes.inside
        have shorter : rest.length < n := by
          rw [← long, opens.cut, closesWhole.cut]
          simp
          omega
        have bytes := opens.byteLength_eq
        have more := closesWhole.byteLength_eq
        obtain ⟨found, later⟩ :=
          ih rest.length shorter (start + byteLength cs - byteLength rest) rest rfl
        exact ⟨_, .closed opens closes (by omega) later⟩

theorem Scan.unique {start : Nat} {cs : List Char} {found other : List Opener}
    (scan : Scan start cs found) (scan' : Scan start cs other) : other = found := by
  induction scan generalizing other with
  | plain none =>
    cases scan' with
    | plain => rfl
    | unclosed opens => exact absurd none opens.not_plain
    | closed opens => exact absurd none opens.not_plain
  | unclosed opens none =>
    cases scan' with
    | plain plain => exact absurd plain opens.not_plain
    | unclosed opens' =>
      obtain ⟨rfl, rfl, rfl⟩ := opens.unique opens'
      rfl
    | closed opens' closes =>
      obtain ⟨rfl, rfl, rfl⟩ := opens.unique opens'
      exact absurd none closes.not_unclosed
  | closed opens closes reached later ih =>
    cases scan' with
    | plain plain => exact absurd plain opens.not_plain
    | unclosed opens' none =>
      obtain ⟨rfl, rfl, rfl⟩ := opens.unique opens'
      exact absurd none closes.not_unclosed
    | closed opens' closes' reached' later' =>
      obtain ⟨rfl, rfl, rfl⟩ := opens.unique opens'
      obtain ⟨rfl, rfl⟩ := closes.unique closes'
      obtain rfl := Nat.add_right_cancel (reached.trans reached'.symm)
      rw [ih later']

/-- A source has one scan. It has tokens exactly when nothing is wrong with any opener of that, and
    fails with what is wrong with the first one otherwise. -/
theorem tokens_iff_closed_and_named (t : Trimming) (source : String) :
    ∃ found, Scan 0 source.toList found ∧ (∀ other, Scan 0 source.toList other → other = found) ∧
      ((∃ ts, tokens t source = .ok ts) ↔ ∀ o ∈ found, o.fault? = none) ∧
      ∀ e, tokens t source = .error e ↔ found.findSome? Opener.fault? = some e := by
  obtain ⟨found, scan⟩ := Scan.exists 0 source.toList
  have fails : failure? (tokens t source) = found.findSome? Opener.fault? := scan.failure?_eq false
  refine ⟨found, scan, fun other scan' => scan.unique scan', ?_, ?_⟩
  · rw [← failure?_eq_none, fails, List.findSome?_eq_none_iff]
  · intro e
    rw [← failure?_eq_some, fails]

end Templating
