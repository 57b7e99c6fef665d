import Mathlib.Data.List.Chain
import Mathlib.Data.String.Basic
import Templating.Source.Markup

namespace Templating

theorem byteLength_eq_utf8Len (cs : List Char) : byteLength cs = String.utf8Len cs := by
  induction cs with
  | nil => rfl
  | cons c rest ih => rw [byteLength, String.utf8Len_cons, ih, Nat.add_comm]

theorem byteLength_toList (s : String) : byteLength s.toList = s.utf8ByteSize := by
  rw [byteLength_eq_utf8Len, ← String.utf8ByteSize_ofList, String.ofList_toList]

theorem byteLength_eq_zero {cs : List Char} : byteLength cs = 0 ↔ cs = [] := by
  rw [byteLength_eq_utf8Len]
  exact String.utf8Len_eq_zero

theorem byteLength_pos {cs : List Char} (filled : cs ≠ []) : 0 < byteLength cs :=
  Nat.pos_of_ne_zero fun none => filled (byteLength_eq_zero.mp none)

theorem append_inj_of_byteLength {a b c d : List Char} (same : a ++ b = c ++ d)
    (long : byteLength a = byteLength c) : a = c ∧ b = d := by
  rcases List.append_eq_append_iff.mp same with ⟨more, rfl, rfl⟩ | ⟨more, rfl, rfl⟩
  · rw [byteLength_append] at long
    obtain rfl := byteLength_eq_zero.mp (show byteLength more = 0 by omega)
    simp
  · rw [byteLength_append] at long
    obtain rfl := byteLength_eq_zero.mp (show byteLength more = 0 by omega)
    simp

/-- `part` stands in a text from byte `start` to byte `stop`. -/
def Stands (source : List Char) (start stop : Nat) (part : List Char) : Prop :=
  ∃ before after, source = before ++ part ++ after ∧ byteLength before = start ∧
    start + byteLength part = stop

namespace Stands
variable {source part : List Char} {start stop : Nat}

theorem stop_eq (h : Stands source start stop part) : start + byteLength part = stop := by
  obtain ⟨_, _, _, _, stops⟩ := h
  exact stops

theorem within (h : Stands source start stop part) : stop ≤ byteLength source := by
  obtain ⟨before, after, rfl, rfl, rfl⟩ := h
  simp only [byteLength_append]
  omega

theorem front (a b : List Char) (h : Stands source start stop (a ++ b)) :
    Stands source start (stop - byteLength b) a := by
  obtain ⟨before, after, rfl, rfl, rfl⟩ := h
  refine ⟨before, b ++ after, by simp only [List.append_assoc], rfl, ?_⟩
  rw [byteLength_append]
  omega

theorem back (a b : List Char) (h : Stands source start stop (a ++ b)) :
    Stands source (start + byteLength a) stop b := by
  obtain ⟨before, after, rfl, rfl, rfl⟩ := h
  refine ⟨before ++ a, after, by simp only [List.append_assoc], byteLength_append _ _, ?_⟩
  rw [byteLength_append]
  omega

end Stands

def Piece.source : Piece → List Char
  | .text cs => cs
  | .markup kind inside => '\x7b' :: kind.opening :: (inside ++ [kind.closing, '\x7d'])
  | .unclosed kind inside => '\x7b' :: kind.opening :: inside

def sourceOf (ps : List Piece) : List Char := ps.flatMap Piece.source

theorem sourceOf_cons (p : Piece) (rest : List Piece) :
    sourceOf (p :: rest) = p.source ++ sourceOf rest := rfl

theorem sourceOf_textPiece (seen : List Char) : sourceOf (textPiece seen) = seen.reverse := by
  cases seen with
  | nil => rfl
  | cons c rest => simp [textPiece, sourceOf, Piece.source]

theorem sourceOf_append (ps qs : List Piece) : sourceOf (ps ++ qs) = sourceOf ps ++ sourceOf qs :=
  List.flatMap_append

mutual

theorem sourceOf_piecesOfText : ∀ seen cs : List Char,
    sourceOf (piecesOfText seen cs) = seen.reverse ++ cs
  | seen, [] => by rw [piecesOfText, sourceOf_textPiece, List.append_nil]
  | seen, [c] => by rw [piecesOfText, sourceOf_textPiece, List.reverse_cons]
  | seen, a :: b :: rest => by
    rw [piecesOfText]
    split
    · rename_i opens
      rw [sourceOf_append, sourceOf_textPiece, sourceOf_piecesOfMarkup, opens.1, opens.2]
      rfl
    · split
      · rename_i opens
        rw [sourceOf_append, sourceOf_textPiece, sourceOf_piecesOfMarkup, opens.1, opens.2]
        rfl
      · rw [sourceOf_piecesOfText, List.reverse_cons, List.append_assoc]
        rfl
termination_by structural _ cs => cs

theorem sourceOf_piecesOfMarkup (kind : Markup) : ∀ seen cs : List Char,
    sourceOf (piecesOfMarkup kind seen cs)
      = '\x7b' :: kind.opening :: (seen.reverse ++ cs)
  | seen, [] => by simp [piecesOfMarkup, sourceOf, Piece.source]
  | seen, [c] => by simp [piecesOfMarkup, sourceOf, Piece.source]
  | seen, a :: b :: rest => by
    rw [piecesOfMarkup]
    split
    · rename_i closes
      rw [sourceOf_cons, sourceOf_piecesOfText, closes.1, closes.2]
      simp [Piece.source]
    · rw [sourceOf_piecesOfMarkup, List.reverse_cons, List.append_assoc]
      rfl
termination_by structural _ cs => cs

end

theorem sourceOf_pieces (source : List Char) : sourceOf (pieces source) = source :=
  sourceOf_piecesOfText [] source

def opensMarkup (a b : Char) : Bool := a == '\x7b' && (b == '\x7b' || b == '%')

def Plain (cs : List Char) : Prop := cs.IsChain fun a b => opensMarkup a b = false

theorem Plain.part {part cs : List Char} (plain : Plain cs) (within : part <:+: cs) :
    Plain part := List.IsChain.infix plain within

theorem Plain.lacks {cs : List Char} (plain : Plain cs) {a b : Char}
    (opens : opensMarkup a b = true) : ¬ [a, b] <:+: cs := by
  intro within
  have alone := plain.part within
  rw [Plain, List.isChain_pair, opens] at alone
  exact absurd alone (by decide)

theorem Plain.concat {cs : List Char} {a b : Char} (plain : Plain (cs ++ [a]))
    (apart : opensMarkup a b = false) : Plain (cs ++ [a] ++ [b]) := by
  refine List.isChain_append.mpr ⟨plain, List.isChain_singleton b, ?_⟩
  intro x last y first
  simp only [List.getLast?_append, List.getLast?_singleton, List.head?_cons, Option.some_or,
    Option.mem_some_iff] at last first
  subst last first
  exact apart

def CutApart : List Piece → Prop
  | [] => True
  | .text cs :: rest =>
    cs ≠ [] ∧ Plain cs ∧ (∀ ds later, rest ≠ .text ds :: later) ∧ CutApart rest
  | .markup _ _ :: rest => CutApart rest
  | .unclosed _ _ :: rest => CutApart rest

theorem cutApart_textPiece (seen : List Char) (plain : Plain seen.reverse) (rest : List Piece)
    (apart : CutApart rest) (other : ∀ ds later, rest ≠ .text ds :: later) :
    CutApart (textPiece seen ++ rest) := by
  cases seen with
  | nil => exact apart
  | cons c before => exact ⟨by simp, plain, other, apart⟩

theorem piecesOfMarkup_ne_text (kind : Markup) : ∀ seen cs : List Char,
    ∀ ds later, piecesOfMarkup kind seen cs ≠ .text ds :: later
  | _, [] => by simp [piecesOfMarkup]
  | _, [_] => by simp [piecesOfMarkup]
  | seen, a :: b :: rest => by
    intro ds later
    rw [piecesOfMarkup]
    split
    · simp
    · exact piecesOfMarkup_ne_text kind (a :: seen) (b :: rest) ds later
termination_by structural _ cs => cs

mutual

theorem cutApart_piecesOfText : ∀ seen cs : List Char, Plain (seen.reverse ++ cs.take 1) →
    CutApart (piecesOfText seen cs)
  | seen, [], plain => by
    have whole := cutApart_textPiece seen (by simpa using plain) [] trivial (by simp)
    simpa [piecesOfText] using whole
  | seen, [c], plain => by
    have whole := cutApart_textPiece (c :: seen) (by simpa using plain) [] trivial (by simp)
    simpa [piecesOfText] using whole
  | seen, a :: b :: rest, plain => by
    have before : Plain seen.reverse := plain.part (List.prefix_append _ _).isInfix
    have opened : ∀ kind, CutApart (textPiece seen ++ piecesOfMarkup kind [] rest) := fun kind =>
      cutApart_textPiece seen before _ (cutApart_piecesOfMarkup kind [] rest)
        (piecesOfMarkup_ne_text kind [] rest)
    rw [piecesOfText]
    split
    · exact opened .output
    · split
      · exact opened .tag
      · rename_i output tag
        refine cutApart_piecesOfText (a :: seen) (b :: rest) ?_
        have apart : opensMarkup a b = false := by
          simp only [opensMarkup, Bool.and_eq_false_iff, Bool.or_eq_false_iff, beq_eq_false_iff_ne]
          by_cases brace : a = '\x7b'
          · exact .inr ⟨fun same => output ⟨brace, same⟩, fun same => tag ⟨brace, same⟩⟩
          · exact .inl brace
        rw [List.reverse_cons]
        exact Plain.concat plain apart
termination_by structural _ cs => cs

theorem cutApart_piecesOfMarkup (kind : Markup) : ∀ seen cs : List Char,
    CutApart (piecesOfMarkup kind seen cs)
  | _, [] => by simp [piecesOfMarkup, CutApart]
  | _, [_] => by simp [piecesOfMarkup, CutApart]
  | seen, a :: b :: rest => by
    rw [piecesOfMarkup]
    split
    · refine cutApart_piecesOfText [] rest ?_
      cases rest with
      | nil => exact List.isChain_nil
      | cons c later => exact List.isChain_singleton c
    · exact cutApart_piecesOfMarkup kind (a :: seen) (b :: rest)
termination_by structural _ cs => cs

end

theorem cutApart_pieces (source : List Char) : CutApart (pieces source) := by
  refine cutApart_piecesOfText [] source ?_
  cases source with
  | nil => exact List.isChain_nil
  | cons c rest => exact List.isChain_singleton c

end Templating
