import Templating.Proofs.Source.Pieces
import Templating.Proofs.Source.Recognition
import Templating.Proofs.Template.Records

namespace Templating

def Expr.Dashed (word : List Char) (e : Expr) : Prop :=
  (∃ l, e = .literal l) ∨ ∃ root steps, e = .path root steps ∧ word ++ ['-'] <+: root.toList

def Argument.Legible (a : Argument) : Prop :=
  ∀ word rest, (∀ x ∈ word, isNameChar x = true) → a.text.toList = word ++ '-' :: rest →
    a.expr.Dashed word

structure LoopHeader.Legible (h : LoopHeader) : Prop where
  names : ∀ x ∈ h.variableName.toList, isNameChar x = true
  collection : h.collection.Legible

theorem isNameChar_dash : isNameChar '-' = true := by decide

theorem takeWhile_name {word : List Char} (names : ∀ c ∈ word, isNameChar c = true)
    (rest : List Char) :
    word ++ ['-'] <+: (word ++ '-' :: rest).takeWhile isNameChar := by
  rw [List.takeWhile_append_of_pos names, List.takeWhile_cons_of_pos isNameChar_dash]
  exact (List.prefix_append_right_inj word).mpr ⟨_, rfl⟩

theorem Written.dashed {e : Expr} {text word rest : List Char} (written : Written e text)
    (names : ∀ x ∈ word, isNameChar x = true) (comes : text = word ++ '-' :: rest) :
    e.Dashed word := by
  have name := takeWhile_name names rest
  rw [← comes] at name
  cases written with
  | nil => exact .inl ⟨_, rfl⟩
  | yes => exact .inl ⟨_, rfl⟩
  | no => exact .inl ⟨_, rfl⟩
  | int => exact .inl ⟨_, rfl⟩
  | float => exact .inl ⟨_, rfl⟩
  | str => exact .inl ⟨_, rfl⟩
  | @path _ _ more root alone onward =>
    have stops : ∀ c ∈ (more ++ []).head?, isNameChar c = false := onward.stops trivial
    rw [List.append_nil] at stops
    rw [takeWhile_append_stop root.2 stops] at name
    exact .inr ⟨_, _, rfl, name⟩
  | range =>
    have none : word ++ ['-'] <+: [] := name
    exact absurd (List.prefix_nil.mp none) (by simp)

/-- Some tag has this header, under some settings. -/
def LoopHeader.Parsed (h : LoopHeader) : Prop :=
  ∃ (t : TagToken) (separator : Char) (ordered : Bool), t.read (readLoop separator ordered) = .ok h

theorem LoopHeader.Parsed.legible {h : LoopHeader} (parsed : h.Parsed) : h.Legible := by
  obtain ⟨t, separator, ordered, read⟩ := parsed
  obtain ⟨_, found⟩ := TagToken.read_takes (Cursor.readLoop_takes · separator ordered) read
  obtain ⟨name, written⟩ := found h rfl
  exact ⟨name.2, fun word rest names text => written.dashed names text⟩

structure SameHeader (h h' : LoopHeader) : Prop where
  variableName : h'.variableName = h.variableName
  collection : h'.collection.text = h.collection.text

/-- The variable of the second goes on with a dash and a word where that of the first ends. The
    collection of the first begins with this word and a dash and goes on as that of the second; it
    is a path whose root begins so, or a literal, which has nothing to visit. -/
def Lookalike (h h' : LoopHeader) : Prop :=
  ∃ word, h'.variableName = h.variableName ++ "-" ++ word ∧
    h.collection.text = word ++ "-" ++ h'.collection.text ∧ h.collection.expr.Dashed word.toList

/-- The loops go on from each other. -/
def SharesKey (h h' : LoopHeader) : Prop := SameHeader h h' ∨ Lookalike h h' ∨ Lookalike h' h

theorem append_dash_eq {as bs cs ds : List Char} (same : as ++ '-' :: bs = cs ++ '-' :: ds) :
    (cs = as ∧ ds = bs) ∨ (∃ word, cs = as ++ '-' :: word ∧ bs = word ++ '-' :: ds) ∨
      ∃ word, as = cs ++ '-' :: word ∧ ds = word ++ '-' :: bs := by
  rcases List.append_eq_append_iff.mp same with ⟨gap, first, rest⟩ | ⟨gap, first, rest⟩
  · cases gap with
    | nil =>
      rw [List.append_nil] at first
      exact .inl ⟨first, (List.cons.inj rest).2.symm⟩
    | cons x word =>
      obtain ⟨rfl, behind⟩ := List.cons.inj rest
      exact .inr (.inl ⟨word, first, behind⟩)
  · cases gap with
    | nil =>
      rw [List.append_nil] at first
      exact .inl ⟨first.symm, (List.cons.inj rest).2⟩
    | cons x word =>
      obtain ⟨rfl, behind⟩ := List.cons.inj rest
      exact .inr (.inr ⟨word, first, behind⟩)

theorem toList_dash (s t : String) : (s ++ "-" ++ t).toList = s.toList ++ '-' :: t.toList := by
  rw [String.toList_append, String.toList_append, List.append_assoc]
  rfl

theorem toList_continueKey (h : LoopHeader) : h.continueKey.toList
    = "continue-".toList ++ (h.variableName.toList ++ '-' :: h.collection.text.toList) := by
  have key : h.continueKey = "continue-" ++ (h.variableName ++ "-" ++ h.collection.text) := by
    simp only [LoopHeader.continueKey, String.append_assoc]
  rw [key, String.toList_append, toList_dash]

theorem lookalike_of_word {h h' : LoopHeader} (legible : h.Legible) (legible' : h'.Legible)
    {word : List Char}
    (variableName : h'.variableName.toList = h.variableName.toList ++ '-' :: word)
    (collection : h.collection.text.toList = word ++ '-' :: h'.collection.text.toList) :
    Lookalike h h' := by
  have names : ∀ x ∈ word, isNameChar x = true := by
    intro x member
    apply legible'.names
    rw [variableName]
    exact List.mem_append_right _ (List.mem_cons_of_mem _ member)
  refine ⟨String.ofList word, ?_, ?_, ?_⟩
  · rw [← String.toList_inj, toList_dash, variableName, String.toList_ofList]
  · rw [← String.toList_inj, toList_dash, collection, String.toList_ofList]
  · rw [String.toList_ofList]
    exact legible.collection word _ names collection

theorem Lookalike.same_key {h h' : LoopHeader} (alike : Lookalike h h') :
    h.continueKey = h'.continueKey := by
  obtain ⟨word, variableName, collection, -⟩ := alike
  simp only [LoopHeader.continueKey, variableName, collection, String.append_assoc]

theorem continueKey_eq_iff {h h' : LoopHeader} (legible : h.Legible) (legible' : h'.Legible) :
    h.continueKey = h'.continueKey ↔ SharesKey h h' := by
  constructor
  · intro same
    have texts := congrArg String.toList same
    rw [toList_continueKey, toList_continueKey] at texts
    rcases append_dash_eq (List.append_cancel_left texts) with
      ⟨first, rest⟩ | ⟨word, first, rest⟩ | ⟨word, first, rest⟩
    · exact .inl ⟨String.toList_inj.mp first, String.toList_inj.mp rest⟩
    · exact .inr (.inl (lookalike_of_word legible legible' first rest))
    · exact .inr (.inr (lookalike_of_word legible' legible first rest))
  · rintro (same | alike | alike)
    · rw [LoopHeader.continueKey, LoopHeader.continueKey, same.variableName, same.collection]
    · exact alike.same_key
    · exact alike.same_key.symm

theorem Turn.recorded_unopened {key : String} {r : Registers} {turns : List Turn}
    (share : Turn.Share r turns) (builtIn : ∀ t ∈ turns, BuiltIn t.nodes)
    (others : ∀ t ∈ turns, ∀ h ∈ headers t.nodes, h.continueKey ≠ key) :
    (Turn.registersAfter r turns).recorded? key = r.recorded? key := by
  rw [(Turn.registersAfter_recording turns builtIn share).last key]
  apply recordedBy_unopened
  intro e member opens
  obtain ⟨t, turn, entry⟩ := List.mem_flatMap.mp member
  cases e with
  | range elements => exact opens
  | loop h items selected s =>
    have own := t.opens_own (builtIn t turn) _ entry h rfl
    exact others t turn h own opens

/-- Headers of loops have one continuation key where they are the same or lookalikes. What
    `continue` means in a loop is left alone by all renders whose loops have headers that are
    neither. -/
theorem continuation_shared_iff {h h' : LoopHeader} (parsed : h.Parsed) (parsed' : h'.Parsed) :
    (h.continueKey = h'.continueKey ↔ SharesKey h h') ∧
    ∀ (r : Registers) (turns : List Turn), Turn.Share r turns → (∀ t ∈ turns, BuiltIn t.nodes) →
      (∀ t ∈ turns, ∀ other ∈ headers t.nodes, other.Parsed ∧ ¬ SharesKey h other) →
      (Turn.registersAfter r turns).recorded? h.continueKey = r.recorded? h.continueKey := by
  constructor
  · exact continueKey_eq_iff parsed.legible parsed'.legible
  · intro r turns share builtIn others
    apply Turn.recorded_unopened share builtIn
    intro t turn other member same
    obtain ⟨read, apart⟩ := others t turn other member
    exact apart ((continueKey_eq_iff parsed.legible read.legible).mp same.symm)

def loopTag (variableName collection : String) : TagToken :=
  ⟨"for", variableName ++ " in " ++ collection, 0, ⟨0, 0⟩, "for"⟩

def loopHeader (variableName collection : String) : LoopHeader :=
  let start := variableName.utf8ByteSize + 4
  let span : Span := ⟨start, start + collection.utf8ByteSize⟩
  ⟨variableName, ⟨.path collection [], collection, span⟩, [], false⟩

theorem loopTag_read {x c : String} (name : IsName x.toList) (root : IsName c.toList)
    (plain : c ∉ keywords) (short : x.utf8ByteSize + 4 + c.utf8ByteSize ≤ furthestOffset) :
    (loopTag x c).read (readLoop ':' false) = .ok (loopHeader x c) := by
  have written : Written (.path c []) (c.toList ++ []) := .path root (by simpa using plain) .nil
  have space : Gap [' '] := by decide
  have said : (loopTag x c).arguments.toList
      = [] ++ (x.toList ++ ([' '] ++ ("in".toList ++ ([' '] ++ (c.toList ++ [] ++ []))))) := by
    simp [loopTag]
  have read : (loopTag x c).read (readLoop ':' false) = .ok ⟨x, ⟨.path c [], _, _⟩, [], false⟩ :=
    read_loop_of_written name written blanks_nil space space blanks_nil said ':' false
  have start : byteLength ([] ++ x.toList) + byteLength ([' '] ++ "in".toList) + byteLength [' ']
      = x.utf8ByteSize + 4 := by
    rw [List.nil_append, byteLength_toList]
    rfl
  have stop : byteLength ([] ++ x.toList) + byteLength ([' '] ++ "in".toList)
      + byteLength ([' '] ++ (c.toList ++ [])) = x.utf8ByteSize + 4 + c.utf8ByteSize := by
    rw [List.append_nil, byteLength_append [' '] c.toList, ← Nat.add_assoc, start,
      byteLength_toList]
  have low : x.utf8ByteSize + 4 ≤ furthestOffset := Nat.le_trans (Nat.le_add_right _ _) short
  have span : (Span.ofRange (x.utf8ByteSize + 4) (x.utf8ByteSize + 4 + c.utf8ByteSize)).shift
      (loopTag x c).offset = ⟨x.utf8ByteSize + 4, x.utf8ByteSize + 4 + c.utf8ByteSize⟩ :=
    @Span.shift_ofRange _ _ 0 low short
  rw [start, stop, span, List.append_nil, String.ofList_toList] at read
  exact read

theorem loopHeader_parsed {x c : String} (name : IsName x.toList) (root : IsName c.toList)
    (plain : c ∉ keywords) (short : x.utf8ByteSize + 4 + c.utf8ByteSize ≤ furthestOffset) :
    (loopHeader x c).Parsed :=
  ⟨_, _, _, loopTag_read name root plain short⟩

def loneTurn (h : LoopHeader) : Turn := turnOf (loopsOf [h]) fiveNumbers (.empty 0) none

theorem continuation_shared_by_lookalikes :
    SharesKey (loopHeader "a" "b-c") (loopHeader "a-b" "c") ∧
    let turns := [loneTurn (loopHeader "x" "c")]
    Turn.Share (.empty 0) turns ∧
      (Turn.registersAfter (.empty 0) turns).recorded? (loopHeader "a" "b-c").continueKey
        = (Registers.empty 0).recorded? (loopHeader "a" "b-c").continueKey := by
  have parsed : (loopHeader "a" "b-c").Parsed :=
    loopHeader_parsed (by decide) (by decide) (by decide) (by decide)
  have parsed' : (loopHeader "a-b" "c").Parsed :=
    loopHeader_parsed (by decide) (by decide) (by decide) (by decide)
  have other : (loopHeader "x" "c").Parsed :=
    loopHeader_parsed (by decide) (by decide) (by decide) (by decide)
  have shared := continuation_shared_iff parsed parsed'
  have share : Turn.Share (.empty 0) [loneTurn (loopHeader "x" "c")] :=
    ⟨turnOf_registers _ _ _ _, trivial⟩
  constructor
  · apply shared.1.mp
    decide
  · constructor
    · exact share
    · apply shared.2 _ _ share
      · exact List.forall_mem_singleton.mpr rfl
      · intro t turn h member
        obtain rfl := List.mem_singleton.mp turn
        obtain rfl := List.mem_singleton.mp member
        constructor
        · exact other
        · intro alike
          have same := (continuation_shared_iff parsed other).1.mpr alike
          exact absurd same (by decide)

theorem lookalikes_share_offsets :
    (¬ ∀ h h' : LoopHeader, h.Parsed → h'.Parsed →
      (h.continueKey = h'.continueKey ↔ SameHeader h h')) ∧
    ¬ ∀ h h' : LoopHeader, h.Parsed → h'.Parsed → ¬ SameHeader h h' →
      (loneTurn h).run.state.registers.recorded? h'.continueKey
        = (Registers.empty 0).recorded? h'.continueKey := by
  have parsed : (loopHeader "a-b" "c").Parsed :=
    loopHeader_parsed (by decide) (by decide) (by decide) (by decide)
  have parsed' : (loopHeader "a" "b-c").Parsed :=
    loopHeader_parsed (by decide) (by decide) (by decide) (by decide)
  have differ : ¬ SameHeader (loopHeader "a-b" "c") (loopHeader "a" "b-c") := by
    intro same
    exact absurd same.variableName (by decide)
  constructor
  · intro keys
    have same : (loopHeader "a-b" "c").continueKey = (loopHeader "a" "b-c").continueKey := by decide
    exact differ ((keys _ _ parsed parsed').mp same)
  · intro alone
    have recorded : (loneTurn (loopHeader "a-b" "c")).run.state.registers.recorded?
        (loopHeader "a" "b-c").continueKey = some 5 := by decide +kernel
    have kept := alone _ _ parsed parsed' differ
    rw [recorded] at kept
    exact absurd kept (by decide)

end Templating
