import Templating.Proofs.Source.Offsets
import Templating.Proofs.Source.RoundTrip

namespace Templating
namespace Walk

theorem bind_of_ok {α β : Type} {w : Walk α} {f : α → Walk β} {p p' : Nat} {a : α}
    (result : w p = (.ok a, p')) : (w >>= f) p = f a p' := by
  change ExceptT.bindCont f (w p).1 (w p).2 = _
  rw [result]
  rfl

theorem bind_of_error {α β : Type} {w : Walk α} {f : α → Walk β} {p p' : Nat} {e : Mishap}
    (result : w p = (.error e, p')) : (w >>= f) p = (.error e, p') := by
  change ExceptT.bindCont f (w p).1 (w p).2 = _
  rw [result]
  rfl

end Walk

namespace Cursor

structure StandsIn (c : Cursor) (text : List Char) (base : Nat) : Prop where
  cut : ∃ passed, text = passed ++ c.rest ∧ c.position = byteLength passed
  base_eq : c.base = base

section
variable {text : List Char} {base : Nat} {c later : Cursor}

theorem StandsIn.onward (stands : c.StandsIn text base) (leads : c.LeadsTo later) :
    later.StandsIn text base := by
  obtain ⟨n, rfl⟩ := leads
  obtain ⟨passed, cut, position⟩ := stands.cut
  refine ⟨⟨passed ++ c.rest.take n, ?_, ?_⟩, stands.base_eq⟩
  · rw [List.append_assoc]
    exact cut.trans (congrArg _ (List.take_append_drop n c.rest).symm)
  · rw [byteLength_append, ← position]
    rfl

theorem LeadsTo.length_le (leads : c.LeadsTo later) : later.rest.length ≤ c.rest.length := by
  obtain ⟨n, rfl⟩ := leads
  rw [Cursor.advance, List.length_drop]
  exact Nat.sub_le ..

theorem LeadsTo.position_le (leads : c.LeadsTo later) : c.position ≤ later.position := by
  obtain ⟨n, rfl⟩ := leads
  exact Nat.le_add_right _ _

end

def landing {α : Type} : EStateM.Result LexError Cursor α → Cursor
  | .ok _ c => c
  | .error _ c => c

def byOffset {α : Type} : EStateM.Result LexError Cursor α → Except Mishap α × Nat
  | .ok a c => (.ok a, c.position)
  | .error e c => (.error (.refused e), c.position)

/-- From the place of the cursor on, the reading by offsets ends, and as the reader does. -/
structure Agrees {α : Type} (c : Cursor) (w : Walk α) (r : Reader α) : Prop where
  same : w c.position = byOffset (r c)
  onward : c.LeadsTo (landing (r c))

section
variable {text : List Char} {base : Nat} {α β : Type} {c : Cursor} {w : Walk α} {r : Reader α}

theorem agrees_pure (c : Cursor) (a : α) : Agrees c (pure a) (pure a) := ⟨rfl, .refl c⟩

theorem Agrees.bind {f : α → Walk β} {g : α → Reader β} (stands : c.StandsIn text base)
    (first : Agrees c w r)
    (next : ∀ a later, r c = .ok a later → c.LeadsTo later → later.StandsIn text base →
      Agrees later (f a) (g a)) : Agrees c (w >>= f) (r >>= g) := by
  obtain ⟨same, onward⟩ := first
  cases result : r c with
  | ok a later =>
    rw [result] at same onward
    obtain ⟨same', onward'⟩ := next a later result onward (stands.onward onward)
    constructor
    · rw [bind_of_ok result, Walk.bind_of_ok same, same']
    · rw [bind_of_ok result]
      exact onward.trans onward'
  | error e later =>
    rw [result] at same onward
    constructor
    · rw [bind_of_error result, Walk.bind_of_error same]
      rfl
    · rw [bind_of_error result]
      exact onward

theorem agrees_place {f : Nat → Walk α} (h : Agrees c (f c.position) r) :
    Agrees c (get >>= f) r := ⟨h.same, h.onward⟩

theorem agrees_cursor {g : Cursor → Reader α} (h : Agrees c w (g c)) : Agrees c w (get >>= g) :=
  ⟨h.same, h.onward⟩

theorem agrees_within {found : Option β} {b : β} {f : β → Walk α} (there : found = some b)
    (h : Agrees c (f b) r) : Agrees c (Walk.within found >>= f) r := by
  subst there
  exact ⟨h.same, h.onward⟩

theorem agrees_remaining {f : List Char → Walk α} (stands : c.StandsIn text base)
    (h : Agrees c (f c.rest) r) : Agrees c (Walk.remaining text >>= f) r := by
  obtain ⟨passed, cut, position⟩ := stands.cut
  have there : from? c.position text = some c.rest := by
    rw [cut, position, from?_append]
  refine ⟨?_, h.onward⟩
  rw [← h.same]
  change (Walk.within (from? c.position text) >>= f) c.position = _
  rw [there]
  rfl

theorem agrees_move {n k : Nat} (same : n = byteLength (c.rest.take k)) :
    Agrees c (Walk.move n) (skip k) := by
  subst same
  exact ⟨rfl, .advance c k⟩

theorem agrees_fail (stands : c.StandsIn text base) (cause : LexCause) (start : Nat) :
    Agrees c (Walk.fail base cause start : Walk α) (fail cause start) := by
  rw [← stands.base_eq]
  exact ⟨rfl, .refl c⟩

theorem Agrees.congr {r' : Reader α} (agrees : Agrees c w r) (alike : r c = r' c) :
    Agrees c w r' := by
  obtain ⟨same, onward⟩ := agrees
  rw [alike] at same onward
  exact ⟨same, onward⟩

theorem agrees_ite {P : Prop} [Decidable P] {w' : Walk α} {r' : Reader α}
    (yes : P → Agrees c w r) (no : ¬ P → Agrees c w' r') :
    Agrees c (if P then w else w') (if P then r else r') := by
  split
  · exact yes ‹_›
  · exact no ‹_›

theorem take_takeWhile (p : Char → Bool) (cs : List Char) :
    cs.take (cs.takeWhile p).length = cs.takeWhile p :=
  (List.prefix_iff_eq_take.mp (List.takeWhile_prefix p)).symm

theorem agrees_blanks (stands : c.StandsIn text base) :
    Agrees c (Walk.skipBlank text) blanks := by
  have lengths := congrArg byteLength (takeWhile_blank_append_trimStart c.rest)
  rw [byteLength_append, ← take_takeWhile] at lengths
  exact agrees_remaining stands ((agrees_move (by omega)).congr rfl)

theorem lift_take (wanted : List Char) : lift (take wanted) = do
    blanks
    let c ← get
    if (afterLead? wanted c.rest).isSome then do
      skip wanted.length
      return true
    else return false := by
  funext c
  change lift (take wanted) c
    = (if (afterLead? wanted c.skipBlank.rest).isSome then (do skip wanted.length; return true)
      else return false : Reader Bool) c.skipBlank
  simp only [lift, take]
  split <;> rfl

theorem agrees_take (stands : c.StandsIn text base) (wanted : List Char) :
    Agrees c (Walk.take text wanted) (lift (take wanted)) := by
  rw [lift_take]
  refine (agrees_blanks stands).bind stands fun _ later _ _ stands => ?_
  refine agrees_remaining stands (agrees_cursor (agrees_ite (fun found => ?_) fun _ => ?_))
  · obtain ⟨after, here⟩ := Option.isSome_iff_exists.mp found
    have comes := afterLead?_eq_some_iff.mp here
    have moves : Agrees later (Walk.move (byteLength wanted)) (skip wanted.length) :=
      agrees_move (by rw [comes, List.take_left])
    exact moves.bind stands fun _ _ _ _ _ => agrees_pure _ true
  · exact agrees_pure _ false

def letters (rest : List Char) : Reader (List Char) := do
  skip (rest.takeWhile isNameChar).length
  return rest.takeWhile isNameChar

theorem agrees_letters (stands : c.StandsIn text base) :
    Agrees c (Walk.letters c.rest) (letters c.rest) := by
  have length := find?_getD (fun d => !isNameChar d) c.rest
  simp only [Bool.not_not] at length
  have upTo : upTo? (byteLength (c.rest.takeWhile isNameChar)) c.rest
      = some (c.rest.takeWhile isNameChar) := by
    have cut := upTo?_append (c.rest.takeWhile isNameChar) (c.rest.dropWhile isNameChar)
    rwa [List.takeWhile_append_dropWhile] at cut
  unfold Walk.letters letters
  simp only [length]
  refine (agrees_move (by rw [take_takeWhile])).bind stands fun _ _ _ _ _ => ?_
  rw [← bind_pure (Walk.within _)]
  exact agrees_within upTo (agrees_pure _ _)

theorem lift_identifier : lift identifier = do
    blanks
    let c ← get
    if (c.rest.head?.map isNameStart).getD false then do
      let name ← letters c.rest
      return some (String.ofList name)
    else return none := by
  funext c
  change lift identifier c = (if (c.skipBlank.rest.head?.map isNameStart).getD false then (do
      let name ← letters c.skipBlank.rest
      return some (String.ofList name))
    else return none : Reader (Option String)) c.skipBlank
  simp only [lift, identifier]
  split <;> rfl

theorem agrees_identifier (stands : c.StandsIn text base) :
    Agrees c (Walk.identifier text) (lift identifier) := by
  rw [lift_identifier]
  refine (agrees_blanks stands).bind stands fun _ later _ _ stands => ?_
  refine agrees_remaining stands (agrees_cursor (agrees_ite (fun _ => ?_) fun _ => ?_))
  · exact (agrees_letters stands).bind stands fun _ _ _ _ _ => agrees_pure _ _
  · exact agrees_pure _ none

theorem agrees_takeWord (stands : c.StandsIn text base) (word : String) :
    Agrees c (Walk.takeWord text word) (lift (takeWord word)) := by
  have same := (agrees_identifier stands).same
  refine agrees_place ⟨?_, LeadsTo.takeWord word c⟩
  cases result : c.identifier with
  | mk found moved =>
    simp only [lift, result, byOffset] at same
    rw [Walk.bind_of_ok same]
    simp only [lift, takeWord, result]
    cases found with
    | none => rfl
    | some name =>
      dsimp only
      split <;> rfl

theorem lift_operator : lift operator = do
    blanks
    let c ← get
    match signs.find? (fun o => (afterLead? o.text.toList c.rest).isSome) with
    | some o => do
      skip o.text.length
      return some o
    | none => do
      let found ← lift (takeWord "contains")
      return if found then some .contains else none := by
  funext c
  change lift operator c = (match signs.find?
      (fun o => (afterLead? o.text.toList c.skipBlank.rest).isSome) with
    | some o => do
      skip o.text.length
      return some o
    | none => do
      let found ← lift (takeWord "contains")
      return if found then some .contains else none : Reader (Option Operator)) c.skipBlank
  simp only [lift, operator]
  cases signs.find? (fun o => (afterLead? o.text.toList c.skipBlank.rest).isSome) with
  | some o => rfl
  | none =>
    change _ = EStateM.Result.ok
      (if (c.skipBlank.takeWord "contains").1 then some Operator.contains else none)
      (c.skipBlank.takeWord "contains").2
    obtain ⟨taken, moved⟩ := c.skipBlank.takeWord "contains"
    cases taken <;> rfl

theorem agrees_operator (stands : c.StandsIn text base) :
    Agrees c (Walk.operator text) (lift operator) := by
  rw [lift_operator]
  refine (agrees_blanks stands).bind stands fun _ later _ _ stands => ?_
  refine agrees_remaining stands (agrees_cursor ?_)
  cases found : signs.find? (fun o => (afterLead? o.text.toList later.rest).isSome) with
  | some o =>
    have here := List.find?_some found
    obtain ⟨after, here⟩ := Option.isSome_iff_exists.mp here
    have comes := afterLead?_eq_some_iff.mp here
    have moves : Agrees later (Walk.move (byteLength o.text.toList)) (skip o.text.length) :=
      agrees_move (by rw [comes, ← String.length_toList, List.take_left])
    exact moves.bind stands fun _ _ _ _ _ => agrees_pure _ _
  | none =>
    exact (agrees_takeWord stands "contains").bind stands fun _ _ _ _ _ => agrees_pure _ _

theorem agrees_span {start : Nat} {f : Span → Walk α} (stands : c.StandsIn text base)
    (h : Agrees c (f (c.spanFrom start)) r) : Agrees c (Walk.spanFrom base start >>= f) r := by
  rw [spanFrom, stands.base_eq] at h
  exact ⟨h.same, h.onward⟩

theorem agrees_set {n k : Nat} (same : n = c.position + byteLength (c.rest.take k)) :
    Agrees c (set n : Walk PUnit) (skip k) := by
  subst same
  exact ⟨rfl, .advance c k⟩

theorem agrees_readNumber (stands : c.StandsIn text base) :
    Agrees c (Walk.readNumber text base c.position) (readNumber c.position) := by
  obtain ⟨passed, cut, position⟩ := stands.cut
  obtain ⟨after, rest⟩ := numberText_prefix c.rest
  have ends := numberEnd_utf8 passed c.rest
  rw [← cut, ← position] at ends
  refine agrees_place (agrees_cursor ?_)
  rw [ends]
  generalize numberText c.rest = number at rest
  obtain ⟨digits, isReal⟩ := number
  dsimp only at rest ⊢
  have moves : Agrees c (set (byteLength (passed ++ digits)) : Walk PUnit) (skip digits.length) :=
    agrees_set (by rw [← rest, List.take_left, byteLength_append, position])
  refine moves.bind stands fun _ later _ _ stands => ?_
  have there : slice? c.position (byteLength (passed ++ digits)) text = some digits := by
    rw [cut, ← rest, position, slice?_append]
  refine agrees_within there ?_
  cases if isReal then (real? digits).map Literal.float else (integer? digits).map Literal.int with
  | some l => exact agrees_pure _ _
  | none => exact agrees_fail stands _ _

theorem agrees_readString {quote : Char} (either : quote = '"' ∨ quote = '\'') {more : List Char}
    (here : c.rest = quote :: more) (stands : c.StandsIn text base) (start : Nat) :
    Agrees c (Walk.readString text base quote start) (readString quote start) := by
  obtain ⟨passed, cut, position⟩ := stands.cut
  have narrow : quote.utf8Size = 1 := by rcases either with rfl | rfl <;> rfl
  have opened : from? 1 c.rest = some more := by
    have behind := from?_append [quote] more
    simp only [byteLength, narrow] at behind
    rwa [here]
  have other : (fun d => !(d == quote)) = fun d => decide (d ≠ quote) := by
    funext d
    by_cases same : d = quote <;> simp [same]
  have scan := find?_cases (· == quote) more
  simp only [other] at scan
  refine agrees_remaining stands (agrees_within opened (agrees_cursor ?_))
  simp only [here, List.drop_succ_cons, List.drop_zero, List.length_cons]
  generalize more.takeWhile (fun d => decide (d ≠ quote)) = body at scan
  rcases scan with ⟨none, rfl⟩ | ⟨found, d, after, same, rfl⟩
  · rw [none, if_neg (by omega)]
    have moves : Agrees c (set (byteLength text) : Walk PUnit) (skip (body.length + 1)) := by
      refine agrees_set ?_
      rw [List.take_of_length_le (by simp [here]), position, ← byteLength_append, ← cut]
    exact moves.bind stands fun _ _ _ _ stands => agrees_fail stands _ _
  · obtain rfl : d = quote := beq_iff_eq.mp same
    have inside : 1 + body.length < (body ++ d :: after).length + 1 := by
      rw [List.length_append, List.length_cons]
      omega
    rw [found, if_pos inside]
    have moves : Agrees c (Walk.move (byteLength body + 2)) (skip (body.length + 2)) := by
      have taken : c.rest.take (body.length + 2) = d :: (body ++ [d]) := by
        rw [here, List.take_succ_cons, List.take_append, List.take_of_length_le (by omega)]
        simp
      refine agrees_move ?_
      rw [taken, byteLength, byteLength_append, byteLength, byteLength, narrow]
      omega
    exact moves.bind stands fun _ _ _ _ _ =>
      agrees_within (upTo?_append body (d :: after)) (agrees_pure _ _)

theorem agrees_root {d : Char} (start : isNameStart d = true) {more : List Char}
    (here : c.rest = d :: more) (stands : c.StandsIn text base) {f : Option String → Walk α}
    (next : ∀ later : Cursor, later.rest.length < c.rest.length → later.StandsIn text base →
      Agrees later (f (some (String.ofList (c.rest.takeWhile isNameChar)))) r) :
    Agrees c (Walk.identifier text >>= f)
      (skip (c.rest.takeWhile isNameChar).length >>= fun _ => r) := by
  let named : Reader (Option String) :=
    skip (c.rest.takeWhile isNameChar).length >>= fun _ =>
      pure (some (String.ofList (c.rest.takeWhile isNameChar)))
  have first : isNameChar d = true := isNameChar_of_isNameStart start
  have agrees : Agrees c (Walk.identifier text) named := by
    refine (agrees_identifier stands).congr ?_
    have bare : c.skipBlank = c := by
      rw [skipBlank, here, List.takeWhile_cons_of_neg (by simp [isBlank_of_isNameChar first])]
      exact advance_zero c
    simp only [lift, identifier, bare, here, List.head?_cons, Option.map_some, Option.getD_some,
      start, if_true]
    rw [← here]
    rfl
  have parts : (skip (c.rest.takeWhile isNameChar).length >>= fun _ => r)
      = named >>= fun _ => r := by
    simp only [named, bind_assoc, pure_bind]
  rw [parts]
  refine agrees.bind stands fun found later result _ stands => ?_
  cases result
  refine next _ ?_ stands
  have taken : 0 < (c.rest.takeWhile isNameChar).length := by simp [here, first]
  have left : 0 < c.rest.length := by simp [here]
  simp only [advance, List.length_drop]
  omega

theorem rest_of_skip {n : Nat} {u : Unit} {later : Cursor} (moved : skip n c = .ok u later) :
    later.rest = c.rest.drop n := by
  cases moved
  rfl

theorem length_of_skip {n : Nat} {u : Unit} {later : Cursor} (moved : skip n c = .ok u later) :
    later.rest.length = c.rest.length - n := by
  rw [rest_of_skip moved, List.length_drop]

theorem isEmpty_letters (cs : List Char) :
    (cs.takeWhile isNameChar).isEmpty = !(cs.head?.map isNameChar).getD false := by
  cases cs with
  | nil => rfl
  | cons d rest => cases name : isNameChar d <;> simp [name]

theorem letters_bind (rest : List Char) (f : List Char → Reader β) :
    letters rest >>= f = skip (rest.takeWhile isNameChar).length >>= fun _ =>
      f (rest.takeWhile isNameChar) := by
  simp only [letters, bind_assoc, pure_bind]

theorem agrees_one {d : Char} (narrow : d.utf8Size = 1) {more : List Char}
    (here : c.rest = d :: more) : Agrees c (Walk.move 1) (skip 1) := by
  refine agrees_move ?_
  rw [here, List.take_succ_cons, List.take_zero, byteLength, byteLength, narrow]

end

end Cursor
end Templating
