import Mathlib.Data.List.DropRight
import Templating.Proofs.Source.OffsetSteps

namespace Templating
namespace Cursor

mutual

/-- Each construct takes a character before it asks for a part, so three steps for a character, with
    the calls that find nothing, are enough on either side. -/
theorem readExpr_agrees {text : List Char} {base : Nat} : ∀ (fuel steps : Nat) (c : Cursor),
    c.StandsIn text base → 3 * c.rest.length + 1 ≤ fuel → 3 * c.rest.length + 1 ≤ steps →
      Agrees c (Walk.readExpr text base steps) (readExpr fuel)
  | 0, _, _, _, few, _ => absurd few (by omega)
  | _ + 1, 0, _, _, _, few => absurd few (by omega)
  | fuel + 1, steps + 1, c, stands, enough, enough' => by
    rw [readExpr, Walk.readExpr]
    refine agrees_place (agrees_cursor (agrees_remaining stands ?_))
    cases here : c.rest with
    | nil => exact agrees_pure c none
    | cons d rest =>
      have length : c.rest.length = rest.length + 1 := by rw [here, List.length_cons]
      refine agrees_ite (fun bracket => ?_) fun _ => ?_
      · subst bracket
        have range := readRange_agrees fuel steps c c.position here stands (by omega) (by omega)
        rw [map_eq_pure_bind]
        exact range.bind stands fun _ _ _ _ _ => agrees_pure _ _
      · refine agrees_ite (fun quote => ?_) fun _ => ?_
        · rw [map_eq_pure_bind]
          exact (agrees_readString quote here stands _).bind stands fun _ _ _ _ _ => agrees_pure _ _
        · refine agrees_ite (fun _ => ?_) fun _ => agrees_ite (fun start => ?_) fun _ => ?_
          · rw [map_eq_pure_bind]
            exact (agrees_readNumber stands).bind stands fun _ _ _ _ _ => agrees_pure _ _
          · dsimp only
            rw [← here]
            refine agrees_root start here stands fun c₁ fewer stands => ?_
            exact (readSegments_agrees fuel steps c₁ _ stands (by omega) (by omega)).bind stands
              fun _ _ _ _ _ => agrees_pure _ _
          · exact agrees_pure c none
termination_by structural fuel => fuel

theorem readRange_agrees {text : List Char} {base : Nat} : ∀ (fuel steps : Nat) (c : Cursor)
    (start : Nat) {more : List Char}, c.rest = '(' :: more → c.StandsIn text base →
      3 * c.rest.length ≤ fuel → 3 * c.rest.length ≤ steps →
      Agrees c (Walk.readRange text base steps start) (readRange fuel start)
  | 0, _, _, _, _, here, _, few, _ => absurd few (by rw [here, List.length_cons]; omega)
  | _ + 1, 0, _, _, _, here, _, _, few => absurd few (by rw [here, List.length_cons]; omega)
  | fuel + 1, steps + 1, c, start, more, here, stands, enough, enough' => by
    rw [readRange, Walk.readRange]
    have some : 0 < c.rest.length := by simp [here]
    refine (agrees_one rfl here).bind stands fun _ c₁ moved _ stands => ?_
    have fewer := length_of_skip moved
    refine (agrees_blanks stands).bind stands fun _ c₂ _ leads stands => ?_
    have fewer₂ := leads.length_le
    refine (readExpr_agrees fuel steps c₂ stands (by omega) (by omega)).bind stands
      fun low c₃ _ leads stands => ?_
    have fewer₃ := leads.length_le
    refine (agrees_take stands _).bind stands fun dots c₄ _ leads stands => ?_
    have fewer₄ := leads.length_le
    refine agrees_ite (fun _ => agrees_fail stands _ _) fun _ => ?_
    refine (agrees_blanks stands).bind stands fun _ c₅ _ leads stands => ?_
    have fewer₅ := leads.length_le
    refine (readExpr_agrees fuel steps c₅ stands (by omega) (by omega)).bind stands
      fun high c₆ _ _ stands => ?_
    cases low with
    | none => exact agrees_fail stands _ _
    | some low =>
      cases high with
      | none => exact agrees_fail stands _ _
      | some high =>
        refine (agrees_take stands _).bind stands fun closed c₇ _ _ stands => ?_
        exact agrees_ite (fun _ => agrees_pure _ _) fun _ => agrees_fail stands _ _
termination_by structural fuel => fuel

theorem readSegments_agrees {text : List Char} {base : Nat} : ∀ (fuel steps : Nat) (c : Cursor)
    (start : Nat), c.StandsIn text base →
      3 * c.rest.length + 1 ≤ fuel → 3 * c.rest.length + 1 ≤ steps →
      Agrees c (Walk.readSegments text base steps start) (readSegments fuel start)
  | 0, _, _, _, _, few, _ => absurd few (by omega)
  | _ + 1, 0, _, _, _, _, few => absurd few (by omega)
  | fuel + 1, steps + 1, c, start, stands, enough, enough' => by
    by_cases property : ∃ rest, c.rest = '.' :: rest
    · obtain ⟨rest, here⟩ := property
      have some : 0 < c.rest.length := by simp [here]
      rw [readSegments, Walk.readSegments]
      refine agrees_cursor (agrees_remaining stands ?_)
      simp only [here]
      refine agrees_ite (fun _ => agrees_pure _ _) fun _ => ?_
      refine (agrees_one rfl here).bind stands fun _ c₁ moved _ stands => ?_
      have fewer := length_of_skip moved
      obtain rfl : c₁.rest = rest := by
        rw [rest_of_skip moved, here]
        rfl
      refine agrees_remaining stands ?_
      rw [isEmpty_letters]
      cases (c₁.rest.head?.map isNameChar).getD false with
      | false => exact agrees_fail stands _ _
      | true =>
        simp only [Bool.not_true, Bool.false_eq_true, if_true, if_false]
        rw [← letters_bind c₁.rest fun name => do
          let segments ← readSegments fuel start
          return .name (String.ofList name) :: segments]
        refine (agrees_letters stands).bind stands fun name c₂ _ leads stands => ?_
        have fewer₂ := leads.length_le
        exact (readSegments_agrees fuel steps c₂ start stands (by omega) (by omega)).bind stands
          fun _ _ _ _ _ => agrees_pure _ _
    · by_cases index : ∃ rest, c.rest = '[' :: rest
      · obtain ⟨rest, here⟩ := index
        have some : 0 < c.rest.length := by simp [here]
        rw [readSegments, Walk.readSegments]
        refine agrees_cursor (agrees_remaining stands ?_)
        simp only [here]
        refine (agrees_one rfl here).bind stands fun _ c₁ moved _ stands => ?_
        have fewer := length_of_skip moved
        refine (agrees_blanks stands).bind stands fun _ c₂ _ leads stands => ?_
        have fewer₂ := leads.length_le
        refine (readExpr_agrees fuel steps c₂ stands (by omega) (by omega)).bind stands
          fun found c₃ _ leads stands => ?_
        have fewer₃ := leads.length_le
        cases found with
        | none => exact agrees_fail stands _ _
        | some index =>
          refine (agrees_take stands _).bind stands fun closed c₄ _ leads stands => ?_
          have fewer₄ := leads.length_le
          refine agrees_ite (fun _ => agrees_fail stands _ _) fun _ => ?_
          exact (readSegments_agrees fuel steps c₄ start stands (by omega) (by omega)).bind stands
            fun _ _ _ _ _ => agrees_pure _ _
      · -- Neither side sees a segment, and that is known of the characters, not of the matches.
        have plain := not_exists.mp property
        have direct := not_exists.mp index
        rw [readSegments, Walk.readSegments]
        refine agrees_cursor (agrees_remaining stands ?_)
        simp only
        exact agrees_pure c []
termination_by structural fuel => fuel

end

section
variable {text : List Char} {base : Nat} {c : Cursor}

theorem StandsIn.slice {later : Cursor} (stands : c.StandsIn text base) (leads : c.LeadsTo later) :
    slice? c.position later.position text
      = some (c.rest.take (c.rest.length - later.rest.length)) := by
  obtain ⟨passed, cut, position⟩ := stands.cut
  have stop : later.position
      = byteLength (passed ++ c.rest.take (c.rest.length - later.rest.length)) := by
    conv => lhs; rw [leads.advance_eq]
    rw [byteLength_append, ← position]
    rfl
  have part := slice?_append passed (c.rest.take (c.rest.length - later.rest.length))
    (c.rest.drop (c.rest.length - later.rest.length))
  rwa [List.take_append_drop, ← cut, ← position, ← stop] at part

theorem agrees_value (stands : c.StandsIn text base) {steps : Nat}
    (enough : 3 * c.rest.length + 1 ≤ steps) : Agrees c (Walk.value text base steps) value := by
  refine (agrees_blanks stands).bind stands fun _ start _ leads stands => ?_
  have fewer := leads.length_le
  refine agrees_place (agrees_cursor ?_)
  have allowed : 3 * start.rest.length + 1 ≤ start.enough := by
    rw [Cursor.enough]
    omega
  refine (readExpr_agrees _ steps start stands allowed (by omega)).bind stands
    fun found later _ leads stands' => ?_
  cases found with
  | none => exact agrees_pure _ _
  | some e =>
    refine agrees_place (agrees_cursor (agrees_within (stands.slice leads) ?_))
    exact agrees_span stands' (agrees_pure _ _)

theorem agrees_readGiven (stands : c.StandsIn text base) {steps : Nat}
    (enough : 3 * c.rest.length + 1 ≤ steps) (separator : Char) (start : Nat) :
    Agrees c (Walk.readGiven text base steps separator start) (readGiven separator start) := by
  refine agrees_remaining stands (agrees_cursor (agrees_ite (fun here => ?_) fun _ => ?_))
  · obtain ⟨more, here⟩ := List.head?_eq_some_iff.mp here
    have moves : Agrees c (Walk.move separator.utf8Size) (skip 1) := by
      refine agrees_move ?_
      rw [here]
      rfl
    refine moves.bind stands fun _ _ _ leads stands => ?_
    have fewer := leads.length_le
    refine (agrees_value stands (by omega)).bind stands fun found _ _ _ stands => ?_
    cases found with
    | none => exact agrees_fail stands _ _
    | some v => exact agrees_pure _ _
  · exact agrees_pure _ none

theorem rest_skipBlank (c : Cursor) : c.skipBlank.rest = trimStart c.rest :=
  rest_advance (takeWhile_blank_append_trimStart c.rest).symm

theorem trimStart_skipBlank (c : Cursor) : trimStart c.skipBlank.rest = c.skipBlank.rest := by
  rw [rest_skipBlank]
  exact List.dropWhile_idempotent isBlank c.rest

theorem rest_of_no_name {later : Cursor} (read : lift identifier c = .ok none later) :
    later.rest = trimStart c.rest := by
  obtain ⟨none, rfl⟩ := EStateM.Result.ok.inj read
  rw [← rest_skipBlank]
  unfold identifier at none ⊢
  dsimp only at none ⊢
  split at none
  · cases none
  · rw [if_neg ‹_›]

theorem length_of_name {name : String} {later : Cursor}
    (read : lift identifier c = .ok (some name) later) : later.rest.length < c.rest.length := by
  obtain ⟨some, rfl⟩ := EStateM.Result.ok.inj read
  have moved := (LeadsTo.skipBlank c).length_le
  unfold identifier at some ⊢
  dsimp only at some ⊢
  split at some
  · rename_i opens
    rw [if_pos opens]
    cases here : c.skipBlank.rest with
    | nil => simp [here] at opens
    | cons d more =>
      have first : isNameChar d = true := isNameChar_of_isNameStart (by simpa [here] using opens)
      simp only [advance, List.length_drop, here, List.takeWhile_cons_of_pos first,
        List.length_cons] at moved ⊢
      omega
  · cases some

theorem readNamed_agrees (separator : Char) : ∀ (fuel steps : Nat) (c : Cursor),
    c.StandsIn text base → c.rest.length + 1 ≤ fuel → 3 * c.rest.length + 2 ≤ steps →
      Agrees c (Walk.namedArguments text base separator steps) (readNamed separator fuel)
  | 0, _, _, _, few, _ => absurd few (by omega)
  | _ + 1, 0, _, _, _, few => absurd few (by omega)
  | fuel + 1, steps + 1, c, stands, enough, enough' => by
    rw [readNamed, Walk.namedArguments]
    refine (agrees_blanks stands).bind stands fun _ c₁ moved leads stands => ?_
    have fewer := leads.length_le
    have bare : trimStart c₁.rest = c₁.rest := by
      cases moved
      exact trimStart_skipBlank c
    refine agrees_remaining stands (agrees_cursor ?_)
    rw [bare]
    refine agrees_ite (fun _ => agrees_pure _ _) fun some => agrees_place ?_
    refine (agrees_identifier stands).bind stands fun key c₂ read leads stands => ?_
    cases key with
    | none =>
      refine agrees_remaining stands ?_
      rw [show c₂.rest = c₁.rest from (rest_of_no_name read).trans bare]
      exact agrees_fail stands _ _
    | some key =>
      have fewer₂ := length_of_name read
      refine (agrees_blanks stands).bind stands fun _ c₃ _ leads stands => ?_
      have fewer₃ := leads.length_le
      refine (agrees_readGiven stands (by omega) separator _).bind stands
        fun given c₄ _ leads stands => ?_
      have fewer₄ := leads.length_le
      refine agrees_span stands (agrees_cursor ?_)
      refine (agrees_take stands _).bind stands fun _ c₅ _ leads stands => ?_
      have fewer₅ := leads.length_le
      exact (readNamed_agrees separator fuel steps c₅ stands (by omega) (by omega)).bind stands
        fun _ _ _ _ _ => agrees_pure _ _
termination_by structural fuel => fuel

theorem agrees_namedArguments (stands : c.StandsIn text base) {steps : Nat}
    (enough : 3 * c.rest.length + 2 ≤ steps) (separator : Char) :
    Agrees c (Walk.namedArguments text base separator steps) (namedArguments separator) :=
  (readNamed_agrees separator _ steps c stands (Nat.le_refl _) enough).congr rfl

end

def readAll : List Call → Cursor → List (EStateM.Result LexError Cursor Answer)
  | [], _ => []
  | call :: calls, c => call.read c :: readAll calls (landing (call.read c))

theorem byOffset_place {α : Type} (result : EStateM.Result LexError Cursor α) :
    (byOffset result).2 = (landing result).position := by
  cases result <;> rfl

section
variable {text : List Char} {base : Nat} {c : Cursor}

theorem call_agrees (stands : c.StandsIn text base) {steps : Nat}
    (enough : 3 * c.rest.length + 2 ≤ steps) (call : Call) :
    Agrees c (call.walk text base steps) call.read := by
  cases call with
  | identifier => exact (agrees_identifier stands).bind stands fun _ _ _ _ _ => agrees_pure _ _
  | word word => exact (agrees_takeWord stands word).bind stands fun _ _ _ _ _ => agrees_pure _ _
  | take wanted =>
    exact (agrees_take stands wanted.toList).bind stands fun _ _ _ _ _ => agrees_pure _ _
  | operator => exact (agrees_operator stands).bind stands fun _ _ _ _ _ => agrees_pure _ _
  | value => exact (agrees_value stands (by omega)).bind stands fun _ _ _ _ _ => agrees_pure _ _
  | hash separator =>
    exact (agrees_namedArguments stands enough separator).bind stands
      fun _ _ _ _ _ => agrees_pure _ _
  | skip => exact (agrees_blanks stands).bind stands fun _ _ _ _ _ => agrees_pure _ _
  | atEnd => exact agrees_remaining stands (agrees_cursor (agrees_pure _ _))
  | remaining => exact agrees_remaining stands (agrees_cursor (agrees_pure _ _))
  | spanFrom start => exact agrees_span stands (agrees_cursor (agrees_pure _ _))
  | restSpan =>
    obtain ⟨passed, cut, position⟩ := stands.cut
    refine agrees_place (agrees_cursor ?_)
    rw [restSpan, stands.base_eq, position, ← byteLength_append, ← cut]
    exact agrees_pure _ _

theorem calls_agree {steps : Nat} (calls : List Call) : ∀ {c : Cursor}, c.StandsIn text base →
    3 * c.rest.length + 2 ≤ steps →
    walkAll text base steps calls c.position = (readAll calls c).map byOffset ∧
    (c :: (readAll calls c).map landing).Pairwise LeadsTo := by
  induction calls with
  | nil => exact fun _ _ => ⟨rfl, List.pairwise_singleton _ _⟩
  | cons call calls ih =>
    intro c stands enough
    obtain ⟨same, onward⟩ := call_agrees stands enough call
    have fewer := onward.length_le
    obtain ⟨rest, further⟩ := ih (stands.onward onward) (by omega)
    constructor
    · change call.walk text base steps c.position
          :: walkAll text base steps calls (call.walk text base steps c.position).2 = _
      rw [same, byOffset_place, rest]
      rfl
    · refine List.pairwise_cons.mpr ⟨?_, further⟩
      rw [readAll, List.map_cons, List.forall_mem_cons]
      exact ⟨onward, fun later member => onward.trans (List.rel_of_pairwise_cons further member)⟩

end

theorem standsIn_ofText (text : String) (base : Nat) :
    (ofText text base).StandsIn text.toList base := ⟨⟨[], rfl, rfl⟩, rfl⟩

/-- Whatever calls are made on a text, three steps for a character and two more are enough for each
    of them to end, and it asks for no slice that is not there and does as the cursor does, errors
    included. It never goes back, and it stops between two characters of the text. -/
theorem calls_stay_inside (text : String) (base : Nat) (calls : List Call) :
    ∃ outcomes, (∀ steps, 3 * text.toList.length + 2 ≤ steps →
        walkAll text.toList base steps calls 0 = outcomes) ∧
      outcomes = (readAll calls (ofText text base)).map byOffset ∧
      (∀ outcome ∈ outcomes, outcome.1 ≠ .error .outside ∧ outcome.1 ≠ .error .unended) ∧
      (0 :: outcomes.map (·.2)).Pairwise (· ≤ ·) ∧
      ∀ outcome ∈ outcomes, ∃ passed rest,
        text.toList = passed ++ rest ∧ outcome.2 = byteLength passed := by
  have stands := standsIn_ofText text base
  have same {steps : Nat} (enough : 3 * text.toList.length + 2 ≤ steps) :=
    (calls_agree calls stands enough).1
  have further := (calls_agree calls stands (Nat.le_refl _)).2
  have places : ((readAll calls (ofText text base)).map byOffset).map (·.2)
      = ((readAll calls (ofText text base)).map landing).map Cursor.position := by
    rw [List.map_map, List.map_map]
    exact List.map_congr_left fun result _ => byOffset_place result
  refine ⟨_, fun _ => same, rfl, fun outcome member => ?_, ?_, fun outcome member => ?_⟩
  · obtain ⟨result, -, rfl⟩ := List.mem_map.mp member
    cases result <;> exact ⟨nofun, nofun⟩
  · rw [places]
    exact further.map Cursor.position fun _ _ leads => leads.position_le
  · obtain ⟨result, asked, rfl⟩ := List.mem_map.mp member
    have leads := List.rel_of_pairwise_cons further (List.mem_map_of_mem asked)
    obtain ⟨passed, cut, position⟩ := (stands.onward leads).cut
    exact ⟨passed, _, cut, (byOffset_place result).trans position⟩

example : (walkAll "é: a[ 'é".toList 0 26 [.identifier, .take "é:", .value, .value] 0).map (·.2)
    = [0, 3, 10, 10] := by cbv

end Cursor
end Templating
