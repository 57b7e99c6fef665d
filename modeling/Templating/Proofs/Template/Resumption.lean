import Templating.Proofs.Template.Records
import Templating.Proofs.Template.Slices

namespace Templating

/-- Modifiers with an integer offset, perhaps a limit, and without `reversed`. -/
structure Slices (n : Int64) (limit : Option Int64) (modifiers : Object) : Prop where
  offset : (modifiers.own? "offset").bind Value.asInteger? = some n
  limit : (Modifier.given? .limit modifiers).map countOr0 = limit
  forwards : Modifier.given? .reversed modifiers = none

/-- What is left behind an offset, cut at the limit if there is one. -/
def cutOut (n : Int64) (limit : Option Int64) (items : List Value) : List Value :=
  let rest := items.drop (boundary n.toInt items.length)
  rest.take ((limit.map fun l => boundary l.toInt rest.length).getD rest.length)

theorem boundary_le (n : Int) (length : Nat) : boundary n length ≤ length := by
  unfold boundary
  omega

theorem boundary_of_nonneg {n : Int} (forwards : 0 ≤ n) (length : Nat) :
    boundary n length = min n.toNat length := by
  rw [boundary, if_neg (by omega)]
  omega

theorem boundary_of_neg {n : Int} (backwards : n < 0) (length : Nat) :
    boundary n length = (length + n).toNat := by
  rw [boundary, if_pos backwards]
  omega

namespace Slices
variable {n : Int64} {limit : Option Int64} {m : Object}

theorem given_offset (h : Slices n limit m) :
    ∃ v, Modifier.given? .offset m = some v ∧ countOr0 v = n := by
  obtain ⟨v, own, reads⟩ := Option.bind_eq_some_iff.mp h.offset
  have defined : v.isUndefined = false := by
    cases v <;> first | rfl | cases reads
  refine ⟨v, ?_, ?_⟩
  · change (m.own? "offset").filter _ = some v
    rw [own, Option.filter_some, defined]
    rfl
  · rw [countOr0, reads, Option.getD_some]

theorem selects (h : Slices n limit m) (items : List Value) :
    select false m items = cutOut n limit items := by
  obtain ⟨v, offset, start⟩ := h.given_offset
  have dropped : Modifier.apply m items .offset = items.drop (boundary n.toInt items.length) := by
    simp only [Modifier.apply, offset]
    rw [offset_eq_drop, start]
  rw [cutOut, ← h.limit, select, modifiers]
  cases given : Modifier.given? .limit m with
  | none =>
    simp only [Option.map_none, Option.getD_none, List.take_length]
    simp [offset, given, h.forwards, dropped]
  | some l =>
    simp only [Option.map_some, Option.getD_some, ← clampIndex_eq (countOr0 l)]
    simp only [Bool.false_eq_true, if_false, List.filter_cons, offset, given, h.forwards,
      Option.isSome_some, Option.isSome_none, if_true, List.filter_nil, List.foldl_cons,
      List.foldl_nil, dropped]
    rw [Modifier.apply, given]
    rfl

end Slices

theorem cutOut_stretch (n : Int64) (limit : Option Int64) (items : List Value) :
    let start := boundary n.toInt items.length
    let stop := start + (cutOut n limit items).length
    stop ≤ items.length ∧ cutOut n limit items = (items.drop start).take (stop - start) := by
  intro start stop
  have short : (cutOut n limit items).length ≤ (items.drop start).length :=
    (List.take_prefix _ _).length_le
  have inside := boundary_le n.toInt items.length
  refine ⟨?_, ?_⟩
  · rw [List.length_drop] at short
    omega
  · rw [show stop - start = (cutOut n limit items).length by omega]
    exact List.prefix_iff_eq_take.mp (List.take_prefix _ _)

theorem Slices.resumeAt_eq {n : Int64} {limit : Option Int64} {m : Object} (h : Slices n limit m)
    {items : List Value} (bounded : items.length < 2 ^ 63) :
    (resumeAt m (cutOut n limit items)).toInt = n.toInt + (cutOut n limit items).length := by
  have reach := (cutOut_stretch n limit items).1
  have least := Int64.le_toInt n
  have largest := Int64.toInt_lt n
  have most : (mostCharged : Int) = 2 ^ 63 - 1 := rfl
  rw [resumeAt, h.offset, Option.getD_some, toInt_ofIntClamp]
  unfold boundary at reach
  split at reach <;> omega

theorem evaluateNamed_keeps {P : Object → Prop} (named : List NamedArgument)
    (keeps : ∀ a ∈ named, ∀ (o : Object) (v : Value), P o → P (o.insert a.key v))
    {before : Object} (holds : P before) (s : State) :
    (evaluateNamed before named s).Gives fun m _ => P m := by
  induction named generalizing before s with
  | nil => exact .done holds
  | cons a rest ih =>
    rw [List.forall_mem_cons] at keeps
    have evaluated : (a.evaluate s).Gives fun _ _ => True := .of_forall (fun _ _ => trivial) _
    exact evaluated.bind fun v t _ => ih keeps.2 (keeps.1 before v holds) t

theorem evaluateNamed_other {key : String} (named : List NamedArgument)
    (other : ∀ a ∈ named, a.key ≠ key) (before : Object) (s : State) :
    (evaluateNamed before named s).Gives fun m _ => m.own? key = before.own? key := by
  refine evaluateNamed_keeps (P := fun m => m.own? key = before.own? key) named ?_ rfl s
  intro a member o v same
  rw [Object.own?_insert, if_neg (Ne.symm (other a member)), same]

theorem evaluateModifiers_slices {header : LoopHeader} (continues : header.Continues)
    (only : ∀ a ∈ header.modifiers, a.key = "offset") (n : Int64) (s : State) :
    (evaluateModifiers header (.int n) s).Gives fun m _ => Slices n none m := by
  have others : ∀ a ∈ header.modifiers, a.key ≠ "limit" := by
    intro a member limit
    rw [only a member] at limit
    exact absurd limit (by decide)
  have unlimited : (evaluateModifiers header (.int n) s).Gives fun m _ => m.own? "limit" = none :=
    (evaluateNamed_other header.modifiers others .empty _).ensuring fun _ _ none => none
  refine ((evaluateModifiers_resume continues n s).and unlimited).mono ?_
  rintro m - ⟨resumes, limit⟩
  refine ⟨?_, ?_, ?_⟩
  · rw [resumes.offset]
    rfl
  · simp [Modifier.given?, Modifier.text, limit]
  · simp [Modifier.given?, Modifier.text, resumes.forwards]

theorem drop_eq_drop_iff {items : List Value} {i j : Nat} (left : i ≤ items.length)
    (right : j ≤ items.length) : items.drop i = items.drop j ↔ i = j := by
  constructor
  · intro same
    have lengths := congrArg List.length same
    rw [List.length_drop, List.length_drop] at lengths
    omega
  · rintro rfl
    rfl

/-- The next loop goes on where this one stopped unless this one counted from the end and
    reached the end or started before the first element. -/
theorem resumes_behind_iff (n : Int64) (limit : Option Int64) (items : List Value) :
    let start := boundary n.toInt items.length
    let stop := start + (cutOut n limit items).length
    boundary (n.toInt + (cutOut n limit items).length) items.length = stop ↔
      0 ≤ n.toInt ∨ stop = 0 ∨ -items.length ≤ n.toInt ∧ stop < items.length := by
  intro start stop
  have inside := (cutOut_stretch n limit items).1
  simp only [stop, start]
  generalize (cutOut n limit items).length = count at inside ⊢
  rcases Int.lt_or_le n.toInt 0 with backwards | forwards
  · rw [boundary_of_neg backwards] at inside ⊢
    rcases Int.lt_or_le (n.toInt + count) 0 with still | ahead
    · rw [boundary_of_neg still]
      omega
    · rw [boundary_of_nonneg ahead]
      omega
  · have behind : 0 ≤ n.toInt + count := by omega
    rw [boundary_of_nonneg forwards] at inside ⊢
    rw [boundary_of_nonneg behind]
    omega

/-- Wherever the loop was opened, its modifiers can only have come out like this. -/
def OpenedBy.Always (header : LoopHeader) (s : State) (P : Object → Prop) : Prop :=
  ∀ (previous : Int64) (x : State) (m : Object), x.bindings = s.bindings → x.modes = s.modes →
    (evaluateModifiers header (.int previous) x).MayGive m → P m

theorem OpenedBy.holds {header : LoopHeader} {previous : Int64} {items selected : List Value}
    {s : State} {m : Object} {P : Object → Prop}
    (opening : OpenedBy header previous items selected s m) (always : Always header s P) : P m := by
  obtain ⟨x, bindings, modes, given⟩ := opening.given
  exact always previous x m bindings modes given

/-- In one render or several with the same registers: a loop is opened with an integer offset,
    perhaps a limit, and no `reversed`, and then, with no other loop under its key in between, one
    with only `offset: continue`. The first one selects a stretch; the second one drops the
    given offset and the length of the stretch, counted from the end if this is negative. -/
theorem loop_resumes_behind_offset (items : List Value) (bounded : items.length < 2 ^ 63)
    (n : Int64) (limit : Option Int64) (r : Registers) (turns : List Turn)
    (share : Turn.Share r turns) (builtIn : ∀ t ∈ turns, BuiltIn t.nodes) :
    (∀ t ∈ turns, (bookAll t.nodes).erase = renderAll t.nodes) ∧
    ∀ before header selected s between header' selected' s' after,
      turns.flatMap Turn.entries
        = before ++ .loop header items selected s ::
            (between ++ .loop header' items selected' s' :: after) →
      header.ordered = false → OpenedBy.Always header s (Slices n limit) →
      (∀ e ∈ between, ¬ e.Opens header.continueKey) →
      header'.variableName = header.variableName →
      header'.collection.text = header.collection.text →
      header'.Continues → (∀ a ∈ header'.modifiers, a.key = "offset") →
      let start := boundary n.toInt items.length
      let stop := start + selected.length
      selected = cutOut n limit items ∧
      stop ≤ items.length ∧ selected = (items.drop start).take (stop - start) ∧
      selected' = items.drop (boundary (n.toInt + selected.length) items.length) ∧
      (selected' = items.drop stop ↔
        0 ≤ n.toInt ∨ stop = 0 ∨ -items.length ≤ n.toInt ∧ stop < items.length) := by
  refine ⟨fun t member => erase_bookAll (builtIn t member), ?_⟩
  intro before header selected s between header' selected' s' after parts unordered slices apart
    variableName collection continues only start stop
  have recording := Turn.registersAfter_recording turns builtIn share
  have sameKey : header'.continueKey = header.continueKey := by
    rw [LoopHeader.continueKey, LoopHeader.continueKey, variableName, collection]
  obtain ⟨m, opening⟩ := recording.opened _ _ _ _ _ _ parts
  have slice : Slices n limit m := opening.holds slices
  have first : selected = cutOut n limit items := by
    rw [opening.selects, unordered, slice.selects]
  -- What the second loop finds is what the first one left.
  have found : recordedBy header'.continueKey (r.recorded? header'.continueKey)
      (before ++ .loop header items selected s :: between) = some (resumeAt m selected) := by
    rw [sameKey, recordedBy_append]
    change recordedBy _ (if header.continueKey = header.continueKey then _ else _) between = _
    rw [if_pos rfl, recordedBy_unopened apart, opening.records]
  have parts' : turns.flatMap Turn.entries
      = (before ++ .loop header items selected s :: between) ++
          .loop header' items selected' s' :: after := by
    rw [parts, List.append_assoc, List.cons_append]
  obtain ⟨m', opening'⟩ := recording.opened _ _ _ _ _ _ parts'
  obtain ⟨x, -, -, given⟩ := opening'.given
  rw [found, Option.getD_some] at given
  obtain ⟨-, slice'⟩ := (evaluateModifiers_slices continues only _ x).of_mayGive given
  have second : selected' = items.drop (boundary (n.toInt + selected.length) items.length) := by
    rw [opening'.selects, continues.unordered, slice'.selects, cutOut, Option.map_none,
      Option.getD_none, List.take_length, first, slice.resumeAt_eq bounded]
  obtain ⟨inside, stretch⟩ := cutOut_stretch n limit items
  rw [← first] at inside stretch
  have behind := resumes_behind_iff n limit items
  rw [← first] at behind
  refine ⟨first, inside, stretch, second, ?_⟩
  rw [second, drop_eq_drop_iff (boundary_le _ _) inside]
  exact behind

def cutting (variableName collection : String) (n l : Int64) : LoopHeader :=
  let span : Span := ⟨0, 0⟩
  ⟨variableName, ⟨.path collection [], collection, span⟩,
    [⟨"offset", some ⟨.literal (.int n), "n", span⟩, span⟩,
      ⟨"limit", some ⟨.literal (.int l), "l", span⟩, span⟩], false⟩

theorem cutting_slices (variableName collection : String) (n l : Int64) (s : State) :
    OpenedBy.Always (cutting variableName collection n l) s (Slices n (some l)) := by
  intro previous x m _ _ given
  cases given
  exact ⟨rfl, rfl, rfl⟩

theorem Turn.entries_of_loop (t : Turn) (builtIn : BuiltIn t.nodes) {header : LoopHeader}
    (only : headers t.nodes = [header]) (once : t.entries.length = 1) {ns : List Int64}
    (nonempty : ns ≠ []) (integers : ∀ e ∈ t.entries, e.integers = ns.map some) :
    ∃ selected s, t.entries = [.loop header (ns.map .int) selected s] := by
  have own := t.opens_own builtIn
  obtain ⟨e, entries⟩ := List.length_eq_one_iff.mp once
  rw [only, entries] at own
  rw [entries] at integers ⊢
  have elements := integers e (List.mem_singleton_self e)
  cases e with
  | range _ => exact absurd (List.map_eq_nil_iff.mp elements.symm) nonempty
  | loop other items selected s =>
    obtain rfl := List.mem_singleton.mp (own _ (List.mem_singleton_self _) other rfl)
    exact ⟨selected, s, by rw [map_int_eq elements]⟩

def backwardsTurn : Turn :=
  turnOf (loopsOf [cutting "x" "c" (-4) 2]) fiveNumbers (.empty 0) none

def afterwardsTurn : Turn :=
  turnOf (loopsOf [goingOn "x" "c" none]) fiveNumbers backwardsTurn.run.state.registers (some 1)

theorem loop_resumes_behind_offset_across_renders :
    let items : List Value := [1, 2, 3, 4, 5].map .int
    let turns := [backwardsTurn, afterwardsTurn]
    Turn.Share (.empty 0) turns ∧ (∀ t ∈ turns, BuiltIn t.nodes) ∧
    ∃ selected s selected' s',
      turns.flatMap Turn.entries = [] ++ .loop (cutting "x" "c" (-4) 2) items selected s ::
        ([] ++ .loop (goingOn "x" "c" none) items selected' s' :: []) ∧
      OpenedBy.Always (cutting "x" "c" (-4) 2) s (Slices (-4) (some 2)) ∧
      (goingOn "x" "c" none).Continues ∧
      selected = [2, 3].map .int ∧ selected' = items.drop 3 := by
  intro items turns
  have share : Turn.Share (.empty 0) turns :=
    ⟨turnOf_registers _ _ _ _, turnOf_registers _ _ _ _, trivial⟩
  have builtIn : ∀ t ∈ turns, BuiltIn t.nodes :=
    List.forall_mem_cons.mpr ⟨rfl, List.forall_mem_singleton.mpr rfl⟩
  obtain ⟨selected, s, first⟩ := backwardsTurn.entries_of_loop rfl rfl (by decide +kernel)
    (List.cons_ne_nil 1 [2, 3, 4, 5]) (by decide +kernel)
  obtain ⟨selected', s', last⟩ := afterwardsTurn.entries_of_loop rfl rfl (by decide +kernel)
    (List.cons_ne_nil 1 [2, 3, 4, 5]) (by decide +kernel)
  have parts : turns.flatMap Turn.entries = [] ++ .loop (cutting "x" "c" (-4) 2) items selected s ::
      ([] ++ .loop (goingOn "x" "c" none) items selected' s' :: []) := by
    simp only [turns, List.flatMap_cons, List.flatMap_nil, first, last]
    rfl
  have slices := cutting_slices "x" "c" (-4) 2 s
  have continues := goingOn_continues "x" "c" none
  obtain ⟨-, follows⟩ := loop_resumes_behind_offset items (by decide) (-4) (some 2) (.empty 0)
    turns share builtIn
  obtain ⟨cut, -, -, second, -⟩ := follows [] (cutting "x" "c" (-4) 2) selected s []
    (goingOn "x" "c" none) selected' s' [] parts rfl slices (List.forall_mem_nil _) rfl rfl
    continues (List.forall_mem_singleton.mpr rfl)
  have two : selected = [2, 3].map .int := cut
  refine ⟨share, builtIn, selected, s, selected', s', parts, slices, continues, two, ?_⟩
  rw [second, two]
  rfl

theorem negative_offset_starts_over :
    let items : List Int64 := [1, 2, 3, 4, 5]
    let t := turnOf (loopsOf [cutting "x" "c" (-2) 2, goingOn "x" "c" none]) fiveNumbers
      (.empty 0) none
    let slices := t.entries.map fun e => e.visits (goingOn "x" "c" none).continueKey
    (∀ e ∈ t.entries, e.integers = items.map some) ∧
      slices.map (·.map Value.integer?)
        = [((items.drop 3).take (5 - 3)).map some, items.map some] ∧
      items.map some ≠ (items.drop 5).map some := by
  decide +kernel

end Templating
