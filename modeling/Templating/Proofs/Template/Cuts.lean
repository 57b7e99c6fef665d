import Mathlib.Data.List.Nodup
import Templating.Proofs.Template.Resumption

namespace Templating

def shorter {α : Type} (xs ys : List α) : List α := if xs.length ≤ ys.length then xs else ys

theorem shorter_take {α : Type} (items : List α) (i j : Nat) :
    shorter (items.take i) (items.take j) = items.take (min i j) := by
  rw [shorter, List.length_take, List.length_take]
  split
  · rw [List.take_eq_take_iff]
    omega
  · rw [List.take_eq_take_iff]
    omega

theorem length_limit (items : List Value) (n : Int64) :
    (limit items n).length = boundary n.toInt items.length := by
  rw [limit_eq_take, List.length_take, Nat.min_eq_left (boundary_le _ _)]

theorem limit_append_offset (items : List Value) (n : Int64) :
    limit items n ++ offset items n = items := by
  rw [limit_eq_take, offset_eq_drop]
  exact List.take_append_drop _ items

theorem boundary_boundary {m : Int} (forwards : 0 ≤ m) (n : Int) (length : Nat) :
    boundary m (boundary n length) = min (boundary n length) (boundary m length) := by
  have inside := boundary_le n length
  rw [boundary_of_nonneg forwards, boundary_of_nonneg forwards]
  omega

theorem limit_limit (items : List Value) (n : Int64) {m : Int64} (forwards : 0 ≤ m) :
    limit (limit items n) m = shorter (limit items n) (limit items m) := by
  have forwards : 0 ≤ m.toInt := Int64.le_iff_toInt_le.mp forwards
  calc limit (limit items n) m
      = (limit items n).take (boundary m.toInt (boundary n.toInt items.length)) := by
        rw [limit_eq_take (limit items n), length_limit]
    _ = items.take (min (boundary n.toInt items.length) (boundary m.toInt items.length)) := by
        rw [boundary_boundary forwards, limit_eq_take, List.take_take]
        congr 1
        omega
    _ = shorter (limit items n) (limit items m) := by
        rw [limit_eq_take, limit_eq_take, shorter_take]

/-- A limit and an offset of the same number cut at the same place: what the one keeps the other
    drops, so that together they give every element once and in order. A limit that is not
    negative cuts what any limit left down to the shorter of what the two leave of the whole. -/
theorem offset_and_limit_cut_alike (items : List Value) (n : Int64) :
    let cut := boundary n.toInt items.length
    limit items n = items.take cut ∧ offset items n = items.drop cut ∧
    limit items n ++ offset items n = items ∧
    ∀ m : Int64, 0 ≤ m → limit (limit items n) m = shorter (limit items n) (limit items m) :=
  ⟨limit_eq_take items n, offset_eq_drop items n, limit_append_offset items n,
    fun _ forwards => limit_limit items n forwards⟩

theorem offset_and_limit_cut_alike_at_the_ends :
    let items : List Value := [1, 2, 3, 4, 5].map .int
    limit items Int64.minValue = [] ∧ offset items Int64.minValue = items ∧
    limit items (-2) = [1, 2, 3].map .int ∧ offset items (-2) = [4, 5].map .int ∧
    (0 : Int64) ≤ 2 ∧ (0 : Int64) ≤ Int64.maxValue ∧
    limit (limit items (-2)) 2 = [1, 2].map .int ∧
    limit (limit items (-2)) Int64.maxValue = [1, 2, 3].map .int := by
  intro items
  have small : (0 : Int64) ≤ 2 := by decide
  have largest : (0 : Int64) ≤ Int64.maxValue := by decide
  obtain ⟨none, all, -, -⟩ := offset_and_limit_cut_alike items Int64.minValue
  obtain ⟨kept, dropped, -, again⟩ := offset_and_limit_cut_alike items (-2)
  exact ⟨none, all, kept, dropped, small, largest, again 2 small, again _ largest⟩

structure Modifier.Alone (m : Modifier) (n : Int64) (arguments : Object) : Prop where
  reads : (m.given? arguments).map countOr0 = some n
  others : ∀ other : Modifier, other ≠ m → arguments.own? other.text = none

theorem Modifier.text_injective {m other : Modifier} (same : other.text = m.text) : other = m := by
  have first : named? other.text = some other := named?_eq_some.mpr rfl
  have second : named? other.text = some m := named?_eq_some.mpr same
  exact Option.some.inj (first.symm.trans second)

theorem Modifier.own_of_given {m : Modifier} {arguments : Object}
    (given : (m.given? arguments).isSome) : (arguments.own? m.text).isSome := by
  obtain ⟨v, given⟩ := Option.isSome_iff_exists.mp given
  exact Option.isSome_of_eq_some (Option.filter_eq_some_iff.mp given).1

namespace Modifier.Alone
variable {m : Modifier} {n : Int64} {arguments : Object}

theorem given (h : m.Alone n arguments) : (m.given? arguments).isSome := by
  rw [← Option.isSome_map, h.reads]
  rfl

theorem mem_modifiers (h : m.Alone n arguments) (ordered : Bool) (other : Modifier) :
    other ∈ modifiers ordered arguments ↔ other = m := by
  have alone (own : (arguments.own? other.text).isSome) : other = m := by
    by_contra apart
    rw [h.others other apart] at own
    exact absurd own Bool.false_ne_true
  have given : (other.given? arguments).isSome ↔ other = m :=
    ⟨fun given => alone (own_of_given given), fun same => same ▸ h.given⟩
  have named : (arguments.own? other.text).isSome ↔ other = m :=
    ⟨alone, fun same => same ▸ own_of_given h.given⟩
  cases ordered with
  | false => cases other <;> simp [modifiers, given]
  | true => simp [modifiers, named?_eq_some, ← Object.own?_isSome, named]

theorem modifiers_eq (h : m.Alone n arguments) (distinct : arguments.Distinct) (ordered : Bool) :
    modifiers ordered arguments = [m] := by
  have once : (modifiers ordered arguments).Nodup := by
    cases ordered with
    | false => exact List.Nodup.filter _ (by decide)
    | true =>
      refine List.Nodup.filterMap (fun key key' m named named' => ?_) distinct
      rw [named?_eq_some.mp named, named?_eq_some.mp named']
  refine List.perm_singleton.mp ((List.perm_ext_iff_of_nodup once (List.nodup_singleton m)).mpr ?_)
  intro other
  rw [h.mem_modifiers, List.mem_singleton]

theorem select_eq (h : m.Alone n arguments) (distinct : arguments.Distinct) (ordered : Bool)
    (items : List Value) : select ordered arguments items = m.apply arguments items := by
  rw [select, h.modifiers_eq distinct, List.foldl_cons, List.foldl_nil]

theorem apply_limit (h : Modifier.limit.Alone n arguments) (items : List Value) :
    Modifier.limit.apply arguments items = Templating.limit items n := by
  obtain ⟨v, given, reads⟩ := Option.map_eq_some_iff.mp h.reads
  rw [Modifier.apply, given, ← reads]

theorem apply_offset (h : Modifier.offset.Alone n arguments) (items : List Value) :
    Modifier.offset.apply arguments items = Templating.offset items n := by
  obtain ⟨v, given, reads⟩ := Option.map_eq_some_iff.mp h.reads
  rw [Modifier.apply, given, ← reads]

end Modifier.Alone

theorem OpenedBy.distinct {header : LoopHeader} {previous : Int64} {items selected : List Value}
    {s : State} {m : Object} (opening : OpenedBy header previous items selected s m) :
    m.Distinct := by
  obtain ⟨x, -, -, given⟩ := opening.given
  have inserted : ∀ a ∈ header.modifiers, ∀ (o : Object) (v : Value), o.Distinct →
      (o.insert a.key v).Distinct := fun a _ _ v distinct => distinct.insert a.key v
  have evaluated : (evaluateModifiers header (.int previous) x).Gives fun m _ => m.Distinct :=
    (evaluateNamed_keeps header.modifiers inserted Object.distinct_empty _).ensuring fun _ _ h => h
  obtain ⟨-, distinct⟩ := evaluated.of_mayGive given
  exact distinct

/-- In one render or several with the same registers, in whatever order and with whatever else
    in between: a loop with only a limit and a loop with only an offset of the same number, opened
    over the same elements, select parts that give these elements when put together. -/
theorem limit_and_offset_part_elements (items : List Value) (n : Int64) (r : Registers)
    (turns : List Turn) (share : Turn.Share r turns) (builtIn : ∀ t ∈ turns, BuiltIn t.nodes) :
    (∀ t ∈ turns, (bookAll t.nodes).erase = renderAll t.nodes) ∧
    ∀ header kept s header' dropped s',
      .loop header items kept s ∈ turns.flatMap Turn.entries →
      .loop header' items dropped s' ∈ turns.flatMap Turn.entries →
      OpenedBy.Always header s (Modifier.limit.Alone n) →
      OpenedBy.Always header' s' (Modifier.offset.Alone n) →
      kept ++ dropped = items := by
  refine ⟨fun t member => erase_bookAll (builtIn t member), ?_⟩
  intro header kept s header' dropped s' entered entered' limited moved
  have recording := Turn.registersAfter_recording turns builtIn share
  obtain ⟨before, after, parts⟩ := List.append_of_mem entered
  obtain ⟨before', after', parts'⟩ := List.append_of_mem entered'
  obtain ⟨m, opening⟩ := recording.opened _ _ _ _ _ _ parts
  obtain ⟨m', opening'⟩ := recording.opened _ _ _ _ _ _ parts'
  have limited := opening.holds limited
  have moved := opening'.holds moved
  have front : kept = limit items n := by
    rw [opening.selects, limited.select_eq opening.distinct, limited.apply_limit]
  have back : dropped = offset items n := by
    rw [opening'.selects, moved.select_eq opening'.distinct, moved.apply_offset]
  rw [front, back, limit_append_offset]

def cuttingOnce (m : Modifier) (variableName collection : String) (n : Int64) (ordered : Bool) :
    LoopHeader :=
  let span : Span := ⟨0, 0⟩
  ⟨variableName, ⟨.path collection [], collection, span⟩,
    [⟨m.text, some ⟨.literal (.int n), "n", span⟩, span⟩], ordered⟩

theorem cuttingOnce_alone (m : Modifier) (variableName collection : String) (n : Int64)
    (ordered : Bool) (s : State) :
    OpenedBy.Always (cuttingOnce m variableName collection n ordered) s (m.Alone n) := by
  intro previous x arguments _ _ given
  cases given
  change m.Alone n (Object.empty.insert m.text (.int n))
  refine ⟨?_, fun other apart => ?_⟩
  · rw [Modifier.given?, Object.own?_insert, if_pos rfl]
    rfl
  · have names : other.text ≠ m.text := fun same => apart (Modifier.text_injective same)
    rw [Object.own?_insert, if_neg names]
    rfl

/-- So `for x in c limit: n` and `for y in d offset: n` part the elements of `c`, if those of `d`
    are the same, whatever their options say about order. -/
theorem literal_limit_and_offset_part_elements (x c y d : String) (n : Int64)
    (ordered ordered' : Bool) {items kept dropped : List Value} {s s' : State} {r : Registers}
    {turns : List Turn} (share : Turn.Share r turns) (builtIn : ∀ t ∈ turns, BuiltIn t.nodes)
    (entered : .loop (cuttingOnce .limit x c n ordered) items kept s ∈ turns.flatMap Turn.entries)
    (entered' : .loop (cuttingOnce .offset y d n ordered') items dropped s'
      ∈ turns.flatMap Turn.entries) : kept ++ dropped = items := by
  obtain ⟨-, parted⟩ := limit_and_offset_part_elements items n r turns share builtIn
  exact parted _ kept s _ dropped s' entered entered' (cuttingOnce_alone .limit x c n ordered s)
    (cuttingOnce_alone .offset y d n ordered' s')

example :
    let limited := cuttingOnce .limit "x" "c" (-2) false
    let moved := cuttingOnce .offset "x" "c" (-2) true
    let t := turnOf (loopsOf [limited, moved]) fiveNumbers (.empty 0) none
    t.entries.map (fun e => (e.visits limited.continueKey).map Value.integer?)
      = [[1, 2, 3].map some, [4, 5].map some] := by
  decide +kernel

end Templating
