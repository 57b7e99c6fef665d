import Mathlib.Data.List.Basic
import Templating.Proofs.Task.Laws
import Templating.Proofs.Value.Keys
import Templating.Template.Rendering

namespace Templating

def lastGiven? (key : String) (given : List (String × Value)) : Option Value :=
  given.reverse.lookup key

def firstGiven (given : List (String × Value)) : List String := (given.map (·.1)).eraseDups

/-- A position counted from the start, or from the end if negative, and held inside. -/
def boundary (n : Int) (length : Nat) : Nat :=
  (max 0 (min (if n < 0 then length + n else n) length)).toNat

def reading (v : Value) : Int := (v.asInteger?.map Int64.toInt).getD 0

namespace Modifier

def cut (m : Modifier) (v : Value) (items : List Value) : List Value :=
  match m with
  | .offset => items.drop (boundary (reading v) items.length)
  | .limit => items.take (boundary (reading v) items.length)
  | .reversed => items.reverse

def value? (m : Modifier) (given : List (String × Value)) : Option Value :=
  (lastGiven? m.text given).filter (!·.isUndefined)

def step (given : List (String × Value)) (items : List Value) (m : Modifier) : List Value :=
  match m.value? given with
  | none => items
  | some v => m.cut v items

end Modifier

/-- The modifiers among the keys, in the order in which they are first given. -/
def firstModifiers (given : List (String × Value)) : List Modifier :=
  (firstGiven given).filterMap Modifier.named?

namespace Object

theorem own?_foldl_insert (given : List (String × Value)) (o : Object) (key : String) :
    (given.foldl (fun o entry => o.insert entry.1 entry.2) o).own? key
      = (lastGiven? key given).or (o.own? key) := by
  induction given generalizing o with
  | nil => rfl
  | cons entry rest ih =>
    obtain ⟨k, v⟩ := entry
    rw [List.foldl_cons, ih, own?_insert]
    simp only [lastGiven?, List.reverse_cons, List.lookup_append]
    by_cases same : key = k
    · simp [same]
    · simp [same, List.lookup_cons, beq_false_of_ne same]

theorem own?_ofList (given : List (String × Value)) (key : String) :
    (ofList given).own? key = lastGiven? key given := by
  rw [ofList, own?_foldl_insert]
  exact Option.or_none

theorem keys_foldl_insert (given : List (String × Value)) (o : Object) :
    (given.foldl (fun o entry => o.insert entry.1 entry.2) o).keys
      = o.keys ++ ((given.map (·.1)).removeAll o.keys).eraseDups := by
  induction given generalizing o with
  | nil => simp
  | cons entry rest ih =>
    rw [List.foldl_cons, ih, keys_insert, List.map_cons, List.cons_removeAll]
    by_cases known : entry.1 ∈ o.keys
    · simp [known]
    · have later : (rest.map (·.1)).removeAll (o.keys ++ [entry.1])
          = ((rest.map (·.1)).removeAll o.keys).filter fun key => !key == entry.1 := by
        simp [List.removeAll, List.filter_filter, Bool.and_comm, beq_eq_decide]
      simp [known, later, List.eraseDups_cons]

theorem keys_ofList (given : List (String × Value)) : (ofList given).keys = firstGiven given := by
  rw [ofList, keys_foldl_insert]
  simp [empty, keys, firstGiven, List.removeAll]

end Object

def NamedArgument.give (a : NamedArgument) : Task (String × Value) := do
  return (a.key, ← a.evaluate)

theorem evaluateNamed_eq (before : Object) (named : List NamedArgument) :
    evaluateNamed before named = (do
      let given ← named.mapM NamedArgument.give
      return given.foldl (fun o entry => o.insert entry.1 entry.2) before) := by
  induction named generalizing before with
  | nil => rfl
  | cons a rest ih => simp [evaluateNamed, ih, NamedArgument.give]

theorem evaluateModifiers_eq (header : LoopHeader) (previous : Value) :
    evaluateModifiers header previous = Task.within (.single "continue" previous) (do
      return .ofList (← header.modifiers.mapM NamedArgument.give)) := by
  rw [evaluateModifiers, evaluateNamed_eq]
  rfl

theorem clampIndex_eq (n : Int64) (length : Nat) :
    clampIndex n length = boundary n.toInt length := by
  unfold clampIndex boundary
  split <;> omega

theorem limit_eq_take (items : List Value) (n : Int64) :
    limit items n = items.take (boundary n.toInt items.length) := by
  rw [limit, clampIndex_eq]

theorem offset_eq_drop (items : List Value) (n : Int64) :
    offset items n = items.drop (boundary n.toInt items.length) := by
  rw [offset, clampIndex_eq]

theorem toInt_countOr0 (v : Value) : (countOr0 v).toInt = reading v := by
  unfold countOr0 reading
  cases v.asInteger? <;> rfl

theorem offset_countOr0 (items : List Value) (v : Value) :
    offset items (countOr0 v) = Modifier.offset.cut v items := by
  rw [offset_eq_drop, toInt_countOr0, Modifier.cut]

theorem limit_countOr0 (items : List Value) (v : Value) :
    limit items (countOr0 v) = Modifier.limit.cut v items := by
  rw [limit_eq_take, toInt_countOr0, Modifier.cut]

theorem lastGiven?_isSome {key : String} {given : List (String × Value)} :
    (lastGiven? key given).isSome ↔ key ∈ given.map (·.1) := by
  simp [lastGiven?, Option.isSome_iff_ne_none, List.lookup_eq_none_iff]

namespace Modifier
variable {given given' : List (String × Value)}

theorem named?_eq_some {key : String} {m : Modifier} : named? key = some m ↔ key = m.text := by
  unfold named?
  cases m <;> grind [text]

theorem mem_firstModifiers {m : Modifier} :
    m ∈ firstModifiers given ↔ (lastGiven? m.text given).isSome := by
  simp [firstModifiers, firstGiven, named?_eq_some, lastGiven?_isSome]

theorem given?_ofList (m : Modifier) (given : List (String × Value)) :
    m.given? (.ofList given) = m.value? given := by
  rw [given?, Object.own?_ofList, value?]

theorem apply_ofList {m : Modifier} (counts : m = .reversed → (m.value? given).isSome)
    (items : List Value) : m.apply (.ofList given) items = m.step given items := by
  cases m with
  | reversed =>
    obtain ⟨v, defined⟩ := Option.isSome_iff_exists.mp (counts rfl)
    simp [apply, step, cut, defined]
  | offset =>
    simp only [apply, step, given?_ofList]
    cases value? .offset given with
    | none => rfl
    | some v => exact offset_countOr0 items v
  | limit =>
    simp only [apply, step, given?_ofList]
    cases value? .limit given with
    | none => rfl
    | some v => exact limit_countOr0 items v

theorem step_none {m : Modifier} (undefined : m.value? given = none) (items : List Value) :
    m.step given items = items := by
  rw [step, undefined]

end Modifier

theorem select_default (given : List (String × Value)) (items : List Value) :
    select false (.ofList given) items
      = [.offset, .limit, .reversed].foldl (Modifier.step given) items := by
  rw [select, modifiers, if_neg Bool.false_ne_true, List.foldl_filter]
  refine List.foldl_ext _ _ items fun items m _ => ?_
  rw [Modifier.given?_ofList]
  by_cases defined : (m.value? given).isSome
  · rw [if_pos defined, Modifier.apply_ofList fun _ => defined]
  · rw [if_neg defined, Modifier.step_none (Option.not_isSome_iff_eq_none.mp defined)]

theorem select_ordered {given : List (String × Value)}
    (turns : lastGiven? "reversed" given ≠ some .undefined) (items : List Value) :
    select true (.ofList given) items
      = (firstModifiers given).foldl (Modifier.step given) items := by
  rw [select, modifiers, if_pos rfl, Object.keys_ofList]
  refine List.foldl_ext _ _ items fun items m member => Modifier.apply_ofList ?_ items
  rintro rfl
  obtain ⟨v, last⟩ := Option.isSome_iff_exists.mp (Modifier.mem_firstModifiers.mp member)
  have defined : v ≠ .undefined := fun same => turns (same ▸ last)
  rw [Modifier.value?, last]
  cases v <;> first | rfl | exact absurd rfl defined

theorem step_congr {given given' : List (String × Value)}
    (same : ∀ m : Modifier, lastGiven? m.text given' = lastGiven? m.text given) :
    Modifier.step given' = Modifier.step given := by
  funext items m
  rw [Modifier.step, Modifier.value?, same m]
  rfl

theorem lastGiven?_perm {given given' : List (String × Value)} (perm : given'.Perm given)
    (distinct : (given.map (·.1)).Nodup) (key : String) :
    lastGiven? key given' = lastGiven? key given := by
  have forwards : given'.reverse.Perm given := (List.reverse_perm given').trans perm
  refine lookup_perm (forwards.trans (List.reverse_perm given).symm) ?_ key
  exact (forwards.map (·.1)).nodup_iff.mpr distinct

/-- The modifiers of a loop are evaluated in order and select by what is given. By default they
    drop, cut and turn around, whatever order they are given in, as long as each has the same
    value last; where order counts, they do so in the order in which they are first given. -/
theorem modifiers_select_slice (header : LoopHeader) (previous : Value)
    (given : List (String × Value)) (items : List Value) :
    (evaluateModifiers header previous = Task.within (.single "continue" previous) (do
      return .ofList (← header.modifiers.mapM NamedArgument.give))) ∧
    select false (.ofList given) items
      = [.offset, .limit, .reversed].foldl (Modifier.step given) items ∧
    (∀ given', (∀ m : Modifier, lastGiven? m.text given' = lastGiven? m.text given) →
      select false (.ofList given') items = select false (.ofList given) items) ∧
    (∀ given', given'.Perm given → (given.map (·.1)).Nodup →
      select false (.ofList given') items = select false (.ofList given) items) ∧
    (lastGiven? "reversed" given ≠ some .undefined →
      select true (.ofList given) items
        = (firstModifiers given).foldl (Modifier.step given) items) := by
  have rearranged : ∀ given', (∀ m : Modifier, lastGiven? m.text given' = lastGiven? m.text given) →
      select false (.ofList given') items = select false (.ofList given) items := by
    intro given' same
    rw [select_default, select_default, step_congr same]
  refine ⟨evaluateModifiers_eq header previous, select_default given items, rearranged, ?_, ?_⟩
  · intro given' perm distinct
    exact rearranged given' fun m => lastGiven?_perm perm distinct m.text
  · intro turns
    exact select_ordered turns items

def scattered : List (String × Value) :=
  [("reversed", .bool true), ("limit", .str " 2"), ("cols", .nil), ("offset", .int (-3))]

theorem modifiers_select_slice_scattered :
    let span : Span := ⟨0, 0⟩
    let header : LoopHeader := ⟨"x", ⟨.path "xs" [], "xs", span⟩, [⟨"reversed", none, span⟩], false⟩
    let items : List Value := [1, 2, 3, 4, 5].map .int
    let again := ("limit", .int 9) :: scattered
    evaluateModifiers header .nil = Task.within (.single "continue" .nil) (do
      return .ofList (← header.modifiers.mapM NamedArgument.give)) ∧
    (∀ m : Modifier, lastGiven? m.text again = lastGiven? m.text scattered) ∧
    scattered.reverse.Perm scattered ∧ (scattered.map (·.1)).Nodup ∧
    lastGiven? "reversed" scattered ≠ some .undefined ∧
    Value.itemsText (select false (.ofList scattered) items) = "43" ∧
    select false (.ofList again) items = select false (.ofList scattered) items ∧
    select false (.ofList scattered.reverse) items = select false (.ofList scattered) items ∧
    Value.itemsText (select true (.ofList scattered) items) = "54" ∧
    select true (.ofList scattered) items
      = (firstModifiers scattered).foldl (Modifier.step scattered) items := by
  intro span header items again
  have same : ∀ m : Modifier, lastGiven? m.text again = lastGiven? m.text scattered := by
    intro m
    cases m <;> rfl
  have perm : scattered.reverse.Perm scattered := List.reverse_perm scattered
  have distinct : (scattered.map (·.1)).Nodup := by decide
  have turns : lastGiven? "reversed" scattered ≠ some .undefined := nofun
  obtain ⟨evaluated, -, rearranged, permuted, ordered⟩ :=
    modifiers_select_slice header .nil scattered items
  exact ⟨evaluated, same, perm, distinct, turns, by decide +kernel, rearranged again same,
    permuted _ perm distinct, by decide +kernel, ordered turns⟩

theorem exchanged_limits_select_apart :
    let given : List (String × Value) := [("limit", .int 1), ("limit", .int 2)]
    let exchanged : List (String × Value) := [("limit", .int 2), ("limit", .int 1)]
    let items : List Value := [1, 2, 3].map .int
    exchanged.Perm given ∧ Value.itemsText (select false (.ofList given) items) = "12" ∧
      Value.itemsText (select false (.ofList exchanged) items) = "1" ∧
      select false (.ofList exchanged) items ≠ select false (.ofList given) items := by
  intro given exchanged items
  have two : Value.itemsText (select false (.ofList given) items) = "12" := by decide +kernel
  have one : Value.itemsText (select false (.ofList exchanged) items) = "1" := by decide +kernel
  refine ⟨.swap _ _ _, two, one, fun same => ?_⟩
  rw [same, two] at one
  exact absurd one (by decide)

end Templating
