import Templating.Proofs.Template.Slices

namespace Templating

def defined (given : List (String × Value)) : List (String × Value) :=
  given.filter (!·.2.isUndefined)

def Modifier.Withdrawn (given : List (String × Value)) (m : Modifier) : Prop :=
  lastGiven? m.text given = some .undefined ∧ (lastGiven? m.text (defined given)).isSome

theorem lookup_filter_value {p : Value → Bool} {key : String} {v : Value} (kept : p v = true)
    {entries : List (String × Value)} (found : entries.lookup key = some v) :
    (entries.filter (p ·.2)).lookup key = some v := by
  induction entries with
  | nil => cases found
  | cons entry rest ih =>
    obtain ⟨k, w⟩ := entry
    by_cases here : key = k
    · subst here
      obtain rfl : w = v := by simpa using found
      simp [kept]
    · rw [List.lookup_cons, beq_false_of_ne here] at found
      have later := ih found
      by_cases stays : p w = true
      · simpa [stays, List.lookup_cons, beq_false_of_ne here] using later
      · simpa [stays] using later

theorem lastGiven?_defined {given : List (String × Value)} {key : String} {v : Value}
    (value : v.isUndefined = false) (last : lastGiven? key given = some v) :
    lastGiven? key (defined given) = some v := by
  rw [lastGiven?, defined, ← List.filter_reverse]
  exact lookup_filter_value (p := fun v => !v.isUndefined) (by simp [value]) last

theorem lastGiven?_defined_ne (given : List (String × Value)) (key : String) :
    lastGiven? key (defined given) ≠ some .undefined := by
  intro last
  obtain ⟨before, after, parts, -⟩ := List.lookup_eq_some_iff.mp last
  have member : (key, Value.undefined) ∈ (defined given).reverse := by simp [parts]
  simp [defined, Value.isUndefined] at member

namespace Modifier
variable {given : List (String × Value)}

theorem value?_defined {m : Modifier} (stands : ¬ m.Withdrawn given) :
    m.value? (defined given) = m.value? given := by
  unfold value?
  cases last : lastGiven? m.text given with
  | none =>
    have fewer : (defined given).map (·.1) ⊆ given.map (·.1) :=
      List.map_subset _ (List.filter_subset_self given)
    have absent : lastGiven? m.text (defined given) = none := by
      rw [← Option.not_isSome_iff_eq_none, lastGiven?_isSome] at last ⊢
      exact fun member => last (fewer member)
    rw [absent]
  | some v =>
    cases value : v.isUndefined with
    | false => rw [lastGiven?_defined value last]
    | true =>
      obtain rfl : v = .undefined := by cases v <;> first | rfl | cases value
      have absent := Option.not_isSome_iff_eq_none.mp fun given => stands ⟨last, given⟩
      rw [absent]
      rfl

theorem step_defined (stand : ∀ m : Modifier, ¬ m.Withdrawn given) :
    step (defined given) = step given := by
  funext items m
  rw [step, value?_defined (stand m)]
  rfl

theorem foldl_step_filter (ms : List Modifier) (items : List Value) :
    (ms.filter fun m => (m.value? given).isSome).foldl (step given) items
      = ms.foldl (step given) items := by
  induction ms generalizing items with
  | nil => rfl
  | cons m rest ih =>
    cases value : m.value? given with
    | none => simp [value, ih, step_none value]
    | some v => simp [value, ih]

end Modifier

theorem eq_filter_of_sublist {α : Type} [DecidableEq α] {ms all : List α} (part : ms.Sublist all)
    (distinct : all.Nodup) : ms = all.filter (· ∈ ms) := by
  induction part with
  | slnil => rfl
  | @cons ms all m part ih =>
    obtain ⟨new, distinct⟩ := List.nodup_cons.mp distinct
    have other : m ∉ ms := fun member => new (part.subset member)
    simpa [other] using ih distinct
  | @cons_cons ms all m part ih =>
    obtain ⟨new, distinct⟩ := List.nodup_cons.mp distinct
    have same : all.filter (· ∈ m :: ms) = all.filter (· ∈ ms) := by
      refine List.filter_congr fun other member => ?_
      have apart : other ≠ m := fun same => new (same ▸ member)
      simp [apart]
    rw [List.filter_cons, if_pos (by simp), same, ← ih distinct]

theorem select_defined_default {given : List (String × Value)}
    (stand : ∀ m : Modifier, ¬ m.Withdrawn given) (items : List Value) :
    select false (.ofList (defined given)) items = select false (.ofList given) items := by
  rw [select_default, select_default, Modifier.step_defined stand]

theorem select_defined_ordered {given : List (String × Value)}
    (stand : ∀ m : Modifier, ¬ m.Withdrawn given)
    (turns : lastGiven? "reversed" given ≠ some .undefined)
    (order : firstModifiers (defined given)
      = (firstModifiers given).filter fun m => (m.value? given).isSome) (items : List Value) :
    select true (.ofList (defined given)) items = select true (.ofList given) items := by
  rw [select_ordered (lastGiven?_defined_ne given _), select_ordered turns,
    Modifier.step_defined stand, order, Modifier.foldl_step_filter]

theorem select_ordered_eq_default {given : List (String × Value)}
    (turns : lastGiven? "reversed" given ≠ some .undefined)
    (usual : (firstModifiers given).Sublist [.offset, .limit, .reversed]) (items : List Value) :
    select true (.ofList given) items = select false (.ofList given) items := by
  -- The default order tries also the modifiers that are not given, and those have no value.
  have valued : ((firstModifiers given).filter fun m => (m.value? given).isSome)
      = [.offset, .limit, .reversed].filter fun m => (m.value? given).isSome := by
    rw [eq_filter_of_sublist usual (by decide), List.filter_filter]
    refine List.filter_congr fun m _ => ?_
    rw [Bool.and_eq_left_iff_imp, decide_eq_true_iff, Modifier.mem_firstModifiers]
    intro value
    obtain ⟨v, last⟩ := Option.isSome_iff_exists.mp value
    rw [(Option.filter_eq_some_iff.mp last).1]
    rfl
  rw [select_ordered turns, select_default, ← Modifier.foldl_step_filter, valued,
    Modifier.foldl_step_filter]

/-- Undefined modifiers are passed over: without them the same is selected, where none of them
    withdraws a value that was given before. Where order counts this takes that `reversed` is not
    among them and that the others are first given in the order they had. Modifiers first given in
    the default order, `reversed` not undefined, select the same whether or not order counts. -/
theorem undefined_modifiers_passed_over (given : List (String × Value)) (items : List Value) :
    ((∀ m : Modifier, ¬ m.Withdrawn given) →
      select false (.ofList (defined given)) items = select false (.ofList given) items) ∧
    ((∀ m : Modifier, ¬ m.Withdrawn given) → lastGiven? "reversed" given ≠ some .undefined →
      firstModifiers (defined given)
        = (firstModifiers given).filter (fun m => (m.value? given).isSome) →
      select true (.ofList (defined given)) items = select true (.ofList given) items) ∧
    (lastGiven? "reversed" given ≠ some .undefined →
      (firstModifiers given).Sublist [.offset, .limit, .reversed] →
      select true (.ofList given) items = select false (.ofList given) items) := by
  refine ⟨?_, ?_, ?_⟩
  · intro stand
    exact select_defined_default stand items
  · intro stand turns order
    exact select_defined_ordered stand turns order items
  · intro turns usual
    exact select_ordered_eq_default turns usual items

def halfDefined : List (String × Value) :=
  [("offset", .int 1), ("limit", .undefined), ("reversed", .bool true), ("limit", .undefined)]

theorem undefined_modifiers_passed_over_half :
    let items : List Value := [1, 2, 3].map .int
    (∀ m : Modifier, ¬ m.Withdrawn halfDefined) ∧
    lastGiven? "reversed" halfDefined ≠ some .undefined ∧
    firstModifiers (defined halfDefined)
      = (firstModifiers halfDefined).filter (fun m => (m.value? halfDefined).isSome) ∧
    (firstModifiers halfDefined).Sublist [.offset, .limit, .reversed] ∧
    Value.itemsText (select false (.ofList halfDefined) items) = "32" ∧
    select false (.ofList (defined halfDefined)) items = select false (.ofList halfDefined) items ∧
    select true (.ofList (defined halfDefined)) items = select true (.ofList halfDefined) items ∧
    select true (.ofList halfDefined) items = select false (.ofList halfDefined) items := by
  intro items
  have stand : ∀ m : Modifier, ¬ m.Withdrawn halfDefined := by
    intro m withdrawn
    have kept := withdrawn.2
    cases m with
    | offset => cases withdrawn.1
    | limit => exact absurd kept (by decide)
    | reversed => cases withdrawn.1
  have turns : lastGiven? "reversed" halfDefined ≠ some .undefined := nofun
  have order : firstModifiers (defined halfDefined)
      = (firstModifiers halfDefined).filter (fun m => (m.value? halfDefined).isSome) := by decide
  have usual : (firstModifiers halfDefined).Sublist [.offset, .limit, .reversed] := by decide
  obtain ⟨byDefault, ordered, either⟩ := undefined_modifiers_passed_over halfDefined items
  exact ⟨stand, turns, order, usual, by decide +kernel, byDefault stand,
    ordered stand turns order, either turns usual⟩

/-- An undefined limit withdraws the one given before, so without it that one cuts; and where order
    counts, an undefined `reversed` turns the sequence around, as it does not by default. -/
theorem undefined_modifiers_select_apart :
    let withdrawn : List (String × Value) := [("limit", .int 1), ("limit", .undefined)]
    let unturned : List (String × Value) := [("reversed", .undefined)]
    let items : List Value := [1, 2].map .int
    Value.itemsText (select false (.ofList withdrawn) items) = "12" ∧
      Value.itemsText (select false (.ofList (defined withdrawn)) items) = "1" ∧
      Value.itemsText (select true (.ofList unturned) items) = "21" ∧
      Value.itemsText (select true (.ofList (defined unturned)) items) = "12" ∧
      Value.itemsText (select false (.ofList unturned) items) = "12" ∧
      select false (.ofList (defined withdrawn)) items
        ≠ select false (.ofList withdrawn) items := by
  intro withdrawn unturned items
  have all : Value.itemsText (select false (.ofList withdrawn) items) = "12" := by decide +kernel
  have one : Value.itemsText (select false (.ofList (defined withdrawn)) items) = "1" := by
    decide +kernel
  refine ⟨all, one, by decide +kernel, by decide +kernel, by decide +kernel, fun same => ?_⟩
  rw [same, all] at one
  exact absurd one (by decide)

end Templating
