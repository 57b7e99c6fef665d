import Templating.Proofs.Value.Object
import Templating.Template.Selection

/-!
Values without wrappers. A wrapper is a deferred value whose identity is among given ones; it is
put around a value that is there already.
-/
namespace Templating

def openWrapper (id : Nat) (label : Option String) : Value → Value
  | .undefined => .deferred id label .undefined
  | .computed i l answer => .deferred id label (.computed i l answer)
  | v => v

variable (wrappers : Nat → Bool)

mutual

/-- The value with the wrappers in it taken away, at any depth. -/
def Value.unwrap : Value → Value
  | .deferred id label result =>
    if wrappers id then openWrapper id label result.unwrap else .deferred id label result.unwrap
  | .array items => .array (unwrapItems items)
  | .object o => .object o.unwrap
  | .drop d => .drop d.unwrap
  | .computed id label answer => .computed id label fun n => (answer n).unwrap
  | .undefined => .undefined
  | .nil => .nil
  | .bool b => .bool b
  | .int n => .int n
  | .float x => .float x
  | .str s => .str s
  | .position p => .position p
termination_by structural v => v

def unwrapItems : List Value → List Value
  | [] => []
  | v :: rest => v.unwrap :: unwrapItems rest
termination_by structural items => items

def Object.unwrap : Object → Object
  | ⟨entries, ancestor⟩ => ⟨unwrapEntries entries, unwrapAncestor ancestor⟩
termination_by structural o => o

def unwrapEntries : List (String × Value) → List (String × Value)
  | [] => []
  | (key, v) :: rest => (key, v.unwrap) :: unwrapEntries rest
termination_by structural entries => entries

def unwrapAncestor : Option Object → Option Object
  | none => none
  | some o => some o.unwrap
termination_by structural o => o

def Drop.unwrap : Drop → Drop
  | ⟨id, label, name, answer, missing, whole⟩ =>
    ⟨id, label, name, fun key => unwrapAnswer (answer key), fun key => (missing key).unwrap,
      unwrapAnswer whole⟩
termination_by structural d => d

def unwrapAnswer : Option Value → Option Value
  | none => none
  | some v => some v.unwrap
termination_by structural answer => answer

end

/-- There is no wrapper in the value that could be taken away. -/
def Value.Bare (v : Value) : Prop := v.unwrap wrappers = v

mutual

def Value.clear : Value → Bool
  | .deferred id _ result => !wrappers id && result.clear
  | .array items => clearItems items
  | .object o => o.clear
  | .drop _ | .computed .. => false
  | .undefined | .nil | .bool _ | .int _ | .float _ | .str _ | .position _ => true
termination_by structural v => v

def clearItems : List Value → Bool
  | [] => true
  | v :: rest => v.clear && clearItems rest
termination_by structural items => items

def Object.clear : Object → Bool
  | ⟨entries, ancestor⟩ => clearEntries entries && clearAncestor ancestor
termination_by structural o => o

def clearEntries : List (String × Value) → Bool
  | [] => true
  | (_, v) :: rest => v.clear && clearEntries rest
termination_by structural entries => entries

def clearAncestor : Option Object → Bool
  | none => true
  | some o => o.clear
termination_by structural o => o

end

variable {wrappers : Nat → Bool}

theorem unwrapItems_eq (items : List Value) :
    unwrapItems wrappers items = items.map (Value.unwrap wrappers) := by
  induction items with
  | nil => rfl
  | cons v rest ih => rw [unwrapItems, ih, List.map_cons]

theorem unwrapEntries_eq (entries : List (String × Value)) :
    unwrapEntries wrappers entries = entries.map fun e => (e.1, e.2.unwrap wrappers) := by
  induction entries with
  | nil => rfl
  | cons entry rest ih => rw [unwrapEntries, ih, List.map_cons]

theorem unwrapAnswer_eq (answer : Option Value) :
    unwrapAnswer wrappers answer = answer.map (Value.unwrap wrappers) := by
  cases answer <;> rfl

namespace Object

theorem entries_unwrap (o : Object) :
    (o.unwrap wrappers).entries = o.entries.map fun e => (e.1, e.2.unwrap wrappers) := by
  obtain ⟨entries, ancestor⟩ := o
  exact unwrapEntries_eq entries

theorem size_unwrap (o : Object) : (o.unwrap wrappers).size = o.size := by
  simp only [size, entries_unwrap, List.length_map]

theorem keys_unwrap (o : Object) : (o.unwrap wrappers).keys = o.keys := by
  simp only [keys, entries_unwrap, List.map_map, Function.comp_def]

theorem values_unwrap (o : Object) :
    (o.unwrap wrappers).values = o.values.map (Value.unwrap wrappers) := by
  simp only [values, entries_unwrap, List.map_map, Function.comp_def]

theorem own?_unwrap (o : Object) (key : String) :
    (o.unwrap wrappers).own? key = (o.own? key).map (Value.unwrap wrappers) := by
  simp only [own?, entries_unwrap]
  induction o.entries with
  | nil => rfl
  | cons entry rest ih =>
    obtain ⟨name, v⟩ := entry
    simp only [List.map_cons, List.lookup_cons]
    cases key == name with
    | true => rfl
    | false => exact ih

theorem hasOwn_unwrap (o : Object) (key : String) :
    (o.unwrap wrappers).hasOwn key = o.hasOwn key := by
  rw [hasOwn, own?_unwrap, Option.isSome_map, hasOwn]

mutual

theorem get?_unwrap : ∀ (o : Object) (key : String),
    (o.unwrap wrappers).get? key = (o.get? key).map (Value.unwrap wrappers)
  | ⟨entries, ancestor⟩, key => by
    have inherited := inherited?_unwrap ancestor key
    rw [get?_eq, get?_eq, own?_unwrap, Object.unwrap, inherited]
    cases own? ⟨entries, ancestor⟩ key <;> rfl
termination_by structural o => o

theorem inherited?_unwrap : ∀ (ancestor : Option Object) (key : String),
    inherited? (unwrapAncestor wrappers ancestor) key
      = (inherited? ancestor key).map (Value.unwrap wrappers)
  | none, _ => rfl
  | some o, key => get?_unwrap o key
termination_by structural ancestor => ancestor

end

theorem contains_unwrap (o : Object) (key : String) :
    (o.unwrap wrappers).contains key = o.contains key := by
  rw [contains, get?_unwrap, Option.isSome_map, contains]

theorem insert_unwrap (o : Object) (key : String) (v : Value) :
    (o.insert key v).unwrap wrappers = (o.unwrap wrappers).insert key (v.unwrap wrappers) := by
  obtain ⟨entries, ancestor⟩ := o
  simp only [insert, Object.unwrap, unwrapEntries_eq, mk.injEq, and_true]
  induction entries with
  | nil => rfl
  | cons entry rest ih =>
    simp only [insertEntry, List.map_cons]
    split
    · rfl
    · rw [List.map_cons, ih]

theorem plain_unwrap (o : Object) (key : String) (ownOnly : Bool) :
    (o.unwrap wrappers).plain key ownOnly = (o.plain key ownOnly).unwrap wrappers := by
  have absent : ∀ v : Option Value, (v.map (Value.unwrap wrappers)).getD .undefined
      = (v.getD .undefined).unwrap wrappers := fun v => by cases v <;> rfl
  cases ownOnly with
  | true => exact (congrArg (·.getD .undefined) (own?_unwrap o key)).trans (absent _)
  | false => exact (congrArg (·.getD .undefined) (get?_unwrap o key)).trans (absent _)

end Object

namespace Value

theorem isUndefined_unwrap (v : Value) : (v.unwrap wrappers).isUndefined = v.isUndefined := by
  cases v with
  | deferred id label result =>
    rw [Value.unwrap]
    split
    · cases result.unwrap wrappers <;> rfl
    · rfl
  | _ => rfl

def Settled : Value → Prop
  | .deferred .. => False
  | _ => True

theorem isNullish_unwrap {v : Value} (settled : v.Settled) :
    (v.unwrap wrappers).isNullish = v.isNullish := by
  cases v with
  | deferred => exact settled.elim
  | _ => rfl

theorem isTruthy_unwrap {v : Value} (settled : v.Settled) :
    (v.unwrap wrappers).isTruthy = v.isTruthy := by
  cases v with
  | deferred => exact settled.elim
  | bool b => cases b <;> rfl
  | _ => rfl

theorem asInteger?_unwrap {v : Value} (settled : v.Settled) :
    (v.unwrap wrappers).asInteger? = v.asInteger? := by
  cases v with
  | deferred => exact settled.elim
  | _ => rfl

theorem elements_unwrap {v : Value} (settled : v.Settled) :
    (v.unwrap wrappers).elements = v.elements.map (Value.unwrap wrappers) := by
  cases v with
  | deferred => exact settled.elim
  | array items => exact unwrapItems_eq items
  | object o => exact o.values_unwrap
  | _ => rfl

end Value

mutual

theorem Value.bare_of_clear : ∀ v : Value, v.clear wrappers = true → v.Bare wrappers
  | .deferred id label result, clear => by
    rw [Value.clear, Bool.and_eq_true, Bool.not_eq_true'] at clear
    rw [Value.Bare, Value.unwrap, clear.1, Value.bare_of_clear result clear.2]
    rfl
  | .array items, clear => congrArg Value.array (clearItems_bare items clear)
  | .object o, clear => congrArg Value.object (o.clear_bare clear)
  | .drop _, clear => absurd clear Bool.false_ne_true
  | .computed .., clear => absurd clear Bool.false_ne_true
  | .undefined, _ => rfl
  | .nil, _ => rfl
  | .bool _, _ => rfl
  | .int _, _ => rfl
  | .float _, _ => rfl
  | .str _, _ => rfl
  | .position _, _ => rfl
termination_by structural v => v

theorem clearItems_bare : ∀ items : List Value, clearItems wrappers items = true →
    unwrapItems wrappers items = items
  | [], _ => rfl
  | v :: rest, clear => by
    rw [clearItems, Bool.and_eq_true] at clear
    rw [unwrapItems, Value.bare_of_clear v clear.1, clearItems_bare rest clear.2]
termination_by structural items => items

theorem Object.clear_bare : ∀ o : Object, o.clear wrappers = true → o.unwrap wrappers = o
  | ⟨entries, ancestor⟩, clear => by
    rw [Object.clear, Bool.and_eq_true] at clear
    rw [Object.unwrap, clearEntries_bare entries clear.1, clearAncestor_bare ancestor clear.2]
termination_by structural o => o

theorem clearEntries_bare : ∀ entries : List (String × Value),
    clearEntries wrappers entries = true → unwrapEntries wrappers entries = entries
  | [], _ => rfl
  | (key, v) :: rest, clear => by
    rw [clearEntries, Bool.and_eq_true] at clear
    rw [unwrapEntries, Value.bare_of_clear v clear.1, clearEntries_bare rest clear.2]
termination_by structural entries => entries

theorem clearAncestor_bare : ∀ ancestor : Option Object,
    clearAncestor wrappers ancestor = true → unwrapAncestor wrappers ancestor = ancestor
  | none, _ => rfl
  | some o, clear => congrArg some (o.clear_bare clear)
termination_by structural ancestor => ancestor

end

def unwrapRead (wrappers : Nat → Bool) (r : Read Value) : Read Value := fun s =>
  ((r s).1.unwrap wrappers, (r s).2)

theorem callIfComputed_unwrap (v : Value) :
    callIfComputed (v.unwrap wrappers) = unwrapRead wrappers (callIfComputed v) := by
  cases v with
  | deferred id label result =>
    funext s
    change callIfComputed ((Value.deferred id label result).unwrap wrappers) s
      = ((Value.deferred id label result).unwrap wrappers, s)
    rw [Value.unwrap]
    split
    · cases result.unwrap wrappers <;> rfl
    · rfl
  | _ => rfl

theorem Object.read_unwrap (o : Object) (key : String) (ownOnly : Bool) :
    (o.unwrap wrappers).read key ownOnly = unwrapRead wrappers (o.read key ownOnly) := by
  funext s
  simp only [Object.read, unwrapRead, plain_unwrap, callIfComputed_unwrap,
    Value.isUndefined_unwrap, size_unwrap]
  split <;> rfl

theorem Drop.ask_unwrap (d : Drop) (key : String) :
    (d.unwrap wrappers).ask key = unwrapRead wrappers (d.ask key) := by
  obtain ⟨id, label, name, answer, missing, whole⟩ := d
  funext s
  simp only [Drop.unwrap, Drop.ask, Drop.ask.missed, unwrapRead, unwrapAnswer_eq]
  cases answer key with
  | none => rfl
  | some v =>
    simp only [Option.map_some, Value.isUndefined_unwrap]
    split <;> rfl

theorem getD_unwrap (v : Option Value) :
    (v.map (Value.unwrap wrappers)).getD .undefined = (v.getD .undefined).unwrap wrappers := by
  cases v <;> rfl

theorem elementAt_unwrap (items : List Value) (key : String) :
    elementAt (items.map (Value.unwrap wrappers)) key
      = (elementAt items key).unwrap wrappers := by
  simp only [elementAt, List.getElem?_map, ← getD_unwrap]
  cases index? key.toList <;> rfl

theorem fromEnd_unwrap (items : List Value) (index : Int64) :
    fromEnd (items.map (Value.unwrap wrappers)) index = (fromEnd items index).unwrap wrappers := by
  simp only [fromEnd, List.length_map, List.getElem?_map, getD_unwrap]
  split <;> rfl

theorem LoopPosition.answer?_unwrap (p : LoopPosition) (index : Nat) (key : String) :
    ((p.answer? index key).getD .undefined).unwrap wrappers
      = (p.answer? index key).getD .undefined := by
  unfold LoopPosition.answer?
  split <;> rfl

theorem plainRead_unwrap {receiver : Value} (settled : receiver.Settled) (name : String)
    (ownOnly : Bool) :
    plainRead (receiver.unwrap wrappers) name ownOnly
      = unwrapRead wrappers (plainRead receiver name ownOnly) := by
  funext s
  cases receiver with
  | deferred => exact settled.elim
  | object o => exact congrArg (·, s) (o.plain_unwrap name ownOnly)
  | drop d => exact congrFun (d.ask_unwrap name) s
  | position p => exact congrArg (·, s) (p.answer?_unwrap (s.index p.id) name).symm
  | array items =>
    rw [Value.unwrap, unwrapItems_eq]
    exact congrArg (·, s) (elementAt_unwrap items name)
  | str text =>
    simp only [Value.unwrap, plainRead, unwrapRead, characterAt]
    split <;> rfl
  | _ => rfl

theorem synthetic_unwrap {receiver : Value} (settled : receiver.Settled) (name : String) :
    synthetic (receiver.unwrap wrappers) name = unwrapRead wrappers (synthetic receiver name) := by
  have counted : countOf (receiver.unwrap wrappers) = unwrapRead wrappers (countOf receiver) := by
    cases receiver with
    | deferred => exact settled.elim
    | array items =>
      simp only [Value.unwrap, countOf, unwrapItems_eq, List.length_map]
      rfl
    | object o => exact o.read_unwrap "size" false
    | _ => rfl
  have first : firstOf (receiver.unwrap wrappers) = unwrapRead wrappers (firstOf receiver) := by
    cases receiver with
    | deferred => exact settled.elim
    | array items =>
      simp only [Value.unwrap, firstOf, unwrapItems_eq, List.head?_map, getD_unwrap]
      rfl
    | object o => exact o.read_unwrap "first" false
    | _ => rfl
  have last : lastOf (receiver.unwrap wrappers) = unwrapRead wrappers (lastOf receiver) := by
    cases receiver with
    | deferred => exact settled.elim
    | array items =>
      simp only [Value.unwrap, lastOf, unwrapItems_eq, List.getLast?_map, getD_unwrap]
      rfl
    | object o => exact o.read_unwrap "last" false
    | _ => rfl
  unfold synthetic
  rw [counted, first, last]
  split
  · rfl
  · split
    · rfl
    · split <;> rfl

theorem readByName_unwrap {receiver : Value} (settled : receiver.Settled) (name : String)
    (ownOnly : Bool) :
    readByName (receiver.unwrap wrappers) name ownOnly
      = unwrapRead wrappers (readByName receiver name ownOnly) := by
  funext s
  simp only [readByName, unwrapRead, plainRead_unwrap settled, callIfComputed_unwrap,
    Value.isUndefined_unwrap, synthetic_unwrap settled]
  split <;> rfl

theorem readProperty_unwrap {receiver : Value} (settled : receiver.Settled) (key : Value)
    (ownOnly : Bool) :
    readProperty (receiver.unwrap wrappers) key ownOnly
      = unwrapRead wrappers (readProperty receiver key ownOnly) := by
  have named : readByName (receiver.unwrap wrappers) key.keyText ownOnly
      = unwrapRead wrappers (readByName receiver key.keyText ownOnly) :=
    readByName_unwrap settled key.keyText ownOnly
  unfold readProperty
  rw [Value.isNullish_unwrap settled]
  split
  · rfl
  · cases receiver with
    | deferred => exact settled.elim
    | array items =>
      cases negativeIndex? key with
      | none => exact named
      | some index =>
        rw [Value.unwrap, unwrapItems_eq]
        funext s
        exact congrArg (·, s) (fromEnd_unwrap items index)
    | _ => exact named

def Object.Settled (o : Object) : Prop := ∀ key v, o.own? key = some v → v.Settled

theorem Object.settled_empty : Object.empty.Settled := nofun

theorem Object.Settled.insert {o : Object} (h : o.Settled) (key : String) {v : Value}
    (settled : v.Settled) : (o.insert key v).Settled := by
  intro name found entry
  rw [own?_insert] at entry
  split at entry
  · rwa [← Option.some.inj entry]
  · exact h name found entry

section
variable {arguments : Object}

theorem Modifier.given?_unwrap (m : Modifier) (arguments : Object) :
    m.given? (arguments.unwrap wrappers)
      = (m.given? arguments).map (Value.unwrap wrappers) := by
  rw [given?, Object.own?_unwrap, given?]
  cases arguments.own? m.text with
  | none => rfl
  | some v =>
    simp only [Option.map_some, Option.filter, Value.isUndefined_unwrap]
    split <;> rfl

theorem Modifier.given?_settled {m : Modifier} (settled : arguments.Settled) {v : Value}
    (given : m.given? arguments = some v) : v.Settled :=
  settled m.text v (Option.filter_eq_some_iff.mp given).1

theorem Modifier.apply_unwrap (settled : arguments.Settled) (items : List Value) (m : Modifier) :
    m.apply (arguments.unwrap wrappers) (items.map (Value.unwrap wrappers))
      = (m.apply arguments items).map (Value.unwrap wrappers) := by
  have counts : ∀ v, m.given? arguments = some v →
      countOr0 (v.unwrap wrappers) = countOr0 v := fun v given => by
    rw [countOr0, Value.asInteger?_unwrap (given?_settled settled given), countOr0]
  cases m with
  | reversed => exact List.map_reverse.symm
  | offset =>
    simp only [apply, given?_unwrap]
    cases given : Modifier.offset.given? arguments with
    | none => rfl
    | some v =>
      simp only [Option.map_some, counts v given, Templating.offset, List.length_map, List.map_drop]
  | limit =>
    simp only [apply, given?_unwrap]
    cases given : Modifier.limit.given? arguments with
    | none => rfl
    | some v =>
      simp only [Option.map_some, counts v given, Templating.limit, List.length_map, List.map_take]

theorem modifiers_unwrap (ordered : Bool) (arguments : Object) :
    modifiers ordered (arguments.unwrap wrappers) = modifiers ordered arguments := by
  simp only [modifiers, Object.keys_unwrap, Modifier.given?_unwrap, Option.isSome_map]

theorem select_unwrap (ordered : Bool) (settled : arguments.Settled) (items : List Value) :
    select ordered (arguments.unwrap wrappers) (items.map (Value.unwrap wrappers))
      = (select ordered arguments items).map (Value.unwrap wrappers) := by
  rw [select, modifiers_unwrap, select]
  induction modifiers ordered arguments generalizing items with
  | nil => rfl
  | cons m rest ih => rw [List.foldl_cons, Modifier.apply_unwrap settled, ih, List.foldl_cons]

theorem resumeAt_unwrap (settled : arguments.Settled) (selected : List Value) :
    resumeAt (arguments.unwrap wrappers) (selected.map (Value.unwrap wrappers))
      = resumeAt arguments selected := by
  rw [resumeAt, Object.own?_unwrap, List.length_map, resumeAt]
  cases start : arguments.own? "offset" with
  | none => rfl
  | some v =>
    simp only [Option.map_some, Option.bind_some, Value.asInteger?_unwrap (settled _ v start)]

end
end Templating
