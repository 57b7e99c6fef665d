import Templating.Expr.Basic
import Templating.Proofs.Value.Keys
import Templating.Proofs.Value.Object
import Templating.Template.Selection

namespace Templating

mutual

/-- No object that can be reached from the value has an ancestor. -/
inductive Value.Orphan : Value → Prop where
  | undefined : Value.Orphan .undefined
  | nil : Value.Orphan .nil
  | bool (b : Bool) : Value.Orphan (.bool b)
  | int (n : Int64) : Value.Orphan (.int n)
  | float (x : Float) : Value.Orphan (.float x)
  | str (s : String) : Value.Orphan (.str s)
  | array {items : List Value} (h : ∀ v ∈ items, Value.Orphan v) : Value.Orphan (.array items)
  | object {o : Object} (h : Object.Orphan o) : Value.Orphan (.object o)
  | drop {d : Drop} (answers : ∀ key, ∀ v ∈ d.answer key, Value.Orphan v)
      (missing : ∀ key, Value.Orphan (d.missing key)) (whole : ∀ v ∈ d.whole, Value.Orphan v) :
      Value.Orphan (.drop d)
  | position (p : LoopPosition) : Value.Orphan (.position p)
  | computed {id : Nat} {label : Option String} {answer : Nat → Value}
      (h : ∀ n, Value.Orphan (answer n)) : Value.Orphan (.computed id label answer)
  | deferred {id : Nat} {label : Option String} {result : Value} (h : Value.Orphan result) :
      Value.Orphan (.deferred id label result)

inductive Object.Orphan : Object → Prop where
  | mk {entries : List (String × Value)} (h : ∀ entry ∈ entries, Value.Orphan entry.2) :
      Object.Orphan ⟨entries, none⟩

end

namespace Object.Orphan
variable {o : Object}

theorem ancestor (h : o.Orphan) : o.ancestor = none := by
  cases h
  rfl

theorem entries (h : o.Orphan) : ∀ entry ∈ o.entries, entry.2.Orphan := by
  cases h with
  | mk h => exact h

theorem of_entries {o' : Object} (ancestor : o'.ancestor = none)
    (entries : ∀ entry ∈ o'.entries, entry.2.Orphan) : o'.Orphan := by
  obtain ⟨list, _⟩ := o'
  cases ancestor
  exact .mk entries

theorem empty : Object.empty.Orphan := .mk (by simp)

theorem single (key : String) {v : Value} (h : v.Orphan) : (Object.single key v).Orphan :=
  .mk (by simpa using h)

theorem own? (h : o.Orphan) {key : String} {v : Value} (found : o.own? key = some v) :
    v.Orphan := by
  rw [Object.own?, List.lookup_eq_some_iff] at found
  obtain ⟨before, after, parts, -⟩ := found
  exact h.entries (key, v) (by rw [parts]; simp)

theorem insert (h : o.Orphan) (key : String) {v : Value} (orphan : v.Orphan) :
    (o.insert key v).Orphan :=
  of_entries h.ancestor (forall_mem_insertEntry orphan h.entries)

theorem values (h : o.Orphan) : ∀ v ∈ o.values, v.Orphan := by
  intro v member
  obtain ⟨entry, mine, rfl⟩ := List.mem_map.mp member
  exact h.entries entry mine

theorem get?_eq_own? (h : o.Orphan) (key : String) : o.get? key = o.own? key := by
  rw [Object.get?_eq, h.ancestor]
  cases o.own? key <;> rfl

theorem plain_eq (h : o.Orphan) (key : String) (ownOnly : Bool) :
    o.plain key ownOnly = (o.own? key).getD .undefined := by
  cases ownOnly with
  | true => rfl
  | false => simp [Object.plain, h.get?_eq_own?]

theorem plain (h : o.Orphan) (key : String) (ownOnly : Bool) : (o.plain key ownOnly).Orphan := by
  rw [h.plain_eq]
  cases found : o.own? key with
  | none => exact .undefined
  | some v => exact h.own? found

end Object.Orphan

def Read.Orphan (r : Read Value) : Prop := ∀ s, (r s).1.Orphan

namespace Value.Orphan

theorem literal (l : Literal) : l.toValue.Orphan := by
  cases l with
  | nil => exact .nil
  | bool b => exact .bool b
  | int n => exact .int n
  | float x => exact .float x
  | str s => exact .str s

theorem callIfComputed {v : Value} (h : v.Orphan) : Read.Orphan (callIfComputed v) := by
  intro s
  cases h with
  | computed h => exact h (s.timesCalled _)
  | undefined => exact .undefined
  | nil => exact .nil
  | bool b => exact .bool b
  | int n => exact .int n
  | float x => exact .float x
  | str s => exact .str s
  | array h => exact .array h
  | object h => exact .object h
  | drop answers missing whole => exact .drop answers missing whole
  | position p => exact .position p
  | deferred h => exact .deferred h

theorem elements {v : Value} (h : v.Orphan) : ∀ w ∈ v.elements, w.Orphan := by
  cases h with
  | array h => exact h
  | object h => exact h.values
  | _ => simp [Value.elements]

theorem getD {found : Option Value} (h : ∀ v ∈ found, v.Orphan) :
    (found.getD .undefined).Orphan := by
  cases found with
  | none => exact .undefined
  | some v => exact h v rfl

end Value.Orphan

theorem LoopPosition.answer?_orphan (p : LoopPosition) (index : Nat) (key : String) :
    ∀ v ∈ p.answer? index key, v.Orphan := by
  intro v found
  unfold LoopPosition.answer? at found
  dsimp only at found
  split at found <;> cases found
  all_goals first | exact .int _ | exact .str _ | exact .bool _

theorem Object.Orphan.read {o : Object} (h : o.Orphan) (key : String) (ownOnly : Bool) :
    Read.Orphan (o.read key ownOnly) := by
  intro s
  unfold Object.read
  dsimp only
  split
  · exact .int _
  · exact (h.plain key ownOnly).callIfComputed s

theorem Object.Orphan.read_eq {o : Object} (h : o.Orphan) (key : String) (ownOnly other : Bool) :
    o.read key ownOnly = o.read key other := by
  unfold Object.read
  rw [h.plain_eq, h.plain_eq]

namespace Value.Orphan

theorem ask {d : Drop} (h : Value.Orphan (.drop d)) (key : String) : Read.Orphan (d.ask key) := by
  intro s
  cases h with
  | drop answers missing whole =>
    unfold Drop.ask
    cases answered : d.answer key with
    | none => exact missing key
    | some v =>
      dsimp only
      split
      · exact missing key
      · exact answers key v answered

theorem elementAt {items : List Value} (h : ∀ v ∈ items, v.Orphan) (key : String) :
    (elementAt items key).Orphan := by
  refine getD fun v found => ?_
  obtain ⟨i, -, here⟩ := Option.bind_eq_some_iff.mp found
  exact h v (List.mem_of_getElem? here)

theorem characterAt (s key : String) : (characterAt s key).Orphan := by
  unfold Templating.characterAt
  split
  · exact .str _
  · exact .undefined

theorem fromEnd {items : List Value} (h : ∀ v ∈ items, v.Orphan) (index : Int64) :
    (fromEnd items index).Orphan := by
  unfold Templating.fromEnd
  dsimp only
  split
  · exact .undefined
  · exact getD fun v found => h v (List.mem_of_getElem? found)

theorem plainRead {receiver : Value} (h : receiver.Orphan) (name : String) (ownOnly : Bool) :
    Read.Orphan (plainRead receiver name ownOnly) := by
  intro s
  cases h with
  | array h => exact elementAt h name
  | object h => exact h.plain name ownOnly
  | drop answers missing whole => exact (Value.Orphan.drop answers missing whole).ask name s
  | position p => exact getD (p.answer?_orphan (s.index p.id) name)
  | str text => exact characterAt text name
  | _ => exact .undefined

theorem countOf {receiver : Value} (h : receiver.Orphan) : Read.Orphan (countOf receiver) := by
  intro s
  cases h with
  | object h => exact h.read "size" false s
  | array _ | str _ => exact .int _
  | _ => exact .undefined

theorem firstOf {receiver : Value} (h : receiver.Orphan) : Read.Orphan (firstOf receiver) := by
  intro s
  cases h with
  | object h => exact h.read "first" false s
  | array h => exact getD fun v found => h v (List.mem_of_head? found)
  | _ => exact .undefined

theorem lastOf {receiver : Value} (h : receiver.Orphan) : Read.Orphan (lastOf receiver) := by
  intro s
  cases h with
  | object h => exact h.read "last" false s
  | array h => exact getD fun v found => h v (List.mem_of_getLast? found)
  | _ => exact .undefined

theorem synthetic {receiver : Value} (h : receiver.Orphan) (name : String) :
    Read.Orphan (synthetic receiver name) := by
  unfold Templating.synthetic
  split
  · exact h.countOf
  · split
    · exact h.firstOf
    · split
      · exact h.lastOf
      · exact fun _ => .undefined

theorem readByName {receiver : Value} (h : receiver.Orphan) (name : String) (ownOnly : Bool) :
    Read.Orphan (readByName receiver name ownOnly) := by
  intro s
  unfold Templating.readByName
  dsimp only
  split
  · exact h.synthetic name _
  · exact (h.plainRead name ownOnly s).callIfComputed _

theorem plainRead_eq {receiver : Value} (h : receiver.Orphan) (name : String)
    (ownOnly other : Bool) :
    Templating.plainRead receiver name ownOnly = Templating.plainRead receiver name other := by
  cases h with
  | object h =>
    funext s
    simp only [Templating.plainRead, h.plain_eq]
  | _ => rfl

theorem readProperty {receiver : Value} (h : receiver.Orphan) (key : Value) (ownOnly : Bool) :
    Read.Orphan (readProperty receiver key ownOnly) := by
  unfold Templating.readProperty
  split
  · exact fun _ => h
  · split
    · cases h with
      | array h => exact fun _ => fromEnd h _
    · exact h.readByName key.keyText ownOnly

theorem readProperty_eq {receiver : Value} (h : receiver.Orphan) (key : Value)
    (ownOnly other : Bool) :
    Templating.readProperty receiver key ownOnly = Templating.readProperty receiver key other := by
  unfold Templating.readProperty Templating.readByName
  rw [h.plainRead_eq key.keyText ownOnly other]

end Value.Orphan

theorem Modifier.apply_subset (arguments : Object) (items : List Value) (m : Modifier) :
    m.apply arguments items ⊆ items := by
  intro v member
  cases m with
  | reversed => exact List.mem_reverse.mp member
  | offset =>
    simp only [Modifier.apply] at member
    split at member
    · exact List.mem_of_mem_drop member
    · exact member
  | limit =>
    simp only [Modifier.apply] at member
    split at member
    · exact List.mem_of_mem_take member
    · exact member

theorem select_subset (ordered : Bool) (arguments : Object) (items : List Value) :
    select ordered arguments items ⊆ items := by
  unfold select
  induction modifiers ordered arguments generalizing items with
  | nil => exact List.Subset.refl items
  | cons m rest ih => exact List.Subset.trans (ih _) (m.apply_subset arguments items)

end Templating
