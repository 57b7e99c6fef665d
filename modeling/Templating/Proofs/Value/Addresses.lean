import Templating.Proofs.Source.Lexemes
import Templating.Proofs.Value.Inheritance

namespace Templating

/-- A way to ask an array for one of its elements. -/
inductive ArrayAddress where
  | index (n : Int64)
  | first
  | last

namespace ArrayAddress

def key : ArrayAddress → Value
  | .index n => .int n
  | .first => .str "first"
  | .last => .str "last"

def position (length : Nat) : ArrayAddress → Int
  | .index n => if n.toInt < 0 then length + n.toInt else n.toInt
  | .first => 0
  | .last => length - 1

def fromFront : ArrayAddress → Bool
  | .index n => 0 ≤ n.toInt
  | .first | .last => false

end ArrayAddress

def Value.isComputed : Value → Bool
  | .computed .. => true
  | _ => false

theorem integerText_of_front {n : Int64} (front : 0 ≤ n.toInt) :
    integerText n = naturalText n.toInt.toNat := by
  have size : n.toInt.natAbs = n.toInt.toNat := by omega
  simp only [integerText, if_neg (Int.not_lt.mpr front), size]

theorem index?_naturalText {n : Nat} (fits : n < positionBound) :
    index? (naturalText n) = some n := by
  have numeral := digits_naturalText n
  have unsigned (rest : List Char) : naturalText n ≠ '+' :: rest := by
    rw [← List.append_nil (naturalText n)]
    exact numeral.ne_cons [] rfl rest
  unfold index?
  split
  · rename_i rest signed
    exact absurd signed (unsigned rest)
  · simp [natural?_digits numeral, valueOfDigits_naturalText, fits]

theorem naturalText_unnamed (n : Nat) : String.ofList (naturalText n) ∉ syntheticNames := by
  intro named
  have spelled : ∀ word ∈ syntheticNames, word.toList.all Char.isDigit = false := by decide
  have digits : (naturalText n).all Char.isDigit = true :=
    List.all_eq_true.mpr (digits_naturalText n).2
  have letters := spelled _ named
  rw [String.toList_ofList, digits] at letters
  cases letters

theorem readByName_unnamed {receiver found : Value} {name : String} {ownOnly : Bool} {s : Store}
    (other : name ∉ syntheticNames) (plain : plainRead receiver name ownOnly s = (found, s)) :
    readByName receiver name ownOnly s = callIfComputed found s := by
  simp only [readByName, plain, synthetic_unnamed other]
  split
  · rename_i undefined
    generalize callIfComputed found s = result at undefined ⊢
    obtain ⟨value, after⟩ := result
    cases value <;> simp [Value.isUndefined] at undefined ⊢
  · rfl

variable {items : List Value} {v : Value}

theorem read_fromFront {n : Int64} (front : 0 ≤ n.toInt) (there : items[n.toInt.toNat]? = some v)
    (ownOnly : Bool) (s : Store) :
    readProperty (.array items) (.int n) ownOnly s = callIfComputed v s := by
  have number : negativeIndex? (.int n) = none := by
    simp [negativeIndex?, Value.asIndex?, front]
  have fits : n.toInt.toNat < positionBound := by
    have high := n.toInt_lt
    unfold positionBound
    omega
  have found : elementAt items (String.ofList (naturalText n.toInt.toNat)) = v := by
    simp only [elementAt, String.toList_ofList, index?_naturalText fits, Option.bind_some, there,
      Option.getD_some]
  have byName : readProperty (.array items) (.int n) ownOnly
      = readByName (.array items) (String.ofList (naturalText n.toInt.toNat)) ownOnly := by
    rw [← integerText_of_front front]
    simp only [readProperty, number]
    rfl
  rw [byName]
  apply readByName_unnamed (naturalText_unnamed _)
  exact congrArg (·, s) found

theorem read_fromEnd {n : Int64} (negative : n.toInt < 0) {position : Nat}
    (here : items.length + n.toInt = position) (there : items[position]? = some v)
    (ownOnly : Bool) (s : Store) :
    readProperty (.array items) (.int n) ownOnly s = (v, s) := by
  have number : negativeIndex? (.int n) = some n := by
    simp [negativeIndex?, Value.asIndex?, negative]
  have inside : ¬ (position : Int) < 0 := by omega
  simp only [readProperty, number]
  simp [Value.isNullish, fromEnd, here, inside, there]

theorem read_first (there : items[0]? = some v) (ownOnly : Bool) (s : Store) :
    readProperty (.array items) (.str "first") ownOnly s = (v, s) := by
  have found : items.head?.getD .undefined = v := by
    rw [List.head?_eq_getElem?, there, Option.getD_some]
  exact congrArg (·, s) found

theorem read_last (there : items[items.length - 1]? = some v) (ownOnly : Bool) (s : Store) :
    readProperty (.array items) (.str "last") ownOnly s = (v, s) := by
  have found : items.getLast?.getD .undefined = v := by
    rw [List.getLast?_eq_getElem?, there, Option.getD_some]
  exact congrArg (·, s) found

theorem read_address {a : ArrayAddress} {position : Nat} (here : a.position items.length = position)
    (there : items[position]? = some v) (ownOnly : Bool) (s : Store) :
    readProperty (.array items) a.key ownOnly s
      = if a.fromFront then callIfComputed v s else (v, s) := by
  cases a with
  | index n =>
    by_cases negative : n.toInt < 0
    · have back : (ArrayAddress.index n).fromFront = false := by
        simp only [ArrayAddress.fromFront, decide_eq_false_iff_not]
        omega
      simp only [ArrayAddress.position, if_pos negative] at here
      rw [back]
      exact read_fromEnd negative here there ownOnly s
    · have front : (ArrayAddress.index n).fromFront = true := by
        simp only [ArrayAddress.fromFront, decide_eq_true_eq]
        omega
      simp only [ArrayAddress.position, if_neg negative] at here
      have same : n.toInt.toNat = position := by omega
      rw [front]
      apply read_fromFront
      · omega
      · rw [same]
        exact there
  | first =>
    simp only [ArrayAddress.position] at here
    have same : position = 0 := by omega
    subst same
    exact read_first there ownOnly s
  | last =>
    simp only [ArrayAddress.position] at here
    have same : position = items.length - 1 := by omega
    subst same
    exact read_last there ownOnly s

theorem Value.answer_ne (v : Value) : ∀ {id : Nat} {label : Option String} {answer : Nat → Value}
    (n : Nat), v = .computed id label answer → answer n ≠ v := by
  cases v with
  | computed id label answer =>
    intro id' label' answer' n same again
    obtain ⟨rfl, rfl, rfl⟩ := Value.computed.inj same
    exact Value.answer_ne (answer n) n again rfl
  | _ => simp
termination_by structural v

/-- Two ways to ask for the same element give the same value, in either mode, unless the element is
    a computed property and just one of them counts from the front: that one gives what the
    property answers, the other one the property. -/
theorem addresses_agree {a b : ArrayAddress} {position : Nat}
    (first : a.position items.length = position) (second : b.position items.length = position)
    (there : items[position]? = some v) (ownOnly other : Bool) (s : Store) :
    readProperty (.array items) a.key ownOnly s
        = (if a.fromFront then callIfComputed v s else (v, s)) ∧
      ((readProperty (.array items) a.key ownOnly s).1
          = (readProperty (.array items) b.key other s).1
        ↔ (v.isComputed = true → a.fromFront = b.fromFront)) := by
  have left := read_address first there ownOnly s
  have right := read_address second there other s
  constructor
  · exact left
  · rw [left, right]
    cases v with
    | computed id label answer =>
      have called : (callIfComputed (.computed id label answer) s).1 ≠ .computed id label answer :=
        Value.answer_ne _ _ rfl
      cases a.fromFront <;> cases b.fromFront <;> simp [Value.isComputed, called, called.symm]
    | _ => simp [Value.isComputed, callIfComputed]

theorem addresses_agree_at_end :
    let items : List Value := [.int 1, .int 2, .computed 0 none fun _ => .int 3]
    (readProperty (.array items) ArrayAddress.last.key false Store.empty).1
      = (readProperty (.array items) (ArrayAddress.index (-1)).key true Store.empty).1 := by
  intro items
  have first : ArrayAddress.last.position items.length = (2 : Nat) := by decide
  have second : (ArrayAddress.index (-1)).position items.length = (2 : Nat) := by decide
  have there : items[2]? = some (.computed 0 none fun _ => .int 3) := rfl
  apply (addresses_agree first second there false true Store.empty).2.mpr
  intro computed
  rfl

theorem computed_element_uncalled :
    ¬ ∀ (items : List Value) (i : Nat) (front back : Int64) (ownOnly : Bool) (s : Store),
      i < items.length → front.toInt = i → back.toInt = i - items.length →
        (readProperty (.array items) (.int front) ownOnly s).1
          = (readProperty (.array items) (.int back) ownOnly s).1 := by
  intro agree
  have values := agree [.computed 0 none fun _ => .int 1] 0 0 (-1) false Store.empty
    (by decide) (by decide) (by decide)
  exact absurd (congrArg Value.isComputed values) (by decide)

end Templating
