import Mathlib.Algebra.Ring.Nat
import Templating.Proofs.Value.Inheritance

namespace Templating
namespace Store

def totalCalls (s : Store) : Nat := (s.calls.map Prod.snd).sum

/-- At most one property has been called, and at most once. -/
def CalledOnce (before after : Store) : Prop :=
  after.calls = before.calls ∨ ∃ id, after.calls = countCall id before.calls

/-- One property has been called, and called again. -/
def CalledTwice (before after : Store) : Prop :=
  ∃ id, after.calls = countCall id (countCall id before.calls)

theorem countCall_total (id : Nat) (calls : List (Nat × Nat)) :
    ((countCall id calls).map Prod.snd).sum = (calls.map Prod.snd).sum + 1 := by
  induction calls with
  | nil => rfl
  | cons entry rest ih =>
    obtain ⟨i, n⟩ := entry
    unfold countCall
    split
    · simp only [List.map_cons, List.sum_cons]
      omega
    · simp only [List.map_cons, List.sum_cons, ih]
      omega

theorem CalledOnce.total {before after : Store} (h : CalledOnce before after) :
    after.totalCalls ≤ before.totalCalls + 1 := by
  unfold totalCalls
  rcases h with same | ⟨id, once⟩
  · rw [same]
    omega
  · have total := countCall_total id before.calls
    rw [once]
    omega

theorem CalledTwice.total {before after : Store} (h : CalledTwice before after) :
    after.totalCalls = before.totalCalls + 2 := by
  obtain ⟨id, twice⟩ := h
  unfold totalCalls
  rw [twice, countCall_total, countCall_total]

theorem CalledTwice.not_once {before after : Store} (h : CalledTwice before after) :
    ¬ CalledOnce before after := by
  intro once
  have two := h.total
  have one := once.total
  omega

@[simp] theorem calls_note (s : Store) (event : String → Event) (label : Option String) :
    (s.note event label).calls = s.calls := by
  cases label <;> rfl

end Store

open Store

def callsWith (calls : List (Nat × Nat)) : Value → List (Nat × Nat)
  | .computed id _ _ => countCall id calls
  | _ => calls

theorem callsWith_calledOnce {before after : Store} {v : Value}
    (h : after.calls = callsWith before.calls v) : CalledOnce before after := by
  cases v with
  | computed id label answer => exact .inr ⟨id, h⟩
  | _ => exact .inl h

theorem calls_callIfComputed (v : Value) (s : Store) :
    (callIfComputed v s).2.calls = callsWith s.calls v := by
  cases v with
  | computed id label answer => exact calls_note _ _ _
  | _ => rfl

theorem calls_read (o : Object) (key : String) (ownOnly : Bool) (s : Store) :
    (o.read key ownOnly s).2.calls = callsWith s.calls (o.plain key ownOnly) := by
  unfold Object.read
  dsimp only
  split <;> exact calls_callIfComputed _ s

theorem calls_ask (d : Drop) (key : String) (s : Store) : (d.ask key s).2.calls = s.calls := by
  unfold Drop.ask Drop.ask.missed
  dsimp only
  split
  · split <;> simp only [calls_note]
  · simp only [calls_note]

theorem calls_plainRead (receiver : Value) (name : String) (ownOnly : Bool) (s : Store) :
    (plainRead receiver name ownOnly s).2.calls = s.calls := by
  cases receiver with
  | drop d => exact calls_ask d name s
  | _ => rfl

theorem calls_synthetic_object (o : Object) {name : String} (named : name ∈ syntheticNames)
    (s : Store) :
    (synthetic (.object o) name s).2.calls = callsWith s.calls (o.plain name false) := by
  simp only [syntheticNames, List.mem_cons, List.not_mem_nil, or_false] at named
  rcases named with rfl | rfl | rfl <;> exact calls_read o _ false s

theorem calls_synthetic_other {receiver : Value} {name : String}
    (other : ∀ o, receiver = .object o → name ∉ syntheticNames) (s : Store) :
    (synthetic receiver name s).2.calls = s.calls := by
  by_cases named : name ∈ syntheticNames
  · have plain (o : Object) : receiver ≠ .object o := fun same => other o same named
    simp only [syntheticNames, List.mem_cons, List.not_mem_nil, or_false] at named
    cases receiver with
    | object o => exact absurd rfl (plain o)
    | _ => rcases named with rfl | rfl | rfl <;> rfl
  · rw [synthetic_unnamed named]

/-- What is found is a computed property, it gives undefined, and its name is one of those that an
    object is asked for a second time. -/
def Recalls (receiver : Value) (name : String) (ownOnly : Bool) (s : Store) : Prop :=
  ∃ o id label answer, receiver = .object o ∧ name ∈ syntheticNames ∧
    o.plain name ownOnly = .computed id label answer ∧
      (answer (s.timesCalled id)).isUndefined = true

theorem plain_any_of_computed {o : Object} {name : String} {ownOnly : Bool} {id : Nat}
    {label : Option String} {answer : Nat → Value}
    (found : o.plain name ownOnly = .computed id label answer) :
    o.plain name false = .computed id label answer := by
  cases ownOnly with
  | false => exact found
  | true =>
    cases own : o.own? name with
    | none => simp [Object.plain, own] at found
    | some v =>
      rw [Object.plain_of_own own] at found ⊢
      exact found

theorem readByName_calledTwice {receiver : Value} {name : String} {ownOnly : Bool} {s : Store}
    (h : Recalls receiver name ownOnly s) :
    CalledTwice s (readByName receiver name ownOnly s).2 := by
  obtain ⟨o, id, label, answer, rfl, named, found, undefined⟩ := h
  have first : plainRead (.object o) name ownOnly s = (.computed id label answer, s) :=
    congrArg (·, s) found
  have answered : ((s.call id label answer).1).isUndefined = true := undefined
  refine ⟨id, ?_⟩
  simp only [readByName, first, callIfComputed, answered, if_true]
  rw [calls_synthetic_object o named, plain_any_of_computed found]
  exact congrArg (countCall id) (calls_note _ _ _)

theorem calls_of_undefined {v : Value} {s : Store}
    (quiet : ∀ id label answer, v = .computed id label answer →
      (answer (s.timesCalled id)).isUndefined = false)
    (undefined : (callIfComputed v s).1.isUndefined = true) :
    (callIfComputed v s).2.calls = s.calls := by
  cases v with
  | computed id label answer =>
    have defined := quiet id label answer rfl
    exact absurd (undefined.symm.trans defined) (by decide)
  | _ => rfl

theorem readByName_calledOnce {receiver : Value} {name : String} {ownOnly : Bool} {s : Store}
    (h : ¬ Recalls receiver name ownOnly s) :
    CalledOnce s (readByName receiver name ownOnly s).2 := by
  have called := calls_callIfComputed (plainRead receiver name ownOnly s).1
    (plainRead receiver name ownOnly s).2
  rw [calls_plainRead] at called
  unfold readByName
  dsimp only
  split
  · rename_i undefined
    by_cases again : ∃ o, receiver = .object o ∧ name ∈ syntheticNames
    · obtain ⟨o, rfl, named⟩ := again
      have first : (callIfComputed (o.plain name ownOnly) s).2.calls = s.calls := by
        apply calls_of_undefined _ undefined
        intro id label answer found
        rw [Bool.eq_false_iff]
        intro nothing
        exact h ⟨o, id, label, answer, rfl, named, found, nothing⟩
      have second := calls_synthetic_object o named (callIfComputed (o.plain name ownOnly) s).2
      rw [first] at second
      exact callsWith_calledOnce second
    · have rest := calls_synthetic_other (fun o same named => again ⟨o, same, named⟩)
        (callIfComputed (plainRead receiver name ownOnly s).1
          (plainRead receiver name ownOnly s).2).2
      exact callsWith_calledOnce (rest.trans called)
  · exact callsWith_calledOnce called

/-- Nullish values and negative indices give a value at once, the rest is looked up by name. -/
theorem readProperty_at_once_or_by_name (receiver key : Value) (ownOnly : Bool) :
    (∃ v, readProperty receiver key ownOnly = fun s => (v, s)) ∨
      readProperty receiver key ownOnly = readByName receiver key.keyText ownOnly := by
  unfold readProperty
  by_cases nullish : receiver.isNullish = true
  · rw [if_pos nullish]
    exact .inl ⟨receiver, rfl⟩
  · rw [if_neg nullish]
    cases receiver with
    | array items =>
      cases negativeIndex? key with
      | none => exact .inr rfl
      | some index => exact .inl ⟨fromEnd items index, rfl⟩
    | _ => exact .inr rfl

/-- A read calls one computed property at most, and at most once, unless it finds one under `size`,
    `first` or `last` of an object that gives undefined; then it calls this one twice. A read from
    an object or scope by itself never does. -/
theorem read_calls (receiver key : Value) (ownOnly : Bool) (s : Store) :
    (CalledOnce s (readProperty receiver key ownOnly s).2
      ↔ ¬ Recalls receiver key.keyText ownOnly s) ∧
    (CalledTwice s (readProperty receiver key ownOnly s).2
      ↔ Recalls receiver key.keyText ownOnly s) ∧
    ∀ (o : Object) (name : String), CalledOnce s (o.read name ownOnly s).2 := by
  have twice (h : Recalls receiver key.keyText ownOnly s) :
      CalledTwice s (readProperty receiver key ownOnly s).2 := by
    obtain ⟨o, id, label, answer, rfl, rest⟩ := h
    exact readByName_calledTwice ⟨o, id, label, answer, rfl, rest⟩
  have once (h : ¬ Recalls receiver key.keyText ownOnly s) :
      CalledOnce s (readProperty receiver key ownOnly s).2 := by
    rcases readProperty_at_once_or_by_name receiver key ownOnly with ⟨v, given⟩ | byName
    · rw [given]
      exact .inl rfl
    · rw [byName]
      exact readByName_calledOnce h
  constructor
  · constructor
    · intro one recalls
      exact (twice recalls).not_once one
    · exact once
  · constructor
    · constructor
      · intro two
        apply Classical.byContradiction
        intro quiet
        exact two.not_once (once quiet)
      · exact twice
    · intro o name
      exact callsWith_calledOnce (calls_read o name ownOnly s)

theorem undefined_first_called_again :
    ¬ ∀ (receiver key : Value) (ownOnly : Bool) (s : Store),
      CalledOnce s (readProperty receiver key ownOnly s).2 := by
  intro once
  have total := (once (.object ⟨[("first", .computed 0 none fun _ => .undefined)], none⟩)
    (.str "first") false Store.empty).total
  exact absurd total (by decide)

end Templating
