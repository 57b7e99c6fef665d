import Templating.Engine
import Templating.Proofs.Task.Driving
import Templating.Proofs.Value.Object

/-!
Membership beside lookup. An object stands in a line: behind it what it inherits from, and so
on.
-/
namespace Templating
namespace Object

mutual

def line : Object → List Object
  | ⟨entries, ancestor⟩ => ⟨entries, ancestor⟩ :: lineBehind ancestor
termination_by structural o => o

def lineBehind : Option Object → List Object
  | none => []
  | some o => o.line
termination_by structural o => o

end

def shown (o : Object) (ownOnly : Bool) : List Object := if ownOnly then [o] else o.line

/-- The entry that a property read finds; where there is none, undefined is what it gives. -/
def visible? (o : Object) (key : String) (ownOnly : Bool) : Option Value :=
  if ownOnly then o.own? key else o.get? key

theorem line_eq (o : Object) : o.line = o :: lineBehind o.ancestor := by
  obtain ⟨entries, ancestor⟩ := o
  rfl

mutual

theorem get?_eq_findSome? : ∀ (o : Object) (key : String),
    o.get? key = o.line.findSome? (·.own? key)
  | ⟨entries, ancestor⟩, key => by
    rw [get?_eq, line, List.findSome?_cons, inherited?_eq_findSome? ancestor key]
    cases own? ⟨entries, ancestor⟩ key <;> rfl
termination_by structural o => o

theorem inherited?_eq_findSome? : ∀ (ancestor : Option Object) (key : String),
    inherited? ancestor key = (lineBehind ancestor).findSome? (·.own? key)
  | none, _ => rfl
  | some o, key => get?_eq_findSome? o key
termination_by structural ancestor => ancestor

end

theorem contains_eq_any (o : Object) (key : String) :
    o.contains key = o.line.any (·.hasOwn key) := by
  rw [contains, get?_eq_findSome?, List.isSome_findSome?]
  rfl

theorem visible?_eq_findSome? (o : Object) (key : String) (ownOnly : Bool) :
    o.visible? key ownOnly = (o.shown ownOnly).findSome? (·.own? key) := by
  cases ownOnly with
  | true =>
    simp only [visible?, shown, if_true, List.findSome?_cons, List.findSome?_nil]
    cases o.own? key <;> rfl
  | false => exact get?_eq_findSome? o key

theorem isSome_visible? (o : Object) (key : String) (ownOnly : Bool) :
    (o.visible? key ownOnly).isSome = (o.shown ownOnly).any (·.hasOwn key) := by
  rw [visible?_eq_findSome?, List.isSome_findSome?]
  rfl

theorem any_line_eq_shown_iff (o : Object) (key : String) (ownOnly : Bool) :
    o.line.any (·.hasOwn key) = (o.shown ownOnly).any (·.hasOwn key) ↔
      (ownOnly = true → (lineBehind o.ancestor).any (·.hasOwn key) = true →
        o.hasOwn key = true) := by
  cases ownOnly with
  | true =>
    rw [shown, if_pos rfl, line_eq, List.any_cons, List.any_cons, List.any_nil]
    cases o.hasOwn key <;> simp
  | false => simp [shown]

end Object

theorem contains_drive {left right : Argument} {o : Object} {key : Value} {m m₁ m₂ : Moment}
    (subject : (left.evaluate >>= Task.resolve).drive m = ⟨.finished (.object o), m₁⟩)
    (sought : (right.evaluate >>= Task.resolve).drive m₁ = ⟨.finished key, m₂⟩) :
    (Condition.test left (some (.contains, right))).evaluate.drive m
      = ⟨.finished (o.contains key.keyText), m₂⟩ := by
  have steps : (Condition.test left (some (.contains, right))).evaluate
      = (left.evaluate >>= Task.resolve) >>= fun whole =>
        (right.evaluate >>= Task.resolve) >>= fun part =>
          pure (Operator.holds whole part .contains) := by
    simp only [bind_assoc]
    rfl
  rw [steps, Task.drive_bind, subject]
  change ((right.evaluate >>= Task.resolve) >>= _).drive m₁ = _
  rw [Task.drive_bind, sought]
  rfl

/-- In any context, the condition `o contains key` holds if and only if an object in line has an own
    entry under the key's text, and the lookup of a property finds one if and only if an object that
    is shown has it. They agree unless only own entries count and the entry is inherited. -/
theorem membership_asks_whole_line {left right : Argument} {o : Object} {key : Value}
    {m m₁ m₂ : Moment}
    (subject : (left.evaluate >>= Task.resolve).drive m = ⟨.finished (.object o), m₁⟩)
    (sought : (right.evaluate >>= Task.resolve).drive m₁ = ⟨.finished key, m₂⟩) :
    let name := key.keyText
    let ownOnly := m.state.modes.ownOnly
    ∃ holds, (Condition.test left (some (.contains, right))).evaluate.drive m
        = ⟨.finished holds, m₂⟩ ∧
      holds = o.line.any (·.hasOwn name) ∧
      (∀ store, plainRead (.object o) name ownOnly store
        = ((o.visible? name ownOnly).getD .undefined, store)) ∧
      (o.visible? name ownOnly).isSome = (o.shown ownOnly).any (·.hasOwn name) ∧
      (holds = (o.visible? name ownOnly).isSome ↔
        (ownOnly = true → (Object.lineBehind o.ancestor).any (·.hasOwn name) = true →
          o.hasOwn name = true)) := by
  intro name ownOnly
  refine ⟨_, contains_drive subject sought, o.contains_eq_any name, fun _ => rfl,
    o.isSome_visible? name ownOnly, ?_⟩
  rw [o.contains_eq_any, o.isSome_visible?]
  exact o.any_line_eq_shown_iff name ownOnly

def heir : Object :=
  ⟨[("a", .undefined)], some ⟨[("b", .int 1)], some ⟨[("5", .nil)], none⟩⟩⟩

def seeingHeir (ownOnly : Bool) : Moment :=
  let settings : Settings := { Settings.default with ownOnly := some ownOnly }
  let data : Object := .single "o" (.deferred 1 none (.object heir))
  ⟨Engine.start default data settings .empty .empty, ⟨[(1, .pending 3)]⟩, .waiting 5⟩

def heirContains (key : Literal) : Condition :=
  .test ⟨.path "o" [], "o", ⟨6, 7⟩⟩ (some (.contains, ⟨.literal key, "", ⟨17, 18⟩⟩))

theorem membership_asks_whole_line_heir :
    let holds (key : Literal) (ownOnly : Bool) : Prop :=
      ∃ last, (heirContains key).evaluate.drive (seeingHeir ownOnly) = ⟨.finished true, last⟩
    (holds (.int 5) false ∧ (heir.visible? "5" false).isSome = true) ∧
    (holds (.int 5) true ∧ (heir.visible? "5" true).isSome = false) ∧
    (holds (.str "a") true ∧ (heir.visible? "a" true).isSome = true) := by
  intro holds
  have there (ownOnly : Bool) : ∃ next, (Argument.evaluate ⟨.path "o" [], "o", ⟨6, 7⟩⟩
      >>= Task.resolve).drive (seeingHeir ownOnly) = ⟨.finished (.object heir), next⟩ := by
    cases ownOnly <;> exact ⟨_, rfl⟩
  have given (key : Literal) (m : Moment) : (Argument.evaluate ⟨.literal key, "", ⟨17, 18⟩⟩
      >>= Task.resolve).drive m = ⟨.finished key.toValue, m⟩ := by
    cases key <;> rfl
  obtain ⟨plain, subject⟩ := there false
  obtain ⟨own, subject'⟩ := there true
  obtain ⟨_, ran, rfl, -, -, alike⟩ := membership_asks_whole_line subject (given (.int 5) plain)
  obtain ⟨_, ran', rfl, -, -, -⟩ := membership_asks_whole_line subject' (given (.int 5) own)
  obtain ⟨_, ran'', rfl, -, -, alike'⟩ :=
    membership_asks_whole_line subject' (given (.str "a") own)
  have found : (heir.visible? "5" false).isSome = true := (alike.mpr nofun).symm
  have kept : (heir.visible? "a" true).isSome = true := (alike'.mpr fun _ _ => rfl).symm
  exact ⟨⟨⟨plain, ran⟩, found⟩, ⟨⟨own, ran'⟩, rfl⟩, ⟨own, ran''⟩, kept⟩

theorem inherited_entry_contained :
    ¬ ∀ (left right : Argument) (o : Object) (key : Value) (m m₁ m₂ : Moment),
      (left.evaluate >>= Task.resolve).drive m = ⟨.finished (.object o), m₁⟩ →
      (right.evaluate >>= Task.resolve).drive m₁ = ⟨.finished key, m₂⟩ →
      ((Condition.test left (some (.contains, right))).evaluate.drive m = ⟨.finished true, m₂⟩ ↔
        (o.visible? key.keyText m.state.modes.ownOnly).isSome = true) := by
  intro agree
  have same := agree ⟨.path "o" [], "o", ⟨6, 7⟩⟩ ⟨.literal (.int 5), "", ⟨17, 18⟩⟩ heir (.int 5)
    (seeingHeir true) _ _ rfl rfl
  exact absurd (same.mp rfl) (by decide)

end Templating
