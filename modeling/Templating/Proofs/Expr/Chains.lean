import Templating.Expr.Condition
import Templating.Proofs.Task.Driving

/-!
Chains of tests. A chain `t₁ c₁ t₂ c₂ … tₙ` groups to the right, so its value is a right fold;
and each connective is open for one value of the test before it and decided by the other.
-/
namespace Templating

/-- A value, or two values and an operator. -/
structure Test (ν : Type) where
  left : ν
  comparison : Option (Operator × ν)

inductive Connective where
  | and
  | or

structure Chain (α : Type) where
  leading : List (α × Connective)
  last : α

namespace Test
variable {ν μ : Type}

def map (f : ν → μ) (t : Test ν) : Test μ :=
  ⟨f t.left, t.comparison.map fun (operator, right) => (operator, f right)⟩

def evaluate (t : Test Expr) : Task Bool := do
  let left ← Task.resolve (← t.left.evaluate)
  match t.comparison with
  | none => return left.isTruthy
  | some (operator, right) => do
    let right ← Task.resolve (← right.evaluate)
    return operator.holds left right

def condition (t : Test Argument) : Condition := .test t.left t.comparison

theorem evaluate_condition (t : Test Argument) :
    t.condition.evaluate = (t.map Argument.expr).evaluate := by
  obtain ⟨left, _ | ⟨operator, right⟩⟩ := t <;> rfl

end Test

namespace Connective

def word : Connective → String
  | and => "and"
  | or => "or"

def apply : Connective → Bool → Bool → Bool
  | and => Bool.and
  | or => Bool.or

def join : Connective → Condition → Condition → Condition
  | and => .both
  | or => .either

def opening : Connective → Bool
  | and => true
  | or => false

theorem apply_opening (c : Connective) (b : Bool) : c.apply c.opening b = b := by
  cases c <;> rfl

theorem apply_decided {c : Connective} {v : Bool} (decided : v ≠ c.opening) (b : Bool) :
    c.apply v b = v := by
  cases c <;> cases v <;> first | rfl | exact absurd rfl decided

theorem evaluate_join (c : Connective) (first rest : Condition) :
    (c.join first rest).evaluate = (do
      let v ← first.evaluate
      if v = c.opening then rest.evaluate else return v) := by
  cases c <;> refine bind_congr fun v => ?_ <;> cases v <;> rfl

end Connective

namespace Chain
variable {α β : Type}

def map (f : α → β) (chain : Chain α) : Chain β :=
  ⟨chain.leading.map fun (a, c) => (f a, c), f chain.last⟩

def fold (values : Chain Bool) : Bool :=
  values.leading.foldr (fun (v, c) rest => c.apply v rest) values.last

def condition (tests : Chain (Test Argument)) : Condition :=
  tests.leading.foldr (fun (t, c) rest => c.join t.condition rest) tests.last.condition

def first (chain : Chain α) : α := (chain.leading.map (·.1)).head?.getD chain.last

def connectives (chain : Chain α) : List Connective := chain.leading.map (·.2)

def behind (chain : Chain α) (earlier : List (α × Connective)) : Chain α :=
  { chain with leading := earlier ++ chain.leading }

inductive Passed : List (Test Expr × Connective) → Moment → Moment → Prop where
  | nil {m : Moment} : Passed [] m m
  | cons {t : Test Expr} {c : Connective} {rest : List (Test Expr × Connective)}
      {m next last : Moment} (ran : t.evaluate.drive m = ⟨.finished c.opening, next⟩)
      (later : Passed rest next last) : Passed ((t, c) :: rest) m last

/-- Tests have been evaluated in turn up to the first of `rest`, and as that one stops, so does all.
    If it has a value, this is the fold, whatever values the tests behind it would have. -/
inductive Folds (tests : Chain (Test Expr)) (m : Moment) : Halt Bool → Prop where
  | stops (earlier : List (Test Expr × Connective)) (rest : Chain (Test Expr)) {reached : Moment}
      (cut : tests = rest.behind earlier) (passed : Passed earlier m reached)
      (folds : ∀ v, (rest.first.evaluate.drive reached).ending = .finished v →
        ∀ values : Chain Bool, values.connectives = rest.connectives → values.first = v →
          (values.behind (earlier.map fun (_, c) => (c.opening, c))).fold = v) :
      Folds tests m (rest.first.evaluate.drive reached)

variable {t : Test Expr} {c : Connective} {leading : List (Test Expr × Connective)}
  {last : Test Expr} {m : Moment}

theorem Folds.alone : Folds ⟨[], last⟩ m (last.evaluate.drive m) := by
  refine .stops [] ⟨[], last⟩ rfl .nil fun v _ values alike given => ?_
  obtain ⟨front, b⟩ := values
  obtain rfl : front = [] := List.map_eq_nil_iff.mp alike
  exact given

theorem Folds.here (decides : ∀ v, (t.evaluate.drive m).ending = .finished v → v ≠ c.opening) :
    Folds ⟨(t, c) :: leading, last⟩ m (t.evaluate.drive m) := by
  refine .stops [] ⟨(t, c) :: leading, last⟩ rfl .nil fun v finished values alike given => ?_
  obtain ⟨front, b⟩ := values
  cases front with
  | nil => cases alike
  | cons value front =>
    obtain ⟨w, d⟩ := value
    obtain rfl : w = v := given
    obtain rfl : d = c := (List.cons.inj alike).1
    exact Connective.apply_decided (decides w finished) _

theorem Folds.later {next : Moment} {h : Halt Bool}
    (ran : t.evaluate.drive m = ⟨.finished c.opening, next⟩)
    (later : Folds ⟨leading, last⟩ next h) : Folds ⟨(t, c) :: leading, last⟩ m h := by
  cases later with
  | stops earlier rest cut passed folds =>
    have longer : (⟨(t, c) :: leading, last⟩ : Chain (Test Expr))
        = rest.behind ((t, c) :: earlier) := by
      rw [Chain.mk.injEq] at cut
      rw [behind, cut.1, cut.2]
      rfl
    refine .stops _ rest longer (.cons ran passed) fun v finished values alike given => ?_
    have same := folds v finished values alike given
    exact (c.apply_opening _).trans same

theorem Folds.cons {onward : Moment → Halt Bool}
    (folds : ∀ next, Folds ⟨leading, last⟩ next (onward next)) :
    Folds ⟨(t, c) :: leading, last⟩ m ((t.evaluate.drive m).andThen fun v next =>
      if v = c.opening then onward next else ⟨.finished v, next⟩) := by
  generalize ran : t.evaluate.drive m = h
  obtain ⟨ending, next⟩ := h
  cases ending with
  | finished v =>
    by_cases opening : v = c.opening
    · rw [Halt.andThen, if_pos opening]
      exact .later (opening ▸ ran) (folds next)
    · rw [Halt.andThen, if_neg opening, ← ran]
      refine .here fun w finished => ?_
      rw [ran] at finished
      exact Ending.finished.inj finished ▸ opening
  | failed e =>
    rw [Halt.andThen, ← ran]
    exact .here fun w finished => by rw [ran] at finished; cases finished
  | unfinished =>
    rw [Halt.andThen, ← ran]
    exact .here fun w finished => by rw [ran] at finished; cases finished

/-- The condition of a chain evaluates to the fold of the chain, by no more tests than it takes. -/
theorem condition_folds (tests : Chain (Test Argument)) (m : Moment) :
    (tests.map (Test.map Argument.expr)).Folds m (tests.condition.evaluate.drive m) := by
  obtain ⟨leading, last⟩ := tests
  -- a later test begins where the one before it has stopped, so the moment varies
  induction leading generalizing m with
  | nil => exact last.evaluate_condition ▸ .alone
  | cons head rest ih =>
    obtain ⟨t, c⟩ := head
    have onward : (condition ⟨(t, c) :: rest, last⟩).evaluate.drive m
        = ((t.map Argument.expr).evaluate.drive m).andThen fun v next =>
          if v = c.opening then (condition ⟨rest, last⟩).evaluate.drive next
          else ⟨.finished v, next⟩ := by
      change (c.join t.condition (condition ⟨rest, last⟩)).evaluate.drive m = _
      rw [Connective.evaluate_join, Test.evaluate_condition, Task.drive_bind]
      congr 1
      funext v next
      split <;> rfl
    rw [onward]
    exact .cons ih

end Chain
end Templating
