import Templating.Engine
import Templating.Proofs.Expr.Ranges
import Templating.Proofs.Task.Driving

namespace Templating

/-- The bound of a range that an expression stands for. -/
def Expr.bound (e : Expr) : Task Int64 := do boundOf (← e.evaluate)

theorem evaluate_range (first second : Expr) :
    (Expr.range first second).evaluate = (do
      let low ← first.bound
      let high ← second.bound
      buildRange low high) := by
  simp only [Expr.evaluate, Expr.bound, buildRange, bind_assoc]

def integersBetween (low high : Int64) : List Int64 :=
  (List.range (high.toInt - low.toInt + 1).toNat).map fun (k : Nat) => Int64.ofInt (low.toInt + k)

theorem rangeElements_eq (low high : Int64) :
    rangeElements low high = (integersBetween low high).map .int := by
  rw [rangeElements, integersBetween, List.map_map]
  rfl

theorem toInt_between {low : Int64} (high : Int64) {k : Nat} (inside : low.toInt + k ≤ high.toInt) :
    (Int64.ofInt (low.toInt + k)).toInt = low.toInt + k := by
  have least := low.le_toInt
  have most := high.toInt_lt
  exact Int64.toInt_ofInt_of_le (by omega) (by omega)

theorem mem_integersBetween {low high n : Int64} :
    n ∈ integersBetween low high ↔ low ≤ n ∧ n ≤ high := by
  simp only [integersBetween, List.mem_map, List.mem_range, Int64.le_iff_toInt_le]
  constructor
  · rintro ⟨k, below, rfl⟩
    rw [toInt_between high (by omega)]
    omega
  · rintro ⟨above, below⟩
    refine ⟨(n.toInt - low.toInt).toNat, by omega, ?_⟩
    rw [← Int64.toInt_inj, toInt_between high (by omega)]
    omega

theorem increasing_integersBetween (low high : Int64) :
    (integersBetween low high).Pairwise (· < ·) := by
  rw [integersBetween, List.pairwise_map]
  refine List.pairwise_lt_range.imp_of_mem fun {i j} before behind less => ?_
  rw [List.mem_range] at before behind
  rw [Int64.lt_iff_toInt_lt, toInt_between high (by omega),
    toInt_between high (by omega)]
  omega

def Moment.spend (m : Moment) (limit used : Nat) : Moment :=
  { m with state := m.state.spend limit used }

/-- A range of two bounds, wherever these come from, under a memory limit that is not the largest
    64-bit number: it fails for want of memory exactly if its elements do not fit in what is left of
    the budget, and otherwise it is the array of the integers between the bounds, and these are
    counted as used. -/
theorem range_exact_within_budget {limit used : Nat} (limited : limit < 2 ^ 63 - 1)
    {first second : Expr} {low high : Int64} {m middle last : Moment}
    (lower : first.bound.drive m = ⟨.finished low, middle⟩)
    (upper : second.bound.drive middle = ⟨.finished high, last⟩)
    (budget : last.state.memory = ⟨.memory, .units limit used⟩) :
    let count : Int := max 0 (high.toInt - low.toInt + 1)
    let range := (Expr.range first second).evaluate.drive m
    (range.ending = .failed (.resourceExceeded .memory) ↔ limit < used + count) ∧
      (used + count ≤ limit → ∃ ns : List Int64,
        range = ⟨.finished (.array (ns.map .int)), last.spend limit (used + ns.length)⟩ ∧
          ns.Pairwise (· < ·) ∧ ∀ n, n ∈ ns ↔ low ≤ n ∧ n ≤ high) := by
  intro count range
  have length := length_rangeElements low high
  have built : range = (buildRange low high).drive last := by
    simp only [range, evaluate_range, Task.drive_bind, lower, upper, Halt.andThen]
  have charged : range = ((Task.charge (rangeCharge low high) last.state).drive last.schedule
      last.driver).andThen fun _ m => ⟨.finished (.array (rangeElements low high)), m⟩ :=
    built.trans (Task.drive_bind _ _ last)
  rcases charge_range limited budget low high with ⟨fits, done⟩ | ⟨reached, -, beyond, failed⟩
  · rw [done] at charged
    refine ⟨⟨fun ending => ?_, fun beyond => by omega⟩, fun _ => ?_⟩
    · rw [charged] at ending
      cases ending
    · refine ⟨integersBetween low high, ?_, increasing_integersBetween low high,
        fun n => mem_integersBetween⟩
      have counted := congrArg List.length (rangeElements_eq low high)
      rw [List.length_map] at counted
      rw [charged, ← rangeElements_eq, ← counted]
      rfl
  · rw [failed] at charged
    refine ⟨⟨fun _ => by omega, fun _ => ?_⟩, fun fits => by omega⟩
    rw [charged]
    rfl

theorem bound_int (n : Int64) (m : Moment) :
    (Expr.literal (.int n)).bound.drive m = ⟨.finished n, m⟩ := rfl

def awaitingLargest (limit used : Nat) : Moment :=
  let data : Object := .single "n" (.deferred 1 none (.str " 9223372036854775807 "))
  ⟨(Engine.start default data default .empty .empty).spend limit used, ⟨[(1, .pending 0)]⟩, .now⟩

theorem range_exact_within_budget_at_the_ends :
    let upTo (low : Int64) : Expr := .range (.literal (.int low)) (.path "n" [])
    let reversed : Expr := .range (.literal (.int 3)) (.literal (.int 1))
    (∃ (ns : List Int64) (last : Moment),
      (upTo 9223372036854775805).evaluate.drive (awaitingLargest 5 2)
        = ⟨.finished (.array (ns.map .int)), last.spend 5 (2 + ns.length)⟩ ∧
        ns.Pairwise (· < ·) ∧ ∀ n, n ∈ ns ↔ 9223372036854775805 ≤ n ∧ n ≤ Int64.maxValue) ∧
    ((upTo 9223372036854775805).evaluate.drive (awaitingLargest 5 3)).ending
        = .failed (.resourceExceeded .memory) ∧
    ((upTo Int64.minValue).evaluate.drive (awaitingLargest (2 ^ 63 - 2) 0)).ending
        = .failed (.resourceExceeded .memory) ∧
    (reversed.evaluate.drive (awaitingLargest 5 6)).ending
        = .failed (.resourceExceeded .memory) := by
  intro upTo reversed
  have upper (limit used : Nat) : ∃ last, (Expr.path "n" []).bound.drive
      (awaitingLargest limit used) = ⟨.finished Int64.maxValue, last⟩ ∧
        last.state.memory = ⟨.memory, .units limit used⟩ := ⟨_, rfl, rfl⟩
  obtain ⟨enough, found, budget⟩ := upper 5 2
  obtain ⟨short, foundShort, budgetShort⟩ := upper 5 3
  obtain ⟨whole, foundWhole, budgetWhole⟩ := upper (2 ^ 63 - 2) 0
  have fits := range_exact_within_budget (by decide) (bound_int 9223372036854775805 _) found budget
  have less := range_exact_within_budget (by decide) (bound_int 9223372036854775805 _) foundShort
    budgetShort
  have all := range_exact_within_budget (by decide) (bound_int Int64.minValue _) foundWhole
    budgetWhole
  have none := range_exact_within_budget (by decide) (bound_int 3 (awaitingLargest 5 6))
    (bound_int 1 _) rfl
  obtain ⟨ns, given⟩ := fits.2 (by decide)
  exact ⟨⟨ns, enough, given⟩, less.1.mpr (by decide), all.1.mpr (by decide), none.1.mpr (by decide)⟩

end Templating
