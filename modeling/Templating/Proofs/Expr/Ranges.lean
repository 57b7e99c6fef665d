import Mathlib.Algebra.Ring.Int.Defs
import Mathlib.Algebra.Ring.Nat
import Templating.Expr.Evaluation

namespace Templating

def mostCharged : Nat := 0x7FFFFFFFFFFFFFFF

theorem toInt_ofIntClamp (x : Int) :
    (Int64.ofIntClamp x).toInt = max (-2 ^ 63) (min x mostCharged) := by
  have low : Int64.minValue.toInt = -2 ^ 63 := rfl
  have high : Int64.maxValue.toInt = 2 ^ 63 - 1 := rfl
  have most : (mostCharged : Int) = 2 ^ 63 - 1 := rfl
  unfold Int64.ofIntClamp
  by_cases above : Int64.minValue.toInt ≤ x
  · by_cases below : x ≤ Int64.maxValue.toInt
    · rw [dif_pos above, dif_pos below, Int64.toInt_ofIntLE]
      omega
    · rw [dif_pos above, dif_neg below]
      omega
  · rw [dif_neg above]
    omega

theorem length_rangeElements (low high : Int64) :
    (rangeElements low high).length = (high.toInt - low.toInt + 1).toNat := by
  rw [rangeElements, List.length_map, List.length_range]

theorem rangeCharge_eq (low high : Int64) :
    rangeCharge low high = min (rangeElements low high).length mostCharged := by
  have most : (mostCharged : Int) = 2 ^ 63 - 1 := rfl
  rw [length_rangeElements, rangeCharge]
  simp only [toInt_ofIntClamp]
  omega

def State.Spent (limit used : Nat) (s : State) : Prop := s.memory = ⟨.memory, .units limit used⟩

def State.spend (s : State) (limit used : Nat) : State :=
  { s with memory := ⟨.memory, .units limit used⟩ }

theorem charge_of_spent {limit used count : Nat} {s : State} (spent : s.Spent limit used)
    (limited : limit < Budget.mostUnits) :
    Task.charge count s = if used + count ≤ limit then .done () (s.spend limit (used + count))
      else .failed (.resourceExceeded .memory)
        (s.spend limit (min (used + count) Budget.mostUnits)) := by
  unfold Task.charge
  rw [State.Spent] at spent
  simp only [spent, Budget.charge, Budget.isExceeded, decide_eq_true_eq]
  by_cases enough : used + count ≤ limit
  · rw [if_pos enough, Nat.min_eq_left (by omega), if_neg (by omega)]
    rfl
  · rw [if_neg enough, if_pos (by omega)]
    rfl

def buildRange (low high : Int64) : Task Value := do
  Task.charge (rangeCharge low high)
  return .array (rangeElements low high)

/-- A range is built if its elements fit in the budget, and fails for want of memory if not. -/
theorem charge_range {limit used : Nat} (limited : limit < mostCharged) {s : State}
    (spent : s.Spent limit used) (low high : Int64) :
    (used + (rangeElements low high).length ≤ limit ∧
      Task.charge (rangeCharge low high) s
        = .done () (s.spend limit (used + (rangeElements low high).length))) ∨
    ∃ reached, limit < reached ∧ limit < used + (rangeElements low high).length ∧
      Task.charge (rangeCharge low high) s
        = .failed (.resourceExceeded .memory) (s.spend limit reached) := by
  have most : mostCharged ≤ Budget.mostUnits := by decide
  have cost := rangeCharge_eq low high
  rw [charge_of_spent spent (by omega)]
  by_cases enough : used + rangeCharge low high ≤ limit
  · rw [if_pos enough]
    have exact : rangeCharge low high = (rangeElements low high).length := by omega
    rw [← exact]
    exact .inl ⟨enough, rfl⟩
  · rw [if_neg enough]
    exact .inr ⟨min (used + rangeCharge low high) Budget.mostUnits, by omega, by omega, rfl⟩

end Templating
