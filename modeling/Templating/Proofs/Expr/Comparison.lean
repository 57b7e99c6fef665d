import Mathlib.Data.String.Basic
import Templating.Expr.Condition
import Templating.Proofs.Decimal.Conversion

namespace Templating

/-- The operators say of these values what they say in a total order. -/
structure Ordered (a b : Value) : Prop where
  one : [Operator.below, .equal, .above].countP (Operator.holds a b) = 1
  atMost : Operator.holds a b .atMost = (Operator.holds a b .below || Operator.holds a b .equal)
  atLeast : Operator.holds a b .atLeast = (Operator.holds a b .above || Operator.holds a b .equal)
  unequal : Operator.holds a b .unequal = !Operator.holds a b .equal
  different : Operator.holds a b .different = !Operator.holds a b .equal

def OrderedExactly (a b : Int64) : Prop :=
  Ordered (.int a) (.int b) ∧ (Operator.holds (.int a) (.int b) .below ↔ a < b)

structure OrderedRounded (a b : Int64) : Prop where
  equal : Operator.holds (.int a) (.int b) .equal ↔ a = b
  unequal : Operator.holds (.int a) (.int b) .unequal ↔ a ≠ b
  different : Operator.holds (.int a) (.int b) .different ↔ a ≠ b
  below : Operator.holds (.int a) (.int b) .below ↔ rounded a.toInt < rounded b.toInt
  above : Operator.holds (.int a) (.int b) .above ↔ rounded b.toInt < rounded a.toInt
  atMost : Operator.holds (.int a) (.int b) .atMost ↔ rounded a.toInt ≤ rounded b.toInt
  atLeast : Operator.holds (.int a) (.int b) .atLeast ↔ rounded b.toInt ≤ rounded a.toInt

theorem floatOrdering_nearest (a b : Int64) :
    floatOrdering (nearestFloat a) (nearestFloat b)
      = some (compare (rounded a.toInt) (rounded b.toInt)) := by
  have below := float_lt_iff (nearestFloat a) (nearestFloat b)
  have equal := float_beq_iff (nearestFloat a) (nearestFloat b)
  have above := float_lt_iff (nearestFloat b) (nearestFloat a)
  rw [compare_nearestFloat, Option.some_inj, compare_lt_iff_lt] at below above
  rw [compare_nearestFloat, Option.some_inj, compare_eq_iff_eq] at equal
  unfold floatOrdering
  rcases lt_trichotomy (rounded a.toInt) (rounded b.toInt) with less | same | more
  · rw [if_pos (below.mpr less), compare_lt_iff_lt.mpr less]
  · rw [if_neg (by rw [below]; omega), if_pos (equal.mpr same), compare_eq_iff_eq.mpr same]
  · rw [if_neg (by rw [below]; omega), if_neg (by rw [equal]; omega), if_pos (above.mpr more),
      compare_gt_iff_gt.mpr more]

theorem ordering_int (a b : Int64) :
    ordering (.int a) (.int b) = some (compare (rounded a.toInt) (rounded b.toInt)) :=
  floatOrdering_nearest a b

theorem looselyEqual_int (a b : Int64) : looselyEqual (.int a) (.int b) = (a == b) := rfl

theorem looselyEqual_str (s t : String) : looselyEqual (.str s) (.str t) = (s == t) := rfl

theorem integers_ordered_rounded (a b : Int64) : OrderedRounded a b := by
  constructor
  · simp only [Operator.holds, looselyEqual_int, beq_iff_eq]
  · simp only [Operator.holds, looselyEqual_int, Bool.not_eq_true', beq_eq_false_iff_ne]
  · simp only [Operator.holds, looselyEqual_int, Bool.not_eq_true', beq_eq_false_iff_ne]
  all_goals
    simp only [Operator.holds, ordering_int, Bool.or_eq_true, beq_iff_eq, Option.some_inj,
      compare_lt_iff_lt, compare_gt_iff_gt, compare_eq_iff_eq]
  all_goals omega

theorem ordered_iff {a b : Value} {order : Ordering} (h : ordering a b = some order) :
    Ordered a b ↔ (looselyEqual a b = true ↔ order = .eq) := by
  constructor
  · intro ordered
    have one := ordered.one
    cases same : looselyEqual a b <;> cases order <;>
      simp [Operator.holds, h, same] at one ⊢
  · intro agree
    have same : looselyEqual a b = (order == .eq) := by
      rw [Bool.eq_iff_iff, agree, beq_iff_eq]
    cases order <;> constructor <;> simp [Operator.holds, h, same]

theorem strings_ordered (s t : String) :
    Ordered (.str s) (.str t) ∧ (Operator.holds (.str s) (.str t) .below ↔ s < t) := by
  have order : ordering (.str s) (.str t) = some (compare s t) := rfl
  constructor
  · rw [ordered_iff order, looselyEqual_str, beq_iff_eq, compare_eq_iff_eq]
  · simp only [Operator.holds, order, beq_iff_eq, Option.some_inj, compare_lt_iff_lt]

theorem ordered_int (a b : Int64) :
    Ordered (.int a) (.int b) ↔ (a = b ↔ rounded a.toInt = rounded b.toInt) := by
  rw [ordered_iff (ordering_int a b), looselyEqual_int, beq_iff_eq, compare_eq_iff_eq]

/-- Two integers are ordered as integers unless they differ and have the same float. -/
theorem orderedExactly_iff (a b : Int64) :
    OrderedExactly a b ↔ a = b ∨ rounded a.toInt ≠ rounded b.toInt := by
  have below := (integers_ordered_rounded a b).below
  have differ : a = b ↔ a.toInt = b.toInt := Int64.toInt_inj.symm
  have up : a.toInt ≤ b.toInt → rounded a.toInt ≤ rounded b.toInt := rounded_mono
  have down : b.toInt ≤ a.toInt → rounded b.toInt ≤ rounded a.toInt := rounded_mono
  rw [OrderedExactly, ordered_int, below, differ, Int64.lt_iff_toInt_lt]
  omega

/-- Strings are in a total order. Of two integers the same holds, and `<` is the order of the
    integers, unless they differ and have the same float, which takes an integer beyond 2^53. -/
theorem like_values_ordered (s t : String) (a b : Int64) :
    (Ordered (.str s) (.str t) ∧ (Operator.holds (.str s) (.str t) .below ↔ s < t)) ∧
    OrderedRounded a b ∧
    (OrderedExactly a b ↔ a = b ∨ rounded a.toInt ≠ rounded b.toInt) ∧
    (a.toInt.natAbs ≤ 2 ^ 53 → b.toInt.natAbs ≤ 2 ^ 53 → OrderedExactly a b) := by
  have exactly := orderedExactly_iff a b
  constructor
  · exact strings_ordered s t
  · constructor
    · exact integers_ordered_rounded a b
    · constructor
      · exact exactly
      · intro small small'
        rw [exactly, rounded_of_le small, rounded_of_le small', Ne, Int64.toInt_inj]
        exact Decidable.em (a = b)

theorem like_values_ordered_at_limit :
    OrderedExactly 9007199254740991 9007199254740992 := by
  apply (like_values_ordered "a" "b" 9007199254740991 9007199254740992).2.2.2
  · decide
  · decide

theorem neighbours_unordered : ¬ OrderedExactly 9007199254740992 9007199254740993 := by
  intro ordered
  have one := ordered.1.one
  revert one
  decide +kernel

end Templating
