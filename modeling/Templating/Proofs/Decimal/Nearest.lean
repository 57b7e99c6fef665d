import Mathlib.Tactic.Ring
import Templating.Decimal.Real

/-!
Integers as floats. A float keeps 53 binary digits, so an integer with more of them becomes a
multiple of a power of two, the nearest one, a tie going to the even multiple.
-/
namespace Templating

open Float.Model Float.Model.UnpackedFloat

def nearestQuotient (n unit : Nat) : Nat :=
  match compare (2 * (n % unit)) unit with
  | .lt => n / unit
  | .eq => n / unit + n / unit % 2
  | .gt => n / unit + 1

def binaryUnit (n : Nat) : Nat := 2 ^ (n.log2 - 52)

def roundedNat (n : Nat) : Nat := nearestQuotient n (binaryUnit n) * binaryUnit n

/-- An integer rounded to 53 binary digits. -/
def rounded (n : Int) : Int := n.sign * roundedNat n.natAbs

def Lies (half more : Bool) (start unit n : Nat) : Prop :=
  match half, more with
  | false, false => n = start
  | false, true => start < n ∧ 2 * n < 2 * start + unit
  | true, false => 2 * n = 2 * start + unit
  | true, true => 2 * start + unit < 2 * n ∧ n < start + unit

theorem Lies.wider {half more : Bool} {start unit n : Nat} (second : Bool) (positive : 0 < unit)
    (h : Lies half more (start + second.toNat * unit) unit n) :
    Lies second (half || more) start (2 * unit) n := by
  cases second <;> cases half <;> cases more <;>
    simp only [Lies, Bool.toNat_false, Bool.toNat_true, Nat.zero_mul, Nat.one_mul, Bool.or_false,
      Bool.or_true, Bool.or_self] at h ⊢ <;> omega

theorem Lies.bounds {half more : Bool} {start unit n : Nat} (positive : 0 < unit)
    (h : Lies half more start unit n) : start ≤ n ∧ n < start + unit := by
  cases half <;> cases more <;> simp only [Lies] at h <;> omega

/-- The mantissa counts the units below `n`, its two bits say where `n` lies behind them. -/
def Locates (em : ExtendedMantissa) (n unit : Nat) : Prop :=
  Lies em.roundBit em.stickyBit (em.mantissa * unit) unit n

theorem Locates.shiftRightOne {em : ExtendedMantissa} {n unit : Nat} (positive : 0 < unit)
    (h : Locates em n unit) :
    Locates em.shiftRightOne n (2 * unit) := by
  have digit : (em.mantissa % 2 != 0).toNat = em.mantissa % 2 := by
    rcases Nat.mod_two_eq_zero_or_one em.mantissa with even | odd
    · simp [even]
    · simp [odd]
  have parts : em.mantissa * unit
      = em.mantissa / 2 * (2 * unit) + (em.mantissa % 2 != 0).toNat * unit := by
    rw [digit]
    conv_lhs => rw [← Nat.div_add_mod em.mantissa 2]
    ring
  unfold Locates at h
  rw [parts] at h
  exact h.wider _ positive

theorem Locates.shiftRight {em : ExtendedMantissa} {n unit : Nat} (positive : 0 < unit)
    (h : Locates em n unit) (count : Nat) : Locates (em >>> count) n (2 ^ count * unit) := by
  induction count with
  | zero => simpa [HShiftRight.hShiftRight, Nat.repeat] using h
  | succ count ih =>
    have step := ih.shiftRightOne (Nat.mul_pos (Nat.two_pow_pos count) positive)
    rwa [← Nat.mul_assoc, ← Nat.pow_succ'] at step

theorem Locates.roundedMantissa {em : ExtendedMantissa} {n unit : Nat} (positive : 0 < unit)
    (h : Locates em n unit) : em.roundedMantissa = nearestQuotient n unit := by
  obtain ⟨low, high⟩ := h.bounds positive
  have whole : n / unit = em.mantissa := by
    apply Nat.div_eq_of_lt_le
    · exact low
    · rw [Nat.succ_mul]
      exact high
  have rest : n % unit = n - em.mantissa * unit := by
    rw [Nat.mod_eq_sub_mul_div, whole, Nat.mul_comm]
  unfold nearestQuotient
  rw [whole, rest]
  obtain ⟨m, half, more⟩ := em
  simp only [Locates] at h low high ⊢
  generalize m * unit = start at h low high
  -- The bits say on which side of the middle the rest lies, and the rounding asks just that.
  cases half <;> cases more <;> simp only [Lies] at h
  · rw [compare_lt_iff_lt.mpr (show 2 * (n - start) < unit by omega)]
    rfl
  · rw [compare_lt_iff_lt.mpr (show 2 * (n - start) < unit by omega)]
    rfl
  · rw [compare_eq_iff_eq.mpr (show 2 * (n - start) = unit by omega)]
    rfl
  · rw [compare_gt_iff_gt.mpr (show unit < 2 * (n - start) by omega)]
    rfl

theorem div_le_nearestQuotient (n unit : Nat) : n / unit ≤ nearestQuotient n unit := by
  unfold nearestQuotient
  split
  · exact le_rfl
  · exact Nat.le_add_right _ _
  · exact Nat.le_add_right _ _

theorem nearestQuotient_le_succ (n unit : Nat) : nearestQuotient n unit ≤ n / unit + 1 := by
  unfold nearestQuotient
  split
  · exact Nat.le_add_right _ _
  · have parity := Nat.mod_lt (n / unit) Nat.zero_lt_two
    omega
  · exact le_rfl

theorem nearestQuotient_mono {a b unit : Nat} (h : a ≤ b) :
    nearestQuotient a unit ≤ nearestQuotient b unit := by
  rcases (Nat.div_le_div_right h : a / unit ≤ b / unit).lt_or_eq with apart | together
  · have up := nearestQuotient_le_succ a unit
    have down := div_le_nearestQuotient b unit
    omega
  · have rests : a % unit ≤ b % unit := by
      have first := Nat.div_add_mod a unit
      have second := Nat.div_add_mod b unit
      rw [together] at first
      omega
    have parity := Nat.mod_lt (b / unit) Nat.zero_lt_two
    unfold nearestQuotient
    rw [together]
    split
    · split
      · exact le_rfl
      · exact Nat.le_add_right _ _
      · exact Nat.le_add_right _ _
    · rename_i half
      rw [compare_eq_iff_eq] at half
      split
      · rename_i low
        rw [compare_lt_iff_lt] at low
        omega
      · exact le_rfl
      · omega
    · rename_i high
      rw [compare_gt_iff_gt] at high
      have side : compare (2 * (b % unit)) unit = .gt := by
        rw [compare_gt_iff_gt]
        omega
      rw [side]

theorem nearestQuotient_one (n : Nat) : nearestQuotient n 1 = n := by
  unfold nearestQuotient
  rw [Nat.mod_one, Nat.div_one]
  rfl

theorem roundedNat_of_few {n : Nat} (few : n.log2 ≤ 52) : roundedNat n = n := by
  unfold roundedNat binaryUnit
  rw [Nat.sub_eq_zero_of_le few, Nat.pow_zero, Nat.mul_one, nearestQuotient_one]

/-- A rounded number keeps the number of its binary digits, or is the first one with more. -/
theorem roundedNat_bounds {n : Nat} (positive : n ≠ 0) :
    2 ^ n.log2 ≤ roundedNat n ∧ roundedNat n ≤ 2 ^ (n.log2 + 1) := by
  have low := Nat.log2_self_le positive
  have high := @Nat.lt_log2_self n
  rcases Nat.le_total n.log2 52 with few | many
  · rw [roundedNat_of_few few]
    exact ⟨low, high.le⟩
  · unfold roundedNat binaryUnit
    generalize place : n.log2 - 52 = extra
    have digits : n.log2 = 52 + extra := by omega
    rw [digits, Nat.pow_add] at low
    rw [digits, Nat.add_right_comm, Nat.pow_add] at high
    rw [digits, Nat.add_right_comm, Nat.pow_add, Nat.pow_add]
    have least : 2 ^ 52 ≤ n / 2 ^ extra := by
      rw [Nat.le_div_iff_mul_le (Nat.two_pow_pos extra)]
      exact low
    have most : n / 2 ^ extra < 2 ^ (52 + 1) := by
      rw [Nat.div_lt_iff_lt_mul (Nat.two_pow_pos extra)]
      exact high
    constructor
    · apply Nat.mul_le_mul_right
      exact least.trans (div_le_nearestQuotient n _)
    · apply Nat.mul_le_mul_right
      exact (nearestQuotient_le_succ n _).trans most

theorem roundedNat_mono {a b : Nat} (h : a ≤ b) : roundedNat a ≤ roundedNat b := by
  rcases Nat.eq_zero_or_pos a with zero | positive
  · subst zero
    exact Nat.zero_le _
  · have first := roundedNat_bounds (n := a) (by omega)
    have second := roundedNat_bounds (n := b) (by omega)
    have digits : a.log2 ≤ b.log2 := by
      rw [Nat.le_log2 (by omega)]
      exact (Nat.log2_self_le (by omega)).trans h
    rcases digits.lt_or_eq with fewer | same
    · have steps : 2 ^ (a.log2 + 1) ≤ 2 ^ b.log2 := Nat.pow_le_pow_right Nat.zero_lt_two fewer
      omega
    · unfold roundedNat binaryUnit
      rw [same]
      exact Nat.mul_le_mul_right _ (nearestQuotient_mono h)

theorem roundedNat_of_le {n : Nat} (h : n ≤ 2 ^ 53) : roundedNat n = n := by
  rcases h.lt_or_eq with few | edge
  · have digits : n.log2 ≤ 52 := by
      rcases Nat.eq_zero_or_pos n with zero | positive
      · subst zero
        decide
      · have := (Nat.log2_lt (by omega)).mpr few
        omega
    exact roundedNat_of_few digits
  · subst edge
    decide +kernel

theorem rounded_neg (n : Int) : rounded (-n) = -rounded n := by
  rw [rounded, rounded, Int.sign_neg, Int.natAbs_neg, Int.neg_mul]

theorem rounded_natCast (n : Nat) : rounded n = roundedNat n := by
  rcases Nat.eq_zero_or_pos n with zero | positive
  · subst zero
    rfl
  · rw [rounded, Int.sign_natCast_of_ne_zero positive.ne', Int.natAbs_natCast, Int.one_mul]

theorem rounded_mono {a b : Int} (h : a ≤ b) : rounded a ≤ rounded b := by
  obtain ⟨m, rfl | rfl⟩ := a.eq_nat_or_neg <;> obtain ⟨n, rfl | rfl⟩ := b.eq_nat_or_neg
  · rw [rounded_natCast, rounded_natCast]
    have sizes := roundedNat_mono (a := m) (b := n) (by omega)
    omega
  · have both : m = 0 ∧ n = 0 := by omega
    rw [both.1, both.2]
    exact le_rfl
  · rw [rounded_neg, rounded_natCast, rounded_natCast]
    omega
  · rw [rounded_neg, rounded_neg, rounded_natCast, rounded_natCast]
    have sizes := roundedNat_mono (a := n) (b := m) (by omega)
    omega

theorem rounded_of_le {n : Int} (h : n.natAbs ≤ 2 ^ 53) : rounded n = n := by
  rw [rounded, roundedNat_of_le h]
  exact Int.sign_mul_natAbs n

end Templating
