import Templating.Proofs.Decimal.Nearest

namespace Templating

open Float.Model (Format totalExponent UnpackedFloat)
open Float.Model.UnpackedFloat

def Normal : UnpackedFloat → Prop
  | .zero _ => True
  | .finite _ mantissa exponent _ =>
    (2 ^ 52 ≤ mantissa ∧ mantissa < 2 ^ 53) ∧ -52 ≤ exponent ∧ exponent ≤ 971
  | _ => False

def scaledValue : UnpackedFloat → Int
  | .finite sign mantissa exponent _ => sign.apply (mantissa * 2 ^ (exponent + 52).toNat : Nat)
  | _ => 0

/-- A normal float whose value is this integer. -/
structure Represents (x : UnpackedFloat) (z : Int) : Prop where
  normal : Normal x
  value : scaledValue x = z * 2 ^ 52

theorem scaled_lt {m₁ m₂ k₁ k₂ : Nat} (low : 2 ^ 52 ≤ m₂) (high : m₁ < 2 ^ 53) (h : k₁ < k₂) :
    m₁ * 2 ^ k₁ < m₂ * 2 ^ k₂ := by
  calc m₁ * 2 ^ k₁ < 2 ^ 53 * 2 ^ k₁ := Nat.mul_lt_mul_of_pos_right high (Nat.two_pow_pos k₁)
    _ = 2 ^ 52 * 2 ^ (k₁ + 1) := by ring
    _ ≤ m₂ * 2 ^ k₂ := Nat.mul_le_mul low (Nat.pow_le_pow_right Nat.zero_lt_two h)

theorem compare_scaled {m₁ m₂ : Nat} {e₁ e₂ : Int} (range₁ : 2 ^ 52 ≤ m₁ ∧ m₁ < 2 ^ 53)
    (range₂ : 2 ^ 52 ≤ m₂ ∧ m₂ < 2 ^ 53) (low₁ : -52 ≤ e₁) (low₂ : -52 ≤ e₂) :
    (compare e₁ e₂).then (compare m₁ m₂)
      = compare (m₁ * 2 ^ (e₁ + 52).toNat) (m₂ * 2 ^ (e₂ + 52).toNat) := by
  rcases lt_trichotomy e₁ e₂ with less | same | more
  · have places : (e₁ + 52).toNat < (e₂ + 52).toNat := by omega
    have values := scaled_lt range₂.1 range₁.2 places
    rw [compare_lt_iff_lt.mpr less, compare_lt_iff_lt.mpr values]
    rfl
  · subst same
    rw [compare_eq_iff_eq.mpr rfl]
    rcases lt_trichotomy m₁ m₂ with less | same | more
    · have values := Nat.mul_lt_mul_of_pos_right less (Nat.two_pow_pos (e₁ + 52).toNat)
      rw [compare_lt_iff_lt.mpr less, compare_lt_iff_lt.mpr values]
      rfl
    · subst same
      rw [compare_eq_iff_eq.mpr rfl, compare_eq_iff_eq.mpr rfl]
      rfl
    · have values := Nat.mul_lt_mul_of_pos_right more (Nat.two_pow_pos (e₁ + 52).toNat)
      rw [compare_gt_iff_gt.mpr more, compare_gt_iff_gt.mpr values]
      rfl
  · have places : (e₂ + 52).toNat < (e₁ + 52).toNat := by omega
    have values := scaled_lt range₁.1 range₂.2 places
    rw [compare_gt_iff_gt.mpr more, compare_gt_iff_gt.mpr values]
    rfl

theorem compare_strictMono {α β : Type} [LinearOrder α] [LinearOrder β] {f : α → β}
    (h : StrictMono f) (a b : α) : compare (f a) (f b) = compare a b := by
  rw [← cmp_eq_compare, ← cmp_eq_compare]
  exact h.cmp_map_eq a b

theorem compare_neg_neg (a b : Int) : compare (-a) (-b) = (compare a b).swap := by
  rw [Int.compare_swap]
  rcases lt_trichotomy a b with less | same | more
  · rw [compare_gt_iff_gt.mpr less, compare_gt_iff_gt.mpr (Int.neg_lt_neg less)]
  · rw [same, compare_eq_iff_eq.mpr rfl, compare_eq_iff_eq.mpr rfl]
  · rw [compare_lt_iff_lt.mpr more, compare_lt_iff_lt.mpr (Int.neg_lt_neg more)]

theorem scaledValue_positive {m : Nat} (e : Int) (positive : 0 < m) :
    0 < scaledValue (.finite .positive m e positive) := by
  have size := Nat.mul_pos positive (Nat.two_pow_pos (e + 52).toNat)
  change (0 : Int) < (m * 2 ^ (e + 52).toNat : Nat)
  omega

theorem scaledValue_negative {m : Nat} (e : Int) (positive : 0 < m) :
    scaledValue (.finite .negative m e positive) < 0 := by
  have size := Nat.mul_pos positive (Nat.two_pow_pos (e + 52).toNat)
  change -((m * 2 ^ (e + 52).toNat : Nat) : Int) < 0
  omega

theorem compare_normal {x y : UnpackedFloat} (left : Normal x) (right : Normal y) :
    x.compare y = some (compare (scaledValue x) (scaledValue y)) := by
  cases x with
  | infinity sign => exact left.elim
  | notANumber => exact left.elim
  | zero sign =>
    cases y with
    | infinity other => exact right.elim
    | notANumber => exact right.elim
    | zero other => rfl
    | finite other m e positive =>
      cases other with
      | positive => exact congrArg some (compare_lt_iff_lt.mpr (scaledValue_positive _ _)).symm
      | negative => exact congrArg some (compare_gt_iff_gt.mpr (scaledValue_negative _ _)).symm
  | finite sign m₁ e₁ positive₁ =>
    cases y with
    | infinity other => exact right.elim
    | notANumber => exact right.elim
    | zero other =>
      cases sign with
      | positive => exact congrArg some (compare_gt_iff_gt.mpr (scaledValue_positive _ _)).symm
      | negative => exact congrArg some (compare_lt_iff_lt.mpr (scaledValue_negative _ _)).symm
    | finite other m₂ e₂ positive₂ =>
      have sizes : (compare e₁ e₂).then (compare m₁ m₂)
          = compare ((m₁ * 2 ^ (e₁ + 52).toNat : Nat) : Int) (m₂ * 2 ^ (e₂ + 52).toNat : Nat) := by
        have increasing : StrictMono (Nat.cast : Nat → Int) := Nat.strictMono_cast
        rw [compare_strictMono increasing]
        exact compare_scaled left.1 right.1 left.2.1 right.2.1
      cases sign with
      | positive =>
        cases other with
        | positive => exact congrArg some sizes
        | negative =>
          have apart :=
            (scaledValue_negative e₂ positive₂).trans (scaledValue_positive e₁ positive₁)
          exact congrArg some (compare_gt_iff_gt.mpr apart).symm
      | negative =>
        cases other with
        | positive =>
          have apart :=
            (scaledValue_negative e₁ positive₁).trans (scaledValue_positive e₂ positive₂)
          exact congrArg some (compare_lt_iff_lt.mpr apart).symm
        | negative =>
          have turned := congrArg Ordering.swap sizes
          rw [← compare_neg_neg] at turned
          exact congrArg some turned

theorem log2_of_normal {m : Nat} (range : 2 ^ 52 ≤ m ∧ m < 2 ^ 53) : m.log2 = 52 :=
  (Nat.log2_eq_iff (by omega)).mpr range

theorem pack_normal {sign : Sign} {m : Nat} {e : Int} (positive : 0 < m)
    (range : 2 ^ 52 ≤ m ∧ m < 2 ^ 53) (low : -52 ≤ e) (high : e ≤ 971) :
    pack Format.binary64 (.finite sign m e positive)
      = packComponents Format.binary64 sign (BitVec.ofNat 11 (e + 1075).toNat)
          (BitVec.ofNat 52 m) := by
  have bias : e + 1023 + 52 = e + 1075 := by omega
  have inside : ¬ 2048 ≤ (e + 1075).toNat + 1 := by omega
  have digits : m.log2 + 1 = 53 := by rw [log2_of_normal range]
  change (if 2048 ≤ (e + 1023 + 52).toNat + 1 then packedInfinity Format.binary64 sign
    else if m.log2 + 1 = 53 then packComponents Format.binary64 sign
      (BitVec.ofNat 11 (e + 1023 + 52).toNat) (BitVec.ofNat 52 m) else _) = _
  rw [bias, if_neg inside, if_pos digits]

theorem sign_of_packed (sign : Sign) (exponent : BitVec 11) (mantissa : BitVec 52) :
    Sign.ofBitVec (unpackSign (packComponents Format.binary64 sign exponent mantissa)) = sign := by
  change Sign.ofBitVec ((sign.toBitVec ++ exponent ++ mantissa).extractLsb' 63 1) = sign
  rw [BitVec.extractLsb'_append_eq_of_le (by decide),
    BitVec.extractLsb'_append_eq_of_le (by decide)]
  cases sign <;> rfl

theorem finite_congr {s t : Sign} {m n : Nat} {e f : Int} {positive : 0 < m} {positive' : 0 < n}
    (sign : s = t) (mantissa : m = n) (exponent : e = f) :
    UnpackedFloat.finite s m e positive = .finite t n f positive' := by
  subst sign mantissa exponent
  rfl

theorem unpack_pack {x : UnpackedFloat} (normal : Normal x) :
    unpack Format.binary64 (pack Format.binary64 x) = x := by
  cases x with
  | infinity sign => exact normal.elim
  | notANumber => exact normal.elim
  | zero sign => cases sign <;> rfl
  | finite sign m e positive =>
    obtain ⟨range, low, high⟩ := normal
    have exponent : (BitVec.ofNat 11 (e + 1075).toNat).toNat = (e + 1075).toNat := by
      rw [BitVec.toNat_ofNat]
      omega
    have notLast : BitVec.ofNat 11 (e + 1075).toNat ≠ -1#11 := by
      intro last
      have number := congrArg BitVec.toNat last
      rw [exponent] at number
      change (e + 1075).toNat = 2047 at number
      omega
    have notFirst : BitVec.ofNat 11 (e + 1075).toNat ≠ 0#11 := by
      intro first
      have number := congrArg BitVec.toNat first
      rw [exponent] at number
      change (e + 1075).toNat = 0 at number
      omega
    have digits : (1#1 ++ BitVec.ofNat 52 m).toNat = m := by
      rw [BitVec.toNat_append, BitVec.toNat_ofNat, BitVec.toNat_ofNat, Nat.shiftLeft_eq]
      change 2 ^ 52 ||| m % 2 ^ 52 = m
      rw [Nat.or_comm, Nat.or_two_pow_eq_add_of_lt (Nat.mod_lt m (Nat.two_pow_pos 52))]
      omega
    have unbiased : ((e + 1075).toNat : Int) - (1023 + 52) = e := by omega
    rw [pack_normal positive range low high]
    generalize packed : packComponents Format.binary64 sign (BitVec.ofNat 11 (e + 1075).toNat)
      (BitVec.ofNat 52 m) = bits
    have stored : unpackExponent bits = BitVec.ofNat 11 (e + 1075).toNat := by
      rw [← packed, unpackExponent_packComponents]
    change (if unpackExponent bits = -1#11 then _ else if unpackExponent bits = 0#11 then _
      else UnpackedFloat.finite (Sign.ofBitVec (unpackSign bits)) (1#1 ++ unpackMantissa bits).toNat
        ((unpackExponent bits).toNat - (1023 + 52)) _) = _
    rw [if_neg (by rwa [stored]), if_neg (by rwa [stored])]
    apply finite_congr
    · rw [← packed, sign_of_packed]
    · rw [← packed, unpackMantissa_packComponents]
      exact digits
    · rw [stored, exponent]
      exact unbiased

theorem targetExponent_eq (m : Nat) (e : Int) :
    Format.binary64.targetExponent (totalExponent m e) = max (m.log2 + 1 + e - 53) (-1074) := rfl

theorem shiftToTargetExponent_normal {m : Nat} {e : Int} (range : 2 ^ 52 ≤ m ∧ m < 2 ^ 53)
    (low : -52 ≤ e) :
    shiftToTargetExponent Format.binary64 m e .exact = (⟨m, false, false⟩, e) := by
  have target : Format.binary64.targetExponent (totalExponent m e) = e := by
    rw [targetExponent_eq, log2_of_normal range]
    omega
  simp only [shiftToTargetExponent, shiftToExponent, target, Int.sub_self, Int.toNat_zero,
    Int.natCast_zero, Int.add_zero]
  rfl

theorem shiftToTargetExponent_carried {e : Int} (low : -52 ≤ e) :
    shiftToTargetExponent Format.binary64 (2 ^ 53) e .exact
      = (⟨2 ^ 52, false, false⟩, e + 1) := by
  have target : Format.binary64.targetExponent (totalExponent (2 ^ 53) e) = e + 1 := by
    rw [targetExponent_eq, Nat.log2_two_pow]
    omega
  have shifts : (e + 1 - e).toNat = 1 := by omega
  simp only [shiftToTargetExponent, shiftToExponent, target, shifts]
  rfl

theorem shiftToTargetExponent_many {n extra : Nat} (digits : n.log2 = 52 + extra) :
    shiftToTargetExponent Format.binary64 n 0 .exact
      = ((⟨n, false, false⟩ : ExtendedMantissa) >>> extra, (extra : Int)) := by
  have target : Format.binary64.targetExponent (totalExponent n 0) = extra := by
    rw [targetExponent_eq, digits]
    omega
  simp only [shiftToTargetExponent, shiftToExponent, target, Int.sub_zero, Int.toNat_natCast,
    Int.zero_add]
  rfl

theorem roundWithAccuracy_finite (sign : Sign) {m : Nat} {e₀ e e₁ : Int}
    {em em₁ : ExtendedMantissa}
    (shifted : shiftToTargetExponent Format.binary64 m e₀ .exact = (em, e))
    (again : shiftToTargetExponent Format.binary64 em.roundedMantissa e .exact = (em₁, e₁))
    (positive : 0 < em₁.mantissa) :
    roundWithAccuracy Format.binary64 sign m e₀ .exact = .finite sign em₁.mantissa e₁ positive := by
  rw [roundWithAccuracy, shifted]
  change (match shiftToTargetExponent Format.binary64 em.roundedMantissa e .exact with
    | (final, place) => if h : final.mantissa = 0 then UnpackedFloat.zero sign
      else .finite sign final.mantissa place (Nat.pos_of_ne_zero h)) = _
  rw [again]
  exact dif_neg positive.ne'

theorem roundWithAccuracy_settled (sign : Sign) {m q : Nat} {e₀ e : Int} {em : ExtendedMantissa}
    (shifted : shiftToTargetExponent Format.binary64 m e₀ .exact = (em, e))
    (mantissa : em.roundedMantissa = q) (range : 2 ^ 52 ≤ q ∧ q ≤ 2 ^ 53) (low : -52 ≤ e)
    (high : e < 971) :
    Normal (roundWithAccuracy Format.binary64 sign m e₀ .exact) ∧
      scaledValue (roundWithAccuracy Format.binary64 sign m e₀ .exact)
        = sign.apply (q * 2 ^ (e + 52).toNat : Nat) := by
  subst mantissa
  have positive : 0 < em.roundedMantissa := by omega
  rcases range.2.lt_or_eq with kept | carried
  · have still := shiftToTargetExponent_normal ⟨range.1, kept⟩ low
    rw [roundWithAccuracy_finite sign shifted still positive]
    exact ⟨⟨⟨range.1, kept⟩, low, high.le⟩, rfl⟩
  · have halved := shiftToTargetExponent_carried low
    rw [← carried] at halved
    have scale : em.roundedMantissa * 2 ^ (e + 52).toNat = 2 ^ 52 * 2 ^ (e + 1 + 52).toNat := by
      rw [carried, show (e + 1 + 52).toNat = (e + 52).toNat + 1 by omega]
      ring
    rw [roundWithAccuracy_finite sign shifted halved (Nat.two_pow_pos 52), scale]
    exact ⟨⟨⟨Nat.le_refl _, by decide⟩, by omega, by omega⟩, rfl⟩

theorem round_natural (sign : Sign) (n : Nat) :
    UnpackedFloat.round Format.binary64 sign n 0
      = roundWithAccuracy Format.binary64 sign (n * 2 ^ (52 - n.log2)) (-(52 - n.log2 : Nat))
          .exact := by
  have target : Format.binary64.targetExponent (totalExponent n 0) = n.log2 - 52 := by
    rw [targetExponent_eq]
    omega
  have shifts : ((0 : Int) - (n.log2 - 52)).toNat = 52 - n.log2 := by omega
  simp only [UnpackedFloat.round, target, decreaseExponent, shifts, Nat.shiftLeft_eq]
  rw [Int.zero_sub]

theorem apply_mul (sign : Sign) (n k : Nat) :
    sign.apply (n * k : Nat) = sign.apply n * k := by
  cases sign
  · simp only [Sign.apply, Nat.cast_mul, Int.neg_mul]
  · simp only [Sign.apply, Nat.cast_mul]

theorem round_of_few {n : Nat} (sign : Sign) (positive : n ≠ 0) (few : n.log2 ≤ 52) :
    Represents (UnpackedFloat.round Format.binary64 sign n 0) (sign.apply (roundedNat n)) := by
  rw [round_natural, roundedNat_of_few few]
  generalize lacking : 52 - n.log2 = count
  have low := Nat.mul_le_mul_right (2 ^ count) (Nat.log2_self_le positive)
  have high := Nat.mul_lt_mul_of_pos_right (@Nat.lt_log2_self n) (Nat.two_pow_pos count)
  rw [← Nat.pow_add, show n.log2 + count = 52 by omega] at low
  rw [← Nat.pow_add, show n.log2 + 1 + count = 53 by omega] at high
  have still := shiftToTargetExponent_normal (e := -count) ⟨low, high⟩ (by omega)
  have whole : (⟨n * 2 ^ count, false, false⟩ : ExtendedMantissa).roundedMantissa
      = n * 2 ^ count := rfl
  have settled := roundWithAccuracy_settled sign still whole ⟨low, high.le⟩ (by omega)
    (by omega)
  have scale : n * 2 ^ count * 2 ^ (-(count : Int) + 52).toNat = n * 2 ^ 52 := by
    rw [Nat.mul_assoc, ← Nat.pow_add, show count + (-(count : Int) + 52).toNat = 52 by omega]
  rw [scale, apply_mul] at settled
  exact ⟨settled.1, settled.2⟩

theorem round_of_many {n : Nat} (sign : Sign) (many : 52 ≤ n.log2) (room : n.log2 < 1023) :
    Represents (UnpackedFloat.round Format.binary64 sign n 0) (sign.apply (roundedNat n)) := by
  have positive : n ≠ 0 := by
    intro zero
    rw [zero] at many
    exact absurd many (by decide)
  rw [round_natural, Nat.sub_eq_zero_of_le many, Nat.pow_zero, Nat.mul_one]
  generalize place : n.log2 - 52 = extra
  have digits : n.log2 = 52 + extra := by omega
  have located : Locates (⟨n, false, false⟩ : ExtendedMantissa) n 1 := (Nat.mul_one n).symm
  have behind := (located.shiftRight Nat.one_pos extra).roundedMantissa
    (Nat.mul_pos (Nat.two_pow_pos extra) Nat.one_pos)
  rw [Nat.mul_one] at behind
  have value : roundedNat n = nearestQuotient n (2 ^ extra) * 2 ^ extra := by
    rw [roundedNat, binaryUnit, place]
  have size := roundedNat_bounds positive
  rw [value, digits, Nat.add_right_comm, Nat.pow_add, Nat.pow_add] at size
  have low := Nat.le_of_mul_le_mul_right size.1 (Nat.two_pow_pos extra)
  have high := Nat.le_of_mul_le_mul_right size.2 (Nat.two_pow_pos extra)
  have settled := roundWithAccuracy_settled sign (shiftToTargetExponent_many digits)
    behind ⟨low, high⟩ (by omega) (by omega)
  have scale : nearestQuotient n (2 ^ extra) * 2 ^ ((extra : Int) + 52).toNat
      = roundedNat n * 2 ^ 52 := by
    rw [value, Nat.mul_assoc, ← Nat.pow_add, show ((extra : Int) + 52).toNat = extra + 52 by omega]
  rw [scale, apply_mul] at settled
  exact ⟨settled.1, settled.2⟩

theorem round_represents {n : Nat} (sign : Sign) (positive : n ≠ 0) (room : n.log2 < 1023) :
    Represents (UnpackedFloat.round Format.binary64 sign n 0) (sign.apply (roundedNat n)) := by
  rcases Nat.le_total n.log2 52 with few | many
  · exact round_of_few sign positive few
  · exact round_of_many sign many room

theorem ofInt_represents {n : Int} (room : n.natAbs.log2 < 1023) :
    Represents (UnpackedFloat.ofInt Format.binary64 n) (rounded n) := by
  unfold UnpackedFloat.ofInt UnpackedFloat.normalize
  rcases lt_trichotomy n 0 with negative | zero | positive
  · have size : (-n).toNat = n.natAbs := by omega
    have turned : rounded n = Sign.apply .negative (roundedNat n.natAbs) := by
      rw [rounded, Int.sign_eq_neg_one_of_neg negative, Int.neg_mul, Int.one_mul]
      rfl
    rw [compare_lt_iff_lt.mpr negative, size, turned]
    apply round_represents
    · omega
    · exact room
  · subst zero
    exact ⟨trivial, rfl⟩
  · have size : n.toNat = n.natAbs := by omega
    have same : rounded n = Sign.apply .positive (roundedNat n.natAbs) := by
      rw [rounded, Int.sign_eq_one_of_pos positive, Int.one_mul]
      rfl
    rw [compare_gt_iff_gt.mpr positive, size, same]
    apply round_represents
    · omega
    · exact room

theorem nearestFloat_represents (n : Int64) :
    Represents (nearestFloat n).toModel.unpack (rounded n.toInt) := by
  have room : n.toInt.natAbs.log2 < 1023 := by
    have low := n.le_toInt
    have high := n.toInt_lt
    rcases Nat.eq_zero_or_pos n.toInt.natAbs with zero | positive
    · rw [zero]
      decide
    · have bound : n.toInt.natAbs.log2 < 64 := (Nat.log2_lt (by omega)).mpr (by omega)
      omega
  have represents := ofInt_represents room
  have same : (nearestFloat n).toModel.unpack = UnpackedFloat.ofInt Format.binary64 n.toInt :=
    unpack_pack represents.normal
  rw [same]
  exact represents

theorem compare_nearestFloat (a b : Int64) :
    (nearestFloat a).toModel.unpack.compare (nearestFloat b).toModel.unpack
      = some (compare (rounded a.toInt) (rounded b.toInt)) := by
  have left := nearestFloat_represents a
  have right := nearestFloat_represents b
  have scale : StrictMono fun z : Int => z * 2 ^ 52 := by
    intro x y less
    exact Int.mul_lt_mul_of_pos_right less (by decide)
  rw [compare_normal left.normal right.normal, left.value, right.value]
  exact congrArg some (compare_strictMono scale _ _)

theorem float_lt_iff (x y : Float) :
    x < y ↔ x.toModel.unpack.compare y.toModel.unpack = some .lt := by
  change decide (x.toModel < y.toModel) = true ↔ _
  rw [decide_eq_true_iff]
  exact beq_iff_eq

theorem float_beq_iff (x y : Float) :
    (x == y) = true ↔ x.toModel.unpack.compare y.toModel.unpack = some .eq := by
  change (_ == some Ordering.eq) = true ↔ _
  exact beq_iff_eq

end Templating
