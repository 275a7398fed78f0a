import Mathlib

/-! # Doubles as fractions

A positive double of full precision is a fraction `m * 2 ^ e` whose mantissa `m` has 53
binary digits. Quotients and differences of such doubles are those of their fractions up to
half a unit in the last digit of the result, and doubles are in the order of their
fractions. Subnormal numbers are not looked at: no score is that small.
-/
namespace ApiRelease.Doubles

open Float.Model Float.Model.UnpackedFloat

/-! ## Digits that were cut off -/

/-- The number lies in the half that the whole digits and the bit behind them tell, and at
its lower end exactly if nothing else was cut off. -/
structure Stands (em : ExtendedMantissa) (y : ℚ) : Prop where
  low : (em.mantissa : ℚ) + em.roundBit.toNat / 2 ≤ y
  high : y < em.mantissa + em.roundBit.toNat / 2 + 1 / 2
  exact : em.stickyBit = false ↔ y = em.mantissa + em.roundBit.toNat / 2

variable {em : ExtendedMantissa} {y : ℚ} {m : Nat} {e : Int}

theorem Stands.bounds (h : Stands em y) : (em.mantissa : ℚ) ≤ y ∧ y < em.mantissa + 1 := by
  obtain ⟨hlow,hhigh,-⟩ := h
  cases hr : em.roundBit <;> simp only [hr, Bool.toNat_true, Bool.toNat_false] at hlow hhigh <;>
    push_cast at hlow hhigh <;> constructor <;> linarith

theorem Stands.shiftRightOne (h : Stands em y) : Stands em.shiftRightOne (y / 2) := by
  obtain ⟨m,r,s⟩ := em
  obtain ⟨hlow,hhigh,hexact⟩ := h
  have hdigit : (m : ℚ) = 2 * (m / 2 : Nat) + (m % 2 != 0).toNat := by
    have hbit : (m % 2 != 0).toNat = m % 2 := by
      rcases Nat.mod_two_eq_zero_or_one m with h | h <;> simp [h]
    rw [hbit]
    exact_mod_cast (Nat.div_add_mod m 2).symm
  dsimp only at hlow hhigh hexact
  cases r with
  | false =>
    simp only [Bool.toNat_false, Nat.cast_zero] at hlow hhigh hexact
    refine ⟨?_,?_,?_⟩ <;> simp only [ExtendedMantissa.shiftRightOne]
    · linarith
    · linarith
    · rw [Bool.false_or, hexact]
      constructor <;> intro h <;> linarith
  | true =>
    simp only [Bool.toNat_true, Nat.cast_one] at hlow hhigh hexact
    refine ⟨?_,?_,?_⟩ <;> simp only [ExtendedMantissa.shiftRightOne]
    · linarith
    · linarith
    · -- the bit that was behind the digits is among what is cut off now
      simp only [Bool.true_or, Bool.true_eq_false, false_iff]
      intro h
      linarith

theorem Stands.shiftRight (h : Stands em y) (s : Nat) : Stands (em >>> s) (y / 2 ^ s) := by
  induction s with
  | zero => simpa [HShiftRight.hShiftRight, Nat.repeat] using h
  | succ s ih =>
    rw [pow_succ, ← div_div]
    exact ih.shiftRightOne

/-- Rounding goes to a nearest whole number. -/
theorem Stands.abs_rounded_sub_le (h : Stands em y) : |(em.roundedMantissa : ℚ) - y| ≤ 1 / 2 := by
  obtain ⟨m,r,s⟩ := em
  obtain ⟨hlow,hhigh,hexact⟩ := h
  rw [abs_le]
  cases r <;> cases s <;>
    simp [ExtendedMantissa.roundedMantissa, ExtendedMantissa.accuracy,
      Accuracy.roundToNearestEven] at hlow hhigh hexact ⊢
  · rw [hexact]
    norm_num
  · constructor <;> linarith
  · rcases Nat.mod_two_eq_zero_or_one m with h | h <;> rw [h, hexact] <;> push_cast <;>
      constructor <;> linarith
  · constructor <;> linarith

theorem stands_exact (m : Nat) : Stands (.ofMantissaAndAccuracy m .exact) m := by
  constructor <;> simp [ExtendedMantissa.ofMantissaAndAccuracy]

theorem stands_inexact {f : ℚ} (hpos : 0 < f) (hone : f < 1) :
    Stands (.ofMantissaAndAccuracy m (.inexact (compare f (1 / 2)))) (m + f) := by
  rcases lt_trichotomy f (1 / 2) with hlt | rfl | hgt
  · rw [compare_lt_iff_lt.mpr hlt]
    refine ⟨?_,?_,?_⟩ <;> simp only [ExtendedMantissa.ofMantissaAndAccuracy, Bool.toNat_false]
    · linarith
    · linarith
    · simpa using hpos.ne'
  · rw [compare_eq_iff_eq.mpr rfl]
    constructor <;> simp [ExtendedMantissa.ofMantissaAndAccuracy]
  · rw [compare_gt_iff_gt.mpr hgt]
    refine ⟨?_,?_,?_⟩ <;> simp only [ExtendedMantissa.ofMantissaAndAccuracy, Bool.toNat_true]
    · linarith
    · linarith
    · simpa using hgt.ne'

/-- What a division leaves over is part of the number. -/
theorem stands_fraction {num den : Nat} (h : num < den) :
    Stands (.ofMantissaAndAccuracy m (accuracyOfFraction num den)) (m + num / den) := by
  have hden : (0 : ℚ) < den := by exact_mod_cast (Nat.zero_le num).trans_lt h
  by_cases hzero : num = 0
  · simpa [accuracyOfFraction, hzero] using stands_exact m
  have hnum : (0 : ℚ) < num := by exact_mod_cast Nat.pos_of_ne_zero hzero
  have hhalf : compare (2 * num) den = compare ((num : ℚ) / den) (1 / 2) := by
    rcases lt_trichotomy (2 * num) den with hlt | heq | hgt
    · have hless : (num : ℚ) / den < 1 / 2 := by
        rw [div_lt_div_iff₀ hden two_pos]
        exact_mod_cast (by omega : num * 2 < 1 * den)
      rw [compare_lt_iff_lt.mpr hlt, compare_lt_iff_lt.mpr hless]
    · have hequal : (num : ℚ) / den = 1 / 2 := by
        rw [div_eq_div_iff hden.ne' two_ne_zero]
        exact_mod_cast (by omega : num * 2 = 1 * den)
      rw [compare_eq_iff_eq.mpr heq, compare_eq_iff_eq.mpr hequal]
    · have hmore : 1 / 2 < (num : ℚ) / den := by
        rw [div_lt_div_iff₀ two_pos hden]
        exact_mod_cast (by omega : 1 * den < num * 2)
      rw [compare_gt_iff_gt.mpr hgt, compare_gt_iff_gt.mpr hmore]
  rw [accuracyOfFraction, if_neg hzero, hhalf]
  exact stands_inexact (div_pos hnum hden) ((div_lt_one hden).mpr (by exact_mod_cast h))

/-! ## Doubles of full precision -/

structure Normal where
  mantissa : Nat
  exponent : Int
  low : 2 ^ 52 ≤ mantissa
  high : mantissa < 2 ^ 53
  least : -1074 ≤ exponent
  greatest : exponent ≤ 971

namespace Normal

variable (v : Normal)

theorem mantissa_pos : 0 < v.mantissa := (Nat.two_pow_pos 52).trans_le v.low

def value : ℚ := v.mantissa * 2 ^ v.exponent

def unpacked : UnpackedFloat := .finite .positive v.mantissa v.exponent v.mantissa_pos

def double : Float := .ofModel (.pack v.unpacked)

def one : Normal where
  mantissa := 2 ^ 52
  exponent := -52
  low := le_rfl
  high := by decide
  least := by decide
  greatest := by decide

theorem log2_mantissa : v.mantissa.log2 = 52 :=
  (Nat.log2_eq_iff v.mantissa_pos.ne').mpr ⟨v.low,v.high⟩

end Normal

theorem shiftToTargetExponent_eq (hm : 2 ^ 52 ≤ m) (he : -1074 ≤ e) (a : Accuracy) :
    shiftToTargetExponent Format.binary64 m e a =
    (ExtendedMantissa.ofMantissaAndAccuracy m a >>> (m.log2 - 52),e + (m.log2 - 52 : Nat)) := by
  have hlog : 52 ≤ m.log2 := (Nat.le_log2 (by omega)).mpr hm
  have htarget : Format.binary64.targetExponent (totalExponent m e) = e + (m.log2 - 52 : Nat) := by
    simp only [Format.targetExponent, totalExponent, Format.minExponent, Format.mantissaBits]
    omega
  simp only [shiftToTargetExponent, shiftToExponent, htarget, add_sub_cancel_left, Int.toNat_natCast]

/-- So many digits are cut off that 53 are left. -/
theorem digits_left {a : Accuracy} {s : Nat} (hy : Stands (.ofMantissaAndAccuracy m a) y)
    (hm : m ≠ 0) (hs : m.log2 = 52 + s) : (2 ^ 52 : ℚ) ≤ y / 2 ^ s ∧ y / 2 ^ s < 2 ^ 53 := by
  obtain ⟨hmy,hym⟩ : (m : ℚ) ≤ y ∧ y < m + 1 := by
    have hbounds := hy.bounds
    cases a with
    | exact => exact hbounds
    | inexact o => cases o <;> exact hbounds
  have hself : 2 ^ 52 * 2 ^ s ≤ m := by
    rw [← pow_add, ← hs]
    exact Nat.log2_self_le hm
  have hnext : m + 1 ≤ 2 ^ 53 * 2 ^ s := by
    have hlt := Nat.lt_log2_self (n := m)
    rwa [hs, Nat.add_right_comm, pow_add] at hlt
  have hself : (2 ^ 52 * 2 ^ s : ℚ) ≤ m := by exact_mod_cast hself
  have hnext : (m + 1 : ℚ) ≤ 2 ^ 53 * 2 ^ s := by exact_mod_cast hnext
  rw [le_div_iff₀ (by positivity), div_lt_iff₀ (by positivity)]
  exact ⟨hself.trans hmy,hym.trans_le hnext⟩

theorem Stands.roundedMantissa_bounds (h : Stands em y) (hlow : 2 ^ 52 ≤ y) (hhigh : y < 2 ^ 53) :
    2 ^ 52 ≤ em.roundedMantissa ∧ em.roundedMantissa ≤ 2 ^ 53 := by
  obtain ⟨hnear₁,hnear₂⟩ := abs_le.mp h.abs_rounded_sub_le
  have hlow : (2 ^ 52 : ℚ) < em.roundedMantissa + 1 := by linarith
  have hhigh : (em.roundedMantissa : ℚ) < 2 ^ 53 + 1 := by linarith
  exact ⟨Nat.lt_add_one_iff.mp (by exact_mod_cast hlow),Nat.lt_add_one_iff.mp (by exact_mod_cast hhigh)⟩

/-- Whole numbers that are at most a half apart are the same. -/
theorem Stands.roundedMantissa_eq {k : Nat} (h : Stands em k) : em.roundedMantissa = k := by
  obtain ⟨hnear₁,hnear₂⟩ := abs_le.mp h.abs_rounded_sub_le
  have hhigh : (em.roundedMantissa : ℚ) < k + 1 := by linarith
  have hlow : (k : ℚ) < em.roundedMantissa + 1 := by linarith
  exact le_antisymm (Nat.lt_add_one_iff.mp (by exact_mod_cast hhigh))
    (Nat.lt_add_one_iff.mp (by exact_mod_cast hlow))

theorem abs_scaled_sub_le {r : ℚ} {s : Nat} (h : |r - y / 2 ^ s| ≤ 1 / 2) (e : Int) :
    |r * 2 ^ (e + s) - y * 2 ^ e| ≤ 2 ^ (e + s) / 2 := by
  have hunit : (0 : ℚ) < 2 ^ (e + s) := by positivity
  have hsplit : r * 2 ^ (e + s) - y * 2 ^ e = (r - y / 2 ^ s) * 2 ^ (e + s) := by
    rw [zpow_add₀ two_ne_zero, zpow_natCast]
    field_simp
  rw [hsplit, abs_mul, abs_of_pos hunit]
  linarith [mul_le_mul_of_nonneg_right h hunit.le]

theorem roundWithAccuracy_of_rounded (v : Normal) {a : Accuracy} {s : Nat} (hm : 2 ^ 52 ≤ m)
    (he : -1074 ≤ e) (hs : m.log2 = 52 + s) (hexponent : e + s = v.exponent)
    (hrounded : (ExtendedMantissa.ofMantissaAndAccuracy m a >>> s).roundedMantissa = v.mantissa) :
    roundWithAccuracy Format.binary64 .positive m e a = v.unpacked := by
  have hkept : (ExtendedMantissa.ofMantissaAndAccuracy v.mantissa .exact >>> (0 : Nat)) =
      ⟨v.mantissa,false,false⟩ := rfl
  simp only [roundWithAccuracy, shiftToTargetExponent_eq hm he, hs, Nat.add_sub_cancel_left,
    hrounded, hexponent, shiftToTargetExponent_eq v.low v.least, v.log2_mantissa, Nat.sub_self,
    hkept, Nat.cast_zero, add_zero, Normal.unpacked]
  rw [dif_neg v.mantissa_pos.ne']

/-- There is one digit more after rounding, and the last one is a zero. -/
theorem roundWithAccuracy_of_carry (v : Normal) {a : Accuracy} {s : Nat} (hm : 2 ^ 52 ≤ m)
    (he : -1074 ≤ e) (hs : m.log2 = 52 + s) (hexponent : e + s + 1 = v.exponent)
    (hmantissa : v.mantissa = 2 ^ 52)
    (hrounded : (ExtendedMantissa.ofMantissaAndAccuracy m a >>> s).roundedMantissa = 2 ^ 53) :
    roundWithAccuracy Format.binary64 .positive m e a = v.unpacked := by
  have hkept : (ExtendedMantissa.ofMantissaAndAccuracy (2 ^ 53) .exact >>> (1 : Nat)) =
      ⟨2 ^ 52,false,false⟩ := rfl
  simp only [roundWithAccuracy, shiftToTargetExponent_eq hm he, hs, Nat.add_sub_cancel_left,
    hrounded, shiftToTargetExponent_eq (by decide : 2 ^ 52 ≤ 2 ^ 53) (by omega : -1074 ≤ e + s),
    Nat.log2_two_pow, hkept, Normal.unpacked, hmantissa, ← hexponent]
  rfl

/-- What is rounded comes to a double that is at most half a unit in its last digit away. -/
theorem exists_roundWithAccuracy {a : Accuracy} (hm : 2 ^ 52 ≤ m) (he : -1074 ≤ e)
    (hgreat : m.log2 + e ≤ 1000) (hy : Stands (.ofMantissaAndAccuracy m a) y) :
    ∃ v : Normal, roundWithAccuracy Format.binary64 .positive m e a = v.unpacked ∧
      |v.value - y * 2 ^ e| ≤ 2 ^ v.exponent / 2 ∧ e ≤ v.exponent := by
  obtain ⟨s,hs⟩ := Nat.exists_eq_add_of_le ((Nat.le_log2 (by omega)).mpr hm)
  obtain ⟨hlow,hhigh⟩ := digits_left hy (by omega) hs
  obtain ⟨hrlow,hrhigh⟩ := (hy.shiftRight s).roundedMantissa_bounds hlow hhigh
  have herror := abs_scaled_sub_le (hy.shiftRight s).abs_rounded_sub_le e
  rcases hrhigh.lt_or_eq with hlt | heq
  · exact ⟨⟨_,e + s,hrlow,hlt,by omega,by omega⟩,roundWithAccuracy_of_rounded _ hm he hs rfl rfl,
      herror,by dsimp only; omega⟩
  · refine ⟨⟨2 ^ 52,e + s + 1,le_rfl,by decide,by omega,by omega⟩,
      roundWithAccuracy_of_carry _ hm he hs rfl rfl heq,?_,by dsimp only; omega⟩
    have hunit : (0 : ℚ) < 2 ^ (e + s) := by positivity
    rw [heq, abs_le] at herror
    rw [Normal.value, zpow_add_one₀ two_ne_zero, abs_le]
    push_cast at herror ⊢
    constructor <;> linarith

theorem log2_mul_two_pow {m : Nat} (hm : m ≠ 0) (s : Nat) : (m * 2 ^ s).log2 = m.log2 + s := by
  induction s with
  | zero => simp
  | succ s ih =>
    have hne : m * 2 ^ s ≠ 0 := by positivity
    rw [pow_succ, ← mul_assoc, mul_comm _ 2, Nat.log2_two_mul hne, ih]
    omega

/-- Digits are added until there are 53. -/
theorem round_eq (he : -1000 ≤ e) : UnpackedFloat.round Format.binary64 .positive m e =
    roundWithAccuracy Format.binary64 .positive (m * 2 ^ (52 - m.log2)) (e - (52 - m.log2 : Nat))
      .exact := by
  have hshift : (e - Format.binary64.targetExponent (totalExponent m e)).toNat = 52 - m.log2 := by
    simp only [Format.targetExponent, totalExponent, Format.minExponent, Format.mantissaBits]
    omega
  simp only [UnpackedFloat.round, decreaseExponent, hshift, Nat.shiftLeft_eq]

theorem normalize_natCast (hm : m ≠ 0) (e : Int) (zero : Sign) :
    UnpackedFloat.normalize Format.binary64 m e zero =
    UnpackedFloat.round Format.binary64 .positive m e := by
  rw [UnpackedFloat.normalize, Int.compare_eq_gt.mpr (by omega : (0 : Int) < m), Int.toNat_natCast]

theorem exists_round (hm : m ≠ 0) (he : -1000 ≤ e) (hgreat : m.log2 + e ≤ 1000) :
    ∃ v : Normal, UnpackedFloat.round Format.binary64 .positive m e = v.unpacked ∧
      |v.value - m * 2 ^ e| ≤ 2 ^ v.exponent / 2 := by
  have hlog := log2_mul_two_pow hm (52 - m.log2)
  have hlow : 2 ^ 52 ≤ m * 2 ^ (52 - m.log2) :=
    (Nat.le_log2 (by positivity)).mp (by omega)
  obtain ⟨v,hv,herror,-⟩ := exists_roundWithAccuracy hlow (by omega : -1074 ≤ e - (52 - m.log2 : Nat))
    (by omega) (stands_exact _)
  refine ⟨v,(round_eq he).trans hv,?_⟩
  have hvalue : ((m * 2 ^ (52 - m.log2) : Nat) : ℚ) * 2 ^ (e - (52 - m.log2 : Nat)) = m * 2 ^ e := by
    rw [zpow_sub₀ two_ne_zero, zpow_natCast]
    push_cast
    field_simp
  rwa [hvalue] at herror

/-- Nothing is lost where all digits that are cut off are zeros. -/
theorem roundWithAccuracy_exact (v : Normal) {s : Nat} (hs : -1074 ≤ v.exponent - s) :
    roundWithAccuracy Format.binary64 .positive (v.mantissa * 2 ^ s) (v.exponent - s) .exact =
    v.unpacked := by
  have hlog : (v.mantissa * 2 ^ s).log2 = 52 + s := by
    rw [log2_mul_two_pow v.mantissa_pos.ne', v.log2_mantissa]
  have hm : 2 ^ 52 ≤ v.mantissa * 2 ^ s := v.low.trans (Nat.le_mul_of_pos_right _ (Nat.two_pow_pos s))
  refine roundWithAccuracy_of_rounded v hm hs hlog (Int.sub_add_cancel ..) ?_
  have h := (stands_exact (v.mantissa * 2 ^ s)).shiftRight s
  rw [Nat.cast_mul, Nat.cast_pow, Nat.cast_two, mul_div_cancel_right₀ _ (by positivity)] at h
  exact h.roundedMantissa_eq

namespace Normal

theorem toNat_ofNat_mantissa (v : Normal) : (1#1 ++ BitVec.ofNat 52 v.mantissa).toNat = v.mantissa := by
  have hlow := v.low
  have hhigh := v.high
  rw [BitVec.toNat_append, ← Nat.shiftLeft_add_eq_or_of_lt (BitVec.isLt _)]
  simp only [BitVec.toNat_ofNat, Nat.shiftLeft_eq]
  omega

def biased (v : Normal) : Nat := (v.exponent + 1075).toNat

theorem biased_bounds (v : Normal) : 0 < v.biased ∧ v.biased < 2047 := by
  have hleast := v.least
  have hgreatest := v.greatest
  unfold biased
  omega

theorem pack_unpacked (v : Normal) : UnpackedFloat.pack Format.binary64 v.unpacked =
    packComponents Format.binary64 .positive (.ofNat 11 v.biased) (.ofNat 52 v.mantissa) := by
  have hbias : (v.exponent + Format.binary64.exponentBias +
      Format.binary64.mantissaBitsWithoutImplicit).toNat = v.biased := by
    rw [biased, add_assoc]
    rfl
  have hbounds := v.biased_bounds
  simp only [Normal.unpacked, UnpackedFloat.pack, hbias]
  rw [if_neg (by simp; omega), if_pos (by rw [v.log2_mantissa]; rfl)]

theorem unpack_double (v : Normal) : v.double.toModel.unpack = v.unpacked := by
  have hbounds := v.biased_bounds
  have hbits : (BitVec.ofNat 11 v.biased).toNat = v.biased := by
    rw [BitVec.toNat_ofNat, Nat.mod_eq_of_lt (by omega)]
  have hzero : BitVec.ofNat 11 v.biased ≠ 0#11 := by
    intro h
    have h : v.biased = 0 := hbits.symm.trans (congrArg BitVec.toNat h)
    omega
  have hones : BitVec.ofNat 11 v.biased ≠ -1#11 := by
    intro h
    have h : v.biased = 2047 := hbits.symm.trans (congrArg BitVec.toNat h)
    omega
  have hexponent : (v.biased : Int) - (Format.binary64.exponentBias + 52 : Nat) = v.exponent := by
    have hbias : Format.binary64.exponentBias + 52 = 1075 := rfl
    have hleast := v.least
    rw [hbias, biased]
    omega
  change UnpackedFloat.unpack Format.binary64 (UnpackedFloat.pack Format.binary64 v.unpacked) = _
  rw [v.pack_unpacked]
  simp only [UnpackedFloat.unpack, unpackExponent_packComponents, unpackMantissa_packComponents,
    unpackSign_packComponents, hzero, hones, if_false, v.toNat_ofNat_mantissa, hbits,
    ← Nat.cast_add, hexponent, Normal.unpacked]
  rfl

variable {v w : Normal}

/-- The last digit of a double counts for little. -/
theorem unit_le (v : Normal) : (2 : ℚ) ^ v.exponent ≤ v.value / 2 ^ 52 := by
  have hlow : (2 ^ 52 : ℚ) ≤ v.mantissa := by exact_mod_cast v.low
  rw [le_div_iff₀ (by positivity), mul_comm]
  exact mul_le_mul_of_nonneg_right hlow (by positivity)

theorem value_lt_of_exponent_lt (h : v.exponent < w.exponent) : v.value < w.value := by
  have hv : (v.mantissa : ℚ) < 2 ^ 53 := by exact_mod_cast v.high
  have hw : (2 ^ 52 : ℚ) ≤ w.mantissa := by exact_mod_cast w.low
  calc v.value
      < 2 ^ 53 * 2 ^ v.exponent := mul_lt_mul_of_pos_right hv (by positivity)
    _ = 2 ^ 52 * 2 ^ (v.exponent + 1) := by
      rw [zpow_add_one₀ two_ne_zero]
      ring
    _ ≤ 2 ^ 52 * 2 ^ w.exponent :=
      mul_le_mul_of_nonneg_left (zpow_le_zpow_right₀ one_le_two h) (by positivity)
    _ ≤ w.value := mul_le_mul_of_nonneg_right hw (by positivity)

theorem value_le_value_iff : v.value ≤ w.value ↔
    v.exponent < w.exponent ∨ v.exponent = w.exponent ∧ v.mantissa ≤ w.mantissa := by
  rcases lt_trichotomy v.exponent w.exponent with hlt | heq | hgt
  · exact iff_of_true (value_lt_of_exponent_lt hlt).le (Or.inl hlt)
  · rw [value, value, heq, mul_le_mul_iff_of_pos_right (by positivity)]
    simp
  · refine iff_of_false (value_lt_of_exponent_lt hgt).not_ge ?_
    omega

/-- Doubles are in the order of their fractions. -/
theorem double_le_double : v.double ≤ w.double ↔ v.value ≤ w.value := by
  have hle : v.double ≤ w.double ↔ UnpackedFloat.le v.unpacked w.unpacked = true := by
    rw [← v.unpack_double, ← w.unpack_double]
    exact decide_eq_true_iff
  have hcompare : UnpackedFloat.le v.unpacked w.unpacked =
      ((compare v.exponent w.exponent).then (compare v.mantissa w.mantissa)).isLE := rfl
  rw [hle, hcompare, value_le_value_iff]
  rcases lt_trichotomy v.exponent w.exponent with hlt | heq | hgt
  · rw [Int.compare_eq_lt.mpr hlt]
    exact iff_of_true rfl (Or.inl hlt)
  · rw [Int.compare_eq_eq.mpr heq, Ordering.eq_then, Nat.isLE_compare]
    simp [heq]
  · rw [Int.compare_eq_gt.mpr hgt]
    refine iff_of_false Bool.false_ne_true ?_
    omega

/-! ## Quotients and differences -/

theorem value_eq_scaled {e : Int} (h : e ≤ v.exponent) :
    v.value = (v.mantissa * 2 ^ (v.exponent - e).toNat : Nat) * 2 ^ e := by
  obtain ⟨s,hs⟩ := Int.eq_ofNat_of_zero_le (Int.sub_nonneg_of_le h)
  have hexponent : v.exponent = s + e := by omega
  rw [value, hs, Int.toNat_natCast, hexponent, zpow_add₀ two_ne_zero, zpow_natCast]
  push_cast
  ring

theorem divCore_eq (v w : Normal) (hlow : -1000 ≤ v.exponent - w.exponent) :
    divCore Format.binary64 v.mantissa v.exponent w.mantissa w.exponent =
    (v.mantissa * 2 ^ 53 / w.mantissa,v.exponent - w.exponent - 53,
      accuracyOfFraction (v.mantissa * 2 ^ 53 % w.mantissa) w.mantissa) := by
  have htarget : min (v.exponent - w.exponent)
      (Format.binary64.targetExponent (totalExponent v.mantissa v.exponent -
        totalExponent w.mantissa w.exponent)) = v.exponent - w.exponent - 53 := by
    simp only [Format.targetExponent, totalExponent, Format.minExponent, Format.mantissaBits,
      v.log2_mantissa, w.log2_mantissa]
    omega
  have hshift : (v.exponent - w.exponent - (v.exponent - w.exponent - 53)).toNat = 53 := by omega
  simp only [divCore, htarget, hshift, Nat.shiftLeft_eq]

theorem double_div (v w : Normal) : v.double / w.double =
    .ofModel (.pack (UnpackedFloat.div Format.binary64 v.unpacked w.unpacked)) := by
  rw [← v.unpack_double, ← w.unpack_double]
  rfl

/-- A quotient is that of the fractions, up to half a unit in its last digit. -/
theorem exists_div (hlow : -1000 ≤ v.exponent - w.exponent) (hhigh : v.exponent - w.exponent ≤ 900) :
    ∃ u : Normal, v.double / w.double = u.double ∧
      |u.value - v.value / w.value| ≤ 2 ^ u.exponent / 2 ∧
      v.exponent - w.exponent - 53 ≤ u.exponent := by
  have hpos := w.mantissa_pos
  have hq : 2 ^ 52 ≤ v.mantissa * 2 ^ 53 / w.mantissa := by
    rw [Nat.le_div_iff_mul_le hpos]
    nlinarith [v.low, w.high]
  have hlog : (v.mantissa * 2 ^ 53 / w.mantissa).log2 < 54 := by
    rw [Nat.log2_lt (by omega), Nat.div_lt_iff_lt_mul hpos]
    nlinarith [v.high, w.low]
  obtain ⟨u,hu,herror,hexponent⟩ := exists_roundWithAccuracy hq
    (by omega : -1074 ≤ v.exponent - w.exponent - 53) (by omega)
    (stands_fraction (Nat.mod_lt (v.mantissa * 2 ^ 53) hpos))
  refine ⟨u,?_,?_,hexponent⟩
  · rw [double_div, Normal.double, ← hu]
    simp only [Normal.unpacked, UnpackedFloat.div, divCore_eq v w hlow]
    rfl
  · have hw : (w.mantissa : ℚ) ≠ 0 := by exact_mod_cast hpos.ne'
    have hdigits : ((v.mantissa * 2 ^ 53 / w.mantissa : Nat) : ℚ) +
        (v.mantissa * 2 ^ 53 % w.mantissa : Nat) / w.mantissa = v.mantissa * 2 ^ 53 / w.mantissa := by
      rw [eq_div_iff hw, add_mul, div_mul_cancel₀ _ hw]
      exact_mod_cast Nat.div_add_mod' (v.mantissa * 2 ^ 53) w.mantissa
    have hvalue : (v.mantissa * 2 ^ 53 / w.mantissa : ℚ) * 2 ^ (v.exponent - w.exponent - 53) =
        v.value / w.value := by
      rw [zpow_sub₀ two_ne_zero, zpow_sub₀ two_ne_zero, value, value]
      field_simp
    rwa [hdigits, hvalue] at herror

theorem double_div_self (v : Normal) : v.double / v.double = one.double := by
  have hdigits : v.mantissa * 2 ^ 53 / v.mantissa = 2 ^ 53 :=
    Nat.mul_div_cancel_left _ v.mantissa_pos
  have hrest : v.mantissa * 2 ^ 53 % v.mantissa = 0 := Nat.mul_mod_right ..
  have hround := roundWithAccuracy_exact one (s := 1) (by decide)
  rw [double_div, Normal.double, ← hround]
  simp only [Normal.unpacked, UnpackedFloat.div, divCore_eq v v (by omega), hdigits, hrest,
    sub_self]
  rfl

/-- A difference is that of the fractions, up to half a unit in its last digit. -/
theorem exists_sub (hless : w.value < v.value) (hv : -1000 ≤ v.exponent) (hw : -1000 ≤ w.exponent)
    (hhigh : v.exponent ≤ 900) :
    ∃ u : Normal, v.double - w.double = u.double ∧
      |u.value - (v.value - w.value)| ≤ 2 ^ u.exponent / 2 := by
  have hvscaled := value_eq_scaled (min_le_left v.exponent w.exponent)
  have hwscaled := value_eq_scaled (min_le_right v.exponent w.exponent)
  have hmin : -1000 ≤ min v.exponent w.exponent := le_min hv hw
  generalize hvs : (v.exponent - min v.exponent w.exponent).toNat = s at hvscaled
  generalize hws : (w.exponent - min v.exponent w.exponent).toNat = t at hwscaled
  have hlt : w.mantissa * 2 ^ t < v.mantissa * 2 ^ s := by
    rw [hvscaled, hwscaled, mul_lt_mul_iff_of_pos_right (by positivity)] at hless
    exact_mod_cast hless
  obtain ⟨d,hd⟩ := Nat.exists_eq_add_of_lt hlt
  have hlog : (d + 1).log2 < 53 + s := by
    rw [Nat.log2_lt (by omega), pow_add]
    have hbound := Nat.mul_lt_mul_of_pos_right v.high (Nat.two_pow_pos s)
    omega
  obtain ⟨u,hu,herror⟩ := exists_round (by omega : d + 1 ≠ 0) hmin (by omega)
  refine ⟨u,?_,?_⟩
  · have hsub : v.double - w.double =
        .ofModel (.pack (UnpackedFloat.sub Format.binary64 v.unpacked w.unpacked)) := by
      rw [← v.unpack_double, ← w.unpack_double]
      rfl
    rw [hsub, Normal.double, ← hu]
    have hdiff : ((v.mantissa * 2 ^ s : Nat) : Int) - (w.mantissa * 2 ^ t : Nat) = (d + 1 : Nat) := by
      omega
    simp only [Normal.unpacked, UnpackedFloat.sub, decreaseExponent, Nat.shiftLeft_eq, Sign.apply,
      hvs, hws, hdiff, normalize_natCast (by omega : d + 1 ≠ 0)]
  · have hdiff : ((d + 1 : Nat) : ℚ) = (v.mantissa * 2 ^ s : Nat) - (w.mantissa * 2 ^ t : Nat) := by
      rw [hd]
      push_cast
      ring
    rwa [hdiff, sub_mul, ← hvscaled, ← hwscaled] at herror

/-! ## Whole numbers -/

def ofNat (n : Nat) (hpos : n ≠ 0) (hn : n < 2 ^ 53) : Normal where
  mantissa := n * 2 ^ (52 - n.log2)
  exponent := -(52 - n.log2 : Nat)
  low := by
    rw [← Nat.le_log2 (by positivity), log2_mul_two_pow hpos]
    omega
  high := by
    have hlog := (Nat.log2_lt hpos).mpr hn
    rw [← Nat.log2_lt (by positivity), log2_mul_two_pow hpos]
    omega
  least := by omega
  greatest := by omega

variable {n : Nat} (hpos : n ≠ 0) (hn : n < 2 ^ 53)

theorem value_ofNat : (ofNat n hpos hn).value = n := by
  rw [value, ofNat, zpow_neg, zpow_natCast]
  push_cast
  exact mul_inv_cancel_right₀ (by positivity) _

theorem double_mul_one (hv : -1000 ≤ v.exponent) : v.double * one.double = v.double := by
  have hmul : v.double * one.double =
      .ofModel (.pack (UnpackedFloat.mul Format.binary64 v.unpacked one.unpacked)) := by
    rw [← v.unpack_double, ← one.unpack_double]
    rfl
  have hkept : UnpackedFloat.mul Format.binary64 v.unpacked one.unpacked = v.unpacked :=
    roundWithAccuracy_exact v (by omega : -1074 ≤ v.exponent - (52 : Nat))
  rw [hmul, hkept, Normal.double]

theorem double_ofNat : Float.ofNat n = (ofNat n hpos hn).double := by
  have hscientific : Float.ofNat n = n.toUInt64.toFloat * one.double := by
    change Float.ofScientific n false 0 = _
    rw [Float.ofScientific, dif_pos ⟨hn,by decide⟩]
    rfl
  have hwhole : n.toUInt64.toFloat = (ofNat n hpos hn).double := by
    have hnat : n.toUInt64.toNat = n := Nat.mod_eq_of_lt (hn.trans (by decide))
    have hexact := roundWithAccuracy_exact (ofNat n hpos hn) (s := 0) (by simp only [ofNat]; omega)
    have hround : UnpackedFloat.round Format.binary64 .positive n 0 = (ofNat n hpos hn).unpacked := by
      rw [round_eq (by decide : -1000 ≤ 0), ← hexact]
      simp [ofNat]
    change Float.ofModel (.pack (UnpackedFloat.normalize Format.binary64 (n.toUInt64.toNat : Int) 0
      .positive)) = _
    rw [hnat, normalize_natCast hpos, hround, Normal.double]
  rw [hscientific, hwhole, double_mul_one (by simp only [ofNat]; omega)]

end Normal

end ApiRelease.Doubles
