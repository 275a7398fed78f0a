import ApiRelease.Likeness
import ApiRelease.Proofs.Doubles
import ApiRelease.Proofs.EditDistance

/-! # What a change of name looks like

A change of name is called a change of case by its score, and that is a score that names of
the same letters have. Other names come close to it too: one letter in twenty is enough,
whatever the letter is. Names of fewer letters are told apart.
-/
namespace ApiRelease

namespace Text

theorem lowerChar_ne_nil (c : Char) : lowerChar c ≠ [] := by
  have hexpansions : ∀ e ∈ lowerExpansions, e.2 ≠ [] := by decide
  unfold lowerChar recase
  split
  · simp
  · split
    · next e he => simpa using hexpansions e (List.mem_of_find?_eq_some he)
    · split <;> simp

/-- Lower case leaves no text empty. -/
theorem lowerChars_eq_nil_iff {cs : List Char} : lowerChars cs = [] ↔ cs = [] := by
  cases cs with
  | nil => exact iff_of_true rfl rfl
  | cons c rest =>
    refine iff_of_false ?_ (List.cons_ne_nil c rest)
    simp only [lowerChars, lowerAfter]
    split_ifs <;> simp [lowerChar_ne_nil]

end Text

namespace Likeness

open Doubles

/-- The score of names that differ in case only, a little less than 19 in 20. -/
def nineteenTwentieths : Normal where
  mantissa := 8556839292003942
  exponent := -53
  low := by decide
  high := by decide
  least := by decide
  greatest := by decide

/-- The double nearest to one in 20, a little more than that. -/
def oneTwentieth : Normal where
  mantissa := 7205759403792794
  exponent := -57
  low := by decide
  high := by decide
  least := by decide
  greatest := by decide

theorem caseOnly_eq : (caseOnly : Float) = nineteenTwentieths.double := by
  decide +kernel

theorem one_eq : (one : Float) = Normal.one.double := by
  decide +kernel

/-- No other double is as near to one in 20. -/
theorem eq_oneTwentieth {v : Normal} (h : |v.value - 1 / 20| ≤ 2 ^ v.exponent / 2) :
    v = oneTwentieth := by
  obtain ⟨m,e,low,high,least,greatest⟩ := v
  simp only [Normal.value, abs_le] at h
  have hlow : (2 ^ 52 : ℚ) ≤ m := by exact_mod_cast low
  have hhigh : (m : ℚ) + 1 ≤ 2 ^ 53 := by exact_mod_cast high
  have hunit : (0 : ℚ) < 2 ^ e := by positivity
  have hbelow : (2 : ℚ) ^ e < 2 ^ (-56 : ℤ) := by
    have hscaled := mul_le_mul_of_nonneg_right hlow hunit.le
    norm_num at hscaled h ⊢
    linarith
  have habove : (2 : ℚ) ^ (-58 : ℤ) < 2 ^ e := by
    have hscaled := mul_le_mul_of_nonneg_right hhigh hunit.le
    norm_num at hscaled h ⊢
    linarith
  have he : e = -57 := by
    have h₁ := (zpow_lt_zpow_iff_right₀ one_lt_two).mp hbelow
    have h₂ := (zpow_lt_zpow_iff_right₀ one_lt_two).mp habove
    omega
  subst he
  have hm : m = 7205759403792794 := by
    norm_num at h
    have h₁ : (144115188075855862 : ℚ) ≤ 20 * m := by linarith
    have h₂ : (20 : ℚ) * m ≤ 144115188075855882 := by linarith
    have h₁ : 144115188075855862 ≤ 20 * m := by exact_mod_cast h₁
    have h₂ : 20 * m ≤ 144115188075855882 := by exact_mod_cast h₂
    omega
  subst hm
  rfl

variable {d n : Nat}

theorem exists_ratio (hd : d ≠ 0) (hn : n ≠ 0) (hd' : d < 2 ^ 53) (hn' : n < 2 ^ 53) :
    ∃ v : Normal, (Scale.ratio d n : Float) = v.double ∧
      |v.value - d / n| ≤ 2 ^ v.exponent / 2 ∧ -1000 ≤ v.exponent := by
  obtain ⟨v,hv,herror,hexponent⟩ := Normal.exists_div (v := .ofNat d hd hd') (w := .ofNat n hn hn')
    (by simp only [Normal.ofNat]; omega) (by simp only [Normal.ofNat]; omega)
  rw [Normal.value_ofNat, Normal.value_ofNat] at herror
  refine ⟨v,?_,herror,?_⟩
  · rw [← hv, ← Normal.double_ofNat hd hd', ← Normal.double_ofNat hn hn']
    rfl
  · simp only [Normal.ofNat] at hexponent
    omega

theorem value_one : Normal.one.value = 1 := by
  norm_num [Normal.value, Normal.one]

theorem value_nineteenTwentieths :
    nineteenTwentieths.value = 8556839292003942 / 9007199254740992 := by
  norm_num [Normal.value, nineteenTwentieths]

/-- A quotient that is not one in 20 is so far from it that rounding does not matter. -/
theorem caseOnly_le_of_near {v : Normal} {q : ℚ} (hv : |v.value - q| ≤ 2 ^ v.exponent / 2)
    (hexponent : -1000 ≤ v.exponent) (hone : q ≤ 1 - 1 / 2 ^ 48) :
    (q ≤ 1 / 20 - 1 / (20 * 2 ^ 48) → nineteenTwentieths.double ≤ Normal.one.double - v.double) ∧
    (1 / 20 + 1 / (20 * 2 ^ 48) ≤ q →
      ¬ nineteenTwentieths.double ≤ Normal.one.double - v.double) := by
  have hvunit := v.unit_le
  rw [abs_le] at hv
  have hless : v.value < Normal.one.value := by
    rw [value_one]
    norm_num at hv hvunit hone ⊢
    linarith
  obtain ⟨w,hw,herror⟩ := Normal.exists_sub hless (by decide) hexponent (by decide)
  have hwunit := w.unit_le
  rw [value_one, abs_le] at herror
  rw [hw, Normal.double_le_double, value_nineteenTwentieths]
  norm_num at hv hvunit herror hwunit ⊢
  exact ⟨fun hq => by linarith,fun hq => by linarith⟩

theorem one_sub_oneTwentieth :
    nineteenTwentieths.double ≤ Normal.one.double - oneTwentieth.double := by
  decide +kernel

theorem one_sub_one : ¬ nineteenTwentieths.double ≤ Normal.one.double - Normal.one.double := by
  decide +kernel

/-- Also with doubles, the score is high enough for distances of up to one in 20. -/
theorem caseOnly_le_one_sub_ratio_iff (hd : d ≠ 0) (hle : d ≤ n) (hn : n < 2 ^ 48) :
    (caseOnly : Float) ≤ one - Scale.ratio d n ↔ 20 * d ≤ n := by
  have hpos : (0 : ℚ) < n := by exact_mod_cast (by omega : 0 < n)
  have hlarge : (n : ℚ) < 2 ^ 48 := by exact_mod_cast hn
  rw [caseOnly_eq, one_eq]
  rcases hle.eq_or_lt with rfl | hlt
  · have hratio : (Scale.ratio d d : Float) = Normal.one.double := by
      change Float.ofNat d / Float.ofNat d = _
      rw [Normal.double_ofNat hd (by omega), Normal.double_div_self]
    rw [hratio]
    exact iff_of_false one_sub_one (by omega)
  obtain ⟨v,hv,herror,hexponent⟩ := exists_ratio hd (by omega : n ≠ 0) (by omega) (by omega)
  rw [hv]
  have hone : (d : ℚ) / n ≤ 1 - 1 / 2 ^ 48 := by
    have hnext : (d : ℚ) + 1 ≤ n := by exact_mod_cast hlt
    rw [div_le_iff₀ hpos]
    linarith
  obtain ⟨hbelow,habove⟩ := caseOnly_le_of_near herror hexponent hone
  rcases lt_trichotomy (20 * d) n with hless | heq | hmore
  · refine iff_of_true (hbelow ?_) hless.le
    have hnext : (20 * d : ℚ) + 1 ≤ n := by exact_mod_cast hless
    rw [div_le_iff₀ hpos]
    linarith
  · have hq : (d : ℚ) / n = 1 / 20 := by
      rw [div_eq_div_iff hpos.ne' (by norm_num)]
      exact_mod_cast (by omega : d * 20 = 1 * n)
    rw [hq] at herror
    rw [eq_oneTwentieth herror]
    exact iff_of_true one_sub_oneTwentieth heq.le
  · refine iff_of_false (habove ?_) (by omega)
    have hnext : (n : ℚ) + 1 ≤ 20 * d := by exact_mod_cast hmore
    rw [le_div_iff₀ hpos]
    linarith

/-! ## Names -/

theorem interpret_eq_iff {old new : String} {score : Float} :
    interpret old new score = "case change only" ↔ old ≠ new ∧ (caseOnly : Float) ≤ score := by
  unfold interpret
  dsimp only
  split_ifs <;> simp_all

def NearlyEqual (a b : List Char) : Prop :=
  20 * Text.editDistanceChars a b ≤ max a.length b.length

instance (a b : List Char) : Decidable (NearlyEqual a b) := Nat.decLe ..

theorem caseOnly_le_closeness_iff {a b : List Char} (hne : a ≠ b)
    (h : max a.length b.length < 2 ^ 48) : (caseOnly : Float) ≤ closeness a b ↔ NearlyEqual a b :=
  caseOnly_le_one_sub_ratio_iff (mt Text.editDistanceChars_eq_zero_iff.mp hne)
    (Text.editDistanceChars_le a b) h

theorem caseOnly_le_caseOnly : (caseOnly : Float) ≤ caseOnly := by
  decide +kernel

theorem not_caseOnly_le_affixed : ¬ (caseOnly : Float) ≤ affixed := by
  decide +kernel

theorem not_caseOnly_le_zero : ¬ (caseOnly : Float) ≤ zero := by
  decide +kernel

theorem isAffix_self (a : List Char) : isAffix a a = true := by
  have hprefix : a.isPrefixOf a = true := List.isPrefixOf_iff_prefix.mpr List.prefix_rfl
  simp [isAffix, hprefix]

theorem isAffix_of_nil {a b : List Char} (h : a = [] ∨ b = []) : isAffix a b = true := by
  rcases h with rfl | rfl <;> simp [isAffix]

theorem caseOnly_le_names_iff {old new : String} (hne : old ≠ new)
    (h : max (Text.lowerChars old.toList).length (Text.lowerChars new.toList).length < 2 ^ 48) :
    (caseOnly : Float) ≤ names old new ↔
    Text.lowerChars old.toList = Text.lowerChars new.toList ∨
    isAffix (Text.lowerChars old.toList) (Text.lowerChars new.toList) = false ∧
      NearlyEqual (Text.lowerChars old.toList) (Text.lowerChars new.toList) := by
  unfold names
  rw [if_neg (by simpa using hne)]
  dsimp only
  by_cases hempty : (old.isEmpty || new.isEmpty) = true
  · rw [if_pos hempty]
    have hnil : Text.lowerChars old.toList = [] ∨ Text.lowerChars new.toList = [] := by
      simpa [Text.lowerChars_eq_nil_iff] using hempty
    refine iff_of_false not_caseOnly_le_zero ?_
    rintro (heq | ⟨haffix,-⟩)
    · obtain ⟨hold,hnew⟩ : Text.lowerChars old.toList = [] ∧ Text.lowerChars new.toList = [] := by
        simpa [heq] using hnil
      rw [Text.lowerChars_eq_nil_iff] at hold hnew
      exact hne (String.toList_injective (hold.trans hnew.symm))
    · rw [isAffix_of_nil hnil] at haffix
      cases haffix
  rw [if_neg hempty]
  by_cases hlower : Text.lowerChars old.toList = Text.lowerChars new.toList
  · rw [if_pos (by simpa using hlower)]
    exact iff_of_true caseOnly_le_caseOnly (Or.inl hlower)
  rw [if_neg (by simpa using hlower), or_iff_right hlower]
  cases haffix : isAffix (Text.lowerChars old.toList) (Text.lowerChars new.toList) with
  | true => simpa using not_caseOnly_le_affixed
  | false => simpa using caseOnly_le_closeness_iff hlower h

/-- What is called a change of case: names that differ and are the same in lower case, and
besides these all names, neither of which begins or ends the other, with no more than one
letter in 20 to change between them. Up to the length told here rounding does not matter. -/
theorem case_change_told_iff {old new : String}
    (h : max (Text.lowerChars old.toList).length (Text.lowerChars new.toList).length < 2 ^ 48) :
    interpret old new (names old new : Float) = "case change only" ↔
    old ≠ new ∧ (Text.lowerChars old.toList = Text.lowerChars new.toList ∨
      isAffix (Text.lowerChars old.toList) (Text.lowerChars new.toList) = false ∧
        NearlyEqual (Text.lowerChars old.toList) (Text.lowerChars new.toList)) := by
  rw [interpret_eq_iff]
  exact and_congr_right fun hne => caseOnly_le_names_iff hne h

theorem case_change_told_iff_of_url :
    max (Text.lowerChars "createSubscriptionUrl".toList).length
      (Text.lowerChars "createSubscriptionUri".toList).length < 2 ^ 48 ∧
    interpret "createSubscriptionUrl" "createSubscriptionUri"
      (names "createSubscriptionUrl" "createSubscriptionUri" : Float) = "case change only" := by
  have hbound : max (Text.lowerChars "createSubscriptionUrl".toList).length
      (Text.lowerChars "createSubscriptionUri".toList).length < 2 ^ 48 := by
    decide +kernel
  exact ⟨hbound,(case_change_told_iff hbound).mpr
    ⟨by decide,Or.inr ⟨by decide +kernel,by decide +kernel⟩⟩⟩

/-- Another spelling of a long name is called a change of case. -/
theorem case_change_told_of_spelling :
    Text.lowerChars "organizationMemberList".toList ≠
      Text.lowerChars "organisationMemberList".toList ∧
    interpret "organizationMemberList" "organisationMemberList"
      (names "organizationMemberList" "organisationMemberList" : Float) = "case change only" := by
  decide +kernel

/-- Names of fewer than 20 letters are called a change of case only if they are one. -/
theorem case_change_told_iff_of_short {old new : String}
    (h : max (Text.lowerChars old.toList).length (Text.lowerChars new.toList).length < 20) :
    interpret old new (names old new : Float) = "case change only" ↔
    old ≠ new ∧ Text.lowerChars old.toList = Text.lowerChars new.toList := by
  rw [interpret_eq_iff]
  refine and_congr_right fun hne => (caseOnly_le_names_iff hne (h.trans (by decide))).trans ?_
  refine or_iff_left ?_
  rintro ⟨haffix,hnear⟩
  have hzero :
      Text.editDistanceChars (Text.lowerChars old.toList) (Text.lowerChars new.toList) = 0 := by
    unfold NearlyEqual at hnear
    omega
  rw [Text.editDistanceChars_eq_zero_iff] at hzero
  rw [hzero, isAffix_self] at haffix
  cases haffix

end Likeness

end ApiRelease
