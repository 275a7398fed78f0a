import ApiRelease.Diff.Match
import ApiRelease.Proofs.LeastEdits
import Mathlib.Algebra.Order.Field.Basic
import Mathlib.Data.Finset.Card
import Mathlib.Data.Rat.Cast.Order
import Mathlib.Tactic.Linarith
import Mathlib.Tactic.NormNum

/-! # Scores are the same both ways and go from zero to one

Over any scale the scores of names and types are the same both ways. As exact fractions all
scores lie between zero and one, and one is for what is the same only: names or types of the
same text, sets with the same members, counts that are equal. So the weighted likeness of two
declarations needs no bounds to be kept within, and it is one just if each of its parts is.
-/
namespace ApiRelease

namespace Likeness

section Symmetry

variable {α : Type} [Scale α]

theorem closeness_comm (a b : List Char) : (closeness a b : α) = closeness b a := by
  rw [closeness, closeness, Text.editDistanceChars_comm, Nat.max_comm]

theorem isAffix_comm (a b : List Char) : isAffix a b = isAffix b a := by
  unfold isAffix
  cases b.isPrefixOf a <;> cases a.isPrefixOf b <;> cases b.isSuffixOf a <;>
    cases a.isSuffixOf b <;> rfl

theorem names_comm (a b : String) : (names a b : α) = names b a := by
  have hsame : (a == b) = (b == a) := Bool.beq_comm
  have hlower : (Text.lowerChars a.toList == Text.lowerChars b.toList) =
      (Text.lowerChars b.toList == Text.lowerChars a.toList) := Bool.beq_comm
  simp only [names, hsame, hlower, Bool.or_comm a.isEmpty b.isEmpty,
    isAffix_comm (Text.lowerChars a.toList), closeness_comm (Text.lowerChars a.toList)]

theorem signatures_comm (a b : String) : (signatures a b : α) = signatures b a := by
  have hsame : (a == b) = (b == a) := Bool.beq_comm
  have hnormal : ((Text.normalize a).toList == (Text.normalize b).toList) =
      ((Text.normalize b).toList == (Text.normalize a).toList) := Bool.beq_comm
  simp only [signatures, hsame, hnormal, Nat.max_comm (Text.normalize a).toList.length,
    closeness_comm (Text.normalize a).toList]

theorem counts_comm (m n : Nat) : (counts m n : α) = counts n m := by
  have hsame : (m == n) = (n == m) := Bool.beq_comm
  simp only [counts, hsame, Bool.or_comm (m == 0) (n == 0), Nat.min_comm m n, Nat.max_comm m n]

end Symmetry

/-! ## Exact fractions -/

instance : Scale ℚ where
  ratio m n := m / n
  decLE := inferInstance
  decLT := inferInstance

structure Normalized {β : Type} (score : β → β → ℚ) (Same : β → β → Prop) : Prop where
  comm (a b : β) : score a b = score b a
  nonneg (a b : β) : 0 ≤ score a b
  le_one (a b : β) : score a b ≤ 1
  eq_one_iff (a b : β) : score a b = 1 ↔ Same a b

theorem ratio_rat (m n : Nat) : (Scale.ratio m n : ℚ) = m / n := rfl

theorem one_rat : (one : ℚ) = 1 := by
  norm_num [one, ratio_rat]

theorem zero_rat : (zero : ℚ) = 0 := by
  norm_num [zero, ratio_rat]

theorem caseOnly_rat : (caseOnly : ℚ) = 19 / 20 := by
  norm_num [caseOnly, ratio_rat]

theorem affixed_rat : (affixed : ℚ) = 17 / 20 := by
  norm_num [affixed, ratio_rat]

/-- A part of a whole. -/
theorem ratio_bounds {m n : Nat} (h : m ≤ n) :
    0 ≤ (Scale.ratio m n : ℚ) ∧ (Scale.ratio m n : ℚ) ≤ 1 := by
  rw [ratio_rat]
  exact ⟨by positivity,div_le_one_of_le₀ (by exact_mod_cast h) (by positivity)⟩

theorem ratio_eq_one_iff {m n : Nat} (h : 0 < n) : (Scale.ratio m n : ℚ) = 1 ↔ m = n := by
  rw [ratio_rat, div_eq_one_iff_eq (by exact_mod_cast h.ne')]
  exact Nat.cast_inj

theorem closeness_rat (a b : List Char) :
    (closeness a b : ℚ) = 1 - Text.editDistanceChars a b / (max a.length b.length : Nat) := by
  rw [closeness, one_rat, ratio_rat]

/-- Different texts are not both empty, and it takes an edit to get from one to the other. -/
theorem closeness_bounds {a b : List Char} (h : a ≠ b) : 0 < max a.length b.length ∧
    0 ≤ (closeness a b : ℚ) ∧ (closeness a b : ℚ) < 1 := by
  have hle := Text.editDistanceChars_le a b
  have hedit : 0 < Text.editDistanceChars a b :=
    Nat.pos_of_ne_zero (mt Text.editDistanceChars_eq_zero_iff.mp h)
  have hlength : 0 < max a.length b.length := hedit.trans_le hle
  have hpart := (ratio_bounds hle).2
  have hpos : (0 : ℚ) < Text.editDistanceChars a b / (max a.length b.length : Nat) :=
    div_pos (by exact_mod_cast hedit) (by exact_mod_cast hlength)
  rw [ratio_rat] at hpart
  rw [closeness_rat]
  exact ⟨hlength,by linarith,by linarith⟩

namespace Normalized

variable {β : Type} {score : β → β → ℚ} {Same : β → β → Prop}

theorem bounds (h : Normalized score Same) (a b : β) : 0 ≤ score a b ∧ score a b ≤ 1 :=
  ⟨h.nonneg a b,h.le_one a b⟩

theorem of_lt (hcomm : ∀ a b, score a b = score b a) (hsame : ∀ a b, Same a b → score a b = 1)
    (hother : ∀ a b, ¬Same a b → 0 ≤ score a b ∧ score a b < 1) : Normalized score Same := by
  have hbounds (a b : β) : 0 ≤ score a b ∧ score a b ≤ 1 := by
    by_cases h : Same a b
    · rw [hsame a b h]
      exact ⟨zero_le_one,le_rfl⟩
    · exact ⟨(hother a b h).1,(hother a b h).2.le⟩
  refine ⟨hcomm,fun a b => (hbounds a b).1,fun a b => (hbounds a b).2,fun a b => ?_⟩
  refine ⟨fun hone => ?_,hsame a b⟩
  by_contra h
  exact (hother a b h).2.ne hone

end Normalized

theorem normalized_names : Normalized names Eq := by
  refine .of_lt names_comm ?_ ?_
  · rintro a - rfl
    rw [names, if_pos (beq_self_eq_true a), one_rat]
  · intro a b h
    simp only [names, beq_eq_false_iff_ne.mpr h, Bool.false_eq_true, if_false]
    split_ifs with hempty hlower haffix
    · rw [zero_rat]
      norm_num
    · rw [caseOnly_rat]
      norm_num
    · rw [affixed_rat]
      norm_num
    · exact (closeness_bounds (by simpa using hlower)).2

theorem normalized_signatures : Normalized signatures Eq := by
  refine .of_lt signatures_comm ?_ ?_
  · rintro a - rfl
    rw [signatures, if_pos (beq_self_eq_true a), one_rat]
  · intro a b h
    simp only [signatures, beq_eq_false_iff_ne.mpr h, Bool.false_eq_true, if_false]
    split_ifs with hnormal hlength
    · rw [caseOnly_rat]
      norm_num
    · have hpos := (closeness_bounds (by simpa using hnormal)).1
      exact absurd (beq_iff_eq.mp hlength) hpos.ne'
    · exact (closeness_bounds (by simpa using hnormal)).2

theorem normalized_counts : Normalized counts Eq := by
  refine .of_lt counts_comm ?_ ?_
  · rintro m - rfl
    rw [counts, if_pos (beq_self_eq_true m), one_rat]
  · intro m n h
    simp only [counts, beq_eq_false_iff_ne.mpr h, Bool.false_eq_true, if_false]
    split_ifs with hzero
    · rw [zero_rat]
      norm_num
    · have hbounds := ratio_bounds (min_le_max (a := m) (b := n))
      have hone : ¬(Scale.ratio (min m n) (max m n) : ℚ) = 1 := by
        rw [ratio_eq_one_iff (by omega)]
        omega
      exact ⟨hbounds.1,lt_of_le_of_ne hbounds.2 hone⟩

section Overlap

variable {β : Type} [DecidableEq β]

theorem nodup_eraseDups (l : List β) : l.eraseDups.Nodup := by
  induction h : l.length using Nat.strong_induction_on generalizing l with
  | h n ih =>
    cases l with
    | nil => exact List.nodup_nil
    | cons x rest =>
      rw [List.eraseDups_cons, List.nodup_cons, List.mem_eraseDups]
      refine ⟨by simp,ih _ ?_ _ rfl⟩
      rw [← h]
      exact Nat.lt_succ_of_le (List.length_filter_le _ rest)

/-- The members of both over the members of either. -/
theorem overlap_eq {α : Type} [Scale α] (a b : List β) : (overlap a b : α) =
    if (a.toFinset ∪ b.toFinset).card = 0 then one
    else Scale.ratio (a.toFinset ∩ b.toFinset).card (a.toFinset ∪ b.toFinset).card := by
  have ha := nodup_eraseDups a
  have hb := nodup_eraseDups b
  have hnodup : (a.eraseDups ++ b.eraseDups.filter fun x => !a.eraseDups.contains x).Nodup := by
    refine ha.append (hb.filter _) fun x hx hrest => ?_
    simp [List.mem_eraseDups.mp hx] at hrest
  have hboth : (a.eraseDups.filter b.eraseDups.contains).length =
      (a.toFinset ∩ b.toFinset).card := by
    rw [← List.toFinset_card_of_nodup (ha.filter _)]
    congr 1
    ext x
    simp
  have heither : a.eraseDups.length +
      (b.eraseDups.filter fun x => !a.eraseDups.contains x).length =
      (a.toFinset ∪ b.toFinset).card := by
    rw [← List.length_append, ← List.toFinset_card_of_nodup hnodup]
    congr 1
    ext x
    simp
    tauto
  have hempty : (a.eraseDups.isEmpty && b.eraseDups.isEmpty) = true ↔
      (a.toFinset ∪ b.toFinset).card = 0 := by
    simp [List.eq_nil_iff_forall_not_mem]
  simp only [overlap, hempty, hboth, heither]

theorem normalized_overlap :
    Normalized overlap fun a b : List β => a.toFinset = b.toFinset := by
  refine .of_lt ?_ ?_ ?_
  · intro a b
    rw [overlap_eq, overlap_eq, Finset.union_comm, Finset.inter_comm]
  · intro a b h
    rw [overlap_eq, h, Finset.union_self, Finset.inter_self]
    split_ifs with hempty
    · exact one_rat
    · exact (ratio_eq_one_iff (Nat.pos_of_ne_zero hempty)).mpr rfl
  · intro a b h
    have hless : (a.toFinset ∩ b.toFinset).card < (a.toFinset ∪ b.toFinset).card := by
      refine Finset.card_lt_card (Finset.inter_subset_union.ssubset_of_ne fun heq => h ?_)
      exact inf_eq_sup.mp heq
    rw [overlap_eq, if_neg (by omega)]
    have hbounds := ratio_bounds hless.le
    exact ⟨hbounds.1,lt_of_le_of_ne hbounds.2 (mt (ratio_eq_one_iff (by omega)).mp hless.ne)⟩

end Overlap

end Likeness

namespace Rename

open Likeness

structure Alike (old new : Declaration) : Prop where
  name : old.name = new.name
  signature : old.signature = new.signature
  modifiers : old.modifiers = new.modifiers
  count : old.members.length = new.members.length

theorem toFinset_toList_inj {s t : Subset Modifier} :
    s.toList.toFinset = t.toList.toFinset ↔ s = t := by
  refine ⟨fun h => ?_,fun h => by rw [h]⟩
  ext m
  rw [Bool.eq_iff_iff, ← Subset.mem_toList, ← Subset.mem_toList, ← List.mem_toFinset, h,
    List.mem_toFinset]

theorem weighted_rat (old new : Declaration) : (weighted old new : ℚ) =
    2 / 5 * names old.name new.name + 2 / 5 * signatures old.signature new.signature +
      1 / 10 * overlap old.modifiers.toList new.modifiers.toList +
      1 / 10 * counts old.members.length new.members.length := by
  rfl

/-- The weights add up to one, so the whole lies between zero and one, and is one just if each
part is. -/
theorem weightedSum_bounds {p q r s : ℚ} (hp : 0 ≤ p ∧ p ≤ 1) (hq : 0 ≤ q ∧ q ≤ 1)
    (hr : 0 ≤ r ∧ r ≤ 1) (hs : 0 ≤ s ∧ s ≤ 1) :
    0 ≤ 2 / 5 * p + 2 / 5 * q + 1 / 10 * r + 1 / 10 * s ∧
    2 / 5 * p + 2 / 5 * q + 1 / 10 * r + 1 / 10 * s ≤ 1 ∧
    (2 / 5 * p + 2 / 5 * q + 1 / 10 * r + 1 / 10 * s = 1 ↔ p = 1 ∧ q = 1 ∧ r = 1 ∧ s = 1) := by
  refine ⟨by linarith,by linarith,?_,?_⟩
  · intro hone
    refine ⟨?_,?_,?_,?_⟩ <;> linarith
  · rintro ⟨rfl,rfl,rfl,rfl⟩
    norm_num

theorem normalized_weighted : Normalized weighted Alike := by
  have hweights (old new : Declaration) := weightedSum_bounds
    (normalized_names.bounds old.name new.name)
    (normalized_signatures.bounds old.signature new.signature)
    (normalized_overlap.bounds old.modifiers.toList new.modifiers.toList)
    (normalized_counts.bounds old.members.length new.members.length)
  simp only [← weighted_rat, normalized_names.eq_one_iff, normalized_signatures.eq_one_iff,
    normalized_overlap.eq_one_iff, toFinset_toList_inj, normalized_counts.eq_one_iff] at hweights
  constructor
  · intro old new
    rw [weighted_rat, weighted_rat, normalized_names.comm, normalized_signatures.comm,
      normalized_overlap.comm, normalized_counts.comm]
  · intro old new
    exact (hweights old new).1
  · intro old new
    exact (hweights old new).2.1
  · intro old new
    rw [(hweights old new).2.2]
    constructor
    · rintro ⟨hname,hsignature,hmodifiers,hcount⟩
      exact ⟨hname,hsignature,hmodifiers,hcount⟩
    · intro h
      exact ⟨h.name,h.signature,h.modifiers,h.count⟩

/-- The weighted likeness is kept within bounds that it does not leave. -/
theorem score_rat (old new : Declaration) : (score old new : ℚ) = weighted old new := by
  have hle := normalized_weighted.le_one old new
  have hnonneg := normalized_weighted.nonneg old new
  rw [score, one_rat, zero_rat, if_neg hle.not_gt, if_neg hnonneg.not_gt]

/-- With the least number of edits as the distance and with exact fractions, the scores of
names, of types and of declarations, these also before they are kept within bounds, are the same
both ways, go from zero to one, and are one for what is the same only. -/
theorem scores_normalized :
    (∀ a b : String, IsLeast {n | Text.Edits a.toList b.toList n} (Text.editDistance a b)) ∧
    Normalized names Eq ∧ Normalized signatures Eq ∧
    Normalized weighted Alike ∧ Normalized score Alike := by
  have hscore : (score : Declaration → Declaration → ℚ) = weighted :=
    funext fun old => funext fun new => score_rat old new
  refine ⟨fun a b => Text.isLeast_editDistanceChars a.toList b.toList,normalized_names,
    normalized_signatures,normalized_weighted,?_⟩
  rw [hscore]
  exact normalized_weighted

end Rename

end ApiRelease
