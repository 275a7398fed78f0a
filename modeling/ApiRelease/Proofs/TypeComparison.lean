import ApiRelease.Proofs.UnionMembers
import ApiRelease.TypeText.Oracle
import Mathlib.Data.Finset.Card

/-! # Types compared by their members

The rules of the comparison read as relations between two texts: alike, within a union, with
a mark that the other one lacks. A text that is a member of a union is no union itself, so
two unions are related by their members alone, and never is each of two texts within the
other. Hence the order of the rules does not matter, and the change the other way round has
the mirror image of the verdict. What the members alone say is said of two unions; a text
that lists a single member is within a union only as that member is written there.
-/
namespace ApiRelease

def Impact.mirrored : Impact → Impact
  | .narrowing => .widening
  | .widening => .narrowing
  | impact => impact

namespace TypeText

def memberSet (t : String) : Finset String := (unionMembers t).toFinset

def Several (t : String) : Prop := 1 < (unionMembers t).length

def Alike (a b : String) : Prop := a = b ∨ (Several a ∧ Several b) ∧ memberSet a = memberSet b

/-- The second text is a union that has further members than the first, or the first itself
for a member. -/
def WithinUnion (a b : String) : Prop :=
  Several b ∧ (Several a ∧ memberSet a ⊂ memberSet b ∨ a ∈ memberSet b)

def GainsMark (a b : String) : Prop := '?' ∉ a.toList ∧ '?' ∈ b.toList

instance (t : String) : Decidable (Several t) := inferInstanceAs (Decidable (_ < _))

instance (a b : String) : Decidable (Alike a b) := inferInstanceAs (Decidable (_ ∨ _))

instance (a b : String) : Decidable (WithinUnion a b) := inferInstanceAs (Decidable (_ ∧ _))

instance (a b : String) : Decidable (GainsMark a b) := inferInstanceAs (Decidable (_ ∧ _))

variable {a b t : String}

@[simp] theorem mem_memberSet {m : String} : m ∈ memberSet t ↔ m ∈ unionMembers t :=
  List.mem_toFinset

theorem isSubset_eq : isSubset (unionMembers a) (unionMembers b) = decide (memberSet a ⊆ memberSet b) := by
  rw [Bool.eq_iff_iff]
  simp [isSubset, Finset.subset_iff]

theorem contains_eq : (unionMembers b).contains a = decide (a ∈ memberSet b) := by
  rw [Bool.eq_iff_iff]
  simp

@[simp] theorem unionMembers_empty : unionMembers "" = [] := rfl

/-- A member is no union, so it cannot be a union and a member of one at once. -/
theorem not_several_of_mem (h : a ∈ memberSet b) : ¬Several a := by
  rw [Several, unionMembers_of_mem (mem_memberSet.mp h)]
  simp

/-- The rules of the comparison as relations between two texts. -/
theorem impact_compareNormalized (a b : String) : (compareNormalized a b).impact =
    if Alike a b then .equivalent
    else if a = "" ∨ b = "" then .undetermined
    else if WithinUnion a b then .widening
    else if WithinUnion b a then .narrowing
    else if GainsMark a b then .widening
    else if GainsMark b a then .narrowing
    else .undetermined := by
  by_cases heq : a = b
  · simp [compareNormalized, Alike, heq]
  by_cases hempty : a = "" ∨ b = ""
  · have hunlike : ¬Alike a b := by
      rcases hempty with rfl | rfl <;> simp [Alike, heq, Several]
    simp [compareNormalized, heq, hempty, hunlike]
  have hsets : memberSet a = memberSet b ↔ memberSet a ⊆ memberSet b ∧ memberSet b ⊆ memberSet a :=
    Finset.Subset.antisymm_iff
  have hseveral (t : String) : 1 < (unionMembers t).length ↔ Several t := Iff.rfl
  have hmarks (a b : String) :
      GainsMark a b ↔ a.toList.contains '?' = false ∧ b.toList.contains '?' = true := by
    simp [GainsMark]
  simp only [compareNormalized, isSubset_eq, contains_eq, ← Bool.decide_and, decide_eq_true_eq,
    hseveral, Alike, WithinUnion, hmarks, hsets, ssubset_iff_subset_not_superset, heq, hempty,
    beq_iff_eq, Bool.or_eq_true, String.isEmpty_iff]
  generalize a.toList.contains '?' = marked
  generalize b.toList.contains '?' = marked'
  -- two unions are told apart by their members alone, as neither is a member of the other
  by_cases hleft : Several a <;> by_cases hright : Several b
  · have ha : a ∉ memberSet b := fun h => not_several_of_mem h hleft
    have hb : b ∉ memberSet a := fun h => not_several_of_mem h hright
    by_cases hsub : memberSet a ⊆ memberSet b <;> by_cases hsup : memberSet b ⊆ memberSet a <;>
      cases marked <;> cases marked' <;> simp [hleft, hright, ha, hb, hsub, hsup]
  · by_cases hb : b ∈ memberSet a <;> cases marked <;> cases marked' <;> simp [hleft, hright, hb]
  · by_cases ha : a ∈ memberSet b <;> cases marked <;> cases marked' <;> simp [hleft, hright, ha]
  · cases marked <;> cases marked' <;> simp [hleft, hright]

theorem alike_comm : Alike a b ↔ Alike b a := by
  simp only [Alike, eq_comm (a := a), and_comm (a := Several a), eq_comm (a := memberSet a)]

/-- Which of the two rules for unions is tried first makes no difference. -/
theorem WithinUnion.asymm (h : WithinUnion a b) : ¬WithinUnion b a := by
  rintro ⟨hseveral',hwithin'⟩
  obtain ⟨hseveral,⟨-,hsub⟩ | hmem⟩ := h
  · rcases hwithin' with ⟨-,hsub'⟩ | hmem'
    · exact hsub.asymm hsub'
    · exact not_several_of_mem hmem' hseveral
  · exact not_several_of_mem hmem hseveral'

theorem GainsMark.asymm (h : GainsMark a b) : ¬GainsMark b a := fun h' => h.1 h'.2

theorem impact_compareNormalized_swap (a b : String) :
    (compareNormalized b a).impact = (compareNormalized a b).impact.mirrored := by
  have hcomm : Alike b a ↔ Alike a b := alike_comm
  simp only [impact_compareNormalized, hcomm, or_comm (a := b = "")]
  by_cases halike : Alike a b
  · simp [halike, Impact.mirrored]
  by_cases hempty : a = "" ∨ b = ""
  · simp [halike, hempty, Impact.mirrored]
  by_cases hwithin : WithinUnion a b
  · simp [halike, hempty, hwithin, hwithin.asymm, Impact.mirrored]
  by_cases hwithin' : WithinUnion b a
  · simp [halike, hempty, hwithin, hwithin', Impact.mirrored]
  by_cases hmark : GainsMark a b
  · simp [halike, hempty, hwithin, hwithin', hmark, hmark.asymm, Impact.mirrored]
  by_cases hmark' : GainsMark b a <;>
    simp [halike, hempty, hwithin, hwithin', hmark, hmark', Impact.mirrored]

/-- The change the other way round has the mirror image of the verdict. -/
theorem impact_compare_mirrored (a b : String) :
    (compare b a).impact = (compare a b).impact.mirrored :=
  impact_compareNormalized_swap (Text.normalize a) (Text.normalize b)

/-! ## What the members alone say -/

theorem ne_empty_of_nonempty (h : (memberSet t).Nonempty) : t ≠ "" := by
  rintro rfl
  simp [memberSet] at h

theorem mem_memberSet_self (h : a ∈ memberSet t) : a ∈ memberSet a := by
  simp [unionMembers_of_mem (mem_memberSet.mp h)]

theorem several_of_ssubset (ha : (memberSet a).Nonempty) (h : memberSet a ⊂ memberSet b) : Several b := by
  have hfirst : 0 < (memberSet a).card := ha.card_pos
  have hmore : (memberSet a).card < (memberSet b).card := Finset.card_lt_card h
  have hlisted : (memberSet b).card ≤ (unionMembers b).length := List.toFinset_card_le _
  unfold Several
  omega

/-- A mark stands in a member, so whatever has the same members has it too. -/
theorem not_gainsMark_of_subset (h : memberSet b ⊆ memberSet a) : ¬GainsMark a b := by
  rintro ⟨ha,hb⟩
  obtain ⟨m,hm,hmark⟩ := (exists_mem_unionMembers (by decide) (by decide)).mpr hb
  have hm : m ∈ memberSet a := h (mem_memberSet.mpr hm)
  exact ha ((exists_mem_unionMembers (by decide) (by decide)).mp ⟨m,mem_memberSet.mp hm,hmark⟩)

theorem impact_of_sameMembers (ha : (memberSet a).Nonempty) (h : memberSet a = memberSet b) :
    (compareNormalized a b).impact =
      if a = b ∨ Several a ∧ Several b then .equivalent
      else if Several b ∧ a ∈ memberSet a then .widening
      else if Several a ∧ b ∈ memberSet b then .narrowing
      else .undetermined := by
  have hempty : ¬(a = "" ∨ b = "") :=
    not_or.mpr ⟨ne_empty_of_nonempty ha,ne_empty_of_nonempty (h ▸ ha)⟩
  have halike : Alike a b ↔ a = b ∨ Several a ∧ Several b := by simp [Alike, h]
  have hwithin : WithinUnion a b ↔ Several b ∧ a ∈ memberSet a := by simp [WithinUnion, h]
  have hwithin' : WithinUnion b a ↔ Several a ∧ b ∈ memberSet b := by simp [WithinUnion, h]
  have hmark : ¬GainsMark a b := not_gainsMark_of_subset h.ge
  have hmark' : ¬GainsMark b a := not_gainsMark_of_subset h.le
  simp only [impact_compareNormalized, halike, hempty, hwithin, hwithin', hmark, hmark', if_false]

theorem impact_of_fewerMembers (ha : (memberSet a).Nonempty) (h : memberSet a ⊂ memberSet b) :
    (compareNormalized a b).impact =
      if Several a ∨ a ∈ memberSet a ∨ GainsMark a b then .widening else .undetermined := by
  have hseveral : Several b := several_of_ssubset ha h
  have hempty : ¬(a = "" ∨ b = "") :=
    not_or.mpr ⟨ne_empty_of_nonempty ha,ne_empty_of_nonempty (ha.mono h.subset)⟩
  have halike : ¬Alike a b := by
    rintro (rfl | ⟨-,hsame⟩)
    · exact h.ne rfl
    · exact h.ne hsame
  have hwithin : WithinUnion a b ↔ Several a ∨ a ∈ memberSet a := by
    have hmem : a ∈ memberSet b ↔ a ∈ memberSet a := ⟨mem_memberSet_self,fun ha => h.subset ha⟩
    simp [WithinUnion, hseveral, h, hmem]
  have hwithin' : ¬WithinUnion b a := by
    rintro ⟨-,⟨-,hsub⟩ | hmem⟩
    · exact h.asymm hsub
    · exact not_several_of_mem hmem hseveral
  have hmark' : ¬GainsMark b a := not_gainsMark_of_subset h.subset
  simp only [impact_compareNormalized, halike, hempty, hwithin, hwithin', hmark', if_false]
  by_cases hlisted : Several a ∨ a ∈ memberSet a
  · simp only [← or_assoc, hlisted, true_or, if_true]
  · simp only [← or_assoc, hlisted, false_or, if_false]

/-- The verdict follows the sets of members where both texts list several of them. Where one
lists a single member it depends on how that is written, too: a bar that separates nothing
hides the member, and a single member listed twice counts as a union of it. -/
theorem impact_of_memberSets (ha : (memberSet (Text.normalize a)).Nonempty)
    (hb : (memberSet (Text.normalize b)).Nonempty) :
    (memberSet (Text.normalize a) = memberSet (Text.normalize b) → (compare a b).impact =
      if Text.normalize a = Text.normalize b ∨ Several (Text.normalize a) ∧ Several (Text.normalize b)
      then .equivalent
      else if Several (Text.normalize b) ∧ Text.normalize a ∈ memberSet (Text.normalize a)
      then .widening
      else if Several (Text.normalize a) ∧ Text.normalize b ∈ memberSet (Text.normalize b)
      then .narrowing
      else .undetermined) ∧
    (memberSet (Text.normalize a) ⊂ memberSet (Text.normalize b) → (compare a b).impact =
      if Several (Text.normalize a) ∨ Text.normalize a ∈ memberSet (Text.normalize a) ∨
        GainsMark (Text.normalize a) (Text.normalize b)
      then .widening else .undetermined) ∧
    (memberSet (Text.normalize b) ⊂ memberSet (Text.normalize a) → (compare a b).impact =
      if Several (Text.normalize b) ∨ Text.normalize b ∈ memberSet (Text.normalize b) ∨
        GainsMark (Text.normalize b) (Text.normalize a)
      then .narrowing else .undetermined) := by
  refine ⟨impact_of_sameMembers ha,impact_of_fewerMembers ha,fun h => ?_⟩
  rw [compare, impact_compareNormalized_swap, impact_of_fewerMembers hb h]
  split_ifs <;> rfl

theorem impact_of_memberSets_tags :
    (memberSet (Text.normalize "'b|c'  | null")).Nonempty ∧
    (memberSet (Text.normalize "| null | Map<a | b> | 'b|c'")).Nonempty ∧
    memberSet (Text.normalize "'b|c'  | null") ⊂
      memberSet (Text.normalize "| null | Map<a | b> | 'b|c'") ∧
    (compare "'b|c'  | null" "| null | Map<a | b> | 'b|c'").impact = .widening := by
  have ha : (memberSet (Text.normalize "'b|c'  | null")).Nonempty := by decide +kernel
  have hb : (memberSet (Text.normalize "| null | Map<a | b> | 'b|c'")).Nonempty := by decide +kernel
  have hfewer : memberSet (Text.normalize "'b|c'  | null") ⊂
      memberSet (Text.normalize "| null | Map<a | b> | 'b|c'") := by decide +kernel
  have hseveral : Several (Text.normalize "'b|c'  | null") := by decide +kernel
  exact ⟨ha,hb,hfewer,((impact_of_memberSets ha hb).2.1 hfewer).trans (if_pos (Or.inl hseveral))⟩

/-- A type that is listed twice seems to be narrowed when it is listed once, and a type
behind a bar is not found in a union that it belongs to. -/
theorem members_alone_undecided :
    (memberSet (Text.normalize "string | string")).Nonempty ∧
    (memberSet (Text.normalize "string")).Nonempty ∧
    memberSet (Text.normalize "string | string") = memberSet (Text.normalize "string") ∧
    (compare "string | string" "string").impact = .narrowing ∧
    (memberSet (Text.normalize "| string")).Nonempty ∧
    (memberSet (Text.normalize "string | number")).Nonempty ∧
    memberSet (Text.normalize "| string") ⊂ memberSet (Text.normalize "string | number") ∧
    (compare "| string" "string | number").impact = .undetermined := by
  decide +kernel

end TypeText

end ApiRelease
