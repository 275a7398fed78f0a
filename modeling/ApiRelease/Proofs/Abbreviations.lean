import ApiRelease.Proofs.Scores

/-! # Abbreviations

In lower case an abbreviation has two letters or more, begins as the longer name does, and is
found in it letter by letter, but is not all of it. So it is shorter, and it does not matter
which of two names is looked at first.
-/
namespace ApiRelease.Likeness

structure Abbreviates (short long : List Char) : Prop where
  letters : 2 ≤ short.length
  first : short.head? = long.head?
  ne : short ≠ long
  sublist : short.Sublist long

/-- A part that keeps all letters is the whole. -/
theorem Abbreviates.length_lt {short long : List Char} (h : Abbreviates short long) :
    short.length < long.length := by
  refine lt_of_le_of_ne h.sublist.length_le fun hlength => ?_
  exact h.ne (h.sublist.eq_of_length hlength)

def byLength (a b : List Char) : List Char × List Char :=
  if a.length ≤ b.length then (a,b) else (b,a)

/-- Only the shorter text can abbreviate the other one. -/
theorem abbreviates_byLength_iff (a b : List Char) :
    Abbreviates (byLength a b).1 (byLength a b).2 ↔ Abbreviates a b ∨ Abbreviates b a := by
  unfold byLength
  split_ifs with hle
  · refine ⟨Or.inl,?_⟩
    rintro (h | h)
    · exact h
    · exact absurd h.length_lt hle.not_gt
  · refine ⟨Or.inr,?_⟩
    rintro (h | h)
    · exact absurd h.length_lt.le hle
    · exact h

theorem isAbbreviation_iff_byLength (a b : String) : isAbbreviation a b = true ↔
    Abbreviates (byLength (Text.lowerChars a.toList) (Text.lowerChars b.toList)).1
      (byLength (Text.lowerChars a.toList) (Text.lowerChars b.toList)).2 := by
  simp only [isAbbreviation, Bool.and_eq_true, decide_eq_true_eq, bne_iff_ne, beq_iff_eq,
    List.isSublist_iff_sublist, byLength]
  constructor
  · rintro ⟨⟨⟨hletters,hne⟩,hfirst⟩,hsublist⟩
    exact ⟨hletters,hfirst,hne,hsublist⟩
  · intro h
    exact ⟨⟨⟨h.letters,h.ne⟩,h.first⟩,h.sublist⟩

theorem isAbbreviation_comm (a b : String) : isAbbreviation a b = isAbbreviation b a := by
  rw [Bool.eq_iff_iff, isAbbreviation_iff_byLength, isAbbreviation_iff_byLength,
    abbreviates_byLength_iff, abbreviates_byLength_iff, or_comm]

/-- The shorter name abbreviates the longer one just if its letters are a proper subsequence that
begins where the longer name begins. Which name is given first matters neither for this nor, on any
scale, for the likeness that counts it. -/
theorem isAbbreviation_decides {α : Type} [Scale α] (a b : String) :
    (isAbbreviation a b = true ↔
      Abbreviates (byLength (Text.lowerChars a.toList) (Text.lowerChars b.toList)).1
        (byLength (Text.lowerChars a.toList) (Text.lowerChars b.toList)).2) ∧
    isAbbreviation a b = isAbbreviation b a ∧ (resemblance a b : α) = resemblance b a := by
  refine ⟨isAbbreviation_iff_byLength a b,isAbbreviation_comm a b,?_⟩
  rw [resemblance, resemblance, names_comm, isAbbreviation_comm]

end ApiRelease.Likeness
