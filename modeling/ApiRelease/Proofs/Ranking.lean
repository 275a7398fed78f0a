import Mathlib.Data.List.Pairwise
import Mathlib.Order.Lattice

/-! # Sorted by falling scores

What a sort by score gives falls from each entry to every later one, and entries of one
score stay in the order in which they stood.
-/
namespace ApiRelease.Ranking

/-- What a sort cannot tell apart stays in the relation in which it stood. -/
theorem pairwise_mergeSort_of_pairwise {β : Type} {le : β → β → Bool} {R : β → β → Prop}
    (htrans : ∀ a b c, le a b = true → le b c = true → le a c = true)
    (htotal : ∀ a b, (le a b || le b a) = true) {xs : List β} (h : xs.Pairwise R) :
    (xs.mergeSort le).Pairwise fun a b => le a b = true ∧ (le b a = true → R a b) := by
  rw [List.pairwise_iff_forall_sublist]
  intro a b hab
  have hle : le a b = true :=
    List.pairwise_iff_forall_sublist.mp (List.pairwise_mergeSort htrans htotal xs) hab
  refine ⟨hle,fun hba => ?_⟩
  -- what ties with `a` is in order already, so the sort leaves all of it as it stands
  let tied (x : β) : Bool := le a x && le x a
  have hsorted : (xs.filter tied).Pairwise fun x y => le x y = true := by
    refine List.pairwise_of_forall_mem_list fun x hx y hy => ?_
    have hxa := (List.mem_filter.mp hx).2
    have hay := (List.mem_filter.mp hy).2
    simp only [tied, Bool.and_eq_true] at hxa hay
    exact htrans x a y hxa.2 hay.1
  have hkept : xs.filter tied = (xs.mergeSort le).filter tied := by
    have hsub := (List.sublist_mergeSort htrans htotal hsorted List.filter_sublist).filter tied
    simp only [List.filter_filter, Bool.and_self] at hsub
    exact hsub.eq_of_length ((List.mergeSort_perm xs le).filter tied).length_eq.symm
  have haa : le a a = true := by simpa using htotal a a
  have hpair : [a,b].filter tied = [a,b] := by simp [tied, haa, hle, hba]
  have hsub : [a,b].Sublist xs := by
    have htied := hab.filter tied
    rw [hpair, ← hkept] at htied
    exact htied.trans List.filter_sublist
  exact List.pairwise_iff_forall_sublist.mp h hsub

section Falling

variable {α β : Type} [LinearOrder α] (key : β → α)

theorem falling_trans (a b c : β) (hab : decide (key b ≤ key a) = true)
    (hbc : decide (key c ≤ key b) = true) : decide (key c ≤ key a) = true := by
  simp only [decide_eq_true_eq] at hab hbc ⊢
  exact le_trans hbc hab

theorem falling_total (a b : β) : (decide (key b ≤ key a) || decide (key a ≤ key b)) = true := by
  simpa using le_total (key b) (key a)

theorem pairwise_falling (xs : List β) :
    (xs.mergeSort fun a b => decide (key b ≤ key a)).Pairwise fun a b => key b ≤ key a := by
  have hsorted := List.pairwise_mergeSort (falling_trans key) (falling_total key) xs
  exact hsorted.imp fun h => of_decide_eq_true h

theorem pairwise_falling_stable {R : β → β → Prop} {xs : List β} (h : xs.Pairwise R) :
    (xs.mergeSort fun a b => decide (key b ≤ key a)).Pairwise
      fun a b => key b < key a ∨ key a = key b ∧ R a b := by
  have hstable := pairwise_mergeSort_of_pairwise (falling_trans key) (falling_total key) h
  refine hstable.imp fun {a b} hab => ?_
  simp only [decide_eq_true_eq] at hab
  rcases lt_or_eq_of_le hab.1 with hlt | heq
  · exact Or.inl hlt
  · exact Or.inr ⟨heq.symm,hab.2 (le_of_eq heq.symm)⟩

end Falling

end ApiRelease.Ranking
