import ApiRelease.Proofs.EditDistance
import Mathlib.Order.Bounds.Basic

/-! # The least number of edits

An edit puts one character in, takes one out, or replaces one. The distance of two texts is
the least number of edits that lead from one to the other, so it is the same both ways.
-/
namespace ApiRelease.Text

/-- One edit, of the first character or of one behind it. -/
inductive Edit : List Char → List Char → Prop
  | insert (c : Char) (s : List Char) : Edit s (c :: s)
  | delete (c : Char) (s : List Char) : Edit (c :: s) s
  | replace (c d : Char) (s : List Char) : Edit (c :: s) (d :: s)
  | behind {s t : List Char} (c : Char) (h : Edit s t) : Edit (c :: s) (c :: t)

inductive Edits : List Char → List Char → Nat → Prop
  | none (s : List Char) : Edits s s 0
  | first {s t u : List Char} {n : Nat} (h : Edit s t) (hrest : Edits t u n) : Edits s u (n + 1)

namespace Edit

variable {s t : List Char}

theorem symm (h : Edit s t) : Edit t s := by
  induction h with
  | insert c s => exact .delete c s
  | delete c s => exact .insert c s
  | replace c d s => exact .replace d c s
  | behind c _ ih => exact .behind c ih

theorem append_left (h : Edit s t) (before : List Char) : Edit (before ++ s) (before ++ t) := by
  induction before with
  | nil => exact h
  | cons c before ih => exact .behind c ih

theorem append_right (h : Edit s t) (rest : List Char) : Edit (s ++ rest) (t ++ rest) := by
  induction h with
  | insert c s => exact .insert c (s ++ rest)
  | delete c s => exact .delete c (s ++ rest)
  | replace c d s => exact .replace c d (s ++ rest)
  | behind c _ ih => exact .behind c ih

theorem reverse (h : Edit s t) : Edit s.reverse t.reverse := by
  induction h with
  | insert c s => simpa using (Edit.insert c []).append_left s.reverse
  | delete c s => simpa using (Edit.delete c []).append_left s.reverse
  | replace c d s => simpa using (Edit.replace c d []).append_left s.reverse
  | behind c _ ih => simpa using ih.append_right [c]

end Edit

namespace Edits

variable {s t u : List Char} {n : Nat}

theorem snoc (h : Edits s t n) (hlast : Edit t u) : Edits s u (n + 1) := by
  induction h with
  | none s => exact .first hlast (.none u)
  | first hfirst _ ih => exact .first hfirst (ih hlast)

theorem symm (h : Edits s t n) : Edits t s n := by
  induction h with
  | none s => exact .none s
  | first hfirst _ ih => exact ih.snoc hfirst.symm

theorem reverse (h : Edits s t n) : Edits s.reverse t.reverse n := by
  induction h with
  | none s => exact .none s.reverse
  | first hfirst _ ih => exact .first hfirst.reverse ih

theorem behind (c : Char) (h : Edits s t n) : Edits (c :: s) (c :: t) n := by
  induction h with
  | none s => exact .none (c :: s)
  | first hfirst _ ih => exact .first (.behind c hfirst) ih

end Edits

def headDistance : List Char → List Char → Nat
  | [], t => t.length
  | _ :: s, [] => s.length + 1
  | c :: s, d :: t =>
    min (min (headDistance s (d :: t) + 1) (headDistance (c :: s) t + 1))
      (headDistance s t + if c == d then 0 else 1)

section

variable {s t : List Char} {n : Nat}

@[simp] theorem headDistance_nil_left (t : List Char) : headDistance [] t = t.length := by
  rw [headDistance]

@[simp] theorem headDistance_nil_right (s : List Char) : headDistance s [] = s.length := by
  cases s <;> simp [headDistance]

theorem headDistance_cons_cons (c d : Char) (s t : List Char) : headDistance (c :: s) (d :: t) =
    min (min (headDistance s (d :: t) + 1) (headDistance (c :: s) t + 1))
      (headDistance s t + if c == d then 0 else 1) := by
  rw [headDistance]

theorem headDistance_self (s : List Char) : headDistance s s = 0 := by
  induction s with
  | nil => simp
  | cons c s ih => simp [headDistance_cons_cons, ih]

theorem headDistance_cons_left_le (c : Char) (s u : List Char) :
    headDistance (c :: s) u ≤ headDistance s u + 1 := by
  cases u with
  | nil => simp
  | cons e u =>
    rw [headDistance_cons_cons]
    omega

theorem headDistance_cons_right_le (e : Char) (s u : List Char) :
    headDistance s (e :: u) ≤ headDistance s u + 1 := by
  cases s with
  | nil => simp
  | cons c s =>
    rw [headDistance_cons_cons]
    omega

/-- An edit brings a text nearer to another one by no more than one. -/
theorem Edit.headDistance_le (h : Edit s t) (u : List Char) :
    headDistance s u ≤ headDistance t u + 1 := by
  induction h generalizing u with
  | delete c s => exact headDistance_cons_left_le c s u
  | insert c s =>
    induction u with
    | nil =>
      rw [headDistance_nil_right, headDistance_nil_right, List.length_cons]
      omega
    | cons e u ih =>
      have hright := headDistance_cons_right_le e s u
      rw [headDistance_cons_cons]
      omega
  | replace c d s =>
    induction u with
    | nil => simp
    | cons e u ih =>
      rw [headDistance_cons_cons, headDistance_cons_cons]
      split_ifs <;> omega
  | behind c _ ih =>
    induction u with
    | nil => simpa using ih []
    | cons e u ihu =>
      have hboth := ih u
      have hleft := ih (e :: u)
      rw [headDistance_cons_cons, headDistance_cons_cons]
      omega

theorem headDistance_le_of_edits (h : Edits s t n) : headDistance s t ≤ n := by
  induction h with
  | none s => exact (headDistance_self s).le
  | first hfirst _ ih => exact (hfirst.headDistance_le _).trans (Nat.succ_le_succ ih)

theorem edits_nil (t : List Char) : Edits [] t t.length := by
  induction t with
  | nil => exact .none []
  | cons d t ih => exact ih.snoc (.insert d t)

theorem edits_headDistance (s t : List Char) : Edits s t (headDistance s t) := by
  fun_induction headDistance s t with
  | case1 t => exact edits_nil t
  | case2 c s => exact (edits_nil (c :: s)).symm
  | case3 c s d t hdelete hinsert hboth =>
    refine min_rec' (Edits _ _) (min_rec' (Edits _ _) ?_ ?_) ?_
    · exact .first (.delete c s) hdelete
    · exact hinsert.snoc (.insert d t)
    · split_ifs with hcd
      · obtain rfl := beq_iff_eq.mp hcd
        exact hboth.behind c
      · exact (hboth.behind c).snoc (.replace c d t)

/-- The table grows at the ends of the texts, so these are read from behind. -/
theorem editDistanceChars_eq (s t : List Char) :
    editDistanceChars s t = headDistance s.reverse t.reverse := by
  refine Tabular.editDistanceChars (Q := fun s t n => n = headDistance s.reverse t.reverse)
    ⟨?_,?_,?_⟩ s t
  · intro t
    simp
  · intro s n c h
    simpa using h
  · intro s t corner left up c d hcorner hleft hup
    simp only [List.reverse_append, List.reverse_singleton, List.singleton_append] at hleft hup ⊢
    rw [headDistance_cons_cons, hcorner, hleft, hup]

/-- The distance that the table gives is the least number of edits. -/
theorem isLeast_editDistanceChars (s t : List Char) :
    IsLeast {n | Edits s t n} (editDistanceChars s t) := by
  rw [editDistanceChars_eq]
  constructor
  · simpa using (edits_headDistance s.reverse t.reverse).reverse
  · intro n h
    exact headDistance_le_of_edits h.reverse

theorem editDistanceChars_comm (s t : List Char) :
    editDistanceChars s t = editDistanceChars t s := by
  refine (isLeast_editDistanceChars s t).unique ?_
  have hback : {n | Edits s t n} = {n | Edits t s n} := Set.ext fun n => ⟨Edits.symm,Edits.symm⟩
  rw [hback]
  exact isLeast_editDistanceChars t s

end

end ApiRelease.Text
