import ApiRelease.Text.Distance
import Mathlib.Order.Basic

/-! # The table of distances

The entries of a row belong to the beginnings of the second text, and the row itself to a
beginning of the first one. What holds along the edges of the table and passes from three
neighbours to the fourth holds of the last entry, the distance of the whole texts.
-/
namespace ApiRelease.Text

/-- The row has an entry with the property for `t` and for each longer beginning of the
text that goes on with `rest`. -/
inductive Row (P : List Char → Nat → Prop) : List Char → List Char → List Nat → Prop
  | last {t : List Char} {n : Nat} (h : P t n) : Row P t [] [n]
  | next {t rest : List Char} {d : Char} {n : Nat} {row : List Nat} (h : P t n)
      (hrest : Row P (t ++ [d]) rest row) : Row P t (d :: rest) (n :: row)

theorem Row.getLastD {P : List Char → Nat → Prop} {t rest : List Char} {row : List Nat}
    (h : Row P t rest row) (n : Nat) : P (t ++ rest) (row.getLastD n) := by
  induction h generalizing n with
  | last h => simpa using h
  | next h hrest ih => simpa only [List.getLastD_cons, List.append_assoc, List.singleton_append] using ih _

structure Tabular (Q : List Char → List Char → Nat → Prop) : Prop where
  top (t : List Char) : Q [] t t.length
  side {s : List Char} {n : Nat} (c : Char) : Q s [] n → Q (s ++ [c]) [] (n + 1)
  step {s t : List Char} {corner left up : Nat} (c d : Char) : Q s t corner → Q (s ++ [c]) t left →
    Q s (t ++ [d]) up →
    Q (s ++ [c]) (t ++ [d]) (min (min (up + 1) (left + 1)) (corner + if c == d then 0 else 1))

namespace Tabular

variable {Q : List Char → List Char → Nat → Prop} {s t target rest : List Char}

theorem row_range (h : Tabular Q) (t rest : List Char) :
    Row (Q []) t rest (List.range' t.length (rest.length + 1)) := by
  induction rest generalizing t with
  | nil => exact .last (h.top t)
  | cons d rest ih =>
    refine .next (h.top t) ?_
    simpa using ih (t ++ [d])

theorem row_rowRest (h : Tabular Q) {c : Char} {corner left : Nat} {above : List Nat}
    (hrow : Row (Q s) t rest (corner :: above)) (hleft : Q (s ++ [c]) t left) :
    Row (Q (s ++ [c])) t rest (left :: rowRest c corner left rest above) := by
  induction rest generalizing t corner left above with
  | nil =>
    cases hrow
    exact .last hleft
  | cons d rest ih =>
    obtain _ | ⟨hcorner,hrest⟩ := hrow
    obtain _ | ⟨up,above⟩ := above
    · cases hrest
    have hup : Q s (t ++ [d]) up := by cases hrest <;> assumption
    exact .next hleft (ih hrest (h.step c d hcorner hleft hup))

theorem row_nextRow (h : Tabular Q) {row : List Nat} (hrow : Row (Q s) [] target row) (c : Char) :
    Row (Q (s ++ [c])) [] target (nextRow target row c) := by
  obtain _ | ⟨corner,above⟩ := row
  · cases hrow
  have hcorner : Q s [] corner := by cases hrow <;> assumption
  exact h.row_rowRest hrow (h.side c hcorner)

theorem row_foldl (h : Tabular Q) {row : List Nat} (hrow : Row (Q s) [] target row)
    (cs : List Char) : Row (Q (s ++ cs)) [] target (cs.foldl (nextRow target) row) := by
  induction cs generalizing s row with
  | nil => simpa using hrow
  | cons c cs ih => simpa using ih (h.row_nextRow hrow c)

/-- What goes through the table holds of the distance. -/
theorem editDistanceChars (h : Tabular Q) (s t : List Char) : Q s t (editDistanceChars s t) := by
  have hfirst : Row (Q []) [] t (List.range (t.length + 1)) := by
    rw [List.range_eq_range']
    exact h.row_range [] t
  exact (h.row_foldl hfirst s).getLastD 0

end Tabular

theorem editDistanceChars_le (s t : List Char) :
    editDistanceChars s t ≤ max s.length t.length := by
  refine Tabular.editDistanceChars (Q := fun s t n => n ≤ max s.length t.length) ⟨?_,?_,?_⟩ s t
  · intro t
    simp
  · intro s n c h
    simpa using h
  · intro s t corner left up c d hcorner hleft hup
    simp only [List.length_append, List.length_singleton] at hleft hup ⊢
    split_ifs <;> omega

theorem editDistanceChars_eq_zero_iff {s t : List Char} : editDistanceChars s t = 0 ↔ s = t := by
  refine Tabular.editDistanceChars (Q := fun s t n => n = 0 ↔ s = t) ⟨?_,?_,?_⟩ s t
  · intro t
    simp [eq_comm]
  · intro s n c h
    simp
  · intro s t corner left up c d hcorner hleft hup
    have hlast : s ++ [c] = t ++ [d] ↔ s = t ∧ c = d := by
      rw [← List.concat_eq_append, ← List.concat_eq_append, List.concat_inj]
    rw [hlast, ← hcorner, beq_eq_decide]
    by_cases hcd : c = d <;> simp [hcd]

end ApiRelease.Text
