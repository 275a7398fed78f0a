import ApiRelease.Document.Read
import ApiRelease.Proofs.Runs
import Mathlib.Tactic.SplitIfs

/-! # What documents show

Every document that is no text has something to show, a number at least one digit. So the
empty text is the only document that is shown as nothing, and what counts as true never is.
Only a number that is too long keeps a document from being shown.
-/
namespace ApiRelease

namespace Decimal

theorem positional_ne_nil (ds : List Char) (point : Int) : positional ds point ≠ [] := by
  unfold positional
  split_ifs <;> simp

theorem withExponent_ne_nil (ds : List Char) (point : Int) : withExponent ds point ≠ [] := by
  unfold withExponent
  cases ds with
  | nil => simp
  | cons d more => cases more <;> simp

theorem shortest_ne_empty (style : PointStyle) (x : Float) : shortest style x ≠ "" := by
  unfold shortest
  cases parts x with
  | nan => simp
  | infinite negative => cases negative <;> simp
  | finite negative m q =>
    rw [ne_eq, String.ofList_eq_empty_iff]
    cases negative with
    | true => simp
    | false =>
      simp only [Bool.false_eq_true, if_false]
      split_ifs
      · simp
      · exact positional_ne_nil _ _
      · exact withExponent_ne_nil _ _

end Decimal

namespace Scalar

theorem quote_ne_empty (s : Scalar) : s.quote ≠ "" := by
  cases s with
  | null => decide
  | bool b => cases b <;> decide
  | int n =>
    have hdigits : Decimal.decimalDigits n.natAbs ≠ [] := Nat.toDigits_ne_nil
    simp only [quote, showInt]
    split_ifs <;> simp [hdigits]
  | float x => exact Decimal.shortest_ne_empty pointStyle x
  | text s => simp [quote, Text.quoted]
  | moment m => simp [quote, Moment.quote]
  | binary bytes => simp [quote, quotedBytes]

theorem toText_eq_empty_iff {s : Scalar} : s.toText = "" ↔ s = .text "" := by
  cases s with
  | text s => simp [toText]
  | moment m => cases m <;> simp [toText, Moment.toText, Date.toText, Clock.toText]
  | null => exact iff_of_false (quote_ne_empty .null) (by simp)
  | bool b => exact iff_of_false (quote_ne_empty (.bool b)) (by simp)
  | int n => exact iff_of_false (quote_ne_empty (.int n)) (by simp)
  | float x => exact iff_of_false (quote_ne_empty (.float x)) (by simp)
  | binary bytes => exact iff_of_false (quote_ne_empty (.binary bytes)) (by simp)

end Scalar

namespace Value

theorem quote_ne_empty (v : Value) : v.quote ≠ "" := by
  cases v with
  | scalar s => exact s.quote_ne_empty
  | set members =>
    simp only [quote, quoteSet]
    split_ifs <;> simp
  | list | pair | table => simp [quote]

theorem toText_eq_empty_iff {v : Value} : v.toText = "" ↔ v = .text "" := by
  cases v with
  | scalar s => simpa [toText] using Scalar.toText_eq_empty_iff
  | list items => exact iff_of_false (quote_ne_empty (.list items)) (by simp)
  | pair a b => exact iff_of_false (quote_ne_empty (.pair a b)) (by simp)
  | set members => exact iff_of_false (quote_ne_empty (.set members)) (by simp)
  | table fields => exact iff_of_false (quote_ne_empty (.table fields)) (by simp)

theorem toText_ne_empty_of_truthy {v : Value} (h : v.truthy = true) : v.toText ≠ "" := by
  intro hv
  rw [toText_eq_empty_iff.mp hv] at h
  exact absurd h (by decide)

/-! ## Documents that can be shown -/

theorem shown_eq_ok {v : Value} {s : String} :
    v.shown = .ok s ↔ v.hasText = true ∧ v.toText = s := by
  cases h : v.hasText <;> simp [shown, h]

theorem ne_empty_of_shown {v : Value} (ht : v.truthy = true) {s : String} (h : v.shown = .ok s) :
    s ≠ "" := by
  rw [← (shown_eq_ok.mp h).2]
  exact toText_ne_empty_of_truthy ht

theorem shown_ends (v : Value) :
    Ends (fun f => f = .numberTooLong ∧ v.hasText = false) (fun s => s = v.toText) v.shown := by
  unfold shown
  split
  · exact .ok rfl
  · next h => exact .error ⟨rfl,by simpa using h⟩

theorem optionalShown_ends (v : Value) :
    Ends (fun f => f = .numberTooLong ∧ v.hasText = false) (fun s => s = v.optionalText)
      v.optionalShown := by
  unfold optionalShown
  split
  · exact .ok rfl
  · next h => exact .error ⟨rfl,by simpa using h⟩

@[simp] theorem shown_text (s : String) : (Value.text s).shown = .ok s := rfl

@[simp] theorem optionalShown_ofOption (s : Option String) : (ofOption s).optionalShown = .ok s := by
  cases s <;> rfl

theorem mapM_shown_eq_ok {vs : List Value} {ss : List String} :
    vs.mapM (·.shown) = .ok ss ↔ (∀ v ∈ vs, v.hasText = true) ∧ vs.map (·.toText) = ss := by
  rw [mapM_eq_ok_iff]
  constructor
  · intro h
    refine ⟨fun v hv => ?_,?_⟩
    · obtain ⟨s,-,hs⟩ := exists_right_of_forall₂ h hv
      exact (shown_eq_ok.mp hs).1
    · simpa using (map_eq_of_forall₂ (h.imp fun v s hs => (shown_eq_ok.mp hs).2.symm) :
        ss.map id = vs.map (·.toText)).symm
  · rintro ⟨htext,rfl⟩
    rw [List.forall₂_map_right_iff, List.forall₂_same]
    exact fun v hv => shown_eq_ok.mpr ⟨htext v hv,rfl⟩

theorem mapM_shown_texts (ss : List String) : (texts ss).entries.mapM (·.shown) = .ok ss :=
  mapM_written fun s _ => shown_text s

end Value

/-- A text in place of a field that is not given can be shown. -/
theorem Fields.hasText_get {fs : Fields} {key s : String}
    (h : (fs.getD key (.text s)).hasText = false) : (fs.get key).hasText = false := by
  unfold Fields.get
  unfold Fields.getD at h ⊢
  cases hfind : Fields.find? key fs with
  | none =>
    rw [hfind] at h
    cases h
  | some v =>
    rw [hfind] at h
    exact h

end ApiRelease
