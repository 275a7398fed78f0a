import ApiRelease.Rule.Pattern
import Mathlib.Data.List.Infix

/-! # Templates compiled

A part occurs in a text as an infix of its characters. Without an opening brace a text has
no placeholders. A pattern compiles just if its release type, target and kind of declaration
exist and it speaks of something.
-/
namespace ApiRelease

namespace Text

variable {part cs : List Char}

theorem occursIn_iff : occursIn part cs = true ↔ part <:+: cs := by
  induction cs with
  | nil => simp [occursIn]
  | cons c rest ih =>
    rw [occursIn, Bool.or_eq_true, List.isPrefixOf_iff_prefix, ih, List.infix_cons_iff]

theorem contains_iff {s part : String} : contains s part = true ↔ part.toList <:+: s.toList :=
  occursIn_iff

theorem occursIn_of_letter {x : Char} (hx : x ∈ part) (hs : x ∉ cs) : occursIn part cs = false := by
  rw [Bool.eq_false_iff, ne_eq, occursIn_iff]
  intro h
  exact hs (h.subset hx)

theorem contains_of_letter {s part : String} {x : Char} (hx : x ∈ part.toList) (hs : x ∉ s.toList) :
    contains s part = false :=
  occursIn_of_letter hx hs

end Text

theorem toList_slot (name : String) : (slot name).toList = '\x7b' :: (name.toList ++ ['\x7d']) := by
  simp [slot]

namespace Pattern

theorem placeholdersFrom_of_brace {fuel : Nat} {cs : List Char} (h : '\x7b' ∉ cs) :
    placeholdersFrom fuel cs = [] := by
  induction fuel generalizing cs with
  | zero => rfl
  | succ fuel ih =>
    cases cs with
    | nil => rfl
    | cons c rest =>
      obtain ⟨hc,hrest⟩ := not_or.mp (fun hm => h (List.mem_cons.mpr hm))
      simp [placeholdersFrom, Ne.symm hc, ih hrest]

theorem placeholders_of_brace {s : String} (h : '\x7b' ∉ s.toList) : placeholders s = [] := by
  rw [placeholders, placeholdersFrom_of_brace h, List.map_nil]

variable {r : PatternRule} {m : Meaning} {template : String} {bindings : List PatternVariable}

theorem errorsOf_eq_nil_iff : errorsOf r m = [] ↔ isRelease r.returns = true ∧
    (∀ t, m.target = some t → isTarget t = true) ∧
    (∀ k, m.nodeKind = some k → Intent.isNodeKind k = true) ∧
    (m.action.isSome || m.aspect.isSome || (nonEmpty m.target).isSome) = true := by
  simp only [errorsOf, List.append_eq_nil_iff, and_assoc]
  refine and_congr ?_ (and_congr ?_ (and_congr ?_ ?_))
  · cases isRelease r.returns <;> simp
  · cases m.target with
    | none => simp
    | some t => cases ht : isTarget t <;> simp [ht]
  · cases m.nodeKind with
    | none => simp
    | some k => cases hk : Intent.isNodeKind k <;> simp [hk]
  · split
    · simp_all
    · simp_all

theorem compile_of_errors_nil (h : errorsOf r (meaning r.template r.bindings) = []) :
    compile r = ⟨some (dimensions (meaning r.template r.bindings) r.returns r.description), [],
      warningsOf r (meaning r.template r.bindings)⟩ := by
  simp [compile, h]

theorem dimensional_of_errors (h : errorsOf r (meaning r.template r.bindings) ≠ []) :
    (compile r).dimensional = none := by
  simp [compile, h]

theorem nonEmpty_of_isTarget {t : String} (h : isTarget t = true) : nonEmpty (some t) = some t := by
  have hne : t.isEmpty = false := by
    cases he : t.isEmpty with
    | false => rfl
    | true =>
      rw [String.isEmpty_iff] at he
      subst he
      exact absurd h (by decide)
  simp [nonEmpty, Option.filter, hne]

theorem nonEmpty_of_isNodeKind {k : String} (h : Intent.isNodeKind k = true) :
    nonEmpty (some k) = some k := by
  have hne : k.isEmpty = false := by
    cases he : k.isEmpty with
    | false => rfl
    | true =>
      rw [String.isEmpty_iff] at he
      subst he
      exact absurd h (by decide)
  simp [nonEmpty, Option.filter, hne]

theorem isTarget_name (t : Target) : isTarget t.name = true := by
  have h : (Vocabulary.parse? t.name : Option Target) = some t := Vocabulary.parse?_name t
  rw [isTarget, h, Option.isSome_some]

theorem isNestedCondition_plain : Intent.isNestedCondition (plainCondition "nested") = true := by
  decide

theorem errorsOf_eq_nil_iff_of_target {t : String} (ht : m.target = some t) :
    errorsOf r m = [] ↔ isRelease r.returns = true ∧ isTarget t = true ∧
      ∀ k, m.nodeKind = some k → Intent.isNodeKind k = true := by
  rw [errorsOf_eq_nil_iff, ht]
  constructor
  · rintro ⟨hr,htarget,hkind,-⟩
    exact ⟨hr,htarget t rfl,hkind⟩
  · rintro ⟨hr,htarget,hkind⟩
    refine ⟨hr,?_,hkind,?_⟩
    · intro u hu
      obtain rfl := Option.some.inj hu
      exact htarget
    · rw [nonEmpty_of_isTarget htarget]
      simp

theorem isNodeKind_of_meaning (h : valueOf? bindings .nodeKind = none) {k : String}
    (hk : (meaning template bindings).nodeKind = some k) : Intent.isNodeKind k = true := by
  simp only [meaning, h] at hk
  split_ifs at hk with hcondition
  obtain rfl := Option.some.inj hk
  exact hcondition.2.2

/-- Conditions that speak of what lies inside leave the kind of declaration as it is. -/
theorem nodeKind_meaning (h : (nonEmpty (valueOf? bindings .condition)).getD "nested" = "nested") :
    (meaning template bindings).nodeKind = valueOf? bindings .nodeKind := by
  simp [meaning, h, isNestedCondition_plain]

theorem nested_meaning (h : (nonEmpty (valueOf? bindings .condition)).getD "nested" = "nested") :
    (meaning template bindings).nested = (keyword? template).map fun k => decide (k = .when) := by
  simp [meaning, h, isNestedCondition_plain]

end Pattern

end ApiRelease
