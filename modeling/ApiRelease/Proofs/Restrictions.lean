import ApiRelease.Proofs.IntentMeaning
import Mathlib.Data.List.Find

/-! # What a restriction leaves alone

The restriction of a phrase stands after its stem in the filled-in template. None of the
words by which a template is understood begins there or reaches into it, so that a phrase
says the same of what happened under any restriction, and the restriction only tells
whether a change lies inside a declaration and of which kind the declaration is.
-/
namespace ApiRelease

namespace Text

variable {part cs ds : List Char}

theorem prefix_append_cases (h : part <+: cs ++ ds) :
    part <+: cs ∨ ∃ u, u ≠ [] ∧ part = cs ++ u ∧ u <+: ds := by
  rcases List.prefix_or_prefix_of_prefix h (List.prefix_append cs ds) with hcs | ⟨u,rfl⟩
  · exact Or.inl hcs
  · by_cases hu : u = []
    · subst hu
      exact Or.inl (by simp)
    · exact Or.inr ⟨u,hu,rfl,(List.prefix_append_right_inj cs).mp h⟩

theorem isPrefixOf_append (h : cs.isPrefixOf part = false) (ds : List Char) :
    part.isPrefixOf (cs ++ ds) = part.isPrefixOf cs := by
  rw [Bool.eq_false_iff, ne_eq, List.isPrefixOf_iff_prefix] at h
  rw [Bool.eq_iff_iff, List.isPrefixOf_iff_prefix, List.isPrefixOf_iff_prefix]
  refine ⟨fun hpart => ?_,fun hpart => hpart.trans (List.prefix_append cs ds)⟩
  rcases prefix_append_cases hpart with hcs | ⟨u,-,rfl,-⟩
  · exact hcs
  · exact absurd (List.prefix_append cs u) h

theorem infix_append_iff (h : isClear part ds = true) : part <:+: cs ++ ds ↔ part <:+: cs := by
  simp only [isClear, Bool.and_eq_true, List.all_eq_true, List.mem_tails, Bool.or_eq_true,
    List.isEmpty_iff, Bool.not_eq_true', Bool.eq_false_iff, ne_eq, List.isPrefixOf_iff_prefix,
    occursIn_iff] at h
  obtain ⟨hends,hwithin⟩ := h
  induction cs with
  | nil =>
    refine iff_of_false hwithin fun hnil => hwithin ?_
    rw [List.infix_nil] at hnil
    subst hnil
    exact List.nil_infix
  | cons c cs ih =>
    rw [List.cons_append, List.infix_cons_iff, List.infix_cons_iff, ih, ← List.cons_append]
    refine or_congr_left ⟨fun hpart => ?_,fun hpart => hpart.trans (List.prefix_append _ ds)⟩
    rcases prefix_append_cases hpart with hcs | ⟨u,hu,rfl,hds⟩
    · exact hcs
    · rcases hends u (List.suffix_append (c :: cs) u) with hnil | hnot
      · exact absurd hnil hu
      · exact absurd hds hnot

theorem occursIn_append (h : isClear part ds = true) (cs : List Char) :
    occursIn part (cs ++ ds) = occursIn part cs := by
  rw [Bool.eq_iff_iff, occursIn_iff, occursIn_iff, infix_append_iff h]

end Text

namespace Pattern

variable {cs ds : List Char}

theorem actionIn_append (h : ∀ w ∈ leads, cs.isPrefixOf w.toList = false) :
    actionIn (cs ++ ds) = actionIn cs := by
  apply List.find?_congr
  intro a ha
  exact Text.isPrefixOf_append (h _ (List.mem_append_left _ (List.mem_map_of_mem ha))) ds

theorem tagIn_append (h : ∀ w ∈ leads, cs.isPrefixOf w.toList = false) :
    tagIn (cs ++ ds) = tagIn cs := by
  have hrequired := Text.isPrefixOf_append (h "added required " (by simp [leads])) ds
  have hoptional := Text.isPrefixOf_append (h "added optional " (by simp [leads])) ds
  have hremoved := Text.isPrefixOf_append (h "removed optional " (by simp [leads])) ds
  rw [tagIn, tagIn, hrequired, hoptional, hremoved]

theorem aspectIn_append (h : ∀ a ∈ aspectPhrases, Text.isClear a.1.toList ds = true) :
    aspectIn (cs ++ ds) = aspectIn cs := by
  have hfind : (aspectPhrases.find? fun a => Text.occursIn a.1.toList (cs ++ ds)) =
      aspectPhrases.find? fun a => Text.occursIn a.1.toList cs :=
    List.find?_congr fun a ha => Text.occursIn_append (h a ha) cs
  rw [aspectIn, aspectIn, hfind]

/-- What a template says is found in its letters once it is filled in. -/
theorem said_of_letters {template : String} {bindings : List PatternVariable}
    (h : (expand template bindings).toList = cs) :
    (meaning template bindings).action =
      (actionIn cs).or ((aspectIn cs).map fun _ => .modified) ∧
    (meaning template bindings).aspect = (aspectIn cs).map (·.1) ∧
    (meaning template bindings).impact = (aspectIn cs).map (·.2) ∧
    (meaning template bindings).tag = tagIn cs := by
  have hactions : leadingAction? (expand template bindings) = actionIn cs := by rw [← h]; rfl
  have htags : leadingTag? (expand template bindings) = tagIn cs := by rw [← h]; rfl
  have haspects : aspectIn cs = (aspectPhrases.find? fun a =>
      Text.contains (expand template bindings) a.1).map (·.2) := by rw [← h]; rfl
  simp only [meaning, hactions, htags, haspects, Option.map_map]
  refine ⟨?_,rfl,rfl,trivial⟩
  cases actionIn cs <;> rfl

end Pattern

def Wording.rule (w : Wording) (target : Target) (c : Option Intent.Restriction)
    (returns : Option String) (description : Value) : DimensionalRule where
  returns := returns
  action := [w.action.name]
  target := [target.name]
  aspect := (w.aspect.map (·.1.name)).toList
  impact := (w.aspect.map (·.2.name)).toList
  nodeKind := Intent.Restriction.kinds c
  tags := (w.tag.map Tag.name).toList
  notTags := []
  nested := Intent.Restriction.nested c
  description := description

namespace Intent

/-- A phrase says the same of what happened under any restriction. -/
theorem exists_wording {p : Phrase} (hp : p ∈ phrases) (c : Option Restriction)
    (returns : Option String) (description : Value) :
    ∃ w ∈ Wording.all, w.template = p.template ∧
      Pattern.dimensions (meaning p c) returns description = w.rule p.target c returns description := by
  obtain ⟨w,hw,htemplate,haspect,haction,htag⟩ := (regular_of_mem p hp).worded
  have hleads := (regular_of_mem p hp).leads
  have hclear := (regular_tail c).2
  obtain ⟨hactions,haspects,himpacts,htags⟩ :=
    Pattern.said_of_letters (toList_expand_pattern hp c none .null)
  rw [Pattern.actionIn_append hleads, Pattern.aspectIn_append hclear, haspect, haction] at hactions
  rw [Pattern.aspectIn_append hclear, haspect] at haspects himpacts
  rw [Pattern.tagIn_append hleads, htag] at htags
  rw [← meaning] at hactions haspects himpacts htags
  have htarget := Pattern.nonEmpty_of_isTarget (Pattern.isTarget_name p.target)
  refine ⟨w,hw,htemplate,?_⟩
  simp only [Pattern.dimensions, Wording.rule, hactions, haspects, himpacts, htags, kinds_meaning,
    nested_meaning hp, target_meaning, htarget, Option.map_map]
  rfl

end Intent

end ApiRelease
