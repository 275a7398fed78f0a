import ApiRelease.Proofs.Phrases
import ApiRelease.Proofs.Templates
import Mathlib.Data.List.Nodup

/-! # The language of intents

An intent says a known phrase, alone or restricted: to what lies inside a declaration,
to what does not, or to one kind of declaration. The texts that say so are read, and no
others. Each of them is read as a pattern that compiles without errors or warnings,
with the restriction in its dimensions, so that no intent is lost on the way down.
-/
namespace ApiRelease

namespace Intent

theorem isNodeKind_name (k : NodeKind) : isNodeKind k.name = true := by
  have h : (Vocabulary.parse? k.name : Option NodeKind) = some k := Vocabulary.parse?_name k
  rw [isNodeKind, h, Option.isSome_some]

theorem isNestedCondition_kind (k : NodeKind) : isNestedCondition k.name = false := by
  cases k <;> decide

inductive Says : String → Phrase → Option Restriction → Prop
  | plain {p : Phrase} (hp : p ∈ phrases) : Says p.text p none
  | nested {p : Phrase} (hp : p ∈ phrases) (keyword : Keyword) (condition : String)
      (hc : condition ∈ nestedConditions) :
      Says (p.text ++ " " ++ keyword.name ++ " " ++ condition) p (some (.inside keyword))
  | kind {p : Phrase} (hp : p ∈ phrases) (kind : NodeKind) :
      Says (p.text ++ " when " ++ kind.name) p (some (.ofKind kind))

theorem Says.mem {text : String} {p : Phrase} {c : Option Restriction} (h : Says text p c) :
    p ∈ phrases := by
  cases h <;> assumption

/-! ## Texts taken apart -/

def Unkeyed (cs : List Char) : Prop := ¬ [' ', 'w', 'h'] <:+: cs ∧ ¬ [' ', 'u', 'n'] <:+: cs

theorem Unkeyed.tail {c : Char} {cs : List Char} (h : Unkeyed (c :: cs)) : Unkeyed cs :=
  ⟨fun hw => h.1 (List.infix_cons hw), fun hu => h.2 (List.infix_cons hu)⟩

theorem Unkeyed.not_prefix {cs : List Char} (h : Unkeyed cs) :
    " when ".toList.isPrefixOf cs = false ∧ " unless ".toList.isPrefixOf cs = false := by
  simp only [Bool.eq_false_iff, ne_eq, List.isPrefixOf_iff_prefix]
  constructor
  · intro hw
    have hp : [' ', 'w', 'h'] <+: cs := .trans ⟨"en ".toList,rfl⟩ hw
    exact h.1 hp.isInfix
  · intro hu
    have hp : [' ', 'u', 'n'] <+: cs := .trans ⟨"less ".toList,rfl⟩ hu
    exact h.2 hp.isInfix

theorem splitCondition_of_unkeyed {base cs : List Char} (h : Unkeyed cs) :
    splitCondition base cs = none := by
  induction cs generalizing base with
  | nil => rfl
  | cons c rest ih =>
    obtain ⟨hw,hu⟩ := h.not_prefix
    simp only [splitCondition, hw, hu, Bool.and_false, Bool.false_eq_true, if_false]
    exact ih h.tail

theorem splitCondition_keyword {base : List Char} (hb : base ≠ []) (keyword : Keyword)
    (condition : List Char) :
    splitCondition base (' ' :: (keyword.name.toList ++ ' ' :: condition)) =
    some (base.reverse, keyword, condition) := by
  have hb : base.isEmpty = false := by simpa using hb
  match keyword with
  | .when =>
    rw [splitCondition, if_pos (by rw [hb]; rfl)]
    rfl
  | .unless =>
    rw [splitCondition, if_neg (Bool.eq_false_iff.mp (by rw [hb]; rfl)), if_pos (by rw [hb]; rfl)]
    rfl

/-- No keyword begins inside a phrase, also not one that ends after it. -/
theorem Unkeyed.not_prefix_append {c : Char} {cs : List Char} (h : Unkeyed (c :: cs))
    (rest : List Char) :
    " when ".toList.isPrefixOf (c :: cs ++ ' ' :: rest) = false ∧
    " unless ".toList.isPrefixOf (c :: cs ++ ' ' :: rest) = false := by
  match cs with
  | [] =>
    constructor <;> simp [List.isPrefixOf]
  | [d] =>
    constructor <;> simp [List.isPrefixOf]
  | d :: e :: more =>
    simp only [Bool.eq_false_iff, ne_eq, List.isPrefixOf_iff_prefix]
    constructor
    · intro hw
      have hp : [' ', 'w', 'h'] <+: c :: d :: e :: (more ++ ' ' :: rest) :=
        .trans ⟨"en ".toList,rfl⟩ hw
      simp only [List.cons_prefix_cons] at hp
      obtain ⟨rfl,rfl,rfl,-⟩ := hp
      exact h.1 ⟨[],more,rfl⟩
    · intro hu
      have hp : [' ', 'u', 'n'] <+: c :: d :: e :: (more ++ ' ' :: rest) :=
        .trans ⟨"less ".toList,rfl⟩ hu
      simp only [List.cons_prefix_cons] at hp
      obtain ⟨rfl,rfl,rfl,-⟩ := hp
      exact h.2 ⟨[],more,rfl⟩

theorem splitCondition_append {base cs : List Char} (h : Unkeyed cs) (hne : base ++ cs ≠ [])
    (keyword : Keyword) (condition : List Char) :
    splitCondition base (cs ++ ' ' :: (keyword.name.toList ++ ' ' :: condition)) =
    some (base.reverse ++ cs, keyword, condition) := by
  induction cs generalizing base with
  | nil =>
    rw [List.append_nil] at hne
    simpa using splitCondition_keyword hne keyword condition
  | cons c cs ih =>
    obtain ⟨hw,hu⟩ := h.not_prefix_append (keyword.name.toList ++ ' ' :: condition)
    rw [List.cons_append] at hw hu ⊢
    simp only [splitCondition, hw, hu, Bool.and_false, Bool.false_eq_true, if_false]
    rw [ih h.tail (by simp)]
    simp

/-- The parts of a text make up the text. -/
theorem eq_of_splitCondition {base cs b condition : List Char} {keyword : Keyword}
    (h : splitCondition base cs = some (b, keyword, condition)) :
    base.reverse ++ cs = b ++ ' ' :: (keyword.name.toList ++ ' ' :: condition) := by
  induction cs generalizing base with
  | nil => simp [splitCondition] at h
  | cons c rest ih =>
    rw [splitCondition] at h
    split_ifs at h with hw hu
    · obtain ⟨t,ht⟩ := List.isPrefixOf_iff_prefix.mp (Bool.and_eq_true_iff.mp hw).2
      rw [← ht] at h ⊢
      cases h
      rfl
    · obtain ⟨t,ht⟩ := List.isPrefixOf_iff_prefix.mp (Bool.and_eq_true_iff.mp hu).2
      rw [← ht] at h ⊢
      cases h
      rfl
    · simpa using ih h

/-! ## Reading -/

variable {e : String} {p : Phrase} {c : Option Restriction} {returns : Option String}
  {description : Value}

theorem unkeyed_of_mem (hp : p ∈ phrases) : Unkeyed p.text.toList := by
  obtain ⟨hw,hu⟩ := (regular_of_mem p hp).unkeyed
  rw [Bool.eq_false_iff, ne_eq, Text.occursIn_iff] at hw hu
  exact ⟨hw,hu⟩

theorem text_ne_nil (hp : p ∈ phrases) : p.text.toList ≠ [] := by
  intro hnil
  apply (regular_of_mem p hp).settled.2
  rw [hnil]
  rfl

theorem phrase?_text (hp : p ∈ phrases) : phrase? p.text = some p := by
  have hnodup : (phrases.map (·.text)).Nodup := by decide
  cases hq : phrase? p.text with
  | none => simpa using List.find?_eq_none.mp hq p hp
  | some q =>
    have htext : q.text = p.text := by simpa using List.find?_some hq
    rw [List.inj_on_of_nodup_map hnodup (List.mem_of_find?_eq_some hq) hp htext]

theorem parts_of_plain (hp : p ∈ phrases) (he : normalize e = p.text) : parts e = ⟨p.text, none⟩ := by
  simp only [parts, he, splitCondition_of_unkeyed (unkeyed_of_mem hp)]

theorem toList_conditional (text keyword condition : String) :
    (text ++ " " ++ keyword ++ " " ++ condition).toList =
    text.toList ++ ' ' :: (keyword.toList ++ ' ' :: condition.toList) := by
  simp

theorem when_kind (text : String) (k : NodeKind) :
    text ++ " when " ++ k.name = text ++ " " ++ Keyword.when.name ++ " " ++ k.name := by
  have hw : " when " = " " ++ "when" ++ " " := rfl
  rw [hw, Keyword.name, String.append_assoc, String.append_assoc, String.append_assoc,
    String.append_assoc, String.append_assoc, String.append_assoc]

theorem parts_of_condition (hp : p ∈ phrases) {keyword : Keyword} {condition : String}
    (he : normalize e = p.text ++ " " ++ keyword.name ++ " " ++ condition) :
    parts e = ⟨p.text, some (keyword, condition)⟩ := by
  have hsplit : splitCondition []
      (p.text.toList ++ ' ' :: (keyword.name.toList ++ ' ' :: condition.toList)) =
      some (p.text.toList, keyword, condition.toList) :=
    splitCondition_append (unkeyed_of_mem hp) (text_ne_nil hp) keyword condition.toList
  rw [parts, he, toList_conditional, hsplit]
  simp only [String.ofList_toList]

theorem normalize_of_parts_none (h : (parts e).condition = none) : normalize e = (parts e).base := by
  unfold parts at h ⊢
  cases hs : splitCondition [] (normalize e).toList <;> simp_all

theorem normalize_of_parts_some {keyword : Keyword} {condition : String}
    (h : (parts e).condition = some (keyword, condition)) :
    normalize e = (parts e).base ++ " " ++ keyword.name ++ " " ++ condition := by
  unfold parts at h ⊢
  cases hs : splitCondition [] (normalize e).toList with
  | none => simp [hs] at h
  | some s =>
    obtain ⟨base,k,w⟩ := s
    simp only [hs, Option.some.injEq, Prod.mk.injEq] at h ⊢
    obtain ⟨rfl,rfl⟩ := h
    apply String.toList_injective
    have hchars := eq_of_splitCondition hs
    rw [List.reverse_nil, List.nil_append] at hchars
    rw [toList_conditional, String.toList_ofList, String.toList_ofList, hchars]

theorem conditionError_eq_none_iff {keyword : Keyword} {condition : String} :
    conditionError keyword condition = none ↔
    condition ∈ nestedConditions ∨ keyword = .when ∧ ∃ k : NodeKind, condition = k.name := by
  have hnested : isNestedCondition condition = true ↔ condition ∈ nestedConditions := by
    simp [isNestedCondition]
  have hkind : isNodeKind condition = true ↔ ∃ k : NodeKind, condition = k.name := by
    constructor
    · intro h
      obtain ⟨k,hk⟩ := Option.isSome_iff_exists.mp h
      exact ⟨k,(Vocabulary.name_of_parse? hk).symm⟩
    · rintro ⟨k,rfl⟩
      exact isNodeKind_name k
  rw [← hnested, ← hkind]
  unfold conditionError
  match keyword with
  | .when => cases isNestedCondition condition <;> cases isNodeKind condition <;> simp
  | .unless => cases isNestedCondition condition <;> simp

/-- What is valid says something, and only that. -/
theorem isValid_iff : isValid e = true ↔ ∃ p c, Says (normalize e) p c := by
  constructor
  · intro h
    simp only [isValid, Bool.and_eq_true] at h
    obtain ⟨hp,hc⟩ := h
    obtain ⟨p,hp⟩ := Option.isSome_iff_exists.mp hp
    have hmem := List.mem_of_find?_eq_some hp
    have htext : p.text = (parts e).base := by simpa using List.find?_some hp
    cases hcond : (parts e).condition with
    | none =>
      rw [normalize_of_parts_none hcond, ← htext]
      exact ⟨p,none,.plain hmem⟩
    | some condition =>
      obtain ⟨keyword,w⟩ := condition
      rw [normalize_of_parts_some hcond, ← htext]
      rw [hcond, Option.isNone_iff_eq_none, conditionError_eq_none_iff] at hc
      rcases hc with hw | ⟨rfl,k,rfl⟩
      · exact ⟨p,some (.inside keyword),.nested hmem keyword w hw⟩
      · rw [← when_kind]
        exact ⟨p,some (.ofKind k),.kind hmem k⟩
  · rintro ⟨p,c,h⟩
    generalize hn : normalize e = text at h
    cases h with
    | plain hp => simp [isValid, parts_of_plain hp hn, phrase?_text hp]
    | nested hp keyword condition hw =>
      have herror : conditionError keyword condition = none := conditionError_eq_none_iff.mpr (Or.inl hw)
      simp [isValid, parts_of_condition hp hn, phrase?_text hp, herror]
    | kind hp k =>
      have herror : conditionError .when k.name = none :=
        conditionError_eq_none_iff.mpr (Or.inr ⟨rfl,k,rfl⟩)
      rw [when_kind] at hn
      simp [isValid, parts_of_condition hp hn, phrase?_text hp, herror]

theorem conditioned_of_nested (p : Phrase) (keyword : Keyword) {condition : String}
    (h : condition ∈ nestedConditions) :
    conditioned p (some (keyword, condition)) =
    (p.template ++ " " ++ keyword.name ++ " " ++ slot "condition",
      [⟨"target", p.target.name, .target⟩, ⟨"condition", "nested", .condition⟩]) := by
  have hnested : isNestedCondition condition = true := by simpa [isNestedCondition] using h
  simp [conditioned, hnested]

theorem conditioned_of_kind (p : Phrase) (keyword : Keyword) (k : NodeKind) :
    conditioned p (some (keyword, k.name)) =
    (p.template ++ " for " ++ slot "nodeKind",
      [⟨"target", p.target.name, .target⟩, ⟨"nodeKind", k.name, .nodeKind⟩]) := by
  simp [conditioned, isNestedCondition_kind]

def pattern (p : Phrase) (c : Option Restriction) (returns : Option String) (description : Value) :
    PatternRule where
  template := (conditioned p (c.map (·.condition))).1
  bindings := (conditioned p (c.map (·.condition))).2
  returns := returns
  description := description

theorem read_of_said (h : Says (normalize e) p c) (hr : isRelease returns = true) :
    read ⟨e, returns, description⟩ = ⟨some (pattern p c returns description), [], []⟩ := by
  generalize hn : normalize e = text at h
  cases h with
  | plain hp => simp [read, hr, parts_of_plain hp hn, phrase?_text hp, pattern]
  | nested hp keyword condition hw =>
    have herror : conditionError keyword condition = none := conditionError_eq_none_iff.mpr (Or.inl hw)
    have hword : "nested" ∈ nestedConditions := by decide
    simp [read, hr, parts_of_condition hp hn, phrase?_text hp, herror, pattern, Restriction.condition,
      conditioned_of_nested p keyword hw, conditioned_of_nested p keyword hword]
  | kind hp k =>
    have herror : conditionError .when k.name = none :=
      conditionError_eq_none_iff.mpr (Or.inr ⟨rfl,k,rfl⟩)
    rw [when_kind] at hn
    simp [read, hr, parts_of_condition hp hn, phrase?_text hp, herror, pattern, Restriction.condition]

theorem isSome_read_iff (rule : IntentRule) :
    (read rule).pattern.isSome = (isRelease rule.returns && isValid rule.expression) := by
  simp only [read, isValid]
  cases isRelease rule.returns with
  | false => simp [Reading.failed]
  | true =>
    cases phrase? (parts rule.expression).base with
    | none => simp [Reading.failed]
    | some p =>
      cases hc : (parts rule.expression).condition with
      | none => simp
      | some condition =>
        cases he : conditionError condition.1 condition.2 <;> simp [he, Reading.failed]

end Intent

end ApiRelease
