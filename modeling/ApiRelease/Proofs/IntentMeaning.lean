import ApiRelease.Proofs.Filling
import ApiRelease.Proofs.IntentLanguage
import ApiRelease.Proofs.Lowering

/-! # What intents compile to

The template of a phrase has one placeholder, that of its target, and none of its
letters can be taken for a keyword. So the pattern of an intent is filled in without a
rest, its keyword is the one that was written, and its dimensions hold the restriction.
-/
namespace ApiRelease

theorem Intent.braces_of_mem {p : Phrase} (hp : p ∈ Intent.phrases) :
    '\x7b' ∉ p.lead ∧ '\x7b' ∉ p.target.name.toList ∧ '\x7b' ∉ p.rest := by
  simpa [Phrase.stem] using (regular_of_mem p hp).braces

/-! ## Templates in pieces -/

namespace Pattern

open Piece

def restrictions : List (String × String) :=
  [("when", "condition"), ("unless", "condition"), ("for", "nodeKind")]

def ending (word : String) (condition after : List Char) : List Char :=
  ' ' :: (word.toList ++ ' ' :: (condition ++ after))

def targetPieces (p : Intent.Phrase) : List Piece := [text p.lead, hole "target", text p.rest]

def endingPieces (x : String × String) (after : List Char) : List Piece :=
  [text (' ' :: (x.1.toList ++ [' '])), hole x.2, text after]

theorem render_targetPieces (hp : p ∈ Intent.phrases) : render (targetPieces p) = p.template.toList := by
  rw [(Intent.regular_of_mem p hp).template]
  simp [targetPieces, render, chars]

theorem render_endingPieces (x : String × String) (after : List Char) :
    render (endingPieces x after) = ending x.1 (slot x.2).toList after := by
  simp [endingPieces, render, chars, ending]

theorem render_settled_targetPieces (p : Intent.Phrase) (bindings : List PatternVariable) :
    render ((targetPieces p).map (settled bindings)) =
    p.lead ++ (settled bindings (hole "target")).chars ++ p.rest := by
  simp [targetPieces, render, settled, chars]

theorem render_settled_endingPieces (x : String × String) (after : List Char)
    (bindings : List PatternVariable) : render ((endingPieces x after).map (settled bindings)) =
    ending x.1 (settled bindings (hole x.2)).chars after := by
  simp [endingPieces, render, settled, chars, ending]

theorem clean_targetPieces {p : Intent.Phrase} (hp : p ∈ Intent.phrases) :
    ∀ q ∈ targetPieces p, q.Clean := by
  obtain ⟨hlead,-,hrest⟩ := Intent.braces_of_mem hp
  have hname : '\x7b' ∉ "target".toList ∧ '\x7d' ∉ "target".toList := by decide
  simp only [targetPieces, List.forall_mem_cons, List.not_mem_nil, false_imp_iff, implies_true,
    and_true]
  exact ⟨hlead,hname,hrest⟩

theorem clean_of_restriction : ∀ x ∈ restrictions, (hole x.2).Clean := by
  have hbraces : ∀ x ∈ restrictions, '\x7b' ∉ x.2.toList ∧ '\x7d' ∉ x.2.toList := by decide
  exact hbraces

theorem clean_endingPieces {x : String × String} (hx : x ∈ restrictions) {after : List Char}
    (hafter : '\x7b' ∉ after) : ∀ q ∈ endingPieces x after, q.Clean := by
  have hword : ∀ x ∈ restrictions, '\x7b' ∉ ' ' :: (x.1.toList ++ [' ']) := by decide
  simp only [endingPieces, List.forall_mem_cons, List.not_mem_nil, false_imp_iff, implies_true,
    and_true]
  exact ⟨hword x hx,clean_of_restriction x hx,hafter⟩

end Pattern

namespace Intent

open Pattern Pattern.Piece

variable {p : Phrase} {c : Option Restriction} {returns : Option String} {description : Value}

/-! ## The template -/

theorem pattern_none (p : Phrase) (returns : Option String) (description : Value) :
    pattern p none returns description =
    ⟨p.template, [⟨"target", p.target.name, .target⟩], returns, description⟩ := rfl

theorem pattern_inside (p : Phrase) (keyword : Keyword) (returns : Option String)
    (description : Value) : pattern p (some (.inside keyword)) returns description =
    ⟨p.template ++ " " ++ keyword.name ++ " " ++ slot "condition",
      [⟨"target", p.target.name, .target⟩, ⟨"condition", "nested", .condition⟩], returns,
      description⟩ := by
  have hword : "nested" ∈ nestedConditions := by decide
  simp [pattern, Restriction.condition, conditioned_of_nested p keyword hword]

theorem pattern_ofKind (p : Phrase) (k : NodeKind) (returns : Option String)
    (description : Value) : pattern p (some (.ofKind k)) returns description =
    ⟨p.template ++ " for " ++ slot "nodeKind",
      [⟨"target", p.target.name, .target⟩, ⟨"nodeKind", k.name, .nodeKind⟩], returns,
      description⟩ := by
  simp [pattern, Restriction.condition, conditioned_of_kind p .when k]

def pieces (p : Phrase) : Option Restriction → List Piece
  | none => targetPieces p
  | some (.inside keyword) => targetPieces p ++ endingPieces (keyword.name,"condition") []
  | some (.ofKind _) => targetPieces p ++ endingPieces ("for","nodeKind") []

theorem render_pieces (hp : p ∈ phrases) (c : Option Restriction) (returns : Option String)
    (description : Value) :
    (pattern p c returns description).template.toList = render (pieces p c) := by
  match c with
  | none => exact (render_targetPieces hp).symm
  | some (.inside keyword) =>
    rw [pattern_inside, toList_conditional, pieces, render_append, render_targetPieces hp,
      render_endingPieces]
    simp [Pattern.ending]
  | some (.ofKind k) =>
    rw [pattern_ofKind, pieces, render_append, render_targetPieces hp, render_endingPieces]
    simp [Pattern.ending]

theorem clean_pieces (hp : p ∈ phrases) (c : Option Restriction) : ∀ q ∈ pieces p c, q.Clean := by
  have htarget := clean_targetPieces hp
  match c with
  | none => exact htarget
  | some (.inside keyword) =>
    have hmem : (keyword.name,"condition") ∈ restrictions := by cases keyword <;> decide
    exact List.forall_mem_append.mpr ⟨htarget,clean_endingPieces hmem List.not_mem_nil⟩
  | some (.ofKind k) =>
    have hmem : ("for","nodeKind") ∈ restrictions := by decide
    exact List.forall_mem_append.mpr ⟨htarget,clean_endingPieces hmem List.not_mem_nil⟩

theorem settled_pieces (p : Phrase) (c : Option Restriction) (returns : Option String)
    (description : Value) :
    render ((pieces p c).map (settled (pattern p c returns description).bindings)) =
    p.stem ++ Restriction.tail c := by
  match c with
  | none =>
    rw [pattern_none, pieces, render_settled_targetPieces]
    exact (List.append_nil _).symm
  | some (.inside keyword) =>
    have htail : ending keyword.name "nested".toList [] = Restriction.tail (some (.inside keyword)) :=
      rfl
    rw [pattern_inside, pieces, List.map_append, render_append, render_settled_targetPieces,
      render_settled_endingPieces]
    exact congrArg (p.stem ++ ·) htail
  | some (.ofKind k) =>
    have htail : ending "for" k.name.toList [] = Restriction.tail (some (.ofKind k)) := by
      simp [ending, Restriction.tail]
    rw [pattern_ofKind, pieces, List.map_append, render_append, render_settled_targetPieces,
      render_settled_endingPieces]
    exact congrArg (p.stem ++ ·) htail

theorem named_bindings (p : Phrase) (c : Option Restriction) (returns : Option String)
    (description : Value) : ∀ v ∈ (pattern p c returns description).bindings, v.Named := by
  have htarget : (PatternVariable.mk "target" p.target.name .target).Named :=
    PatternVariable.named_text (by decide) (by decide) ..
  match c with
  | none => exact List.forall_mem_singleton.mpr htarget
  | some (.inside keyword) =>
    rw [pattern_inside]
    exact List.forall_mem_cons.mpr ⟨htarget,List.forall_mem_singleton.mpr
      (PatternVariable.named_text (by decide) (by decide) ..)⟩
  | some (.ofKind k) =>
    rw [pattern_ofKind]
    exact List.forall_mem_cons.mpr ⟨htarget,List.forall_mem_singleton.mpr
      (PatternVariable.named_text (by decide) (by decide) ..)⟩

/-- Filled in, the pattern of an intent is its phrase's followed by its restriction. -/
theorem toList_expand_pattern (hp : p ∈ phrases) (c : Option Restriction)
    (returns : Option String) (description : Value) :
    (Pattern.expand (pattern p c returns description).template
      (pattern p c returns description).bindings).toList =
    p.stem ++ Restriction.tail c := by
  have hsettled := settled_pieces p c returns description
  have hbrace : '\x7b' ∉ p.stem ++ Restriction.tail c :=
    List.not_mem_append (regular_of_mem p hp).braces (regular_tail c).1
  have hpattern : hole "pattern" ∉ pieces p c := by
    match c with
    | none => simp [pieces, targetPieces]
    | some (.inside keyword) => simp [pieces, targetPieces, endingPieces]
    | some (.ofKind k) => simp [pieces, targetPieces, endingPieces]
  rw [← hsettled] at hbrace ⊢
  have hsafe := safe_of_render (clean_pieces hp c) hbrace
  exact toList_expand (named_bindings p c returns description) hsafe hpattern (render_pieces hp ..)

theorem placeholders_pattern (hp : p ∈ phrases) (c : Option Restriction)
    (returns : Option String) (description : Value) :
    Pattern.placeholders (Pattern.expand (pattern p c returns description).template
      (pattern p c returns description).bindings) = [] := by
  apply Pattern.placeholders_of_brace
  rw [toList_expand_pattern hp]
  exact List.not_mem_append (regular_of_mem p hp).braces (regular_tail c).1

def Restriction.keyword : Option Restriction → Option Keyword
  | some (inside keyword) => some keyword
  | _ => none

/-- Only what lies inside or outside is written with a keyword. -/
theorem Restriction.keyword_or_nested (c : Option Restriction) :
    Restriction.keyword c = none ∨ ∃ b, Restriction.nested c = some b := by
  match c with
  | none => exact Or.inl rfl
  | some (.inside keyword) => exact Or.inr ⟨_,rfl⟩
  | some (.ofKind k) => exact Or.inl rfl

/-- The keyword of a template is the one that its restriction was written with. -/
theorem keyword?_pattern (hp : p ∈ phrases) (c : Option Restriction)
    (returns : Option String) (description : Value) :
    Pattern.keyword? (pattern p c returns description).template = Restriction.keyword c := by
  obtain ⟨hh,hs,-⟩ := (regular_of_mem p hp).letters
  have habsent {template : String} (hh : 'h' ∉ template.toList) (hs : 's' ∉ template.toList) :
      Pattern.keyword? template = none := by
    have hw : Text.contains template " when " = false := Text.contains_of_letter (by decide) hh
    have hu : Text.contains template " unless " = false := Text.contains_of_letter (by decide) hs
    simp [Pattern.keyword?, hw, hu]
  match c with
  | none => exact habsent hh hs
  | some (.ofKind k) =>
    rw [pattern_ofKind]
    apply habsent
    · have hf : 'h' ∉ " for ".toList ++ (slot "nodeKind").toList := by decide
      simpa [hh] using hf
    · have hf : 's' ∉ " for ".toList ++ (slot "nodeKind").toList := by decide
      simpa [hs] using hf
  | some (.inside .when) =>
    have hw : Text.contains (p.template ++ " " ++ Keyword.when.name ++ " " ++ slot "condition")
        " when " = true := by
      rw [Text.contains_iff, toList_conditional]
      exact ⟨p.template.toList,(slot "condition").toList,by simp [Keyword.name]⟩
    simp [pattern_inside, Pattern.keyword?, hw, Restriction.keyword]
  | some (.inside .unless) =>
    have hw : Text.contains (p.template ++ " " ++ Keyword.unless.name ++ " " ++ slot "condition")
        " when " = false := by
      apply Text.contains_of_letter (x := 'h') (by decide)
      have hs : 'h' ∉ Keyword.unless.name.toList ++ (slot "condition").toList := by decide
      rw [toList_conditional]
      simpa [hh] using hs
    have hu : Text.contains (p.template ++ " " ++ Keyword.unless.name ++ " " ++ slot "condition")
        " unless " = true := by
      rw [Text.contains_iff, toList_conditional]
      exact ⟨p.template.toList,(slot "condition").toList,by simp [Keyword.name]⟩
    simp [pattern_inside, Pattern.keyword?, hw, hu, Restriction.keyword]

/-! ## The dimensions -/

theorem valueOf?_target (p : Phrase) (c : Option Restriction) (returns : Option String)
    (description : Value) :
    Pattern.valueOf? (pattern p c returns description).bindings .target = some p.target.name := by
  match c with
  | none => rfl
  | some (.inside keyword) => rw [pattern_inside]; rfl
  | some (.ofKind k) => rw [pattern_ofKind]; rfl

theorem valueOf?_nodeKind (p : Phrase) (c : Option Restriction) (returns : Option String)
    (description : Value) :
    Pattern.valueOf? (pattern p c returns description).bindings .nodeKind =
    (Restriction.kinds c).head? := by
  match c with
  | none => rfl
  | some (.inside keyword) => rw [pattern_inside]; rfl
  | some (.ofKind k) => rw [pattern_ofKind]; rfl

theorem condition_pattern (p : Phrase) (c : Option Restriction) (returns : Option String)
    (description : Value) :
    (Pattern.nonEmpty (Pattern.valueOf? (pattern p c returns description).bindings
      .condition)).getD "nested" = "nested" := by
  match c with
  | none => rfl
  | some (.inside keyword) => rw [pattern_inside]; rfl
  | some (.ofKind k) => rw [pattern_ofKind]; rfl

def meaning (p : Phrase) (c : Option Restriction) : Pattern.Meaning :=
  Pattern.meaning (pattern p c none .null).template (pattern p c none .null).bindings

theorem target_meaning (p : Phrase) (c : Option Restriction) :
    (meaning p c).target = some p.target.name :=
  valueOf?_target p c none .null

theorem nodeKind_meaning (p : Phrase) (c : Option Restriction) :
    (meaning p c).nodeKind = (Restriction.kinds c).head? := by
  rw [meaning, Pattern.nodeKind_meaning (condition_pattern p c none .null), valueOf?_nodeKind]

theorem nested_meaning (hp : p ∈ phrases) (c : Option Restriction) :
    (meaning p c).nested = Restriction.nested c := by
  rw [meaning, Pattern.nested_meaning (condition_pattern p c none .null), keyword?_pattern hp]
  match c with
  | none => rfl
  | some (.inside keyword) => rfl
  | some (.ofKind k) => rfl

/-- The pattern of an intent compiles to the dimensions that it means, without a word of
warning. -/
theorem compile_pattern (hp : p ∈ phrases) (c : Option Restriction)
    (hr : isRelease returns = true) (description : Value) :
    Pattern.compile (pattern p c returns description) =
    ⟨some (Pattern.dimensions (meaning p c) returns description), [], []⟩ := by
  have hkind (k : String) (hk : (meaning p c).nodeKind = some k) : isNodeKind k = true := by
    rw [nodeKind_meaning] at hk
    match c with
    | some (.ofKind kind) =>
      obtain rfl := Option.some.inj hk
      exact isNodeKind_name kind
  have hnone : Pattern.errorsOf (pattern p c returns description) (meaning p c) = [] := by
    rw [Pattern.errorsOf_eq_nil_iff_of_target (target_meaning p c)]
    exact ⟨hr,Pattern.isTarget_name p.target,hkind⟩
  have hwarnings : Pattern.warningsOf (pattern p c returns description) (meaning p c) = [] := by
    have hk : (meaning p c).keyword = Restriction.keyword c := keyword?_pattern hp c none .null
    rw [Pattern.warningsOf, placeholders_pattern hp, hk, nested_meaning hp]
    rcases Restriction.keyword_or_nested c with hnone | ⟨b,hb⟩
    · simp [hnone]
    · simp [hb]
  have hmeaning : Pattern.meaning (pattern p c returns description).template
      (pattern p c returns description).bindings = meaning p c := rfl
  rw [← hmeaning] at hnone hwarnings
  rw [Pattern.compile_of_errors_nil hnone, hwarnings, hmeaning]
  rfl

theorem kinds_meaning (p : Phrase) (c : Option Restriction) :
    (Pattern.nonEmpty (meaning p c).nodeKind).toList = Restriction.kinds c := by
  rw [nodeKind_meaning]
  match c with
  | none => rfl
  | some (.inside keyword) => rfl
  | some (.ofKind k) =>
    have hk := Pattern.nonEmpty_of_isNodeKind (isNodeKind_name k)
    simp [Restriction.kinds, hk]

theorem isRelease_name (r : Release) : isRelease (some r.name) = true := by
  have h : (Vocabulary.parse? r.name : Option Release) = some r := Vocabulary.parse?_name r
  simp [isRelease, Release.isName, h]

theorem accepts_of_said {e : String} (h : Says (normalize e) p c) (hr : isRelease returns = true)
    (description : Value) : Policy.Accepts (.intent ⟨e, returns, description⟩) := by
  have hread : read ⟨e, returns, description⟩ = ⟨some (pattern p c returns description), [], []⟩ :=
    read_of_said h hr
  apply Policy.accepts_iff_dimensionsOf.mpr
  refine ⟨Pattern.dimensions (meaning p c) returns description,?_,?_⟩
  · simp only [Policy.dimensionsOf, hread, Policy.dimensionsOf.compilePattern,
      compile_pattern h.mem c hr description]
  · exact Option.isSome_of_any hr

/-- Just the texts of the language are read, whatever the release type, and what is read
compiles without a warning to a rule that holds the restriction. -/
theorem read_exactly (e : String) (r : Release) (description : Value) :
    (read ⟨e, some r.name, description⟩).pattern.isSome = isValid e ∧
    (isValid e = true ↔ ∃ p c, Says (normalize e) p c) ∧
    ∀ p c, Says (normalize e) p c → ∃ q d,
      read ⟨e, some r.name, description⟩ = ⟨some q, [], []⟩ ∧
      Pattern.compile q = ⟨some d, [], []⟩ ∧ d.returns = some r.name ∧
      d.nested = Restriction.nested c ∧ d.nodeKind = Restriction.kinds c ∧
      Policy.Accepts (.intent ⟨e, some r.name, description⟩) := by
  have hr := isRelease_name r
  refine ⟨?_,isValid_iff,?_⟩
  · rw [isSome_read_iff, hr, Bool.true_and]
  intro p c h
  have hread : read ⟨e, some r.name, description⟩ =
      ⟨some (pattern p c (some r.name) description), [], []⟩ := read_of_said h hr
  have hcompile := compile_pattern h.mem c hr description
  have hnested : (Pattern.dimensions (meaning p c) (some r.name) description).nested =
      Restriction.nested c := by
    rw [Pattern.dimensions, nested_meaning h.mem]
  have hkinds : (Pattern.dimensions (meaning p c) (some r.name) description).nodeKind =
      Restriction.kinds c := by
    rw [Pattern.dimensions, kinds_meaning]
  refine ⟨pattern p c (some r.name) description,_,hread,hcompile,rfl,hnested,hkinds,?_⟩
  exact accepts_of_said h hr description

theorem read_exactly_of_functions :
    isValid " Type  change is BREAKING when\tFunction" = true ∧ ∃ q d,
      read ⟨" Type  change is BREAKING when\tFunction", some Release.major.name, .null⟩ =
        ⟨some q, [], []⟩ ∧
      Pattern.compile q = ⟨some d, [], []⟩ ∧ d.returns = some Release.major.name ∧
      d.nested = none ∧ d.nodeKind = ["function"] ∧
      Policy.Accepts
        (.intent ⟨" Type  change is BREAKING when\tFunction", some Release.major.name, .null⟩) := by
  have hn : normalize " Type  change is BREAKING when\tFunction" =
      "type change is breaking" ++ " when " ++ NodeKind.function.name := by decide
  have hp : ⟨"type change is breaking", "modified \x7btarget\x7d", .exportItem⟩ ∈ phrases := by
    simp [phrases]
  have hsaid : Says (normalize " Type  change is BREAKING when\tFunction")
      ⟨"type change is breaking", "modified \x7btarget\x7d", .exportItem⟩
      (some (.ofKind .function)) := by
    rw [hn]
    exact .kind hp .function
  obtain ⟨-,hvalid,hread⟩ := read_exactly " Type  change is BREAKING when\tFunction" .major .null
  exact ⟨hvalid.mpr ⟨_,_,hsaid⟩,hread _ _ hsaid⟩

end Intent

end ApiRelease
