import ApiRelease.Proofs.IntentMeaning
import ApiRelease.Proofs.Wording

/-! # Rules that stay in force when they are moved

A rule that is moved down, or not at all, stays accepted. On the way up it is put in
other terms, and these are not always known: a pattern names the first target and the
first kind of declaration that a dimensional rule lists, and the words of an intent are
made up where no phrase is listed for the pattern.
-/
namespace ApiRelease

namespace Policy

theorem accepts_intent_iff {i : IntentRule} :
    Accepts (.intent i) ↔ isRelease i.returns = true ∧ Intent.isValid i.expression = true := by
  constructor
  · intro h
    obtain ⟨d,hd,-⟩ := accepts_iff_dimensionsOf.mp h
    cases hp : (Intent.read i).pattern with
    | none => simp [dimensionsOf, hp] at hd
    | some p =>
      have hread := Intent.isSome_read_iff i
      rw [hp, Option.isSome_some] at hread
      exact Bool.and_eq_true_iff.mp hread.symm
  · rintro ⟨hr,hvalid⟩
    obtain ⟨p,c,hsaid⟩ := Intent.isValid_iff.mp hvalid
    exact Intent.accepts_of_said hsaid hr i.description

theorem accepts_pattern_iff {p : PatternRule} :
    Accepts (.pattern p) ↔ Pattern.errorsOf p (Pattern.meaning p.template p.bindings) = [] := by
  rw [accepts_iff_dimensionsOf]
  by_cases h : Pattern.errorsOf p (Pattern.meaning p.template p.bindings) = []
  · have hr : isRelease p.returns = true := (Pattern.errorsOf_eq_nil_iff.mp h).1
    have hsome : p.returns.isSome = true := Option.isSome_of_any hr
    simp [dimensionsOf, dimensionsOf.compilePattern, Pattern.compile_of_errors_nil h, h,
      Pattern.dimensions, hsome]
  · simp [dimensionsOf, dimensionsOf.compilePattern, Pattern.dimensional_of_errors h, h]

/-- It is enough that the target exists and that no kind of declaration is named. -/
theorem accepts_pattern_of_target {p : PatternRule} {t : Target} (hr : isRelease p.returns = true)
    (ht : Pattern.valueOf? p.bindings .target = some t.name)
    (hk : Pattern.valueOf? p.bindings .nodeKind = none) : Accepts (.pattern p) := by
  rw [accepts_pattern_iff, Pattern.errorsOf_eq_nil_iff_of_target ht]
  exact ⟨hr,Pattern.isTarget_name t,fun k => Pattern.isNodeKind_of_meaning hk⟩

end Policy

def DimensionalRule.FirstKnown (d : DimensionalRule) : Prop :=
  Pattern.isTarget (d.target.headD Target.exportItem.name) = true ∧
  ∀ k ∈ d.nodeKind.head?, Intent.isNodeKind k = true

namespace Catalogue

variable {d : DimensionalRule} {template description : String}

theorem target_of_mem : ∀ e ∈ entries, Text.contains e.template (slot "target") = true := by
  simp only [Text.contains, Text.toList_eq_letters]
  decide

theorem target_actionTemplate (action : String) :
    Text.contains (actionTemplate action) (slot "target") = true := by
  have hends (s : String) : Text.contains (s ++ " " ++ slot "target") (slot "target") = true := by
    rw [Text.contains_iff]
    exact ⟨(s ++ " ").toList,[],by simp⟩
  unfold actionTemplate
  split
  · exact hends _
  · exact hends _

theorem mem_of_mem_firstOfTemplate {s : Entry × Float} {ss : List (Entry × Float)}
    (h : s ∈ firstOfTemplate ss) : s ∈ ss := by
  induction ss with
  | nil => exact h
  | cons t rest ih =>
    rcases List.mem_cons.mp h with rfl | h
    · exact List.mem_cons_self
    · exact List.mem_cons_of_mem t (ih (List.mem_of_mem_filter h))

theorem satisfied_of_mem_ranking {s : Entry × Float} (h : s ∈ ranking d) :
    s.1 ∈ entries ∧ s.1.satisfiedBy d = true := by
  have hsorted := List.mem_mergeSort.mp (mem_of_mem_firstOfTemplate h)
  obtain ⟨e,he,rfl⟩ := List.mem_map.mp hsorted
  exact List.mem_filter.mp he

theorem entry_of_mem_ranking {s : Entry × Float} (h : s ∈ ranking d) : s.1 ∈ entries :=
  (satisfied_of_mem_ranking h).1

theorem fallback_patternFor (d : DimensionalRule) : ∃ description,
    (fallback d).pattern = patternFor d (fallback d).pattern.template description ∧
    Text.contains (fallback d).pattern.template (slot "target") = true := by
  unfold fallback
  cases d.action with
  | nil => exact ⟨_,rfl,target_actionTemplate Action.modified.name⟩
  | cons action rest => exact ⟨_,rfl,target_actionTemplate action⟩

theorem pattern_decompile? (h : isRelease d.returns = true) :
    (decompile? d).map (·.pattern) = some (match ranking d with
      | [] => (fallback d).pattern
      | best :: _ =>
        if best.2 < Scale.ratio 3 10 then (fallback d).pattern else entryPattern d best) := by
  unfold decompile?
  cases ranking d with
  | nil => simp [h]
  | cons best rest => by_cases hlow : best.2 < Scale.ratio 3 10 <;> simp [h, hlow]

theorem isRelease_of_decompile? {x : Decompiled} (h : decompile? d = some x) :
    isRelease d.returns = true := by
  by_contra hr
  simp [decompile?, hr] at h

/-- What is offered for a rule is made by its action alone or has the template of an entry
that it satisfies. -/
theorem offered_of_decompile? {x : Decompiled} (h : decompile? d = some x) :
    ∀ p ∈ x.pattern :: x.alternatives,
      p = (fallback d).pattern ∨ ∃ s ∈ ranking d, p = entryPattern d s := by
  have hfallback : ∀ p ∈ (fallback d).pattern :: (fallback d).alternatives,
      p = (fallback d).pattern := by
    have halone : (fallback d).alternatives = [] := by
      unfold fallback
      split <;> rfl
    rw [halone, List.forall_mem_singleton]
  intro p hp
  simp only [decompile?, isRelease_of_decompile? h, Bool.not_true, Bool.false_eq_true, if_false] at h
  cases hranking : ranking d with
  | nil =>
    rw [hranking] at h
    cases h
    exact Or.inl (hfallback p hp)
  | cons best rest =>
    rw [hranking] at h
    simp only at h
    split at h
    · cases h
      exact Or.inl (hfallback p hp)
    · cases h
      rcases List.mem_cons.mp hp with rfl | hp
      · exact Or.inr ⟨best,List.mem_cons_self,rfl⟩
      · obtain ⟨s,hs,rfl⟩ := List.mem_map.mp (List.mem_of_mem_take hp)
        exact Or.inr ⟨s,List.mem_cons_of_mem best (List.mem_of_mem_filter hs),rfl⟩

/-- A rule with a release type has a pattern, and it names a target. -/
theorem exists_patternFor (h : isRelease d.returns = true) : ∃ template description,
    (decompile? d).map (·.pattern) = some (patternFor d template description) ∧
    Text.contains template (slot "target") = true := by
  obtain ⟨description,hfallback,htarget⟩ := fallback_patternFor d
  rw [pattern_decompile? h]
  cases hr : ranking d with
  | nil => exact ⟨_,_,congrArg some hfallback,htarget⟩
  | cons best rest =>
    have hbest : best.1 ∈ entries := entry_of_mem_ranking (hr ▸ List.mem_cons_self)
    by_cases hlow : best.2 < Scale.ratio 3 10
    · simp only [if_pos hlow]
      exact ⟨_,_,congrArg some hfallback,htarget⟩
    · simp only [if_neg hlow]
      exact ⟨_,_,rfl,target_of_mem _ hbest⟩

theorem forall_variablesFor {P : PatternVariable → Prop}
    (ht : P ⟨"target",d.target.headD Target.exportItem.name,.target⟩)
    (hk : ∀ kind, P ⟨"nodeKind",kind,.nodeKind⟩) (hc : P ⟨"condition","nested",.condition⟩) :
    ∀ v ∈ variablesFor d template, P v := by
  rw [variablesFor, List.forall_mem_append, List.forall_mem_append]
  refine ⟨⟨?_,?_⟩,?_⟩
  · split_ifs
    · exact List.forall_mem_singleton.mpr ht
    · exact List.forall_mem_nil P
  · cases d.nodeKind with
    | nil => exact List.forall_mem_nil P
    | cons kind rest => exact List.forall_mem_singleton.mpr (hk kind)
  · split_ifs
    · exact List.forall_mem_singleton.mpr hc
    · exact List.forall_mem_nil P

theorem valueOf?_target (ht : Text.contains template (slot "target") = true) :
    Pattern.valueOf? (variablesFor d template) .target =
    some (d.target.headD Target.exportItem.name) := by
  simp [Pattern.valueOf?, variablesFor, ht]

theorem valueOf?_nodeKind :
    Pattern.valueOf? (variablesFor d template) .nodeKind = d.nodeKind.head? := by
  unfold Pattern.valueOf? variablesFor
  cases d.nodeKind with
  | nil => split_ifs <;> rfl
  | cons kind rest => split_ifs <;> rfl

theorem condition_variablesFor :
    (Pattern.nonEmpty (Pattern.valueOf? (variablesFor d template) .condition)).getD "nested" =
    "nested" := by
  unfold Pattern.valueOf? variablesFor
  cases d.nodeKind with
  | nil => split_ifs <;> rfl
  | cons kind rest => split_ifs <;> rfl

theorem nodeKind_variablesFor :
    (Pattern.meaning template (variablesFor d template)).nodeKind = d.nodeKind.head? := by
  rw [Pattern.nodeKind_meaning condition_variablesFor, valueOf?_nodeKind]

theorem nested_variablesFor : (Pattern.meaning template (variablesFor d template)).nested =
    (Pattern.keyword? template).map fun k => decide (k = .when) :=
  Pattern.nested_meaning condition_variablesFor

theorem accepts_patternFor_iff (h : isRelease d.returns = true)
    (ht : Text.contains template (slot "target") = true) :
    Policy.Accepts (.pattern (patternFor d template description)) ↔ d.FirstKnown := by
  have htarget : (Pattern.meaning template (variablesFor d template)).target =
      some (d.target.headD Target.exportItem.name) := valueOf?_target ht
  have hknown := Pattern.errorsOf_eq_nil_iff_of_target (r := patternFor d template description) htarget
  rw [nodeKind_variablesFor] at hknown
  rw [Policy.accepts_pattern_iff]
  exact hknown.trans (and_iff_right h)

end Catalogue

def removedInside : String := "removed \x7btarget\x7d when \x7bcondition\x7d"

namespace Phrasing

variable {r : PatternRule} {condition : String}

theorem restricted?_removedInside (ht : r.template = removedInside)
    (hc : (r.named? "condition").map (·.value) = some condition) :
    restricted? r = some ⟨"removed \x7btarget\x7d", .when, condition, hundredths 90⟩ := by
  have hbase : conditional? r .when = some "removed \x7btarget\x7d" := by
    rw [conditional?, ht]
    decide
  have hplain : ("removed \x7btarget\x7d" == slot "pattern") = false := by decide
  simp [restricted?, hbase, underlying?, hplain, hc]

theorem isReadable_removedInside (ht : r.template = removedInside)
    (hc : (r.named? "condition").map (·.value) = some condition) :
    isReadable r = (Intent.conditionError .when (Intent.normalize condition)).isNone := by
  have hlisted : (phrasesFor "removed \x7btarget\x7d").isEmpty = false := by decide
  simp [isReadable, restricted?_removedInside ht hc, Option.filter, hlisted]

end Phrasing

namespace Rule

/-- What it takes for an accepted rule to be accepted at the level. -/
def Keeps : RuleLevel → Rule → Prop
  | .pattern, .dimensional d => isRelease d.returns = true → d.FirstKnown
  | .intent, .dimensional d => ∀ x, Catalogue.decompile? d = some x → Phrasing.isReadable x.pattern = true
  | .intent, .pattern p => Phrasing.isReadable p = true
  | _, _ => True

theorem accepts_of_le {level : RuleLevel} {r : Rule} (h : Policy.Accepts r)
    (hdown : r.level.rank ≤ level.rank) : Policy.Accepts (r.atLevel level) := by
  rw [Policy.accepts_iff_dimensionsOf, dimensionsOf_atLevel hdown]
  exact Policy.accepts_iff_dimensionsOf.mp h

theorem atLevel_of_moveTo {level : RuleLevel} {r s : Rule} (h : (r.moveTo level).result = .ok s) :
    r.atLevel level = s := by
  rw [atLevel, h]

theorem accepts_of_unreleased {level : RuleLevel} {d : DimensionalRule}
    (h : Policy.Accepts (.dimensional d)) (hr : isRelease d.returns = false) :
    Policy.Accepts ((Rule.dimensional d).atLevel level) := by
  have hraised : (raised (.dimensional d)).result = .error () := by
    simp [raised, Catalogue.decompile?, hr, stuck]
  have hmove (n : Nat) : (repeatMove raised (n + 1) (.dimensional d)).result = .error () := by
    rw [repeatMove, Traced.result_bind, hraised]
    rfl
  have hstays : (Rule.dimensional d).atLevel level = .dimensional d := by
    cases level with
    | intent => simp [atLevel, moveTo, Rule.level, RuleLevel.rank, hmove 1]
    | pattern => simp [atLevel, moveTo, Rule.level, RuleLevel.rank, hmove 0]
    | dimensional => rfl
  rw [hstays]
  exact h

theorem accepts_of_pattern {p : PatternRule}
    (h : isRelease p.returns = true) : ∃ x, Phrasing.intent? p = some x ∧
      (Policy.Accepts (.intent x.intent) ↔ Phrasing.isReadable p = true) := by
  obtain ⟨x,hx,hreturns,hvalid⟩ := Phrasing.exists_intent h
  refine ⟨x,hx,?_⟩
  rw [Policy.accepts_intent_iff, hreturns, hvalid]
  simp [h]

theorem accepts_atLevel_iff (level : RuleLevel) {r : Rule} (h : Policy.Accepts r) :
    Policy.Accepts (r.atLevel level) ↔ r.Keeps level := by
  cases r with
  | intent i =>
    have hdown : (Rule.intent i).level.rank ≤ level.rank := Nat.zero_le _
    exact iff_of_true (accepts_of_le h hdown) (by cases level <;> trivial)
  | pattern p =>
    cases level with
    | intent =>
      have hr := (Pattern.errorsOf_eq_nil_iff.mp (Policy.accepts_pattern_iff.mp h)).1
      obtain ⟨x,hx,haccepts⟩ := accepts_of_pattern hr
      have hmove : ((Rule.pattern p).moveTo .intent).result = .ok (.intent x.intent) := by
        simp [moveTo, Rule.level, RuleLevel.rank, repeatMove, raised, hx]
      rw [atLevel_of_moveTo hmove, haccepts, Keeps]
    | pattern => exact iff_of_true (accepts_of_le h (Nat.le_refl _)) trivial
    | dimensional => exact iff_of_true (accepts_of_le h (Nat.le_succ _)) trivial
  | dimensional d =>
    cases hr : isRelease d.returns with
    | false =>
      have hnone : Catalogue.decompile? d = none := by simp [Catalogue.decompile?, hr]
      refine iff_of_true (accepts_of_unreleased h hr) ?_
      cases level <;> simp [Keeps, hr, hnone]
    | true =>
      obtain ⟨template,description,hmap,htarget⟩ := Catalogue.exists_patternFor hr
      obtain ⟨x,hx,hpattern⟩ := Option.map_eq_some_iff.mp hmap
      cases level with
      | dimensional => exact iff_of_true (accepts_of_le h (Nat.le_refl _)) trivial
      | pattern =>
        have hmove : ((Rule.dimensional d).moveTo .pattern).result = .ok (.pattern x.pattern) := by
          simp [moveTo, Rule.level, RuleLevel.rank, repeatMove, raised, hx]
        rw [atLevel_of_moveTo hmove, hpattern, Catalogue.accepts_patternFor_iff hr htarget]
        simp [Keeps, hr]
      | intent =>
        have hreleased : isRelease x.pattern.returns = true := by rw [hpattern]; exact hr
        obtain ⟨y,hy,haccepts⟩ := accepts_of_pattern hreleased
        have hmove : ((Rule.dimensional d).moveTo .intent).result = .ok (.intent y.intent) := by
          simp [moveTo, Rule.level, RuleLevel.rank, repeatMove, raised, hx, hy]
        rw [atLevel_of_moveTo hmove, haccepts]
        simp [Keeps, hx]

end Rule

namespace Draft

/-- Every rule is moved, and one that was accepted still is just if it keeps at the level. -/
theorem accepts_transform_iff (level : RuleLevel) (rules : List Rule) :
    ∃ moved, (transform level.name (rules.map .rule)).result = .ok (moved.map .rule) ∧
      List.Forall₂ (fun r s => Policy.Accepts r → (Policy.Accepts s ↔ r.Keeps level)) rules moved := by
  refine ⟨rules.map (·.atLevel level),?_,?_⟩
  · rw [transform_rules, List.map_map]
    rfl
  · rw [List.forall₂_map_right_iff, List.forall₂_same]
    intro r _ h
    exact Rule.accepts_atLevel_iff level h

def removedWhen (condition : String) : PatternRule where
  template := removedInside
  bindings := [⟨"target", "property", .target⟩, ⟨"condition", condition, .condition⟩]
  returns := some "major"
  description := .null

theorem accepts_removedWhen (condition : String) :
    Policy.Accepts (.pattern (removedWhen condition)) :=
  Policy.accepts_pattern_of_target (t := .property) (Intent.isRelease_name .major) rfl rfl

theorem keeps_removedWhen {condition : String} : (Rule.pattern (removedWhen condition)).Keeps .intent ↔
    (Intent.conditionError .when (Intent.normalize condition)).isNone = true := by
  rw [Rule.Keeps, Phrasing.isReadable_removedInside rfl rfl]

theorem accepts_transform_iff_of_nested : ∃ s,
    (transform "intent" [.rule (.pattern (removedWhen " Members"))]).result = .ok [.rule s] ∧
    Policy.Accepts s := by
  obtain ⟨moved,hresult,hmoved⟩ := accepts_transform_iff .intent [.pattern (removedWhen " Members")]
  have hkeeps : (Rule.pattern (removedWhen " Members")).Keeps .intent := by
    rw [keeps_removedWhen]
    decide
  obtain ⟨s,rest,hs,hrest,rfl⟩ := List.forall₂_cons_left_iff.mp hmoved
  obtain rfl := List.forall₂_nil_left_iff.mp hrest
  exact ⟨s,hresult,(hs (accepts_removedWhen _)).mpr hkeeps⟩

def Loses (level : RuleLevel) (r : Rule) : Prop :=
  Policy.Accepts r ∧
  ∃ s, (transform level.name [.rule r]).result = .ok [.rule s] ∧ ¬ Policy.Accepts s

theorem loses_of_not_keeps {level : RuleLevel} {r : Rule} (h : Policy.Accepts r)
    (hkeeps : ¬ r.Keeps level) : Loses level r := by
  have hmoved : (transform level.name [.rule r]).result = .ok [.rule (r.atLevel level)] :=
    transform_rules level [r]
  exact ⟨h,_,hmoved,(Rule.accepts_atLevel_iff level h).not.mpr hkeeps⟩

def addedExport : PatternRule where
  template := "added \x7btarget\x7d"
  bindings := [⟨"target", "export", .target⟩]
  returns := some "minor"
  description := .null

def anyGadget : DimensionalRule :=
  { DimensionalRule.anything (some "major") .null with target := ["gadget"] }

/-- Words that were made up, a condition and a target that are not known lose a rule. -/
theorem loses_on_the_way_up : Loses .intent (.pattern addedExport) ∧
    Loses .intent (.pattern (removedWhen "public")) ∧
    Loses .pattern (.dimensional anyGadget) := by
  have hadded : Policy.Accepts (.pattern addedExport) :=
    Policy.accepts_pattern_of_target (t := .exportItem) (Intent.isRelease_name .minor) rfl rfl
  have hgadget : Policy.Accepts (.dimensional anyGadget) :=
    Policy.accepts_iff_dimensionsOf.mpr ⟨anyGadget,rfl,rfl⟩
  refine ⟨loses_of_not_keeps hadded ?_,loses_of_not_keeps (accepts_removedWhen _) ?_,
    loses_of_not_keeps hgadget ?_⟩
  · rw [Rule.Keeps]
    decide +kernel
  · rw [keeps_removedWhen]
    decide
  · intro h
    have hknown : Pattern.isTarget "gadget" = true := (h (by decide)).1
    exact absurd hknown (by decide)

end Draft

end ApiRelease
