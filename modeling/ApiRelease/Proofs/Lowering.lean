import ApiRelease.Policy.Draft
import ApiRelease.Proofs.Builtin
import ApiRelease.Proofs.Runs

/-! # Rules keep their say on the way down

What a policy says of a change hangs on what each of its entries comes down to: the
conditions of a matcher and its release type, or nothing. An intent comes down to what
its pattern comes down to, and a pattern to what its dimensions do. So it makes no
difference at which of these levels the rules of a policy are kept, and a rule that
cannot be lowered is left out at every level for the same reason.
-/
namespace ApiRelease

/-- What a matcher decides by, without its name and rationale. -/
def Matcher.say (m : Matcher) : Conditions × String := (m.toConditions, m.returns)

def DimensionalRule.conditions (d : DimensionalRule) : Conditions where
  action := d.action
  target := d.target
  aspect := d.aspect
  impact := d.impact
  nodeKind := d.nodeKind
  notTags := d.notTags
  anyTags := d.tags
  nested := d.nested

namespace Rule

def say? (r : Rule) : Option (Conditions × String) :=
  match Policy.dimensionsOf r with
  | .error _ => none
  | .ok d => d.returns.map fun returns => (d.conditions, returns)

/-- The dimensions of a rule are those of the rule at the level below. -/
theorem dimensionsOf_lowered {r s : Rule} (h : r.lowered.result = .ok s) :
    Policy.dimensionsOf s = Policy.dimensionsOf r := by
  cases r with
  | dimensional d => simp [lowered] at h
  | pattern p =>
    simp only [lowered] at h
    cases hd : (Pattern.compile p).dimensional with
    | none => simp [hd, stuck] at h
    | some d =>
      simp only [hd, Except.ok.injEq] at h
      subst h
      simp [Policy.dimensionsOf, Policy.dimensionsOf.compilePattern, hd]
  | intent i =>
    simp only [lowered] at h
    cases hp : (Intent.read i).pattern with
    | none => simp [hp, stuck] at h
    | some p =>
      simp only [hp, Traced.result_pure, Except.ok.injEq] at h
      subst h
      simp [Policy.dimensionsOf, hp]

theorem dimensionsOf_repeatMove {n : Nat} {r s : Rule}
    (h : (repeatMove lowered n r).result = .ok s) :
    Policy.dimensionsOf s = Policy.dimensionsOf r := by
  induction n generalizing r with
  | zero =>
    obtain rfl := Except.ok.inj h
    rfl
  | succ n ih =>
    obtain ⟨t,ht,hs⟩ := Traced.result_bind_eq_ok.mp h
    exact (ih hs).trans (dimensionsOf_lowered ht)

theorem dimensionsOf_atLevel {r : Rule} {target : RuleLevel} (hdown : r.level.rank ≤ target.rank) :
    Policy.dimensionsOf (r.atLevel target) = Policy.dimensionsOf r := by
  unfold atLevel
  cases hm : (r.moveTo target).result with
  | error _ => rfl
  | ok s =>
    rw [moveTo, if_pos hdown] at hm
    exact dimensionsOf_repeatMove hm

theorem say?_atLevel_dimensional (r : Rule) : (r.atLevel .dimensional).say? = r.say? := by
  have hdown : r.level.rank ≤ RuleLevel.dimensional.rank := by
    cases r <;> simp [level, RuleLevel.rank]
  rw [say?, dimensionsOf_atLevel hdown, say?]

end Rule

namespace PolicyEntry

def say? : PolicyEntry → Option (Conditions × String)
  | .matcher m => some m.say
  | .rule r => r.say?
  | .absent => none

theorem say?_settle (e : PolicyEntry) : (Draft.settle e).say? = e.say? := by
  match e with
  | .matcher m => rfl
  | .absent => rfl
  | .rule (.pattern p) => rfl
  | .rule (.dimensional d) => rfl
  | .rule (.intent i) =>
    cases hp : (Intent.read i).pattern with
    | none => simp [Draft.settle, hp]
    | some p => simp [Draft.settle, say?, Rule.say?, Policy.dimensionsOf, hp]

end PolicyEntry

namespace Policy

theorem say_compileRule (index : Nat) (r : Rule) :
    (matcher? (compileRule index r)).map Matcher.say = r.say? := by
  unfold compileRule Rule.say?
  cases dimensionsOf r with
  | error _ => rfl
  | ok d =>
    cases hr : d.returns with
    | none => simp only [hr]; rfl
    | some returns => simp only [hr]; rfl

theorem say_compileEntry (index : Nat) (e : PolicyEntry) :
    (matcher? (compileEntry index e)).map Matcher.say = e.say? := by
  cases e with
  | matcher m => rfl
  | rule r => exact say_compileRule index r
  | absent => rfl

theorem say_compileEntries (index : Nat) (es : List PolicyEntry) :
    ((compileEntries index es).filterMap matcher?).map Matcher.say =
    es.filterMap PolicyEntry.say? := by
  induction es generalizing index with
  | nil => rfl
  | cons e rest ih =>
    have he := say_compileEntry index e
    cases hm : matcher? (compileEntry index e) with
    | none =>
      rw [hm, Option.map_none] at he
      simp [compileEntries, hm, ← he, ih]
    | some m =>
      rw [hm, Option.map_some] at he
      simp [compileEntries, hm, ← he, ih]

/-- What a policy says of a change hangs on the say of its entries, taken in order. -/
theorem release_classify_of_say {p q : Policy} (hd : p.default = q.default)
    (h : p.rules.filterMap PolicyEntry.say? = q.rules.filterMap PolicyEntry.say?) (c : Change) :
    (p.compile.classify c).release = (q.compile.classify c).release := by
  have hfind (r : Policy) :
      (r.compile.rules.find? fun m => m.holdFor c.toFinding).map (·.returns) =
      ((r.rules.filterMap PolicyEntry.say?).find? fun s => s.1.holdFor c.toFinding).map (·.2) := by
    rw [← say_compileEntries 0, List.find?_map, Option.map_map]
    rfl
  rw [CompiledPolicy.release_classify, CompiledPolicy.release_classify, hfind, hfind, h]
  simp [compile, hd]

/-- Compiled alone, a rule gives one matcher and there is nothing against it. -/
def Accepts (r : Rule) : Prop :=
  ∀ name default description, ∃ m, Policy.compile ⟨name, [.rule r], default, description⟩ =
    ⟨name, [m], default, description, []⟩

theorem accepts_iff {r : Rule} : Accepts r ↔ r.say?.isSome = true := by
  have hsay := say_compileRule 0 r
  cases hm : compileRule 0 r with
  | error reason =>
    have hnone : r.say? = none := by rw [← hsay, hm]; rfl
    rw [hnone]
    refine iff_of_false (fun h => ?_) (by simp)
    obtain ⟨m,hm'⟩ := h "" "" none
    simp [compile, compileEntries, compileEntry, hm, reason?] at hm'
  | ok m =>
    have hsome : r.say? = some m.say := by rw [← hsay, hm]; rfl
    rw [hsome]
    refine iff_of_true (fun name default description => ⟨m,?_⟩) rfl
    simp [compile, compileEntries, compileEntry, hm, matcher?, reason?]

theorem accepts_iff_dimensionsOf {r : Rule} :
    Accepts r ↔ ∃ d, dimensionsOf r = .ok d ∧ d.returns.isSome = true := by
  rw [accepts_iff, Rule.say?]
  cases dimensionsOf r <;> simp

end Policy

@[simp] theorem RuleLevel.parse?_name (level : RuleLevel) : parse? level.name = some level := by
  cases level <;> decide

namespace Draft

/-- Moving rules never fails: each of them ends up at the level or stays as it was. -/
theorem transform_rules (level : RuleLevel) (rules : List Rule) :
    (transform level.name (rules.map .rule)).result =
    .ok (rules.map fun r => .rule (r.atLevel level)) := by
  simp only [transform, RuleLevel.parse?_name, Traced.result_mapM_eq_ok, List.forall₂_map_left_iff,
    List.forall₂_map_right_iff]
  exact List.forall₂_same.mpr fun r _ => rfl

theorem say_build (name default : String) (description : Option String) (es : List PolicyEntry) :
    (build name default description es).rules.filterMap PolicyEntry.say? =
    es.filterMap PolicyEntry.say? := by
  simp only [build, List.filterMap_map]
  exact List.filterMap_congr fun e _ => PolicyEntry.say?_settle e

/-- A change gets one release type from rules as they are given, from the policy built of
them, and from the policy built of them once they are lowered to dimensions. -/
theorem release_of_lowered (rules : List Rule) (default : String) (c : Change)
    (given built lowered : String × Option String) :
    ∃ es, (transform RuleLevel.dimensional.name (rules.map .rule)).result = .ok es ∧
      ((build built.1 default built.2 (rules.map .rule)).compile.classify c).release =
        ((Policy.mk given.1 (rules.map .rule) default given.2).compile.classify c).release ∧
      ((build lowered.1 default lowered.2 es).compile.classify c).release =
        ((Policy.mk given.1 (rules.map .rule) default given.2).compile.classify c).release := by
  refine ⟨_,transform_rules .dimensional rules,?_,?_⟩
  · apply Policy.release_classify_of_say
    · rfl
    · exact say_build ..
  · apply Policy.release_classify_of_say
    · rfl
    rw [say_build, List.filterMap_map, List.filterMap_map]
    exact List.filterMap_congr fun r _ => Rule.say?_atLevel_dimensional r

end Draft

end ApiRelease
