import ApiRelease.Proofs.Lowering
import ApiRelease.Proofs.PolicyDocuments
import ApiRelease.Proofs.RuleDocuments
import ApiRelease.Proofs.Spacing
import Mathlib.Data.List.ReduceOption

/-! # Policies that were loaded

The release type of a rule is looked at twice on the way into a policy: as trimmed text by
the loader, and as it stands where the rule is read at its level. So every rule that comes
through has one of the four release types, a dimensional rule among them too, which may
lack one elsewhere. A translation keeps the release type of a rule, so whatever a loaded
policy says of a change is one of the four as well.
-/
namespace ApiRelease

/-! ## What a rule comes down to -/

theorem Intent.returns_of_read {i : IntentRule} {p : PatternRule}
    (h : (read i).pattern = some p) : p.returns = i.returns := by
  have hfailed (errors suggestions : List String) :
      (Reading.failed errors suggestions).pattern ≠ some p := by
    simp [Reading.failed]
  unfold read at h
  split at h
  · exact (hfailed _ _ h).elim
  dsimp only at h
  split at h
  · exact (hfailed _ _ h).elim
  split at h
  · exact (hfailed _ _ h).elim
  · rw [← Option.some.inj h]

namespace Policy

theorem returns_of_compilePattern {p : PatternRule} {d : DimensionalRule}
    (h : dimensionsOf.compilePattern p = .ok d) : d.returns = p.returns := by
  by_cases he : Pattern.errorsOf p (Pattern.meaning p.template p.bindings) = []
  · rw [dimensionsOf.compilePattern, Pattern.compile_of_errors_nil he] at h
    cases h
    rfl
  · simp only [dimensionsOf.compilePattern, Pattern.dimensional_of_errors he] at h
    cases h

end Policy

def PolicyEntry.Released : PolicyEntry → Prop
  | .matcher m => Release.isName m.returns = true
  | .rule r => isRelease r.returns = true
  | .absent => False

structure DiffOptions.Valid (o : DiffOptions) : Prop where
  threshold : Likeness.zero ≤ o.renameThreshold ∧ o.renameThreshold ≤ Likeness.one
  depth : 0 ≤ o.maxDepth

theorem DiffOptions.valid_of_ofFields {fs : Fields} {o : DiffOptions} (h : ofFields fs = .ok o) :
    o.Valid := by
  unfold ofFields at h
  obtain ⟨threshold,-,h⟩ := bind_eq_ok.mp h
  split at h
  · cases h
  next hthreshold =>
  obtain ⟨depth,-,h⟩ := bind_eq_ok.mp h
  split at h
  · cases h
  next hdepth =>
  cases h
  exact ⟨by simpa using hthreshold,by simpa using hdepth⟩

namespace PolicyConfig

theorem valid_of_optionsOf {source : String} {v : Value} {o : DiffOptions}
    (h : optionsOf source v = .ok o) : o.Valid := by
  unfold optionsOf at h
  split at h
  · next hread =>
    cases h
    exact DiffOptions.valid_of_ofFields hread
  · split at h <;> cases h

/-! ## Rules of a document -/

/-- Where the trimmed text of a field is a release type, something is given there. -/
theorem get_ne_null_of_released {ts : Fields} {key : String}
    (h : Release.isName (fieldText ts key) = true) : ts.get key ≠ .null := by
  intro hnull
  unfold fieldText Fields.getD at h
  unfold Fields.get Fields.getD at hnull
  cases hfind : Fields.find? key ts with
  | none =>
    rw [hfind] at h
    exact absurd h (by decide)
  | some v =>
    rw [hfind] at h hnull
    obtain rfl : v = .null := hnull
    exact absurd h (by decide)

theorem released_of_becomes {ts : Fields} {e : PolicyEntry} (h : Becomes ts (some e)) :
    e.Released := by
  cases h with
  | kept h => exact h.released
  | @levelled r _ hreleased h =>
    obtain ⟨returns,hreturns,h⟩ := Rule.ofFields_eq_ok.mp h
    obtain ⟨hget,hknown⟩ := Rule.returnsOf_eq_ok.mp hreturns
    have hsome : returns.isSome = true := by
      cases returns with
      | none => exact absurd hget (get_ne_null_of_released hreleased)
      | some name => rfl
    have hrelease : isRelease returns = true := isRelease_iff.mpr ⟨hsome,hknown⟩
    rcases h with ⟨-,i,hi,rfl⟩ | ⟨-,p,hp,rfl⟩ | ⟨-,d,hd,rfl⟩
    · obtain ⟨-,-,_,-,rfl⟩ := Rule.intentOf_eq_ok.mp hi
      exact hrelease
    · obtain ⟨-,-,_,_,-,-,rfl⟩ := Rule.patternOf_eq_ok.mp hp
      exact hrelease
    · change isRelease d.returns = true
      rw [Rule.returns_of_dimensionalOf hd]
      exact hrelease

structure Valid (config : PolicyConfig) : Prop where
  named : config.policy.name ≠ ""
  trimmed : Text.trim config.policy.name = config.policy.name
  default : Release.isName config.policy.default = true
  rules : ∀ e ∈ config.policy.rules, e.Released
  options : config.options.Valid

theorem valid_of_ofFields {source : String} {fs : Fields} {config : PolicyConfig}
    (h : (ofFields source fs).result = .ok config) : config.Valid := by
  obtain ⟨outcomes,hbecomes,hrules⟩ := (ofFields_ends source fs).of_eq_ok h
  unfold ofFields at h
  obtain ⟨name,hname,h⟩ := Traced.result_bind_eq_ok.mp h
  split at h
  · cases h
  next hnamed =>
  obtain ⟨default,-,h⟩ := Traced.result_bind_eq_ok.mp h
  split at h
  · cases h
  next hdefault =>
  obtain ⟨options,hoptions,h⟩ := Traced.result_bind_eq_ok.mp h
  obtain ⟨raw,-,h⟩ := Traced.result_bind_eq_ok.mp h
  obtain ⟨rules,-,h⟩ := Traced.result_bind_eq_ok.mp h
  cases h
  have htext := (trimmedField_ends fs "name").of_eq_ok hname
  refine ⟨by simpa using hnamed,?_,by simpa using hdefault,?_,valid_of_optionsOf hoptions⟩
  · change Text.trim name = name
    rw [htext, fieldText, Text.trim_trim]
  · intro e he
    rw [hrules, List.reduceOption_mem_iff] at he
    obtain ⟨ts,-,hts⟩ := exists_left_of_forall₂ hbecomes he
    exact released_of_becomes hts

end PolicyConfig

end ApiRelease
