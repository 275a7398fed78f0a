import ApiRelease.Proofs.RuleTables

/-! # Policy documents that neither load nor are rejected

A loader of policies rejects a document with a fault of the file, and passes over a rule
that cannot be read. It looks out for malformed values where options and rules are
converted, but not where a value is put into words or gone through, nor for a number
that its conversion overflows on. A document gives a configuration or is rejected,
unless it has a value of one of these sorts in one of these places. The rules of a
configuration are those that its tables give, with the constraints that the tables state
as values and no others.
-/
namespace ApiRelease

/-! ## Options -/

def Value.IsTooLarge (v : Value) : Prop := ∃ n, v = .int n ∧ Decimal.ofInt? n = none

namespace Value

theorem floatIn_ends (given : Scalar) (cs : List Char) :
    Ends (fun f => f.isOfValue = true) (fun _ => True) (floatIn given cs) := by
  unfold floatIn
  split
  · exact .ok trivial
  · exact .error rfl

theorem toFloat_ends (v : Value) :
    Ends (fun f => f.isOfValue = true ∨ (f = .integerTooLarge ∧ v.IsTooLarge)) (fun _ => True)
      v.toFloat := by
  unfold toFloat
  split
  · exact .ok trivial
  · next n =>
    split
    · exact .ok trivial
    · next hn => exact .error (Or.inr ⟨rfl,n,rfl,hn⟩)
  · exact .ok trivial
  · exact (floatIn_ends ..).mono fun _ => Or.inl
  · exact (floatIn_ends ..).mono fun _ => Or.inl
  · exact .error (Or.inl rfl)

end Value

inductive DiffOptions.Overflows (fs : Fields) : Fault → Prop
  | threshold (h : (fs.get "rename_threshold").IsTooLarge) : Overflows fs .integerTooLarge
  | depth (h : (fs.get "max_nesting_depth").IsInfinite) : Overflows fs .integerOfInfinity

theorem DiffOptions.ofFields_ends (fs : Fields) :
    Ends (fun f => f.isOfValue = true ∨ Overflows fs f) (fun _ => True) (ofFields fs) := by
  have hthreshold : Ends (fun f => f.isOfValue = true ∨ Overflows fs f) (fun _ => True)
      (fs.getD "rename_threshold" (.float standard.renameThreshold)).toFloat := by
    refine (fs.getD_ends Value.toFloat_ends "rename_threshold" rfl).mono ?_
    rintro f (hf | ⟨rfl,h⟩)
    · exact Or.inl hf
    · exact Or.inr (.threshold h)
  have hdepth : Ends (fun f => f.isOfValue = true ∨ Overflows fs f) (fun _ => True)
      (fs.getD "max_nesting_depth" (.int standard.maxDepth)).toInt := by
    refine (fs.getD_ends Value.toInt_ends "max_nesting_depth" rfl).mono ?_
    rintro f (hf | ⟨rfl,h⟩)
    · exact Or.inl hf
    · exact Or.inr (.depth h)
  unfold ofFields
  refine hthreshold.bind fun threshold _ => ?_
  split
  · exact .error (Or.inl rfl)
  refine hdepth.bind fun depth _ => ?_
  split
  · exact .error (Or.inl rfl)
  · exact .ok trivial

namespace PolicyConfig

theorem optionsOf_ends (source : String) (v : Value) :
    Ends (fun f => (∃ reason, f = .policyFile source reason) ∨
        DiffOptions.Overflows v.fieldsOrNone f) (fun _ => True) (optionsOf source v) := by
  unfold optionsOf
  cases h : DiffOptions.ofFields v.fieldsOrNone with
  | ok o => exact .ok trivial
  | error f =>
    dsimp only
    split
    · exact .error (Or.inl ⟨_,rfl⟩)
    · next hf =>
      rcases (DiffOptions.ofFields_ends _).of_eq_error h with hvalue | hoverflow
      · exact absurd hvalue hf
      · exact .error (Or.inr hoverflow)

/-! ## Documents -/

def ruleTables (fs : Fields) : List Fields := Value.tables (fs.get "rules").entries

/-- A value is where nobody looks out for what its conversion comes to. -/
inductive Unhandled (fs : Fields) : Fault → Prop
  | option {f : Fault} (h : DiffOptions.Overflows (fs.get "diff").fieldsOrNone f) : Unhandled fs f
  | rules {s : Scalar} (h : Fields.find? "rules" fs = some (.scalar s)) (hs : ¬ s.IsSequence) :
      Unhandled fs (.notIterable s.typeName)
  | field {key : String} (hkey : key = "name" ∨ key = "default")
      (h : (fs.get key).hasText = false) : Unhandled fs .numberTooLong
  | rule {ts : Fields} {v : Value} (hts : ts ∈ ruleTables fs) (hv : v ∈ worded ts)
      (h : v.hasText = false) : Unhandled fs .numberTooLong

theorem defaultOf_ends (fs : Fields) :
    Ends (fun f => f = .numberTooLong ∧ (fs.get "default").hasText = false) (fun _ => True)
      (defaultOf fs) := by
  refine ((Value.shown_ends _).mono ?_).bind fun _ _ => .ok trivial
  exact fun f hf => hf.imp_right Fields.hasText_get

/-- The rules of a document are gone through, unless they are no list at all. -/
theorem rules_ends (fs : Fields) :
    Ends (Unhandled fs) (fun vs => Value.tables vs = ruleTables fs)
      (fs.getD "rules" (.list [])).items := by
  unfold ruleTables Fields.get Fields.getD
  cases h : Fields.find? "rules" fs with
  | none => exact .ok rfl
  | some v =>
    refine v.items_ends.mono ?_
    rintro f ⟨s,rfl,hs,rfl⟩
    exact .rules h hs

/-- A document ends in a configuration or a fault of the file, unless something in it goes
through a conversion whose faults nobody looks out for; the rules of the configuration
come from the tables of the document, one after the other. -/
theorem ofFields_ends (source : String) (fs : Fields) :
    Ends (fun f => (∃ reason, f = .policyFile source reason) ∨ Unhandled fs f)
      (fun config => ∃ outcomes, List.Forall₂ Becomes (ruleTables fs) outcomes ∧
        config.policy.rules = outcomes.reduceOption) (ofFields source fs).result := by
  unfold ofFields
  rw [Traced.result_bind]
  refine ((trimmedField_ends fs "name").mono ?_).bind fun name _ => ?_
  · rintro f ⟨rfl,h⟩
    exact Or.inr (.field (Or.inl rfl) h)
  split
  · exact .error (Or.inl ⟨_,rfl⟩)
  rw [Traced.result_bind]
  refine ((defaultOf_ends fs).mono ?_).bind fun default _ => ?_
  · rintro f ⟨rfl,h⟩
    exact Or.inr (.field (Or.inr rfl) h)
  split
  · exact .error (Or.inl ⟨_,rfl⟩)
  rw [Traced.result_bind]
  refine ((optionsOf_ends source (fs.get "diff")).mono fun f => Or.imp_right .option).bind
    fun options _ => ?_
  rw [Traced.result_bind]
  refine ((rules_ends fs).mono fun f => Or.inr).bind fun raw hraw => ?_
  rw [Traced.result_bind, ← hraw]
  refine ((entriesFrom_ends source 1 raw).mono ?_).bind fun _ hrules => .ok hrules
  rintro f ⟨ts,hts,rfl,v,hv,h⟩
  exact Or.inr (.rule (hraw ▸ hts) hv h)

/-- A document gives a configuration or is rejected with a fault of the file, unless one
of its values goes through a conversion whose faults nobody looks out for. -/
theorem loads_or_is_rejected (source : String) (fs : Fields) :
    (∃ config, (ofFields source fs).result = .ok config) ∨
    (∃ reason, (ofFields source fs).result = .error (.policyFile source reason)) ∨
    ∃ f, Unhandled fs f ∧ (ofFields source fs).result = .error f := by
  cases h : (ofFields source fs).result with
  | ok config => exact Or.inl ⟨config,rfl⟩
  | error f =>
    rcases (ofFields_ends source fs).of_eq_error h with ⟨reason,rfl⟩ | hf
    · exact Or.inr (Or.inl ⟨reason,rfl⟩)
    · exact Or.inr (Or.inr ⟨f,hf,rfl⟩)

/-- A number in place of the list of rules ends the loading, and so does an infinite
depth, neither with a fault of the file. -/
theorem rejected_without_fault_of_file :
    (ofFields "p.yaml" [("name",.text "p"),("rules",.int 5)]).result =
      .error (.notIterable "int") ∧
    (ofFields "p.toml" [("name",.text "p"),
      ("diff",.table [("max_nesting_depth",.float (Decimal.infinity false))])]).result =
      .error .integerOfInfinity := by
  constructor <;> rfl

/-! ## Constraints -/

/-- The rules of a policy come, in order, from the tables of its document, and a matcher
among them has values for a dimension exactly if its table gives some. -/
theorem constraints_come_from_tables {source : String} {fs : Fields} {config : PolicyConfig}
    (h : (ofFields source fs).result = .ok config) : ∃ outcomes,
      List.Forall₂ Becomes (ruleTables fs) outcomes ∧
      config.policy.rules = outcomes.reduceOption ∧
      ∀ ts m, (ts,some (.matcher m)) ∈ (ruleTables fs).zip outcomes →
        (∀ d, m.values d ≠ [] ↔ (ts.get d.key).GivesValues) ∧
        ∀ b, m.nested = some b ↔ ts.get "nested" = .bool b := by
  obtain ⟨outcomes,hbecomes,hrules⟩ := (ofFields_ends source fs).of_eq_ok h
  refine ⟨outcomes,hbecomes,hrules,fun ts m hm => ?_⟩
  cases (List.forall₂_iff_zip.mp hbecomes).2 hm with
  | kept hkept => exact ⟨hkept.values_ne_nil,hkept.nested⟩

def oneRule (ts : Fields) : Fields := [("name",.text "p"),("rules",.list [.table ts])]

def oneMatcher (m : Matcher) : PolicyConfig where
  policy := { name := "p", rules := [.matcher m], default := Release.major.name,
              description := none }
  options := DiffOptions.standard

def removals : Fields :=
  [("name",.text "removals"),("returns",.text "major"),("target",.list [.text " export",.text " "])]

def removalMatcher : Matcher where
  target := ["export"]
  name := .text "removals"
  returns := "major"
  rationale := .null

theorem ofFields_removals :
    (ofFields "p.toml" (oneRule removals)).result = .ok (oneMatcher removalMatcher) := by
  rfl

theorem constraints_come_from_tables_removals :
    (ofFields "p.toml" (oneRule removals)).result = .ok (oneMatcher removalMatcher) ∧
    ∃ outcomes, List.Forall₂ Becomes (ruleTables (oneRule removals)) outcomes ∧
      (oneMatcher removalMatcher).policy.rules = outcomes.reduceOption ∧
      ∀ ts m, (ts,some (.matcher m)) ∈ (ruleTables (oneRule removals)).zip outcomes →
        (∀ d, m.values d ≠ [] ↔ (ts.get d.key).GivesValues) ∧
        ∀ b, m.nested = some b ↔ ts.get "nested" = .bool b :=
  ⟨ofFields_removals,constraints_come_from_tables ofFields_removals⟩

def careless : Fields :=
  [("name",.text "gone"),("returns",.text "none"),("target",.int 5),("nested",.text "yes")]

def carelessMatcher : Matcher where
  name := .text "gone"
  returns := "none"
  rationale := .null

/-- The table is kept as a matcher that every change meets. -/
theorem constraints_given_up :
    (ofFields "p.toml" (oneRule careless)).result = .ok (oneMatcher carelessMatcher) ∧
    carelessMatcher.target = [] ∧ carelessMatcher.nested = none ∧
    ∀ f, carelessMatcher.holdFor f = true := by
  refine ⟨rfl,rfl,rfl,fun f => ?_⟩
  rfl

end PolicyConfig

end ApiRelease
