import ApiRelease.Proofs.Level

/-! # Comparisons that always end

An oracle may fail, but an oracle whose answers are impacts never makes a comparison
find something that cannot be described. If moreover its failures are those that a
comparison files as problems, two modules can always be compared. The heuristic oracle
never fails at all.
-/
namespace ApiRelease

/-- The oracle answers with an impact or fails as stated. -/
def TypeOracle.Answers (failure : Fault → Prop) (oracle : TypeOracle) : Prop :=
  ∀ old new, Ends failure (fun v => ∃ impact, v = .known impact) (oracle old new)

theorem TypeText.heuristic_answers (failure : Fault → Prop) :
    TypeOracle.Answers failure TypeText.heuristic := fun _ _ => .ok ⟨_,rfl⟩

def SignatureDifference.Judged (d : SignatureDifference) : Prop :=
  ∃ impact, d.verdict = .known impact ∧ impact ≠ .equivalent

variable {failure : Fault → Prop} {compareTypes : TypeOracle}

namespace Signature

theorem typeVerdict_ends (h : TypeOracle.Answers failure compareTypes) (old new : String) :
    Ends failure (fun v => ∀ w ∈ v, ∃ impact, w = .known impact ∧ impact ≠ .equivalent)
      (typeVerdict compareTypes old new) := by
  unfold typeVerdict
  split
  · exact .ok (by simp)
  · refine (h old new).bind ?_
    rintro v ⟨impact,rfl⟩
    refine .ok ?_
    cases impact <;> simp [Verdict.isEquivalent]

theorem verb_ends (impact : Impact) : Ends failure (fun _ => True) (verb (.known impact)) := by
  cases impact <;> exact .ok trivial

theorem compareParameter_ends (h : TypeOracle.Answers failure compareTypes) (path : String)
    (old new : Parameter) : Ends failure (fun o => ∀ d ∈ o, d.Judged)
      (compareParameter path old new compareTypes) := by
  unfold compareParameter
  refine (typeVerdict_ends h old.type new.type).bind ?_
  intro v hv
  cases v with
  | some w =>
    obtain ⟨impact,rfl,hne⟩ := hv w rfl
    refine (verb_ends impact).bind ?_
    intro text _
    refine .ok ?_
    rintro d ⟨⟩
    exact ⟨impact,rfl,hne⟩
  | none =>
    simp only
    split
    · refine .ok ?_
      rintro d ⟨⟩
      exact ⟨.widening,rfl,by simp⟩
    · split
      · refine .ok ?_
        rintro d ⟨⟩
        exact ⟨.narrowing,rfl,by simp⟩
      · refine .ok ?_
        rintro d ⟨⟩

theorem addedParameter_judged (path : String) (p : Parameter) : (addedParameter path p).Judged := by
  unfold addedParameter SignatureDifference.Judged
  cases p.isRequired <;> simp

theorem removedParameter_judged (path : String) (p : Parameter) :
    (removedParameter path p).Judged := ⟨.narrowing,rfl,by simp⟩

theorem compareParameters_ends (h : TypeOracle.Answers failure compareTypes) (path : String)
    (olds news : List Parameter) : Ends failure (fun ds => ∀ d ∈ ds, d.Judged)
      (compareParameters path compareTypes olds news) := by
  induction olds generalizing news with
  | nil =>
    cases news with
    | nil => exact .ok (by simp)
    | cons new news =>
      refine .ok ?_
      intro d hd
      obtain ⟨p,-,rfl⟩ := List.mem_map.mp hd
      exact addedParameter_judged path p
  | cons old olds ih =>
    cases news with
    | nil =>
      refine .ok ?_
      intro d hd
      obtain ⟨p,-,rfl⟩ := List.mem_map.mp hd
      exact removedParameter_judged path p
    | cons new news =>
      refine (compareParameter_ends h path old new).bind ?_
      intro here hhere
      refine (ih news).bind ?_
      intro rest hrest
      refine .ok ?_
      intro d hd
      rcases List.mem_append.mp hd with hd | hd
      · exact hhere d (Option.mem_toList.mp hd)
      · exact hrest d hd

theorem compareReturn_ends (h : TypeOracle.Answers failure compareTypes) (path old new : String) :
    Ends failure (fun o => ∀ d ∈ o, d.Judged) (compareReturn path old new compareTypes) := by
  unfold compareReturn
  refine (typeVerdict_ends h old new).bind ?_
  intro v hv
  cases v with
  | none =>
    refine .ok ?_
    rintro d ⟨⟩
  | some w =>
    obtain ⟨impact,rfl,hne⟩ := hv w rfl
    refine (verb_ends impact).bind ?_
    intro text _
    refine .ok ?_
    rintro d ⟨⟩
    exact ⟨impact,rfl,hne⟩

theorem compare_ends (h : TypeOracle.Answers failure compareTypes) (path : String)
    (old new : Signature) : Ends failure (fun ds => ∀ d ∈ ds, d.Judged)
      (compare path old new compareTypes) := by
  refine (compareParameters_ends h path old.parameters new.parameters).bind ?_
  intro parameters hp
  refine (compareReturn_ends h path old.returnType new.returnType).bind ?_
  intro result hr
  refine .ok ?_
  intro d hd
  rcases List.mem_append.mp hd with hd | hd
  · exact hp d hd
  · exact hr d (Option.mem_toList.mp hd)

end Signature

namespace Classification

/-- What a classification goes on to report can be described. -/
def Describable (c : Classification) : Prop := ∀ d ∈ c.signatureChanges, d.Judged

/-- A finding that stands for itself: it rests on no difference of signatures, and it
is not that nothing changed. -/
structure Standalone (c : Classification) : Prop where
  signatureChanges_eq : c.signatureChanges = []
  isEquivalent_eq : c.isEquivalent = false

theorem Standalone.isEquivalent_ne {c : Classification} (h : c.Standalone) :
    c.isEquivalent ≠ true := by
  simp [h.isEquivalent_eq]

theorem describable_of_nil {c : Classification} (h : c.signatureChanges = []) : c.Describable := by
  simp [Describable, h]

theorem Standalone.describable {c : Classification} (h : c.Standalone) : c.Describable :=
  describable_of_nil h.signatureChanges_eq

variable {old new : Facts} {target : Target} {options : DiffOptions} {c : Classification}

theorem ofRawText_standalone (h : ofRawText old new target = some c) : c.Standalone := by
  simp only [ofRawText] at h
  split at h
  · cases h
  · cases h
    exact ⟨rfl,rfl⟩

theorem describe_effect (path : String) (t : TypeParameterChange) :
    (t.describe path).1.effect ≠ .modified .type .equivalent := by
  cases t with
  | removed name => simp [TypeParameterChange.describe, Descriptor.plain]
  | added name => simp [TypeParameterChange.describe, Descriptor.plain]
  | constraintChanged name o n =>
    simp only [TypeParameterChange.describe]
    split_ifs <;> simp [TypeParameterChange.modification, Descriptor.plain]
  | defaultChanged name o n =>
    simp only [TypeParameterChange.describe]
    split_ifs <;> simp [TypeParameterChange.modification, Descriptor.plain]

theorem beforeType_standalone (h : beforeType old new options = some c) : c.Standalone := by
  unfold beforeType at h
  split at h
  · cases h
    exact ⟨rfl,rfl⟩
  · split at h
    · next first _ _ =>
      have hc := Option.some.inj h
      subst hc
      exact ⟨rfl,decide_eq_false (describe_effect old.path first)⟩
    · split at h
      · cases h
        exact ⟨rfl,rfl⟩
      · cases h

theorem ofModifiers_standalone (h : ofModifiers old new target = some c) : c.Standalone := by
  obtain ⟨rule,hr,h⟩ := Option.map_eq_some_iff.mp h
  have haspect : ∀ r ∈ modifierRules, r.2.2.1 ≠ .type := by decide
  have hne := haspect rule (List.mem_of_find?_eq_some hr)
  subst h
  exact ⟨rfl,by simp [isEquivalent, plain, Descriptor.plain, hne]⟩

theorem ofClause_standalone {keyword : String} {aspect : Aspect} {oldNames newNames : List String}
    (ha : aspect ≠ .type)
    (h : ofClause old new target keyword aspect oldNames newNames = some c) : c.Standalone := by
  have hmade : ∀ impact text, (plain (.plain target (.modified aspect impact) []) text).Standalone :=
    fun impact text => ⟨rfl,by simp [isEquivalent, plain, Descriptor.plain, ha]⟩
  simp only [ofClause] at h
  split_ifs at h <;> cases h <;> exact hmade _ _

theorem ofDeprecation_standalone (h : ofDeprecation old new target = some c) : c.Standalone := by
  simp only [ofDeprecation] at h
  split_ifs at h <;> cases h <;> exact ⟨rfl,rfl⟩

theorem ofDefaultValue_standalone (h : ofDefaultValue old new target = some c) : c.Standalone := by
  simp only [ofDefaultValue] at h
  split at h
  · cases h
  · cases h
    exact ⟨rfl,rfl⟩
  · cases h
    exact ⟨rfl,rfl⟩
  · split_ifs at h
    cases h
    exact ⟨rfl,rfl⟩

theorem afterType_standalone (h : afterType old new target = some c) : c.Standalone := by
  simp only [afterType, Option.orElse_eq_orElse, Option.orElse_eq_or, Option.or_eq_some_iff] at h
  rcases h with h | ⟨-,h | ⟨-,h | ⟨-,h | ⟨-,h⟩⟩⟩⟩
  · exact ofModifiers_standalone h
  · exact ofClause_standalone (by decide) h
  · exact ofClause_standalone (by decide) h
  · exact ofDeprecation_standalone h
  · exact ofDefaultValue_standalone h

theorem ofSignatures_ends {differences : List SignatureDifference}
    (h : ∀ d ∈ differences, d.Judged) (old : Facts) (target : Target) (oldText newText : String) :
    Ends failure Describable (ofSignatures old target oldText newText differences) := by
  cases differences with
  | nil => exact .ok (describable_of_nil rfl)
  | cons first rest =>
    obtain ⟨impact,hv,-⟩ := h first List.mem_cons_self
    simp only [ofSignatures, hv]
    exact .ok h

theorem ofType_ends (h : TypeOracle.Answers failure compareTypes) (old new : Facts)
    (target : Target) : Ends failure (fun o => ∀ c ∈ o, c.Describable)
      (ofType old new target compareTypes) := by
  simp only [ofType]
  split
  · exact .ok (fun c hc => (ofRawText_standalone hc).describable)
  · split
    · exact .ok (by simp)
    · split
      · refine (Signature.compare_ends h _ _ _).bind ?_
        intro differences hd
        refine (ofSignatures_ends hd old target _ _).bind ?_
        intro c hc
        refine .ok ?_
        rintro _ ⟨⟩
        exact hc
      · refine (h old.signature new.signature).bind ?_
        rintro v ⟨impact,rfl⟩
        refine .ok ?_
        rintro c ⟨⟩
        exact describable_of_nil rfl

/-- Classifying a pair fails only as the oracle does. -/
theorem ofPair_ends (h : TypeOracle.Answers failure compareTypes) (old new : Facts)
    (options : DiffOptions) : Ends failure Describable (ofPair old new options compareTypes) := by
  unfold ofPair
  split
  · next c hc => exact .ok (beforeType_standalone hc).describable
  · refine (ofType_ends h old new _).bind ?_
    intro byType ht
    have hafter : ∀ d : Classification, d.Describable →
        ((afterType old new old.kind.target).getD d).Describable := by
      intro d hd
      cases ha : afterType old new old.kind.target with
      | none => simpa using hd
      | some e => simpa using (afterType_standalone ha).describable
    cases byType with
    | none => exact .ok (hafter _ (describable_of_nil rfl))
    | some c =>
      have hc := ht c rfl
      cases he : c.isEquivalent with
      | false => simpa [he] using .ok hc
      | true => simpa [he] using .ok (hafter c hc)

end Classification

namespace Diff

theorem typeComparer_answers {oracle : TypeOracle} (h : TypeOracle.Answers failure oracle)
    (options : DiffOptions) : TypeOracle.Answers failure (typeComparer options oracle) := by
  intro old new
  unfold typeComparer
  split_ifs
  · exact .ok ⟨_,rfl⟩
  · exact .ok ⟨_,rfl⟩
  · exact h old new

theorem signatureChanges_ok {c : Classification} (hc : c.Describable) (options : DiffOptions)
    (old new : Declaration) (place : Place) :
    ∃ cs, signatureChanges options old new place c = .ok cs := by
  unfold signatureChanges
  split
  · apply mapM_ok_of_forall
    intro d hd
    obtain ⟨impact,hv,-⟩ := hc d hd
    have hdescriptor : ∃ e, d.descriptor = .ok e := by
      unfold SignatureDifference.descriptor
      rw [hv]
      cases d.action <;> exact ⟨_,rfl⟩
    obtain ⟨e,he⟩ := hdescriptor
    exact ⟨_,bind_eq_ok.mpr ⟨e,he,rfl⟩⟩
  · exact ⟨[],rfl⟩

section Filed

variable {options : DiffOptions} {descend : Descent}

abbrev Files (oracle : TypeOracle) : Prop := TypeOracle.Answers (isOfComparison · = true) oracle

theorem files_of_answers (h : TypeOracle.Answers (fun _ => False) compareTypes) :
    Files compareTypes := fun old new => (h old new).mono (fun _ hf => hf.elim)

theorem modifiedChange_ok (h : Files compareTypes)
    (hd : ∀ o n depth ancestors, ∃ cs, (descend o n depth ancestors).result = .ok cs)
    (place : Place) (old new : Declaration) :
    ∃ o, (modifiedChange options compareTypes descend place old new).result = .ok o := by
  have hends := Classification.ofPair_ends h old.toFacts new.toFacts options
  cases hp : Classification.ofPair old.toFacts new.toFacts options compareTypes with
  | error f => exact ⟨none,(modifiedChange_of_error hp).mpr ⟨hends.of_eq_error hp,rfl⟩⟩
  | ok c =>
    obtain ⟨fromSignature,hs⟩ := signatureChanges_ok (hends.of_eq_ok hp) options old new place
    obtain ⟨inside,hi⟩ := hd old new place.depth place.ancestors
    exact ⟨_,(modifiedChange_of_ok hp).mpr ⟨fromSignature,inside,hs,hi,rfl⟩⟩

theorem level_ok (h : Files compareTypes)
    (hd : ∀ o n depth ancestors, ∃ cs, (descend o n depth ancestors).result = .ok cs)
    (place : Place) (olds news : Members) :
    ∃ cs, (level options compareTypes descend place olds news).result = .ok cs := by
  obtain ⟨renamed,hr⟩ : ∃ renamed, ((levelRenames options (matchMembers olds news)).mapM
      fun r => (renamedChange descend place r).result) = .ok renamed := by
    apply mapM_ok_of_forall
    intro r _
    obtain ⟨nested,hn⟩ := hd r.old r.new place.depth place.ancestors
    exact ⟨_,renamedChange_eq_ok.mpr ⟨nested,hn,rfl⟩⟩
  obtain ⟨modified,hm⟩ : ∃ modified, ((matchMembers olds news).matched.mapM fun p =>
      (modifiedChange options compareTypes descend place p.1 p.2).result) = .ok modified :=
    mapM_ok_of_forall (fun p _ => modifiedChange_ok h hd place p.1 p.2)
  exact ⟨_,level_eq_ok.mpr ⟨renamed,modified,mapM_eq_ok_iff.mp hr,mapM_eq_ok_iff.mp hm,rfl⟩⟩

theorem membersWithin_ok (h : Files compareTypes) (room : Nat) (old new : Declaration)
    (depth : Nat) (ancestors : List String) :
    ∃ cs, (membersWithin options compareTypes room old new depth ancestors).result = .ok cs := by
  induction room generalizing old new depth ancestors with
  | zero => exact ⟨[],membersWithin_zero⟩
  | succ room ih =>
    cases hi : options.includeNested with
    | false => exact ⟨[],membersWithin_of_excluded _ hi⟩
    | true =>
      by_cases hp : old.path ∈ ancestors
      · exact ⟨[],membersWithin_of_repeated _ hp⟩
      · rw [membersWithin_succ room hi hp]
        exact level_ok h ih _ _ _

/-- Two modules can always be compared. -/
theorem modules_ok {oracle : TypeOracle} (h : Files oracle) (old new : Module)
    (options : DiffOptions) : ∃ cs, (modules old new options oracle).result = .ok cs := by
  have hc : Files (typeComparer options oracle) := typeComparer_answers h options
  obtain ⟨cs,hcs⟩ := level_ok hc (membersWithin_ok hc options.maxDepth.toNat) .top
    old.exports new.exports
  exact ⟨cs,modules_eq_ok.mpr hcs⟩

end Filed

end Diff

end ApiRelease
