import ApiRelease.Proofs.Totality

/-! # What a check can find

The first check says that parameters were reordered. Every other one names a target and
what else happened to it, with tags that say what changed and never where the change
stands. Going through the checks once shows it of whatever a pair is classified as, and of
the differences of signatures that it rests on.
-/
namespace ApiRelease

/-- The tag says where a change stands among others, not what changed. -/
def Tag.isOfPlace : Tag → Bool
  | .hasNestedChanges | .isNestedChange => true
  | _ => false

namespace Descriptor

def Placeless (d : Descriptor) : Prop := ∀ t : Tag, t.isOfPlace = true → d.tags.has t = false

theorem placeless_plain {tags : List Tag} (h : ∀ t ∈ tags, t.isOfPlace = false) (target : Target)
    (effect : Effect) : (plain target effect tags).Placeless := by
  intro t ht
  apply Bool.eq_false_iff.mpr
  intro hmem
  have hfree := h t (List.contains_iff_mem.mp hmem)
  simp [ht] at hfree

inductive Found : Descriptor → Prop
  | order : Found (plain .parameter .reordered [])
  | other {target : Target} {effect : Effect} {tags : List Tag} (he : effect ≠ .reordered)
      (ht : ∀ t ∈ tags, t.isOfPlace = false) : Found (plain target effect tags)

theorem Found.placeless {d : Descriptor} (h : d.Found) : d.Placeless := by
  cases h with
  | order => exact placeless_plain (by simp) _ _
  | other _ ht => exact placeless_plain ht _ _

theorem found_untagged {effect : Effect} (he : effect ≠ .reordered) (target : Target) :
    (plain target effect []).Found := .other he (by simp)

theorem eq_of_judged {target : Target} {aspect : Aspect} {verdict : Verdict} {tags : List Tag}
    {d : Descriptor} (h : judged target aspect verdict tags = .ok d) :
    ∃ impact, d = plain target (.modified aspect impact) tags := by
  unfold judged at h
  split at h
  · cases h
    exact ⟨_,rfl⟩
  · cases h
  · obtain ⟨-,-,h⟩ := bind_eq_ok.mp h
    cases h

theorem found_of_judged {target : Target} {aspect : Aspect} {verdict : Verdict} {tags : List Tag}
    (ht : ∀ t ∈ tags, t.isOfPlace = false) {d : Descriptor}
    (h : judged target aspect verdict tags = .ok d) : d.Found := by
  obtain ⟨impact,rfl⟩ := eq_of_judged h
  exact .other (by simp) ht

end Descriptor

theorem TypeParameterChange.found_describe (path : String) (t : TypeParameterChange) :
    (t.describe path).1.Found := by
  have htags : ∀ s ∈ [Tag.affectsTypeParameter], s.isOfPlace = false := by decide
  cases t with
  | removed name => exact .other (by simp) htags
  | added name => exact .other (by simp) htags
  | constraintChanged name o n =>
    simp only [describe]
    split_ifs <;> exact .other (by simp) htags
  | defaultChanged name o n =>
    simp only [describe]
    split_ifs <;> exact .other (by simp) htags

namespace SignatureDifference

def Placeless (d : SignatureDifference) : Prop := ∀ t ∈ d.tags, t.isOfPlace = false

structure Found (d : SignatureDifference) : Prop where
  placeless : d.Placeless
  action : d.action ≠ .reordered

theorem eq_of_descriptor {d : SignatureDifference} {e : Descriptor} (h : d.descriptor = .ok e) :
    ∃ effect, e = .plain d.target effect d.tags ∧ (effect = .reordered → d.action = .reordered) := by
  unfold SignatureDifference.descriptor at h
  cases ha : d.action with
  | modified =>
    simp only [ha] at h
    obtain ⟨impact,rfl⟩ := Descriptor.eq_of_judged h
    exact ⟨_,rfl,by simp⟩
  | added | removed | renamed | reordered =>
    simp only [ha, Except.ok.injEq] at h
    exact ⟨_,h.symm,by simp⟩

theorem Placeless.descriptor {d : SignatureDifference} (hd : d.Placeless) {e : Descriptor}
    (h : d.descriptor = .ok e) : e.Placeless := by
  obtain ⟨effect,rfl,-⟩ := eq_of_descriptor h
  exact Descriptor.placeless_plain hd _ _

end SignatureDifference

namespace Signature

variable {path : String} {compareTypes : TypeOracle}

section Induction

variable {P : SignatureDifference → Prop}
  (hpair : ∀ {o n d}, compareParameter path o n compareTypes = .ok (some d) → P d)
  (hadded : ∀ p, P (addedParameter path p)) (hremoved : ∀ p, P (removedParameter path p))
include hpair hadded hremoved

theorem forall_mem_compareParameters {olds news : List Parameter} {ds : List SignatureDifference}
    (h : compareParameters path compareTypes olds news = .ok ds) : ∀ d ∈ ds, P d := by
  induction olds generalizing news ds with
  | nil =>
    cases news with
    | nil =>
      cases h
      simp
    | cons new news =>
      cases h
      exact List.forall_mem_map.mpr fun p _ => hadded p
  | cons old olds ih =>
    cases news with
    | nil =>
      cases h
      exact List.forall_mem_map.mpr fun p _ => hremoved p
    | cons new news =>
      obtain ⟨here,hhere,h⟩ := bind_eq_ok.mp h
      obtain ⟨rest,hrest,h⟩ := bind_eq_ok.mp h
      cases h
      intro d hd
      rcases List.mem_append.mp hd with hd | hd
      · rw [Option.mem_toList] at hd
        exact hpair (hd ▸ hhere)
      · exact ih hrest d hd

/-- What holds of every difference of a pair, of every parameter that came or went and of
the return type holds of all differences. -/
theorem forall_mem_compare
    (hreturn : ∀ {o n d}, compareReturn path o n compareTypes = .ok (some d) → P d)
    {old new : Signature} {ds : List SignatureDifference}
    (h : compare path old new compareTypes = .ok ds) : ∀ d ∈ ds, P d := by
  obtain ⟨parameters,hp,h⟩ := bind_eq_ok.mp h
  obtain ⟨result,hr,h⟩ := bind_eq_ok.mp h
  cases h
  intro d hd
  rcases List.mem_append.mp hd with hd | hd
  · exact forall_mem_compareParameters hpair hadded hremoved hp d hd
  · rw [Option.mem_toList] at hd
    exact hreturn (hd ▸ hr)

end Induction

theorem isOfPlace_of_mem_tagIf {b : Bool} {s t : Tag} (hs : s.isOfPlace = false)
    (h : t ∈ tagIf b s) : t.isOfPlace = false := by
  unfold tagIf at h
  split at h
  · rwa [List.mem_singleton.mp h]
  · simp at h

theorem isOfPlace_of_mem_append {tags : List Tag} (htags : ∀ t ∈ tags, t.isOfPlace = false)
    (b : Bool) {s : Tag} (hs : s.isOfPlace = false) : ∀ t ∈ tags ++ tagIf b s, t.isOfPlace = false := by
  intro t ht
  rcases List.mem_append.mp ht with ht | ht
  · exact htags t ht
  · exact isOfPlace_of_mem_tagIf hs ht

theorem found_addedParameter (path : String) (p : Parameter) : (addedParameter path p).Found := by
  refine ⟨isOfPlace_of_mem_append (List.forall_mem_cons.mpr ⟨?_,?_⟩) _ rfl,by simp [addedParameter]⟩
  · cases p.isRequired <;> rfl
  · exact fun t ht => isOfPlace_of_mem_tagIf rfl ht

theorem found_removedParameter (path : String) (p : Parameter) :
    (removedParameter path p).Found := by
  refine ⟨isOfPlace_of_mem_append (List.forall_mem_cons.mpr ⟨?_,?_⟩) _ rfl,by simp [removedParameter]⟩
  · cases p.isRequired <;> rfl
  · exact fun t ht => isOfPlace_of_mem_tagIf rfl ht

theorem found_compareParameter {o n : Parameter} {d : SignatureDifference}
    (h : compareParameter path o n compareTypes = .ok (some d)) : d.Found := by
  obtain ⟨verdict,-,h⟩ := bind_eq_ok.mp h
  cases verdict with
  | some verdict =>
    obtain ⟨text,-,h⟩ := bind_eq_ok.mp h
    cases h
    exact ⟨by simp [SignatureDifference.Placeless],by simp⟩
  | none =>
    simp only at h
    split_ifs at h
    · cases h
      exact ⟨isOfPlace_of_mem_append (by decide) _ rfl,by simp⟩
    · cases h
      exact ⟨isOfPlace_of_mem_append (by decide) _ rfl,by simp⟩
    · cases h

theorem found_compareReturn {o n : String} {d : SignatureDifference}
    (h : compareReturn path o n compareTypes = .ok (some d)) : d.Found := by
  obtain ⟨verdict,-,h⟩ := bind_eq_ok.mp h
  cases verdict with
  | some verdict =>
    obtain ⟨text,-,h⟩ := bind_eq_ok.mp h
    cases h
    exact ⟨by simp [SignatureDifference.Placeless],by simp⟩
  | none => cases h

theorem found_of_compare {old new : Signature} {ds : List SignatureDifference}
    (h : compare path old new compareTypes = .ok ds) : ∀ d ∈ ds, d.Found :=
  forall_mem_compare found_compareParameter (found_addedParameter path)
    (found_removedParameter path) found_compareReturn h

end Signature

namespace Classification

variable {compareTypes : TypeOracle} {old new : Facts} {target : Target} {options : DiffOptions}
  {c : Classification}

structure Placeless (c : Classification) : Prop where
  descriptor : c.descriptor.Placeless
  signatureChanges : ∀ d ∈ c.signatureChanges, d.Placeless

structure Found (c : Classification) : Prop where
  descriptor : c.descriptor.Found
  signatureChanges : ∀ d ∈ c.signatureChanges, d.Found

theorem Found.placeless (h : c.Found) : c.Placeless :=
  ⟨h.descriptor.placeless,fun d hd => (h.signatureChanges d hd).placeless⟩

theorem Standalone.found (h : c.Standalone) (hd : c.descriptor.Found) : c.Found :=
  ⟨hd,by simp [h.signatureChanges_eq]⟩

theorem found_plain {d : Descriptor} (hd : d.Found) (text : String) : (plain d text).Found :=
  ⟨hd,by simp [plain]⟩

theorem found_beforeType (h : beforeType old new options = some c) : c.Found := by
  refine (beforeType_standalone h).found ?_
  unfold beforeType at h
  split at h
  · cases h
    exact .order
  · split at h
    · next first _ _ =>
      have hc := Option.some.inj h
      subst hc
      exact TypeParameterChange.found_describe old.path first
    · split at h
      · cases h
        exact Descriptor.found_untagged (by simp) _
      · cases h

theorem found_ofModifiers (h : ofModifiers old new target = some c) : c.descriptor.Found := by
  obtain ⟨rule,hr,rfl⟩ := Option.map_eq_some_iff.mp h
  have htags : ∀ r ∈ modifierRules, ∀ t ∈ r.2.2.2.2.1, t.isOfPlace = false := by decide
  exact .other (by simp) (htags rule (List.mem_of_find?_eq_some hr))

theorem found_ofClause {keyword : String} {aspect : Aspect} {oldNames newNames : List String}
    (h : ofClause old new target keyword aspect oldNames newNames = some c) :
    c.descriptor.Found := by
  simp only [ofClause] at h
  split_ifs at h <;> cases h <;> exact Descriptor.found_untagged (by simp) _

theorem found_ofDeprecation (h : ofDeprecation old new target = some c) : c.descriptor.Found := by
  simp only [ofDeprecation] at h
  split_ifs at h <;> cases h <;> exact Descriptor.found_untagged (by simp) _

theorem found_ofDefaultValue (h : ofDefaultValue old new target = some c) :
    c.descriptor.Found := by
  simp only [ofDefaultValue] at h
  split at h
  · cases h
  · cases h
    exact .other (by simp) (by decide)
  · cases h
    exact .other (by simp) (by decide)
  · split_ifs at h
    cases h
    exact .other (by simp) (by decide)

theorem found_afterType (h : afterType old new target = some c) : c.Found := by
  refine (afterType_standalone h).found ?_
  simp only [afterType, Option.orElse_eq_orElse, Option.orElse_eq_or, Option.or_eq_some_iff] at h
  rcases h with h | ⟨-,h | ⟨-,h | ⟨-,h | ⟨-,h⟩⟩⟩⟩
  · exact found_ofModifiers h
  · exact found_ofClause h
  · exact found_ofClause h
  · exact found_ofDeprecation h
  · exact found_ofDefaultValue h

theorem found_ofRawText (h : ofRawText old new target = some c) : c.Found := by
  refine (ofRawText_standalone h).found ?_
  simp only [ofRawText] at h
  split at h
  · cases h
  · cases h
    exact Descriptor.found_untagged (by simp) _

theorem found_ofSignatures {oldText newText : String} {ds : List SignatureDifference}
    (hd : ∀ d ∈ ds, d.Found) (h : ofSignatures old target oldText newText ds = .ok c) :
    c.Found := by
  cases ds with
  | nil =>
    obtain rfl := Except.ok.inj h
    exact found_plain (Descriptor.found_untagged (by simp) _) _
  | cons first rest =>
    obtain ⟨descriptor,hdescriptor,h⟩ := bind_eq_ok.mp h
    obtain rfl := Except.ok.inj h
    exact ⟨Descriptor.found_of_judged (hd first List.mem_cons_self).placeless hdescriptor,hd⟩

theorem found_ofType (h : ofType old new target compareTypes = .ok (some c)) : c.Found := by
  unfold ofType at h
  split at h
  · exact found_ofRawText (Except.ok.inj h)
  · split at h
    · cases h
    · split at h
      · obtain ⟨ds,hds,h⟩ := bind_eq_ok.mp h
        obtain ⟨d,hd,h⟩ := bind_eq_ok.mp h
        cases h
        exact found_ofSignatures (Signature.found_of_compare hds) hd
      · obtain ⟨verdict,-,h⟩ := bind_eq_ok.mp h
        obtain ⟨descriptor,hdescriptor,h⟩ := bind_eq_ok.mp h
        cases h
        exact found_plain (Descriptor.found_of_judged (by simp) hdescriptor) _

/-- What a pair is classified as was found by one of the checks, or nothing was. -/
theorem origin_of_ofPair (h : ofPair old new options compareTypes = .ok c) :
    beforeType old new options = some c ∨
    ofType old new old.kind.target compareTypes = .ok (some c) ∨
    afterType old new old.kind.target = some c ∨ c = unchanged old.kind.target := by
  unfold ofPair at h
  split at h
  · next d hd =>
    obtain rfl := Except.ok.inj h
    exact Or.inl hd
  · obtain ⟨byType,htype,h⟩ := bind_eq_ok.mp h
    have hlast (d : Classification) (hd : (afterType old new old.kind.target).getD d = c) :
        afterType old new old.kind.target = some c ∨ c = d := by
      cases hafter : afterType old new old.kind.target with
      | none => exact Or.inr (by simpa [hafter] using hd.symm)
      | some e => exact Or.inl (by simpa [hafter] using hd)
    cases byType with
    | none => exact Or.inr (Or.inr (hlast _ (Except.ok.inj h)))
    | some d =>
      simp only at h
      split at h
      · obtain rfl := Except.ok.inj h
        exact Or.inr (Or.inl htype)
      · rcases hlast d (Except.ok.inj h) with hafter | rfl
        · exact Or.inr (Or.inr (Or.inl hafter))
        · exact Or.inr (Or.inl htype)

/-- Whatever the oracle answers, a pair is classified as something that a check can find. -/
theorem found_ofPair (h : ofPair old new options compareTypes = .ok c) : c.Found := by
  rcases origin_of_ofPair h with h | h | h | rfl
  · exact found_beforeType h
  · exact found_ofType h
  · exact found_afterType h
  · exact found_plain (Descriptor.found_untagged (by simp) _) _

end Classification

end ApiRelease
