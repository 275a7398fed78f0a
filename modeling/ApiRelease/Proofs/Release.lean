import ApiRelease.Policy.Analysis
import ApiRelease.Proofs.Runs

/-! # How one change decides the release

Every change of the forest is classified, and the release is at least as severe as
any of them asks for. So one change that a policy calls major makes the release
major, however deep it lies and whatever else changed, and changes that all ask for one
release get that one.
-/
namespace ApiRelease

namespace Release

theorem severityOf_moreSevere (s t : String) :
    severityOf (moreSevere s t) = max (severityOf s) (severityOf t) := by
  unfold moreSevere
  split <;> omega

theorem severityOf_le_foldl (s : String) (types : List String) :
    severityOf s ≤ severityOf (types.foldl moreSevere s) := by
  induction types generalizing s with
  | nil => exact Nat.le_refl _
  | cons t rest ih =>
    have h := ih (moreSevere s t)
    rw [severityOf_moreSevere] at h
    rw [List.foldl_cons]
    omega

theorem severityOf_le_mostSevere {types : List String} {t : String} (h : t ∈ types) :
    severityOf t ≤ severityOf (mostSevere types) := by
  obtain ⟨before,after,rfl⟩ := List.append_of_mem h
  have hlater := severityOf_le_foldl (moreSevere (before.foldl moreSevere (name .none)) t) after
  rw [severityOf_moreSevere] at hlater
  rw [mostSevere, List.foldl_append, List.foldl_cons]
  omega

theorem eq_major_of_severityOf {s : String} (h : severity .major ≤ severityOf s) :
    s = name .major := by
  unfold severityOf at h
  cases hp : (Vocabulary.parse? s : Option Release) with
  | none => simp [hp, severity] at h
  | some r =>
    have hr : r = .major := by
      cases r <;> simp [hp, severity] at h ⊢
    subst hr
    exact (Vocabulary.name_of_parse? hp).symm

theorem mostSevere_eq_major {types : List String} (h : name .major ∈ types) :
    mostSevere types = name .major :=
  eq_major_of_severityOf (severityOf_le_mostSevere h)

theorem foldl_moreSevere_mem (s : String) (types : List String) :
    types.foldl moreSevere s ∈ s :: types := by
  induction types generalizing s with
  | nil => exact List.mem_cons_self
  | cons t rest ih =>
    rw [List.foldl_cons]
    rcases List.mem_cons.mp (ih (moreSevere s t)) with h | h
    · rw [h, moreSevere]
      split
      · exact List.mem_cons_of_mem _ List.mem_cons_self
      · exact List.mem_cons_self
    · exact List.mem_cons_of_mem _ (List.mem_cons_of_mem _ h)

@[simp] theorem severityOf_name (r : Release) : severityOf (name r) = severity r := by
  change ((Vocabulary.parse? (Vocabulary.name r)).map severity).getD 0 = _
  simp

/-- Where all ask for one release, which is more than none, that is the release. -/
theorem mostSevere_of_forall {r : Release} (hr : 0 < severity r) {types : List String}
    (hne : types ≠ []) (h : ∀ t ∈ types, t = name r) : mostSevere types = name r := by
  obtain ⟨t,ht⟩ := List.exists_mem_of_ne_nil types hne
  have hsevere := severityOf_le_mostSevere ht
  rw [h t ht, severityOf_name] at hsevere
  rcases List.mem_cons.mp (foldl_moreSevere_mem (name .none) types) with hnone | hmem
  · rw [mostSevere, hnone] at hsevere
    exact absurd (Nat.lt_of_lt_of_le hr hsevere) (by decide)
  · exact h _ hmem

end Release

namespace Change

inductive Within : Change → List Change → Prop
  | here {c : Change} {cs : List Change} (h : c ∈ cs) : Within c cs
  | inside {c d : Change} {cs : List Change} (h : d ∈ cs) (hc : Within c d.nested) : Within c cs

theorem flatten_eq (inside : Bool) (c : Change) :
    flatten inside c = listed inside c :: flattenNested c.nested := by
  cases c
  rw [flatten]

theorem mem_flattenNested {c : Change} {cs : List Change} :
    c ∈ flattenNested cs ↔ ∃ d ∈ cs, c ∈ flatten true d := by
  induction cs with
  | nil => simp [flattenNested]
  | cons d rest ih => simp [flattenNested, ih]

theorem Within.mem_flattenNested {c : Change} {cs : List Change} (h : Within c cs) :
    listed true c ∈ flattenNested cs := by
  induction h with
  | here h =>
    refine Change.mem_flattenNested.mpr ⟨_,h,?_⟩
    rw [flatten_eq]
    exact List.mem_cons_self
  | inside h _ ih =>
    refine Change.mem_flattenNested.mpr ⟨_,h,?_⟩
    rw [flatten_eq]
    exact List.mem_cons_of_mem _ ih

/-- A change of the forest is listed, with at most a tag more. -/
theorem Within.mem_flattenAll {c : Change} {cs : List Change} (h : Within c cs) :
    ∃ inside, listed inside c ∈ flattenAll cs := by
  cases h with
  | here h =>
    refine ⟨false,List.mem_flatMap.mpr ⟨c,h,?_⟩⟩
    rw [flatten_eq]
    exact List.mem_cons_self
  | inside h hc =>
    refine ⟨true,List.mem_flatMap.mpr ⟨_,h,?_⟩⟩
    rw [flatten_eq]
    exact List.mem_cons_of_mem _ hc.mem_flattenNested

/-- Changes that have nothing nested in them are all that is listed. -/
theorem flattenAll_of_nested_nil {cs : List Change} (h : ∀ c ∈ cs, c.nested = []) :
    flattenAll cs = cs := by
  have hflat : ∀ c ∈ cs, flatten false c = [c] := by
    intro c hc
    rw [flatten_eq, h c hc]
    rfl
  rw [flattenAll, List.flatMap_congr hflat]
  exact List.flatMap_singleton' cs

@[simp] theorem listed_effect (inside : Bool) (c : Change) :
    (listed inside c).descriptor.effect = c.descriptor.effect := by
  cases inside <;> rfl

@[simp] theorem listed_target (inside : Bool) (c : Change) :
    (listed inside c).descriptor.target = c.descriptor.target := by
  cases inside <;> rfl

@[simp] theorem listed_context (inside : Bool) (c : Change) :
    (listed inside c).context = c.context := by
  cases inside <;> rfl

/-- Listing adds no tag but that of a nested change. -/
theorem has_listed (inside : Bool) (c : Change) {t : Tag} (h : t ≠ .isNestedChange) :
    (listed inside c).descriptor.tags.has t = c.descriptor.tags.has t := by
  cases inside with
  | false => rfl
  | true => simp [listed, Descriptor.withTag, h]

end Change

theorem CompiledPolicy.change_classify (p : CompiledPolicy) (c : Change) :
    (p.classify c).change = c := by
  unfold classify
  cases p.matching? c <;> rfl

namespace Analysis

variable {policy : Policy} {options : DiffOptions} {oracle : TypeOracle} {old new : Module}

theorem ofModules_eq_ok {a : Analysis} :
    (ofModules old new policy options oracle).result = .ok a ↔
    ∃ cs, (Diff.modules old new options oracle).result = .ok cs ∧ a = ofChanges policy.compile cs := by
  unfold ofModules
  simp only [Traced.result_bind_eq_ok, Traced.result_noteAll, Traced.result_note,
    Traced.result_pure]
  constructor
  · rintro ⟨-,-,cs,hcs,-,-,h⟩
    cases h
    exact ⟨cs,hcs,rfl⟩
  · rintro ⟨cs,hcs,rfl⟩
    exact ⟨(),trivial,cs,hcs,(),trivial,rfl⟩

/-- One change that is major makes the release major. -/
theorem release_ofChanges {p : CompiledPolicy} {cs : List Change} {c : Change}
    (hc : Change.Within c cs)
    (hm : ∀ inside, (p.classify (c.listed inside)).release = .text (Release.name .major)) :
    (ofChanges p cs).release = Release.name .major := by
  obtain ⟨inside,hin⟩ := hc.mem_flattenAll
  apply Release.mostSevere_eq_major
  have hmem : p.classify (c.listed inside) ∈ p.classifyAll true cs := List.mem_map_of_mem hin
  refine List.mem_map.mpr ⟨_,hmem,?_⟩
  rw [hm inside]
  rfl

/-- Changes of which none has another nested in it, and which all ask for one release. -/
theorem ofChanges_of_release {p : CompiledPolicy} {cs : List Change} (hne : cs ≠ [])
    (hflat : ∀ c ∈ cs, c.nested = []) {r : Release} (hr : 0 < r.severity)
    (h : ∀ c ∈ cs, (p.classify c).release = .text r.name) :
    (ofChanges p cs).release = r.name ∧ (ofChanges p cs).results.map (·.change) = cs := by
  have hresults : (ofChanges p cs).results = cs.map p.classify := by
    change (Change.flattenAll cs).map p.classify = _
    rw [Change.flattenAll_of_nested_nil hflat]
  constructor
  · change overallRelease (ofChanges p cs).results = _
    rw [hresults]
    apply Release.mostSevere_of_forall hr
    · simpa using hne
    · simp only [List.map_map, List.forall_mem_map]
      intro c hc
      simp only [Function.comp_apply, h c hc]
      rfl
  · rw [hresults, List.map_map]
    exact List.map_id'' (fun c => CompiledPolicy.change_classify p c) cs

end Analysis

end ApiRelease
