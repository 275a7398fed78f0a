import ApiRelease.Proofs.Builtin
import ApiRelease.Proofs.Itself

/-! # Further exports on their own make the release minor

If all exports of a module are still there as they were, those that came with them are
the only changes: none can be taken for a rename, since nothing is missing. Every
built-in policy calls them minor, whatever they are.
-/
namespace ApiRelease

structure Module.Gains (old : Module) (extras : List Declaration) (new : Module) : Prop where
  exports : new.exports.Perm (old.exports ++ extras.map fun d => (.text d.path,d))
  distinct : (extras.map (·.path)).Nodup
  fresh : ∀ d ∈ extras, Members.find? (.text d.path) old.exports = none

namespace Module.Gains

variable {old new : Module} {extras : List Declaration}

theorem distinct_exports (h : old.Gains extras new) (ho : old.exports.Distinct) :
    new.exports.Distinct := by
  have hextras : Members.Distinct (extras.map fun d => (.text d.path,d)) := by
    simpa [Members.Distinct, Function.comp_def] using h.distinct.map Scalar.identity_text_injective
  apply Members.Distinct.perm _ h.exports.symm
  unfold Members.Distinct
  rw [List.map_append, List.nodup_append]
  refine ⟨ho,hextras,?_⟩
  intro a ha b hb hab
  obtain ⟨m,hm,rfl⟩ := List.mem_map.mp ha
  obtain ⟨n,hn,rfl⟩ := List.mem_map.mp hb
  obtain ⟨d,hd,rfl⟩ := List.mem_map.mp hn
  exact Members.find?_eq_none_iff.mp (h.fresh d hd) m hm hab

theorem added_perm (h : old.Gains extras new) :
    (matchMembers old.exports new.exports).added.Perm extras := by
  have hkept : old.exports.filter (fun m => (Members.find? m.1 old.exports).isNone) = [] := by
    apply List.filter_eq_nil_iff.mpr
    intro m hm hnone
    rw [Option.isNone_iff_eq_none] at hnone
    exact Members.find?_eq_none_iff.mp hnone m hm rfl
  have hnew : (extras.map fun d => (Scalar.text d.path,d)).filter
      (fun m => (Members.find? m.1 old.exports).isNone) = extras.map fun d => (.text d.path,d) := by
    apply List.filter_eq_self.mpr
    intro m hm
    obtain ⟨d,hd,rfl⟩ := List.mem_map.mp hm
    rw [h.fresh d hd]
    rfl
  have hperm := (h.exports.filter fun m => (Members.find? m.1 old.exports).isNone).map (·.2)
  rw [List.filter_append, hkept, hnew, List.nil_append] at hperm
  simpa [matchMembers, Function.comp_def] using hperm

end Module.Gains

namespace Diff

variable {old new : Module} {extras : List Declaration}

/-- The exports that came are all that is reported. -/
theorem modules_of_gains (ho : old.WellKeyed)
    (hu : ∀ e ∈ old.exports, ∀ d ∈ e.2.walk, TypeParameter.Unambiguous (typeParametersOf d.toFacts))
    (h : old.Gains extras new) (options : DiffOptions) (oracle : TypeOracle) :
    (modules old new options oracle).result =
    .ok ((matchMembers old.exports new.exports).added.map (addedChange .top)) := by
  have hkept : old.exports ⊆ new.exports := fun m hm =>
    h.exports.mem_iff.mpr (List.mem_append_left _ hm)
  obtain ⟨hmatched,hremoved⟩ := matchMembers_of_subset (h.distinct_exports ho.exports) hkept
  rw [modules_eq_ok]
  apply level_of_unchanged hremoved
  rw [hmatched]
  simp only [List.forall_mem_map]
  intro e he
  apply (modifiedChange_self_eq_none_iff (ho.members e he)).mpr
  intro d depth ancestors hr
  exact hu e he d (hr.eq_of_self (ho.members e he)).2

end Diff

namespace Analysis

/-- Further exports, of whatever kind and with whatever members, make the release minor,
and they are all that is classified. -/
theorem release_of_gained_exports {old new : Module} (ho : old.WellKeyed)
    (hu : ∀ e ∈ old.exports, ∀ d ∈ e.2.walk, TypeParameter.Unambiguous (typeParametersOf d.toFacts))
    {extras : List Declaration} (hne : extras ≠ []) (h : old.Gains extras new) {policy : Policy}
    (hp : policy ∈ Policy.builtins) (options : DiffOptions) (oracle : TypeOracle) :
    ∃ a, (ofModules old new policy options oracle).result = .ok a ∧
      a.release = Release.minor.name ∧
      (a.results.map (·.change)).Perm (extras.map (Diff.addedChange .top)) := by
  have hperm := h.added_perm.map (Diff.addedChange .top)
  have hcs := Diff.modules_of_gains ho hu h options oracle
  generalize (matchMembers old.exports new.exports).added.map (Diff.addedChange .top) = cs
    at hperm hcs
  have hshape : ∀ c ∈ cs, ∃ d, c = Diff.addedChange .top d := by
    intro c hc
    obtain ⟨d,-,rfl⟩ := List.mem_map.mp (hperm.mem_iff.mp hc)
    exact ⟨d,rfl⟩
  have hsome : cs ≠ [] := by
    rintro rfl
    exact hne (List.map_eq_nil_iff.mp hperm.nil_eq.symm)
  have hflat : ∀ c ∈ cs, c.nested = [] := by
    intro c hc
    obtain ⟨d,rfl⟩ := hshape c hc
    rfl
  have hminor : ∀ c ∈ cs, (policy.compile.classify c).release = .text Release.minor.name := by
    intro c hc
    obtain ⟨d,rfl⟩ := hshape c hc
    exact Policy.release_of_added_export hp rfl rfl rfl
  obtain ⟨hrelease,hresults⟩ := ofChanges_of_release hsome hflat (by decide) hminor
  refine ⟨_,ofModules_eq_ok.mpr ⟨cs,hcs,rfl⟩,hrelease,?_⟩
  rw [hresults]
  exact hperm

def opens : Declaration := .bare .function "opens" "opens" []

def openMode : Declaration :=
  .bare .enumDecl "Mode" "Mode" [("fast",.bare .enumMember "Mode.fast" "fast" [])]

theorem release_of_gained_opens : ∃ a,
    (ofModules (.plain [(.function,"open"),(.function,"close")])
      (.ofExports [opens,.bare .function "open" "open" [],.bare .function "close" "close" [],openMode]
        "<memory>" "" []) .writeOnly .standard TypeText.heuristic).result = .ok a ∧
      a.release = Release.minor.name ∧ a.results.length = 2 := by
  have ho : (Module.plain [(.function,"open"),(.function,"close")]).WellKeyed :=
    (Module.decoded_plain (by decide) (by decide)).wellKeyed
  have hu : ∀ e ∈ (Module.plain [(.function,"open"),(.function,"close")]).exports, ∀ d ∈ e.2.walk,
      TypeParameter.Unambiguous (typeParametersOf d.toFacts) := by decide +kernel
  have hgains : (Module.plain [(.function,"open"),(.function,"close")]).Gains [opens,openMode]
      (.ofExports [opens,.bare .function "open" "open" [],.bare .function "close" "close" [],openMode]
        "<memory>" "" []) := by
    refine ⟨?_,by decide,by decide⟩
    exact (@List.perm_middle _ (.text "opens",opens)
      (Module.plain [(.function,"open"),(.function,"close")]).exports [(.text "Mode",openMode)]).symm
  have hp : Policy.writeOnly ∈ Policy.builtins := by simp [Policy.builtins]
  obtain ⟨a,ha,hrelease,hresults⟩ := release_of_gained_exports ho hu (by simp) hgains hp .standard
    TypeText.heuristic
  exact ⟨a,ha,hrelease,by simpa using hresults.length_eq⟩

end Analysis

end ApiRelease
