import ApiRelease.Proofs.Exports
import ApiRelease.Proofs.Totality
import Mathlib.Data.List.Count
import Mathlib.Data.Option.Basic

/-! # Every export is accounted for

The changes between two modules come in four runs. What only one module exports is
told once, in the run of the renames or in that of its side, and what both export is
told at most once, in the last run. The last three runs keep the order of a module.
-/
namespace ApiRelease

namespace Change

def countAt (path : String) (cs : List Change) : Nat := (cs.map (·.path)).count (.text path)

def countTo (path : String) (cs : List Change) : Nat :=
  (cs.map fun c => c.newNode.map (·.path)).count (some path)

theorem text_injective : Function.Injective Value.text := by
  intro a b hab
  simpa using hab

theorem countAt_of_paths {cs : List Change} {paths : List String}
    (h : cs.map (·.path) = paths.map .text) (path : String) : countAt path cs = paths.count path := by
  rw [countAt, h, List.count_map_of_injective _ _ text_injective]

theorem countAt_append (path : String) (cs ds : List Change) :
    countAt path (cs ++ ds) = countAt path cs + countAt path ds := by
  simp [countAt]

theorem countTo_of_paths {cs : List Change} {paths : List String}
    (h : (cs.map fun c => c.newNode.map (·.path)) = paths.map some) (path : String) :
    countTo path cs = paths.count path := by
  rw [countTo, h, List.count_map_of_injective _ _ (Option.some_injective _)]

end Change

/-- The paths that only one of two modules has are split into those that renames use and
those that are left over. -/
structure Rename.Splits (used left paths others : List String) : Prop where
  once : ∀ path ∈ paths, path ∉ others → used.count path + left.count path = 1
  never : ∀ path ∈ others, used.count path = 0 ∧ left.count path = 0
  order : left.Sublist paths

theorem Rename.splits {used paths others : List String} {ds : List Declaration}
    (hds : ds.map (·.path) = paths.filter (· ∉ others)) (hpaths : paths.Nodup) (hused : used.Nodup)
    (hsubset : used ⊆ ds.map (·.path)) :
    Splits used ((ds.filter fun d => d.path ∉ used).map (·.path)) paths others := by
  have hleft : ((ds.filter fun d => d.path ∉ used).map (·.path)).Sublist (ds.map (·.path)) :=
    List.filter_sublist.map _
  refine ⟨?_,?_,?_⟩
  · intro path hp ho
    apply count_used_add_unused hused
    rw [hds]
    exact List.count_eq_one_of_mem (hpaths.filter _) (List.mem_filter.mpr ⟨hp,by simpa using ho⟩)
  · intro path ho
    have hnot : path ∉ ds.map (·.path) := by simp [hds, ho]
    exact ⟨List.count_eq_zero_of_not_mem fun h => hnot (hsubset h),
      List.count_eq_zero_of_not_mem fun h => hnot (hleft.subset h)⟩
  · rw [hds] at hleft
    exact hleft.trans List.filter_sublist

namespace Diff

structure Accounts (old new : Module) (renamed removed added modified : List Change) : Prop where
  renamed_effect : ∀ c ∈ renamed, c.descriptor.effect = .renamed
  removed_effect : ∀ c ∈ removed, c.descriptor.effect = .removed
  added_effect : ∀ c ∈ added, c.descriptor.effect = .added
  lost : ∀ path ∈ old.exportPaths, path ∉ new.exportPaths →
    Change.countAt path renamed + Change.countAt path removed = 1
  gained : ∀ path ∈ new.exportPaths, path ∉ old.exportPaths →
    Change.countTo path renamed + Change.countAt path added = 1
  kept : ∀ path ∈ old.exportPaths, path ∈ new.exportPaths →
    Change.countAt path (renamed ++ removed ++ added) = 0 ∧ Change.countTo path renamed = 0 ∧
    Change.countAt path modified ≤ 1
  removed_order : (removed.map (·.path)).Sublist (old.exportPaths.map .text)
  added_order : (added.map (·.path)).Sublist (new.exportPaths.map .text)
  modified_order : (modified.map (·.path)).Sublist
    ((old.exportPaths.filter (· ∈ new.exportPaths)).map .text)

section Paths

variable {options : DiffOptions} {compareTypes : TypeOracle} {descend : Descent} {place : Place}

theorem renamed_paths {renames : List (Rename Float)} {cs : List Change}
    (h : List.Forall₂ (fun r c => (renamedChange descend place r).result = .ok c) renames cs) :
    cs.map (·.path) = (renames.map (·.old.path)).map .text ∧
    (cs.map fun c => c.newNode.map (·.path)) = (renames.map (·.new.path)).map some ∧
    ∀ c ∈ cs, c.descriptor.effect = .renamed := by
  induction h with
  | nil => simp
  | cons hr _ ih =>
    obtain ⟨nested,-,rfl⟩ := renamedChange_eq_ok.mp hr
    obtain ⟨hold,hnew,heffect⟩ := ih
    refine ⟨by simp [hold, renamedWith],by simp [hnew, renamedWith],?_⟩
    intro c hc
    rcases List.mem_cons.mp hc with rfl | hc
    · simp [renamedWith, Descriptor.plain]
    · exact heffect c hc

theorem removedChange_paths (ds : List Declaration) :
    (ds.map (removedChange place)).map (·.path) = (ds.map (·.path)).map .text := by
  simp [removedChange, Function.comp_def]

theorem addedChange_paths (ds : List Declaration) :
    (ds.map (addedChange place)).map (·.path) = (ds.map (·.path)).map .text := by
  simp [addedChange, Function.comp_def]

/-- Pairs in which nothing changed are left out; the others keep their order. -/
theorem modified_paths {ps : List (Declaration × Declaration)} {os : List (Option Change)}
    (h : List.Forall₂ (fun p o =>
      (modifiedChange options compareTypes descend place p.1 p.2).result = .ok o) ps os) :
    ((os.filterMap id).map (·.path)).Sublist ((ps.map (·.1.path)).map .text) := by
  induction h with
  | nil => exact .slnil
  | @cons p o _ _ hp _ ih =>
    cases o with
    | none => exact ih.cons _
    | some c =>
      simp only [List.filterMap_cons, id_eq, List.map_cons]
      rw [path_of_modifiedChange hp]
      exact ih.cons_cons _

end Paths

section Exports

variable {old new : Module} (ho : old.Decoded) (hn : new.Decoded)
include ho hn

theorem isNone_find?_export {e : Scalar × Declaration} (he : e ∈ old.exports) :
    (Members.find? e.1 new.exports).isNone = decide (e.2.path ∉ new.exportPaths) := by
  rw [ho.key_of_mem he, Bool.eq_iff_iff, decide_eq_true_eq, Option.isNone_iff_eq_none,
    hn.find?_eq_none_iff]

theorem removed_paths : (matchMembers old.exports new.exports).removed.map (·.path) =
    old.exportPaths.filter (· ∉ new.exportPaths) := by
  simp only [matchMembers, List.map_map]
  rw [List.filter_congr fun e he => isNone_find?_export ho hn he]
  simp only [Module.exportPaths, List.filter_map]
  rfl

theorem added_paths : (matchMembers old.exports new.exports).added.map (·.path) =
    new.exportPaths.filter (· ∉ old.exportPaths) := by
  simp only [matchMembers, List.map_map]
  rw [List.filter_congr fun e he => isNone_find?_export hn ho he]
  simp only [Module.exportPaths, List.filter_map]
  rfl

theorem matched_paths : (matchMembers old.exports new.exports).matched.map (·.1.path) =
    old.exportPaths.filter (· ∈ new.exportPaths) := by
  change _ = (old.exports.map fun e => e.2.path).filter (· ∈ new.exportPaths)
  rw [← List.filterMap_eq_filter, List.filterMap_map, matchMembers, List.map_filterMap]
  apply List.filterMap_congr
  intro e he
  have hnone := isNone_find?_export ho hn he
  cases hfind : Members.find? e.1 new.exports with
  | none =>
    have hp : e.2.path ∉ new.exportPaths := by simpa [hfind] using hnone
    simp [Option.guard, hp]
  | some n =>
    have hp : e.2.path ∈ new.exportPaths := by simpa [hfind] using hnone
    simp [hp]

theorem lost_splits (options : DiffOptions) : Rename.Splits
    ((levelRenames options (matchMembers old.exports new.exports)).map (·.old.path))
    ((Rename.unusedOld (levelRenames options (matchMembers old.exports new.exports))
      (matchMembers old.exports new.exports).removed).map (·.path))
    old.exportPaths new.exportPaths := by
  rw [Rename.unusedOld_eq]
  exact Rename.splits (removed_paths ho hn) ho.exportPaths_nodup Rename.detect_old_nodup
    Rename.detect_old_subset

theorem gained_splits (options : DiffOptions) : Rename.Splits
    ((levelRenames options (matchMembers old.exports new.exports)).map (·.new.path))
    ((Rename.unusedNew (levelRenames options (matchMembers old.exports new.exports))
      (matchMembers old.exports new.exports).added).map (·.path))
    new.exportPaths old.exportPaths := by
  rw [Rename.unusedNew_eq]
  exact Rename.splits (added_paths ho hn) hn.exportPaths_nodup Rename.detect_new_nodup
    Rename.detect_new_subset

/-- The changes between two modules account for all that they export. -/
theorem modules_account {options : DiffOptions} {oracle : TypeOracle} {cs : List Change}
    (h : (modules old new options oracle).result = .ok cs) :
    ∃ renamed removed added modified, cs = renamed ++ removed ++ added ++ modified ∧
      Accounts old new renamed removed added modified := by
  obtain ⟨renamed,modified,hr,hm,rfl⟩ := level_eq_ok.mp (modules_eq_ok.mp h)
  obtain ⟨hfrom,hto,heffect⟩ := renamed_paths hr
  have hlost := lost_splits ho hn options
  have hgained := gained_splits ho hn options
  have hmodified := modified_paths hm
  rw [matched_paths ho hn] at hmodified
  refine ⟨renamed,_,_,_,rfl,heffect,?_,?_,?_,?_,?_,?_,?_,hmodified⟩
  · intro c hc
    obtain ⟨d,-,rfl⟩ := List.mem_map.mp hc
    rfl
  · intro c hc
    obtain ⟨d,-,rfl⟩ := List.mem_map.mp hc
    rfl
  · intro path hold hnew
    rw [Change.countAt_of_paths hfrom, Change.countAt_of_paths (removedChange_paths _)]
    exact hlost.once path hold hnew
  · intro path hnew hold
    rw [Change.countTo_of_paths hto, Change.countAt_of_paths (addedChange_paths _)]
    exact hgained.once path hnew hold
  · intro path hold hnew
    obtain ⟨hfromZero,hremovedZero⟩ := hlost.never path hnew
    obtain ⟨htoZero,haddedZero⟩ := hgained.never path hold
    refine ⟨?_,?_,?_⟩
    · rw [Change.countAt_append, Change.countAt_append, Change.countAt_of_paths hfrom,
        Change.countAt_of_paths (removedChange_paths _),
        Change.countAt_of_paths (addedChange_paths _), hfromZero, hremovedZero, haddedZero]
    · rw [Change.countTo_of_paths hto, htoZero]
    · have hnodup := (ho.exportPaths_nodup.filter (· ∈ new.exportPaths)).map Change.text_injective
      exact List.nodup_iff_count_le_one.mp (hnodup.sublist hmodified) _
  · rw [removedChange_paths]
    exact hlost.order.map _
  · rw [addedChange_paths]
    exact hgained.order.map _

end Exports

theorem modules_account_of_open : ∃ cs renamed removed added modified,
    (modules (.plain [(.function,"open"),(.function,"close")])
      (.plain [(.function,"close"),(.enumDecl,"Mode"),(.function,"opens")]) .standard
      TypeText.heuristic).result = .ok cs ∧
    cs = renamed ++ removed ++ added ++ modified ∧
    Accounts (.plain [(.function,"open"),(.function,"close")])
      (.plain [(.function,"close"),(.enumDecl,"Mode"),(.function,"opens")])
      renamed removed added modified := by
  have ho : (Module.plain [(.function,"open"),(.function,"close")]).Decoded :=
    Module.decoded_plain (by decide) (by decide)
  have hn : (Module.plain [(.function,"close"),(.enumDecl,"Mode"),(.function,"opens")]).Decoded :=
    Module.decoded_plain (by decide) (by decide)
  obtain ⟨cs,hcs⟩ := modules_ok (TypeText.heuristic_answers _)
    (.plain [(.function,"open"),(.function,"close")])
    (.plain [(.function,"close"),(.enumDecl,"Mode"),(.function,"opens")]) .standard
  obtain ⟨renamed,removed,added,modified,hruns,haccounts⟩ := modules_account ho hn hcs
  exact ⟨cs,renamed,removed,added,modified,hcs,hruns,haccounts⟩

end Diff

end ApiRelease
