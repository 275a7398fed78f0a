import ApiRelease.Diff.Match
import Mathlib.Data.List.Nodup

/-! # Which declarations are paired as renames

Every rename joins a removed and an added declaration of one kind whose score
reaches the threshold, and no path is used by two renames, whatever the scores are.
-/
namespace ApiRelease.Rename

variable {α : Type}

theorem pick_sublist (usedOld usedNew : List String) (cs : List (Rename α)) :
    (pick usedOld usedNew cs).Sublist cs := by
  induction cs generalizing usedOld usedNew with
  | nil => exact .slnil
  | cons r rest ih =>
    unfold pick
    split
    · exact (ih usedOld usedNew).cons r
    · exact (ih _ _).cons_cons r

/-- The paths in use are passed over from then on. -/
theorem pick_unused {usedOld usedNew : List String} {cs : List (Rename α)} {r : Rename α}
    (h : r ∈ pick usedOld usedNew cs) : r.old.path ∉ usedOld ∧ r.new.path ∉ usedNew := by
  induction cs generalizing usedOld usedNew with
  | nil => simp [pick] at h
  | cons c rest ih =>
    unfold pick at h
    split at h
    · exact ih h
    · next hc =>
      rcases List.mem_cons.mp h with rfl | h
      · simpa using hc
      · obtain ⟨ho,hn⟩ := ih h
        exact ⟨fun hm => ho (List.mem_cons_of_mem _ hm),fun hm => hn (List.mem_cons_of_mem _ hm)⟩

theorem pick_nodup (usedOld usedNew : List String) (cs : List (Rename α)) :
    ((pick usedOld usedNew cs).map (·.old.path)).Nodup ∧
    ((pick usedOld usedNew cs).map (·.new.path)).Nodup := by
  induction cs generalizing usedOld usedNew with
  | nil => simp [pick]
  | cons c rest ih =>
    unfold pick
    split
    · exact ih _ _
    · obtain ⟨ho,hn⟩ := ih (c.old.path :: usedOld) (c.new.path :: usedNew)
      simp only [List.map_cons, List.nodup_cons]
      refine ⟨⟨?_,ho⟩,⟨?_,hn⟩⟩
      · intro hm
        obtain ⟨r,hr,hpath⟩ := List.mem_map.mp hm
        exact (pick_unused hr).1 (hpath ▸ List.mem_cons_self)
      · intro hm
        obtain ⟨r,hr,hpath⟩ := List.mem_map.mp hm
        exact (pick_unused hr).2 (hpath ▸ List.mem_cons_self)

section Scores

variable [LE α] [DecidableLE α] {score : Declaration → Declaration → α} {threshold : α}
  {removed added : List Declaration}

structure Joins (score : Declaration → Declaration → α) (threshold : α)
    (removed added : List Declaration) (r : Rename α) : Prop where
  old_mem : r.old ∈ removed
  new_mem : r.new ∈ added
  sameKind : r.old.kind = r.new.kind
  confidence_eq : r.confidence = score r.old r.new
  threshold_le : threshold ≤ r.confidence

theorem joins_of_mem_candidates {r : Rename α} (h : r ∈ candidates score threshold removed added) :
    Joins score threshold removed added r := by
  obtain ⟨old,hold,h⟩ := List.mem_flatMap.mp h
  obtain ⟨new,hnew,h⟩ := List.mem_filterMap.mp h
  unfold candidate? at h
  split at h
  · next hc =>
    cases h
    exact ⟨hold,hnew,hc.1,rfl,hc.2⟩
  · cases h

theorem joins_of_mem_detect {r : Rename α} (h : r ∈ detect score threshold removed added) :
    Joins score threshold removed added r := by
  have hr := (pick_sublist _ _ _).subset h
  rw [ranked, List.mem_mergeSort] at hr
  exact joins_of_mem_candidates hr

theorem detect_old_nodup :
    ((detect score threshold removed added).map (·.old.path)).Nodup := (pick_nodup _ _ _).1

theorem detect_new_nodup :
    ((detect score threshold removed added).map (·.new.path)).Nodup := (pick_nodup _ _ _).2

theorem detect_old_subset :
    (detect score threshold removed added).map (·.old.path) ⊆ removed.map (·.path) := by
  intro path hp
  obtain ⟨r,hr,rfl⟩ := List.mem_map.mp hp
  exact List.mem_map_of_mem (joins_of_mem_detect hr).old_mem

theorem detect_new_subset :
    (detect score threshold removed added).map (·.new.path) ⊆ added.map (·.path) := by
  intro path hp
  obtain ⟨r,hr,rfl⟩ := List.mem_map.mp hp
  exact List.mem_map_of_mem (joins_of_mem_detect hr).new_mem

theorem detect_of_removed_nil : detect score threshold [] added = [] := by
  cases h : detect score threshold [] added with
  | nil => rfl
  | cons r rest =>
    have hr : r ∈ detect score threshold [] added := h ▸ List.mem_cons_self
    exact absurd (joins_of_mem_detect hr).old_mem (by simp)

end Scores

theorem unusedOld_eq (renames : List (Rename α)) (ds : List Declaration) :
    unusedOld renames ds = ds.filter fun d => d.path ∉ renames.map (·.old.path) := by
  apply List.filter_congr
  intro d _
  rw [Bool.eq_iff_iff]
  simp

theorem unusedNew_eq (renames : List (Rename α)) (ds : List Declaration) :
    unusedNew renames ds = ds.filter fun d => d.path ∉ renames.map (·.new.path) := by
  apply List.filter_congr
  intro d _
  rw [Bool.eq_iff_iff]
  simp

theorem mem_unusedOld {renames : List (Rename α)} {ds : List Declaration} {d : Declaration} :
    d ∈ unusedOld renames ds ↔ d ∈ ds ∧ d.path ∉ renames.map (·.old.path) := by
  simp [unusedOld_eq, List.mem_filter]

/-- A path that stands once among the declarations is either used or left over, and that
once. -/
theorem count_used_add_unused {used : List String} (hu : used.Nodup) {ds : List Declaration}
    {path : String} (hp : (ds.map (·.path)).count path = 1) :
    used.count path + ((ds.filter fun d => d.path ∉ used).map (·.path)).count path = 1 := by
  by_cases hused : path ∈ used
  · have hgone : path ∉ (ds.filter fun d => d.path ∉ used).map (·.path) := by
      intro h
      obtain ⟨d,hd,rfl⟩ := List.mem_map.mp h
      simp [hused] at hd
    rw [List.count_eq_one_of_mem hu hused, List.count_eq_zero_of_not_mem hgone]
  · have hmem : path ∈ ds.map (·.path) := List.count_pos_iff.mp (by omega)
    have hstays : path ∈ (ds.filter fun d => d.path ∉ used).map (·.path) := by
      obtain ⟨d,hd,rfl⟩ := List.mem_map.mp hmem
      exact List.mem_map_of_mem (List.mem_filter.mpr ⟨hd,by simpa using hused⟩)
    have hle : ((ds.filter fun d => d.path ∉ used).map (·.path)).count path ≤ 1 :=
      hp ▸ (List.filter_sublist.map _).count_le path
    have hpos := List.count_pos_iff.mpr hstays
    rw [List.count_eq_zero_of_not_mem hused]
    omega

end ApiRelease.Rename
