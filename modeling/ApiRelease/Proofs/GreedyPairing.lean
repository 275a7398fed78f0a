import ApiRelease.Proofs.Pairing
import ApiRelease.Proofs.Ranking
import Mathlib.Data.List.FinRange

/-! # Renames as a stable greedy matching

The pairs of a removed and an added declaration are enumerated row by row: all pairs of
the first removed declaration, then those of the second. Among the pairs of one kind that
score high enough the best one is taken, the earliest among equals, and with it go all
pairs that share a path with it; so on with what is left. The matching is spoken of by the
places of its pairs, since one declaration may stand in several.
-/
namespace ApiRelease.Rename

structure Place (removed added : List Declaration) where
  row : Fin removed.length
  column : Fin added.length

variable {removed added : List Declaration}

namespace Place

def old (p : Place removed added) : Declaration := removed.get p.row

def new (p : Place removed added) : Declaration := added.get p.column

/-- The place comes first when all are gone through row by row. -/
def Earlier (p q : Place removed added) : Prop :=
  p.row < q.row ∨ p.row = q.row ∧ p.column < q.column

def Conflicts (p q : Place removed added) : Prop :=
  p.old.path = q.old.path ∨ p.new.path = q.new.path

def enumerated (removed added : List Declaration) : List (Place removed added) :=
  (List.finRange removed.length).flatMap fun i => (List.finRange added.length).map fun j => ⟨i,j⟩

theorem mem_enumerated (p : Place removed added) : p ∈ enumerated removed added :=
  List.mem_flatMap.mpr ⟨p.row,List.mem_finRange _,List.mem_map_of_mem (List.mem_finRange p.column)⟩

theorem pairwise_enumerated : (enumerated removed added).Pairwise Earlier := by
  refine List.pairwise_flatMap.mpr ⟨fun i _ => ?_,(List.pairwise_lt_finRange _).imp fun hi => ?_⟩
  · exact List.pairwise_map.mpr ((List.pairwise_lt_finRange _).imp fun hj => Or.inr ⟨rfl,hj⟩)
  · simp only [List.forall_mem_map]
    exact fun _ _ _ _ => Or.inl hi

end Place

section Scores

variable {α : Type} [LinearOrder α] (score : Declaration → Declaration → α) (threshold : α)

def scoreAt (p : Place removed added) : α := score p.old p.new

structure Eligible (p : Place removed added) : Prop where
  sameKind : p.old.kind = p.new.kind
  threshold_le : threshold ≤ scoreAt score p

/-- The pair is taken before the other one: for its score, or at one score for its place. -/
def Precedes (p q : Place removed added) : Prop :=
  scoreAt score q < scoreAt score p ∨ scoreAt score p = scoreAt score q ∧ p.Earlier q

def renameAt (p : Place removed added) : Rename α := ⟨p.old,p.new,scoreAt score p⟩

/-- The places of a greedy matching, in the order in which they are taken: no path stands
in two of them, and where a pair is left out, one that shares a path with it is taken
before it. -/
structure IsGreedy (ps : List (Place removed added)) : Prop where
  eligible : ∀ p ∈ ps, Eligible score threshold p
  ordered : ps.Pairwise (Precedes score)
  old_nodup : (ps.map fun p => p.old.path).Nodup
  new_nodup : (ps.map fun p => p.new.path).Nodup
  blocked : ∀ p, Eligible score threshold p → p ∉ ps → ∃ q ∈ ps, q.Conflicts p ∧ Precedes score q p

instance (p : Place removed added) : Decidable (Eligible score threshold p) :=
  decidable_of_iff (p.old.kind = p.new.kind ∧ threshold ≤ scoreAt score p)
    ⟨fun h => ⟨h.1,h.2⟩,fun h => ⟨h.sameKind,h.threshold_le⟩⟩

theorem filterMap_candidate? (ps : List (Place removed added)) :
    ps.filterMap (fun p => candidate? score threshold p.old p.new) =
    (ps.filter fun p => Eligible score threshold p).map (renameAt score) := by
  induction ps with
  | nil => rfl
  | cons p rest ih =>
    by_cases hp : Eligible score threshold p
    · have hc : candidate? score threshold p.old p.new = some (renameAt score p) :=
        if_pos ⟨hp.sameKind,hp.threshold_le⟩
      simp [hp, hc, ih]
    · have hc : candidate? score threshold p.old p.new = none :=
        if_neg fun h => hp ⟨h.1,h.2⟩
      simp [hp, hc, ih]

/-- The candidates are the eligible pairs in the order of the enumeration. -/
theorem candidates_eq : candidates score threshold removed added =
    ((Place.enumerated removed added).filter fun p => Eligible score threshold p).map
      (renameAt score) := by
  have hrow (old : Declaration) : added.filterMap (candidate? score threshold old) =
      (List.finRange added.length).filterMap fun j => candidate? score threshold old (added.get j) := by
    conv_lhs => rw [← List.map_get_finRange added, List.filterMap_map]
    rfl
  rw [← filterMap_candidate?, Place.enumerated, List.filterMap_flatMap, candidates]
  simp only [List.filterMap_map, hrow]
  conv_lhs => rw [← List.map_get_finRange removed, List.flatMap_map]
  rfl

/-- What is picked from a list in which each pair precedes the later ones: what is left out
has a path that is used, from the start or by a pair picked before. -/
theorem exists_picked {ps : List (Place removed added)} (hps : ps.Pairwise (Precedes score))
    (usedOld usedNew : List String) :
    ∃ qs : List (Place removed added), qs.Sublist ps ∧
      pick usedOld usedNew (ps.map (renameAt score)) = qs.map (renameAt score) ∧
      ∀ p ∈ ps, p ∉ qs → p.old.path ∈ usedOld ∨ p.new.path ∈ usedNew ∨
        ∃ q ∈ qs, q.Conflicts p ∧ Precedes score q p := by
  induction hps generalizing usedOld usedNew with
  | nil => exact ⟨[],.slnil,rfl,by simp⟩
  | @cons p rest hp _ ih =>
    by_cases hused : p.old.path ∈ usedOld ∨ p.new.path ∈ usedNew
    · obtain ⟨qs,hsub,hpick,hleft⟩ := ih usedOld usedNew
      refine ⟨qs,hsub.cons p,?_,?_⟩
      · rw [List.map_cons, pick, if_pos (by simpa [renameAt] using hused), hpick]
      · intro r hr hout
        rcases List.mem_cons.mp hr with rfl | hr
        · exact hused.imp_right Or.inl
        · exact hleft r hr hout
    · obtain ⟨qs,hsub,hpick,hleft⟩ := ih (p.old.path :: usedOld) (p.new.path :: usedNew)
      refine ⟨p :: qs,hsub.cons_cons p,?_,?_⟩
      · rw [List.map_cons, pick, if_neg (by simpa [renameAt] using hused)]
        exact congrArg (renameAt score p :: ·) hpick
      · intro r hr hout
        obtain ⟨hrp,hrq⟩ := not_or.mp fun h => hout (List.mem_cons.mpr h)
        have hr := (List.mem_cons.mp hr).resolve_left hrp
        have hblocked (h : p.Conflicts r) : ∃ q ∈ p :: qs, q.Conflicts r ∧ Precedes score q r :=
          ⟨p,List.mem_cons_self,h,hp r hr⟩
        rcases hleft r hr hrq with hold | hnew | ⟨q,hq,hrel⟩
        · rcases List.mem_cons.mp hold with h | h
          · exact Or.inr (Or.inr (hblocked (Or.inl h.symm)))
          · exact Or.inl h
        · rcases List.mem_cons.mp hnew with h | h
          · exact Or.inr (Or.inr (hblocked (Or.inr h.symm)))
          · exact Or.inr (Or.inl h)
        · exact Or.inr (Or.inr ⟨q,List.mem_cons_of_mem p hq,hrel⟩)

/-- The eligible places in the order in which they are looked at. -/
theorem exists_ranked : ∃ ps : List (Place removed added),
    (∀ p, p ∈ ps ↔ Eligible score threshold p) ∧ ps.Pairwise (Precedes score) ∧
    ranked (candidates score threshold removed added) = ps.map (renameAt score) := by
  let key : Place removed added → α := scoreAt score
  let eligible := (Place.enumerated removed added).filter fun p => Eligible score threshold p
  refine ⟨eligible.mergeSort fun p q => decide (key q ≤ key p),fun p => ?_,?_,?_⟩
  · simp [eligible, Place.mem_enumerated]
  · exact Ranking.pairwise_falling_stable key
      (Place.pairwise_enumerated.filter fun p => Eligible score threshold p)
  · rw [candidates_eq, ranked]
    exact (List.map_mergeSort (f := renameAt score) fun p _ q _ => rfl).symm

/-- Renames are a stable greedy matching, whatever the declarations, the scores and the
threshold are. -/
theorem detect_isGreedy : ∃ ps : List (Place removed added),
    detect score threshold removed added = ps.map (renameAt score) ∧
    IsGreedy score threshold ps := by
  obtain ⟨ps : List (Place removed added),hmem,hordered,hranked⟩ := exists_ranked score threshold
  obtain ⟨qs,hsub,hpick,hleft⟩ := exists_picked score hordered [] []
  have hdetect : detect score threshold removed added = qs.map (renameAt score) := by
    rw [detect, hranked, hpick]
  have hold : ((detect score threshold removed added).map (·.old.path)).Nodup := detect_old_nodup
  have hnew : ((detect score threshold removed added).map (·.new.path)).Nodup := detect_new_nodup
  rw [hdetect, List.map_map] at hold hnew
  refine ⟨qs,hdetect,⟨fun p hp => (hmem p).mp (hsub.subset hp),hordered.sublist hsub,hold,hnew,?_⟩⟩
  intro p hp hout
  simpa using hleft p ((hmem p).mpr hp) hout

end Scores

end ApiRelease.Rename
