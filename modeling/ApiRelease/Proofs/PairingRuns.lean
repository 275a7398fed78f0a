import ApiRelease.Proofs.Exports
import ApiRelease.Proofs.GreedyPairing
import Mathlib.Data.Multiset.Bind

/-! # Two runs of the rename pairing

Two runs go through the same candidates in another order when the declarations are listed
otherwise or the versions change places, and through fewer candidates when the threshold is
higher. Where no two candidates score the same, the ranking has one order only, and the
first two runs pick the same pairs. A higher threshold cuts off the end of the ranking, so
that the pairs above it are picked as before, ties or no ties.
-/
namespace ApiRelease.Rename

section Reversal

variable {α : Type}

def reversed (r : Rename α) : Rename α := ⟨r.new,r.old,r.confidence⟩

theorem pick_reversed (usedOld usedNew : List String) (cs : List (Rename α)) :
    pick usedNew usedOld (cs.map reversed) = (pick usedOld usedNew cs).map reversed := by
  induction cs generalizing usedOld usedNew with
  | nil => rfl
  | cons r rest ih =>
    have hused : (usedNew.contains r.reversed.old.path || usedOld.contains r.reversed.new.path) =
        (usedOld.contains r.old.path || usedNew.contains r.new.path) := Bool.or_comm _ _
    rw [List.map_cons, pick, pick, hused]
    split
    · exact ih usedOld usedNew
    · exact congrArg (r.reversed :: ·) (ih (r.old.path :: usedOld) (r.new.path :: usedNew))

end Reversal

variable {α : Type} [LinearOrder α]

theorem pairwise_ranked (cs : List (Rename α)) :
    (ranked cs).Pairwise fun r s => s.confidence ≤ r.confidence :=
  Ranking.pairwise_falling confidence cs

theorem ranked_reversed (cs : List (Rename α)) :
    ranked (cs.map reversed) = (ranked cs).map reversed :=
  (List.map_mergeSort (f := reversed) fun _ _ _ _ => rfl).symm

/-- Candidates of which no two score the same are ranked in one order only. -/
theorem ranked_of_perm {cs ds : List (Rename α)} (h : ds.Perm cs)
    (huntied : ∀ r ∈ cs, ∀ s ∈ cs, r.confidence = s.confidence → r = s) : ranked ds = ranked cs := by
  have hperm : (ranked ds).Perm (ranked cs) :=
    (List.mergeSort_perm ds _).trans (h.trans (List.mergeSort_perm cs _).symm)
  refine List.Perm.eq_of_pairwise (fun r s hr hs hsr hrs => ?_) (pairwise_ranked ds)
    (pairwise_ranked cs) hperm
  have hmem {r : Rename α} (hr : r ∈ ranked cs) : r ∈ cs := List.mem_mergeSort.mp hr
  exact huntied r (hmem (hperm.subset hr)) s (hmem hs) (le_antisymm hrs hsr)

variable {score : Declaration → Declaration → α} {threshold : α} {removed added : List Declaration}

/-! ## Another order, and the other direction -/

/-- Of the pairs of one kind that score high enough no two score the same. -/
def Untied (score : Declaration → Declaration → α) (threshold : α)
    (removed added : List Declaration) : Prop :=
  ∀ old ∈ removed, ∀ new ∈ added, old.kind = new.kind → threshold ≤ score old new →
    ∀ old' ∈ removed, ∀ new' ∈ added, old'.kind = new'.kind → threshold ≤ score old' new' →
      score old new = score old' new' → old = old' ∧ new = new'

theorem Untied.eq (h : Untied score threshold removed added) :
    ∀ r ∈ candidates score threshold removed added, ∀ s ∈ candidates score threshold removed added,
      r.confidence = s.confidence → r = s := by
  intro r hr s hs heq
  have hr := joins_of_mem_candidates hr
  have hs := joins_of_mem_candidates hs
  have hscores : score r.old r.new = score s.old s.new := by
    rw [← hr.confidence_eq, ← hs.confidence_eq, heq]
  obtain ⟨hold,hnew⟩ := h r.old hr.old_mem r.new hr.new_mem hr.sameKind
    (hr.confidence_eq ▸ hr.threshold_le) s.old hs.old_mem s.new hs.new_mem hs.sameKind
    (hs.confidence_eq ▸ hs.threshold_le) hscores
  cases r
  cases s
  simp_all

theorem candidates_perm {removed' added' : List Declaration} (hr : removed'.Perm removed)
    (ha : added'.Perm added) : (candidates score threshold removed' added').Perm
      (candidates score threshold removed added) :=
  (hr.flatMap_right _).trans (List.Perm.flatMap_left _ fun _ _ => ha.filterMap _)

theorem candidate?_reversed {old new : Declaration} (h : score new old = score old new) :
    candidate? score threshold new old = (candidate? score threshold old new).map reversed := by
  unfold candidate?
  rw [h]
  by_cases hc : old.kind = new.kind ∧ threshold ≤ score old new
  · rw [if_pos hc, if_pos ⟨hc.1.symm,hc.2⟩]
    rfl
  · rw [if_neg hc, if_neg fun hn => hc ⟨hn.1.symm,hn.2⟩]
    rfl

theorem candidates_reversed (h : ∀ old ∈ removed, ∀ new ∈ added, score new old = score old new) :
    (candidates score threshold added removed).Perm
      ((candidates score threshold removed added).map reversed) := by
  let pairs (old new : Declaration) : Multiset (Rename α) :=
    (candidate? score threshold old new).toList.map reversed
  have hrows : ((candidates score threshold removed added).map reversed : Multiset (Rename α)) =
      (removed : Multiset Declaration).bind fun old => (added : Multiset Declaration).bind (pairs old) := by
    simp only [pairs, Multiset.coe_bind, candidates, List.map_flatMap,
      List.filterMap_eq_flatMap_toList]
  have hcolumns : (candidates score threshold added removed : Multiset (Rename α)) =
      (added : Multiset Declaration).bind fun new => (removed : Multiset Declaration).bind fun old =>
        pairs old new := by
    simp only [pairs, candidates, ← Multiset.coe_bind, List.filterMap_eq_flatMap_toList]
    exact Multiset.bind_congr fun new hnew => Multiset.bind_congr fun old hold => by
      rw [candidate?_reversed (h old hold new hnew), Option.toList_map]
  rw [← Multiset.coe_eq_coe, hrows, hcolumns, Multiset.bind_bind]

/-- Without ties the renames are the same, listed in the same order, in whatever order the
declarations are listed, and read backwards they are the renames from the new version to
the old one. -/
theorem detect_of_untied (huntied : Untied score threshold removed added) :
    (∀ removed' added' : List Declaration, removed'.Perm removed → added'.Perm added →
      detect score threshold removed' added' = detect score threshold removed added) ∧
    ((∀ old ∈ removed, ∀ new ∈ added, score new old = score old new) →
      detect score threshold added removed = (detect score threshold removed added).map reversed) := by
  refine ⟨fun removed' added' hr ha => ?_,fun hsymm => ?_⟩
  · rw [detect, detect, ranked_of_perm (candidates_perm hr ha) huntied.eq]
  · have huntied' : ∀ r ∈ (candidates score threshold removed added).map reversed,
        ∀ s ∈ (candidates score threshold removed added).map reversed,
          r.confidence = s.confidence → r = s := by
      simp only [List.forall_mem_map]
      exact fun r hr s hs heq => congrArg reversed (huntied.eq r hr s hs heq)
    rw [detect, detect, ranked_of_perm (candidates_reversed hsymm) huntied', ranked_reversed,
      pick_reversed]

def functionsNamed (names : List String) : List Declaration :=
  names.map fun name => .bare .function name name []

def nearness (old new : Declaration) : Nat := 10 - Text.editDistance old.name new.name

def oldFetches : List Declaration := functionsNamed ["fetchAll","snatchAny"]

def newFetches : List Declaration := functionsNamed ["fetchAlls","fetchAny"]

theorem detect_fetches : (detect nearness 6 oldFetches newFetches).map
      (fun r => (r.old.path,r.new.path,r.confidence)) =
    [("fetchAll","fetchAlls",9),("snatchAny","fetchAny",7)] := by
  have hranked : ranked (candidates nearness 6 oldFetches newFetches) =
      candidates nearness 6 oldFetches newFetches := List.mergeSort_of_pairwise (by decide +kernel)
  rw [detect, hranked]
  decide +kernel

theorem detect_of_untied_fetches :
    Untied nearness 6 oldFetches newFetches ∧
    (∀ old ∈ oldFetches, ∀ new ∈ newFetches, nearness new old = nearness old new) ∧
    oldFetches.reverse.Perm oldFetches ∧ newFetches.reverse.Perm newFetches ∧
    detect nearness 6 oldFetches.reverse newFetches.reverse = detect nearness 6 oldFetches newFetches ∧
    detect nearness 6 newFetches oldFetches = (detect nearness 6 oldFetches newFetches).map reversed ∧
    (detect nearness 6 oldFetches newFetches).map (fun r => (r.old.path,r.new.path,r.confidence)) =
      [("fetchAll","fetchAlls",9),("snatchAny","fetchAny",7)] := by
  have huntied : Untied nearness 6 oldFetches newFetches := by
    unfold Untied
    decide +kernel
  have hsymm : ∀ old ∈ oldFetches, ∀ new ∈ newFetches, nearness new old = nearness old new := by
    decide +kernel
  have hold := oldFetches.reverse_perm
  have hnew := newFetches.reverse_perm
  exact ⟨huntied,hsymm,hold,hnew,(detect_of_untied huntied).1 _ _ hold hnew,
    (detect_of_untied huntied).2 hsymm,detect_fetches⟩

/-! ## A higher threshold -/

theorem Place.Earlier.asymm {p q : Place removed added} (h : p.Earlier q) : ¬q.Earlier p := by
  rintro (hrow' | ⟨hrow',hcolumn'⟩) <;> rcases h with hrow | ⟨hrow,hcolumn⟩
  · exact lt_asymm hrow hrow'
  · exact hrow'.ne hrow.symm
  · exact hrow.ne hrow'.symm
  · exact lt_asymm hcolumn hcolumn'

theorem Precedes.asymm {p q : Place removed added} (h : Precedes score p q) : ¬Precedes score q p := by
  rintro (hlt' | ⟨heq',hearlier'⟩) <;> rcases h with hlt | ⟨heq,hearlier⟩
  · exact lt_asymm hlt hlt'
  · exact hlt'.ne heq
  · exact hlt.ne heq'
  · exact hearlier.asymm hearlier'

theorem nodup_of_precedes {ps : List (Place removed added)} (h : ps.Pairwise (Precedes score)) :
    ps.Nodup := h.imp fun hpq heq => (heq ▸ hpq).asymm (heq ▸ hpq)

/-- The ranking for a higher threshold is the part of the lower one's that reaches it; ties
stand in the same order in both. -/
theorem ranked_of_le {threshold' : α} (h : threshold ≤ threshold') :
    ranked (candidates score threshold' removed added) =
      (ranked (candidates score threshold removed added)).filter fun r => threshold' ≤ r.confidence := by
  obtain ⟨ps : List (Place removed added),hmem,hordered,hranked⟩ := exists_ranked score threshold
  obtain ⟨qs : List (Place removed added),hmem',hordered',hranked'⟩ := exists_ranked score threshold'
  have hordered'' := hordered.filter fun p => threshold' ≤ scoreAt score p
  have hqs : qs = ps.filter fun p => threshold' ≤ scoreAt score p := by
    refine List.Perm.eq_of_pairwise (fun p q _ _ hpq hqp => absurd hqp hpq.asymm) hordered'
      hordered'' ?_
    refine (List.perm_ext_iff_of_nodup (nodup_of_precedes hordered')
      (nodup_of_precedes hordered'')).mpr fun p => ?_
    rw [hmem', List.mem_filter, hmem, decide_eq_true_eq]
    exact ⟨fun hp => ⟨⟨hp.sameKind,h.trans hp.threshold_le⟩,hp.threshold_le⟩,
      fun hp => ⟨hp.1.sameKind,hp.2⟩⟩
  rw [hranked', hranked, hqs, List.filter_map]
  rfl

/-- From a list with falling scores the pairs that reach a threshold are picked as if the
others were not there, since all of these come later. -/
theorem pick_filter {cs : List (Rename α)} (hcs : cs.Pairwise fun r s => s.confidence ≤ r.confidence)
    (threshold : α) (usedOld usedNew : List String) :
    pick usedOld usedNew (cs.filter fun r => threshold ≤ r.confidence) =
      (pick usedOld usedNew cs).filter fun r => threshold ≤ r.confidence := by
  induction hcs generalizing usedOld usedNew with
  | nil => rfl
  | @cons r rest hr _ ih =>
    by_cases hhigh : threshold ≤ r.confidence
    · rw [List.filter_cons_of_pos (by simpa using hhigh), pick, pick]
      split
      · exact ih usedOld usedNew
      · rw [List.filter_cons_of_pos (by simpa using hhigh), ih]
    · have hlow : ∀ s ∈ r :: rest, ¬threshold ≤ s.confidence :=
        List.forall_mem_cons.mpr ⟨hhigh,fun s hs hle => hhigh (hle.trans (hr s hs))⟩
      have hnone {ds : List (Rename α)} (hds : ds ⊆ r :: rest) :
          (ds.filter fun s => threshold ≤ s.confidence) = [] :=
        List.filter_eq_nil_iff.mpr fun s hs => by simpa using hlow s (hds hs)
      rw [hnone (List.Subset.refl _), hnone (pick_sublist _ _ _).subset, pick]

/-- A higher threshold keeps just the renames that reach it: no pair takes the place of one
that is given up. -/
theorem detect_eq_filter_of_le {threshold' : α} (h : threshold ≤ threshold') :
    detect score threshold' removed added =
      (detect score threshold removed added).filter fun r => threshold' ≤ r.confidence := by
  rw [detect, detect, ranked_of_le h, pick_filter (pairwise_ranked _)]

/-- The second rename is given up, and `fetchAll` does not become `fetchAny` instead. -/
theorem detect_eq_filter_of_le_fetches : 6 ≤ 8 ∧
    detect nearness 8 oldFetches newFetches =
      (detect nearness 6 oldFetches newFetches).filter (fun r => 8 ≤ r.confidence) ∧
    (detect nearness 6 oldFetches newFetches).map (fun r => (r.old.path,r.new.path,r.confidence)) =
      [("fetchAll","fetchAlls",9),("snatchAny","fetchAny",7)] :=
  ⟨by decide,detect_eq_filter_of_le (by decide),detect_fetches⟩

end ApiRelease.Rename
