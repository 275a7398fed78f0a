import ApiRelease.Proofs.Members
import ApiRelease.Proofs.Pairing
import ApiRelease.Proofs.Runs

/-! # What one level reports

A level that ends well reports its renames, the removed and added declarations that
no rename uses, and the matched pairs in which something changed. Entering a
declaration is one more level, with one less to go.
-/
namespace ApiRelease.Diff

variable {options : DiffOptions} {compareTypes : TypeOracle} {descend : Descent} {place : Place}

@[simp] theorem tagNested_effect (d : Descriptor) (nested : List Change) :
    (tagNested d nested).effect = d.effect := by
  unfold tagNested
  split <;> rfl

@[simp] theorem tagNested_target (d : Descriptor) (nested : List Change) :
    (tagNested d nested).target = d.target := by
  unfold tagNested
  split <;> rfl

theorem has_tagNested (d : Descriptor) (nested : List Change) {t : Tag} (h : t ≠ .hasNestedChanges) :
    (tagNested d nested).tags.has t = d.tags.has t := by
  unfold tagNested
  split
  · rfl
  · simp [Descriptor.withTag, h]

theorem renamedChange_eq_ok {r : Rename Float} {c : Change} :
    (renamedChange descend place r).result = .ok c ↔
    ∃ nested, (descend r.old r.new place.depth place.ancestors).result = .ok nested ∧
      c = renamedWith place r nested := by
  unfold renamedChange
  rw [Traced.result_bind_eq_ok]
  constructor
  · rintro ⟨nested,hn,h⟩
    cases h
    exact ⟨nested,hn,rfl⟩
  · rintro ⟨nested,hn,rfl⟩
    exact ⟨nested,hn,rfl⟩

/-- A pair that cannot be compared is left out if its failure is one of comparing. -/
theorem modifiedChange_of_error {old new : Declaration} {f : Fault}
    (hf : Classification.ofPair old.toFacts new.toFacts options compareTypes = .error f)
    {o : Option Change} :
    (modifiedChange options compareTypes descend place old new).result = .ok o ↔
    isOfComparison f = true ∧ o = none := by
  unfold modifiedChange
  rw [hf]
  simp only
  split
  · next hc =>
    constructor
    · intro h
      cases h
      exact ⟨hc,rfl⟩
    · rintro ⟨-,rfl⟩
      rfl
  · next hc =>
    constructor
    · intro h
      cases h
    · rintro ⟨h,-⟩
      exact absurd h hc

/-- A pair that can be compared is reported unless nothing changed in or inside it. -/
theorem modifiedChange_of_ok {old new : Declaration} {c : Classification}
    (hc : Classification.ofPair old.toFacts new.toFacts options compareTypes = .ok c)
    {o : Option Change} :
    (modifiedChange options compareTypes descend place old new).result = .ok o ↔
    ∃ fromSignature inside,
      signatureChanges options old new place c = .ok fromSignature ∧
      (descend old new place.depth place.ancestors).result = .ok inside ∧
      o = if c.isEquivalent && (fromSignature ++ inside).isEmpty then none
        else some (modifiedWith place old new c (fromSignature ++ inside)) := by
  have hnotes : (c.anomalies.forM noteAnomaly).result = .ok () :=
    Traced.result_forM _ _ (fun _ => rfl)
  unfold modifiedChange
  rw [hc]
  simp only [Traced.result_bind_eq_ok, Traced.result_lift, Traced.result_pure]
  constructor
  · rintro ⟨-,-,fromSignature,hs,inside,hi,h⟩
    cases h
    exact ⟨fromSignature,inside,hs,hi,rfl⟩
  · rintro ⟨fromSignature,inside,hs,hi,rfl⟩
    exact ⟨(),hnotes,fromSignature,hs,inside,hi,rfl⟩

/-- Each change among those of the signatures was made from one difference. -/
theorem of_mem_signatureChanges {old new : Declaration} {k : Classification} {cs : List Change}
    (h : signatureChanges options old new place k = .ok cs) {c : Change} (hc : c ∈ cs) :
    ∃ d ∈ k.signatureChanges, signatureChange old new place d = .ok c := by
  unfold signatureChanges at h
  split at h
  · exact exists_left_of_forall₂ (mapM_eq_ok_iff.mp h) hc
  · cases h
    simp at hc

theorem signatureChanges_of_nil {c : Classification} (h : c.signatureChanges = [])
    (options : DiffOptions) (old new : Declaration) (place : Place) :
    signatureChanges options old new place c = .ok [] := by
  unfold signatureChanges
  rw [h]
  split <;> rfl

theorem modifiedChange_eq_none {old new : Declaration} {c : Classification}
    (hc : Classification.ofPair old.toFacts new.toFacts options compareTypes = .ok c)
    (he : c.isEquivalent = true) (hs : c.signatureChanges = [])
    (hi : (descend old new place.depth place.ancestors).result = .ok []) :
    (modifiedChange options compareTypes descend place old new).result = .ok none :=
  (modifiedChange_of_ok hc).mpr ⟨[],[],signatureChanges_of_nil hs ..,hi,by simp [he]⟩

/-- In a pair that is passed over no check found anything, and nothing is nested in it. -/
theorem of_modifiedChange_eq_none {old new : Declaration} {c : Classification}
    (hc : Classification.ofPair old.toFacts new.toFacts options compareTypes = .ok c)
    (h : (modifiedChange options compareTypes descend place old new).result = .ok none) :
    c.isEquivalent = true ∧ (descend old new place.depth place.ancestors).result = .ok [] := by
  obtain ⟨fromSignature,inside,-,hinside,hnone⟩ := (modifiedChange_of_ok hc).mp h
  split at hnone
  · next hquiet =>
    simp only [Bool.and_eq_true, List.isEmpty_iff, List.append_eq_nil_iff] at hquiet
    obtain ⟨hequivalent,-,rfl⟩ := hquiet
    exact ⟨hequivalent,hinside⟩
  · cases hnone

/-- A pair is reported for what is nested in it, also if nothing else changed. -/
theorem modifiedChange_of_nested {old new : Declaration} {c : Classification}
    (hc : Classification.ofPair old.toFacts new.toFacts options compareTypes = .ok c)
    {fromSignature inside : List Change}
    (hs : signatureChanges options old new place c = .ok fromSignature)
    (hi : (descend old new place.depth place.ancestors).result = .ok inside)
    (hne : fromSignature ++ inside ≠ []) :
    (modifiedChange options compareTypes descend place old new).result =
    .ok (some (modifiedWith place old new c (fromSignature ++ inside))) := by
  have hsome : (fromSignature ++ inside).isEmpty = false := List.isEmpty_eq_false_iff.mpr hne
  exact (modifiedChange_of_ok hc).mpr ⟨fromSignature,inside,hs,hi,by simp [hsome]⟩

/-- A pair that is reported was classified, and a check found something in it or something
is nested in it. -/
theorem of_modifiedChange {old new : Declaration} {c : Change}
    (h : (modifiedChange options compareTypes descend place old new).result = .ok (some c)) :
    ∃ k fromSignature inside,
      Classification.ofPair old.toFacts new.toFacts options compareTypes = .ok k ∧
      signatureChanges options old new place k = .ok fromSignature ∧
      (descend old new place.depth place.ancestors).result = .ok inside ∧
      (k.isEquivalent = true → fromSignature ++ inside ≠ []) ∧
      c = modifiedWith place old new k (fromSignature ++ inside) := by
  cases hp : Classification.ofPair old.toFacts new.toFacts options compareTypes with
  | error f => exact absurd ((modifiedChange_of_error hp).mp h).2 (by simp)
  | ok k =>
    obtain ⟨fromSignature,inside,hs,hi,hsome⟩ := (modifiedChange_of_ok hp).mp h
    split at hsome
    · cases hsome
    · next hfound =>
      cases hsome
      exact ⟨k,fromSignature,inside,rfl,hs,hi,fun he hnil => hfound (by simp [he, hnil]),rfl⟩

theorem eq_of_modifiedChange {old new : Declaration} {c : Change}
    (h : (modifiedChange options compareTypes descend place old new).result = .ok (some c)) :
    ∃ k nested, c = modifiedWith place old new k nested := by
  obtain ⟨k,fromSignature,inside,-,-,-,-,rfl⟩ := of_modifiedChange h
  exact ⟨k,_,rfl⟩

theorem path_of_modifiedChange {old new : Declaration} {c : Change}
    (h : (modifiedChange options compareTypes descend place old new).result = .ok (some c)) :
    c.path = .text old.path := by
  obtain ⟨k,nested,rfl⟩ := eq_of_modifiedChange h
  rfl

section Levels

variable {olds news : Members} {cs : List Change}

theorem level_eq_ok : (level options compareTypes descend place olds news).result = .ok cs ↔
    ∃ renamed modified,
      List.Forall₂ (fun r c => (renamedChange descend place r).result = .ok c)
        (levelRenames options (matchMembers olds news)) renamed ∧
      List.Forall₂ (fun p c =>
          (modifiedChange options compareTypes descend place p.1 p.2).result = .ok c)
        (matchMembers olds news).matched modified ∧
      cs = renamed ++
        (Rename.unusedOld (levelRenames options (matchMembers olds news))
          (matchMembers olds news).removed).map (removedChange place) ++
        (Rename.unusedNew (levelRenames options (matchMembers olds news))
          (matchMembers olds news).added).map (addedChange place) ++
        modified.filterMap id := by
  unfold level
  simp only [Traced.result_bind_eq_ok, Traced.result_mapM_eq_ok, Traced.result_pure]
  constructor
  · rintro ⟨renamed,hr,modified,hm,h⟩
    cases h
    exact ⟨renamed,modified,hr,hm,rfl⟩
  · rintro ⟨renamed,modified,hr,hm,rfl⟩
    exact ⟨renamed,hr,modified,hm,rfl⟩

/-- A change of a level is a rename, a removal, an addition or what a matched pair gives. -/
theorem of_mem_level
    (h : (level options compareTypes descend place olds news).result = .ok cs) {c : Change}
    (hc : c ∈ cs) :
    (∃ r ∈ levelRenames options (matchMembers olds news), ∃ nested,
      (descend r.old r.new place.depth place.ancestors).result = .ok nested ∧
      c = renamedWith place r nested) ∨
    (∃ d ∈ (matchMembers olds news).removed, c = removedChange place d) ∨
    (∃ d ∈ (matchMembers olds news).added, c = addedChange place d) ∨
    ∃ o n, (o,n) ∈ (matchMembers olds news).matched ∧
      (modifiedChange options compareTypes descend place o n).result = .ok (some c) := by
  obtain ⟨renamed,modified,hr,hm,rfl⟩ := level_eq_ok.mp h
  simp only [List.mem_append, List.mem_map, List.mem_filterMap, id_eq, exists_eq_right] at hc
  rcases hc with ((hc | ⟨d,hd,rfl⟩) | ⟨d,hd,rfl⟩) | hc
  · obtain ⟨r,hmem,hok⟩ := exists_left_of_forall₂ hr hc
    exact Or.inl ⟨r,hmem,renamedChange_eq_ok.mp hok⟩
  · exact Or.inr (Or.inl ⟨d,List.mem_of_mem_filter hd,rfl⟩)
  · exact Or.inr (Or.inr (Or.inl ⟨d,List.mem_of_mem_filter hd,rfl⟩))
  · obtain ⟨⟨o,n⟩,hmem,hok⟩ := exists_left_of_forall₂ hm hc
    exact Or.inr (Or.inr (Or.inr ⟨o,n,hmem,hok⟩))

/-- All that a level can report, with what it was made from. -/
inductive Reports (options : DiffOptions) (compareTypes : TypeOracle) (descend : Descent)
    (place : Place) (olds news : Members) : Change → Prop
  | renamed {r : Rename Float} {nested : List Change}
      (hr : r ∈ levelRenames options (matchMembers olds news))
      (hn : (descend r.old r.new place.depth place.ancestors).result = .ok nested) :
      Reports options compareTypes descend place olds news (renamedWith place r nested)
  | removed {d : Declaration} (hd : d ∈ (matchMembers olds news).removed) :
      Reports options compareTypes descend place olds news (removedChange place d)
  | added {d : Declaration} (hd : d ∈ (matchMembers olds news).added) :
      Reports options compareTypes descend place olds news (addedChange place d)
  | modified {o n : Declaration} {k : Classification} {fromSignature inside : List Change}
      (hm : (o,n) ∈ (matchMembers olds news).matched)
      (hk : Classification.ofPair o.toFacts n.toFacts options compareTypes = .ok k)
      (hs : signatureChanges options o n place k = .ok fromSignature)
      (hi : (descend o n place.depth place.ancestors).result = .ok inside) :
      Reports options compareTypes descend place olds news
        (modifiedWith place o n k (fromSignature ++ inside))

theorem reports_of_mem_level
    (h : (level options compareTypes descend place olds news).result = .ok cs) {c : Change}
    (hc : c ∈ cs) : Reports options compareTypes descend place olds news c := by
  rcases of_mem_level h hc with ⟨r,hr,nested,hn,rfl⟩ | ⟨d,hd,rfl⟩ | ⟨d,hd,rfl⟩ | ⟨o,n,hm,hok⟩
  · exact .renamed hr hn
  · exact .removed hd
  · exact .added hd
  · obtain ⟨k,fromSignature,inside,hk,hs,hi,-,rfl⟩ := of_modifiedChange hok
    exact .modified hm hk hs hi

/-- A level where something is missing reports a rename or a removal. -/
theorem exists_loss_of_removed
    (h : (level options compareTypes descend place olds news).result = .ok cs) {d : Declaration}
    (hd : d ∈ (matchMembers olds news).removed) :
    ∃ c ∈ cs, c.descriptor.effect = .renamed ∨ ∃ e, c = removedChange place e := by
  obtain ⟨renamed,modified,hr,-,rfl⟩ := level_eq_ok.mp h
  by_cases hp : d.path ∈ (levelRenames options (matchMembers olds news)).map (·.old.path)
  · obtain ⟨r,hmem,-⟩ := List.mem_map.mp hp
    obtain ⟨c,hc,hok⟩ := exists_right_of_forall₂ hr hmem
    obtain ⟨nested,-,rfl⟩ := renamedChange_eq_ok.mp hok
    refine ⟨renamedWith place r nested,by simp [hc],Or.inl ?_⟩
    simp [renamedWith, Descriptor.plain]
  · have hd := Rename.mem_unusedOld.mpr ⟨hd,hp⟩
    refine ⟨removedChange place d,?_,Or.inr ⟨d,rfl⟩⟩
    simp only [List.mem_append]
    exact Or.inl (Or.inl (Or.inr (List.mem_map_of_mem hd)))

/-- A level reports what a pair gives. -/
theorem mem_of_modifiedChange
    (h : (level options compareTypes descend place olds news).result = .ok cs)
    {old new : Declaration} (hp : (old,new) ∈ (matchMembers olds news).matched) {c : Change}
    (hc : (modifiedChange options compareTypes descend place old new).result = .ok (some c)) :
    c ∈ cs := by
  obtain ⟨renamed,modified,-,hm,rfl⟩ := level_eq_ok.mp h
  obtain ⟨o,ho,hok⟩ := exists_right_of_forall₂ hm hp
  rw [hc] at hok
  cases hok
  simp only [List.mem_append, List.mem_filterMap]
  exact Or.inr ⟨some c,ho,rfl⟩

/-- Where nothing is missing nothing can have been renamed. -/
theorem level_eq_ok_of_removed_nil (hremoved : (matchMembers olds news).removed = []) :
    (level options compareTypes descend place olds news).result = .ok cs ↔
    ∃ modified,
      List.Forall₂ (fun p c =>
          (modifiedChange options compareTypes descend place p.1 p.2).result = .ok c)
        (matchMembers olds news).matched modified ∧
      cs = (matchMembers olds news).added.map (addedChange place) ++ modified.filterMap id := by
  have hnone : levelRenames options (matchMembers olds news) = [] := by
    rw [levelRenames, hremoved]
    exact Rename.detect_of_removed_nil
  simp [level_eq_ok, hnone, hremoved, Rename.unusedOld, Rename.unusedNew]

/-- A level where nothing is missing and no pair gives a change reports what came. -/
theorem level_of_unchanged (hremoved : (matchMembers olds news).removed = [])
    (hpairs : ∀ p ∈ (matchMembers olds news).matched,
      (modifiedChange options compareTypes descend place p.1 p.2).result = .ok none) :
    (level options compareTypes descend place olds news).result =
    .ok ((matchMembers olds news).added.map (addedChange place)) := by
  refine (level_eq_ok_of_removed_nil hremoved).mpr
    ⟨(matchMembers olds news).matched.map fun _ => none,?_,by simp⟩
  rw [List.forall₂_map_right_iff, List.forall₂_same]
  exact hpairs

/-- A level reports nothing just if both sides have the same keys and no pair of it
gives a change. -/
theorem level_eq_nil_iff : (level options compareTypes descend place olds news).result = .ok [] ↔
    (matchMembers olds news).removed = [] ∧ (matchMembers olds news).added = [] ∧
    ∀ p ∈ (matchMembers olds news).matched,
      (modifiedChange options compareTypes descend place p.1 p.2).result = .ok none := by
  constructor
  · intro h
    obtain ⟨renamed,modified,hr,hm,hnil⟩ := level_eq_ok.mp h
    simp only [List.nil_eq, List.append_eq_nil_iff, List.map_eq_nil_iff] at hnil
    obtain ⟨⟨⟨hrenamed,hremoved⟩,hadded⟩,hmodified⟩ := hnil
    subst hrenamed
    have hnone : levelRenames options (matchMembers olds news) = [] :=
      List.forall₂_nil_right_iff.mp hr
    rw [hnone] at hremoved hadded
    refine ⟨by simpa [Rename.unusedOld] using hremoved,by simpa [Rename.unusedNew] using hadded,?_⟩
    intro p hp
    obtain ⟨o,ho,hok⟩ := exists_right_of_forall₂ hm hp
    have hid := List.filterMap_eq_nil_iff.mp hmodified o ho
    simp only [id_eq] at hid
    subst hid
    exact hok
  · rintro ⟨hremoved,hadded,hpairs⟩
    rw [level_of_unchanged hremoved hpairs, hadded, List.map_nil]

theorem level_nil : (level options compareTypes descend place [] []).result = .ok [] :=
  level_eq_nil_iff.mpr ⟨rfl,rfl,by simp [matchMembers]⟩

end Levels

section Descending

variable {old new : Declaration} {depth : Nat} {ancestors : List String}

theorem membersWithin_zero :
    (membersWithin options compareTypes 0 old new depth ancestors).result = .ok [] := by
  unfold membersWithin
  split <;> rfl

/-- Members are compared unless the options or the path say otherwise; that nothing
is to be compared makes no difference to the outcome. -/
theorem membersWithin_succ (room : Nat) (hi : options.includeNested = true)
    (hp : old.path ∉ ancestors) :
    (membersWithin options compareTypes (room + 1) old new depth ancestors).result =
    (level options compareTypes (membersWithin options compareTypes room)
      (.inside old new depth ancestors) (comparedMembers (bothSigned old new) old.members)
      (comparedMembers (bothSigned old new) new.members)).result := by
  have hc : ancestors.contains old.path = false := by simpa using hp
  rw [membersWithin]
  simp only [hi, hc, Bool.not_true, Bool.false_or, Bool.and_eq_true, List.isEmpty_iff,
    Bool.false_eq_true, if_false]
  split
  · next he =>
    rw [he.1, he.2]
    simp only [comparedMembers, List.filter_nil, ite_self]
    exact level_nil.symm
  · rfl

theorem membersWithin_of_repeated (room : Nat) (hp : old.path ∈ ancestors) :
    (membersWithin options compareTypes room old new depth ancestors).result = .ok [] := by
  cases room with
  | zero => exact membersWithin_zero
  | succ room =>
    have hc : ancestors.contains old.path = true := by simpa using hp
    rw [membersWithin]
    simp only [hc, if_true]
    split <;> rfl

theorem membersWithin_of_excluded (room : Nat) (hi : options.includeNested = false) :
    (membersWithin options compareTypes room old new depth ancestors).result = .ok [] := by
  unfold membersWithin
  simp [hi]

/-- With room for one more level, nothing is found inside two declarations, or what that
level reports. -/
theorem of_membersWithin_succ {room : Nat} {cs : List Change}
    (h : (membersWithin options compareTypes (room + 1) old new depth ancestors).result = .ok cs) :
    cs = [] ∨ (level options compareTypes (membersWithin options compareTypes room)
      (.inside old new depth ancestors) (comparedMembers (bothSigned old new) old.members)
      (comparedMembers (bothSigned old new) new.members)).result = .ok cs := by
  cases hi : options.includeNested with
  | false =>
    rw [membersWithin_of_excluded _ hi] at h
    exact Or.inl (Except.ok.inj h).symm
  | true =>
    by_cases hp : old.path ∈ ancestors
    · rw [membersWithin_of_repeated _ hp] at h
      exact Or.inl (Except.ok.inj h).symm
    · rw [membersWithin_succ room hi hp] at h
      exact Or.inr h

end Descending

theorem modules_eq_ok {old new : Module} {oracle : TypeOracle} {cs : List Change} :
    (modules old new options oracle).result = .ok cs ↔
    (level options (typeComparer options oracle)
      (membersWithin options (typeComparer options oracle) options.maxDepth.toNat) .top
      old.exports new.exports).result = .ok cs := by
  unfold modules
  simp only [Traced.result_bind_eq_ok, Traced.result_note, Traced.result_pure]
  constructor
  · rintro ⟨changes,hc,-,-,h⟩
    cases h
    exact hc
  · intro h
    exact ⟨cs,h,(),trivial,rfl⟩

/-- Two modules with one export each, of one path, are told apart by that pair. -/
theorem modules_of_pair {o n : Declaration} (hpath : o.path = n.path) {oracle : TypeOracle}
    {r : Option Change}
    (h : (modifiedChange options (typeComparer options oracle)
      (membersWithin options (typeComparer options oracle) options.maxDepth.toNat) .top o n).result =
      .ok r) (oldFile newFile oldSource newSource : String) (oldErrors newErrors : List String) :
    (modules (.ofExports [o] oldFile oldSource oldErrors)
      (.ofExports [n] newFile newSource newErrors) options oracle).result = .ok r.toList := by
  have hmatch : matchMembers (Module.ofExports [o] oldFile oldSource oldErrors).exports
      (Module.ofExports [n] newFile newSource newErrors).exports = ⟨[(o,n)],[],[]⟩ := by
    simp [Module.ofExports, Declaration.keyed, Declaration.putMember, matchMembers, Members.find?,
      Scalar.isSame, hpath]
  rw [modules_eq_ok, level_eq_ok_of_removed_nil (by rw [hmatch]), hmatch]
  exact ⟨[r],.cons h .nil,by cases r <;> rfl⟩

end ApiRelease.Diff
