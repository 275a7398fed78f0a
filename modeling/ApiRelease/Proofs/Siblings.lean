import ApiRelease.Proofs.Conservation
import ApiRelease.Proofs.Silence

/-! # Members that come or go

Members are matched by their keys, but renames use up paths. A member that went and
shares its path with no other one that went is told once, as renamed or as removed, and
so is one that came, as renamed or as added. Where two that went share a path, as the two
accessors of a property do, a rename of the one hides the other.
-/
namespace ApiRelease

theorem eq_of_count_map_eq_one {α β : Type} [DecidableEq β] {f : α → β} {xs : List α} {a b : α}
    (h : (xs.map f).count (f a) = 1) (ha : a ∈ xs) (hb : b ∈ xs) (hab : f b = f a) : b = a := by
  rw [List.count_eq_countP, List.countP_map, List.countP_eq_length_filter, List.length_eq_one_iff] at h
  obtain ⟨x,hx⟩ := h
  have hmem : ∀ y ∈ xs, f y = f a → y = x := by
    intro y hy hfy
    have hfilter : y ∈ xs.filter ((· == f a) ∘ f) := List.mem_filter.mpr ⟨hy,by simpa using hfy⟩
    rw [hx] at hfilter
    exact List.mem_singleton.mp hfilter
  rw [hmem b hb hab, hmem a ha rfl]

def Change.countBy (node : Change → Option Declaration) (path : String) (cs : List Change) : Nat :=
  (cs.map fun c => (node c).map (·.path)).count (some path)

namespace Change

variable {node : Change → Option Declaration}

theorem countBy_append (path : String) (cs ds : List Change) :
    countBy node path (cs ++ ds) = countBy node path cs + countBy node path ds := by
  simp [countBy]

theorem countBy_of_nodes {cs : List Change} {ds : List Declaration} (h : cs.map node = ds.map some)
    (path : String) : countBy node path cs = (ds.map (·.path)).count path := by
  have hpaths : (cs.map fun c => (node c).map (·.path)) = (ds.map (·.path)).map some := by
    have hmap := congrArg (List.map (Option.map (·.path))) h
    simpa [Function.comp_def] using hmap
  rw [countBy, hpaths, List.count_map_of_injective _ _ (Option.some_injective _)]

theorem countBy_of_none {cs : List Change} (h : ∀ c ∈ cs, node c = none) (path : String) :
    countBy node path cs = 0 := by
  apply List.count_eq_zero_of_not_mem
  intro hmem
  obtain ⟨c,hc,hpath⟩ := List.mem_map.mp hmem
  simp [h c hc] at hpath

/-- Just one of the changes has the path of the declaration on one side. It is about the
declaration, and it is a rename or has the effect. -/
structure Once (node : Change → Option Declaration) (effect : Effect) (d : Declaration)
    (cs : List Change) : Prop where
  count : countBy node d.path cs = 1
  told : ∃ c ∈ cs, node c = some d ∧
    (c.descriptor.effect = .renamed ∨ c.descriptor.effect = effect)

/-- Of some declarations a part is renamed, and those are told with the effect whose path
no rename uses. All else that is told is not about them. -/
theorem once_of_split {effect : Effect} {used ds : List Declaration}
    {cs renamed left rest : List Change} (hperm : cs.Perm (renamed ++ left ++ rest))
    (hnodup : (used.map (·.path)).Nodup) (hsubset : used ⊆ ds)
    (hrenamed : renamed.map node = used.map some)
    (hrename : ∀ c ∈ renamed, c.descriptor.effect = .renamed)
    (hleft : left.map node = (ds.filter fun d => d.path ∉ used.map (·.path)).map some)
    (heffect : ∀ c ∈ left, c.descriptor.effect = effect) (hrest : ∀ c ∈ rest, node c = none)
    {d : Declaration} (hd : d ∈ ds) (halone : (ds.map (·.path)).count d.path = 1) :
    Once node effect d cs := by
  refine ⟨?_,?_⟩
  · have hcount : countBy node d.path cs = countBy node d.path (renamed ++ left ++ rest) :=
      (hperm.map _).count_eq _
    rw [hcount, countBy_append, countBy_append, countBy_of_nodes hrenamed, countBy_of_nodes hleft,
      countBy_of_none hrest, Nat.add_zero]
    exact Rename.count_used_add_unused hnodup halone
  · by_cases hused : d.path ∈ used.map (·.path)
    · obtain ⟨e,he,hpath⟩ := List.mem_map.mp hused
      -- no other of the declarations has the path, so the rename is of this one
      obtain rfl : e = d :=
        eq_of_count_map_eq_one (f := fun e : Declaration => e.path) halone hd (hsubset he) hpath
      have hmem : some e ∈ renamed.map node := hrenamed ▸ List.mem_map_of_mem he
      obtain ⟨c,hc,hnode⟩ := List.mem_map.mp hmem
      exact ⟨c,hperm.mem_iff.mpr (by simp [hc]),hnode,Or.inl (hrename c hc)⟩
    · have hmem : some d ∈ left.map node := by
        rw [hleft]
        exact List.mem_map_of_mem (List.mem_filter.mpr ⟨hd,by simpa using hused⟩)
      obtain ⟨c,hc,hnode⟩ := List.mem_map.mp hmem
      exact ⟨c,hperm.mem_iff.mpr (by simp [hc]),hnode,Or.inr (heffect c hc)⟩

end Change

namespace Diff

variable {options : DiffOptions} {compareTypes : TypeOracle} {descend : Descent} {place : Place}

theorem renamed_nodes {renames : List (Rename Float)} {cs : List Change}
    (h : List.Forall₂ (fun r c => (renamedChange descend place r).result = .ok c) renames cs) :
    cs.map (·.oldNode) = (renames.map (·.old)).map some ∧
    cs.map (·.newNode) = (renames.map (·.new)).map some := by
  rw [List.map_map, List.map_map]
  constructor
  · apply map_eq_of_forall₂
    refine h.imp ?_
    intro r c hc
    obtain ⟨nested,-,rfl⟩ := renamedChange_eq_ok.mp hc
    rfl
  · apply map_eq_of_forall₂
    refine h.imp ?_
    intro r c hc
    obtain ⟨nested,-,rfl⟩ := renamedChange_eq_ok.mp hc
    rfl

theorem of_mem_removedChanges {ds : List Declaration} :
    ∀ c ∈ ds.map (removedChange place), c.descriptor.effect = .removed ∧ c.newNode = none := by
  intro c hc
  obtain ⟨d,-,rfl⟩ := List.mem_map.mp hc
  exact ⟨rfl,rfl⟩

theorem of_mem_addedChanges {ds : List Declaration} :
    ∀ c ∈ ds.map (addedChange place), c.descriptor.effect = .added ∧ c.oldNode = none := by
  intro c hc
  obtain ⟨d,-,rfl⟩ := List.mem_map.mp hc
  exact ⟨rfl,rfl⟩

section Renames

variable {removed added gone come : List Declaration} {threshold : Float} {renamed : List Change}
  {d : Declaration}

/-- Of the declarations that went each is told, whatever is told of those that came. -/
theorem once_removed
    (hr : List.Forall₂ (fun r c => (renamedChange descend place r).result = .ok c)
      (Rename.detect Rename.score threshold removed added) renamed)
    (hd : d ∈ removed) (halone : (removed.map (·.path)).count d.path = 1) :
    Change.Once (·.oldNode) .removed d (renamed ++
      (Rename.unusedOld (Rename.detect Rename.score threshold removed added) removed).map
        (removedChange place) ++ come.map (addedChange place)) := by
  refine Change.once_of_split (List.Perm.refl _) ?_ ?_ (renamed_nodes hr).1 (renamed_paths hr).2.2 ?_
    (fun c hc => (of_mem_removedChanges c hc).1) (fun c hc => (of_mem_addedChanges c hc).2) hd halone
  · rw [List.map_map]
    exact Rename.detect_old_nodup
  · intro e he
    obtain ⟨r,hr,rfl⟩ := List.mem_map.mp he
    exact (Rename.joins_of_mem_detect hr).old_mem
  · rw [Rename.unusedOld_eq, List.map_map, List.map_map]
    rfl

theorem once_added
    (hr : List.Forall₂ (fun r c => (renamedChange descend place r).result = .ok c)
      (Rename.detect Rename.score threshold removed added) renamed)
    (hd : d ∈ added) (halone : (added.map (·.path)).count d.path = 1) :
    Change.Once (·.newNode) .added d (renamed ++ gone.map (removedChange place) ++
      (Rename.unusedNew (Rename.detect Rename.score threshold removed added) added).map
        (addedChange place)) := by
  have hswap (as bs cs : List Change) : (as ++ bs ++ cs).Perm (as ++ cs ++ bs) := by
    rw [List.append_assoc, List.append_assoc]
    exact List.perm_append_comm.append_left as
  refine Change.once_of_split (hswap _ _ _) ?_ ?_ (renamed_nodes hr).2 (renamed_paths hr).2.2 ?_
    (fun c hc => (of_mem_addedChanges c hc).1) (fun c hc => (of_mem_removedChanges c hc).2) hd halone
  · rw [List.map_map]
    exact Rename.detect_new_nodup
  · intro e he
    obtain ⟨r,hr,rfl⟩ := List.mem_map.mp he
    exact (Rename.joins_of_mem_detect hr).new_mem
  · rw [Rename.unusedNew_eq, List.map_map, List.map_map]
    rfl

end Renames

structure Told (olds news : Members) (told modified : List Change) : Prop where
  lost : ∀ k o, (k,o) ∈ olds → Members.find? k news = none →
    ((matchMembers olds news).removed.map (·.path)).count o.path = 1 →
    Change.Once (·.oldNode) .removed o told
  gained : ∀ k n, (k,n) ∈ news → Members.find? k olds = none →
    ((matchMembers olds news).added.map (·.path)).count n.path = 1 →
    Change.Once (·.newNode) .added n told
  stayed : ∀ c ∈ modified, ∃ p ∈ (matchMembers olds news).matched,
    c.oldNode = some p.1 ∧ c.newNode = some p.2

theorem told_of_level {olds news : Members} {cs : List Change}
    (h : (level options compareTypes descend place olds news).result = .ok cs) :
    ∃ told modified, cs = told ++ modified ∧ Told olds news told modified := by
  obtain ⟨renamed,modified,hr,hm,rfl⟩ := level_eq_ok.mp h
  refine ⟨_,_,rfl,?_,?_,?_⟩
  · intro k o hk hnone halone
    exact once_removed hr (mem_removed_iff.mpr ⟨k,hk,hnone⟩) halone
  · intro k n hk hnone halone
    exact once_added hr (mem_added_iff.mpr ⟨k,hk,hnone⟩) halone
  · intro c hc
    simp only [List.mem_filterMap, id_eq, exists_eq_right] at hc
    obtain ⟨p,hp,hok⟩ := exists_left_of_forall₂ hm hc
    obtain ⟨k,nested,rfl⟩ := eq_of_modifiedChange hok
    exact ⟨p,hp,rfl,rfl⟩

/-- No member that is looked at is lost, as long as it shares its path with no other one
that went or came with it. -/
theorem members_told {p q : Declaration} {depth : Nat} {ancestors : List String}
    (he : Enters options p depth ancestors) {cs : List Change}
    (h : (membersWithin options compareTypes (options.maxDepth.toNat - depth) p q depth
      ancestors).result = .ok cs) :
    ∃ told modified, cs = told ++ modified ∧
      Told (comparedMembers (bothSigned p q) p.members)
        (comparedMembers (bothSigned p q) q.members) told modified := by
  rw [membersWithin_of_enters he] at h
  exact told_of_level h

def memberOfBox (kind : NodeKind) (name : String) : Declaration :=
  { Declaration.bare kind ("Box." ++ name) name [] with parent := some "Box" }

def boxOf (members : List (String × NodeKind × String)) : Declaration :=
  .bare .classDecl "Box" "Box" (members.map fun m => (.text m.1,memberOfBox m.2.1 m.2.2))

def boxModule (members : List (String × NodeKind × String)) : Module :=
  .ofExports [boxOf members] "<memory>" "" []

theorem decode_memberOfBox (key : Option Scalar) (kind : NodeKind) {name : String}
    (hname : Text.trim name = name) (hne : name ≠ "") :
    (Declaration.decode (.table [("kind",.text kind.name),("name",.text name)]) key
      (some "Box")).result = .ok (memberOfBox kind name) := by
  have hn : name.isEmpty = false := by simpa using hne
  have hk : Vocabulary.parse? (Text.trim kind.name) = some kind := by cases kind <;> decide
  exact Declaration.decode_eq_ok.mpr ⟨name,"Box." ++ name,kind,∅,[],_,
    Declaration.nameIn_eq_ok.mpr ⟨_,rfl,hname⟩,hn,Declaration.kindIn_eq_ok.mpr ⟨_,rfl,hk⟩,rfl,rfl,
    .nil,rfl,rfl⟩

def boxDocument (members : List (String × NodeKind × String)) : Value :=
  .table [("name",.text "Box"),("kind",.text "class"),("children",.table (members.map fun m =>
    (.text m.1,.table [("kind",.text m.2.1.name),("name",.text m.2.2)])))]

theorem decode_boxDocument {members : List (String × NodeKind × String)}
    (hkeys : (members.map (·.1)).Nodup)
    (hnames : ∀ m ∈ members, m.1 ≠ "" ∧ Text.trim m.2.2 = m.2.2 ∧ m.2.2 ≠ "") :
    (Declaration.decode (boxDocument members) none none).result = .ok (boxOf members) := by
  have hclass : Vocabulary.parse? (Text.trim "class") = some NodeKind.classDecl := by decide
  have hbox : Text.trim "Box" = "Box" := by decide
  have hkeyed : Declaration.keyed (members.map fun m => (.text m.1,memberOfBox m.2.1 m.2.2)) =
      members.map fun m => (.text m.1,memberOfBox m.2.1 m.2.2) := by
    apply Declaration.keyed_of_nodup
    have hidentities := hkeys.map Scalar.identity_text_injective
    simpa [Function.comp_def] using hidentities
  have htables : Declaration.memberTables (.table (members.map fun m =>
      (.text m.1,.table [("kind",.text m.2.1.name),("name",.text m.2.2)]))) =
      members.map fun m =>
        (some (.text m.1),.table [("kind",.text m.2.1.name),("name",.text m.2.2)]) := by
    rw [Declaration.memberTables, Declaration.memberEntries, List.map_map]
    apply List.filter_eq_self.mpr
    intro e he
    obtain ⟨m,-,rfl⟩ := List.mem_map.mp he
    rfl
  refine Declaration.decode_eq_ok.mpr ⟨"Box","Box",.classDecl,∅,
    members.map fun m => (.text m.1,memberOfBox m.2.1 m.2.2),_,
    Declaration.nameIn_eq_ok.mpr ⟨_,rfl,hbox⟩,rfl,Declaration.kindIn_eq_ok.mpr ⟨_,rfl,hclass⟩,
    rfl,rfl,?_,rfl,?_⟩
  · change List.Forall₂ _ (Declaration.memberTables (.table _)) _
    rw [htables, List.forall₂_map_left_iff, List.forall₂_map_right_iff, List.forall₂_same]
    intro m hm
    obtain ⟨hkey,htrim,hne⟩ := hnames m hm
    exact ⟨_,decode_memberOfBox _ _ htrim hne,by simp [Declaration.memberKey, Scalar.truthy, hkey]⟩
  · rw [hkeyed]
    rfl

theorem decoded_boxModule {members : List (String × NodeKind × String)}
    (hkeys : (members.map (·.1)).Nodup)
    (hnames : ∀ m ∈ members, m.1 ≠ "" ∧ Text.trim m.2.2 = m.2.2 ∧ m.2.2 ≠ "") :
    (boxModule members).Decoded :=
  Module.decoded_ofExports (.cons (decode_boxDocument hkeys hnames) .nil) (List.nodup_singleton _)

/-- A getter of another name takes the path of the setter with it: the setter is gone, and
nothing that is told is about it. -/
theorem setter_untold :
    (boxModule [("get size",.getter,"size"),("set size",.setter,"size")]).Decoded ∧
    (boxModule [("get sizes",.getter,"sizes")]).Decoded ∧
    Members.find? "set size" (boxOf [("get sizes",.getter,"sizes")]).members = none ∧
    ∃ cs, (modules (boxModule [("get size",.getter,"size"),("set size",.setter,"size")])
        (boxModule [("get sizes",.getter,"sizes")]) .standard TypeText.heuristic).result = .ok cs ∧
      ((Change.flattenAll cs).map fun c => (c.descriptor.effect,c.oldNode.map (·.kind))) =
        [(.modified .type .equivalent,some .classDecl),(.renamed,some .getter)] := by
  have htold : ((modules (boxModule [("get size",.getter,"size"),("set size",.setter,"size")])
      (boxModule [("get sizes",.getter,"sizes")]) .standard
      TypeText.heuristic).result.toOption.map fun cs =>
        (Change.flattenAll cs).map fun c => (c.descriptor.effect,c.oldNode.map (·.kind))) =
      some [(.modified .type .equivalent,some .classDecl),(.renamed,some .getter)] := by
    decide +kernel
  exact ⟨decoded_boxModule (by decide) (by decide),decoded_boxModule (by decide) (by decide),rfl,
    exists_ok_of_toOption htold⟩

/-- The setter is told as removed if it does not share the path of the getter. -/
theorem members_told_of_width : ∃ cs told modified,
    (membersWithin .standard TypeText.heuristic 10
      (boxOf [("get size",.getter,"size"),("set width",.setter,"width")])
      (boxOf [("get sizes",.getter,"sizes")]) 0 []).result = .ok cs ∧
    cs = told ++ modified ∧
    Change.Once (·.oldNode) .removed (memberOfBox .getter "size") told ∧
    Change.Once (·.oldNode) .removed (memberOfBox .setter "width") told ∧
    Change.Once (·.newNode) .added (memberOfBox .getter "sizes") told := by
  obtain ⟨cs,hcs⟩ : ∃ cs, (membersWithin .standard TypeText.heuristic 10
      (boxOf [("get size",.getter,"size"),("set width",.setter,"width")])
      (boxOf [("get sizes",.getter,"sizes")]) 0 []).result = .ok cs :=
    membersWithin_ok (TypeText.heuristic_answers _) 10 _ _ 0 []
  have henters : Enters .standard
      (boxOf [("get size",.getter,"size"),("set width",.setter,"width")]) 0 [] :=
    ⟨rfl,by decide,by simp⟩
  obtain ⟨told,modified,hruns,htold⟩ := members_told henters hcs
  refine ⟨cs,told,modified,hcs,hruns,?_,?_,?_⟩
  · exact htold.lost "get size" _ List.mem_cons_self rfl (by decide +kernel)
  · exact htold.lost "set width" _ (List.mem_cons_of_mem _ List.mem_cons_self) rfl (by decide +kernel)
  · exact htold.gained "get sizes" _ List.mem_cons_self rfl (by decide +kernel)

end Diff

end ApiRelease
