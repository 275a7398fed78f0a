import ApiRelease.Proofs.Exports
import ApiRelease.Proofs.Findings
import ApiRelease.Proofs.Release

/-! # Where the changes of a forest stand

The walk hands the depth and the paths above down from level to level, and what it finds
in signatures gets both by another way. Whichever way it was found, a change that is
nested in another stands one deeper, below the path of that one. The tags of a finding
never say where it stands: whether anything is nested in it is tagged when the change is
made, and whether it is nested itself when the forest is listed.
-/
namespace ApiRelease

namespace Change

/-- What a change says of itself is where it stands: how deep, below which paths, and
whether anything is nested in it. -/
structure Stands (depth : Nat) (ancestors : List String) (c : Change) : Prop where
  nested : c.context.nested = decide (0 < depth)
  depth : c.context.depth = depth
  ancestors : c.context.ancestors = ancestors.map .text
  hasNested : c.descriptor.tags.has .hasNestedChanges = !c.nested.isEmpty
  unlisted : c.descriptor.tags.has .isNestedChange = false

inductive Placed : Nat → List String → Change → Prop
  | intro {depth : Nat} {ancestors : List String} {c : Change} {path : String}
      (hs : c.Stands depth ancestors) (hp : c.path = .text path)
      (hn : ∀ n ∈ c.nested, Placed (depth + 1) (ancestors ++ [path]) n) : Placed depth ancestors c

variable {depth : Nat} {ancestors : List String} {c : Change}

theorem Placed.stands (h : c.Placed depth ancestors) : c.Stands depth ancestors := by
  cases h with
  | intro hs _ _ => exact hs

/-- A nested change stands where its parent says. -/
theorem Placed.nested (h : c.Placed depth ancestors) {n : Change} (hn : n ∈ c.nested) :
    n.context.depth = c.context.depth + 1 ∧
    n.context.ancestors = c.context.ancestors ++ [c.path] ∧ n.context.nested = true := by
  cases h with
  | intro hs hp hnested =>
    have hstands := (hnested n hn).stands
    refine ⟨?_,?_,?_⟩
    · rw [hstands.depth, hs.depth]
      rfl
    · rw [hstands.ancestors, hs.ancestors, hp, List.map_append]
      rfl
    · rw [hstands.nested]
      exact decide_eq_true (Nat.succ_pos depth)

/-- Wherever it is in the forest, a change stands somewhere. -/
theorem Within.placed {cs : List Change} (hw : Within c cs)
    (h : ∀ d ∈ cs, d.Placed depth ancestors) : ∃ depth ancestors, c.Placed depth ancestors := by
  induction hw generalizing depth ancestors with
  | here hc => exact ⟨depth,ancestors,h _ hc⟩
  | inside hd _ ih =>
    cases h _ hd with
    | intro _ _ hn => exact ih hn

/-- Listing tags just the changes that stand below others. -/
theorem Placed.isNestedChange (h : c.Placed depth ancestors) :
    ∀ e ∈ flatten (decide (0 < depth)) c,
      e.descriptor.tags.has .isNestedChange = e.context.nested := by
  induction h with
  | @intro depth ancestors c path hs _ _ ih =>
    intro e he
    rw [flatten_eq] at he
    rcases List.mem_cons.mp he with rfl | he
    · rw [listed_context, hs.nested]
      cases hd : decide (0 < depth) with
      | false => exact hs.unlisted
      | true => simp [listed, Descriptor.withTag]
    · obtain ⟨d,hd,he⟩ := mem_flattenNested.mp he
      have hinside : decide (0 < depth + 1) = true := decide_eq_true (Nat.succ_pos depth)
      exact ih d hd e (hinside ▸ he)

end Change

namespace Diff

variable {options : DiffOptions} {compareTypes : TypeOracle} {descend : Descent} {place : Place}

theorem hasNested_tagNested {d : Descriptor} (h : d.Placeless) (nested : List Change) :
    (tagNested d nested).tags.has .hasNestedChanges = !nested.isEmpty := by
  unfold tagNested
  cases nested with
  | nil => exact h .hasNestedChanges rfl
  | cons c rest => simp [Descriptor.withTag]

theorem unlisted_tagNested {d : Descriptor} (h : d.Placeless) (nested : List Change) :
    (tagNested d nested).tags.has .isNestedChange = false := by
  rw [has_tagNested d nested (by decide)]
  exact h .isNestedChange rfl

theorem isOfPlace_of_mem_membershipTags (d : Facts) (parent : Option Declaration)
    (removed : Bool) : ∀ t ∈ membershipTags d parent removed, t.isOfPlace = false := by
  unfold membershipTags
  cases parent with
  | none => simp
  | some p =>
    simp only
    split_ifs <;> decide

/-- What a difference of signatures becomes stands below the declaration. -/
theorem placed_of_signatureChange {o n : Declaration} {d : SignatureDifference} (hd : d.Placeless)
    {c : Change} (h : signatureChange o n place d = .ok c) :
    c.Placed (place.depth + 1) (place.ancestors ++ [o.path]) := by
  obtain ⟨descriptor,hdescriptor,h⟩ := bind_eq_ok.mp h
  cases h
  have hfree := hd.descriptor hdescriptor
  refine .intro ⟨?_,rfl,rfl,hfree .hasNestedChanges rfl,hfree .isNestedChange rfl⟩ rfl (by simp)
  exact (decide_eq_true (Nat.succ_pos place.depth)).symm

theorem placed_of_signatureChanges {o n : Declaration} {k : Classification} (hk : k.Placeless)
    {cs : List Change} (h : signatureChanges options o n place k = .ok cs) :
    ∀ c ∈ cs, c.Placed (place.depth + 1) (place.ancestors ++ [o.path]) := by
  intro c hc
  obtain ⟨d,hd,hok⟩ := of_mem_signatureChanges h hc
  exact placed_of_signatureChange (hk.signatureChanges d hd) hok

def Descent.Places (descend : Descent) : Prop :=
  ∀ o n depth ancestors cs, (descend o n depth ancestors).result = .ok cs →
    ∀ c ∈ cs, c.Placed (depth + 1) (ancestors ++ [o.path])

/-- One level: all that it reports stands at its place. -/
theorem placed_of_level (hd : descend.Places)
    (hplace : place.isNested = decide (0 < place.depth)) {olds news : Members} {cs : List Change}
    (h : (level options compareTypes descend place olds news).result = .ok cs) :
    ∀ c ∈ cs, c.Placed place.depth place.ancestors := by
  intro c hc
  cases reports_of_mem_level h hc with
  | @renamed r nested hr hn =>
    have hfree (target : Target) : (Descriptor.plain target .renamed []).Placeless :=
      Descriptor.placeless_plain (by simp) _ _
    exact .intro ⟨hplace,rfl,rfl,hasNested_tagNested (hfree _) _,unlisted_tagNested (hfree _) _⟩ rfl
      (hd _ _ _ _ _ hn)
  | @removed d _ =>
    have hfree : (removedChange place d).descriptor.Placeless :=
      Descriptor.placeless_plain (isOfPlace_of_mem_membershipTags _ _ _) _ _
    exact .intro ⟨hplace,rfl,rfl,hfree .hasNestedChanges rfl,hfree .isNestedChange rfl⟩ rfl
      (by simp [removedChange])
  | @added d _ =>
    have hfree : (addedChange place d).descriptor.Placeless :=
      Descriptor.placeless_plain (isOfPlace_of_mem_membershipTags _ _ _) _ _
    exact .intro ⟨hplace,rfl,rfl,hfree .hasNestedChanges rfl,hfree .isNestedChange rfl⟩ rfl
      (by simp [addedChange])
  | modified _ hk hs hi =>
    have hfree := (Classification.found_ofPair hk).placeless
    refine .intro ⟨rfl,rfl,rfl,hasNested_tagNested hfree.descriptor _,
      unlisted_tagNested hfree.descriptor _⟩ rfl ?_
    intro c hc
    rcases List.mem_append.mp hc with hc | hc
    · exact placed_of_signatureChanges hfree hs c hc
    · exact hd _ _ _ _ _ hi c hc

theorem membersWithin_places (options : DiffOptions) (compareTypes : TypeOracle) (room : Nat) :
    Descent.Places (membersWithin options compareTypes room) := by
  induction room with
  | zero =>
    intro o n depth ancestors cs h
    rw [membersWithin_zero] at h
    cases h
    simp
  | succ room ih =>
    intro o n depth ancestors cs h
    rcases of_membersWithin_succ h with rfl | h
    · simp
    · have hnested : (Place.inside o n depth ancestors).isNested = decide (0 < depth + 1) :=
        (decide_eq_true (Nat.succ_pos depth)).symm
      exact placed_of_level ih hnested h

/-- The shape of the forest: the changes of the modules stand at the top, what is nested
in a change stands one deeper below its path, a change is tagged for what is nested in it
just if there is something, and in the listing just the nested changes are tagged so. -/
theorem modules_shape {old new : Module} {options : DiffOptions} {oracle : TypeOracle}
    {cs : List Change} (h : (modules old new options oracle).result = .ok cs) :
    (∀ c ∈ cs, c.context.depth = 0 ∧ c.context.ancestors = [] ∧ c.context.nested = false) ∧
    (∀ c, Change.Within c cs →
      (∀ n ∈ c.nested, n.context.depth = c.context.depth + 1 ∧
        n.context.ancestors = c.context.ancestors ++ [c.path] ∧ n.context.nested = true) ∧
      (c.descriptor.tags.has .hasNestedChanges = true ↔ c.nested ≠ [])) ∧
    ∀ e ∈ Change.flattenAll cs,
      (e.descriptor.tags.has .isNestedChange = true ↔ e.context.nested = true) := by
  have hplaced : ∀ c ∈ cs, c.Placed 0 [] :=
    placed_of_level (membersWithin_places _ _ _) rfl (modules_eq_ok.mp h)
  refine ⟨?_,?_,?_⟩
  · intro c hc
    have hstands := (hplaced c hc).stands
    exact ⟨hstands.depth,hstands.ancestors,hstands.nested⟩
  · intro c hc
    obtain ⟨depth,ancestors,hc⟩ := hc.placed hplaced
    refine ⟨fun n hn => hc.nested hn,?_⟩
    rw [hc.stands.hasNested]
    simp
  · intro e he
    obtain ⟨c,hc,he⟩ := List.mem_flatMap.mp he
    rw [(hplaced c hc).isNestedChange e he]

def shapesOf (sides : List String) : Declaration :=
  .bare .namespaceDecl "Shapes" "Shapes" [("Box",.bare .interface "Shapes.Box" "Box"
    (sides.map fun s => (.text s,.bare .property ("Shapes.Box." ++ s) s [])))]

/-- A side that went is reported two levels down. -/
theorem modules_shape_of_shapes : ∃ cs,
    (modules (.ofExports [shapesOf ["width","height"]] "<memory>" "" [])
      (.ofExports [shapesOf ["width"]] "<memory>" "" []) .standard TypeText.heuristic).result =
      .ok cs ∧
    ((Change.flattenAll cs).map fun e => (e.path,e.context.depth)) =
      [(.text "Shapes",0),(.text "Shapes.Box",1),(.text "Shapes.Box.height",2)] ∧
    ∀ e ∈ Change.flattenAll cs,
      (e.descriptor.tags.has .isNestedChange = true ↔ e.context.nested = true) := by
  have hlisted : ((modules (.ofExports [shapesOf ["width","height"]] "<memory>" "" [])
      (.ofExports [shapesOf ["width"]] "<memory>" "" []) .standard
      TypeText.heuristic).result.toOption.map fun cs =>
        (Change.flattenAll cs).map fun e => (e.path,e.context.depth)) =
      some [(.text "Shapes",0),(.text "Shapes.Box",1),(.text "Shapes.Box.height",2)] := by
    decide +kernel
  obtain ⟨cs,hcs,hpaths⟩ := exists_ok_of_toOption hlisted
  exact ⟨cs,hcs,hpaths,(modules_shape hcs).2.2⟩

end Diff

end ApiRelease
