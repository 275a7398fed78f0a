import ApiRelease.Proofs.Exports
import ApiRelease.Proofs.Level

/-! # What the options of nesting decide

Whether members are compared, and down to which depth, decides what is nested in a change
and, of a pair in which nothing else changed, whether it is told at all. It never decides
what is said of a declaration: with what is nested in them left out, two comparisons that
differ only in these options tell the same changes of the exports in the same order.
-/
namespace ApiRelease

namespace Change

def bare (c : Change) : Change where
  toFinding := { c.toFinding with descriptor :=
    { c.descriptor with tags := c.descriptor.tags.without (.ofList [.hasNestedChanges]) } }
  nested := []

/-- What a change says of its own declaration; a type that is only written differently
says nothing. -/
def verdict? (c : Change) : Option Change :=
  if c.descriptor.effect = .modified .type .equivalent then none else some c.bare

end Change

namespace DiffOptions

def nesting (o : DiffOptions) (includeNested : Bool) (maxDepth : Int) : DiffOptions :=
  { o with includeNested, maxDepth }

end DiffOptions

namespace Diff

variable {options : DiffOptions} {compareTypes : TypeOracle} {descend : Descent} {place : Place}

theorem tags_tagNested (d : Descriptor) (nested : List Change) :
    (tagNested d nested).tags.without (.ofList [.hasNestedChanges]) =
    d.tags.without (.ofList [.hasNestedChanges]) := by
  ext t
  by_cases ht : t = .hasNestedChanges
  · simp [Subset.without, ht]
  · simp [Subset.without, has_tagNested d nested ht]

theorem bare_renamedWith (r : Rename Float) (nested : List Change) :
    (renamedWith place r nested).bare = (renamedWith place r []).bare := by
  simp only [Change.bare, renamedWith, tags_tagNested, tagNested_effect, tagNested_target]

theorem bare_modifiedWith (o n : Declaration) (k : Classification) (nested : List Change) :
    (modifiedWith place o n k nested).bare = (modifiedWith place o n k []).bare := by
  simp only [Change.bare, modifiedWith, tags_tagNested, tagNested_effect, tagNested_target]

def pairVerdict (options : DiffOptions) (compareTypes : TypeOracle) (place : Place)
    (o n : Declaration) : Option Change :=
  match Classification.ofPair o.toFacts n.toFacts options compareTypes with
  | .error _ => none
  | .ok k => (modifiedWith place o n k []).verdict?

theorem verdict?_renamed {r : Rename Float} {c : Change}
    (h : (renamedChange descend place r).result = .ok c) :
    c.verdict? = some (renamedWith place r []).bare := by
  obtain ⟨nested,-,rfl⟩ := renamedChange_eq_ok.mp h
  have heffect : (renamedWith place r nested).descriptor.effect = .renamed := by
    simp [renamedWith, Descriptor.plain]
  simp [Change.verdict?, heffect, bare_renamedWith]

theorem verdict?_modified {o n : Declaration} {c : Option Change}
    (h : (modifiedChange options compareTypes descend place o n).result = .ok c) :
    c.bind Change.verdict? = pairVerdict options compareTypes place o n := by
  unfold pairVerdict
  cases hk : Classification.ofPair o.toFacts n.toFacts options compareTypes with
  | error f =>
    obtain ⟨-,rfl⟩ := (modifiedChange_of_error hk).mp h
    rfl
  | ok k =>
    obtain ⟨fromSignature,inside,-,-,rfl⟩ := (modifiedChange_of_ok hk).mp h
    have heffect (nested : List Change) :
        (modifiedWith place o n k nested).descriptor.effect = k.descriptor.effect := by
      simp [modifiedWith]
    by_cases he : k.descriptor.effect = .modified .type .equivalent
    · -- told or not, such a pair has nothing to say of its own
      have hnone (nested : List Change) : (modifiedWith place o n k nested).verdict? = none := by
        simp [Change.verdict?, heffect, he]
      split <;> simp [hnone]
    · have htold : k.isEquivalent = false := by simpa [Classification.isEquivalent] using he
      simp [htold, Change.verdict?, heffect, he, bare_modifiedWith]

def levelVerdicts (options : DiffOptions) (compareTypes : TypeOracle) (place : Place)
    (olds news : Members) : List Change :=
  let m := matchMembers olds news
  let renames := levelRenames options m
  renames.map (fun r => (renamedWith place r []).bare) ++
    ((Rename.unusedOld renames m.removed).map (removedChange place)).filterMap Change.verdict? ++
    ((Rename.unusedNew renames m.added).map (addedChange place)).filterMap Change.verdict? ++
    m.matched.filterMap fun p => pairVerdict options compareTypes place p.1 p.2

theorem filterMap_verdict?_level {olds news : Members} {cs : List Change}
    (h : (level options compareTypes descend place olds news).result = .ok cs) :
    cs.filterMap Change.verdict? = levelVerdicts options compareTypes place olds news := by
  obtain ⟨renamed,modified,hr,hm,rfl⟩ := level_eq_ok.mp h
  have hrenamed : renamed.filterMap Change.verdict? =
      (levelRenames options (matchMembers olds news)).map fun r => (renamedWith place r []).bare := by
    rw [← List.filterMap_eq_map]
    exact filterMap_eq_of_forall₂ (hr.imp fun _ _ hok => verdict?_renamed hok)
  have hmodified : (modified.filterMap id).filterMap Change.verdict? =
      (matchMembers olds news).matched.filterMap fun p =>
        pairVerdict options compareTypes place p.1 p.2 := by
    rw [List.filterMap_filterMap]
    exact filterMap_eq_of_forall₂ (hm.imp fun _ _ hok => verdict?_modified hok)
  simp only [List.filterMap_append, hrenamed, hmodified, levelVerdicts]

/-- Whether and how deep members are compared changes nothing in what is said of the
exports. -/
theorem modules_verdicts {old new : Module} {options : DiffOptions} {oracle : TypeOracle}
    {includeNested : Bool} {maxDepth : Int} {cs cs' : List Change}
    (h : (modules old new options oracle).result = .ok cs)
    (h' : (modules old new (options.nesting includeNested maxDepth) oracle).result = .ok cs') :
    cs.filterMap Change.verdict? = cs'.filterMap Change.verdict? := by
  have hsame : levelVerdicts (options.nesting includeNested maxDepth)
      (typeComparer (options.nesting includeNested maxDepth) oracle) .top old.exports new.exports =
      levelVerdicts options (typeComparer options oracle) .top old.exports new.exports := rfl
  rw [filterMap_verdict?_level (modules_eq_ok.mp h), filterMap_verdict?_level (modules_eq_ok.mp h'),
    hsame]

def furniture (name : String) (parts : List String) : Declaration :=
  .bare .interface name name
    (parts.map fun part => (.text part,.bare .property (name ++ "." ++ part) part []))

def oldRoom : Module :=
  .ofExports [furniture "Desk" ["left","right"],furniture "Lamps" ["cord"]] "<memory>" "" []

def newRoom : Module :=
  .ofExports [furniture "Desk" ["left"],furniture "Lamp" ["cord","plug"]] "<memory>" "" []

/-- Without members the desk is not told any more, and the lamp is told as before. -/
theorem modules_verdicts_of_room : ∃ cs cs',
    (modules oldRoom newRoom .standard TypeText.heuristic).result = .ok cs ∧
    (modules oldRoom newRoom (DiffOptions.standard.nesting false 0) TypeText.heuristic).result =
      .ok cs' ∧
    (cs.map fun c => (c.path,c.nested.map (·.path))) =
      [(.text "Lamps",[.text "Lamp.plug"]),(.text "Desk",[.text "Desk.right"])] ∧
    (cs'.map fun c => (c.path,c.nested.map (·.path))) = [(.text "Lamps",[])] ∧
    cs.filterMap Change.verdict? = cs'.filterMap Change.verdict? := by
  have hdeep : ((modules oldRoom newRoom .standard TypeText.heuristic).result.toOption.map fun cs =>
      cs.map fun c => (c.path,c.nested.map (·.path))) =
      some [(.text "Lamps",[.text "Lamp.plug"]),(.text "Desk",[.text "Desk.right"])] := by
    decide +kernel
  have hflat : ((modules oldRoom newRoom (DiffOptions.standard.nesting false 0)
      TypeText.heuristic).result.toOption.map fun cs =>
        cs.map fun c => (c.path,c.nested.map (·.path))) = some [(.text "Lamps",[])] := by
    decide +kernel
  obtain ⟨cs,hcs,hpaths⟩ := exists_ok_of_toOption hdeep
  obtain ⟨cs',hcs',hpaths'⟩ := exists_ok_of_toOption hflat
  exact ⟨cs,cs',hcs,hcs',hpaths,hpaths',modules_verdicts hcs hcs'⟩

end Diff

end ApiRelease
