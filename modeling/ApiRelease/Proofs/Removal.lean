import ApiRelease.Proofs.Builtin
import ApiRelease.Proofs.Exports
import ApiRelease.Proofs.Totality

/-! # What went missing makes the release major

An export that the new module lacks is reported as removed or renamed, whatever else
changed, and each built-in policy calls that major. A member that is missing further
down is found because every pair of declarations above it is entered and reported
for what changed inside it.
-/
namespace ApiRelease

/-- The declarations met on the way down along the keys of members, the first one
included. -/
def Declaration.along (d : Declaration) : List Scalar → Option (List Declaration)
  | [] => some [d]
  | key :: keys => (Members.find? key d.members).bind fun m => (m.along keys).map (d :: ·)

namespace Declaration

theorem along_cons {d : Declaration} {key : Scalar} {keys : List Scalar} {ds : List Declaration} :
    d.along (key :: keys) = some ds ↔
    ∃ m rest, Members.find? key d.members = some m ∧ m.along keys = some rest ∧ ds = d :: rest := by
  simp only [along, Option.bind_eq_some_iff, Option.map_eq_some_iff]
  constructor
  · rintro ⟨m,hm,rest,hr,rfl⟩
    exact ⟨m,rest,hm,hr,rfl⟩
  · rintro ⟨m,rest,hm,hr,rfl⟩
    exact ⟨m,hm,rest,hr,rfl⟩

theorem along_eq_none {d m : Declaration} {key : Scalar} {keys : List Scalar}
    (h : d.along (key :: keys) = none) (hm : Members.find? key d.members = some m) :
    m.along keys = none := by
  simpa [along, hm] using h

theorem find?_eq_none_of_along {d : Declaration} {key : Scalar} (h : d.along [key] = none) :
    Members.find? key d.members = none := by
  cases hm : Members.find? key d.members with
  | none => rfl
  | some m => cases along_eq_none h hm

theorem exists_cons_of_along {d : Declaration} {keys : List Scalar} {ds : List Declaration}
    (h : d.along keys = some ds) : ∃ rest, ds = d :: rest := by
  cases keys with
  | nil =>
    cases h
    exact ⟨[],rfl⟩
  | cons key keys =>
    obtain ⟨m,rest,-,-,rfl⟩ := along_cons.mp h
    exact ⟨rest,rfl⟩

/-- What lies on the way below a declaration can still be entered when that one was. -/
theorem not_mem_ancestors_below {d : Declaration} {ds : List Declaration} {ancestors : List String}
    (hpaths : ((d :: ds).map (·.path)).Nodup) (hfresh : ∀ e ∈ d :: ds, e.path ∉ ancestors) :
    ∀ e ∈ ds, e.path ∉ ancestors ++ [d.path] := by
  rw [List.map_cons, List.nodup_cons] at hpaths
  intro e he hmem
  rcases List.mem_append.mp hmem with hmem | hmem
  · exact hfresh e (List.mem_cons_of_mem _ he) hmem
  · rw [List.mem_singleton] at hmem
    exact hpaths.1 (hmem ▸ List.mem_map_of_mem he)

end Declaration

def Change.IsLoss (c : Change) : Prop :=
  c.descriptor.effect = .renamed ∨ c.descriptor.effect = .removed ∧ c.context.nested = true

theorem Change.Within.mono {c : Change} {cs ds : List Change} (h : Within c cs) (hs : cs ⊆ ds) :
    Within c ds := by
  cases h with
  | here h => exact .here (hs h)
  | inside h hc => exact .inside (hs h) hc

namespace Diff

variable {options : DiffOptions} {compareTypes : TypeOracle} {descend : Descent} {place : Place}

/-- A pair is reported for what changed inside it, also if nothing else did. -/
theorem within_of_matched (ha : TypeOracle.Answers (fun _ => False) compareTypes)
    {olds news : Members} {cs inside : List Change} {old new : Declaration} {c : Change}
    (h : (level options compareTypes descend place olds news).result = .ok cs)
    (hp : (old,new) ∈ (matchMembers olds news).matched)
    (hi : (descend old new place.depth place.ancestors).result = .ok inside)
    (hc : Change.Within c inside) : Change.Within c cs := by
  obtain ⟨k,hk,hdescribable⟩ :=
    (Classification.ofPair_ends ha old.toFacts new.toFacts options).exists_ok
  obtain ⟨fromSignature,hs⟩ := signatureChanges_ok hdescribable options old new place
  have hsub : inside ⊆ fromSignature ++ inside := List.subset_append_right _ _
  have hne : fromSignature ++ inside ≠ [] := by
    intro hnil
    cases hc with
    | here hm => simpa [hnil] using hsub hm
    | inside hm _ => simpa [hnil] using hsub hm
  exact .inside (mem_of_modifiedChange h hp (modifiedChange_of_nested hk hs hi hne)) (hc.mono hsub)

/-- A level of members where something is missing reports a loss. -/
theorem exists_loss_of_missing {olds news : Members} {cs : List Change} {key : Scalar}
    {o : Declaration} (hplace : place.isNested = true)
    (h : (level options compareTypes descend place olds news).result = .ok cs)
    (ho : Members.find? key olds = some o) (hn : Members.find? key news = none) :
    ∃ c ∈ cs, c.IsLoss := by
  obtain ⟨c,hc,hloss⟩ := exists_loss_of_removed h (mem_removed_of_find? ho hn)
  refine ⟨c,hc,?_⟩
  rcases hloss with hr | ⟨e,rfl⟩
  · exact Or.inl hr
  · exact Or.inr ⟨rfl,hplace⟩

/-- A member that is missing somewhere below two declarations is a loss among what
changed inside them, as long as there is room for the levels between. -/
theorem exists_loss_inside (ha : TypeOracle.Answers (fun _ => False) compareTypes)
    (hi : options.includeNested = true) {keys : List Scalar} (hkeys : keys ≠ []) {room : Nat}
    (hroom : keys.length ≤ room) {o n : Declaration} {olds news : List Declaration}
    (holds : o.along keys = some olds) (hnews : n.along keys.dropLast = some news)
    (hlost : n.along keys = none) (hko : ∀ d ∈ olds.tail, d.kind ≠ .parameter)
    (hkn : ∀ d ∈ news.tail, d.kind ≠ .parameter) (hpaths : (olds.dropLast.map (·.path)).Nodup)
    {ancestors : List String} (hfresh : ∀ d ∈ olds.dropLast, d.path ∉ ancestors) {depth : Nat}
    {cs : List Change}
    (h : (membersWithin options compareTypes room o n depth ancestors).result = .ok cs) :
    ∃ c, Change.Within c cs ∧ c.IsLoss := by
  induction keys generalizing room o n olds news ancestors depth cs with
  | nil => exact absurd rfl hkeys
  | cons key keys ih =>
    obtain ⟨o',rest,ho',hrest,rfl⟩ := Declaration.along_cons.mp holds
    obtain ⟨tail,rfl⟩ := Declaration.exists_cons_of_along hrest
    have hko' : o'.kind ≠ .parameter := hko o' (by simp)
    have hfind := find?_comparedMembers (bothSigned o n) hko' ho'
    rw [List.dropLast_cons_cons] at hpaths hfresh
    have hfree : o.path ∉ ancestors := hfresh o List.mem_cons_self
    obtain ⟨room,rfl⟩ : ∃ r, room = r + 1 := ⟨room - 1,by simp at hroom; omega⟩
    rw [membersWithin_succ room hi hfree] at h
    cases keys with
    | nil =>
      obtain ⟨c,hc,hloss⟩ := exists_loss_of_missing rfl h hfind
        (find?_comparedMembers_of_none (bothSigned o n) (Declaration.find?_eq_none_of_along hlost))
      exact ⟨c,.here hc,hloss⟩
    | cons next keys =>
      rw [List.dropLast_cons_cons] at hnews
      obtain ⟨n',newRest,hn',hnewRest,rfl⟩ := Declaration.along_cons.mp hnews
      obtain ⟨newTail,rfl⟩ := Declaration.exists_cons_of_along hnewRest
      have hkn' : n'.kind ≠ .parameter := hkn n' (by simp)
      have hpair := mem_matched_of_find? hfind (find?_comparedMembers (bothSigned o n) hkn' hn')
      have hlost' := Declaration.along_eq_none hlost hn'
      have hbelow := Declaration.not_mem_ancestors_below hpaths hfresh
      obtain ⟨inside,hinside⟩ := membersWithin_ok (files_of_answers ha) room o' n' (depth + 1)
        (ancestors ++ [o.path])
      obtain ⟨c,hc,hloss⟩ := ih (by simp) (by simpa using hroom) hrest hnewRest hlost'
        (fun d hd => hko d (List.mem_cons_of_mem _ hd))
        (fun d hd => hkn d (List.mem_cons_of_mem _ hd)) (List.nodup_cons.mp hpaths).2 hbelow hinside
      exact ⟨c,within_of_matched ha h hpair hinside hc,hloss⟩

end Diff

def Declaration.treeType (links : List String) : Declaration :=
  .bare .interface "Tree" "Tree" [("node",.bare .interface "Tree.node" "node"
    (links.map fun l => (.text l,.bare .property ("Tree.node." ++ l) l [])))]

namespace Analysis

theorem ofModules_ok (old new : Module) (policy : Policy) (options : DiffOptions) :
    ∃ a, (ofModules old new policy options TypeText.heuristic).result = .ok a := by
  obtain ⟨cs,hcs⟩ := Diff.modules_ok (TypeText.heuristic_answers _) old new options
  exact ⟨_,ofModules_eq_ok.mpr ⟨cs,hcs,rfl⟩⟩

/-- An export path that only the old module has makes the release major, whether the
export was removed or renamed. -/
theorem release_of_lost_export {old new : Module} (ho : old.Decoded) (hn : new.Decoded)
    {policy : Policy} (hp : policy ∈ Policy.builtins) {options : DiffOptions} {oracle : TypeOracle}
    {a : Analysis} (ha : (ofModules old new policy options oracle).result = .ok a) {path : String}
    (hold : path ∈ old.exportPaths) (hnew : path ∉ new.exportPaths) :
    a.release = Release.major.name := by
  obtain ⟨cs,hcs,rfl⟩ := ofModules_eq_ok.mp ha
  obtain ⟨⟨k,d⟩,hd,rfl⟩ := List.mem_map.mp hold
  have hmissing : Members.find? k new.exports = none := by
    rw [ho.key_of_mem hd]
    exact hn.find?_eq_none_iff.mpr hnew
  obtain ⟨c,hc,hloss⟩ := Diff.exists_loss_of_removed (Diff.modules_eq_ok.mp hcs)
    (Diff.mem_removed_iff.mpr ⟨k,hd,hmissing⟩)
  apply release_ofChanges (.here hc)
  intro inside
  rcases hloss with hr | ⟨e,rfl⟩
  · exact Policy.release_of_renamed hp (by simpa using hr)
  · exact Policy.release_of_removed_export hp (by rw [Change.listed_effect]; rfl)
      (by rw [Change.listed_target]; rfl)

theorem release_of_lost_open : ∃ (old new : Module) (a : Analysis),
    old.Decoded ∧ new.Decoded ∧ "open" ∈ old.exportPaths ∧ "open" ∉ new.exportPaths ∧
    (ofModules old new .writeOnly .standard TypeText.heuristic).result = .ok a ∧
    a.release = Release.major.name := by
  have ho : (Module.plain [(.function,"open"),(.function,"close")]).Decoded :=
    Module.decoded_plain (by decide) (by decide)
  have hn : (Module.plain [(.function,"close"),(.function,"opens")]).Decoded :=
    Module.decoded_plain (by decide) (by decide)
  obtain ⟨a,ha⟩ := ofModules_ok (.plain [(.function,"open"),(.function,"close")])
    (.plain [(.function,"close"),(.function,"opens")]) .writeOnly .standard
  have hp : Policy.writeOnly ∈ Policy.builtins := by simp [Policy.builtins]
  have hold : "open" ∈ (Module.plain [(.function,"open"),(.function,"close")]).exportPaths := by decide
  have hnew : "open" ∉ (Module.plain [(.function,"close"),(.function,"opens")]).exportPaths := by decide
  exact ⟨_,_,a,ho,hn,hold,hnew,ha,release_of_lost_export ho hn hp ha hold hnew⟩

/-- A member that only the old module has makes the release major for all who read
it: at the end of a chain of at most ten keys below an export, where the
declarations above it are in both modules, no member on the way is a parameter, and
those that are entered differ in their paths. -/
theorem release_of_lost_member {old new : Module} {path : String} {o n : Declaration}
    (ho : Members.find? (.text path) old.exports = some o)
    (hn : Members.find? (.text path) new.exports = some n) {keys : List Scalar} (hkeys : keys ≠ [])
    (hlength : keys.length ≤ 10) {olds news : List Declaration} (holds : o.along keys = some olds)
    (hnews : n.along keys.dropLast = some news) (hlost : n.along keys = none)
    (hkinds : ∀ d ∈ olds.tail ++ news.tail, d.kind ≠ .parameter)
    (hpaths : (olds.dropLast.map (·.path)).Nodup) {policy : Policy}
    (hp : policy = .shared ∨ policy = .readOnly) :
    ∃ a, (ofModules old new policy .standard TypeText.heuristic).result = .ok a ∧
      a.release = Release.major.name := by
  have ha := Diff.typeComparer_answers (TypeText.heuristic_answers fun _ => False) .standard
  have hnested : DiffOptions.standard.includeNested = true := rfl
  obtain ⟨cs,hcs⟩ := Diff.modules_ok (TypeText.heuristic_answers _) old new .standard
  obtain ⟨inside,hinside⟩ := Diff.membersWithin_ok (Diff.files_of_answers ha) 10 o n 0 []
  obtain ⟨c,hc,hloss⟩ := Diff.exists_loss_inside ha hnested hkeys hlength holds hnews hlost
    (fun d hd => hkinds d (List.mem_append_left _ hd))
    (fun d hd => hkinds d (List.mem_append_right _ hd)) hpaths (by simp) hinside
  have hwithin := Diff.within_of_matched ha (Diff.modules_eq_ok.mp hcs)
    (Diff.mem_matched_of_find? ho hn) hinside hc
  refine ⟨_,ofModules_eq_ok.mpr ⟨cs,hcs,rfl⟩,release_ofChanges hwithin ?_⟩
  intro listed
  rcases hloss with hr | ⟨hr,hmember⟩
  · exact Policy.release_of_renamed (by rcases hp with rfl | rfl <;> simp [Policy.builtins])
      (by simpa using hr)
  · exact Policy.release_of_removed_member hp (by simpa using hr) (by simpa using hmember)

theorem release_of_lost_link : ∃ a,
    (ofModules (.ofExports [.treeType ["left","right"]] "tree" "" [])
      (.ofExports [.treeType ["right"]] "tree" "" []) .shared .standard
      TypeText.heuristic).result = .ok a ∧ a.release = Release.major.name := by
  have ho : Members.find? (.text "Tree")
      (Module.ofExports [.treeType ["left","right"]] "tree" "" []).exports =
      some (.treeType ["left","right"]) := rfl
  have hn : Members.find? (.text "Tree")
      (Module.ofExports [.treeType ["right"]] "tree" "" []).exports = some (.treeType ["right"]) := rfl
  have hkeys : ([.text "node",.text "left"] : List Scalar) ≠ [] := by simp
  exact release_of_lost_member ho hn hkeys (by decide) rfl rfl rfl (by decide) (by decide)
    (Or.inl rfl)

end Analysis

end ApiRelease
