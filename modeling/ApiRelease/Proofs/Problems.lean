import ApiRelease.Proofs.Release
import ApiRelease.Proofs.Unchanged

/-! # What a comparison files and what it leaves out

The pairs that a comparison comes to are listed here in the order in which it compares
them. A pair that can be compared files its anomalies and is entered; one that cannot
files one message with the new module, and neither it nor anything inside it is reported.
If the failures of the oracle are all of that sort, the comparison ends, what it files is
what its pairs file, one after the other, and every change is described as the vocabulary
asks. A description that breaks the rules of the vocabulary is not of that sort: whoever
makes one ends the comparison.
-/
namespace ApiRelease

namespace Descriptor

theorem word_name {α : Type} [Vocabulary α] (unknown : Value → DescriptorFault) (a : α) :
    word unknown (.text (Vocabulary.name a)) = .ok a := by
  simp only [word, Value.hashable, Vocabulary.parse?_name]
  rfl

theorem tagSet_names (s : Subset Tag) : tagSet (s.names.map .text) = .ok s := by
  have hknown : (s.names.map Value.text).filter (fun v => !isTagName v) = [] := by
    apply List.filter_eq_nil_iff.mpr
    intro v hv
    obtain ⟨n,hn,rfl⟩ := List.mem_map.mp hv
    obtain ⟨t,-,rfl⟩ := List.mem_map.mp hn
    simp [isTagName]
  have hread : (s.names.map Value.text).filterMap
      (fun v => (asText? v).bind fun n => (Vocabulary.parse? n : Option Tag)) = s.toList := by
    simp [Subset.names, List.filterMap_map, Function.comp_def, asText?]
  simp only [tagSet, hknown, List.isEmpty_nil, if_true]
  rw [hread, Subset.ofList_toList]

/-- The parts of the description pass the check by which descriptions are made, and an
aspect and an impact are named just where the action is a modification. -/
structure Valid (d : Descriptor) : Prop where
  accepted : ofParts (.text d.target.name) (.text d.effect.action.name) (.ofOption d.aspectName?)
    (.ofOption d.impactName?) (d.tags.names.map .text) = .ok d
  aspect : d.aspectName?.isSome = true ↔ d.effect.action = .modified
  impact : d.impactName?.isSome = true ↔ d.effect.action = .modified

theorem valid (d : Descriptor) : d.Valid := by
  obtain ⟨target,effect,tags⟩ := d
  have hhash : (tags.names.map Value.text).forM Value.hashable = .ok () := by
    induction tags.names with
    | nil => rfl
    | cons n rest ih => exact ih
  have heffect : effectOf target effect.action (.ofOption (effect.aspect?.map Aspect.name))
      (.ofOption (effect.impact?.map Impact.name)) = .ok effect := by
    cases effect with
    | modified aspect impact =>
      have haspect := word_name .unknownAspect aspect
      have himpact := word_name .unknownImpact impact
      exact bind_eq_ok.mpr ⟨aspect,haspect,bind_eq_ok.mpr ⟨impact,himpact,rfl⟩⟩
    | added | removed | renamed | reordered => rfl
  refine ⟨?_,?_,?_⟩
  · exact bind_eq_ok.mpr ⟨(),hhash,bind_eq_ok.mpr ⟨target,word_name .unknownTarget target,
      bind_eq_ok.mpr ⟨effect.action,word_name .unknownAction effect.action,
        bind_eq_ok.mpr ⟨tags,tagSet_names tags,bind_eq_ok.mpr ⟨effect,heffect,rfl⟩⟩⟩⟩⟩
  · cases effect <;> simp [aspectName?, Effect.aspect?, Effect.action]
  · cases effect <;> simp [impactName?, Effect.impact?, Effect.action]

end Descriptor

namespace Change

def pair? (c : Change) : Option (Declaration × Declaration) :=
  if c.descriptor.effect = .renamed then none
  else c.oldNode.bind fun o => c.newNode.map fun n => (o,n)

@[simp] theorem pair?_listed (inside : Bool) (c : Change) : (c.listed inside).pair? = c.pair? := by
  cases inside <;> rfl

def pairsIn (cs : List Change) : List (Declaration × Declaration) := (flattenAll cs).filterMap pair?

@[simp] theorem pairsIn_nil : pairsIn [] = [] := rfl

@[simp] theorem pairsIn_append (cs ds : List Change) : pairsIn (cs ++ ds) = pairsIn cs ++ pairsIn ds := by
  simp [pairsIn, flattenAll]

theorem filterMap_flattenNested (cs : List Change) : (flattenNested cs).filterMap pair? = pairsIn cs := by
  induction cs with
  | nil => rfl
  | cons c rest ih =>
    simp only [pairsIn, flattenAll, flattenNested, List.flatMap_cons, List.filterMap_append,
      flatten_eq, List.filterMap_cons, pair?_listed] at ih ⊢
    rw [ih]

theorem pairsIn_cons (c : Change) (cs : List Change) :
    pairsIn (c :: cs) = c.pair?.toList ++ pairsIn c.nested ++ pairsIn cs := by
  rw [← filterMap_flattenNested c.nested]
  simp only [pairsIn, flattenAll, List.flatMap_cons, List.filterMap_append, flatten_eq,
    List.filterMap_cons, pair?_listed]
  cases c.pair? <;> rfl

theorem pairsIn_of_leaves {cs : List Change} (h : ∀ c ∈ cs, c.pair? = none ∧ c.nested = []) :
    pairsIn cs = [] := by
  induction cs with
  | nil => rfl
  | cons c rest ih =>
    obtain ⟨hpair,hnested⟩ := h c List.mem_cons_self
    rw [pairsIn_cons, hpair, hnested, ih fun d hd => h d (List.mem_cons_of_mem _ hd)]
    rfl

theorem pairsIn_map_of_leaves {α : Type} {f : α → Change}
    (h : ∀ a, (f a).pair? = none ∧ (f a).nested = []) (as : List α) : pairsIn (as.map f) = [] := by
  apply pairsIn_of_leaves
  intro c hc
  obtain ⟨a,-,rfl⟩ := List.mem_map.mp hc
  exact h a

end Change

def Comparing.problems {α : Type} (side : Side) (x : Comparing α) : List String :=
  x.notes.filterMap (·.problem? side)

namespace Diff

section Pairs

variable (options : DiffOptions) (compareTypes : TypeOracle)

def isComparable (p : Declaration × Declaration) : Bool :=
  (Classification.ofPair p.1.toFacts p.2.toFacts options compareTypes).toBool

/-- What comparing a pair files with the module of a side: its anomalies on that side, or,
if it cannot be compared, one message with the new module. -/
def filed (side : Side) (p : Declaration × Declaration) : List String :=
  match Classification.ofPair p.1.toFacts p.2.toFacts options compareTypes with
  | .ok c => c.anomalies.filterMap fun a => if a.1 = side then some a.2 else none
  | .error f =>
    match side with
    | .old => []
    | .new => ["'" ++ p.1.path ++ "': comparison failed: " ++ f.message]

/-- The pairs that a level compares, given those inside two declarations: first those
inside renamed ones, then each matched one with those inside it, if it can be compared. -/
def levelPairs (inside : Declaration → Declaration → List (Declaration × Declaration))
    (m : Match) : List (Declaration × Declaration) :=
  ((levelRenames options m).flatMap fun r => inside r.old r.new) ++
    m.matched.flatMap fun p =>
      p :: if isComparable options compareTypes p then inside p.1 p.2 else []

theorem levelPairs_nil (inside : Declaration → Declaration → List (Declaration × Declaration)) :
    levelPairs options compareTypes inside (matchMembers [] []) = [] := by
  simp [levelPairs, levelRenames, matchMembers, Rename.detect_of_removed_nil]

def pairsWithin : Nat → List String → Declaration → Declaration → List (Declaration × Declaration)
  | 0, _, _, _ => []
  | room + 1, ancestors, old, new =>
    if options.includeNested && !ancestors.contains old.path then
      levelPairs options compareTypes (pairsWithin room (ancestors ++ [old.path]))
        (matchMembers (comparedMembers (bothSigned old new) old.members)
          (comparedMembers (bothSigned old new) new.members))
    else []

def modulePairs (old new : Module) : List (Declaration × Declaration) :=
  levelPairs options compareTypes (pairsWithin options compareTypes options.maxDepth.toNat [])
    (matchMembers old.exports new.exports)

end Pairs

variable {options : DiffOptions} {compareTypes : TypeOracle} {descend : Descent} {place : Place}
variable {α β : Type} {o n : Declaration}

/-- The run compares these pairs and ends well. It files what they file, and what it
reports, seen as a forest, has each of them at most once, and only if it can be compared. -/
structure Tells (options : DiffOptions) (compareTypes : TypeOracle) (view : α → List Change)
    (x : Comparing α) (ps : List (Declaration × Declaration)) (a : α) : Prop where
  result : x.result = .ok a
  problems : ∀ side, x.problems side = ps.flatMap (filed options compareTypes side)
  changes : (Change.pairsIn (view a)).Sublist (ps.filter (isComparable options compareTypes))

theorem Tells.mapM {view : β → List Change} {f : α → Comparing β}
    {pairs : α → List (Declaration × Declaration)} {xs : List α}
    (h : ∀ x ∈ xs, ∃ b, Tells options compareTypes view (f x) (pairs x) b) :
    ∃ bs, Tells options compareTypes (·.flatMap view) (xs.mapM f) (xs.flatMap pairs) bs := by
  induction xs with
  | nil => exact ⟨[],rfl,fun _ => rfl,List.Sublist.slnil⟩
  | cons x rest ih =>
    obtain ⟨b,hb⟩ := h x List.mem_cons_self
    obtain ⟨bs,hbs⟩ := ih fun y hy => h y (List.mem_cons_of_mem _ hy)
    have hrest := Traced.result_mapM_eq_ok.mp hbs.result
    have hall : List.Forall₂ (fun x b => (f x).result = .ok b) (x :: rest) (b :: bs) :=
      .cons hb.result hrest
    refine ⟨b :: bs,Traced.result_mapM_eq_ok.mpr hall,?_,?_⟩
    · intro side
      have hproblems := hbs.problems side
      rw [Comparing.problems, Traced.notes_mapM_of_ok hrest] at hproblems
      rw [Comparing.problems, Traced.notes_mapM_of_ok hall, List.flatMap_cons,
        List.filterMap_append, hproblems, List.flatMap_cons, List.flatMap_append]
      exact congrArg (· ++ _) (hb.problems side)
    · rw [List.flatMap_cons, List.flatMap_cons, Change.pairsIn_append, List.filter_append]
      exact hb.changes.append hbs.changes

theorem problems_anomalies (side : Side) (as : List (Side × String)) :
    (as.flatMap fun a => (noteAnomaly a).notes).filterMap (·.problem? side) =
    as.filterMap fun a => if a.1 = side then some a.2 else none := by
  induction as with
  | nil => rfl
  | cons a rest ih =>
    rw [List.flatMap_cons, List.filterMap_append, ih]
    by_cases ha : a.1 = side
    · simp [noteAnomaly, Traced.noteAll, Remark.problem?, ha]
    · simp [noteAnomaly, Traced.noteAll, Remark.problem?, ha]

theorem pair?_modifiedWith (k : Classification) (nested : List Change) :
    (modifiedWith place o n k nested).pair?.toList.Sublist [(o,n)] := by
  unfold Change.pair?
  split
  · exact List.nil_sublist _
  · exact List.Sublist.refl _

theorem pairsIn_signatureChanges {k : Classification} {cs : List Change}
    (h : signatureChanges options o n place k = .ok cs) : Change.pairsIn cs = [] := by
  apply Change.pairsIn_of_leaves
  intro c hc
  obtain ⟨d,-,hok⟩ := of_mem_signatureChanges h hc
  obtain ⟨descriptor,-,hok⟩ := bind_eq_ok.mp hok
  cases hok
  exact ⟨by simp [Change.pair?],rfl⟩

theorem modifiedChange_tells_of_error {f : Fault}
    (hf : Classification.ofPair o.toFacts n.toFacts options compareTypes = .error f)
    (hc : isOfComparison f = true) :
    Tells options compareTypes Option.toList
      (modifiedChange options compareTypes descend place o n) [(o,n)] none := by
  refine ⟨(modifiedChange_of_error hf).mpr ⟨hc,rfl⟩,?_,List.nil_sublist _⟩
  intro side
  have hnotes : (modifiedChange options compareTypes descend place o n).notes =
      (noteFailure o.path f).notes := by
    unfold modifiedChange
    rw [hf]
    simp only [hc, if_true]
    rw [Traced.notes_bind_of_ok (a := ()) rfl]
    simp
  rw [Comparing.problems, hnotes, List.flatMap_singleton, filed, hf]
  cases side <;> rfl

theorem modifiedChange_tells_of_ok {k : Classification}
    (hk : Classification.ofPair o.toFacts n.toFacts options compareTypes = .ok k)
    (hs : k.Describable) {ps : List (Declaration × Declaration)} {inside : List Change}
    (hd : Tells options compareTypes id (descend o n place.depth place.ancestors) ps inside) :
    ∃ r, Tells options compareTypes Option.toList
      (modifiedChange options compareTypes descend place o n) ((o,n) :: ps) r := by
  obtain ⟨fromSignature,hsig⟩ := signatureChanges_ok hs options o n place
  have hanomalies : (k.anomalies.forM noteAnomaly).result = .ok () :=
    Traced.result_forM _ _ (fun _ => rfl)
  refine ⟨_,(modifiedChange_of_ok hk).mpr ⟨fromSignature,inside,hsig,hd.result,rfl⟩,?_,?_⟩
  · intro side
    -- describing the differences of signatures leaves no note
    have hnotes : (modifiedChange options compareTypes descend place o n).notes =
        (k.anomalies.flatMap fun a => (noteAnomaly a).notes) ++
          (descend o n place.depth place.ancestors).notes := by
      unfold modifiedChange
      rw [hk]
      simp only
      rw [Traced.notes_bind_of_ok hanomalies, Traced.notes_forM_of_ok (fun _ => rfl),
        Traced.notes_bind_of_ok (a := fromSignature) hsig, Traced.notes_bind_of_ok hd.result]
      simp
    have hinside := hd.problems side
    rw [Comparing.problems] at hinside
    rw [Comparing.problems, hnotes, List.filterMap_append, problems_anomalies, hinside,
      List.flatMap_cons, filed, hk]
  · have hcomparable : isComparable options compareTypes (o,n) = true := by
      simp [isComparable, hk, Except.toBool]
    rw [List.filter_cons_of_pos hcomparable]
    split
    · exact List.nil_sublist _
    · have hnested : Change.pairsIn (modifiedWith place o n k (fromSignature ++ inside)).nested =
          Change.pairsIn inside := by
        simp [modifiedWith, pairsIn_signatureChanges hsig]
      rw [Option.toList_some, Change.pairsIn_cons, hnested, Change.pairsIn_nil, List.append_nil]
      exact (pair?_modifiedWith k _).append hd.changes

/-- One pair: it is compared, and if it can be, what is inside it is compared as well. -/
theorem modifiedChange_tells (h : Files compareTypes) {ps : List (Declaration × Declaration)}
    {inside : List Change}
    (hd : Tells options compareTypes id (descend o n place.depth place.ancestors) ps inside) :
    ∃ r, Tells options compareTypes Option.toList
      (modifiedChange options compareTypes descend place o n)
      ((o,n) :: if isComparable options compareTypes (o,n) then ps else []) r := by
  have hends := Classification.ofPair_ends h o.toFacts n.toFacts options
  cases hk : Classification.ofPair o.toFacts n.toFacts options compareTypes with
  | error f =>
    have hnot : isComparable options compareTypes (o,n) = false := by
      simp [isComparable, hk, Except.toBool]
    rw [hnot]
    exact ⟨none,modifiedChange_tells_of_error hk (hends.of_eq_error hk)⟩
  | ok k =>
    have hcomparable : isComparable options compareTypes (o,n) = true := by
      simp [isComparable, hk, Except.toBool]
    rw [hcomparable]
    exact modifiedChange_tells_of_ok hk (hends.of_eq_ok hk) hd

theorem renamedChange_tells {r : Rename Float} {ps : List (Declaration × Declaration)}
    {inside : List Change}
    (hd : Tells options compareTypes id (descend r.old r.new place.depth place.ancestors) ps inside) :
    Tells options compareTypes (fun c => [c]) (renamedChange descend place r) ps
      (renamedWith place r inside) := by
  refine ⟨renamedChange_eq_ok.mpr ⟨inside,hd.result,rfl⟩,?_,?_⟩
  · intro side
    rw [← hd.problems side, Comparing.problems, Comparing.problems]
    unfold renamedChange
    rw [Traced.notes_bind_of_ok hd.result]
    simp
  · have hpair : (renamedWith place r inside).pair? = none := by
      simp [Change.pair?, renamedWith, Descriptor.plain]
    rw [Change.pairsIn_cons, hpair, Change.pairsIn_nil, List.append_nil]
    exact hd.changes

/-- One level compares the pairs inside renamed declarations and the matched ones. -/
theorem level_tells (h : Files compareTypes)
    {inside : Declaration → Declaration → List (Declaration × Declaration)}
    (hd : ∀ o n, ∃ cs,
      Tells options compareTypes id (descend o n place.depth place.ancestors) (inside o n) cs)
    (olds news : Members) : ∃ cs,
      Tells options compareTypes id (level options compareTypes descend place olds news)
        (levelPairs options compareTypes inside (matchMembers olds news)) cs := by
  have hrenames : ∀ r ∈ levelRenames options (matchMembers olds news), ∃ c,
      Tells options compareTypes (fun c => [c]) (renamedChange descend place r)
        (inside r.old r.new) c := by
    intro r _
    obtain ⟨cs,hcs⟩ := hd r.old r.new
    exact ⟨_,renamedChange_tells hcs⟩
  have hmatched : ∀ p ∈ (matchMembers olds news).matched, ∃ c,
      Tells options compareTypes Option.toList
        (modifiedChange options compareTypes descend place p.1 p.2)
        (p :: if isComparable options compareTypes p then inside p.1 p.2 else []) c := by
    intro p _
    obtain ⟨cs,hcs⟩ := hd p.1 p.2
    exact modifiedChange_tells h hcs
  obtain ⟨renamed,hr⟩ := Tells.mapM hrenames
  obtain ⟨modified,hm⟩ := Tells.mapM hmatched
  refine ⟨_,Traced.result_bind_eq_ok.mpr ⟨renamed,hr.result,Traced.result_bind_eq_ok.mpr
    ⟨modified,hm.result,rfl⟩⟩,?_,?_⟩
  · intro side
    rw [levelPairs, List.flatMap_append, ← hr.problems side, ← hm.problems side]
    unfold Comparing.problems level
    rw [Traced.notes_bind_of_ok hr.result, Traced.notes_bind_of_ok hm.result]
    simp
  · -- what came or went is about no pair, so only renames and matched pairs count
    have hremoved (ds : List Declaration) : Change.pairsIn (ds.map (removedChange place)) = [] :=
      Change.pairsIn_map_of_leaves (fun _ => ⟨rfl,rfl⟩) ds
    have hadded (ds : List Declaration) : Change.pairsIn (ds.map (addedChange place)) = [] :=
      Change.pairsIn_map_of_leaves (fun _ => ⟨rfl,rfl⟩) ds
    have hchanges := hr.changes.append hm.changes
    rw [List.flatMap_singleton', ← List.filterMap_eq_flatMap_toList, ← List.filter_append] at hchanges
    simp only [id_eq, Change.pairsIn_append, hremoved, hadded, List.append_nil]
    exact hchanges

theorem tells_nothing {x : Comparing (List Change)} (hresult : x.result = .ok [])
    (hnotes : ∀ side, x.problems side = []) : Tells options compareTypes id x [] [] :=
  ⟨hresult,hnotes,List.Sublist.slnil⟩

theorem membersWithin_tells (h : Files compareTypes) (room : Nat) (o n : Declaration)
    (depth : Nat) (ancestors : List String) : ∃ cs,
      Tells options compareTypes id (membersWithin options compareTypes room o n depth ancestors)
        (pairsWithin options compareTypes room ancestors o n) cs := by
  induction room generalizing o n depth ancestors with
  | zero =>
    refine ⟨[],tells_nothing membersWithin_zero fun side => ?_⟩
    unfold membersWithin
    split <;> rfl
  | succ room ih =>
    rw [membersWithin, pairsWithin]
    cases hi : options.includeNested with
    | false => exact ⟨[],tells_nothing rfl (fun _ => rfl)⟩
    | true =>
      cases hp : ancestors.contains o.path with
      | true =>
        -- a declaration below itself only leaves a line in the log
        refine ⟨[],?_⟩
        simp only [Bool.not_true, Bool.and_false, Bool.false_or, Bool.false_eq_true, if_false,
          if_true]
        split
        · exact tells_nothing rfl (fun _ => rfl)
        · exact tells_nothing rfl (fun _ => rfl)
      | false =>
        simp only [Bool.not_true, Bool.not_false, Bool.and_true, Bool.false_or,
          Bool.false_eq_true, if_false, if_true]
        split
        · next hempty =>
          simp only [Bool.and_eq_true, List.isEmpty_iff] at hempty
          rw [hempty.1, hempty.2]
          simp only [comparedMembers, List.filter_nil, ite_self, levelPairs_nil]
          exact ⟨[],tells_nothing rfl (fun _ => rfl)⟩
        · exact level_tells h (fun o n => ih o n _ _) _ _

/-- The sorts of failure that a comparison answers for. A description of a change that
breaks the rules is a malformed value too, but it is passed on, so its sort is left out. -/
def answeredSorts : List FaultSort :=
  [.absent,.mistyped,.malformed,.unsupported,.unreadablePolicy,.unreadableModule,.undecodable]

theorem isOfComparison_of_sort {f : Fault} (h : f.sort ∈ answeredSorts) : isOfComparison f = true := by
  unfold isOfComparison
  cases hs : f.sort <;> simp [hs, answeredSorts] at h ⊢

/-- If the oracle fails in these ways only, two modules can be compared. Every change is
described as the vocabulary asks. The changes are about pairs that can be compared, and
the errors of each module are extended by what the pairs file, which is one message for a
pair that cannot be compared. -/
theorem modules_tells {oracle : TypeOracle}
    (h : TypeOracle.Answers (fun f => f.sort ∈ answeredSorts) oracle) (old new : Module)
    (options : DiffOptions) :
    ∃ cs, (modules old new options oracle).result = .ok cs ∧
      (∀ c, Change.Within c cs → c.descriptor.Valid) ∧
      (Change.pairsIn cs).Sublist ((modulePairs options (typeComparer options oracle) old new).filter
        (isComparable options (typeComparer options oracle))) ∧
      ∀ side m, (withProblems side (modules old new options oracle).notes m).errors =
        m.errors ++ (modulePairs options (typeComparer options oracle) old new).flatMap
          (filed options (typeComparer options oracle) side) := by
  have hfiles : Files (typeComparer options oracle) := typeComparer_answers
    (fun o n => (h o n).mono fun _ hf => isOfComparison_of_sort hf) options
  have hinside : ∀ o n, ∃ cs, Tells options (typeComparer options oracle) id
      (membersWithin options (typeComparer options oracle) options.maxDepth.toNat o n
        Place.top.depth Place.top.ancestors)
      (pairsWithin options (typeComparer options oracle) options.maxDepth.toNat [] o n) cs :=
    fun o n => membersWithin_tells hfiles options.maxDepth.toNat o n 0 []
  obtain ⟨cs,hcs⟩ := level_tells hfiles hinside old.exports new.exports
  refine ⟨cs,modules_eq_ok.mpr hcs.result,fun c _ => c.descriptor.valid,hcs.changes,?_⟩
  intro side m
  have hproblems := hcs.problems side
  rw [Comparing.problems] at hproblems
  simp only [withProblems, modules]
  rw [Traced.notes_bind_of_ok hcs.result, List.filterMap_append, hproblems]
  exact congrArg (m.errors ++ ·) (List.append_nil _)

def TypeOracle.failing (message : String) : TypeOracle := fun _ _ => .error (.raised .malformed message)

def rootedTree (type : String) : Module :=
  .ofExports [.bare .interface "Tree" "Tree" [("left",linkOf type),
    ("root",.bare .property "Tree.root" "root" [])]] "<memory>" "" []

/-- What cannot be compared is left out, and one message says so after those before it.
The member beside it is reported all the same. -/
theorem modules_tells_of_failing : ∃ cs,
    (modules (rootedTree "Leaf") (treeModule "Tree") .standard (TypeOracle.failing "boom")).result =
      .ok cs ∧
    (Change.flattenAll cs).map (·.path) = [.text "Tree",.text "Tree.root"] ∧
    (withProblems .new (modules (rootedTree "Leaf") (treeModule "Tree") .standard
      (TypeOracle.failing "boom")).notes { treeModule "Tree" with errors := ["seen"] }).errors =
      ["seen","'Tree.left': comparison failed: boom"] := by
  have h : TypeOracle.Answers (fun f => f.sort ∈ answeredSorts) (TypeOracle.failing "boom") :=
    fun _ _ => .error (by decide)
  have hpaths : ((modules (rootedTree "Leaf") (treeModule "Tree") .standard
      (TypeOracle.failing "boom")).result.toOption.map fun cs =>
        (Change.flattenAll cs).map (·.path)) = some [.text "Tree",.text "Tree.root"] := by
    decide +kernel
  obtain ⟨cs,hcs,-,-,herrors⟩ := modules_tells h (rootedTree "Leaf") (treeModule "Tree") .standard
  refine ⟨cs,hcs,?_,?_⟩
  · rw [hcs] at hpaths
    exact Option.some.inj hpaths
  · rw [herrors]
    decide +kernel

def TypeOracle.misdescribing (word : String) : TypeOracle :=
  fun _ _ => .error (.descriptor (.unknownImpact (.text word)))

/-- The failure is one that loaders recover from, as they do from every malformed value. The
comparison ends with it all the same. -/
theorem comparison_ended_by_description :
    TypeOracle.Answers (fun f => f.isOfEntry = true) (TypeOracle.misdescribing "bogus") ∧
    (treeModule "Leaf").Decoded ∧ (treeModule "Tree").Decoded ∧
    (modules (treeModule "Leaf") (treeModule "Tree") .standard
      (TypeOracle.misdescribing "bogus")).result =
        .error (.descriptor (.unknownImpact (.text "bogus"))) := by
  refine ⟨fun _ _ => .error rfl,decoded_treeModule "Leaf",decoded_treeModule "Tree",?_⟩
  have hword : (match (modules (treeModule "Leaf") (treeModule "Tree") .standard
      (TypeOracle.misdescribing "bogus")).result with
      | .error (.descriptor (.unknownImpact given)) => given
      | _ => .null) = .text "bogus" := by decide +kernel
  split at hword
  · next hended => rw [hended, hword]
  · cases hword

end Diff

end ApiRelease
