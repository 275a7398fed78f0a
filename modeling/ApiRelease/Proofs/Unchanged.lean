import ApiRelease.Proofs.Exports
import ApiRelease.Proofs.Totality

/-! # What is known when nothing is reported

The checks of a pair come one after the other, and a pair is passed over only if none
of them finds anything and nothing changed inside it. So a comparison that reports
nothing vouches for every pair that it came to.
-/
namespace ApiRelease

namespace Facts

variable {old new : Facts}

/-- The ways in which the types of two declarations agree: as they are written if one
of them is unresolved, else by their text, place by place, or in the oracle's view. -/
inductive TypesAgree (oracle : TypeOracle) (old new : Facts) : Prop
  | asWritten (hr : (old.isResolved && new.isResolved) = false)
      (h : Text.normalize old.rawType = Text.normalize new.rawType)
  | byText (hr : (old.isResolved && new.isResolved) = true) (h : old.signature = new.signature)
  | byPlace {o n : Signature} (hr : (old.isResolved && new.isResolved) = true)
      (ho : primarySignature old = some o) (hn : primarySignature new = some n)
      (h : Signature.compare old.path o n oracle = .ok [])
  | byOracle (hr : (old.isResolved && new.isResolved) = true)
      (h : oracle old.signature new.signature = .ok (.known .equivalent))

structure Unchanged (oracle : TypeOracle) (old new : Facts) : Prop where
  order : Classification.detectedReordering old new .standard = none
  typeParameters : TypeParameterChange.detect old new = []
  enumValue : old.kind = .enumMember → old.signature = new.signature
  types : TypesAgree oracle old new
  modifiers : ∀ m ∈ [Modifier.readonly,.optional,.abstract,.static], old.has m = new.has m
  visibility : ∀ m ∈ [Modifier.publicAccess,.protectedAccess,.privateAccess],
    new.has m = true → old.has m = true
  extended : old.extended = new.extended
  implemented : old.implemented = new.implemented
  deprecated : old.deprecated = new.deprecated
  defaultValue : old.defaultValue = new.defaultValue

end Facts

namespace Classification

variable {failure : Fault → Prop} {compareTypes : TypeOracle} {old new : Facts} {target : Target}
  {options : DiffOptions} {c : Classification}

theorem beforeType_eq_none (h : beforeType old new options = none) :
    detectedReordering old new options = none ∧ TypeParameterChange.detect old new = [] ∧
    (old.kind = .enumMember → old.signature = new.signature) := by
  unfold beforeType at h
  split at h
  · exact absurd h (Option.some_ne_none _)
  · next hr =>
    split at h
    · exact absurd h (Option.some_ne_none _)
    · next hp =>
      split at h
      · exact absurd h (Option.some_ne_none _)
      · next he => exact ⟨hr,hp,fun hk => Classical.not_not.mp fun hs => he ⟨hk,hs⟩⟩

theorem ofRawText_eq_none (h : ofRawText old new target = none) :
    Text.normalize old.rawType = Text.normalize new.rawType := by
  simp only [ofRawText] at h
  split at h
  · next he => simpa using he
  · exact absurd h (Option.some_ne_none _)

/-- Differences of signatures are never that nothing changed. -/
theorem isEquivalent_ofSignatures {differences : List SignatureDifference}
    (hd : ∀ d ∈ differences, d.Judged) {oldText newText : String}
    (h : ofSignatures old target oldText newText differences = .ok c)
    (hc : c.isEquivalent = true) : differences = [] := by
  cases differences with
  | nil => rfl
  | cons first rest =>
    obtain ⟨impact,hv,hne⟩ := hd first List.mem_cons_self
    simp only [ofSignatures, hv] at h
    obtain ⟨descriptor,hdescriptor,h⟩ := bind_eq_ok.mp h
    cases hdescriptor
    obtain rfl := Except.ok.inj h
    simp [isEquivalent, plain, Descriptor.plain, hne] at hc

theorem typesAgree_of_ofType (ha : TypeOracle.Answers failure compareTypes)
    {o : Option Classification} (h : ofType old new target compareTypes = .ok o)
    (ho : ∀ c ∈ o, c.isEquivalent = true) : Facts.TypesAgree compareTypes old new := by
  unfold ofType at h
  split at h
  · next hr =>
    obtain rfl := Except.ok.inj h
    rw [Bool.not_eq_true'] at hr
    cases hraw : ofRawText old new target with
    | none => exact .asWritten hr (ofRawText_eq_none hraw)
    | some c => exact absurd (ho c hraw) (ofRawText_standalone hraw).isEquivalent_ne
  · next hr =>
    have hr : (old.isResolved && new.isResolved) = true := by simpa using hr
    split at h
    · next hs => exact .byText hr (by simpa using hs)
    · split at h
      · next oldSignature newSignature hos hns =>
        obtain ⟨differences,hdiff,h⟩ := bind_eq_ok.mp h
        obtain ⟨c,hc,h⟩ := bind_eq_ok.mp h
        cases h
        have hjudged := (Signature.compare_ends ha old.path oldSignature newSignature).of_eq_ok hdiff
        have hnil := isEquivalent_ofSignatures hjudged hc (ho c rfl)
        subst hnil
        exact .byPlace hr hos hns hdiff
      · obtain ⟨verdict,hv,h⟩ := bind_eq_ok.mp h
        obtain ⟨impact,rfl⟩ := (ha old.signature new.signature).of_eq_ok hv
        obtain rfl := Except.ok.inj h
        have himpact : impact = .equivalent := by
          simpa [isEquivalent, plain, Descriptor.plain] using ho _ rfl
        subst himpact
        exact .byOracle hr hv

/-- No rule on modifiers applies: what may be gained or lost was not, and what may
only be gained was not gained. -/
theorem ofModifiers_eq_none (h : ofModifiers old new target = none) :
    (∀ m ∈ [Modifier.readonly,.optional,.abstract,.static], old.has m = new.has m) ∧
    ∀ m ∈ [Modifier.publicAccess,.protectedAccess,.privateAccess],
      new.has m = true → old.has m = true := by
  have hrules := List.find?_eq_none.mp (Option.map_eq_none_iff.mp h)
  simp only [modifierRules, List.mem_cons, List.not_mem_nil, or_false, forall_eq_or_imp,
    forall_eq, Bool.and_eq_true, Bool.not_eq_true', Bool.false_eq_true, if_true, if_false,
    not_and, Bool.not_eq_false] at hrules ⊢
  obtain ⟨hreadonly,hwritable,hoptional,hrequired,habstract,hconcrete,hstatic,hinstance,hvisible⟩ := hrules
  have hagree : ∀ {a b : Bool}, (b = true → a = true) → (a = true → b = true) → a = b := by decide
  exact ⟨⟨hagree hreadonly hwritable,hagree hoptional hrequired,hagree habstract hconcrete,
    hagree hstatic hinstance⟩,hvisible⟩

theorem ofClause_eq_none {keyword : String} {aspect : Aspect} {oldNames newNames : List String}
    (h : ofClause old new target keyword aspect oldNames newNames = none) : oldNames = newNames := by
  simp only [ofClause] at h
  split_ifs at h with he
  simpa using he

theorem ofDeprecation_eq_none (h : ofDeprecation old new target = none) :
    old.deprecated = new.deprecated := by
  simp only [ofDeprecation] at h
  cases ho : old.deprecated <;> cases hn : new.deprecated <;> simp [ho, hn] at h ⊢

theorem ofDefaultValue_eq_none (h : ofDefaultValue old new target = none) :
    old.defaultValue = new.defaultValue := by
  simp only [ofDefaultValue] at h
  split at h
  · next ho hn => rw [ho, hn]
  · exact absurd h (Option.some_ne_none _)
  · exact absurd h (Option.some_ne_none _)
  · next ho hn =>
    split_ifs at h with he
    rw [ho, hn, beq_iff_eq.mp he]

/-- A pair is classified as nothing just if no check finds anything: an earlier check
that found something would have decided, and a later one would have taken over. -/
theorem isEquivalent_ofPair_iff (h : ofPair old new options compareTypes = .ok c) :
    c.isEquivalent = true ↔ beforeType old new options = none ∧
    (∃ byType, ofType old new old.kind.target compareTypes = .ok byType ∧
      ∀ d ∈ byType, d.isEquivalent = true) ∧
    afterType old new old.kind.target = none := by
  unfold ofPair at h
  split at h
  · next d hd =>
    obtain rfl := Except.ok.inj h
    simp [hd, (beforeType_standalone hd).isEquivalent_eq]
  · next hbefore =>
    obtain ⟨byType,htype,h⟩ := bind_eq_ok.mp h
    have hlater : ∀ d : Classification, d.isEquivalent = true →
        (((afterType old new old.kind.target).getD d).isEquivalent = true ↔
          afterType old new old.kind.target = none) := by
      intro d hd
      cases hafter : afterType old new old.kind.target with
      | none => simpa using hd
      | some e => simp [(afterType_standalone hafter).isEquivalent_eq]
    simp only [hbefore, htype, Except.ok.injEq, exists_eq_left', true_and]
    cases byType with
    | none =>
      obtain rfl := Except.ok.inj h
      simpa using hlater _ rfl
    | some d =>
      cases hd : d.isEquivalent with
      | false =>
        simp only [hd, Bool.not_false, if_true] at h
        obtain rfl := Except.ok.inj h
        simp [hd]
      | true =>
        simp only [hd, Bool.not_true, Bool.false_eq_true, if_false] at h
        obtain rfl := Except.ok.inj h
        simpa [hd] using hlater d hd

/-- A pair that is classified as nothing is one in which nothing changed. -/
theorem unchanged_of_ofPair (ha : TypeOracle.Answers failure compareTypes)
    (h : ofPair old new .standard compareTypes = .ok c) (hc : c.isEquivalent = true) :
    Facts.Unchanged compareTypes old new := by
  obtain ⟨hbefore,⟨byType,htype,hequivalent⟩,hafter⟩ := (isEquivalent_ofPair_iff h).mp hc
  simp only [afterType, Option.orElse_eq_orElse, Option.orElse_eq_or, Option.or_eq_none_iff] at hafter
  obtain ⟨hmodifiers,hextends,himplements,hdeprecation,hdefault⟩ := hafter
  obtain ⟨hreorder,hparameters,henum⟩ := beforeType_eq_none hbefore
  obtain ⟨hkept,hvisible⟩ := ofModifiers_eq_none hmodifiers
  exact ⟨hreorder,hparameters,henum,typesAgree_of_ofType ha htype hequivalent,hkept,hvisible,
    ofClause_eq_none hextends,ofClause_eq_none himplements,ofDeprecation_eq_none hdeprecation,
    ofDefaultValue_eq_none hdefault⟩

end Classification

namespace Diff

/-- Asking the heuristic oracle about texts of equal words makes no difference. -/
theorem typeComparer_heuristic :
    typeComparer .standard TypeText.heuristic = TypeText.heuristic := by
  funext old new
  by_cases h : Text.normalize old = Text.normalize new
  · simp [typeComparer, TypeText.heuristic, TypeText.compare, TypeText.compareNormalized, h]
  · simp [typeComparer, DiffOptions.standard, h]

inductive Reached (old new : Module) : Declaration → Declaration → Nat → List String → Prop
  | exported {o n : Declaration} (hm : (o,n) ∈ (matchMembers old.exports new.exports).matched) :
      Reached old new o n 0 []
  | member {o n p q : Declaration} {depth : Nat} {ancestors : List String}
      (h : Reached old new o n depth ancestors) (hd : depth < 10) (hp : o.path ∉ ancestors)
      (hm : (p,q) ∈ (matchMembers (comparedMembers (bothSigned o n) o.members)
        (comparedMembers (bothSigned o n) n.members)).matched) :
      Reached old new p q (depth + 1) (ancestors ++ [o.path])

structure Silent (compareTypes : TypeOracle) (o n : Declaration) (depth : Nat)
    (ancestors : List String) : Prop where
  unchanged : Facts.Unchanged compareTypes o.toFacts n.toFacts
  inside : (membersWithin .standard compareTypes (10 - depth) o n depth ancestors).result = .ok []

variable {compareTypes : TypeOracle}

/-- One level: if it reports nothing, all its pairs are silent. -/
theorem silent_of_level (ha : TypeOracle.Answers (fun _ => False) compareTypes) (place : Place)
    {olds news : Members}
    (h : (level .standard compareTypes (membersWithin .standard compareTypes (10 - place.depth)) place
      olds news).result = .ok []) {o n : Declaration}
    (hm : (o,n) ∈ (matchMembers olds news).matched) :
    Silent compareTypes o n place.depth place.ancestors := by
  obtain ⟨-,-,hpairs⟩ := level_eq_nil_iff.mp h
  obtain ⟨c,hc,-⟩ := (Classification.ofPair_ends ha o.toFacts n.toFacts .standard).exists_ok
  obtain ⟨hequivalent,hinside⟩ := of_modifiedChange_eq_none hc (hpairs _ hm)
  exact ⟨Classification.unchanged_of_ofPair ha hc hequivalent,hinside⟩

theorem Silent.level {o n : Declaration} {depth : Nat} {ancestors : List String}
    (h : Silent compareTypes o n depth ancestors) (hd : depth < 10) (hp : o.path ∉ ancestors) :
    (level .standard compareTypes (membersWithin .standard compareTypes (10 - (depth + 1)))
      (.inside o n depth ancestors) (comparedMembers (bothSigned o n) o.members)
      (comparedMembers (bothSigned o n) n.members)).result = .ok [] := by
  obtain ⟨room,hroom⟩ : ∃ room, 10 - depth = room + 1 := ⟨9 - depth,by omega⟩
  have hnested : DiffOptions.standard.includeNested = true := rfl
  have hinside := h.inside
  rw [hroom, membersWithin_succ room hnested hp] at hinside
  rwa [show 10 - (depth + 1) = room by omega]

/-- All levels: if a comparison reports nothing, every pair that it comes to is silent. -/
theorem Reached.silent (ha : TypeOracle.Answers (fun _ => False) compareTypes) {old new : Module}
    (h : (Diff.level .standard compareTypes (membersWithin .standard compareTypes 10) .top
      old.exports new.exports).result = .ok []) {o n : Declaration} {depth : Nat}
    {ancestors : List String} (hr : Reached old new o n depth ancestors) :
    Silent compareTypes o n depth ancestors := by
  induction hr with
  | exported hm => exact silent_of_level ha .top h hm
  | member _ hd hp hm ih => exact silent_of_level ha (.inside _ _ _ _) (ih.level hd hp) hm

def isQuiet (o n : Declaration) : Bool :=
  (Classification.ofPair o.toFacts n.toFacts .standard TypeText.heuristic).toOption.any
    fun c => c.isEquivalent && c.signatureChanges.isEmpty

theorem modifiedChange_of_isQuiet {descend : Descent} {place : Place} {o n : Declaration}
    (h : isQuiet o n = true) (hi : (descend o n place.depth place.ancestors).result = .ok []) :
    (modifiedChange .standard TypeText.heuristic descend place o n).result = .ok none := by
  unfold isQuiet at h
  cases hc : Classification.ofPair o.toFacts n.toFacts .standard TypeText.heuristic with
  | error f => simp [hc, Except.toOption] at h
  | ok c =>
    simp only [hc, Except.toOption, Option.any_some, Bool.and_eq_true, List.isEmpty_iff] at h
    exact modifiedChange_eq_none hc h.1 h.2 hi

def linkOf (type : String) : Declaration :=
  { Declaration.bare .property "Tree.left" "left" [] with
    parent := some "Tree"
    typeInfo := some ⟨type,type,[],[],[],[],[],[],none,none⟩ }

def treeOf (type : String) : Declaration := .bare .interface "Tree" "Tree" [("left",linkOf type)]

def treeModule (type : String) : Module := .ofExports [treeOf type] "<memory>" "" []

theorem decode_treeOf (type : String) :
    (Declaration.decode (.table [("name",.text "Tree"),("kind",.text "interface"),
      ("children",.table [("left",.table [("kind",.text "property"),
        ("type_info",.table [("signature",.text type)])])])]) none none).result =
    .ok (treeOf type) := by
  have hinterface : Vocabulary.parse? (Text.trim "interface") = some NodeKind.interface := by decide
  have hproperty : Vocabulary.parse? (Text.trim "property") = some NodeKind.property := by decide
  have htree : Text.trim "Tree" = "Tree" := by decide
  have hleft : Text.trim "left" = "left" := by decide
  refine Declaration.decode_eq_ok.mpr ⟨"Tree","Tree",.interface,∅,[("left",linkOf type)],_,
    Declaration.nameIn_eq_ok.mpr ⟨_,rfl,htree⟩,rfl,Declaration.kindIn_eq_ok.mpr ⟨_,rfl,hinterface⟩,
    rfl,rfl,.cons ⟨linkOf type,?_,rfl⟩ .nil,rfl,rfl⟩
  exact Declaration.decode_eq_ok.mpr ⟨"left","Tree.left",.property,∅,[],_,
    Declaration.nameIn_eq_ok.mpr ⟨_,rfl,hleft⟩,rfl,Declaration.kindIn_eq_ok.mpr ⟨_,rfl,hproperty⟩,
    rfl,rfl,.nil,rfl,rfl⟩

theorem decoded_treeModule (type : String) : (treeModule type).Decoded :=
  Module.decoded_ofExports (.cons (decode_treeOf type) .nil) (List.nodup_singleton _)

/-- A union that is written in another order is no change. -/
theorem modules_of_reordered_union :
    (modules (treeModule "Leaf | Tree") (treeModule "Tree|Leaf") .standard
      TypeText.heuristic).result = .ok [] := by
  have hquiet : ∀ p ∈ [(treeOf "Leaf | Tree",treeOf "Tree|Leaf"),
      (linkOf "Leaf | Tree",linkOf "Tree|Leaf")], isQuiet p.1 p.2 = true := by decide +kernel
  rw [modules_eq_ok, typeComparer_heuristic, level_eq_nil_iff]
  refine ⟨rfl,rfl,?_⟩
  intro p hp
  obtain rfl := List.mem_singleton.mp hp
  refine modifiedChange_of_isQuiet (hquiet _ (by simp)) ?_
  have hroom : DiffOptions.standard.maxDepth.toNat = 9 + 1 := rfl
  rw [hroom, membersWithin_succ 9 rfl (by simp [Place.top]), level_eq_nil_iff]
  refine ⟨rfl,rfl,?_⟩
  intro q hq
  obtain rfl := List.mem_singleton.mp hq
  exact modifiedChange_of_isQuiet (hquiet _ (by simp)) rfl

/-- A comparison that reports nothing can be trusted: the modules export the same
paths, and at every pair that is reached nothing changed and no member came or went
that the depth allows to be looked at. -/
theorem unchanged_of_modules_eq_nil {old new : Module} (ho : old.Decoded) (hn : new.Decoded)
    (h : (modules old new .standard TypeText.heuristic).result = .ok []) :
    (∀ path, path ∈ old.exportPaths ↔ path ∈ new.exportPaths) ∧
    ∀ (o n : Declaration) (depth : Nat) (ancestors : List String),
      Reached old new o n depth ancestors →
      Facts.Unchanged TypeText.heuristic o.toFacts n.toFacts ∧
      (depth < 10 → o.path ∉ ancestors →
        SameKeys (comparedMembers (bothSigned o n) o.members)
          (comparedMembers (bothSigned o n) n.members)) := by
  have ha := TypeText.heuristic_answers fun _ => False
  have hlevel := modules_eq_ok.mp h
  rw [typeComparer_heuristic] at hlevel
  constructor
  · intro path
    obtain ⟨hremoved,hadded,-⟩ := level_eq_nil_iff.mp hlevel
    have hkeys := sameKeys_of_match hremoved hadded (.text path)
    rw [← not_iff_not, ← ho.find?_eq_none_iff, ← hn.find?_eq_none_iff,
      ← Option.not_isSome_iff_eq_none, ← Option.not_isSome_iff_eq_none, hkeys]
  · intro o n depth ancestors hr
    have hsilent := hr.silent ha hlevel
    refine ⟨hsilent.unchanged,?_⟩
    intro hd hp
    obtain ⟨hremoved,hadded,-⟩ := level_eq_nil_iff.mp (hsilent.level hd hp)
    exact sameKeys_of_match hremoved hadded

theorem unchanged_of_reordered_union :
    (modules (treeModule "Leaf | Tree") (treeModule "Tree|Leaf") .standard
      TypeText.heuristic).result = .ok [] ∧
    Facts.Unchanged TypeText.heuristic (linkOf "Leaf | Tree").toFacts
      (linkOf "Tree|Leaf").toFacts := by
  have hpairs := (unchanged_of_modules_eq_nil (decoded_treeModule "Leaf | Tree")
    (decoded_treeModule "Tree|Leaf") modules_of_reordered_union).2
  have htree : (treeOf "Leaf | Tree",treeOf "Tree|Leaf") ∈ (matchMembers
      (treeModule "Leaf | Tree").exports (treeModule "Tree|Leaf").exports).matched :=
    List.mem_singleton.mpr rfl
  have hlink : Reached (treeModule "Leaf | Tree") (treeModule "Tree|Leaf") (linkOf "Leaf | Tree")
      (linkOf "Tree|Leaf") 1 ["Tree"] :=
    .member (.exported htree) (by decide) (by simp) (List.mem_singleton.mpr rfl)
  exact ⟨modules_of_reordered_union,(hpairs _ _ _ _ hlink).1⟩

end Diff

end ApiRelease
