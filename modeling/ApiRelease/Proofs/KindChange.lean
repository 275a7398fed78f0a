import ApiRelease.Proofs.Silence

/-! # A change of kind on its own

Declarations are matched by their path, and no check looks at whether the kind stayed
the same. So an export that became something else is reported just if something that
is looked at changed with it, in the export or further down.
-/
namespace ApiRelease

/-- Two versions between which no check finds anything: where both have a signature that
they are compared by, it alone decides on types that are written differently. -/
structure Facts.Unnoticed (oracle : TypeOracle) (old new : Facts) : Prop
    extends Facts.Unchanged oracle old new where
  places : (old.isResolved && new.isResolved) = true → old.signature ≠ new.signature →
    ∀ o n, primarySignature old = some o → primarySignature new = some n →
      Signature.compare old.path o n oracle = .ok []

namespace Classification

variable {failure : Fault → Prop} {compareTypes : TypeOracle} {old new : Facts} {target : Target}
  {c : Classification}

theorem compare_of_ofType (ha : TypeOracle.Answers failure compareTypes)
    {byType : Option Classification} (h : ofType old new target compareTypes = .ok byType)
    (hb : ∀ c ∈ byType, c.isEquivalent = true) (hr : (old.isResolved && new.isResolved) = true)
    (hs : old.signature ≠ new.signature) {o n : Signature} (ho : primarySignature old = some o)
    (hn : primarySignature new = some n) : Signature.compare old.path o n compareTypes = .ok [] := by
  simp only [ofType, hr, Bool.not_true, Bool.false_eq_true, if_false, beq_iff_eq, hs, ho, hn] at h
  obtain ⟨differences,hdiff,h⟩ := bind_eq_ok.mp h
  obtain ⟨c,hc,h⟩ := bind_eq_ok.mp h
  cases h
  have hjudged := (Signature.compare_ends ha old.path o n).of_eq_ok hdiff
  rw [hdiff, isEquivalent_ofSignatures hjudged hc (hb c rfl)]

theorem ofType_of_unnoticed (h : Facts.Unnoticed compareTypes old new) :
    ∃ byType, ofType old new target compareTypes = .ok byType ∧
      ∀ c ∈ byType, c.isEquivalent = true := by
  unfold ofType
  cases hr : old.isResolved && new.isResolved with
  | false =>
    have hraw : Text.normalize old.rawType = Text.normalize new.rawType := by
      cases h.types with
      | asWritten _ hraw => exact hraw
      | byText htrue | byPlace htrue | byOracle htrue => simp [hr] at htrue
    exact ⟨none,by simp [ofRawText, hraw],by simp⟩
  | true =>
    by_cases hs : old.signature = new.signature
    · exact ⟨none,by simp [hs],by simp⟩
    · simp only [Bool.not_true, Bool.false_eq_true, if_false, beq_iff_eq, hs]
      split
      · next o n ho hn =>
        rw [h.places hr hs o n ho hn]
        exact ⟨_,rfl,by simp [isEquivalent, plain, Descriptor.plain]⟩
      · next hnone =>
        have hverdict : compareTypes old.signature new.signature = .ok (.known .equivalent) := by
          cases h.types with
          | asWritten hfalse => simp [hr] at hfalse
          | byText _ htext => exact absurd htext hs
          | byPlace _ ho hn => exact (hnone _ _ ho hn).elim
          | byOracle _ hverdict => exact hverdict
        rw [hverdict]
        exact ⟨_,rfl,by simp [isEquivalent, plain, Descriptor.plain]⟩

/-- A pair is classified as nothing just if no check finds anything in it. -/
theorem isEquivalent_iff_unnoticed (ha : TypeOracle.Answers failure compareTypes)
    (h : ofPair old new .standard compareTypes = .ok c) :
    c.isEquivalent = true ↔ Facts.Unnoticed compareTypes old new := by
  constructor
  · intro hc
    obtain ⟨-,⟨byType,htype,hequivalent⟩,-⟩ := (isEquivalent_ofPair_iff h).mp hc
    refine ⟨unchanged_of_ofPair ha h hc,?_⟩
    intro hr hs o n ho hn
    exact compare_of_ofType ha htype hequivalent hr hs ho hn
  · intro hu
    have hbefore := beforeType_eq_none_iff.mpr ⟨hu.order,hu.typeParameters,hu.enumValue⟩
    have hafter : afterType old new old.kind.target = none := afterType_eq_none_iff.mpr
      ⟨⟨hu.modifiers,hu.visibility⟩,hu.extended,hu.implemented,hu.deprecated,hu.defaultValue⟩
    exact (isEquivalent_ofPair_iff h).mpr ⟨hbefore,ofType_of_unnoticed hu,hafter⟩

end Classification

namespace Diff

variable {options : DiffOptions} {compareTypes : TypeOracle} {descend : Descent} {place : Place}

theorem nodes_of_modifiedChange {p q : Declaration} {c : Change}
    (h : (modifiedChange options compareTypes descend place p q).result = .ok (some c)) :
    c.oldNode = some p ∧ c.newNode = some q := by
  obtain ⟨k,nested,rfl⟩ := eq_of_modifiedChange h
  exact ⟨rfl,rfl⟩

/-- A level speaks of two declarations of different kinds only as of a matched pair. -/
theorem mem_level_iff_of_kind_ne {olds news : Members} {cs : List Change}
    (h : (level options compareTypes descend place olds news).result = .ok cs)
    {o n : Declaration} (hm : (o,n) ∈ (matchMembers olds news).matched) (hk : o.kind ≠ n.kind)
    {c : Change} :
    (c ∈ cs ∧ c.oldNode = some o ∧ c.newNode = some n) ↔
    (modifiedChange options compareTypes descend place o n).result = .ok (some c) := by
  constructor
  · rintro ⟨hc,hold,hnew⟩
    rcases of_mem_level h hc with ⟨r,hr,nested,-,rfl⟩ | ⟨d,-,rfl⟩ | ⟨d,-,rfl⟩ | ⟨p,q,-,hok⟩
    · -- a rename joins declarations of one kind
      have hsame := (Rename.joins_of_mem_detect hr).sameKind
      simp only [renamedWith, Option.some.injEq] at hold hnew
      exact absurd (hold ▸ hnew ▸ hsame) hk
    · simp [removedChange] at hnew
    · simp [addedChange] at hold
    · obtain ⟨hp,hq⟩ := nodes_of_modifiedChange hok
      obtain rfl := Option.some.inj (hold.symm.trans hp)
      obtain rfl := Option.some.inj (hnew.symm.trans hq)
      exact hok
  · intro hc
    exact ⟨mem_of_modifiedChange h hm hc,nodes_of_modifiedChange hc⟩

theorem quiet_iff_unnoticed {p q : Declaration} : Quiet .standard TypeText.heuristic p q ↔
    Facts.Unnoticed TypeText.heuristic p.toFacts q.toFacts := by
  have ha := TypeText.heuristic_answers fun _ => False
  constructor
  · rintro ⟨c,hc,hequivalent⟩
    exact (Classification.isEquivalent_iff_unnoticed ha hc).mp hequivalent
  · intro h
    obtain ⟨c,hc,-⟩ := (Classification.ofPair_ends ha p.toFacts q.toFacts .standard).exists_ok
    exact ⟨c,hc,(Classification.isEquivalent_iff_unnoticed ha hc).mpr h⟩

/-- A pair of exports gives a change if and only if some check finds something in it or in
a pair of members that is reached from it, or a member came or went there. -/
theorem exists_modifiedChange_top_iff (o n : Declaration) :
    (∃ c, (modifiedChange .standard TypeText.heuristic (membersWithin .standard TypeText.heuristic
      DiffOptions.standard.maxDepth.toNat) .top o n).result = .ok (some c)) ↔
    ∃ p q depth ancestors, Compared .standard o n p q depth ancestors ∧
      (¬Facts.Unnoticed TypeText.heuristic p.toFacts q.toFacts ∨
        Enters .standard p depth ancestors ∧
          ¬SameKeys (comparedMembers (bothSigned p q) p.members)
            (comparedMembers (bothSigned p q) q.members)) := by
  have ha := TypeText.heuristic_answers fun _ => False
  obtain ⟨r,hr⟩ : ∃ r, (modifiedChange .standard TypeText.heuristic (membersWithin .standard
      TypeText.heuristic DiffOptions.standard.maxDepth.toNat) .top o n).result = .ok r :=
    modifiedChange_ok (files_of_answers ha) (membersWithin_ok (files_of_answers ha) _) .top o n
  have hnone : (modifiedChange .standard TypeText.heuristic (membersWithin .standard
      TypeText.heuristic DiffOptions.standard.maxDepth.toNat) .top o n).result = .ok none ↔ _ :=
    modifiedChange_top_eq_none_iff fun p q _ _ _ => comparable_of_answers ha p q
  -- a pair is passed over just if it has neither of the two differences
  have hpassed (p q : Declaration) (depth : Nat) (ancestors : List String) :
      Passed .standard TypeText.heuristic p q depth ancestors ↔
      ¬(¬Facts.Unnoticed TypeText.heuristic p.toFacts q.toFacts ∨
        Enters .standard p depth ancestors ∧
          ¬SameKeys (comparedMembers (bothSigned p q) p.members)
            (comparedMembers (bothSigned p q) q.members)) := by
    rw [not_or, not_not, not_and, ← quiet_iff_unnoticed]
    constructor
    · intro h
      exact ⟨h.quiet,fun he => not_not_intro (h.keys he)⟩
    · rintro ⟨hquiet,hkeys⟩
      exact ⟨hquiet,fun he => not_not.mp (hkeys he)⟩
  have hsome : (∃ c, r = some c) ↔ r ≠ none := Option.ne_none_iff_exists'.symm
  simp only [hr, Except.ok.injEq] at hnone ⊢
  rw [hsome, Ne, hnone]
  simp only [hpassed, not_forall, not_not, exists_prop]

/-- Two exports of different kinds of which nothing else can be told apart are passed
over. -/
theorem modules_of_kind_alone :
    (Module.plain [(.interface,"Mode")]).Decoded ∧ (Module.plain [(.enumDecl,"Mode")]).Decoded ∧
    Members.find? (.text "Mode") (Module.plain [(.interface,"Mode")]).exports =
      some (.bare .interface "Mode" "Mode" []) ∧
    Members.find? (.text "Mode") (Module.plain [(.enumDecl,"Mode")]).exports =
      some (.bare .enumDecl "Mode" "Mode" []) ∧
    (modules (.plain [(.interface,"Mode")]) (.plain [(.enumDecl,"Mode")]) .standard
      TypeText.heuristic).result = .ok [] := by
  refine ⟨Module.decoded_plain (by decide) (by decide),Module.decoded_plain (by decide) (by decide),
    rfl,rfl,?_⟩
  have hquiet : isQuiet (.bare .interface "Mode" "Mode" []) (.bare .enumDecl "Mode" "Mode" []) = true := by
    decide +kernel
  rw [modules_eq_ok, typeComparer_heuristic, level_eq_nil_iff]
  refine ⟨rfl,rfl,?_⟩
  intro p hp
  obtain rfl := List.mem_singleton.mp hp
  exact modifiedChange_of_isQuiet hquiet rfl

/-- An export whose kind changed is reported just if something else changed too: some
check finds something in it or in a pair of members that is reached from it, or a member
came or went there. -/
theorem reported_iff_of_kind_ne {old new : Module} {path : String} {o n : Declaration}
    (ho : Members.find? (.text path) old.exports = some o)
    (hn : Members.find? (.text path) new.exports = some n) (hk : o.kind ≠ n.kind) :
    ∃ cs, (modules old new .standard TypeText.heuristic).result = .ok cs ∧
      ((∃ c ∈ cs, c.path = .text o.path ∧ c.oldNode = some o ∧ c.newNode = some n) ↔
        ∃ p q depth ancestors, Compared .standard o n p q depth ancestors ∧
          (¬Facts.Unnoticed TypeText.heuristic p.toFacts q.toFacts ∨
            Enters .standard p depth ancestors ∧
              ¬SameKeys (comparedMembers (bothSigned p q) p.members)
                (comparedMembers (bothSigned p q) q.members))) := by
  obtain ⟨cs,hcs⟩ := modules_ok (TypeText.heuristic_answers _) old new .standard
  refine ⟨cs,hcs,?_⟩
  have hlevel := modules_eq_ok.mp hcs
  rw [typeComparer_heuristic] at hlevel
  rw [← exists_modifiedChange_top_iff]
  have hpair := mem_matched_of_find? ho hn
  constructor
  · rintro ⟨c,hc,-,hnodes⟩
    exact ⟨c,(mem_level_iff_of_kind_ne hlevel hpair hk).mp ⟨hc,hnodes⟩⟩
  · rintro ⟨c,hmodified⟩
    obtain ⟨hc,hnodes⟩ := (mem_level_iff_of_kind_ne hlevel hpair hk).mpr hmodified
    exact ⟨c,hc,path_of_modifiedChange hmodified,hnodes⟩

def modeEnum : Declaration :=
  .bare .enumDecl "Mode" "Mode" [("fast",.bare .enumMember "Mode.fast" "fast" [])]

/-- An interface that became an enumeration is reported for the member that came. -/
theorem reported_of_mode : ∃ cs,
    (modules (.plain [(.interface,"Mode")]) (.ofExports [modeEnum] "<memory>" "" []) .standard
      TypeText.heuristic).result = .ok cs ∧ ∃ c ∈ cs, c.path = .text "Mode" := by
  have ho : Members.find? (.text "Mode") (Module.plain [(.interface,"Mode")]).exports =
      some (.bare .interface "Mode" "Mode" []) := rfl
  have hn : Members.find? (.text "Mode") (Module.ofExports [modeEnum] "<memory>" "" []).exports =
      some modeEnum := rfl
  obtain ⟨cs,hcs,hiff⟩ := reported_iff_of_kind_ne ho hn (by decide)
  have henters : Enters .standard (.bare .interface "Mode" "Mode" []) 0 [] :=
    ⟨rfl,by decide,by simp⟩
  have hkeys : ¬SameKeys (comparedMembers (bothSigned (.bare .interface "Mode" "Mode" []) modeEnum) [])
      (comparedMembers (bothSigned (.bare .interface "Mode" "Mode" []) modeEnum) modeEnum.members) := by
    intro h
    exact absurd (h "fast") (by decide)
  obtain ⟨c,hc,hpath,-⟩ := hiff.mpr ⟨_,_,0,[],.itself,Or.inr ⟨henters,hkeys⟩⟩
  exact ⟨cs,hcs,c,hc,hpath⟩

end Diff

end ApiRelease
