import ApiRelease.Proofs.DeclarationDocuments
import ApiRelease.Proofs.KindChange
import ApiRelease.Proofs.Problems
import ApiRelease.Proofs.Removal
import ApiRelease.Proofs.ReorderedTargets

/-! # Visibility

Modifiers say from where a declaration may be used. One that is gained is always
noticed: wherever the comparison comes to such a pair, a change is reported at its path,
and if nothing else is found in the pair it says that the visibility changed. One that is
only lost is looked at by no check, so that a pair without another finding is reported for
what changed inside it or not at all.
-/
namespace ApiRelease

def Modifier.access : List Modifier := [.publicAccess,.protectedAccess,.privateAccess]

namespace Facts

variable {oracle : TypeOracle} {old new : Facts}

def withoutAccess (f : Facts) : Facts :=
  { f with modifiers := ⟨fun m => !Modifier.access.contains m && f.has m⟩ }

def GainsAccess (old new : Facts) : Prop :=
  ∃ m ∈ Modifier.access, old.has m = false ∧ new.has m = true

theorem has_withoutAccess {m : Modifier} (h : m ∉ Modifier.access) (f : Facts) :
    f.withoutAccess.has m = f.has m := by
  have hkept : Modifier.access.contains m = false := by simpa using h
  change (!Modifier.access.contains m && f.has m) = f.has m
  rw [hkept, Bool.not_false, Bool.true_and]

theorem not_has_withoutAccess {m : Modifier} (h : m ∈ Modifier.access) (f : Facts) :
    f.withoutAccess.has m = false := by
  have hdropped : Modifier.access.contains m = true := by simpa using h
  change (!Modifier.access.contains m && f.has m) = false
  rw [hdropped, Bool.not_true, Bool.false_and]

theorem not_gainsAccess_iff : ¬GainsAccess old new ↔
    ∀ m ∈ Modifier.access, new.has m = true → old.has m = true := by
  constructor
  · intro h m hm hnew
    by_contra hold
    exact h ⟨m,hm,by simpa using hold,hnew⟩
  · rintro h ⟨m,hm,hold,hnew⟩
    rw [h m hm hnew] at hold
    cases hold

theorem typesAgree_withoutAccess_iff :
    TypesAgree oracle old.withoutAccess new.withoutAccess ↔ TypesAgree oracle old new := by
  constructor
  · intro h
    cases h with
    | asWritten hr h => exact .asWritten hr h
    | byText hr h => exact .byText hr h
    | byPlace hr ho hn h => exact .byPlace hr ho hn h
    | byOracle hr h => exact .byOracle hr h
  · intro h
    cases h with
    | asWritten hr h => exact .asWritten hr h
    | byText hr h => exact .byText hr h
    | byPlace hr ho hn h => exact .byPlace hr ho hn h
    | byOracle hr h => exact .byOracle hr h

def Noticeable (oracle : TypeOracle) (old new : Facts) : Prop :=
  GainsAccess old new ∨ ¬Unnoticed oracle old.withoutAccess new.withoutAccess

/-- Of the visibility the checks only notice what is gained. -/
theorem unnoticed_iff_not_noticeable : Unnoticed oracle old new ↔ ¬Noticeable oracle old new := by
  rw [Noticeable, not_or, Classical.not_not]
  have hkept : ∀ m ∈ [Modifier.readonly,.optional,.abstract,.static], m ∉ Modifier.access := by
    decide
  constructor
  · intro h
    refine ⟨not_gainsAccess_iff.mpr h.visibility,
      ⟨h.order,h.typeParameters,h.enumValue,typesAgree_withoutAccess_iff.mpr h.types,?_,?_,
        h.extended,h.implemented,h.deprecated,h.defaultValue⟩,h.places⟩
    · intro m hm
      rw [has_withoutAccess (hkept m hm), has_withoutAccess (hkept m hm), h.modifiers m hm]
    · intro m hm hnew
      rw [not_has_withoutAccess hm] at hnew
      cases hnew
  · rintro ⟨hlost,h⟩
    refine ⟨⟨h.order,h.typeParameters,h.enumValue,typesAgree_withoutAccess_iff.mp h.types,?_,
      not_gainsAccess_iff.mp hlost,h.extended,h.implemented,h.deprecated,h.defaultValue⟩,h.places⟩
    intro m hm
    have hagree := h.modifiers m hm
    rwa [has_withoutAccess (hkept m hm), has_withoutAccess (hkept m hm)] at hagree

end Facts

namespace Classification

variable {compareTypes : TypeOracle} {old new : Facts} {target : Target} {c : Classification}

/-- If the other modifiers agree, the rule that applies is one on visibility. -/
theorem ofModifiers_of_gainsAccess (target : Target) (hg : Facts.GainsAccess old new)
    (hkept : ∀ m ∈ [Modifier.readonly,.optional,.abstract,.static], old.has m = new.has m) :
    ∃ c, ofModifiers old new target = some c ∧
      c.descriptor.effect = .modified .visibility .undetermined := by
  have hsome : ofModifiers old new target ≠ none := by
    intro hnone
    exact Facts.not_gainsAccess_iff.mpr (ofModifiers_eq_none hnone).2 hg
  obtain ⟨c,hc⟩ := Option.ne_none_iff_exists'.mp hsome
  refine ⟨c,hc,?_⟩
  obtain ⟨rule,hrule,rfl⟩ := Option.map_eq_some_iff.mp hc
  have hrules : ∀ r ∈ modifierRules, r.1 ∈ [Modifier.readonly,.optional,.abstract,.static] ∨
      r.2.2.1 = .visibility ∧ r.2.2.2.1 = .undetermined := by decide
  rcases hrules rule (List.mem_of_find?_eq_some hrule) with hother | ⟨haspect,himpact⟩
  · have happlies := List.find?_some hrule
    rw [hkept rule.1 hother, Bool.and_not_self, ite_self] at happlies
    cases happlies
  · simp [plain, Descriptor.plain, haspect, himpact]

theorem ofType_withoutAccess : ofType old.withoutAccess new.withoutAccess target compareTypes =
    ofType old new target compareTypes := rfl

/-- A gained visibility is told if there is nothing else to tell. -/
theorem effect_of_gainsAccess (h : ofPair old new .standard compareTypes = .ok c)
    (hg : Facts.GainsAccess old new)
    (hu : Facts.Unnoticed compareTypes old.withoutAccess new.withoutAccess) :
    c.descriptor.effect = .modified .visibility .undetermined := by
  have hbefore : beforeType old new .standard = none :=
    beforeType_eq_none_iff.mpr ⟨hu.order,hu.typeParameters,hu.enumValue⟩
  obtain ⟨byType,htype,hequivalent⟩ := ofType_of_unnoticed hu
  rw [ofType_withoutAccess] at htype
  have hkept : ∀ m ∈ [Modifier.readonly,.optional,.abstract,.static], old.has m = new.has m := by
    intro m hm
    have hother : m ∉ Modifier.access := by
      revert m
      decide
    have hagree := hu.modifiers m hm
    rwa [Facts.has_withoutAccess hother, Facts.has_withoutAccess hother] at hagree
  obtain ⟨e,he,heffect⟩ := ofModifiers_of_gainsAccess old.kind.target hg hkept
  have hafter : afterType old new old.kind.target = some e := by simp [afterType, he]
  simp only [ofPair, hbefore, hafter, Option.getD_some] at h
  obtain ⟨found,hfound,h⟩ := bind_eq_ok.mp h
  obtain rfl := Except.ok.inj (htype.symm.trans hfound)
  cases byType with
  | none =>
    obtain rfl := Except.ok.inj h
    exact heffect
  | some d =>
    simp only [hequivalent d rfl, Bool.not_true, Bool.false_eq_true, if_false] at h
    obtain rfl := Except.ok.inj h
    exact heffect

end Classification

namespace Diff

variable {options : DiffOptions} {compareTypes : TypeOracle} {descend : Descent} {place : Place}
  {p q : Declaration}

section Found

variable (ha : TypeOracle.Answers (fun _ => False) compareTypes) {k : Classification}
  (hk : Classification.ofPair p.toFacts q.toFacts options compareTypes = .ok k)
  (hfound : k.isEquivalent = false)
include ha hk hfound

/-- One level: a pair in which a check finds something is told, whether the level matches
it or it stands inside a pair that the level matches or takes for renamed. -/
theorem told_of_mem_levelPairs
    {inside : Declaration → Declaration → List (Declaration × Declaration)}
    (hbelow : ∀ o n cs, (descend o n place.depth place.ancestors).result = .ok cs →
      (p,q) ∈ inside o n → ∃ place nested, Change.Within (modifiedWith place p q k nested) cs)
    {olds news : Members} {cs : List Change}
    (h : (level options compareTypes descend place olds news).result = .ok cs)
    (hm : (p,q) ∈ levelPairs options compareTypes inside (matchMembers olds news)) :
    ∃ place nested, Change.Within (modifiedWith place p q k nested) cs := by
  obtain ⟨renamed,modified,hrenamed,hmodified,hcs⟩ := level_eq_ok.mp h
  rcases List.mem_append.mp hm with hm | hm
  · obtain ⟨r,hr,hm⟩ := List.mem_flatMap.mp hm
    obtain ⟨c,hc,hok⟩ := exists_right_of_forall₂ hrenamed hr
    obtain ⟨ns,hns,rfl⟩ := renamedChange_eq_ok.mp hok
    obtain ⟨below,nested,hwithin⟩ := hbelow _ _ _ hns hm
    have hmem : renamedWith place r ns ∈ cs := by simp [hcs, hc]
    exact ⟨below,nested,.inside hmem hwithin⟩
  · obtain ⟨⟨o,n⟩,hon,hm⟩ := List.mem_flatMap.mp hm
    obtain ⟨r,-,hok⟩ := exists_right_of_forall₂ hmodified hon
    obtain ⟨c,hc,-⟩ := (Classification.ofPair_ends ha o.toFacts n.toFacts options).exists_ok
    obtain ⟨fromSignature,ns,-,hns,rfl⟩ := (modifiedChange_of_ok hc).mp hok
    rcases List.mem_cons.mp hm with hpair | hm
    · obtain ⟨rfl,rfl⟩ := Prod.mk.inj hpair
      obtain rfl := Except.ok.inj (hk.symm.trans hc)
      rw [hfound, Bool.false_and, if_neg Bool.false_ne_true] at hok
      exact ⟨place,_,.here (mem_of_modifiedChange h hon hok)⟩
    · split at hm
      · obtain ⟨below,nested,hwithin⟩ := hbelow _ _ _ hns hm
        exact ⟨below,nested,within_of_matched ha h hon hns hwithin⟩
      · cases hm

theorem told_of_mem_pairsWithin (room : Nat) (o n : Declaration) (depth : Nat)
    (ancestors : List String) (cs : List Change)
    (h : (membersWithin options compareTypes room o n depth ancestors).result = .ok cs)
    (hm : (p,q) ∈ pairsWithin options compareTypes room ancestors o n) :
    ∃ place nested, Change.Within (modifiedWith place p q k nested) cs := by
  induction room generalizing o n depth ancestors cs with
  | zero => cases hm
  | succ room ih =>
    rw [pairsWithin] at hm
    split at hm
    · next henters =>
      obtain ⟨hi,hp⟩ : options.includeNested = true ∧ o.path ∉ ancestors := by
        simpa using henters
      rw [membersWithin_succ room hi hp] at h
      exact told_of_mem_levelPairs ha hk hfound (fun o n cs => ih o n _ _ cs) h hm
    · cases hm

/-- The whole comparison: wherever it comes to a pair in which a check finds something,
the finding is told. -/
theorem told_of_mem_modulePairs {old new : Module} {oracle : TypeOracle} {cs : List Change}
    (heq : compareTypes = typeComparer options oracle)
    (h : (modules old new options oracle).result = .ok cs)
    (hm : (p,q) ∈ modulePairs options compareTypes old new) :
    ∃ place nested, Change.Within (modifiedWith place p q k nested) cs := by
  subst heq
  exact told_of_mem_levelPairs ha hk hfound
    (fun o n cs => told_of_mem_pairsWithin ha hk hfound _ o n _ _ cs) (modules_eq_ok.mp h) hm

end Found

/-- A pair with nothing nested in it is only told if a check finds something in it. -/
theorem not_quiet_of_mem_level {olds news : Members} {cs : List Change}
    (h : (level options compareTypes descend place olds news).result = .ok cs) {c : Change}
    (hc : c ∈ cs) (hpair : c.pair? = some (p,q)) (hnested : c.nested = []) :
    ¬Quiet options compareTypes p q := by
  rcases of_mem_level h hc with ⟨r,-,ns,-,rfl⟩ | ⟨d,-,rfl⟩ | ⟨d,-,rfl⟩ | ⟨o,n,-,hok⟩
  · simp [Change.pair?, renamedWith, Descriptor.plain] at hpair
  · simp [Change.pair?, removedChange, Descriptor.plain] at hpair
  · simp [Change.pair?, addedChange, Descriptor.plain] at hpair
  · have hnodes := nodes_of_modifiedChange hok
    unfold Change.pair? at hpair
    split at hpair
    · cases hpair
    · simp only [hnodes.1, hnodes.2, Option.bind_some, Option.map_some, Option.some.injEq,
        Prod.mk.injEq] at hpair
      obtain ⟨rfl,rfl⟩ := hpair
      rintro ⟨k,hk,hequivalent⟩
      obtain ⟨k',fromSignature,inside,hk',-,-,hfound,rfl⟩ := of_modifiedChange hok
      obtain rfl := Except.ok.inj (hk.symm.trans hk')
      exact hfound hequivalent hnested

/-- A pair is told on its own account just if a visibility is gained in it or something
other than the visibility differs. -/
theorem visibility_told {oracle : TypeOracle} (ha : TypeOracle.Answers (fun _ => False) oracle)
    (old new : Module) : ∃ cs, (modules old new .standard oracle).result = .ok cs ∧
      (∀ p q, (p,q) ∈ modulePairs .standard (typeComparer .standard oracle) old new →
        Facts.Noticeable (typeComparer .standard oracle) p.toFacts q.toFacts →
        ∃ c, Change.Within c cs ∧ c.path = .text p.path ∧ c.oldNode = some p ∧
          c.newNode = some q ∧ (Facts.Unnoticed (typeComparer .standard oracle)
            p.toFacts.withoutAccess q.toFacts.withoutAccess →
              c.descriptor.effect = .modified .visibility .undetermined)) ∧
      ∀ c p q, Change.Within c cs → c.pair? = some (p,q) → c.nested = [] →
        Facts.Noticeable (typeComparer .standard oracle) p.toFacts q.toFacts := by
  have hcompare := typeComparer_answers ha .standard
  obtain ⟨cs,hcs⟩ := modules_ok (files_of_answers ha) old new .standard
  have hquiet : ∀ {p q : Declaration} {k : Classification},
      Classification.ofPair p.toFacts q.toFacts .standard (typeComparer .standard oracle) = .ok k →
      (k.isEquivalent = true ↔ ¬Facts.Noticeable (typeComparer .standard oracle) p.toFacts
        q.toFacts) := by
    intro p q k hk
    rw [Classification.isEquivalent_iff_unnoticed hcompare hk, Facts.unnoticed_iff_not_noticeable]
  refine ⟨cs,hcs,?_,?_⟩
  · intro p q hm hnoticeable
    obtain ⟨k,hk,-⟩ := (Classification.ofPair_ends hcompare p.toFacts q.toFacts .standard).exists_ok
    have hfound : k.isEquivalent = false := by
      apply Bool.eq_false_iff.mpr
      intro hequivalent
      exact (hquiet hk).mp hequivalent hnoticeable
    obtain ⟨place,nested,hwithin⟩ := told_of_mem_modulePairs hcompare hk hfound rfl hcs hm
    refine ⟨_,hwithin,rfl,rfl,rfl,?_⟩
    intro hother
    have hgained := hnoticeable.resolve_right (not_not_intro hother)
    simpa [modifiedWith] using Classification.effect_of_gainsAccess hk hgained hother
  · intro c p q hc hpair hnested
    by_contra hnot
    refine forall_within_modules
      (P := fun c => c.pair? = some (p,q) → c.nested = [] →
        ¬Quiet .standard (typeComparer .standard oracle) p q)
      (fun hlevel c hc => not_quiet_of_mem_level hlevel hc) ?_ hcs c hc hpair hnested ?_
    · intro o n place k ds _ hs d hd hpair
      rw [Change.pair?, (depth_of_signatureChanges hs d hd).2.oldNode] at hpair
      simp at hpair
    · obtain ⟨k,hk,-⟩ :=
        (Classification.ofPair_ends hcompare p.toFacts q.toFacts .standard).exists_ok
      exact ⟨k,hk,(hquiet hk).mpr hnot⟩

def balanceWith (access : List Modifier) : Declaration :=
  { Declaration.bare .property "Account.balance" "balance" [] with
    parent := some "Account"
    modifiers := .ofList access }

def accountWith (access : List Modifier) : Declaration :=
  .bare .classDecl "Account" "Account" [("balance",balanceWith access)]

def accountModule (access : List Modifier) : Module := .ofExports [accountWith access] "<memory>" "" []

theorem decoded_accountModule (access : List Modifier) : (accountModule access).Decoded := by
  have hclass : Vocabulary.parse? (Text.trim "class") = some NodeKind.classDecl := by decide
  have hproperty : Vocabulary.parse? (Text.trim "property") = some NodeKind.property := by decide
  have haccount : Text.trim "Account" = "Account" := by decide
  have hbalance : Text.trim "balance" = "balance" := by decide
  have hdecode : (Declaration.decode (.table [("name",.text "Account"),("kind",.text "class"),
      ("children",.table [("balance",.table [("kind",.text "property"),
        ("modifiers",.list (access.map fun m => .text m.name))])])]) none none).result =
      .ok (accountWith access) := by
    refine Declaration.decode_eq_ok.mpr ⟨"Account","Account",.classDecl,∅,
      [("balance",balanceWith access)],_,Declaration.nameIn_eq_ok.mpr ⟨_,rfl,haccount⟩,rfl,
      Declaration.kindIn_eq_ok.mpr ⟨_,rfl,hclass⟩,rfl,rfl,
      .cons ⟨balanceWith access,?_,rfl⟩ .nil,rfl,rfl⟩
    exact Declaration.decode_eq_ok.mpr ⟨"balance","Account.balance",.property,.ofList access,[],_,
      Declaration.nameIn_eq_ok.mpr ⟨_,rfl,hbalance⟩,rfl,
      Declaration.kindIn_eq_ok.mpr ⟨_,rfl,hproperty⟩,rfl,Declaration.modifiersIn_texts _ access,
      .nil,rfl,rfl⟩
  exact Module.decoded_ofExports (.cons hdecode .nil) (List.nodup_singleton _)

/-- A private property that became protected gains a visibility. -/
theorem visibility_told_of_protected : ∃ cs,
    (modules (accountModule [.privateAccess]) (accountModule [.protectedAccess]) .standard
      TypeText.heuristic).result = .ok cs ∧
    ∃ c, Change.Within c cs ∧ c.path = .text "Account.balance" ∧
      c.descriptor.effect = .modified .visibility .undetermined := by
  have hanswers := TypeText.heuristic_answers fun _ => False
  obtain ⟨cs,hcs,htold,-⟩ := visibility_told hanswers (accountModule [.privateAccess])
    (accountModule [.protectedAccess])
  have hmet : (balanceWith [.privateAccess],balanceWith [.protectedAccess]) ∈ modulePairs .standard
      (typeComparer .standard TypeText.heuristic) (accountModule [.privateAccess])
      (accountModule [.protectedAccess]) := by decide +kernel
  have hgained : Facts.GainsAccess (balanceWith [.privateAccess]).toFacts
      (balanceWith [.protectedAccess]).toFacts :=
    ⟨.protectedAccess,by decide,rfl,rfl⟩
  obtain ⟨c,hc,hpath,-,-,heffect⟩ := htold _ _ hmet (Or.inl hgained)
  have hother : Facts.Unnoticed (typeComparer .standard TypeText.heuristic)
      (balanceWith [.privateAccess]).toFacts.withoutAccess
      (balanceWith [.protectedAccess]).toFacts.withoutAccess :=
    ⟨⟨rfl,rfl,fun _ => rfl,.asWritten rfl rfl,by decide,by decide,rfl,rfl,rfl,rfl⟩,
      fun _ hne => absurd rfl hne⟩
  exact ⟨cs,hcs,c,hc,hpath,heffect hother⟩

/-- A property that is no longer private is passed over. -/
theorem modules_of_lost_privacy :
    (accountModule [.privateAccess]).Decoded ∧ (accountModule []).Decoded ∧
    (balanceWith [.privateAccess],balanceWith []) ∈ modulePairs .standard
      (typeComparer .standard TypeText.heuristic) (accountModule [.privateAccess])
      (accountModule []) ∧
    (balanceWith [.privateAccess]).has .privateAccess = true ∧
    (balanceWith []).has .privateAccess = false ∧
    (modules (accountModule [.privateAccess]) (accountModule []) .standard
      TypeText.heuristic).result = .ok [] := by
  refine ⟨decoded_accountModule _,decoded_accountModule _,by decide +kernel,rfl,rfl,?_⟩
  have hnone : (modules (accountModule [.privateAccess]) (accountModule []) .standard
      TypeText.heuristic).result.toOption.map List.length = some 0 := by decide +kernel
  obtain ⟨cs,hcs,hlength⟩ := exists_ok_of_toOption hnone
  rw [hcs, List.length_eq_zero_iff.mp hlength]

end Diff

end ApiRelease
