import ApiRelease.Proofs.Unchanged

/-! # When a pair is passed over

A pair is passed over just if no check finds anything in it or in the pairs of members
that the comparison comes to from it, and no member came or went there. How far it
comes is a matter of the options, and of the paths above: a declaration is not entered
below itself.
-/
namespace ApiRelease

/-- Parameters are only said to have changed places if there are as many as before, and
if several names moved or several are unlike those that they replace. -/
theorem Reorder.evidence_of_hasReordering {olds news : List Parameter}
    (h : (detect olds news).hasReordering = true) :
    olds.length = news.length ∧ (2 ≤ (movedNames olds news).length ∨
      2 ≤ ((placesFrom 0 olds news).filter Place.unlike).length) := by
  unfold detect at h
  simp only at h
  split_ifs at h with hlength _ _ hmoved hlow
  · exact ⟨by simpa using hlength,Or.inl hmoved⟩
  · simp only [Bool.and_eq_true, decide_eq_true_eq] at hlow
    exact ⟨by simpa using hlength,Or.inr hlow.1⟩

namespace Classification

variable {compareTypes : TypeOracle} {old new : Facts} {target : Target} {options : DiffOptions}
  {c : Classification}

theorem beforeType_eq_none_iff : beforeType old new options = none ↔
    detectedReordering old new options = none ∧ TypeParameterChange.detect old new = [] ∧
    (old.kind = .enumMember → old.signature = new.signature) := by
  refine ⟨beforeType_eq_none,?_⟩
  rintro ⟨hreorder,hparameters,henum⟩
  unfold beforeType
  rw [hreorder, hparameters]
  have hvalue : ¬(old.kind = .enumMember ∧ old.signature ≠ new.signature) :=
    fun h => h.2 (henum h.1)
  simp only [if_neg hvalue]

/-- The first change of a type parameter is told in the place of all later findings. -/
theorem ofPair_of_typeParameter (hreorder : detectedReordering old new options = none)
    {first : TypeParameterChange} {rest : List TypeParameterChange}
    (hdetect : TypeParameterChange.detect old new = first :: rest) :
    ofPair old new options compareTypes =
    .ok (plain (first.describe old.path).1 (first.describe old.path).2) := by
  simp only [ofPair, beforeType, hreorder, hdetect]

theorem ofModifiers_eq_none_iff : ofModifiers old new target = none ↔
    (∀ m ∈ [Modifier.readonly,.optional,.abstract,.static], old.has m = new.has m) ∧
    ∀ m ∈ [Modifier.publicAccess,.protectedAccess,.privateAccess],
      new.has m = true → old.has m = true := by
  refine ⟨ofModifiers_eq_none,?_⟩
  rintro ⟨hkept,hvisible⟩
  apply Option.map_eq_none_iff.mpr
  apply List.find?_eq_none.mpr
  simp only [List.mem_cons, List.not_mem_nil, or_false, forall_eq_or_imp, forall_eq] at hkept hvisible
  obtain ⟨hreadonly,hoptional,habstract,hstatic⟩ := hkept
  simp only [modifierRules, List.mem_cons, List.not_mem_nil, or_false, forall_eq_or_imp, forall_eq,
    Bool.and_eq_true, Bool.not_eq_true', Bool.false_eq_true, if_true, if_false, not_and,
    Bool.not_eq_false, hreadonly, hoptional, habstract, hstatic, imp_self, true_and]
  exact hvisible

/-- The checks after the type find nothing just if what they look at agrees. -/
theorem afterType_eq_none_iff : afterType old new target = none ↔
    ((∀ m ∈ [Modifier.readonly,.optional,.abstract,.static], old.has m = new.has m) ∧
    ∀ m ∈ [Modifier.publicAccess,.protectedAccess,.privateAccess],
      new.has m = true → old.has m = true) ∧
    old.extended = new.extended ∧ old.implemented = new.implemented ∧
    old.deprecated = new.deprecated ∧ old.defaultValue = new.defaultValue := by
  simp only [afterType, Option.orElse_eq_orElse, Option.orElse_eq_or, Option.or_eq_none_iff,
    ofModifiers_eq_none_iff]
  constructor
  · rintro ⟨hmodifiers,hextends,himplements,hdeprecation,hdefault⟩
    exact ⟨hmodifiers,ofClause_eq_none hextends,ofClause_eq_none himplements,
      ofDeprecation_eq_none hdeprecation,ofDefaultValue_eq_none hdefault⟩
  · rintro ⟨hmodifiers,hextends,himplements,hdeprecation,hdefault⟩
    refine ⟨hmodifiers,by simp [ofClause, hextends],by simp [ofClause, himplements],?_,?_⟩
    · simp [ofDeprecation, hdeprecation]
    · simp only [ofDefaultValue, hdefault]
      split <;> simp_all

theorem signatureChanges_of_isEquivalent {failure : Fault → Prop}
    (ha : TypeOracle.Answers failure compareTypes)
    (h : ofPair old new options compareTypes = .ok c) (hc : c.isEquivalent = true) :
    c.signatureChanges = [] := by
  obtain ⟨hbefore,⟨byType,htype,-⟩,hafter⟩ := (isEquivalent_ofPair_iff h).mp hc
  simp only [ofPair, hbefore, htype, hafter] at h
  cases byType with
  | none =>
    obtain rfl := Except.ok.inj h
    rfl
  | some d =>
    change (if !d.isEquivalent then Except.ok d else Except.ok d) = Except.ok c at h
    rw [ite_self] at h
    obtain rfl := Except.ok.inj h
    unfold ofType at htype
    split at htype
    · exact (ofRawText_standalone (Except.ok.inj htype)).signatureChanges_eq
    · split at htype
      · cases htype
      · split at htype
        · obtain ⟨differences,hdiff,htype⟩ := bind_eq_ok.mp htype
          obtain ⟨e,he,htype⟩ := bind_eq_ok.mp htype
          cases htype
          have hjudged := (Signature.compare_ends ha _ _ _).of_eq_ok hdiff
          obtain rfl := isEquivalent_ofSignatures hjudged he hc
          cases he
          rfl
        · obtain ⟨verdict,-,htype⟩ := bind_eq_ok.mp htype
          obtain ⟨descriptor,-,htype⟩ := bind_eq_ok.mp htype
          cases htype
          rfl

end Classification

namespace Diff

variable {options : DiffOptions} {compareTypes : TypeOracle} {descend : Descent} {place : Place}

structure Enters (options : DiffOptions) (d : Declaration) (depth : Nat)
    (ancestors : List String) : Prop where
  nested : options.includeNested = true
  depth_lt : (depth : Int) < options.maxDepth
  fresh : d.path ∉ ancestors

inductive Compared (options : DiffOptions) (o n : Declaration) :
    Declaration → Declaration → Nat → List String → Prop
  | itself : Compared options o n o n 0 []
  | member {p q r s : Declaration} {depth : Nat} {ancestors : List String}
      (h : Compared options o n p q depth ancestors) (he : Enters options p depth ancestors)
      (hm : (r,s) ∈ (matchMembers (comparedMembers (bothSigned p q) p.members)
        (comparedMembers (bothSigned p q) q.members)).matched) :
      Compared options o n r s (depth + 1) (ancestors ++ [p.path])

def Quiet (options : DiffOptions) (compareTypes : TypeOracle) (p q : Declaration) : Prop :=
  ∃ c, Classification.ofPair p.toFacts q.toFacts options compareTypes = .ok c ∧
    c.isEquivalent = true

/-- No check finds anything in a pair at a depth below some paths, and no member of it
came or went that is looked at. -/
structure Passed (options : DiffOptions) (compareTypes : TypeOracle) (p q : Declaration)
    (depth : Nat) (ancestors : List String) : Prop where
  quiet : Quiet options compareTypes p q
  keys : Enters options p depth ancestors →
    SameKeys (comparedMembers (bothSigned p q) p.members)
      (comparedMembers (bothSigned p q) q.members)

def Comparable (options : DiffOptions) (compareTypes : TypeOracle) (p q : Declaration) : Prop :=
  ∃ c, Classification.ofPair p.toFacts q.toFacts options compareTypes = .ok c ∧
    (c.isEquivalent = true → c.signatureChanges = [])

theorem comparable_of_answers (ha : TypeOracle.Answers (fun _ => False) compareTypes)
    (p q : Declaration) : Comparable options compareTypes p q := by
  obtain ⟨c,hc,-⟩ := (Classification.ofPair_ends ha p.toFacts q.toFacts options).exists_ok
  exact ⟨c,hc,Classification.signatureChanges_of_isEquivalent ha hc⟩

theorem match_of_sameKeys {olds news : Members} (h : SameKeys olds news) :
    (matchMembers olds news).removed = [] ∧ (matchMembers olds news).added = [] := by
  have hsome : ∀ (members : Members) (m : Scalar × Declaration), m ∈ members →
      Members.find? m.1 members ≠ none := by
    intro members m hm hnone
    exact Members.find?_eq_none_iff.mp hnone m hm rfl
  constructor
  · apply List.eq_nil_iff_forall_not_mem.mpr
    intro d hd
    obtain ⟨k,hk,hnone⟩ := mem_removed_iff.mp hd
    have hkeys := h k
    rw [hnone, Option.isSome_none, Option.isSome_eq_false_iff, Option.isNone_iff_eq_none] at hkeys
    exact hsome olds (k,d) hk hkeys
  · apply List.eq_nil_iff_forall_not_mem.mpr
    intro d hd
    obtain ⟨k,hk,hnone⟩ := mem_added_iff.mp hd
    have hkeys := h k
    rw [hnone, Option.isSome_none, eq_comm, Option.isSome_eq_false_iff,
      Option.isNone_iff_eq_none] at hkeys
    exact hsome news (k,d) hk hkeys

section Entering

variable {o n : Declaration} {depth : Nat} {ancestors : List String}

theorem membersWithin_of_enters (h : Enters options o depth ancestors) :
    (membersWithin options compareTypes (options.maxDepth.toNat - depth) o n depth
      ancestors).result =
    (level options compareTypes (membersWithin options compareTypes
        (options.maxDepth.toNat - (depth + 1)))
      (.inside o n depth ancestors) (comparedMembers (bothSigned o n) o.members)
      (comparedMembers (bothSigned o n) n.members)).result := by
  have hdepth := h.depth_lt
  obtain ⟨room,hroom⟩ : ∃ room, options.maxDepth.toNat - depth = room + 1 :=
    ⟨options.maxDepth.toNat - depth - 1,by omega⟩
  rw [hroom, membersWithin_succ room h.nested h.fresh,
    show options.maxDepth.toNat - (depth + 1) = room by omega]

theorem membersWithin_of_not_enters (h : ¬Enters options o depth ancestors) :
    (membersWithin options compareTypes (options.maxDepth.toNat - depth) o n depth
      ancestors).result = .ok [] := by
  cases hi : options.includeNested with
  | false => exact membersWithin_of_excluded _ hi
  | true =>
    by_cases hp : o.path ∈ ancestors
    · exact membersWithin_of_repeated _ hp
    · have hdepth : ¬(depth : Int) < options.maxDepth := fun hd => h ⟨hi,hd,hp⟩
      rw [show options.maxDepth.toNat - depth = 0 by omega]
      exact membersWithin_zero

end Entering

/-- One pair: it is passed over just if it is quiet and nothing changed inside it. -/
theorem modifiedChange_eq_none_iff {p q : Declaration} (hc : Comparable options compareTypes p q) :
    (modifiedChange options compareTypes descend place p q).result = .ok none ↔
    Quiet options compareTypes p q ∧ (descend p q place.depth place.ancestors).result = .ok [] := by
  obtain ⟨c,hc,hs⟩ := hc
  constructor
  · intro h
    obtain ⟨hequivalent,hinside⟩ := of_modifiedChange_eq_none hc h
    exact ⟨⟨c,hc,hequivalent⟩,hinside⟩
  · rintro ⟨⟨d,hd,hequivalent⟩,hinside⟩
    obtain rfl := Except.ok.inj (hc.symm.trans hd)
    exact modifiedChange_eq_none hc hequivalent (hs hequivalent) hinside

section Descending

variable {o n : Declaration}

/-- All levels, downwards: if an export is passed over, so is every pair below it. -/
theorem Compared.passed_inside
    (hc : ∀ p q depth ancestors, Compared options o n p q depth ancestors →
      Comparable options compareTypes p q)
    (h : (modifiedChange options compareTypes
      (membersWithin options compareTypes options.maxDepth.toNat) .top o n).result = .ok none)
    {p q : Declaration} {depth : Nat} {ancestors : List String}
    (hr : Compared options o n p q depth ancestors) :
    Quiet options compareTypes p q ∧
    (membersWithin options compareTypes (options.maxDepth.toNat - depth) p q depth
      ancestors).result = .ok [] := by
  induction hr with
  | itself => exact (modifiedChange_eq_none_iff (hc _ _ _ _ .itself)).mp h
  | member hr he hm ih =>
    obtain ⟨-,hinside⟩ := ih
    rw [membersWithin_of_enters he, level_eq_nil_iff] at hinside
    exact (modifiedChange_eq_none_iff (hc _ _ _ _ (.member hr he hm))).mp (hinside.2.2 _ hm)

/-- All levels, upwards: if every pair is passed, nothing is reported inside any of them. -/
theorem Compared.inside_eq_nil
    (hc : ∀ p q depth ancestors, Compared options o n p q depth ancestors →
      Comparable options compareTypes p q)
    (h : ∀ p q depth ancestors, Compared options o n p q depth ancestors →
      Passed options compareTypes p q depth ancestors)
    {p q : Declaration} {depth : Nat} {ancestors : List String}
    (hr : Compared options o n p q depth ancestors) :
    (membersWithin options compareTypes (options.maxDepth.toNat - depth) p q depth
      ancestors).result = .ok [] := by
  by_cases he : Enters options p depth ancestors
  · -- the members stand one level deeper, so fewer levels may be entered below them
    have hdepth := he.depth_lt
    rw [membersWithin_of_enters he, level_eq_nil_iff]
    obtain ⟨hremoved,hadded⟩ := match_of_sameKeys ((h _ _ _ _ hr).keys he)
    refine ⟨hremoved,hadded,?_⟩
    rintro ⟨r,s⟩ hm
    have hmember : Compared options o n r s (depth + 1) (ancestors ++ [p.path]) :=
      .member hr he hm
    exact (modifiedChange_eq_none_iff (hc _ _ _ _ hmember)).mpr
      ⟨(h _ _ _ _ hmember).quiet,hmember.inside_eq_nil hc h⟩
  · exact membersWithin_of_not_enters he
termination_by options.maxDepth.toNat - depth

/-- An export is passed over just if every pair that its comparison comes to is passed. -/
theorem modifiedChange_top_eq_none_iff
    (hc : ∀ p q depth ancestors, Compared options o n p q depth ancestors →
      Comparable options compareTypes p q) :
    (modifiedChange options compareTypes
      (membersWithin options compareTypes options.maxDepth.toNat) .top o n).result = .ok none ↔
    ∀ p q depth ancestors, Compared options o n p q depth ancestors →
      Passed options compareTypes p q depth ancestors := by
  constructor
  · intro h p q depth ancestors hr
    obtain ⟨hquiet,hinside⟩ := hr.passed_inside hc h
    refine ⟨hquiet,?_⟩
    intro he
    rw [membersWithin_of_enters he, level_eq_nil_iff] at hinside
    exact sameKeys_of_match hinside.1 hinside.2.1
  · intro h
    exact (modifiedChange_eq_none_iff (hc _ _ _ _ .itself)).mpr
      ⟨(h _ _ _ _ .itself).quiet,Compared.itself.inside_eq_nil hc h⟩

end Descending

end Diff

end ApiRelease
