import ApiRelease.Proofs.Itself
import ApiRelease.Proofs.KindChange

/-! # Types that are only written differently

Two modules that differ in the blanks of their type texts alone are told apart by few of
the checks. A pair of which the type parameters are written alike goes unnoticed, unless
it is an enum member whose value is written differently: the blanks of a value count.
-/
namespace ApiRelease

def TypeParameter.collapsed (p : TypeParameter) : TypeParameter :=
  { p with constraint := p.constraint.map Text.normalize, default := p.default.map Text.normalize }

def Parameter.collapsed (p : Parameter) : Parameter := { p with type := Text.normalize p.type }

theorem Parameter.isRequired_collapsed (p : Parameter) : p.collapsed.isRequired = p.isRequired := by
  unfold isRequired collapsed
  rfl

def Signature.collapsed (s : Signature) : Signature :=
  { s with
    parameters := s.parameters.map (·.collapsed)
    returnType := Text.normalize s.returnType
    typeParameters := s.typeParameters.map (·.collapsed) }

def TypeInfo.collapsed (t : TypeInfo) : TypeInfo :=
  { t with
    signature := Text.normalize t.signature
    raw := Text.normalize t.raw
    callSignatures := t.callSignatures.map (·.collapsed)
    constructSignatures := t.constructSignatures.map (·.collapsed)
    typeParameters := t.typeParameters.map (·.collapsed) }

def Facts.collapsed (f : Facts) : Facts := { f with typeInfo := f.typeInfo.map (·.collapsed) }

mutual

def Declaration.collapsed : Declaration → Declaration
  | ⟨facts,members⟩ => ⟨facts.collapsed,Declaration.collapsedAll members⟩

def Declaration.collapsedAll : List (Scalar × Declaration) → List (Scalar × Declaration)
  | [] => []
  | (k,d) :: rest => (k,d.collapsed) :: Declaration.collapsedAll rest

end

def Module.Reformats (m m' : Module) : Prop :=
  Declaration.collapsedAll m.exports = Declaration.collapsedAll m'.exports

instance (m m' : Module) : Decidable (m.Reformats m') :=
  inferInstanceAs (Decidable (Declaration.collapsedAll m.exports = Declaration.collapsedAll m'.exports))

namespace Signature

variable {s t : Signature}

theorem compareParameter_of_collapsed {p q : Parameter} (h : p.collapsed = q.collapsed) (path : String)
    (compareTypes : TypeOracle) : compareParameter path p q compareTypes = .ok none := by
  have htype := congrArg Parameter.type h
  simp only [Parameter.collapsed] at htype
  have hrequired : p.isRequired = q.isRequired := by
    rw [← p.isRequired_collapsed, ← q.isRequired_collapsed, h]
  cases hq : q.isRequired <;>
    simp [compareParameter, typeVerdict, htype, hrequired, hq, bind, Except.bind, pure, Except.pure]

theorem compareParameters_of_collapsed {ps qs : List Parameter}
    (h : ps.map (·.collapsed) = qs.map (·.collapsed)) (path : String) (compareTypes : TypeOracle) :
    compareParameters path compareTypes ps qs = .ok [] := by
  induction ps generalizing qs with
  | nil =>
    obtain rfl := List.map_eq_nil_iff.mp h.symm
    rfl
  | cons p ps ih =>
    cases qs with
    | nil => simp at h
    | cons q qs =>
      obtain ⟨hhere,hrest⟩ := List.cons_eq_cons.mp h
      rw [compareParameters, compareParameter_of_collapsed hhere, ih hrest]
      rfl

/-- Signatures of the same words do not differ, whatever the oracle would say. -/
theorem compare_of_collapsed (h : s.collapsed = t.collapsed) (path : String)
    (compareTypes : TypeOracle) : compare path s t compareTypes = .ok [] := by
  have hreturn := congrArg Signature.returnType h
  simp only [Signature.collapsed] at hreturn
  have hparameters := compareParameters_of_collapsed (congrArg Signature.parameters h) path compareTypes
  rw [compare, hparameters]
  simp [compareReturn, typeVerdict, hreturn, bind, Except.bind, pure, Except.pure]

theorem names_of_collapsed (h : s.collapsed = t.collapsed) :
    s.parameters.map (·.name) = t.parameters.map (·.name) := by
  have hnames := congrArg (fun u => u.parameters.map (·.name)) h
  simpa [Signature.collapsed, Parameter.collapsed, Function.comp_def] using hnames

end Signature

namespace Facts

theorem signature_collapsed (f : Facts) : f.collapsed.signature = Text.normalize f.signature := by
  unfold signature collapsed
  cases f.typeInfo <;> rfl

theorem rawType_collapsed (f : Facts) : f.collapsed.rawType = Text.normalize f.rawType := by
  unfold rawType collapsed
  cases f.typeInfo <;> rfl

theorem primarySignature_collapsed (f : Facts) :
    primarySignature f.collapsed = (primarySignature f).map (·.collapsed) := by
  unfold primarySignature collapsed
  cases f.typeInfo with
  | none => rfl
  | some t =>
    simp only [Option.map_some, Option.bind_some, TypeInfo.collapsed, List.isEmpty_map]
    split_ifs <;> simp

section Reformatted

variable {f g : Facts} (h : f.collapsed = g.collapsed)
include h

theorem normalize_signature_of_collapsed : Text.normalize f.signature = Text.normalize g.signature := by
  rw [← signature_collapsed, ← signature_collapsed, h]

theorem primarySignature_of_collapsed {s t : Signature} (hs : primarySignature f = some s)
    (ht : primarySignature g = some t) : s.collapsed = t.collapsed := by
  have hprimary := congrArg primarySignature h
  simpa [primarySignature_collapsed, hs, ht] using hprimary

theorem detectedReordering_of_collapsed (options : DiffOptions) :
    Classification.detectedReordering f g options = none := by
  unfold Classification.detectedReordering Classification.reordering?
  split
  · cases hs : primarySignature f with
    | none => rfl
    | some s =>
      cases ht : primarySignature g with
      | none => rfl
      | some t =>
        have hnames := Signature.names_of_collapsed (primarySignature_of_collapsed h hs ht)
        simp [Reorder.hasReordering_of_names hnames]
  · rfl

theorem typesAgree_of_collapsed : TypesAgree TypeText.heuristic f g := by
  have hraw : Text.normalize f.rawType = Text.normalize g.rawType := by
    rw [← rawType_collapsed, ← rawType_collapsed, h]
  cases hr : f.isResolved && g.isResolved with
  | false => exact .asWritten hr hraw
  | true =>
    refine .byOracle hr ?_
    simp [TypeText.heuristic, TypeText.compare, TypeText.compareNormalized,
      normalize_signature_of_collapsed h]

/-- Types that are only written differently go unnoticed, but the value of an enum member
does not. -/
theorem unnoticed_iff_of_collapsed (ht : typeParametersOf f = typeParametersOf g)
    (hu : TypeParameter.Unambiguous (typeParametersOf f)) :
    Unnoticed TypeText.heuristic f g ↔ (f.kind = .enumMember → f.signature = g.signature) := by
  constructor
  · intro hn
    exact hn.enumValue
  · intro henum
    -- but for type parameters, only the check of the value reads a text as it is written
    have hdetect : TypeParameterChange.detect f g = [] := by
      rw [TypeParameterChange.detect, ← ht]
      exact TypeParameterChange.detectIn_self_eq_nil_iff.mpr hu
    have hfields := h
    simp only [collapsed, Facts.mk.injEq] at hfields
    obtain ⟨-,-,-,-,-,-,hmodifiers,hmetadata,hextended,himplemented⟩ := hfields
    refine ⟨⟨detectedReordering_of_collapsed h .standard,hdetect,henum,typesAgree_of_collapsed h,?_,?_,
      hextended,himplemented,?_,?_⟩,?_⟩
    · intro m _
      rw [has, has, hmodifiers]
    · intro m _ hm
      rwa [has, hmodifiers]
    · rw [deprecated, deprecated, hmetadata]
    · rw [defaultValue, defaultValue, hmetadata]
    · intro _ _ s t hs ht
      exact Signature.compare_of_collapsed (primarySignature_of_collapsed h hs ht) _ _

end Reformatted

end Facts

namespace Declaration

theorem collapsedAll_eq (members : Members) :
    collapsedAll members = members.map fun m => (m.1,m.2.collapsed) := by
  induction members with
  | nil => rfl
  | cons m rest ih => rw [collapsedAll, ih, List.map_cons]

theorem toFacts_collapsed (d : Declaration) : d.collapsed.toFacts = d.toFacts.collapsed := by
  cases d
  rfl

theorem members_collapsed (d : Declaration) : d.collapsed.members = collapsedAll d.members := by
  cases d
  rfl

end Declaration

theorem Members.find?_collapsedAll (key : Scalar) (members : Members) :
    find? key (Declaration.collapsedAll members) = (find? key members).map (·.collapsed) := by
  induction members with
  | nil => rfl
  | cons m rest ih =>
    obtain ⟨k,d⟩ := m
    rw [Declaration.collapsedAll, find?, find?, ih]
    split <;> rfl

namespace Diff

theorem collapsedAll_comparedMembers (both : Bool) (members : Members) :
    Declaration.collapsedAll (comparedMembers both members) =
    comparedMembers both (Declaration.collapsedAll members) := by
  have hkind : ∀ d : Declaration, d.collapsed.kind = d.kind := fun d => by
    rw [d.toFacts_collapsed]
    rfl
  unfold comparedMembers
  split
  · simp [Declaration.collapsedAll_eq, List.filter_map, Function.comp_def, hkind]
  · rfl

section Levels

variable {olds news : Members} (h : Declaration.collapsedAll olds = Declaration.collapsedAll news)
include h

theorem find?_of_collapsed (key : Scalar) :
    (Members.find? key olds).map (·.collapsed) = (Members.find? key news).map (·.collapsed) := by
  rw [← Members.find?_collapsedAll, ← Members.find?_collapsedAll, h]

theorem sameKeys_of_collapsed : SameKeys olds news := by
  intro key
  have hfind := congrArg Option.isSome (find?_of_collapsed h key)
  simpa using hfind

theorem collapsed_of_matched (hd : olds.Distinct) {r s : Declaration}
    (hm : (r,s) ∈ (matchMembers olds news).matched) :
    r.collapsed = s.collapsed ∧ ∃ k, (k,r) ∈ olds := by
  obtain ⟨k,hk,hs⟩ := mem_matched_iff.mp hm
  have hfind := find?_of_collapsed h k
  rw [hd.find? hk, hs] at hfind
  exact ⟨Option.some.inj hfind,k,hk⟩

end Levels

section Walk

variable {options : DiffOptions} {o n p q : Declaration} {depth : Nat} {ancestors : List String}

theorem comparedMembers_of_collapsed (h : p.collapsed = q.collapsed) (both : Bool) :
    Declaration.collapsedAll (comparedMembers both p.members) =
    Declaration.collapsedAll (comparedMembers both q.members) := by
  rw [collapsedAll_comparedMembers, collapsedAll_comparedMembers, ← p.members_collapsed,
    ← q.members_collapsed, h]

/-- From two exports that are only written differently the comparison comes to such
declarations alone. -/
theorem Compared.collapsed_eq (ho : o.WellKeyed) (h : o.collapsed = n.collapsed)
    (hr : Compared options o n p q depth ancestors) : p.collapsed = q.collapsed ∧ p ∈ o.walk := by
  induction hr with
  | itself => exact ⟨h,o.mem_walk_self⟩
  | @member p q r s _ _ _ _ hm ih =>
    obtain ⟨hpq,hp⟩ := ih
    have hdistinct : Members.Distinct (comparedMembers (bothSigned p q) p.members) :=
      (ho p hp).sublist (comparedMembers_sublist _ _)
    obtain ⟨hrs,k,hk⟩ := collapsed_of_matched (comparedMembers_of_collapsed hpq _) hdistinct hm
    have hwalk : r ∈ p.walk :=
      Declaration.mem_walk.mpr (Or.inr ⟨(k,r),mem_of_mem_comparedMembers hk,r.mem_walk_self⟩)
    exact ⟨hrs,Declaration.mem_walk_trans hwalk hp⟩

theorem passed_iff_of_collapsed (h : p.collapsed = q.collapsed)
    (ht : typeParametersOf p.toFacts = typeParametersOf q.toFacts)
    (hu : TypeParameter.Unambiguous (typeParametersOf p.toFacts)) :
    Passed .standard TypeText.heuristic p q depth ancestors ↔
    (p.kind = .enumMember → p.signature = q.signature) := by
  have hfacts : p.toFacts.collapsed = q.toFacts.collapsed := by
    rw [← p.toFacts_collapsed, ← q.toFacts_collapsed, h]
  have hiff := quiet_iff_unnoticed.trans (Facts.unnoticed_iff_of_collapsed hfacts ht hu)
  constructor
  · intro hpassed
    exact hiff.mp hpassed.quiet
  · intro henum
    exact ⟨hiff.mpr henum,fun _ => sameKeys_of_collapsed (comparedMembers_of_collapsed h _)⟩

end Walk

theorem enters_standard_iff {d : Declaration} {depth : Nat} {ancestors : List String} :
    Enters .standard d depth ancestors ↔ depth < 10 ∧ d.path ∉ ancestors := by
  have hmax : DiffOptions.standard.maxDepth = (10 : Nat) := rfl
  constructor
  · intro h
    have hdepth := h.depth_lt
    rw [hmax, Int.ofNat_lt] at hdepth
    exact ⟨hdepth,h.fresh⟩
  · rintro ⟨hdepth,hfresh⟩
    rw [← Int.ofNat_lt, ← hmax] at hdepth
    exact ⟨rfl,hdepth,hfresh⟩

theorem reached_iff {m m' : Module} {p q : Declaration} {depth : Nat} {ancestors : List String} :
    Reached m m' p q depth ancestors ↔
    ∃ o n, (o,n) ∈ (matchMembers m.exports m'.exports).matched ∧
      Compared .standard o n p q depth ancestors := by
  constructor
  · intro h
    induction h with
    | exported hm => exact ⟨_,_,hm,.itself⟩
    | member _ hd hp hm ih =>
      obtain ⟨o,n,hon,hr⟩ := ih
      exact ⟨o,n,hon,.member hr (enters_standard_iff.mpr ⟨hd,hp⟩) hm⟩
  · rintro ⟨o,n,hon,hr⟩
    induction hr with
    | itself => exact .exported hon
    | member _ he hm ih =>
      obtain ⟨hdepth,hfresh⟩ := enters_standard_iff.mp he
      exact .member ih hdepth hfresh hm

section Modules

variable {m m' : Module} (hm : m.WellKeyed) (h : m.Reformats m')
include hm h

theorem collapsed_of_reached {p q : Declaration} {depth : Nat} {ancestors : List String}
    (hr : Reached m m' p q depth ancestors) :
    p.collapsed = q.collapsed ∧ ∃ e ∈ m.exports, p ∈ e.2.walk := by
  obtain ⟨o,n,hon,hr⟩ := reached_iff.mp hr
  obtain ⟨hcollapsed,k,hk⟩ := collapsed_of_matched h hm.exports hon
  obtain ⟨hpq,hwalk⟩ := hr.collapsed_eq (hm.members _ hk) hcollapsed
  exact ⟨hpq,(k,o),hk,hwalk⟩

/-- Two modules that differ in the blanks of type texts alone: as long as the type
parameters of the declarations that are compared are written alike, nothing is reported
just if no enum member that is compared has its value written differently. -/
theorem modules_reformatted
    (hu : ∀ e ∈ m.exports, ∀ d ∈ e.2.walk, TypeParameter.Unambiguous (typeParametersOf d.toFacts))
    (ht : ∀ p q depth ancestors, Reached m m' p q depth ancestors →
      typeParametersOf p.toFacts = typeParametersOf q.toFacts) :
    ∃ cs, (modules m m' .standard TypeText.heuristic).result = .ok cs ∧
      (cs = [] ↔ ∀ p q depth ancestors, Reached m m' p q depth ancestors →
        p.kind = .enumMember → p.signature = q.signature) := by
  have ha := TypeText.heuristic_answers fun _ => False
  obtain ⟨cs,hcs⟩ := modules_ok (TypeText.heuristic_answers _) m m' .standard
  have hnil : cs = [] ↔ (modules m m' .standard TypeText.heuristic).result = .ok [] := by simp [hcs]
  have hpassed : ∀ p q depth ancestors, Reached m m' p q depth ancestors →
      (Passed .standard TypeText.heuristic p q depth ancestors ↔
        (p.kind = .enumMember → p.signature = q.signature)) := by
    intro p q depth ancestors hr
    obtain ⟨hcollapsed,e,he,hwalk⟩ := collapsed_of_reached hm h hr
    exact passed_iff_of_collapsed hcollapsed (ht p q depth ancestors hr) (hu e he p hwalk)
  refine ⟨cs,hcs,?_⟩
  rw [hnil, modules_eq_ok, typeComparer_heuristic, level_eq_nil_iff]
  obtain ⟨hremoved,hadded⟩ := match_of_sameKeys (sameKeys_of_collapsed h)
  constructor
  · rintro ⟨-,-,hpairs⟩ p q depth ancestors hr
    obtain ⟨o,n,hon,hc⟩ := reached_iff.mp hr
    have hall := (modifiedChange_top_eq_none_iff fun p q _ _ _ => comparable_of_answers ha p q).mp
      (hpairs _ hon)
    exact (hpassed p q depth ancestors hr).mp (hall p q depth ancestors hc)
  · intro henum
    refine ⟨hremoved,hadded,?_⟩
    intro e he
    apply (modifiedChange_top_eq_none_iff fun p q _ _ _ => comparable_of_answers ha p q).mpr
    intro p q depth ancestors hc
    have hr : Reached m m' p q depth ancestors := reached_iff.mpr ⟨_,_,he,hc⟩
    exact (hpassed p q depth ancestors hr).mpr (henum p q depth ancestors hr)

end Modules

def fetchOf (signature argument result : String) : Declaration :=
  { Declaration.bare .function "fetch" "fetch" [] with
    typeInfo := some ⟨signature,signature,[],[],
      [⟨[⟨"at",argument,false,false,none⟩],result,[⟨"T",some "object",none⟩],""⟩],[],[],[],none,none⟩ }

def fetchTight : Module :=
  .ofExports [fetchOf "(at: A | B) => C" "A | B" "C"] "<memory>" "" []

def fetchLoose : Module :=
  .ofExports [fetchOf "(at: A  | B)\n => C" "A  | B" "C\n"] "<memory>" "" []

/-- More blanks and lines within the types of a function are no change. -/
theorem modules_reformatted_of_fetch : fetchTight.Reformats fetchLoose ∧
    (modules fetchTight fetchLoose .standard TypeText.heuristic).result = .ok [] := by
  have hreformats : fetchTight.Reformats fetchLoose := by decide +kernel
  have hreached : ∀ p q depth ancestors, Reached fetchTight fetchLoose p q depth ancestors →
      (p,q) = (fetchOf "(at: A | B) => C" "A | B" "C",
        fetchOf "(at: A  | B)\n => C" "A  | B" "C\n") := by
    intro p q depth ancestors hr
    induction hr with
    | exported hm => exact List.mem_singleton.mp hm
    | member _ _ _ hm ih =>
      cases ih
      cases hm
  obtain ⟨cs,hcs,hnil⟩ := modules_reformatted (by decide +kernel) hreformats (by decide +kernel) <| by
    intro p q depth ancestors hr
    cases hreached p q depth ancestors hr
    rfl
  refine ⟨hreformats,?_⟩
  rw [hcs, hnil.mpr]
  intro p q depth ancestors hr
  cases hreached p q depth ancestors hr
  simp [fetchOf, Declaration.bare]

def modeWith (value : String) : Module :=
  .ofExports [.bare .enumDecl "Mode" "Mode" [("fast",
    { Declaration.bare .enumMember "Mode.fast" "fast" [] with
      parent := some "Mode"
      typeInfo := some ⟨value,value,[],[],[],[],[],[],none,none⟩ })]] "<memory>" "" []

/-- The blanks inside the value of an enum member count. -/
theorem reformatted_value_told :
    (modeWith "'a  b'").WellKeyed ∧ (modeWith "'a b'").WellKeyed ∧
    (∀ e ∈ (modeWith "'a  b'").exports, ∀ d ∈ e.2.walk, typeParametersOf d.toFacts = []) ∧
    (modeWith "'a  b'").Reformats (modeWith "'a b'") ∧
    ∃ cs, (modules (modeWith "'a  b'") (modeWith "'a b'") .standard TypeText.heuristic).result =
        .ok cs ∧
      ((Change.flattenAll cs).map fun c => (c.path,c.descriptor.effect)) =
        [(.text "Mode",.modified .type .equivalent),
          (.text "Mode.fast",.modified .enumValue .unrelated)] := by
  have htold : ((modules (modeWith "'a  b'") (modeWith "'a b'") .standard
      TypeText.heuristic).result.toOption.map fun cs =>
        (Change.flattenAll cs).map fun c => (c.path,c.descriptor.effect)) =
      some [(.text "Mode",.modified .type .equivalent),
        (.text "Mode.fast",.modified .enumValue .unrelated)] := by
    decide +kernel
  exact ⟨by decide +kernel,by decide +kernel,by decide +kernel,by decide +kernel,
    exists_ok_of_toOption htold⟩

end Diff

end ApiRelease
