import ApiRelease.Proofs.Keys
import ApiRelease.Proofs.Silence

/-! # A module compared with itself

Between a declaration and itself only one check can find anything: type parameters are
looked up by name and the last of a name is found, so an earlier one that differs from
it looks changed. Types are never asked about, and no problem is filed. So comparing a
module with itself reports something just if one of the declarations that it comes to
has such type parameters.
-/
namespace ApiRelease

namespace Reorder

variable {olds news : List Parameter}

theorem lastPlace?_eq (ps : List Parameter) (name : String) : lastPlace? ps name =
    ((ps.map (·.name)).zipIdx.reverse.find? fun p => p.1 == name).map (·.2) := by
  simp [lastPlace?, List.zipIdx_map, ← List.map_reverse, List.find?_map, Function.comp_def]

theorem movedNames_of_names (h : olds.map (·.name) = news.map (·.name)) : movedNames olds news = [] := by
  apply List.filter_eq_nil_iff.mpr
  intro name _
  rw [lastPlace?_eq olds, lastPlace?_eq news, h]
  split <;> simp_all

theorem not_changed_of_mem_placesFrom (h : olds.map (·.name) = news.map (·.name)) {position : Nat}
    {p : Place} (hp : p ∈ placesFrom position olds news) : p.changed = false := by
  induction olds generalizing news position with
  | nil => simp [placesFrom] at hp
  | cons old olds ih =>
    cases news with
    | nil => simp [placesFrom] at hp
    | cons new news =>
      obtain ⟨hname,hnames⟩ := List.cons_eq_cons.mp h
      rw [placesFrom] at hp
      rcases List.mem_cons.mp hp with rfl | hp
      · simp [placeOf, Place.changed, hname]
      · exact ih hnames hp

/-- Parameters that keep their names do not change places, also if some have the same
name. -/
theorem hasReordering_of_names (h : olds.map (·.name) = news.map (·.name)) :
    (detect olds news).hasReordering = false := by
  have hunlike : (placesFrom 0 olds news).filter Place.unlike = [] := by
    apply List.filter_eq_nil_iff.mpr
    intro p hp
    simp [Place.unlike, not_changed_of_mem_placesFrom h hp]
  apply Bool.eq_false_iff.mpr
  intro hreordered
  rcases (evidence_of_hasReordering hreordered).2 with hmoved | hlow
  · simp [movedNames_of_names h] at hmoved
  · simp [hunlike] at hlow

end Reorder

namespace TypeParameter

/-- Type parameters of one name do not differ otherwise either. -/
def Unambiguous (ps : List TypeParameter) : Prop :=
  ∀ p ∈ ps, ∀ q ∈ ps, p.name = q.name → p.constraint = q.constraint ∧ p.default = q.default

instance (ps : List TypeParameter) : Decidable (Unambiguous ps) :=
  inferInstanceAs (Decidable (∀ p ∈ ps, ∀ q ∈ ps, p.name = q.name →
    p.constraint = q.constraint ∧ p.default = q.default))

end TypeParameter

namespace TypeParameterChange

theorem exists_find?_of_mem {ps : List TypeParameter} {p : TypeParameter} (hp : p ∈ ps) :
    ∃ l ∈ ps, find? ps p.name = some l ∧ l.name = p.name := by
  have hsome : (find? ps p.name).isSome = true :=
    List.find?_isSome.mpr ⟨p,List.mem_reverse.mpr hp,by simp⟩
  obtain ⟨l,hl⟩ := Option.isSome_iff_exists.mp hsome
  have hname : l.name = p.name := by simpa using List.find?_some hl
  exact ⟨l,List.mem_reverse.mp (List.mem_of_find?_eq_some hl),hl,hname⟩

theorem edits_eq_nil_iff {p q : TypeParameter} :
    edits p q = [] ↔ p.constraint = q.constraint ∧ p.default = q.default := by
  simp [edits]

theorem detectIn_self_eq_nil_iff {ps : List TypeParameter} :
    detectIn ps ps = [] ↔ TypeParameter.Unambiguous ps := by
  have hfound : ∀ p ∈ ps, (find? ps p.name).isNone = false := by
    intro p hp
    obtain ⟨l,-,hl,-⟩ := exists_find?_of_mem hp
    simp [hl]
  have hkept : (ps.filter fun p => (find? ps p.name).isNone) = [] :=
    List.filter_eq_nil_iff.mpr fun p hp => by simp [hfound p hp]
  simp only [detectIn, hkept, List.map_nil, List.nil_append, List.flatMap_eq_nil_iff]
  constructor
  · -- both are compared with the last of their name
    intro h p hp q hq hname
    obtain ⟨l,-,hl,-⟩ := exists_find?_of_mem hp
    have hpl := h p hp
    have hql := h q hq
    rw [← hname, hl] at hql
    rw [hl] at hpl
    obtain ⟨hpc,hpd⟩ := edits_eq_nil_iff.mp hpl
    obtain ⟨hqc,hqd⟩ := edits_eq_nil_iff.mp hql
    exact ⟨hpc.trans hqc.symm,hpd.trans hqd.symm⟩
  · intro h p hp
    obtain ⟨l,hmem,hl,hname⟩ := exists_find?_of_mem hp
    rw [hl]
    exact edits_eq_nil_iff.mpr (h p hp l hmem hname.symm)

end TypeParameterChange

namespace Classification

def ofSelf (f : Facts) : Classification :=
  match TypeParameterChange.detect f f with
  | first :: _ => plain (first.describe f.path).1 (first.describe f.path).2
  | [] => unchanged f.kind.target

theorem detectedReordering_self (f : Facts) (options : DiffOptions) :
    detectedReordering f f options = none := by
  unfold detectedReordering reordering?
  split
  · cases primarySignature f with
    | none => rfl
    | some s => simp [Reorder.hasReordering_of_names]
  · rfl

theorem ofType_self (f : Facts) (target : Target) (compareTypes : TypeOracle) :
    ofType f f target compareTypes = .ok none := by
  unfold ofType
  split
  · simp [ofRawText]
  · simp

/-- A declaration is classified against itself without a word from the oracle. -/
theorem ofPair_self (f : Facts) (options : DiffOptions) (compareTypes : TypeOracle) :
    ofPair f f options compareTypes = .ok (ofSelf f) := by
  have hafter : afterType f f f.kind.target = none :=
    afterType_eq_none_iff.mpr ⟨⟨fun _ _ => rfl,fun _ _ h => h⟩,rfl,rfl,rfl,rfl⟩
  unfold ofSelf
  cases hd : TypeParameterChange.detect f f with
  | nil =>
    have hbefore : beforeType f f options = none :=
      beforeType_eq_none_iff.mpr ⟨detectedReordering_self f options,hd,fun _ => rfl⟩
    simp only [ofPair, hbefore, ofType_self, hafter]
    rfl
  | cons first rest => exact ofPair_of_typeParameter (detectedReordering_self f options) hd

theorem signatureChanges_ofSelf (f : Facts) : (ofSelf f).signatureChanges = [] := by
  unfold ofSelf
  split <;> rfl

theorem anomalies_ofSelf (f : Facts) : (ofSelf f).anomalies = [] := by
  unfold ofSelf
  split <;> rfl

theorem isEquivalent_ofSelf_iff {f : Facts} :
    (ofSelf f).isEquivalent = true ↔ TypeParameter.Unambiguous (typeParametersOf f) := by
  rw [← TypeParameterChange.detectIn_self_eq_nil_iff]
  change _ ↔ TypeParameterChange.detect f f = []
  unfold ofSelf
  cases TypeParameterChange.detect f f with
  | nil => simp [unchanged, isEquivalent, plain, Descriptor.plain]
  | cons first rest => simp [isEquivalent, plain, describe_effect]

end Classification

def Comparing.Unproblematic {α : Type} (x : Comparing α) : Prop :=
  ∀ side, x.notes.filterMap (·.problem? side) = []

namespace Comparing

variable {α β : Type}

theorem unproblematic_pure (a : α) : Unproblematic (pure a) := fun _ => rfl

theorem unproblematic_log (n : Notice) : Unproblematic (Traced.note (.log n)) := fun _ => rfl

theorem Unproblematic.bind {x : Comparing α} {f : α → Comparing β} (hx : x.Unproblematic)
    (hf : ∀ a, (f a).Unproblematic) : (x >>= f).Unproblematic := by
  intro side
  change (Traced.bind x f).notes.filterMap (·.problem? side) = []
  unfold Traced.bind
  split
  · exact hx side
  · next a _ => simp only [List.filterMap_append, hx side, hf a side, List.append_nil]

theorem unproblematic_mapM {f : α → Comparing β} {xs : List α}
    (h : ∀ x ∈ xs, (f x).Unproblematic) : (xs.mapM f).Unproblematic := by
  induction xs with
  | nil => exact unproblematic_pure []
  | cons x xs ih =>
    rw [List.mapM_cons]
    refine (h x List.mem_cons_self).bind fun y => ?_
    exact (ih fun z hz => h z (List.mem_cons_of_mem _ hz)).bind fun ys => unproblematic_pure _

theorem mapM_congr {f g : α → Comparing β} {xs : List α} (h : ∀ x ∈ xs, f x = g x) :
    xs.mapM f = xs.mapM g := by
  induction xs with
  | nil => rfl
  | cons x xs ih =>
    rw [List.mapM_cons, List.mapM_cons, h x List.mem_cons_self,
      ih fun y hy => h y (List.mem_cons_of_mem _ hy)]

end Comparing

namespace Diff

variable {options : DiffOptions} {compareTypes : TypeOracle} {descend : Descent} {place : Place}

theorem modifiedChange_self (options : DiffOptions) (compareTypes : TypeOracle) (descend : Descent)
    (place : Place) (d : Declaration) :
    modifiedChange options compareTypes descend place d d = do
      let inside ← descend d d place.depth place.ancestors
      return if (Classification.ofSelf d.toFacts).isEquivalent && inside.isEmpty then none
        else some (modifiedWith place d d (.ofSelf d.toFacts) inside) := by
  have hnone : signatureChanges options d d place (.ofSelf d.toFacts) = .ok [] :=
    signatureChanges_of_nil (Classification.signatureChanges_ofSelf d.toFacts) ..
  unfold modifiedChange
  simp only [Classification.ofPair_self, Classification.anomalies_ofSelf, hnone]
  rfl

/-- A level of members against themselves goes through them and does nothing else. -/
theorem level_self {members : Members} (h : members.Distinct) :
    level options compareTypes descend place members members = do
      let modified ← members.mapM fun m => modifiedChange options compareTypes descend place m.2 m.2
      return modified.filterMap id := by
  have hrenames : levelRenames options ⟨members.map fun m => (m.2,m.2),[],[]⟩ = [] :=
    Rename.detect_of_removed_nil
  unfold level
  simp only [matchMembers_self h, hrenames, List.mapM_nil, pure_bind, List.mapM_map,
    Rename.unusedOld, Rename.unusedNew, List.filter_nil, List.map_nil, List.nil_append]
  rfl

theorem level_self_congr {members : Members} (h : members.Distinct) {first second : TypeOracle}
    {inFirst inSecond : Descent}
    (hin : ∀ m ∈ members, inFirst m.2 m.2 place.depth place.ancestors =
      inSecond m.2 m.2 place.depth place.ancestors) :
    level options first inFirst place members members =
    level options second inSecond place members members := by
  rw [level_self h, level_self h]
  congr 1
  apply Comparing.mapM_congr
  intro m hm
  rw [modifiedChange_self, modifiedChange_self, hin m hm]

theorem unproblematic_level_self {members : Members} (h : members.Distinct)
    (hin : ∀ m ∈ members, (descend m.2 m.2 place.depth place.ancestors).Unproblematic) :
    (level options compareTypes descend place members members).Unproblematic := by
  rw [level_self h]
  refine (Comparing.unproblematic_mapM ?_).bind fun _ => Comparing.unproblematic_pure _
  intro m hm
  rw [modifiedChange_self]
  exact (hin m hm).bind fun _ => Comparing.unproblematic_pure _

theorem mem_of_mem_comparedMembers {both : Bool} {members : Members} {m : Scalar × Declaration}
    (h : m ∈ comparedMembers both members) : m ∈ members :=
  (comparedMembers_sublist both members).subset h

/-- All levels: no oracle is asked about a declaration and itself. -/
theorem membersWithin_self_congr (first second : TypeOracle) (room : Nat) {d : Declaration}
    (h : d.WellKeyed) (depth : Nat) (ancestors : List String) :
    membersWithin options first room d d depth ancestors =
    membersWithin options second room d d depth ancestors := by
  induction room generalizing d depth ancestors with
  | zero =>
    unfold membersWithin
    rfl
  | succ room ih =>
    obtain ⟨hdistinct,hmembers⟩ := Declaration.wellKeyed_iff.mp h
    have hlevel : level options first (membersWithin options first room)
        (.inside d d depth ancestors) (comparedMembers (bothSigned d d) d.members)
        (comparedMembers (bothSigned d d) d.members) =
        level options second (membersWithin options second room)
          (.inside d d depth ancestors) (comparedMembers (bothSigned d d) d.members)
          (comparedMembers (bothSigned d d) d.members) := by
      apply level_self_congr (hdistinct.sublist (comparedMembers_sublist _ _))
      intro m hm
      exact ih (hmembers m (mem_of_mem_comparedMembers hm)) _ _
    simp only [membersWithin, hlevel]

theorem unproblematic_membersWithin_self (room : Nat) {d : Declaration} (h : d.WellKeyed)
    (depth : Nat) (ancestors : List String) :
    (membersWithin options compareTypes room d d depth ancestors).Unproblematic := by
  have hstop : ∀ text, Comparing.Unproblematic
      (do Traced.note (.log (.debug text)); return ([] : List Change)) := fun text =>
    (Comparing.unproblematic_log _).bind fun _ => Comparing.unproblematic_pure _
  induction room generalizing d depth ancestors with
  | zero =>
    unfold membersWithin
    split
    · exact Comparing.unproblematic_pure _
    · exact hstop _
  | succ room ih =>
    obtain ⟨hdistinct,hmembers⟩ := Declaration.wellKeyed_iff.mp h
    simp only [membersWithin]
    split
    · exact Comparing.unproblematic_pure _
    · split
      · exact hstop _
      · apply unproblematic_level_self (hdistinct.sublist (comparedMembers_sublist _ _))
        intro m hm
        exact ih (hmembers m (mem_of_mem_comparedMembers hm)) _ _

section Walk

variable {e p q : Declaration} {depth : Nat} {ancestors : List String}

/-- From an export and itself the comparison comes to its declarations and themselves. -/
theorem Compared.eq_of_self (he : e.WellKeyed) (h : Compared options e e p q depth ancestors) :
    p = q ∧ p ∈ e.walk := by
  induction h with
  | itself => exact ⟨rfl,e.mem_walk_self⟩
  | @member p q r s _ _ _ _ hm ih =>
    obtain ⟨rfl,hp⟩ := ih
    have hdistinct : Members.Distinct (comparedMembers (bothSigned p p) p.members) :=
      (he p hp).sublist (comparedMembers_sublist _ _)
    rw [matchMembers_self hdistinct] at hm
    obtain ⟨m,hmem,hpair⟩ := List.mem_map.mp hm
    cases hpair
    have hwalk : m.2 ∈ p.walk :=
      Declaration.mem_walk.mpr (Or.inr ⟨m,mem_of_mem_comparedMembers hmem,m.2.mem_walk_self⟩)
    exact ⟨rfl,Declaration.mem_walk_trans hwalk hp⟩

theorem quiet_self_iff : Quiet options compareTypes p p ↔
    TypeParameter.Unambiguous (typeParametersOf p.toFacts) := by
  unfold Quiet
  simp only [Classification.ofPair_self, Except.ok.injEq, exists_eq_left',
    Classification.isEquivalent_ofSelf_iff]

/-- An export is passed over against itself just if no declaration that the comparison
comes to has two type parameters of one name that differ. -/
theorem modifiedChange_self_eq_none_iff (he : e.WellKeyed) :
    (modifiedChange options compareTypes
      (membersWithin options compareTypes options.maxDepth.toNat) .top e e).result = .ok none ↔
    ∀ d depth ancestors, Compared options e e d d depth ancestors →
      TypeParameter.Unambiguous (typeParametersOf d.toFacts) := by
  rw [modifiedChange_top_eq_none_iff]
  · constructor
    · intro h d depth ancestors hr
      exact quiet_self_iff.mp (h d d depth ancestors hr).quiet
    · intro h p q depth ancestors hr
      obtain ⟨rfl,-⟩ := hr.eq_of_self he
      exact ⟨quiet_self_iff.mpr (h p depth ancestors hr),fun _ _ => rfl⟩
  · intro p q depth ancestors hr
    obtain ⟨rfl,-⟩ := hr.eq_of_self he
    exact ⟨_,Classification.ofPair_self _ _ _,
      fun _ => Classification.signatureChanges_ofSelf p.toFacts⟩

end Walk

def Compares (options : DiffOptions) (m : Module) (d : Declaration) : Prop :=
  ∃ e ∈ m.exports, ∃ depth ancestors, Compared options e.2 e.2 d d depth ancestors

section Modules

variable {m : Module} (hm : m.WellKeyed)
include hm

theorem modules_self_congr (options : DiffOptions) (first second : TypeOracle) :
    modules m m options first = modules m m options second := by
  unfold modules
  simp only
  rw [level_self_congr hm.exports fun e he =>
    membersWithin_self_congr _ (typeComparer options second) _ (hm.members e he) _ _]

theorem unproblematic_modules_self (options : DiffOptions) (oracle : TypeOracle) :
    (modules m m options oracle).Unproblematic := by
  unfold modules
  refine (unproblematic_level_self hm.exports fun e he =>
    unproblematic_membersWithin_self _ (hm.members e he) _ _).bind fun _ => ?_
  exact (Comparing.unproblematic_log _).bind fun _ => Comparing.unproblematic_pure _

theorem modules_self_eq_nil_iff (options : DiffOptions) (oracle : TypeOracle) :
    (modules m m options oracle).result = .ok [] ↔
    ∀ d, Compares options m d → TypeParameter.Unambiguous (typeParametersOf d.toFacts) := by
  rw [modules_eq_ok, level_eq_nil_iff, matchMembers_self hm.exports]
  simp only [true_and, List.forall_mem_map]
  constructor
  · rintro h d ⟨e,he,depth,ancestors,hr⟩
    exact (modifiedChange_self_eq_none_iff (hm.members e he)).mp (h e he) d depth ancestors hr
  · intro h e he
    exact (modifiedChange_self_eq_none_iff (hm.members e he)).mpr
      fun d depth ancestors hr => h d ⟨e,he,depth,ancestors,hr⟩

/-- A module against itself: whatever the oracle would have answered, the outcome is the
same, no problem is filed, and nothing is reported just if no declaration that the
comparison comes to has two type parameters of one name that differ. -/
theorem modules_self (options : DiffOptions) (oracle : TypeOracle) :
    (∀ other, modules m m options other = modules m m options oracle) ∧
    (∀ side, withProblems side (modules m m options oracle).notes m = m) ∧
    ∃ cs, (modules m m options oracle).result = .ok cs ∧
      (cs = [] ↔ ∀ d, Compares options m d →
        TypeParameter.Unambiguous (typeParametersOf d.toFacts)) := by
  refine ⟨fun other => modules_self_congr hm options other oracle,?_,?_⟩
  · intro side
    simp only [withProblems, unproblematic_modules_self hm options oracle side, List.append_nil]
  · obtain ⟨cs,hcs⟩ := modules_ok (TypeText.heuristic_answers _) m m options
    rw [modules_self_congr hm options TypeText.heuristic oracle] at hcs
    have hnil : cs = [] ↔ (modules m m options oracle).result = .ok [] := by simp [hcs]
    exact ⟨cs,hcs,hnil.trans (modules_self_eq_nil_iff hm options oracle)⟩

end Modules

def boxTwice : Declaration :=
  { Declaration.bare .interface "Shapes.Box" "Box" [] with
    parent := some "Shapes"
    typeInfo := some ⟨"Box<T>","Box<T>",[],[],[],[],[],
      [⟨"T",some "object",none⟩,⟨"T",some "string",none⟩],none,none⟩ }

def shapes : Declaration := .bare .namespaceDecl "Shapes" "Shapes" [("Box",boxTwice)]

/-- The box looks changed against itself. An oracle whose failures nobody recovers from is
no hindrance. -/
theorem modules_self_of_shapes : ∃ cs,
    (modules (.ofExports [shapes] "<memory>" "" []) (.ofExports [shapes] "<memory>" "" [])
      .standard fun _ _ => .error (.raised .foreign "no answer")).result = .ok cs ∧ cs ≠ [] := by
  have hm : (Module.ofExports [shapes] "<memory>" "" []).WellKeyed := by decide +kernel
  obtain ⟨-,-,cs,hcs,hiff⟩ := modules_self hm .standard fun _ _ =>
    .error (.raised .foreign "no answer")
  have hbox : Compares .standard (.ofExports [shapes] "<memory>" "" []) boxTwice :=
    ⟨("Shapes",shapes),List.mem_singleton.mpr rfl,1,["Shapes"],
      .member .itself ⟨rfl,by decide,by simp⟩ (List.mem_singleton.mpr rfl)⟩
  refine ⟨cs,hcs,?_⟩
  intro hnil
  exact absurd (hiff.mp hnil boxTwice hbox) (by decide)

end Diff

end ApiRelease
