import ApiRelease.Policy.Basic
import ApiRelease.Proofs.DeclarationDocuments
import ApiRelease.Proofs.Listing
import ApiRelease.Proofs.Problems

/-! # Documents of changes

The document of a change names the declarations that the change refers to and does not
hold them. All else comes back when it is read: the description passes its checks again,
the context keeps its confidence, and so on for everything nested in the change. What a
policy says of a change comes back with it.
-/
namespace ApiRelease

theorem Descriptor.ofValue_toValue (d : Descriptor) : Descriptor.ofValue d.toValue = .ok d := by
  have hparts := d.valid.accepted
  obtain ⟨target,effect,tags⟩ := d
  cases effect <;> exact hparts

theorem Context.ofValue_toValue (c : Context) : Context.ofValue c.toValue = .ok c := by
  obtain ⟨nested,depth,ancestors,renameConfidence,modifierChange,oldType,newType⟩ := c
  cases renameConfidence <;> rfl

namespace Finding

def unlinked (f : Finding) : Finding := { f with oldNode := none, newNode := none }

theorem ofFields_toFields (f : Finding) (nested : List Value) :
    ofFields (f.toFields nested) = .ok f.unlinked := by
  have hdescriptor := f.descriptor.ofValue_toValue
  have hcontext := f.context.ofValue_toValue
  obtain ⟨descriptor,path,nodeKind,explanation,context,oldLocation,newLocation,oldNode,newNode,
    parameterAnalysis⟩ := f
  refine bind_eq_ok.mpr ⟨_,rfl,bind_eq_ok.mpr ⟨_,hdescriptor,bind_eq_ok.mpr ⟨_,rfl,
    bind_eq_ok.mpr ⟨_,rfl,bind_eq_ok.mpr ⟨_,hcontext,?_⟩⟩⟩⟩⟩
  cases oldLocation <;> cases newLocation <;> rfl

end Finding

namespace Change

mutual

def unlinked : Change → Change
  | ⟨finding,nested⟩ => ⟨finding.unlinked,unlinkedAll nested⟩

def unlinkedAll : List Change → List Change
  | [] => []
  | c :: rest => unlinked c :: unlinkedAll rest

end

theorem decode_eq_ok {fs : Fields} {c : Change} : decode (.table fs) = .ok c ↔
    ∃ finding nested, Finding.ofFields fs = .ok finding ∧ nestedShape fs = .ok () ∧
      (fs.get "nested_changes").entries.mapM decode = .ok nested ∧
      { toFinding := finding, nested } = c := by
  rw [decode]
  simp only [List.mapM_subtype, List.unattach_attach, bind_eq_ok]
  constructor
  · rintro ⟨finding,hf,⟨⟩,hs,nested,hn,h⟩
    exact ⟨finding,nested,hf,hs,hn,Except.ok.inj h⟩
  · rintro ⟨finding,nested,hf,hs,hn,h⟩
    exact ⟨finding,hf,(),hs,nested,hn,congrArg Except.ok h⟩

/-- A forest comes back change by change, each with those nested in it. -/
theorem mapM_decode_toValues (cs : List Change) : (toValues cs).mapM decode = .ok (unlinkedAll cs) := by
  induction cs using forest_induction with
  | nil => rfl
  | cons c rest inner later =>
    obtain ⟨finding,nested⟩ := c
    have hc : decode (toValue ⟨finding,nested⟩) = .ok (unlinked ⟨finding,nested⟩) :=
      decode_eq_ok.mpr ⟨_,_,finding.ofFields_toFields _,rfl,inner,rfl⟩
    rw [toValues, List.mapM_cons]
    exact bind_eq_ok.mpr ⟨_,hc,bind_eq_ok.mpr ⟨_,later,rfl⟩⟩

theorem decode_toValue (c : Change) : decode c.toValue = .ok c.unlinked := by
  obtain ⟨finding,nested⟩ := c
  exact decode_eq_ok.mpr ⟨_,_,finding.ofFields_toFields _,rfl,mapM_decode_toValues nested,rfl⟩

/-- Nothing but declarations is lost at any level. -/
theorem sameRecords_unlinkedAll (cs : List Change) : sameRecords (unlinkedAll cs) cs = true := by
  induction cs using forest_induction with
  | nil => rfl
  | cons c rest inner later =>
    obtain ⟨finding,nested⟩ := c
    have hcore : finding.unlinked.core = finding.core := rfl
    simp [unlinkedAll, unlinked, sameRecords, sameRecord, hcore, inner, later]

theorem sameRecord_unlinked (c : Change) : c.unlinked.sameRecord c = true := by
  obtain ⟨finding,nested⟩ := c
  have hcore : finding.unlinked.core = finding.core := rfl
  simp [unlinked, sameRecord, hcore, sameRecords_unlinkedAll]

end Change

theorem Classified.ofValue_toValue (c : Classified) :
    Classified.ofValue c.toValue = .ok { c with change := c.change.unlinked } := by
  have hchange := c.change.decode_toValue
  obtain ⟨change,release,rule⟩ := c
  refine bind_eq_ok.mpr ⟨_,rfl,bind_eq_ok.mpr ⟨_,rfl,bind_eq_ok.mpr ⟨_,hchange,?_⟩⟩⟩
  cases rule <;> rfl

/-- A change, whether it was found or told by a document, comes back from its own document
as the same record at every level, and so does what any policy makes of it. -/
theorem CompiledPolicy.records_come_back (p : CompiledPolicy) (c : Change) :
    (∃ d, Change.decode c.toValue = .ok d ∧ d.sameRecord c = true) ∧
    ∃ r, Classified.ofValue (p.classify c).toValue = .ok r ∧ r.sameRecord (p.classify c) = true := by
  refine ⟨⟨c.unlinked,c.decode_toValue,c.sameRecord_unlinked⟩,
    ⟨_,(p.classify c).ofValue_toValue,?_⟩⟩
  simp [Classified.sameRecord, Change.sameRecord_unlinked]

end ApiRelease
