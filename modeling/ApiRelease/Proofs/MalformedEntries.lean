import ApiRelease.Proofs.Exports

/-! # Entries that cannot be read

A loader passes over an entry that it cannot read and reports why. It recovers from an
absent field, a wrong shape and a malformed value, and these are the causes that reading
has nearly everywhere. Two others are left: a signature that is no table, and an
infinite number in a location. Either, in an entry or in a member at any depth, may end
the loading of the whole module. So may a number that is too long to be written, but only
outside the entries: among the module's own problems, or as its name or its source.
-/
namespace ApiRelease

variable {failure : Fault → Prop}

/-- Reading fails for a cause that loaders recover from, if it fails. -/
abbrev Recovers {α : Type} (x : Except Fault α) : Prop :=
  Ends (fun f => f.isOfEntry = true) (fun _ => True) x

theorem Recovers.or {α : Type} {x : Except Fault α} (h : Recovers x) {other : Fault → Prop} :
    Ends (fun f => f.isOfEntry = true ∨ other f) (fun _ => True) x := h.mono fun _ => Or.inl

theorem Recovers.mapM {α β : Type} {f : α → Except Fault β} {as : List α}
    (h : ∀ a ∈ as, Recovers (f a)) : Recovers (as.mapM f) :=
  (Ends.mapM h).weaken fun _ _ => trivial

theorem Fault.isOfEntry_of_isOfValue {f : Fault} (h : f.isOfValue = true) : f.isOfEntry = true :=
  (Bool.and_eq_true_iff.mp h).1

def Value.IsInfinite (v : Value) : Prop :=
  ∃ x negative, v = .float x ∧ Decimal.parts x = .infinite negative

def NumberFault (numbers : List Value) (f : Fault) : Prop :=
  f.isOfEntry = true ∨ (f = .integerOfInfinity ∧ ∃ v ∈ numbers, v.IsInfinite)

theorem NumberFault.mono {vs ws : List Value} {f : Fault} (h : NumberFault vs f) (hsub : vs ⊆ ws) :
    NumberFault ws f := by
  rcases h with hf | ⟨hf,v,hv,hinfinite⟩
  · exact Or.inl hf
  · exact Or.inr ⟨hf,v,hsub hv,hinfinite⟩

def SignatureFault (signatures : List Value) (f : Fault) : Prop :=
  f.isOfEntry = true ∨ ∃ v ∈ signatures, Declaration.isTable v = false ∧ f = .noField v.typeName

theorem SignatureFault.mono {vs ws : List Value} {f : Fault} (h : SignatureFault vs f)
    (hsub : vs ⊆ ws) : SignatureFault ws f := by
  rcases h with hf | ⟨v,hv,hshape⟩
  · exact Or.inl hf
  · exact Or.inr ⟨v,hsub hv,hshape⟩

namespace Value

theorem integerIn_ends (base : Nat) (given : Scalar) (cs : List Char) :
    Ends (fun f => f.isOfValue = true) (fun _ => True) (integerIn base given cs) := by
  unfold integerIn
  split
  · exact .ok trivial
  · exact .error rfl
  · exact .error rfl

/-- What is no whole number is a fault of the value, unless it is infinite. -/
theorem toInt_ends (v : Value) :
    Ends (fun f => f.isOfValue = true ∨ (f = .integerOfInfinity ∧ v.IsInfinite)) (fun _ => True)
      v.toInt := by
  unfold toInt
  split
  · exact .ok trivial
  · exact .ok trivial
  · next x =>
    split
    · exact .error (Or.inl rfl)
    · next negative hx => exact .error (Or.inr ⟨rfl,x,negative,rfl,hx⟩)
    · exact .ok trivial
  · exact (integerIn_ends ..).mono fun _ => Or.inl
  · exact (integerIn_ends ..).mono fun _ => Or.inl
  · exact .error (Or.inl rfl)

theorem shown_recovers (v : Value) : Recovers v.shown :=
  (v.shown_ends.mono fun _ hf => hf.1 ▸ rfl).weaken fun _ _ => trivial

theorem optionalShown_recovers (v : Value) : Recovers v.optionalShown :=
  (v.optionalShown_ends.mono fun _ hf => hf.1 ▸ rfl).weaken fun _ _ => trivial

theorem mapM_shown_recovers (vs : List Value) : Recovers (vs.mapM (·.shown)) :=
  .mapM fun v _ => v.shown_recovers

theorem index_recovers (v : Value) (key : String) : Recovers (v.index key) := by
  unfold index
  split
  · split
    · exact .ok trivial
    · exact .error rfl
  · exact .error rfl

end Value

/-- A field that is not given stands for a value that can be read. -/
theorem Fields.getD_ends {α : Type} {cause : Value → Fault → Prop} {read : Value → Except Fault α}
    (hread : ∀ v, Ends (cause v) (fun _ => True) (read v)) (fs : Fields) (key : String)
    {fallback : Value} {a : α} (h : read fallback = .ok a) :
    Ends (cause (fs.get key)) (fun _ => True) (read (fs.getD key fallback)) := by
  unfold Fields.get Fields.getD
  cases Fields.find? key fs with
  | none => exact h ▸ .ok trivial
  | some v => exact hread v

theorem Fields.toInt_getD_ends (fs : Fields) (key : String) (n : Int) :
    Ends (NumberFault [fs.get key]) (fun _ => True) (fs.getD key (.int n)).toInt :=
  (Fields.getD_ends Value.toInt_ends fs key rfl).mono fun _ hf =>
    hf.imp Fault.isOfEntry_of_isOfValue fun h => ⟨h.1,_,List.mem_cons_self,h.2⟩

/-! ## Parts of a declaration -/

theorem TypeParameter.ofValue_recovers (v : Value) : Recovers (ofValue v) := by
  refine (v.index_recovers "name").bind fun name _ => name.shown_recovers.bind fun _ _ => ?_
  refine (Value.optionalShown_recovers _).bind fun _ _ => ?_
  exact (Value.optionalShown_recovers _).bind fun _ _ => .ok trivial

theorem Parameter.ofValue_recovers (v : Value) : Recovers (ofValue v) := by
  refine (v.index_recovers "name").bind fun name _ => name.shown_recovers.bind fun _ _ => ?_
  refine (Value.shown_recovers _).bind fun _ _ => ?_
  exact (Value.optionalShown_recovers _).bind fun _ _ => .ok trivial

theorem Property.ofValue_recovers (v : Value) : Recovers (ofValue v) := by
  refine (v.index_recovers "name").bind fun name _ => name.shown_recovers.bind fun _ _ => ?_
  exact (Value.shown_recovers _).bind fun _ _ => .ok trivial

theorem Signature.ofValue_ends (v : Value) :
    Ends (SignatureFault [v]) (fun _ => True) (ofValue v) := by
  cases v with
  | table fs =>
    have hread : Recovers (ofValue (.table fs)) := by
      change Recovers ((Fields.get fs "parameters").entries.mapM Parameter.ofValue >>= _)
      refine (Ends.mapM fun p _ => Parameter.ofValue_recovers p).bind fun _ _ => ?_
      refine (Value.shown_recovers _).bind fun _ _ => ?_
      refine (Ends.mapM fun p _ => TypeParameter.ofValue_recovers p).bind fun _ _ => ?_
      exact (Value.shown_recovers _).bind fun _ _ => .ok trivial
    exact hread.or
  | _ => exact .error (Or.inr ⟨_,List.mem_cons_self,rfl,rfl⟩)

def TypeInfo.signatureDocuments (fs : Fields) : List Value :=
  (fs.renamed "call_signatures" "callSignatures").entries ++
    (fs.renamed "construct_signatures" "constructSignatures").entries

theorem TypeInfo.ofFields_ends (fs : Fields) :
    Ends (SignatureFault (signatureDocuments fs)) (fun _ => True) (ofFields fs) := by
  have hsignature (v : Value) (hv : v ∈ signatureDocuments fs) :=
    (Signature.ofValue_ends v).mono fun f hf => hf.mono (List.cons_subset.mpr ⟨hv,List.nil_subset _⟩)
  refine (Value.shown_recovers _).or.bind fun _ _ => ?_
  refine (Value.shown_recovers _).or.bind fun _ _ => ?_
  refine (Value.mapM_shown_recovers _).or.bind fun _ _ => ?_
  refine (Value.mapM_shown_recovers _).or.bind fun _ _ => ?_
  refine (Ends.mapM fun v hv => hsignature v (List.mem_append_left _ hv)).bind fun _ _ => ?_
  refine (Ends.mapM fun v hv => hsignature v (List.mem_append_right _ hv)).bind fun _ _ => ?_
  refine (Ends.mapM fun p _ => (Property.ofValue_recovers p).or).bind fun _ _ => ?_
  refine (Ends.mapM fun p _ => (TypeParameter.ofValue_recovers p).or).bind fun _ _ => ?_
  refine (Value.optionalShown_recovers _).or.bind fun _ _ => ?_
  exact (Value.optionalShown_recovers _).or.bind fun _ _ => .ok trivial

theorem Metadata.ofFields_recovers (fs : Fields) : Recovers (ofFields fs) := by
  refine (Value.optionalShown_recovers _).bind fun _ _ => ?_
  refine (Value.optionalShown_recovers _).bind fun _ _ => ?_
  exact (Value.optionalShown_recovers _).bind fun _ _ => .ok trivial

def Position.numberDocuments (fs : Fields) : List Value :=
  [fs.get "line",fs.get "column",fs.get "offset"]

theorem Position.ofFields_ends (fs : Fields) :
    Ends (NumberFault (numberDocuments fs)) (fun _ => True) (ofFields fs) := by
  have hnumber (key : String) (n : Int) (hkey : fs.get key ∈ numberDocuments fs) :=
    (fs.toInt_getD_ends key n).mono fun f hf => hf.mono (List.cons_subset.mpr ⟨hkey,List.nil_subset _⟩)
  refine (hnumber "line" 1 (by simp [numberDocuments])).bind fun _ _ => ?_
  refine (hnumber "column" 0 (by simp [numberDocuments])).bind fun _ _ => ?_
  exact (hnumber "offset" 0 (by simp [numberDocuments])).bind fun _ _ => .ok trivial

def Span.numberDocuments (fs : Fields) : List Value :=
  Position.numberDocuments (fs.get "start").fieldsOrNone ++
    Position.numberDocuments (fs.get "end").fieldsOrNone

theorem Span.ofFields_ends (fs : Fields) :
    Ends (NumberFault (numberDocuments fs)) (fun _ => True) (ofFields fs) := by
  have hstart := (Position.ofFields_ends (fs.get "start").fieldsOrNone).mono fun f hf =>
    (hf.mono (List.subset_append_left _ _) : NumberFault (numberDocuments fs) f)
  have hstop := (Position.ofFields_ends (fs.get "end").fieldsOrNone).mono fun f hf =>
    (hf.mono (List.subset_append_right _ _) : NumberFault (numberDocuments fs) f)
  exact hstart.bind fun _ _ => hstop.bind fun _ _ => .ok trivial

namespace Declaration

/-- Something in the table of a declaration, or of a member of it at any depth, is of a
shape that reading cannot deal with. -/
inductive Misplaced : Fields → Fault → Prop
  | signature {fs : Fields} {v : Value}
      (hv : v ∈ TypeInfo.signatureDocuments (fs.renamed "type_info" "typeInfo").fieldsOrNone)
      (h : isTable v = false) : Misplaced fs (.noField v.typeName)
  | number {fs : Fields} {v : Value}
      (hv : v ∈ Span.numberDocuments (fs.get "location").fieldsOrNone) (h : v.IsInfinite) :
      Misplaced fs .integerOfInfinity
  | member {fs ms : Fields} {given : Option Scalar} {f : Fault}
      (hm : (given,.table ms) ∈ memberTables (fs.get "children")) (h : Misplaced ms f) :
      Misplaced fs f

theorem recordIn_ends {α : Type} {read : Fields → Except Fault α} {v : Value}
    (h : Ends failure (fun _ => True) (read v.fieldsOrNone)) :
    Ends failure (fun _ => True) (recordIn read v) := by
  cases v with
  | table fs =>
    change Ends failure _ ((read fs).map some)
    cases hr : read fs with
    | error f => exact .error (h.of_eq_error hr)
    | ok a => exact .ok trivial
  | _ => exact .ok trivial

theorem factsIn_ends (fs : Fields) (parent : Option String) (path name : String) (kind : NodeKind)
    (modifiers : Subset Modifier) :
    Ends (fun f => f.isOfEntry = true ∨ Misplaced fs f) (fun _ => True)
      (factsIn fs parent path name kind modifiers) := by
  have hlocation := (Span.ofFields_ends (fs.get "location").fieldsOrNone).mono fun f hf =>
    (hf.imp_right fun ⟨h,v,hv,hinfinite⟩ => h ▸ .number hv hinfinite :
      f.isOfEntry = true ∨ Misplaced fs f)
  have htype := (TypeInfo.ofFields_ends
    (fs.renamed "type_info" "typeInfo").fieldsOrNone).mono fun f hf =>
      (hf.imp_right fun ⟨v,hv,hshape,h⟩ => h ▸ .signature hv hshape :
        f.isOfEntry = true ∨ Misplaced fs f)
  refine (recordIn_ends hlocation).bind fun _ _ => ?_
  refine (Value.optionalShown_recovers _).or.bind fun _ _ => ?_
  refine (recordIn_ends htype).bind fun _ _ => ?_
  refine (Recovers.or (recordIn_ends (Metadata.ofFields_recovers _))).bind fun _ _ => ?_
  refine (Value.mapM_shown_recovers _).or.bind fun _ _ => ?_
  exact (Value.mapM_shown_recovers _).or.bind fun _ _ => .ok trivial

theorem nameIn_recovers (fs : Fields) (given : Option Scalar) : Recovers (nameIn fs given) :=
  (Value.shown_recovers _).bind fun _ _ => .ok trivial

theorem kindIn_recovers (fs : Fields) (name : String) : Recovers (kindIn fs name) := by
  refine (Value.shown_recovers _).bind fun text _ => ?_
  dsimp only
  split
  · exact .ok trivial
  · exact .error rfl

theorem pathIn_recovers (fs : Fields) (parent : Option String) (name : String) :
    Recovers (pathIn fs parent name) := by
  unfold pathIn
  dsimp only
  split
  · exact Value.shown_recovers _
  · split
    · exact .ok trivial
    · exact .ok trivial

theorem modifiersIn_recovers (path : String) (vs : List Value) :
    Recovers (modifiersIn path vs).result := by
  induction vs with
  | nil => exact .ok trivial
  | cons v rest ih =>
    unfold modifiersIn
    rw [Traced.result_bind]
    refine v.shown_recovers.bind fun given _ => ?_
    split
    · rw [Traced.result_bind]
      exact ih.bind fun _ _ => .ok trivial
    · exact ih

/-- A table is read as a declaration, or it cannot be for a cause that loaders recover
from, or something is misplaced in it. -/
theorem decode_ends (fs : Fields) (given : Option Scalar) (parent : Option String) :
    Ends (fun f => f.isOfEntry = true ∨ Misplaced fs f) (fun _ => True)
      (decode (.table fs) given parent).result := by
  have hmember (path : String) (e : Option Scalar × Value)
      (he : e ∈ memberTables (fs.get "children")) :
      Ends (fun f => f.isOfEntry = true ∨ Misplaced fs f) (fun _ => True)
        ((decode e.2 e.1 (some path)).result >>= fun d => .ok (memberKey e.1 d,d)) := by
    obtain ⟨key,v⟩ := e
    cases v with
    | table ms =>
      -- a member is smaller than the table that lists it
      have hlt : sizeOf ms < sizeOf fs := by
        have hm := sizeOf_memberTables_lt he
        have hfs := sizeOf_get_le fs "children"
        simp only [Value.table.sizeOf_spec] at hm hfs
        omega
      have hread := (decode_ends ms key (some path)).mono fun f hf =>
        hf.imp_right (Misplaced.member he)
      exact hread.bind fun _ _ => .ok trivial
    | _ => exact absurd (List.mem_filter.mp he).2 (by simp [isTable])
  rw [decode, Traced.result_bind]
  refine (nameIn_recovers fs given).or.bind fun name _ => ?_
  split
  · exact .error (Or.inl rfl)
  · simp only [List.mapM_subtype, List.unattach_attach, Traced.result_bind, Traced.result_mapM,
      Traced.result_lift, Traced.result_pure]
    refine (kindIn_recovers fs name).or.bind fun kind _ => ?_
    refine (pathIn_recovers fs parent name).or.bind fun path _ => ?_
    refine (modifiersIn_recovers path _).or.bind fun _ _ => ?_
    refine (Ends.mapM (hmember path)).bind fun _ _ => ?_
    exact (factsIn_ends ..).bind fun _ _ => .ok trivial
termination_by sizeOf fs

end Declaration

/-! ## The entries of a module -/

namespace Module

inductive Told (index : Nat) (v : Value) (ds : List Declaration) (problems : List String) : Prop
  | kept {d : Declaration} (h : (Declaration.decode v none none).result = .ok d) (hd : d ∈ ds)
  | repeated {d : Declaration} (h : (Declaration.decode v none none).result = .ok d)
      (hp : "duplicate export path '" ++ d.path ++ "'" ∈ problems)
  | unread {f : Fault} (ht : Declaration.isTable v = true)
      (h : (Declaration.decode v none none).result = .error f) (hf : f.isOfEntry = true)
      (hp : entryLabel index ++ f.message ∈ problems)
  | shapeless (ht : Declaration.isTable v = false)
      (hp : entryLabel index ++ "expected an object, got " ++ v.kindName ∈ problems)

theorem Told.mono {index : Nat} {v : Value} {ds es : List Declaration} {ps qs : List String}
    (h : Told index v ds ps) (hd : ds ⊆ es) (hp : ps ⊆ qs) : Told index v es qs := by
  cases h with
  | kept h hm => exact .kept h (hd hm)
  | repeated h hm => exact .repeated h (hp hm)
  | unread ht h hf hm => exact .unread ht h hf (hp hm)
  | shapeless ht hm => exact .shapeless ht (hp hm)

structure Accounts (index : Nat) (vs : List Value) (ds : List Declaration)
    (problems : List String) : Prop where
  count : ds.length + problems.length = vs.length
  told : ∀ i v, vs[i]? = some v → Told (index + i) v ds problems
  read : ∀ d ∈ ds, ∃ v ∈ vs, (Declaration.decode v none none).result = .ok d

namespace Accounts

variable {index : Nat} {v : Value} {vs : List Value} {ds : List Declaration} {ps : List String}

theorem told_cons {es : List Declaration} {qs : List String} (h : Accounts (index + 1) vs ds ps)
    (hd : ds ⊆ es) (hp : ps ⊆ qs) (hv : Told index v es qs) :
    ∀ i w, (v :: vs)[i]? = some w → Told (index + i) w es qs := by
  intro i w hw
  cases i with
  | zero =>
    cases hw
    exact hv
  | succ i =>
    have hw := (h.told i w (by simpa using hw)).mono hd hp
    rwa [Nat.add_right_comm] at hw

theorem cons_kept {d : Declaration} (hv : (Declaration.decode v none none).result = .ok d)
    (h : Accounts (index + 1) vs ds ps) : Accounts index (v :: vs) (d :: ds) ps where
  count := by
    simp only [List.length_cons, ← h.count]
    omega
  told := h.told_cons (List.subset_cons_self d ds) (List.Subset.refl ps)
    (.kept hv List.mem_cons_self)
  read := by
    intro e he
    rcases List.mem_cons.mp he with rfl | he
    · exact ⟨v,List.mem_cons_self,hv⟩
    · obtain ⟨w,hw,hread⟩ := h.read e he
      exact ⟨w,List.mem_cons_of_mem v hw,hread⟩

theorem cons_problem {problem : String} (hv : Told index v ds (problem :: ps))
    (h : Accounts (index + 1) vs ds ps) : Accounts index (v :: vs) ds (problem :: ps) where
  count := by
    simp only [List.length_cons, ← h.count]
    omega
  told := h.told_cons (List.Subset.refl ds) (List.subset_cons_self problem ps) hv
  read := by
    intro e he
    obtain ⟨w,hw,hread⟩ := h.read e he
    exact ⟨w,List.mem_cons_of_mem v hw,hread⟩

end Accounts

/-- One of the entries cannot be read, for a cause that loaders pass on. -/
def EndedBy (vs : List Value) (f : Fault) : Prop :=
  ∃ fs, Value.table fs ∈ vs ∧ (Declaration.decode (.table fs) none none).result = .error f ∧
    f.isOfEntry = false

theorem EndedBy.of_mem {v : Value} {vs : List Value} {f : Fault} (hmem : v ∈ vs)
    (hv : Declaration.isTable v = true) (hread : (Declaration.decode v none none).result = .error f)
    (hf : ¬ f.isOfEntry = true) : EndedBy vs f := by
  cases v with
  | table fs => exact ⟨fs,hmem,hread,(Bool.not_eq_true _).mp hf⟩
  | scalar | list | pair | set => cases hv

theorem EndedBy.cons {vs : List Value} {f : Fault} (h : EndedBy vs f) (v : Value) :
    EndedBy (v :: vs) f := by
  obtain ⟨fs,hfs,hread⟩ := h
  exact ⟨fs,List.mem_cons_of_mem v hfs,hread⟩

/-- Reading accounts for every entry unless one of them ends it. -/
theorem readExports_ends (index : Nat) (taken : List String) (vs : List Value) :
    Ends (EndedBy vs) (fun p => Accounts index vs p.1 p.2) (readExports index taken vs).result := by
  -- one entry after the other; what is taken so far decides what is kept, not what ends it
  induction vs generalizing index taken with
  | nil => exact .ok ⟨rfl,by simp,by simp⟩
  | cons v rest ih =>
    have hrest (taken : List String) := (ih (index + 1) taken).mono fun f hf => hf.cons v
    cases hv : Declaration.isTable v with
    | false =>
      rw [readExports_of_shapeless hv]
      exact (hrest taken).bind fun p hp => .ok (hp.cons_problem (.shapeless hv List.mem_cons_self))
    | true =>
      cases hread : (Declaration.decode v none none).result with
      | error f =>
        rw [readExports_of_error hv hread]
        split_ifs with hentry
        · exact (hrest taken).bind fun p hp =>
            .ok (hp.cons_problem (.unread hv hread hentry List.mem_cons_self))
        · exact .error (.of_mem List.mem_cons_self hv hread hentry)
      | ok d =>
        rw [readExports_of_ok hread]
        split_ifs with htaken
        · exact (hrest taken).bind fun p hp =>
            .ok (hp.cons_problem (.repeated hread List.mem_cons_self))
        · exact (hrest (d.path :: taken)).bind fun p hp => .ok (hp.cons_kept hread)

/-- What a module is labelled with: the problems of its own, its name, unless it is given
one, and its source. -/
def labels (fs : Fields) (filename : Option String) : List Value :=
  (fs.get "errors").entries ++ (if (filename.getD "").isEmpty then [fs.get "filename"] else []) ++
    [fs.get "source"]

def Unlabelled (fs : Fields) (filename : Option String) (f : Fault) : Prop :=
  f = .numberTooLong ∧ ∃ v ∈ labels fs filename, v.hasText = false

theorem text_ends {fs : Fields} {filename : Option String} {key : String}
    (h : fs.get key ∈ labels fs filename) (fallback : String) :
    Ends (Unlabelled fs filename) (fun _ => True) (fs.text key fallback) :=
  ((fs.getD key (.text fallback)).shown_ends.mono fun _ hf =>
    ⟨hf.1,_,h,Fields.hasText_get hf.2⟩).weaken fun _ _ => trivial

theorem errors_ends (fs : Fields) (filename : Option String) :
    Ends (Unlabelled fs filename) (fun noted => noted = (fs.get "errors").entries.map (·.toText))
      (fs.texts "errors") := by
  have hshown := Ends.mapM fun v (hv : v ∈ (fs.get "errors").entries) =>
    v.shown_ends.mono fun f hf => (⟨hf.1,v,by simp [labels, hv],hf.2⟩ : Unlabelled fs filename f)
  exact hshown.weaken fun noted h => by simpa using map_eq_of_forall₂ (g := id) h

theorem filenameIn_ends (fs : Fields) (filename : Option String) :
    Ends (Unlabelled fs filename) (fun _ => True) (filenameIn fs (filename.getD "")) := by
  unfold filenameIn
  split
  · next h => exact text_ends (by simp [labels, h]) _
  · exact .ok trivial

theorem ofFields_ends (fs : Fields) (filename : Option String) :
    Ends (fun f => EndedBy (exportEntries (fs.get "exports")) f ∨ Unlabelled fs filename f)
      (fun m => ∃ problems, m.errors = (fs.get "errors").entries.map (·.toText) ++ problems ∧
        Accounts 0 (exportEntries (fs.get "exports")) (m.exports.map (·.2)) problems)
      (ofFields fs filename).result := by
  have hreads := (readExports_ends 0 [] (exportEntries (fs.get "exports"))).and_eq_ok
  rw [ofFields, Traced.result_bind]
  refine ((errors_ends fs filename).mono fun _ => Or.inr).bind fun noted hnoted => ?_
  rw [Traced.result_bind]
  refine (hreads.mono fun _ => Or.inl).bind fun p ⟨haccounts,hread⟩ => ?_
  rw [Traced.result_bind]
  refine ((filenameIn_ends fs filename).mono fun _ => Or.inr).bind fun name _ => ?_
  rw [Traced.result_bind]
  refine ((text_ends (by simp [labels]) "").mono fun _ => Or.inr).bind fun source _ => ?_
  have hexports := exports_ofExports (readExports_paths hread).1
  exact .ok ⟨p.2,by rw [← hnoted]; rfl,by simpa [hexports, Function.comp_def] using haccounts⟩

theorem misplaced_of_decode {fs : Fields} {given : Option Scalar} {parent : Option String} {f : Fault}
    (h : (Declaration.decode (.table fs) given parent).result = .error f)
    (hf : f.isOfEntry = false) : Declaration.Misplaced fs f := by
  rcases (Declaration.decode_ends fs given parent).of_eq_error h with hentry | hmisplaced
  · rw [hf] at hentry
    cases hentry
  · exact hmisplaced

/-- A module is loaded with each entry accounted for, the ones that cannot be read among
its problems, or the loading ends with the fault of an entry in which something is
misplaced, or because a label of the module is too long to be written. -/
theorem entries_are_accounted_for (fs : Fields) (filename : Option String) :
    (∃ m problems, (ofValue (.table fs) filename).result = .ok m ∧
      m.errors = (fs.get "errors").entries.map (·.toText) ++ problems ∧
      Accounts 0 (exportEntries (fs.get "exports")) (m.exports.map (·.2)) problems) ∨
    (∃ es f, Value.table es ∈ exportEntries (fs.get "exports") ∧
      (Declaration.decode (.table es) none none).result = .error f ∧ f.isOfEntry = false ∧
      Declaration.Misplaced es f ∧ (ofValue (.table fs) filename).result = .error f) ∨
    ((∃ v ∈ labels fs filename, v.hasText = false) ∧
      (ofValue (.table fs) filename).result = .error .numberTooLong) := by
  have hends := ofFields_ends fs filename
  change (∃ m problems, (ofFields fs filename).result = .ok m ∧ _) ∨ _
  cases hm : (ofFields fs filename).result with
  | ok m =>
    obtain ⟨problems,herrors,haccounts⟩ := hends.of_eq_ok hm
    exact Or.inl ⟨m,problems,rfl,herrors,haccounts⟩
  | error f =>
    rcases hends.of_eq_error hm with ⟨es,hes,hdecode,hf⟩ | ⟨rfl,hlabel⟩
    · exact Or.inr (Or.inl ⟨es,f,hes,hdecode,hf,misplaced_of_decode hdecode hf,hm⟩)
    · exact Or.inr (Or.inr ⟨hlabel,hm⟩)

def textForSignature : Fields :=
  [("kind",.text "function"),("name",.text "f"),
    ("type_info",.table [("call_signatures",.list [.text "x"])])]

/-- The text is not reported as a problem of the entry; it ends the loading. -/
theorem loading_ended_by_signature :
    (ofValue (.table [("exports",.list [.table textForSignature])]) none).result =
      .error (.noField "str") := by
  have hdecode : (Declaration.decode (.table textForSignature) none none).result =
      .error (.noField "str") := by
    rw [Declaration.decode]
    rfl
  have hread : (readExports 0 [] [.table textForSignature]).result = .error (.noField "str") := by
    simp only [readExports, Traced.result_bind, Traced.result_attempt, hdecode]
    rfl
  change (ofFields [("exports",.list [.table textForSignature])] none).result = _
  rw [ofFields, Traced.result_bind]
  change (readExports 0 [] [.table textForSignature] >>= _).result = _
  rw [Traced.result_bind, hread]
  rfl

end Module

end ApiRelease
