import ApiRelease.Proofs.Keys
import ApiRelease.Proofs.ShownTexts
import ApiRelease.Proofs.Spacing

/-! # Documents of declarations and of modules

Whatever a document gives, and under whichever spelling, reading leaves a declaration in
order: names are trimmed, paths and the paths of parents are not empty, and members stand
under distinct keys that count. A declaration in order is written in one way only, and
reading what was written gives it back with its members; so do modules, with the problems
that were noted when they were read first.
-/
namespace ApiRelease

theorem Position.ofValue_toValue (p : Position) : Position.ofValue p.toValue = .ok p := rfl

theorem Span.ofValue_toValue (s : Span) : Span.ofValue s.toValue = .ok s := rfl

theorem TypeParameter.ofValue_toValue (p : TypeParameter) :
    TypeParameter.ofValue p.toValue = .ok p := by
  obtain ⟨name,constraint,default⟩ := p
  cases constraint <;> cases default <;> rfl

theorem Parameter.ofValue_toValue (p : Parameter) : Parameter.ofValue p.toValue = .ok p := by
  obtain ⟨name,type,optional,rest,defaultValue⟩ := p
  cases defaultValue <;> rfl

theorem Property.ofValue_toValue (p : Property) : Property.ofValue p.toValue = .ok p := rfl

theorem Signature.ofValue_toValue (s : Signature) : Signature.ofValue s.toValue = .ok s := by
  have hparameters := mapM_written fun p (_ : p ∈ s.parameters) => p.ofValue_toValue
  have htypes := mapM_written fun p (_ : p ∈ s.typeParameters) => p.ofValue_toValue
  refine bind_eq_ok.mpr ⟨_,rfl,bind_eq_ok.mpr ⟨_,hparameters,bind_eq_ok.mpr ⟨_,rfl,?_⟩⟩⟩
  exact bind_eq_ok.mpr ⟨_,htypes,bind_eq_ok.mpr ⟨_,rfl,rfl⟩⟩

theorem TypeInfo.ofValue_toValue (t : TypeInfo) : TypeInfo.ofValue t.toValue = .ok t := by
  have hcalls := mapM_written fun s (_ : s ∈ t.callSignatures) => s.ofValue_toValue
  have hconstructs := mapM_written fun s (_ : s ∈ t.constructSignatures) => s.ofValue_toValue
  have hproperties := mapM_written fun p (_ : p ∈ t.properties) => p.ofValue_toValue
  have htypes := mapM_written fun p (_ : p ∈ t.typeParameters) => p.ofValue_toValue
  refine bind_eq_ok.mpr ⟨_,rfl,bind_eq_ok.mpr ⟨_,rfl,bind_eq_ok.mpr ⟨_,rfl,?_⟩⟩⟩
  refine bind_eq_ok.mpr ⟨_,Value.mapM_shown_texts _,bind_eq_ok.mpr ⟨_,Value.mapM_shown_texts _,?_⟩⟩
  refine bind_eq_ok.mpr ⟨_,hcalls,bind_eq_ok.mpr ⟨_,hconstructs,?_⟩⟩
  refine bind_eq_ok.mpr ⟨_,hproperties,bind_eq_ok.mpr ⟨_,htypes,?_⟩⟩
  exact bind_eq_ok.mpr ⟨_,Value.optionalShown_ofOption _,
    bind_eq_ok.mpr ⟨_,Value.optionalShown_ofOption _,rfl⟩⟩

theorem Metadata.ofValue_toValue (m : Metadata) : Metadata.ofValue m.toValue = .ok m := by
  obtain ⟨deprecated,deprecationMessage,defaultValue,rawComment⟩ := m
  cases deprecationMessage <;> cases defaultValue <;> cases rawComment <;> rfl

namespace Declaration

theorem modifiersIn_texts (path : String) (modifiers : List Modifier) :
    (modifiersIn path (modifiers.map fun m => .text m.name)).result = .ok (.ofList modifiers) := by
  induction modifiers with
  | nil => rfl
  | cons m rest ih =>
    have hm : Vocabulary.parse? m.name = some m := Vocabulary.parse?_name m
    rw [List.map_cons, modifiersIn]
    refine Traced.result_bind_eq_ok.mpr ⟨m.name,rfl,?_⟩
    simp only [hm, Traced.result_bind_eq_ok]
    refine ⟨_,ih,congrArg Except.ok ?_⟩
    ext n
    rw [Subset.has_insert, Subset.has_ofList, Subset.has_ofList, List.contains_cons]

theorem modifiersIn_names (path : String) (modifiers : Subset Modifier) :
    (modifiersIn path (Value.texts modifiers.names).entries).result = .ok modifiers := by
  have h := modifiersIn_texts path modifiers.toList
  rw [Subset.ofList_toList] at h
  rw [← h]
  simp only [Value.texts, Value.entries, Subset.names, List.map_map]
  rfl

/-- A record that may be missing is read back if a record is. -/
theorem recordIn_optionalValue {α : Type} {read : Fields → Except Fault α} {write : α → Value}
    (h : ∀ a, (write a).fields >>= read = .ok a) (r : Option α) :
    recordIn read (optionalValue write r) = .ok r := by
  cases r with
  | none => rfl
  | some a =>
    have hread := h a
    change recordIn read (write a) = _
    cases hv : write a with
    | table fs =>
      rw [hv] at hread
      change read fs = .ok a at hread
      rw [recordIn, hread]
      rfl
    | scalar | list | pair | set =>
      rw [hv] at hread
      cases hread

theorem factsIn_toFields {f : Facts} (hf : f.parent ≠ some "") {parent : Option String}
    (hp : f.parent.isSome = true ∨ parent = none) (members : Value) :
    factsIn (f.toFields members) parent f.path f.name f.kind f.modifiers = .ok f := by
  have hown : (if f.parent.getD "" == "" then parent else f.parent) = f.parent := by
    cases ho : f.parent with
    | none => simpa [ho] using hp
    | some own =>
      have hne : own ≠ "" := fun h => hf (h ▸ ho)
      simp [hne]
  refine factsIn_eq_ok.mpr ⟨f.location,f.parent,f.typeInfo,f.metadata,f.extended,f.implemented,
    recordIn_optionalValue Span.ofValue_toValue _,Value.optionalShown_ofOption _,
    recordIn_optionalValue TypeInfo.ofValue_toValue _,
    recordIn_optionalValue Metadata.ofValue_toValue _,Value.mapM_shown_texts _,
    Value.mapM_shown_texts _,?_⟩
  rw [hown]

theorem memberTables_membersToFields {members : Members}
    (h : ∀ m ∈ members, m.1.truthy = true) : memberTables (.table (membersToFields members)) =
    members.map fun m => (some m.1,m.2.toValue) := by
  induction members with
  | nil => rfl
  | cons m rest ih =>
    obtain ⟨k,⟨facts,members⟩⟩ := m
    have hk : localName? k = some k := by
      cases k with
      | null => cases h _ List.mem_cons_self
      | _ => rfl
    have hrest := ih fun m hm => h m (List.mem_cons_of_mem _ hm)
    simp only [memberTables, memberEntries, membersToFields, List.map_cons, hk] at hrest ⊢
    rw [List.filter_cons_of_pos rfl, hrest]

/-- What reading leaves in order at a declaration, whatever its document. -/
structure Settled (d : Declaration) : Prop where
  trimmed : Text.trim d.name = d.name
  name : d.name ≠ ""
  path : d.path ≠ ""
  parent : d.parent ≠ some ""
  keys : Members.Distinct d.members
  counted : ∀ m ∈ d.members, m.1.truthy = true
  under : ∀ m ∈ d.members, m.2.parent.isSome = true

theorem path_ne_empty_of_pathIn {fs : Fields} {parent : Option String} {name path : String}
    (hname : name ≠ "") (h : pathIn fs parent name = .ok path) : path ≠ "" := by
  unfold pathIn at h
  simp only at h
  split_ifs at h with hpath
  · exact Value.ne_empty_of_shown hpath h
  · cases parent with
    | none =>
      cases h
      exact hname
    | some p =>
      cases h
      split_ifs <;> simp [hname]

theorem truthy_memberKey (given : Option Scalar) {d : Declaration} (h : d.name ≠ "") :
    (memberKey given d).truthy = true := by
  have hname : Scalar.truthy d.name = true := by simpa [Scalar.truthy] using h
  cases given with
  | none => exact hname
  | some k =>
    simp only [memberKey]
    split_ifs with hk
    · exact hk
    · exact hname

/-- The names, the path and the parent of a declaration that was read. -/
theorem facts_of_decode {v : Value} {given : Option Scalar} {parent : Option String}
    {d : Declaration} (h : (decode v given parent).result = .ok d) :
    Text.trim d.name = d.name ∧ d.name ≠ "" ∧ d.path ≠ "" ∧
    (d.parent = parent ∨ ∃ p, p ≠ "" ∧ d.parent = some p) := by
  obtain ⟨fs,rfl⟩ := exists_fields_of_decode h
  obtain ⟨_,_,_,_,_,facts,hname,hempty,-,hpath,-,-,hfacts,rfl⟩ := decode_eq_ok.mp h
  obtain ⟨text,-,htrim⟩ := nameIn_eq_ok.mp hname
  obtain ⟨rfl,rfl,own,hown⟩ := given_of_factsIn hfacts
  have htrimmed : Text.trim facts.name = facts.name := by rw [← htrim, Text.trim_trim]
  have hne : facts.name ≠ "" := by simpa using hempty
  refine ⟨htrimmed,hne,path_ne_empty_of_pathIn hne hpath,?_⟩
  simp only [hown]
  cases own with
  | none => exact Or.inl rfl
  | some p =>
    by_cases hp : p = ""
    · exact Or.inl (by simp [hp])
    · exact Or.inr ⟨p,hp,by simp [hp]⟩

theorem settled_of_decode {v : Value} {given : Option Scalar} {parent : Option String}
    (hp : parent ≠ some "") {d : Declaration} (h : (decode v given parent).result = .ok d) :
    d.Settled := by
  obtain ⟨htrim,hname,hpath,hparent⟩ := facts_of_decode h
  obtain ⟨fs,rfl⟩ := exists_fields_of_decode h
  refine ⟨htrim,hname,hpath,?_,distinct_members_of_decode h,?_,?_⟩
  · rcases hparent with heq | ⟨p,hne,heq⟩
    · exact heq ▸ hp
    · simpa [heq] using hne
  · intro m hm
    obtain ⟨_,_,_,_,members,_,-,-,-,-,-,hmembers,-,rfl⟩ := decode_eq_ok.mp h
    obtain ⟨p,hpm,hkey⟩ := List.mem_map.mp (key_of_mem_keyed hm)
    obtain ⟨e,-,c,hc,rfl⟩ := exists_left_of_forall₂ hmembers hpm
    rw [← hkey]
    exact truthy_memberKey e.1 (facts_of_decode hc).2.1
  · intro m hm
    obtain ⟨e,-,hread⟩ := exists_decode_of_mem_members h hm
    rcases (facts_of_decode hread).2.2.2 with heq | ⟨p,-,heq⟩
    · simp [heq]
    · simp [heq]

/-- Every declaration under one that was read is left in order. -/
theorem settled_of_mem_walk {v : Value} {given : Option Scalar} {parent : Option String}
    (hp : parent ≠ some "") {d : Declaration} (h : (decode v given parent).result = .ok d) :
    ∀ c ∈ d.walk, c.Settled := by
  intro c hc
  rcases exists_decode_of_mem_walk v h c hc with rfl | ⟨_,_,_,habove,hread⟩
  · exact settled_of_decode hp h
  · rcases exists_decode_of_mem_walk v h _ habove with rfl | ⟨_,_,_,-,habove⟩
    · exact settled_of_decode (by simpa using (facts_of_decode h).2.2.1) hread
    · exact settled_of_decode (by simpa using (facts_of_decode habove).2.2.1) hread

/-- A declaration in order is read back with its members, under any name and under any
parent that it does not name itself. -/
theorem decode_toValue {d : Declaration} (h : ∀ c ∈ d.walk, c.Settled) (given : Option Scalar)
    {parent : Option String} (hp : d.parent.isSome = true ∨ parent = none) :
    (decode d.toValue given parent).result = .ok d := by
  induction d using members_induction generalizing given parent with
  | inside d ih =>
    obtain ⟨facts,members⟩ := d
    have hd : Settled ⟨facts,members⟩ := h _ (mem_walk_self _)
    have hkind : Vocabulary.parse? (Text.trim facts.kind.name) = some facts.kind := by
      cases facts.kind <;> decide
    have hcounts : (Value.text facts.path).truthy = true := by
      simpa [Value.truthy, Scalar.truthy] using hd.path
    have hpath : pathIn (facts.toFields (.table (membersToFields members))) parent facts.name =
        .ok facts.path := if_pos hcounts
    have hmembers : List.Forall₂ (fun e m => ∃ c, (decode e.2 e.1 (some facts.path)).result = .ok c ∧
        (memberKey e.1 c,c) = m) (members.map fun m => (some m.1,m.2.toValue)) members := by
      rw [List.forall₂_map_left_iff, List.forall₂_same]
      intro m hm
      have hwalk : ∀ c ∈ m.2.walk, c.Settled := fun c hc => h c (mem_walk.mpr (Or.inr ⟨m,hm,hc⟩))
      refine ⟨m.2,ih m hm hwalk (some m.1) (Or.inl (hd.under m hm)),?_⟩
      simp [memberKey, hd.counted m hm]
    rw [← memberTables_membersToFields hd.counted] at hmembers
    rw [toValue]
    refine decode_eq_ok.mpr ⟨facts.name,facts.path,facts.kind,facts.modifiers,members,facts,
      nameIn_eq_ok.mpr ⟨_,rfl,hd.trimmed⟩,by simpa using hd.name,kindIn_eq_ok.mpr ⟨_,rfl,hkind⟩,
      hpath,modifiersIn_names facts.path facts.modifiers,hmembers,
      factsIn_toFields hd.parent hp _,?_⟩
    rw [keyed_of_nodup hd.keys]

end Declaration

namespace Module

/-- A module is read back with its problems; none are added. -/
theorem ofValue_toValue_ofExports {ds : List Declaration} (hd : (ds.map (·.path)).Nodup)
    (hs : ∀ d ∈ ds, ∀ c ∈ d.walk, c.Settled) (filename source : String) (errors : List String) :
    (ofValue (ofExports ds filename source errors).toValue none).result =
    .ok (ofExports ds filename source errors) := by
  have hdecode : List.Forall₂ (fun v d => (Declaration.decode v none none).result = .ok d)
      (ds.map (·.toValue)) ds := by
    rw [List.forall₂_map_left_iff, List.forall₂_same]
    exact fun d hmem => Declaration.decode_toValue (hs d hmem) none (Or.inr rfl)
  have hentries : ((ofExports ds filename source errors).exports.map fun e => e.2.toValue) =
      ds.map (·.toValue) := by
    rw [exports_ofExports hd, List.map_map]
    rfl
  have hread : (readExports 0 [] (exportEntries
      ((ofExports ds filename source errors).toValue.fieldsOrNone.get "exports"))).result =
      .ok (ds,[]) := by
    change (readExports 0 [] ((ofExports ds filename source errors).exports.map
      fun e => e.2.toValue)).result = _
    rw [hentries]
    exact readExports_of_decode hdecode hd 0 (by simp)
  refine ofFields_eq_ok.mpr ⟨errors,ds,[],filename,source,Value.mapM_shown_texts _,hread,rfl,rfl,?_⟩
  rw [List.append_nil]

/-- Whatever document a module or a declaration was read from, its own document gives it
back: a module with its name, source, exports in order, nodes and problems, a declaration
with everything under it, each of which comes back on its own as well. -/
theorem documents_give_back :
    (∀ (v : Value) (filename : Option String) (m : Module), (ofValue v filename).result = .ok m →
      (ofValue m.toValue none).result = .ok m) ∧
    ∀ (v : Value) (given : Option Scalar) (parent : Option String) (d : Declaration),
      parent ≠ some "" → (Declaration.decode v given parent).result = .ok d →
      ∀ c ∈ d.walk, (Declaration.decode c.toValue none none).result = .ok c := by
  constructor
  · intro v filename m h
    obtain ⟨fs,-,h⟩ := Traced.result_bind_eq_ok.mp h
    obtain ⟨_,ds,_,_,_,-,hds,-,-,rfl⟩ := ofFields_eq_ok.mp h
    refine ofValue_toValue_ofExports (readExports_paths hds).1 ?_ _ _ _
    intro d hd
    obtain ⟨w,hw⟩ := decode_of_mem_readExports hds d hd
    exact Declaration.settled_of_mem_walk (by simp) hw
  · intro v given parent d hp h c hc
    refine Declaration.decode_toValue ?_ none (Or.inr rfl)
    intro e he
    exact Declaration.settled_of_mem_walk hp h e (Declaration.mem_walk_trans he hc)

def sizeDocument : Value :=
  .table [("kind",.text "property"),("typeInfo",.table [("signature",.text "number"),
    ("raw",.int 7)]),("metadata",.table [("rawComment",.bool true)])]

def crateDocument : Value :=
  .table [("name",.text " Crate "),("kind",.text "class"),("parent",.text ""),
    ("modifiers",.list [.text "sealed",.text "exported"]),("children",.table [("size",sizeDocument)])]

def crateModuleDocument : Value :=
  .table [("exports",.list [crateDocument]),("errors",.list [.int 1])]

def crateSize : Declaration :=
  { Declaration.bare .property "Crate.size" "size" [] with
    parent := some "Crate"
    typeInfo := some ⟨"number","7",[],[],[],[],[],[],none,none⟩
    metadata := some ⟨false,none,none,some "True"⟩ }

def crate : Declaration :=
  { Declaration.bare .classDecl "Crate" "Crate" [("size",crateSize)] with
    modifiers := Subset.insert .exported ∅ }

theorem decode_sizeDocument :
    (Declaration.decode sizeDocument (some "size") (some "Crate")).result = .ok crateSize := by
  have hproperty : Vocabulary.parse? (Text.trim "property") = some NodeKind.property := by decide
  have hsize : Text.trim "size" = "size" := by decide
  -- a number is among the texts, so the facts are read in the kernel
  obtain ⟨facts,hfacts,rfl⟩ : ∃ facts, Declaration.factsIn sizeDocument.fieldsOrNone (some "Crate")
      "Crate.size" "size" .property ∅ = .ok facts ∧ facts = crateSize.toFacts :=
    exists_ok_of_toOption (by decide +kernel)
  exact Declaration.decode_eq_ok.mpr ⟨"size","Crate.size",.property,∅,[],_,
    Declaration.nameIn_eq_ok.mpr ⟨_,rfl,hsize⟩,rfl,Declaration.kindIn_eq_ok.mpr ⟨_,rfl,hproperty⟩,
    rfl,rfl,.nil,hfacts,rfl⟩

theorem decode_crateDocument : (Declaration.decode crateDocument none none).result = .ok crate := by
  have hclass : Vocabulary.parse? (Text.trim "class") = some NodeKind.classDecl := by decide
  have hcrate : Text.trim " Crate " = "Crate" := by decide
  have hmodifiers : (Declaration.modifiersIn "Crate" [.text "sealed",.text "exported"]).result =
      .ok (Subset.insert .exported ∅) := rfl
  exact Declaration.decode_eq_ok.mpr ⟨"Crate","Crate",.classDecl,_,[("size",crateSize)],_,
    Declaration.nameIn_eq_ok.mpr ⟨_,rfl,hcrate⟩,rfl,Declaration.kindIn_eq_ok.mpr ⟨_,rfl,hclass⟩,
    rfl,hmodifiers,.cons ⟨crateSize,decode_sizeDocument,rfl⟩ .nil,rfl,rfl⟩

theorem ofValue_crateModuleDocument :
    (ofValue crateModuleDocument (some "crate.d.ts")).result =
    .ok (ofExports [crate] "crate.d.ts" "" ["1"]) := by
  have hread := readExports_of_decode (.cons decode_crateDocument .nil) (List.nodup_singleton _) 0
    fun _ _ => List.not_mem_nil
  have hone : (Value.list [.int 1]).entries.mapM (·.shown) = .ok ["1"] :=
    Value.mapM_shown_eq_ok.mpr ⟨by decide +kernel,rfl⟩
  exact Traced.result_bind_eq_ok.mpr ⟨_,rfl,
    ofFields_eq_ok.mpr ⟨["1"],[crate],[],"crate.d.ts","",hone,hread,rfl,rfl,rfl⟩⟩

/-- The module comes back, and so does the property without the class. -/
theorem documents_give_back_crate :
    (ofValue crateModuleDocument (some "crate.d.ts")).result =
      .ok (ofExports [crate] "crate.d.ts" "" ["1"]) ∧
    (ofValue (ofExports [crate] "crate.d.ts" "" ["1"]).toValue none).result =
      .ok (ofExports [crate] "crate.d.ts" "" ["1"]) ∧
    (Declaration.decode crateDocument none none).result = .ok crate ∧
    crateSize ∈ crate.walk ∧
    (Declaration.decode crateSize.toValue none none).result = .ok crateSize := by
  have hwalk : crateSize ∈ crate.walk := by decide
  exact ⟨ofValue_crateModuleDocument,documents_give_back.1 _ _ _ ofValue_crateModuleDocument,
    decode_crateDocument,hwalk,
    documents_give_back.2 _ none none _ (by simp) decode_crateDocument crateSize hwalk⟩

end Module

end ApiRelease
