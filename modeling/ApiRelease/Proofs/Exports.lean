import ApiRelease.Proofs.Members
import ApiRelease.Proofs.ShownTexts
import Mathlib.Data.List.Nodup

/-! # Exports of a module that was read

However a document gives them, the exports of a module that was read stand under
their own paths, and no path stands twice. Conversely, documents of declarations with
distinct paths are the exports of a module.
-/
namespace ApiRelease

def Declaration.bare (kind : NodeKind) (path name : String) (members : Members) : Declaration where
  path := path
  name := name
  kind := kind
  location := none
  parent := none
  typeInfo := none
  modifiers := ∅
  metadata := none
  extended := []
  implemented := []
  members := members

namespace Declaration

theorem nameIn_eq_ok {fs : Fields} {given : Option Scalar} {name : String} :
    nameIn fs given = .ok name ↔
    ∃ text, (fs.getD "name" (.scalar (given.getD ""))).shown = .ok text ∧ Text.trim text = name := by
  unfold nameIn
  simp only [bind_eq_ok, pure, Except.pure, Except.ok.injEq]

theorem kindIn_eq_ok {fs : Fields} {name : String} {kind : NodeKind} : kindIn fs name = .ok kind ↔
    ∃ text, fs.text "kind" "" = .ok text ∧ Vocabulary.parse? (Text.trim text) = some kind := by
  unfold kindIn
  rw [bind_eq_ok]
  refine exists_congr fun text => and_congr_right fun _ => ?_
  dsimp only
  split
  · next k hk => simp [hk, pure, Except.pure]
  · next hk => simp [hk]

theorem factsIn_eq_ok {fs : Fields} {parent : Option String} {path name : String}
    {kind : NodeKind} {modifiers : Subset Modifier} {facts : Facts} :
    factsIn fs parent path name kind modifiers = .ok facts ↔
    ∃ location own typeInfo metadata extended implemented,
      recordIn Span.ofFields (fs.get "location") = .ok location ∧
      fs.optional "parent" = .ok own ∧
      recordIn TypeInfo.ofFields (fs.renamed "type_info" "typeInfo") = .ok typeInfo ∧
      recordIn Metadata.ofFields (fs.get "metadata") = .ok metadata ∧
      fs.texts "extends" = .ok extended ∧ fs.texts "implements" = .ok implemented ∧
      { path, name, kind, location, typeInfo, modifiers, metadata, extended, implemented,
        parent := if own.getD "" == "" then parent else own } = facts := by
  unfold factsIn
  simp only [bind_eq_ok, exists_and_left, pure, Except.pure, Except.ok.injEq]

theorem given_of_factsIn {fs : Fields} {parent : Option String} {path name : String}
    {kind : NodeKind} {modifiers : Subset Modifier} {facts : Facts}
    (h : factsIn fs parent path name kind modifiers = .ok facts) :
    facts.path = path ∧ facts.name = name ∧
    ∃ own, facts.parent = if Option.getD own "" == "" then parent else own := by
  obtain ⟨_,own,_,_,_,_,-,-,-,-,-,-,rfl⟩ := factsIn_eq_ok.mp h
  exact ⟨rfl,rfl,own,rfl⟩

/-- What a table has to hold to be read as a declaration. -/
theorem decode_eq_ok {fs : Fields} {given : Option Scalar} {parent : Option String}
    {d : Declaration} : (decode (.table fs) given parent).result = .ok d ↔
    ∃ name path kind modifiers members facts,
      nameIn fs given = .ok name ∧ name.isEmpty = false ∧ kindIn fs name = .ok kind ∧
      pathIn fs parent name = .ok path ∧
      (modifiersIn path (fs.get "modifiers").entries).result = .ok modifiers ∧
      List.Forall₂ (fun e m => ∃ c, (decode e.2 e.1 (some path)).result = .ok c ∧
          (memberKey e.1 c,c) = m) (memberTables (fs.get "children")) members ∧
      factsIn fs parent path name kind modifiers = .ok facts ∧
      { toFacts := facts, members := keyed members } = d := by
  rw [decode]
  simp only [Traced.result_bind_eq_ok, Traced.result_lift]
  constructor
  · rintro ⟨name,hname,h⟩
    split at h
    · cases h
    · next hempty =>
      simp only [Traced.result_bind_eq_ok, Traced.result_mapM_eq_ok, Traced.result_lift,
        Traced.result_pure, List.mapM_subtype, List.unattach_attach, Except.ok.injEq] at h
      obtain ⟨kind,hkind,path,hpath,modifiers,hmodifiers,members,hmembers,facts,hfacts,h⟩ := h
      exact ⟨name,path,kind,modifiers,members,facts,hname,by simpa using hempty,hkind,hpath,
        hmodifiers,hmembers,hfacts,h⟩
  · rintro ⟨name,path,kind,modifiers,members,facts,hname,hempty,hkind,hpath,hmodifiers,hmembers,
      hfacts,h⟩
    refine ⟨name,hname,?_⟩
    simp only [hempty, Bool.false_eq_true, if_false, Traced.result_bind_eq_ok,
      Traced.result_mapM_eq_ok, Traced.result_lift, Traced.result_pure, List.mapM_subtype,
      List.unattach_attach, Except.ok.injEq]
    exact ⟨kind,hkind,path,hpath,modifiers,hmodifiers,members,hmembers,facts,hfacts,h⟩
theorem decode_bare (kind : NodeKind) {name : String} (hname : Text.trim name = name)
    (hne : name ≠ "") :
    (decode (.table [("name",.text name),("kind",.text kind.name)]) none none).result =
    .ok (bare kind name name []) := by
  have hn : name.isEmpty = false := by simpa using hne
  have hk : Vocabulary.parse? (Text.trim kind.name) = some kind := by cases kind <;> decide
  exact decode_eq_ok.mpr ⟨name,name,kind,∅,[],_,nameIn_eq_ok.mpr ⟨_,rfl,hname⟩,hn,
    kindIn_eq_ok.mpr ⟨_,rfl,hk⟩,rfl,rfl,.nil,rfl,rfl⟩

end Declaration

namespace Module

def Decoded (m : Module) : Prop :=
  ∃ (fs : Fields) (filename : Option String), (ofFields fs filename).result = .ok m

def exportPaths (m : Module) : List String := m.exports.map fun e => e.2.path

/-- What comes of entries from a number on, given the paths taken before them: an entry is
no table, cannot be read, repeats a path, or is kept and takes its path. -/
inductive Reads : Nat → List String → List Value → List Declaration → List String → Prop
  | nil {index : Nat} {taken : List String} : Reads index taken [] [] []
  | shapeless {index : Nat} {taken : List String} {v : Value} {vs : List Value}
      {ds : List Declaration} {ps : List String} (hv : Declaration.isTable v = false)
      (h : Reads (index + 1) taken vs ds ps) :
      Reads index taken (v :: vs) ds ((entryLabel index ++ "expected an object, got " ++ v.kindName) :: ps)
  | unread {index : Nat} {taken : List String} {v : Value} {vs : List Value}
      {ds : List Declaration} {ps : List String} {f : Fault} (hv : Declaration.isTable v = true)
      (hf : (Declaration.decode v none none).result = .error f) (hentry : f.isOfEntry = true)
      (h : Reads (index + 1) taken vs ds ps) :
      Reads index taken (v :: vs) ds ((entryLabel index ++ f.message) :: ps)
  | repeated {index : Nat} {taken : List String} {v : Value} {vs : List Value}
      {ds : List Declaration} {ps : List String} {d : Declaration}
      (hd : (Declaration.decode v none none).result = .ok d) (ht : d.path ∈ taken)
      (h : Reads (index + 1) taken vs ds ps) :
      Reads index taken (v :: vs) ds (("duplicate export path '" ++ d.path ++ "'") :: ps)
  | kept {index : Nat} {taken : List String} {v : Value} {vs : List Value}
      {ds : List Declaration} {ps : List String} {d : Declaration}
      (hd : (Declaration.decode v none none).result = .ok d) (ht : d.path ∉ taken)
      (h : Reads (index + 1) (d.path :: taken) vs ds ps) : Reads index taken (v :: vs) (d :: ds) ps

section Entry

variable {index : Nat} {taken : List String} {v : Value} {vs : List Value} {f : Fault} {d : Declaration}

theorem readExports_of_shapeless (hv : Declaration.isTable v = false) :
    (readExports index taken (v :: vs)).result = (readExports (index + 1) taken vs).result >>= fun q =>
      .ok (q.1,(entryLabel index ++ "expected an object, got " ++ v.kindName) :: q.2) := by
  cases v with
  | table fs => cases hv
  | scalar | list | pair | set => simp only [readExports, Traced.result_bind]; rfl

theorem readExports_of_error (hv : Declaration.isTable v = true)
    (hf : (Declaration.decode v none none).result = .error f) :
    (readExports index taken (v :: vs)).result =
    if f.isOfEntry = true then (readExports (index + 1) taken vs).result >>= fun q =>
      .ok (q.1,(entryLabel index ++ f.message) :: q.2)
    else .error f := by
  cases v with
  | table fs =>
    simp only [readExports, Traced.result_bind, Traced.result_attempt, hf]
    change (if f.isOfEntry = true then _ else _ : Logged _).result = _
    split
    · rw [Traced.result_bind]
      rfl
    · rfl
  | scalar | list | pair | set => cases hv

theorem readExports_of_ok (hd : (Declaration.decode v none none).result = .ok d) :
    (readExports index taken (v :: vs)).result =
    if d.path ∈ taken then (readExports (index + 1) taken vs).result >>= fun q =>
      .ok (q.1,("duplicate export path '" ++ d.path ++ "'") :: q.2)
    else (readExports (index + 1) (d.path :: taken) vs).result >>= fun q => .ok (d :: q.1,q.2) := by
  cases v with
  | table fs =>
    simp only [readExports, Traced.result_bind, Traced.result_attempt, hd, ← List.contains_iff_mem]
    change (if taken.contains d.path = true then _ else _ : Logged _).result = _
    split
    · rw [Traced.result_bind]
      rfl
    · rw [Traced.result_bind]
      rfl
  | scalar | list | pair | set =>
    unfold Declaration.decode at hd
    cases hd

end Entry

theorem reads_of_readExports {index : Nat} {taken : List String} {vs : List Value}
    {ds : List Declaration} {ps : List String}
    (h : (readExports index taken vs).result = .ok (ds,ps)) : Reads index taken vs ds ps := by
  induction vs generalizing index taken ds ps with
  | nil =>
    cases h
    exact .nil
  | cons v rest ih =>
    cases hv : Declaration.isTable v with
    | false =>
      rw [readExports_of_shapeless hv] at h
      obtain ⟨q,hq,h⟩ := bind_eq_ok.mp h
      cases h
      exact .shapeless hv (ih hq)
    | true =>
      cases hread : (Declaration.decode v none none).result with
      | error f =>
        rw [readExports_of_error hv hread] at h
        split_ifs at h with hentry
        obtain ⟨q,hq,h⟩ := bind_eq_ok.mp h
        cases h
        exact .unread hv hread hentry (ih hq)
      | ok d =>
        rw [readExports_of_ok hread] at h
        split_ifs at h with htaken
        · obtain ⟨q,hq,h⟩ := bind_eq_ok.mp h
          cases h
          exact .repeated hread htaken (ih hq)
        · obtain ⟨q,hq,h⟩ := bind_eq_ok.mp h
          cases h
          exact .kept hread htaken (ih hq)

theorem readExports_of_reads {index : Nat} {taken : List String} {vs : List Value}
    {ds : List Declaration} {ps : List String} (h : Reads index taken vs ds ps) :
    (readExports index taken vs).result = .ok (ds,ps) := by
  induction h with
  | nil => rfl
  | shapeless hv _ ih =>
    rw [readExports_of_shapeless hv, ih]
    rfl
  | unread hv hf hentry _ ih =>
    rw [readExports_of_error hv hf, if_pos hentry, ih]
    rfl
  | repeated hd ht _ ih =>
    rw [readExports_of_ok hd, if_pos ht, ih]
    rfl
  | kept hd ht _ ih =>
    rw [readExports_of_ok hd, if_neg ht, ih]
    rfl

/-- Reading goes on with the paths taken so far, so it never keeps one of them. -/
theorem readExports_paths {index : Nat} {taken : List String} {vs : List Value}
    {ds : List Declaration} {es : List String}
    (h : (readExports index taken vs).result = .ok (ds,es)) :
    (ds.map (·.path)).Nodup ∧ ∀ d ∈ ds, d.path ∉ taken := by
  replace h := reads_of_readExports h
  induction h with
  | nil => simp
  | shapeless _ _ ih | unread _ _ _ _ ih | repeated _ _ _ ih => exact ih
  | kept _ hd _ ih =>
    obtain ⟨hnodup,hfree⟩ := ih
    rw [List.map_cons, List.nodup_cons]
    refine ⟨⟨?_,hnodup⟩,?_⟩
    · intro hmem
      obtain ⟨e,he,hpath⟩ := List.mem_map.mp hmem
      exact hfree e he (hpath ▸ List.mem_cons_self)
    · intro e he
      rcases List.mem_cons.mp he with rfl | he
      · exact hd
      · exact fun ht => hfree e he (List.mem_cons_of_mem _ ht)

theorem decode_of_mem_readExports {index : Nat} {taken : List String} {vs : List Value}
    {ds : List Declaration} {es : List String}
    (h : (readExports index taken vs).result = .ok (ds,es)) :
    ∀ d ∈ ds, ∃ v, (Declaration.decode v none none).result = .ok d := by
  replace h := reads_of_readExports h
  induction h with
  | nil => simp
  | shapeless _ _ ih | unread _ _ _ _ ih | repeated _ _ _ ih => exact ih
  | kept hv _ _ ih =>
    intro d hd
    rcases List.mem_cons.mp hd with rfl | hd
    · exact ⟨_,hv⟩
    · exact ih d hd

/-- Documents that can be read are all kept if their paths differ and are not taken. -/
theorem readExports_of_decode {vs : List Value} {ds : List Declaration}
    (h : List.Forall₂ (fun v d => (Declaration.decode v none none).result = .ok d) vs ds)
    (hd : (ds.map (·.path)).Nodup) (index : Nat) {taken : List String}
    (ht : ∀ d ∈ ds, d.path ∉ taken) : (readExports index taken vs).result = .ok (ds,[]) := by
  apply readExports_of_reads
  induction h generalizing index taken with
  | nil => exact .nil
  | @cons v d vs ds hv _ ih =>
    rw [List.map_cons, List.nodup_cons] at hd
    refine .kept hv (ht d List.mem_cons_self) (ih hd.2 (index + 1) ?_)
    intro e he hmem
    rcases List.mem_cons.mp hmem with hp | hmem
    · exact hd.1 (hp ▸ List.mem_map_of_mem he)
    · exact ht e (List.mem_cons_of_mem _ he) hmem

/-- What a table has to hold to be read as a module. -/
theorem ofFields_eq_ok {fs : Fields} {filename : Option String} {m : Module} :
    (ofFields fs filename).result = .ok m ↔
    ∃ noted ds problems name source, fs.texts "errors" = .ok noted ∧
      (readExports 0 [] (exportEntries (fs.get "exports"))).result = .ok (ds,problems) ∧
      filenameIn fs (filename.getD "") = .ok name ∧ fs.text "source" "" = .ok source ∧
      ofExports ds name source (noted ++ problems) = m := by
  unfold ofFields
  simp only [Traced.result_bind_eq_ok, Traced.result_lift, Traced.result_pure, Prod.exists,
    Except.ok.injEq, exists_and_left]

theorem decoded_ofExports {vs : List Value} {ds : List Declaration}
    (h : List.Forall₂ (fun v d => (Declaration.decode v none none).result = .ok d) vs ds)
    (hd : (ds.map (·.path)).Nodup) : (ofExports ds "<memory>" "" []).Decoded := by
  have hread := readExports_of_decode h hd 0 fun _ _ => List.not_mem_nil
  exact ⟨[("exports",.list vs)],none,ofFields_eq_ok.mpr ⟨[],ds,[],"<memory>","",rfl,hread,rfl,rfl,rfl⟩⟩

def plain (exports : List (NodeKind × String)) : Module :=
  ofExports (exports.map fun e => .bare e.1 e.2 e.2 []) "<memory>" "" []

theorem decoded_plain {exports : List (NodeKind × String)} (hd : (exports.map (·.2)).Nodup)
    (hn : ∀ e ∈ exports, Text.trim e.2 = e.2 ∧ e.2 ≠ "") : (plain exports).Decoded := by
  have hread : List.Forall₂ (fun v d => (Declaration.decode v none none).result = .ok d)
      (exports.map fun e => .table [("name",.text e.2),("kind",.text e.1.name)])
      (exports.map fun e => .bare e.1 e.2 e.2 []) := by
    rw [List.forall₂_map_left_iff, List.forall₂_map_right_iff, List.forall₂_same]
    intro e he
    exact Declaration.decode_bare e.1 (hn e he).1 (hn e he).2
  have hpaths : ((exports.map fun e => Declaration.bare e.1 e.2 e.2 []).map (·.path)).Nodup := by
    simpa [Function.comp_def, Declaration.bare] using hd
  exact decoded_ofExports hread hpaths

theorem exports_ofExports {ds : List Declaration} (hd : (ds.map (·.path)).Nodup)
    (filename source : String) (errors : List String) :
    (ofExports ds filename source errors).exports = ds.map fun d => (.text d.path,d) := by
  apply Declaration.keyed_of_nodup
  simpa [Function.comp_def] using hd.map Scalar.identity_text_injective

namespace Decoded

variable {m : Module}

theorem exists_declarations (h : m.Decoded) : ∃ ds : List Declaration,
    (ds.map (·.path)).Nodup ∧ m.exports = ds.map fun d => (.text d.path,d) := by
  obtain ⟨fs,filename,h⟩ := h
  obtain ⟨_,ds,_,_,_,-,hds,-,-,rfl⟩ := ofFields_eq_ok.mp h
  have hd := (readExports_paths hds).1
  exact ⟨ds,hd,exports_ofExports hd ..⟩

theorem exportPaths_nodup (h : m.Decoded) : m.exportPaths.Nodup := by
  obtain ⟨ds,hd,he⟩ := h.exists_declarations
  simpa [exportPaths, he, Function.comp_def] using hd

theorem key_of_mem (h : m.Decoded) {k : Scalar} {d : Declaration} (hk : (k,d) ∈ m.exports) :
    k = .text d.path := by
  obtain ⟨ds,-,hm⟩ := h.exists_declarations
  rw [hm] at hk
  obtain ⟨e,-,he⟩ := List.mem_map.mp hk
  cases he
  rfl

/-- A path is looked up just if it is one of the export paths. -/
theorem find?_eq_none_iff (h : m.Decoded) {path : String} :
    Members.find? (.text path) m.exports = none ↔ path ∉ m.exportPaths := by
  rw [Members.find?_eq_none_iff]
  constructor
  · intro hnone hmem
    obtain ⟨⟨k,d⟩,hk,rfl⟩ := List.mem_map.mp hmem
    exact hnone (k,d) hk (by rw [h.key_of_mem hk])
  · rintro hmem ⟨k,d⟩ hk hkey
    rw [h.key_of_mem hk] at hkey
    have hpath : d.path = path := by simpa using hkey
    exact hmem (hpath ▸ List.mem_map_of_mem hk)

end Decoded

end Module

end ApiRelease
