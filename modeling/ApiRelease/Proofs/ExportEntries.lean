import ApiRelease.Proofs.MemberEntries

/-! # What becomes of export entries

Each export entry of a document is kept, or a problem is noted in its place. Those that
are kept stand in the order of the entries, and an entry is kept just if it can be read
and no entry before it that can be read has its path. The nodes of the module are told
anew from what is kept: a path is looked up there just if something under an export has it.
-/
namespace ApiRelease

namespace Declaration

/-- A member that is put in under its own path stands under it. -/
theorem own_of_mem_putMember {members : Members} (hown : ∀ m ∈ members, m.1 = .text m.2.path)
    (d : Declaration) : ∀ m ∈ putMember members (.text d.path) d, m.1 = .text m.2.path := by
  induction members with
  | nil =>
    intro m hm
    rw [List.mem_singleton.mp hm]
  | cons n rest ih =>
    obtain ⟨k,e⟩ := n
    have hk : k = .text e.path := hown (k,e) List.mem_cons_self
    have hrest : ∀ m ∈ rest, m.1 = .text m.2.path := fun m hm => hown m (List.mem_cons_of_mem _ hm)
    intro m hm
    unfold putMember at hm
    split at hm
    · next hsame =>
      rcases List.mem_cons.mp hm with rfl | hm
      · subst hk
        have hpath : e.path = d.path :=
          Scalar.identity_text_injective (Scalar.isSame_iff.mp hsame)
        simp [hpath]
      · exact hrest m hm
    · rcases List.mem_cons.mp hm with rfl | hm
      · exact hk
      · exact ih hrest m hm

/-- Declarations that are kept by path stand under their paths, and none is made up. -/
theorem own_of_mem_keyed {ds : List Declaration} {m : Scalar × Declaration}
    (hm : m ∈ keyed (ds.map fun d => (.text d.path,d))) : m.1 = .text m.2.path ∧ m.2 ∈ ds := by
  constructor
  · suffices h : ∀ members : Members, (∀ m ∈ members, m.1 = .text m.2.path) →
        ∀ m ∈ (ds.map fun d => (Scalar.text d.path,d)).foldl
          (fun members p => putMember members p.1 p.2) members, m.1 = .text m.2.path from
      h [] (by simp) m hm
    clear hm
    induction ds with
    | nil => exact fun members hown => hown
    | cons d ds ih => exact fun members hown => ih _ (own_of_mem_putMember hown d)
  · obtain ⟨p,hp,heq⟩ := mem_keyed hm
    obtain ⟨d,hd,rfl⟩ := List.mem_map.mp hp
    exact heq ▸ hd

/-- Of declarations that are kept by path, each path is a key. -/
theorem mem_keys_keyed {ds : List Declaration} {k : Scalar} :
    k ∈ (keyed (ds.map fun d => (.text d.path,d))).map (·.1) ↔ ∃ d ∈ ds, k = .text d.path := by
  constructor
  · intro hk
    obtain ⟨m,hm,rfl⟩ := List.mem_map.mp hk
    obtain ⟨hkey,hd⟩ := own_of_mem_keyed hm
    exact ⟨m.2,hd,hkey⟩
  · rintro ⟨d,hd,rfl⟩
    have hfound : Members.find? (.text d.path) (keyed (ds.map fun d => (.text d.path,d))) ≠ none := by
      rw [Members.find?_keyed, Ne, Members.find?_eq_none_iff]
      exact fun hnone => hnone (.text d.path,d) (by simpa using hd) rfl
    obtain ⟨e,he⟩ := Option.ne_none_iff_exists'.mp hfound
    obtain ⟨k,hk,hid⟩ := Members.mem_of_find? he
    have hkey : k = .text e.path := (own_of_mem_keyed hk).1
    have hpath : e.path = d.path := by
      rw [hkey] at hid
      exact Scalar.identity_text_injective hid
    rw [← hpath, ← hkey]
    exact List.mem_map_of_mem hk

end Declaration

namespace Module

/-- The entry with a number reads as the declaration, and no entry before it that can be
read has its path. -/
structure FirstAt (vs : List Value) (i : Nat) (d : Declaration) : Prop where
  read : ∃ v, vs[i]? = some v ∧ (Declaration.decode v none none).result = .ok d
  first : ∀ j < i, ∀ w c, vs[j]? = some w → (Declaration.decode w none none).result = .ok c →
    c.path ≠ d.path

variable {v : Value} {vs : List Value} {d : Declaration}

theorem firstAt_cons_zero :
    FirstAt (v :: vs) 0 d ↔ (Declaration.decode v none none).result = .ok d := by
  constructor
  · intro h
    obtain ⟨w,hw,hd⟩ := h.read
    cases hw
    exact hd
  · exact fun hd => ⟨⟨v,rfl,hd⟩,fun j hj => absurd hj (Nat.not_lt_zero j)⟩

theorem firstAt_cons_succ {i : Nat} : FirstAt (v :: vs) (i + 1) d ↔ FirstAt vs i d ∧
    ∀ c, (Declaration.decode v none none).result = .ok c → c.path ≠ d.path := by
  constructor
  · intro h
    refine ⟨⟨by simpa using h.read,?_⟩,fun c hc => h.first 0 (Nat.succ_pos i) v c rfl hc⟩
    intro j hj w c hw hc
    exact h.first (j + 1) (Nat.succ_lt_succ hj) w c (by simpa using hw) hc
  · rintro ⟨h,hv⟩
    refine ⟨by simpa using h.read,?_⟩
    intro j hj w c hw hc
    cases j with
    | zero =>
      cases hw
      exact hv c hc
    | succ j => exact h.first j (Nat.lt_of_succ_lt_succ hj) w c (by simpa using hw) hc

/-- The numbers of the entries that are kept, where some paths are taken already: they
rise, each is the first one of its path, and none is left out. -/
structure KeptAt (vs : List Value) (taken : List String) (places : List Nat)
    (ds : List Declaration) : Prop where
  ordered : places.Pairwise (· < ·)
  first : List.Forall₂ (fun i d => FirstAt vs i d ∧ d.path ∉ taken) places ds
  covers : ∀ i d, FirstAt vs i d → d.path ∉ taken → i ∈ places

namespace KeptAt

variable {taken : List String} {places : List Nat} {ds : List Declaration}

theorem ordered_succ (h : KeptAt vs taken places ds) : (places.map (· + 1)).Pairwise (· < ·) :=
  List.pairwise_map.mpr (h.ordered.imp fun hij => Nat.succ_lt_succ hij)

/-- An entry in front whose path, if it has one, is taken does not come before any that
is kept. -/
theorem first_succ (h : KeptAt vs taken places ds)
    (hv : ∀ c, (Declaration.decode v none none).result = .ok c → c.path ∈ taken) :
    List.Forall₂ (fun i d => FirstAt (v :: vs) i d ∧ d.path ∉ taken) (places.map (· + 1)) ds := by
  rw [List.forall₂_map_left_iff]
  refine h.first.imp ?_
  rintro i d ⟨hi,hd⟩
  exact ⟨firstAt_cons_succ.mpr ⟨hi,fun c hc heq => hd (heq ▸ hv c hc)⟩,hd⟩

theorem covers_succ (h : KeptAt vs taken places ds) {i : Nat} (hi : FirstAt (v :: vs) (i + 1) d)
    (hd : d.path ∉ taken) : i + 1 ∈ places.map (· + 1) :=
  List.mem_map_of_mem (h.covers i d (firstAt_cons_succ.mp hi).1 hd)

theorem cons_passed (h : KeptAt vs taken places ds)
    (hv : ∀ c, (Declaration.decode v none none).result = .ok c → c.path ∈ taken) :
    KeptAt (v :: vs) taken (places.map (· + 1)) ds where
  ordered := h.ordered_succ
  first := h.first_succ hv
  covers := by
    intro i d hi hd
    cases i with
    | zero => exact absurd (hv d (firstAt_cons_zero.mp hi)) hd
    | succ i => exact h.covers_succ hi hd

theorem cons_kept (hd : (Declaration.decode v none none).result = .ok d) (ht : d.path ∉ taken)
    (h : KeptAt vs (d.path :: taken) places ds) :
    KeptAt (v :: vs) taken (0 :: places.map (· + 1)) (d :: ds) where
  ordered := by
    refine List.pairwise_cons.mpr ⟨?_,h.ordered_succ⟩
    intro i hi
    obtain ⟨j,-,rfl⟩ := List.mem_map.mp hi
    exact Nat.succ_pos j
  first := by
    have hv (c : Declaration) (hc : (Declaration.decode v none none).result = .ok c) :
        c.path ∈ d.path :: taken := by
      rw [Except.ok.inj (hc.symm.trans hd)]
      exact List.mem_cons_self
    refine .cons ⟨firstAt_cons_zero.mpr hd,ht⟩ ((h.first_succ hv).imp ?_)
    exact fun i e he => ⟨he.1,fun hmem => he.2 (List.mem_cons_of_mem _ hmem)⟩
  covers := by
    intro i e hi he
    cases i with
    | zero => exact List.mem_cons_self
    | succ i =>
      -- a later entry that is the first of its path has another path than this one
      have hne : d.path ≠ e.path := (firstAt_cons_succ.mp hi).2 d hd
      refine List.mem_cons_of_mem _ (h.covers_succ hi ?_)
      intro hmem
      rcases List.mem_cons.mp hmem with heq | hmem
      · exact hne heq.symm
      · exact he hmem

end KeptAt

theorem Reads.exists_keptAt {index : Nat} {taken : List String} {ds : List Declaration}
    {ps : List String} (h : Reads index taken vs ds ps) : ∃ places, KeptAt vs taken places ds := by
  induction h with
  | nil => exact ⟨[],.nil,.nil,fun i d hi => by simpa using hi.read⟩
  | @shapeless _ _ v _ _ _ hv _ ih =>
    obtain ⟨places,hplaces⟩ := ih
    refine ⟨_,hplaces.cons_passed fun c hc => ?_⟩
    rw [Declaration.isTable_of_decode hc] at hv
    cases hv
  | unread _ hf _ _ ih =>
    obtain ⟨places,hplaces⟩ := ih
    exact ⟨_,hplaces.cons_passed fun c hc => by cases hc.symm.trans hf⟩
  | repeated hd ht _ ih =>
    obtain ⟨places,hplaces⟩ := ih
    exact ⟨_,hplaces.cons_passed fun c hc => Except.ok.inj (hd.symm.trans hc) ▸ ht⟩
  | kept hd ht _ ih =>
    obtain ⟨places,hplaces⟩ := ih
    exact ⟨_,.cons_kept hd ht hplaces⟩

theorem Reads.length_eq {index : Nat} {taken : List String} {ds : List Declaration}
    {ps : List String} (h : Reads index taken vs ds ps) : vs.length = ds.length + ps.length := by
  induction h with
  | nil => rfl
  | shapeless _ _ ih | unread _ _ _ _ ih | repeated _ _ _ ih | kept _ _ _ ih =>
    simp only [List.length_cons, ih]
    omega

/-- A loaded module has as many exports and problems of its entries together as there are
entries. Its exports stand under their paths in the order of their entries, of those that
can be read the first one of each path, and its nodes are told by the paths of all that is
under them. -/
theorem export_entries_of_module {fs : Fields} {filename : Option String} {m : Module}
    (h : (ofValue (.table fs) filename).result = .ok m) :
    (∃ problems, m.errors = (fs.get "errors").entries.map (·.toText) ++ problems ∧
      (exportEntries (fs.get "exports")).length = m.exports.length + problems.length) ∧
    (∀ e ∈ m.exports, e.1 = .text e.2.path) ∧
    (∃ places : List Nat, places.Pairwise (· < ·) ∧
      List.Forall₂ (FirstAt (exportEntries (fs.get "exports"))) places (m.exports.map (·.2)) ∧
      ∀ i d, FirstAt (exportEntries (fs.get "exports")) i d → i ∈ places) ∧
    (∀ k, k ∈ m.nodes.map (·.1) ↔ ∃ e ∈ m.exports, ∃ c ∈ e.2.walk, k = .text c.path) ∧
    ∀ n ∈ m.nodes, n.1 = .text n.2.path ∧ ∃ e ∈ m.exports, n.2 ∈ e.2.walk := by
  have h : (ofFields fs filename).result = .ok m := h
  obtain ⟨_,ds,problems,_,_,hnoted,hread,-,-,rfl⟩ := ofFields_eq_ok.mp h
  obtain ⟨-,rfl⟩ := Value.mapM_shown_eq_ok.mp hnoted
  have hreads := reads_of_readExports hread
  obtain ⟨places,hplaces⟩ := hreads.exists_keptAt
  have hexports := exports_ofExports (readExports_paths hread).1
  rw [hexports]
  refine ⟨⟨problems,rfl,by rw [List.length_map, hreads.length_eq]⟩,?_,⟨places,hplaces.ordered,?_,?_⟩,
    ?_,?_⟩
  · intro e he
    obtain ⟨d,-,rfl⟩ := List.mem_map.mp he
    rfl
  · simpa [Function.comp_def] using hplaces.first.imp fun i d hd => hd.1
  · exact fun i d hi => hplaces.covers i d hi List.not_mem_nil
  · intro k
    refine Declaration.mem_keys_keyed.trans ?_
    constructor
    · rintro ⟨c,hc,hk⟩
      obtain ⟨d,hd,hc⟩ := List.mem_flatMap.mp hc
      exact ⟨(.text d.path,d),List.mem_map_of_mem hd,c,hc,hk⟩
    · rintro ⟨e,he,c,hc,hk⟩
      obtain ⟨d,hd,rfl⟩ := List.mem_map.mp he
      exact ⟨c,List.mem_flatMap.mpr ⟨d,hd,hc⟩,hk⟩
  · intro n hn
    obtain ⟨hkey,hunder⟩ := Declaration.own_of_mem_keyed hn
    obtain ⟨d,hd,hc⟩ := List.mem_flatMap.mp hunder
    exact ⟨hkey,(.text d.path,d),List.mem_map_of_mem hd,hc⟩

def standEntries : List Value :=
  [.text "size",.table (shelfEntry [methodEntry "get" "() => Book"]),
    .table [("kind",.text "klass"),("name",.text "Box")],.table (shelfEntry [])]

def standDocument : Fields :=
  [("exports",.list standEntries),("errors",.list [.text "line 3: expected ';'"])]

def standModule : Module :=
  ofExports [shelfOf [("get",methodOfShelf "get" "() => Book")]] "<memory>" ""
    ["line 3: expected ';'","export #0: expected an object, got str",
      "export #2: unknown node kind 'klass' for 'Box'","duplicate export path 'Shelf'"]

theorem ofValue_standDocument : (ofValue (.table standDocument) none).result = .ok standModule := by
  have hget := decode_methodEntry "get" "() => Book" (by decide) (by decide)
  have hshelf : (Declaration.decode (.table (shelfEntry [methodEntry "get" "() => Book"])) none
      none).result = .ok (shelfOf [("get",methodOfShelf "get" "() => Book")]) :=
    decode_shelfEntry (.cons ⟨_,hget,rfl⟩ .nil)
  have hbare : (Declaration.decode (.table (shelfEntry [])) none none).result = .ok (shelfOf []) :=
    decode_shelfEntry .nil
  have hbox : (Declaration.decode (.table [("kind",.text "klass"),("name",.text "Box")]) none
      none).result = .error (.unknownNodeKind "klass" "Box") := by
    rw [Declaration.decode]
    rfl
  have hreads : Reads 0 [] standEntries [shelfOf [("get",methodOfShelf "get" "() => Book")]] _ :=
    .shapeless rfl (.kept hshelf List.not_mem_nil (.unread rfl hbox rfl
      (.repeated hbare List.mem_cons_self .nil)))
  exact Traced.result_bind_eq_ok.mpr ⟨_,rfl,ofFields_eq_ok.mpr
    ⟨_,_,_,"<memory>","",rfl,readExports_of_reads hreads,rfl,rfl,rfl⟩⟩

/-- Only the second of the four entries is kept, three problems are added, and the nodes
are the class and its method. -/
theorem export_entries_of_stand :
    (ofValue (.table standDocument) none).result = .ok standModule ∧
    (∃ problems, standModule.errors = ["line 3: expected ';'"] ++ problems ∧
      standEntries.length = standModule.exports.length + problems.length) ∧
    (∃ places : List Nat, places.Pairwise (· < ·) ∧
      List.Forall₂ (FirstAt standEntries) places (standModule.exports.map (·.2)) ∧
      ∀ i d, FirstAt standEntries i d → i ∈ places) ∧
    ∀ k, k ∈ standModule.nodes.map (·.1) ↔
      ∃ e ∈ standModule.exports, ∃ c ∈ e.2.walk, k = .text c.path := by
  obtain ⟨hcount,-,hplaces,hnodes,-⟩ := export_entries_of_module ofValue_standDocument
  exact ⟨ofValue_standDocument,hcount,hplaces,hnodes⟩

end Module

end ApiRelease
