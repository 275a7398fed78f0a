import ApiRelease.Proofs.Keys
import ApiRelease.Proofs.MalformedEntries
import Mathlib.Data.List.Induction
import Mathlib.Data.List.Perm.Subperm

/-! # What becomes of member entries

The entries of a declaration's members may stand in a list or a table. Those that are no
tables are passed over, and of those with one key the last one counts. So each entry is
represented by a member of its own just if all of them are tables and no two have one
key. The problems of a module are about export entries that were refused; none is about a
member that is missing in a declaration that was kept.
-/
namespace ApiRelease

namespace Members

theorem find?_putMember (members : Members) (key k : Scalar) (d : Declaration) :
    find? k (Declaration.putMember members key d) =
    if key.identity = k.identity then some d else find? k members := by
  induction members with
  | nil => simp [Declaration.putMember, find?, Scalar.isSame]
  | cons m rest ih =>
    obtain ⟨l,e⟩ := m
    by_cases hkey : l.identity = key.identity
    · by_cases hk : key.identity = k.identity
      · simp [Declaration.putMember, find?, Scalar.isSame, hkey, hk]
      · simp [Declaration.putMember, find?, Scalar.isSame, hkey, hk]
    · by_cases hl : l.identity = k.identity
      · have hk : k.identity ≠ key.identity := fun h => hkey (hl.trans h)
        simp [Declaration.putMember, find?, Scalar.isSame, hl, hk, hk.symm]
      · simp [Declaration.putMember, find?, Scalar.isSame, hkey, hl, ih]

/-- The last member of a key is the one that is kept. -/
theorem find?_keyed (k : Scalar) (pairs : Members) :
    find? k (Declaration.keyed pairs) = find? k pairs.reverse := by
  induction pairs using List.reverseRecOn with
  | nil => rfl
  | append_singleton pairs p ih =>
    have hput : Declaration.keyed (pairs ++ [p]) =
        Declaration.putMember (Declaration.keyed pairs) p.1 p.2 := by
      simp [Declaration.keyed]
    rw [hput, find?_putMember, ih, List.reverse_concat]
    simp [find?, Scalar.isSame]

end Members

namespace Declaration

/-- Putting in one member after the other gives at most one for each, and as many only if
each came under a key of its own. -/
theorem length_foldl_putMember (members pairs : Members) :
    (pairs.foldl (fun members p => putMember members p.1 p.2) members).length ≤
      members.length + pairs.length ∧
    (members.Distinct → (pairs.foldl (fun members p => putMember members p.1 p.2) members).length =
      members.length + pairs.length → Members.Distinct (members ++ pairs)) := by
  induction pairs generalizing members with
  | nil => simp
  | cons p rest ih =>
    obtain ⟨hle,hdistinct⟩ := ih (putMember members p.1 p.2)
    have hlength := congrArg List.length (keys_putMember members p.1 p.2)
    rw [List.length_map] at hlength
    rw [List.foldl_cons, List.length_cons]
    split at hlength
    · rw [List.length_map] at hlength
      refine ⟨by omega,?_⟩
      intro _ heq
      omega
    · next hnew =>
      rw [List.length_append, List.length_map, List.length_singleton] at hlength
      refine ⟨by omega,?_⟩
      intro hmembers heq
      have hrest := hdistinct (distinct_putMember hmembers p.1 p.2) (by omega)
      unfold Members.Distinct at hrest ⊢
      rw [List.map_append, identities_putMember, if_neg hnew] at hrest
      simpa using hrest

theorem length_keyed_le (pairs : Members) : (keyed pairs).length ≤ pairs.length := by
  have h := (length_foldl_putMember [] pairs).1
  simpa [keyed] using h

theorem distinct_of_length_keyed {pairs : Members} (h : (keyed pairs).length = pairs.length) :
    Members.Distinct pairs := by
  have hdistinct := (length_foldl_putMember [] pairs).2 Members.distinct_nil
  simpa [h] using hdistinct (by simpa [keyed] using h)

/-- The key under which a member entry is kept: its local name, or the name it gives. -/
def entryKey : Option Scalar × Value → Scalar
  | (given,.table fs) =>
    let name := Text.trim (Fields.getD fs "name" (.scalar (given.getD ""))).toText
    match given with
    | some k => if k.truthy then k else name
    | none => name
  | _ => .null

variable {fs : Fields} {v : Value} {given : Option Scalar} {parent : Option String}
  {d : Declaration}

theorem memberKey_of_decode (h : (decode v given parent).result = .ok d) :
    memberKey given d = entryKey (given,v) := by
  obtain ⟨fs,rfl⟩ := exists_fields_of_decode h
  obtain ⟨_,_,_,_,_,facts,hname,-,-,-,-,-,hfacts,rfl⟩ := decode_eq_ok.mp h
  obtain ⟨-,rfl,-⟩ := given_of_factsIn hfacts
  obtain ⟨text,hshown,htrim⟩ := nameIn_eq_ok.mp hname
  obtain ⟨-,rfl⟩ := Value.shown_eq_ok.mp hshown
  cases given <;> simp only [memberKey, entryKey, htrim]

def Represents (d : Declaration) (entries : List (Option Scalar × Value)) : Prop :=
  ∃ own : List Declaration,
    List.Forall₂ (fun e c => (decode e.2 e.1 (some d.path)).result = .ok c) entries own ∧
    own.Subperm (d.members.map (·.2))

theorem isTable_of_decode (h : (decode v given parent).result = .ok d) : isTable v = true := by
  obtain ⟨fs,rfl⟩ := exists_fields_of_decode h
  rfl

/-- The tables among the entries are all read, each under its key, and of those of one
key the last one is kept. -/
theorem exists_read_of_decode (h : (decode (.table fs) given parent).result = .ok d) :
    ∃ read : Members, List.Forall₂ (fun e m =>
        (decode e.2 e.1 (some d.path)).result = .ok m.2 ∧ m.1 = entryKey e)
      (memberTables (fs.get "children")) read ∧ d.members = keyed read := by
  obtain ⟨_,path,_,_,read,facts,-,-,-,-,-,hread,hfacts,rfl⟩ := decode_eq_ok.mp h
  obtain ⟨rfl,-,-⟩ := given_of_factsIn hfacts
  refine ⟨read,hread.imp ?_,rfl⟩
  rintro e m ⟨c,hc,rfl⟩
  exact ⟨hc,memberKey_of_decode hc⟩

theorem represents_iff (h : (decode (.table fs) given parent).result = .ok d) :
    d.Represents (memberEntries (fs.get "children")) ↔
    (∀ e ∈ memberEntries (fs.get "children"), isTable e.2 = true) ∧
    ((memberEntries (fs.get "children")).map fun e => (entryKey e).identity).Nodup := by
  obtain ⟨read,hread,hmembers⟩ := exists_read_of_decode h
  have hkeys : read.map (fun m => m.1.identity) =
      (memberTables (fs.get "children")).map fun e => (entryKey e).identity := by
    apply map_eq_of_forall₂
    exact hread.imp fun e m hm => by rw [hm.2]
  constructor
  · rintro ⟨own,hown,hsub⟩
    have htables : ∀ e ∈ memberEntries (fs.get "children"), isTable e.2 = true := by
      intro e he
      obtain ⟨c,-,hc⟩ := exists_right_of_forall₂ hown he
      exact isTable_of_decode hc
    have hall : memberTables (fs.get "children") = memberEntries (fs.get "children") :=
      List.filter_eq_self.mpr htables
    refine ⟨htables,?_⟩
    -- there is room for all of them only if none took the place of another
    have hroom := hsub.length_le
    rw [List.length_map, hmembers, ← hown.length_eq, ← hall, hread.length_eq] at hroom
    have hdistinct := distinct_of_length_keyed (Nat.le_antisymm (length_keyed_le read) hroom)
    rw [← hall, ← hkeys]
    exact hdistinct
  · rintro ⟨htables,hnodup⟩
    have hall : memberTables (fs.get "children") = memberEntries (fs.get "children") :=
      List.filter_eq_self.mpr htables
    rw [hall] at hread hkeys
    rw [← hkeys] at hnodup
    refine ⟨read.map (·.2),?_,?_⟩
    · rw [List.forall₂_map_right_iff]
      exact hread.imp fun e m hm => hm.1
    · rw [hmembers, keyed_of_nodup hnodup]

end Declaration

namespace Module

/-- A table of a document and the declaration that it is read as: an export entry, or a
member of a table that is. -/
inductive ReadAs (fs : Fields) : Fields → Declaration → Prop
  | entry {es : Fields} {d : Declaration} (he : .table es ∈ exportEntries (fs.get "exports"))
      (h : (Declaration.decode (.table es) none none).result = .ok d) : ReadAs fs es d
  | member {es ms : Fields} {d c : Declaration} {key : Option Scalar} (hd : ReadAs fs es d)
      (hm : (key,.table ms) ∈ Declaration.memberTables (es.get "children"))
      (h : (Declaration.decode (.table ms) key (some d.path)).result = .ok c) : ReadAs fs ms c

variable {fs es : Fields} {d : Declaration}

theorem ReadAs.exists_decode (h : ReadAs fs es d) :
    ∃ given parent, (Declaration.decode (.table es) given parent).result = .ok d := by
  cases h with
  | entry _ h => exact ⟨_,_,h⟩
  | member _ _ h => exact ⟨_,_,h⟩

/-- Everything under a declaration that was read was read from a table of its own. -/
theorem ReadAs.exists_of_mem_walk {c : Declaration} (hc : c ∈ d.walk) (h : ReadAs fs es d) :
    ∃ ms, ReadAs fs ms c := by
  induction d using Declaration.members_induction generalizing es with
  | inside d ih =>
    rcases Declaration.mem_walk.mp hc with rfl | ⟨m,hm,hc⟩
    · exact ⟨es,h⟩
    · obtain ⟨given,parent,hdecode⟩ := h.exists_decode
      obtain ⟨⟨key,v⟩,he,hread⟩ := Declaration.exists_decode_of_mem_members hdecode hm
      obtain ⟨ms,rfl⟩ := Declaration.exists_fields_of_decode hread
      exact ih m hm hc (.member h he hread)

inductive Refused (index : Nat) (v : Value) : String → Prop
  | repeated {d : Declaration} (h : (Declaration.decode v none none).result = .ok d) :
      Refused index v ("duplicate export path '" ++ d.path ++ "'")
  | unread {f : Fault} (h : (Declaration.decode v none none).result = .error f) :
      Refused index v (entryLabel index ++ f.message)
  | shapeless (h : Declaration.isTable v = false) :
      Refused index v (entryLabel index ++ "expected an object, got " ++ v.kindName)

theorem refused_cons {index : Nat} {v : Value} {vs : List Value} {p : String}
    (h : ∃ i w, vs[i]? = some w ∧ Refused (index + 1 + i) w p) :
    ∃ i w, (v :: vs)[i]? = some w ∧ Refused (index + i) w p := by
  obtain ⟨i,w,hw,hrefused⟩ := h
  refine ⟨i + 1,w,by simpa using hw,?_⟩
  rwa [Nat.add_right_comm] at hrefused

/-- The problems found in reading are those of the entries that are not kept. -/
theorem refused_of_readExports {index : Nat} {taken : List String} {vs : List Value}
    {ds : List Declaration} {problems : List String}
    (h : (readExports index taken vs).result = .ok (ds,problems)) :
    ∀ p ∈ problems, ∃ i v, vs[i]? = some v ∧ Refused (index + i) v p := by
  have hcons {index : Nat} {v : Value} {vs : List Value} {ps : List String} {q : String}
      (hq : Refused index v q)
      (ih : ∀ p ∈ ps, ∃ i w, vs[i]? = some w ∧ Refused (index + 1 + i) w p) :
      ∀ p ∈ q :: ps, ∃ i w, (v :: vs)[i]? = some w ∧ Refused (index + i) w p := by
    intro p hp
    rcases List.mem_cons.mp hp with rfl | hp
    · exact ⟨0,v,rfl,hq⟩
    · exact refused_cons (ih p hp)
  replace h := reads_of_readExports h
  induction h with
  | nil => simp
  | shapeless hv _ ih => exact hcons (.shapeless hv) ih
  | unread _ hf _ _ ih => exact hcons (.unread hf) ih
  | repeated hd _ _ ih => exact hcons (.repeated hd) ih
  | kept _ _ _ ih => exact fun p hp => refused_cons (ih p hp)

/-- A loaded module has no problems but its own and those of export entries that are not
kept. Of each declaration in it the last member entry of a key counts, and each entry has
its own member just if all are tables and their keys differ. -/
theorem member_entries_of_module {filename : Option String} {m : Module}
    (h : (ofValue (.table fs) filename).result = .ok m) :
    (∃ problems, m.errors = (fs.get "errors").entries.map (·.toText) ++ problems ∧
      m.exports.length + problems.length = (exportEntries (fs.get "exports")).length ∧
      ∀ p ∈ problems, ∃ i v, (exportEntries (fs.get "exports"))[i]? = some v ∧ Refused i v p) ∧
    (∀ e ∈ m.exports, ∀ d ∈ e.2.walk, ∃ es, ReadAs fs es d) ∧
    ∀ es d, ReadAs fs es d →
      (∃ read : Members, List.Forall₂ (fun e c =>
          (Declaration.decode e.2 e.1 (some d.path)).result = .ok c.2 ∧
            c.1 = Declaration.entryKey e) (Declaration.memberTables (es.get "children")) read ∧
        ∀ k, Members.find? k d.members = Members.find? k read.reverse) ∧
      (d.Represents (Declaration.memberEntries (es.get "children")) ↔
        (∀ e ∈ Declaration.memberEntries (es.get "children"), Declaration.isTable e.2 = true) ∧
        ((Declaration.memberEntries (es.get "children")).map fun e =>
          (Declaration.entryKey e).identity).Nodup) := by
  have h : (ofFields fs filename).result = .ok m := h
  obtain ⟨_,ds,problems,_,_,hnoted,hread,-,-,rfl⟩ := ofFields_eq_ok.mp h
  obtain ⟨-,rfl⟩ := Value.mapM_shown_eq_ok.mp hnoted
  have haccounts := (readExports_ends 0 [] _).of_eq_ok hread
  have hexports := exports_ofExports (readExports_paths hread).1
  refine ⟨⟨problems,rfl,?_,?_⟩,?_,?_⟩
  · rw [hexports, List.length_map, haccounts.count]
  · intro p hp
    obtain ⟨i,v,hv,hrefused⟩ := refused_of_readExports hread p hp
    exact ⟨i,v,hv,by rwa [Nat.zero_add] at hrefused⟩
  · intro e he d hd
    rw [hexports] at he
    obtain ⟨kept,hkept,rfl⟩ := List.mem_map.mp he
    obtain ⟨v,hv,hdecode⟩ := haccounts.read kept hkept
    obtain ⟨es,rfl⟩ := Declaration.exists_fields_of_decode hdecode
    exact ReadAs.exists_of_mem_walk hd (.entry hv hdecode)
  · intro es d hd
    obtain ⟨given,parent,hdecode⟩ := hd.exists_decode
    obtain ⟨read,hread,hmembers⟩ := Declaration.exists_read_of_decode hdecode
    refine ⟨⟨read,hread,?_⟩,Declaration.represents_iff hdecode⟩
    intro k
    rw [hmembers, Members.find?_keyed]

def methodEntry (name type : String) : Value :=
  .table [("kind",.text "method"),("name",.text name),("type_info",.table [("signature",.text type)])]

def methodOfShelf (name type : String) : Declaration :=
  { Declaration.bare .method ("Shelf." ++ name) name [] with
    parent := some "Shelf"
    typeInfo := some ⟨type,type,[],[],[],[],[],[],none,none⟩ }

theorem decode_methodEntry (name type : String) (hname : Text.trim name = name) (hne : name ≠ "") :
    (Declaration.decode (methodEntry name type) none (some "Shelf")).result =
    .ok (methodOfShelf name type) := by
  have hn : name.isEmpty = false := by simpa using hne
  have hmethod : Vocabulary.parse? (Text.trim "method") = some NodeKind.method := by decide
  exact Declaration.decode_eq_ok.mpr
    ⟨name,"Shelf." ++ name,.method,∅,[],_,Declaration.nameIn_eq_ok.mpr ⟨_,rfl,hname⟩,hn,
      Declaration.kindIn_eq_ok.mpr ⟨_,rfl,hmethod⟩,rfl,rfl,.nil,rfl,rfl⟩

def shelfEntry (entries : List Value) : Fields :=
  [("kind",.text "class"),("name",.text "Shelf"),("children",.list entries)]

def shelfDocument (entries : List Value) : Fields :=
  [("exports",.list [.table (shelfEntry entries)])]

def shelfOf (read : Members) : Declaration := .bare .classDecl "Shelf" "Shelf" (Declaration.keyed read)

theorem decode_shelfEntry {entries : List Value} {read : Members}
    (h : List.Forall₂ (fun e m => ∃ c, (Declaration.decode e.2 e.1 (some "Shelf")).result = .ok c ∧
      (Declaration.memberKey e.1 c,c) = m) (Declaration.memberTables (.list entries)) read) :
    (Declaration.decode (.table (shelfEntry entries)) none none).result = .ok (shelfOf read) := by
  have hclass : Vocabulary.parse? (Text.trim "class") = some NodeKind.classDecl := by decide
  have hshelf : Text.trim "Shelf" = "Shelf" := by decide
  exact Declaration.decode_eq_ok.mpr
    ⟨"Shelf","Shelf",.classDecl,∅,read,_,Declaration.nameIn_eq_ok.mpr ⟨_,rfl,hshelf⟩,rfl,
      Declaration.kindIn_eq_ok.mpr ⟨_,rfl,hclass⟩,rfl,rfl,h,rfl,rfl⟩

theorem ofValue_shelfDocument {entries : List Value} {read : Members}
    (h : List.Forall₂ (fun e m => ∃ c, (Declaration.decode e.2 e.1 (some "Shelf")).result = .ok c ∧
      (Declaration.memberKey e.1 c,c) = m) (Declaration.memberTables (.list entries)) read) :
    ReadAs (shelfDocument entries) (shelfEntry entries) (shelfOf read) ∧
    (ofValue (.table (shelfDocument entries)) none).result =
      .ok (ofExports [shelfOf read] "<memory>" "" []) := by
  have hdecode := decode_shelfEntry h
  have hread : (readExports 0 [] [.table (shelfEntry entries)]).result = .ok ([shelfOf read],[]) :=
    readExports_of_decode (.cons hdecode .nil) (List.nodup_singleton _) 0 (by simp)
  exact ⟨.entry List.mem_cons_self hdecode,Traced.result_bind_eq_ok.mpr ⟨_,rfl,
    ofFields_eq_ok.mpr ⟨[],[shelfOf read],[],"<memory>","",rfl,hread,rfl,rfl,rfl⟩⟩⟩

def getAndPut : List Value := [methodEntry "get" "() => Book",methodEntry "put" "(b: Book) => void"]

/-- Two methods of different names each have a member of their own. -/
theorem member_entries_of_shelf : ∃ m d,
    (ofValue (.table (shelfDocument getAndPut)) none).result = .ok m ∧
    ReadAs (shelfDocument getAndPut) (shelfEntry getAndPut) d ∧
    d.Represents (Declaration.memberEntries (.list getAndPut)) := by
  have hget := decode_methodEntry "get" "() => Book" (by decide) (by decide)
  have hput := decode_methodEntry "put" "(b: Book) => void" (by decide) (by decide)
  obtain ⟨hread,hmodule⟩ : ReadAs (shelfDocument getAndPut) (shelfEntry getAndPut) _ ∧ _ :=
    ofValue_shelfDocument (.cons ⟨_,hget,rfl⟩ (.cons ⟨_,hput,rfl⟩ .nil))
  refine ⟨_,_,hmodule,hread,?_⟩
  exact ((member_entries_of_module hmodule).2.2 _ _ hread).2.mpr ⟨by decide,by decide⟩

def overloadedGet : List Value :=
  [.text "size",methodEntry "get" "() => Book",methodEntry "get" "(key: string) => Book"]

/-- A text among the member entries and the first of two methods of one name are neither
kept nor told. -/
theorem overload_untold :
    (ofValue (.table (shelfDocument overloadedGet)) none).result =
    .ok (ofExports [.bare .classDecl "Shelf" "Shelf"
      [("get",methodOfShelf "get" "(key: string) => Book")]] "<memory>" "" []) := by
  have hfirst := decode_methodEntry "get" "() => Book" (by decide) (by decide)
  have hsecond := decode_methodEntry "get" "(key: string) => Book" (by decide) (by decide)
  have hread : List.Forall₂ (fun e m => ∃ c,
      (Declaration.decode e.2 e.1 (some "Shelf")).result = .ok c ∧
        (Declaration.memberKey e.1 c,c) = m) (Declaration.memberTables (.list overloadedGet)) _ :=
    .cons ⟨_,hfirst,rfl⟩ (.cons ⟨_,hsecond,rfl⟩ .nil)
  exact (ofValue_shelfDocument hread).2

end Module

end ApiRelease
