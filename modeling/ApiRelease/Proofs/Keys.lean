import ApiRelease.Proofs.Exports

/-! # Members under distinct keys

Where no key stands twice, every member is found under its key, so matching such
members with themselves pairs each with itself. Reading a document keeps later members
of a key in the place of earlier ones, so a module that was read has distinct keys at
its exports and at every declaration under them.
-/
namespace ApiRelease

namespace Members

def Distinct (members : Members) : Prop := (members.map fun m => m.1.identity).Nodup

instance (members : Members) : Decidable members.Distinct :=
  inferInstanceAs (Decidable (members.map fun m => m.1.identity).Nodup)

theorem distinct_nil : Distinct [] := List.nodup_nil

theorem Distinct.sublist {members others : Members} (h : others.Distinct)
    (hs : members.Sublist others) : members.Distinct := List.Nodup.sublist (hs.map _) h

theorem Distinct.perm {members others : Members} (h : members.Distinct)
    (hp : members.Perm others) : others.Distinct := (hp.map _).nodup_iff.mp h

theorem Distinct.find? {members : Members} (h : members.Distinct) {k : Scalar} {d : Declaration}
    (hm : (k,d) ∈ members) : Members.find? k members = some d := by
  induction members with
  | nil => simp at hm
  | cons m rest ih =>
    obtain ⟨l,e⟩ := m
    rw [Distinct, List.map_cons, List.nodup_cons] at h
    rcases List.mem_cons.mp hm with heq | hm
    · cases heq
      simp [Members.find?, Scalar.isSame]
    · have hne : l.identity ≠ k.identity := by
        intro heq
        exact h.1 (heq ▸ List.mem_map_of_mem hm)
      simpa [Members.find?, Scalar.isSame, hne] using ih h.2 hm

end Members

namespace Diff

/-- Members that are still there are matched with themselves. -/
theorem matchMembers_of_subset {olds news : Members} (hn : news.Distinct) (hs : olds ⊆ news) :
    (matchMembers olds news).matched = olds.map (fun m => (m.2,m.2)) ∧
    (matchMembers olds news).removed = [] := by
  have hfind : ∀ m ∈ olds, Members.find? m.1 news = some m.2 := fun m hm => hn.find? (hs hm)
  constructor
  · simp only [matchMembers]
    rw [List.filterMap_congr fun m hm => by rw [hfind m hm]]
    simp
  · simp only [matchMembers, List.map_eq_nil_iff, List.filter_eq_nil_iff]
    intro m hm
    simp [hfind m hm]

theorem matchMembers_self {members : Members} (h : members.Distinct) :
    matchMembers members members = ⟨members.map fun m => (m.2,m.2),[],[]⟩ := by
  obtain ⟨hmatched,hremoved⟩ := matchMembers_of_subset h (List.Subset.refl members)
  have hadded : (matchMembers members members).added = [] := hremoved
  cases hmatch : matchMembers members members
  simp_all

theorem comparedMembers_sublist (both : Bool) (members : Members) :
    (comparedMembers both members).Sublist members := by
  unfold comparedMembers
  split
  · exact List.filter_sublist
  · exact List.Sublist.refl _

end Diff

namespace Declaration

theorem mem_walkAll {c : Declaration} {members : Members} :
    c ∈ walkAll members ↔ ∃ m ∈ members, c ∈ m.2.walk := by
  induction members with
  | nil => simp [walkAll]
  | cons m rest ih => simp [walkAll, ih]

theorem mem_walk {c d : Declaration} : c ∈ d.walk ↔ c = d ∨ ∃ m ∈ d.members, c ∈ m.2.walk := by
  cases d with
  | mk facts members => simp [walk, mem_walkAll]

theorem mem_walk_self (d : Declaration) : d ∈ d.walk := mem_walk.mpr (Or.inl rfl)

/-- What holds of a declaration whenever it holds of its members holds of all. -/
theorem members_induction {P : Declaration → Prop} (inside : ∀ d, (∀ m ∈ d.members, P m.2) → P d) :
    ∀ d, P d
  | ⟨facts,members⟩ => by
    refine inside _ ?_
    rintro ⟨k,d⟩ hm
    have hlt : sizeOf (k,d) < sizeOf members := List.sizeOf_lt_of_mem hm
    exact members_induction inside d
termination_by d => sizeOf d
decreasing_by
  simp only [Prod.mk.sizeOf_spec, mk.sizeOf_spec] at hlt ⊢
  omega

theorem mem_walk_trans {c d e : Declaration} (hc : c ∈ d.walk) (hd : d ∈ e.walk) : c ∈ e.walk := by
  induction e using members_induction with
  | inside e ih =>
    rcases mem_walk.mp hd with rfl | ⟨m,hm,hd⟩
    · exact hc
    · exact mem_walk.mpr (Or.inr ⟨m,hm,ih m hm hd⟩)

/-- The members of the declaration and of everything under it have distinct keys. -/
def WellKeyed (d : Declaration) : Prop := ∀ c ∈ d.walk, Members.Distinct c.members

instance (d : Declaration) : Decidable d.WellKeyed :=
  inferInstanceAs (Decidable (∀ c ∈ d.walk, Members.Distinct c.members))

theorem wellKeyed_iff {d : Declaration} :
    d.WellKeyed ↔ Members.Distinct d.members ∧ ∀ m ∈ d.members, m.2.WellKeyed := by
  unfold WellKeyed
  constructor
  · intro h
    refine ⟨h d d.mem_walk_self,?_⟩
    intro m hm c hc
    exact h c (mem_walk.mpr (Or.inr ⟨m,hm,hc⟩))
  · rintro ⟨hd,hm⟩ c hc
    rcases mem_walk.mp hc with rfl | ⟨m,hmem,hc⟩
    · exact hd
    · exact hm m hmem c hc

theorem keys_putMember (members : Members) (key : Scalar) (d : Declaration) :
    (putMember members key d).map (·.1) =
    if key.identity ∈ members.map (fun m => m.1.identity) then members.map (·.1)
    else members.map (·.1) ++ [key] := by
  induction members with
  | nil => simp [putMember]
  | cons m rest ih =>
    obtain ⟨k,e⟩ := m
    by_cases hk : k.identity = key.identity
    · simp [putMember, Scalar.isSame, hk]
    · have hk' : key.identity ≠ k.identity := fun h => hk h.symm
      simp only [putMember, Scalar.isSame, hk, decide_false, Bool.false_eq_true, if_false,
        List.map_cons, ih, List.mem_cons, hk', false_or]
      split <;> rfl

theorem identities_putMember (members : Members) (key : Scalar) (d : Declaration) :
    (putMember members key d).map (fun m => m.1.identity) =
    if key.identity ∈ members.map (fun m => m.1.identity) then members.map (fun m => m.1.identity)
    else members.map (fun m => m.1.identity) ++ [key.identity] := by
  have h := congrArg (List.map Scalar.identity) (keys_putMember members key d)
  rw [apply_ite (List.map Scalar.identity), List.map_append, List.map_map, List.map_map] at h
  exact h

theorem distinct_putMember {members : Members} (h : members.Distinct) (key : Scalar)
    (d : Declaration) : (putMember members key d).Distinct := by
  unfold Members.Distinct
  rw [identities_putMember]
  split
  · exact h
  · next hnew =>
    rw [List.nodup_append]
    refine ⟨h,List.nodup_singleton _,?_⟩
    intro a ha b hb hab
    rw [List.mem_singleton] at hb
    exact hnew (hb ▸ hab ▸ ha)

theorem mem_putMember {members : Members} {key : Scalar} {d : Declaration}
    {m : Scalar × Declaration} (h : m ∈ putMember members key d) : m.2 = d ∨ m ∈ members := by
  induction members with
  | nil =>
    simp only [putMember, List.mem_singleton] at h
    exact Or.inl (by rw [h])
  | cons n rest ih =>
    obtain ⟨k,e⟩ := n
    unfold putMember at h
    split at h
    · rcases List.mem_cons.mp h with rfl | h
      · exact Or.inl rfl
      · exact Or.inr (List.mem_cons_of_mem _ h)
    · rcases List.mem_cons.mp h with rfl | h
      · exact Or.inr List.mem_cons_self
      · rcases ih h with hd | hm
        · exact Or.inl hd
        · exact Or.inr (List.mem_cons_of_mem _ hm)

/-- Putting in one member after the other leaves each key once, and nothing that was
not put in. -/
theorem foldl_putMember_keeps {members : Members} (pairs : Members) (h : members.Distinct) :
    (pairs.foldl (fun members p => putMember members p.1 p.2) members).Distinct ∧
    ∀ m ∈ pairs.foldl (fun members p => putMember members p.1 p.2) members,
      m ∈ members ∨ ∃ p ∈ pairs, p.2 = m.2 := by
  induction pairs generalizing members with
  | nil => exact ⟨h,fun m hm => Or.inl hm⟩
  | cons p rest ih =>
    obtain ⟨hdistinct,hmem⟩ := ih (distinct_putMember h p.1 p.2)
    refine ⟨hdistinct,?_⟩
    intro m hm
    rcases hmem m hm with hm | ⟨q,hq,heq⟩
    · rcases mem_putMember hm with heq | hm
      · exact Or.inr ⟨p,List.mem_cons_self,heq.symm⟩
      · exact Or.inl hm
    · exact Or.inr ⟨q,List.mem_cons_of_mem _ hq,heq⟩

theorem distinct_keyed (pairs : Members) : (keyed pairs).Distinct :=
  (foldl_putMember_keeps pairs Members.distinct_nil).1

theorem mem_keyed {pairs : Members} {m : Scalar × Declaration} (h : m ∈ keyed pairs) :
    ∃ p ∈ pairs, p.2 = m.2 := by
  rcases (foldl_putMember_keeps pairs Members.distinct_nil).2 m h with hm | hp
  · simp at hm
  · exact hp

theorem keys_foldl_putMember (members pairs : Members) :
    (pairs.foldl (fun members p => putMember members p.1 p.2) members).map (·.1) ⊆
    members.map (·.1) ++ pairs.map (·.1) := by
  induction pairs generalizing members with
  | nil => simp
  | cons p rest ih =>
    refine List.Subset.trans (ih (putMember members p.1 p.2)) ?_
    rw [keys_putMember]
    split <;> simp

/-- A member stands under the first of its keys, which is one of those given. -/
theorem key_of_mem_keyed {pairs : Members} {m : Scalar × Declaration} (h : m ∈ keyed pairs) :
    m.1 ∈ pairs.map (·.1) := by
  simpa using keys_foldl_putMember [] pairs (List.mem_map_of_mem h)

theorem exists_fields_of_decode {v : Value} {given : Option Scalar} {parent : Option String}
    {d : Declaration} (h : (decode v given parent).result = .ok d) : ∃ fs, v = .table fs := by
  cases v with
  | table fs => exact ⟨fs,rfl⟩
  | scalar | list | pair | set =>
    unfold decode at h
    cases h

/-- A member that is kept was read from one of the tables given as members. -/
theorem exists_decode_of_mem_members {fs : Fields} {given : Option Scalar}
    {parent : Option String} {d : Declaration}
    (h : (decode (.table fs) given parent).result = .ok d) {m : Scalar × Declaration}
    (hm : m ∈ d.members) : ∃ e ∈ memberTables (fs.get "children"),
      (decode e.2 e.1 (some d.path)).result = .ok m.2 := by
  obtain ⟨_,path,_,_,members,facts,-,-,-,-,-,hmembers,hfacts,rfl⟩ := decode_eq_ok.mp h
  obtain ⟨rfl,-,-⟩ := given_of_factsIn hfacts
  obtain ⟨p,hp,hpm⟩ := mem_keyed hm
  obtain ⟨e,he,c,hc,hkey⟩ := exists_left_of_forall₂ hmembers hp
  have hmc : m.2 = c := by rw [← hpm, ← hkey]
  rw [hmc]
  exact ⟨e,he,hc⟩

/-- Everything under a declaration was read as a member of a declaration. -/
theorem exists_decode_of_mem_walk : ∀ (v : Value) {given : Option Scalar} {parent : Option String}
    {d : Declaration}, (decode v given parent).result = .ok d → ∀ c ∈ d.walk,
      c = d ∨ ∃ w key above, above ∈ d.walk ∧ (decode w key (some above.path)).result = .ok c := by
  intro v given parent d h c hc
  obtain ⟨fs,rfl⟩ := exists_fields_of_decode h
  rcases mem_walk.mp hc with rfl | ⟨m,hm,hc⟩
  · exact Or.inl rfl
  · obtain ⟨e,he,hread⟩ := exists_decode_of_mem_members h hm
    have hlt : sizeOf e.2 < sizeOf (Value.table fs) :=
      Nat.lt_of_lt_of_le (sizeOf_memberTables_lt he) (sizeOf_get_le fs "children")
    refine Or.inr ?_
    rcases exists_decode_of_mem_walk e.2 hread c hc with rfl | ⟨w,key,above,habove,hw⟩
    · exact ⟨e.2,e.1,d,d.mem_walk_self,hread⟩
    · exact ⟨w,key,above,mem_walk.mpr (Or.inr ⟨m,hm,habove⟩),hw⟩
termination_by v => sizeOf v

theorem distinct_members_of_decode {v : Value} {given : Option Scalar} {parent : Option String}
    {d : Declaration} (h : (decode v given parent).result = .ok d) :
    Members.Distinct d.members := by
  obtain ⟨fs,rfl⟩ := exists_fields_of_decode h
  obtain ⟨_,_,_,_,members,_,-,-,-,-,-,-,-,rfl⟩ := decode_eq_ok.mp h
  exact distinct_keyed members

/-- However deep the document, its tables become members under distinct keys. -/
theorem wellKeyed_of_decode {v : Value} {given : Option Scalar} {parent : Option String}
    {d : Declaration} (h : (decode v given parent).result = .ok d) : d.WellKeyed := by
  intro c hc
  rcases exists_decode_of_mem_walk v h c hc with rfl | ⟨_,_,_,-,hread⟩
  · exact distinct_members_of_decode h
  · exact distinct_members_of_decode hread

end Declaration

namespace Module

/-- The exports and the members of everything under them have distinct keys. -/
structure WellKeyed (m : Module) : Prop where
  exports : m.exports.Distinct
  members : ∀ e ∈ m.exports, e.2.WellKeyed

instance (m : Module) : Decidable m.WellKeyed :=
  decidable_of_iff (m.exports.Distinct ∧ ∀ e ∈ m.exports, e.2.WellKeyed)
    ⟨fun h => ⟨h.1,h.2⟩,fun h => ⟨h.exports,h.members⟩⟩

theorem Decoded.wellKeyed {m : Module} (h : m.Decoded) : m.WellKeyed := by
  obtain ⟨fs,filename,h⟩ := h
  obtain ⟨_,ds,_,_,_,-,hds,-,-,rfl⟩ := ofFields_eq_ok.mp h
  refine ⟨Declaration.distinct_keyed _,?_⟩
  intro e he
  obtain ⟨p,hp,hpe⟩ := Declaration.mem_keyed he
  obtain ⟨d,hd,rfl⟩ := List.mem_map.mp hp
  obtain ⟨v,hv⟩ := decode_of_mem_readExports hds d hd
  rw [← hpe]
  exact Declaration.wellKeyed_of_decode hv

end Module

end ApiRelease
