import ApiRelease.Proofs.Release

/-! # The listing of a forest and the release that it asks for

An address leads to a change of the forest: which of the top-level changes, which of those
nested in it, and so on. Every change has one address, and the order of the addresses, in
which a change stands before what is nested in it, is the order of the listing.
-/
namespace ApiRelease

namespace Change

/-- What holds of no changes, and of changes of which it holds for what is nested in the
first and for the others, holds of every forest. -/
theorem forest_induction {P : List Change → Prop} (nil : P [])
    (cons : ∀ c rest, P c.nested → P rest → P (c :: rest)) : ∀ cs, P cs
  | [] => nil
  | ⟨f,ns⟩ :: rest =>
    cons ⟨f,ns⟩ rest (forest_induction nil cons ns) (forest_induction nil cons rest)

/-- The change at an address seen from a change above it. -/
def inner? : List Nat → Change → Option Change
  | [], c => some c
  | i :: address, c => c.nested[i]?.bind (inner? address)

def at? : List Nat → List Change → Option Change
  | [], _ => none
  | i :: address, cs => cs[i]?.bind (inner? address)

mutual

def innerAddresses : Change → List (List Nat)
  | ⟨_, ns⟩ => [] :: addresses ns

def addresses : List Change → List (List Nat)
  | [] => []
  | c :: rest => (innerAddresses c).map (0 :: ·) ++ (addresses rest).map (List.modifyHead (· + 1))

end

variable {c : Change} {cs rest : List Change} {address : List Nat}

theorem innerAddresses_eq (c : Change) : innerAddresses c = [] :: addresses c.nested := by
  cases c
  rw [innerAddresses]

theorem inner?_eq_at? (h : address ≠ []) : inner? address c = at? address c.nested := by
  cases address with
  | nil => exact absurd rfl h
  | cons i address => rfl

theorem at?_zero_cons : at? (0 :: address) (c :: rest) = inner? address c := rfl

theorem at?_succ_cons (i : Nat) : at? ((i + 1) :: address) (c :: rest) = at? (i :: address) rest := by
  simp [at?]

theorem ne_nil_of_mem_addresses (h : address ∈ addresses cs) : address ≠ [] := by
  induction cs generalizing address with
  | nil => simp [addresses] at h
  | cons c rest ih =>
    simp only [addresses, List.mem_append, List.mem_map] at h
    rcases h with ⟨inner,-,rfl⟩ | ⟨later,hlater,rfl⟩
    · exact List.cons_ne_nil 0 inner
    · simpa using ih hlater

/-- Each change of the forest has its address among the addresses, and there are no other
ones. -/
theorem mem_addresses_iff : address ∈ addresses cs ↔ (at? address cs).isSome = true := by
  induction cs using forest_induction generalizing address with
  | nil => cases address <;> simp [addresses, at?]
  | cons c rest inner later =>
    match address with
    | [] => exact iff_of_false (fun h => ne_nil_of_mem_addresses h rfl) (by simp [at?])
    | 0 :: below =>
      have hlater : 0 :: below ∉ (addresses rest).map (List.modifyHead (· + 1)) := by
        rintro h
        obtain ⟨a,-,ha⟩ := List.mem_map.mp h
        cases a <;> simp at ha
      rw [at?_zero_cons, addresses, List.mem_append, or_iff_left hlater, innerAddresses_eq]
      by_cases hb : below = []
      · simp [hb, inner?]
      · rw [inner?_eq_at? hb, ← inner]
        simp [hb]
    | (i + 1) :: below =>
      have hfirst : (i + 1) :: below ∉ (innerAddresses c).map (0 :: ·) := by simp
      rw [at?_succ_cons, addresses, List.mem_append, or_iff_right hfirst, ← later, List.mem_map]
      constructor
      · rintro ⟨a,ha,hhead⟩
        cases a with
        | nil => simp at hhead
        | cons j a =>
          simp only [List.modifyHead_cons, List.cons.injEq, Nat.add_right_cancel_iff] at hhead
          obtain ⟨rfl,rfl⟩ := hhead
          exact ha
      · intro h
        exact ⟨i :: below,h,rfl⟩

/-- A change stands before what is nested in it and that before the next change. -/
theorem sorted_addresses (cs : List Change) : (addresses cs).Pairwise (· < ·) := by
  induction cs using forest_induction with
  | nil => exact .nil
  | cons c rest inner later =>
    have hroot : ∀ a ∈ addresses c.nested, [] < a := by
      intro a ha
      obtain ⟨i,below,rfl⟩ := List.exists_cons_of_ne_nil (ne_nil_of_mem_addresses ha)
      exact List.nil_lt_cons i below
    rw [addresses, innerAddresses_eq, List.pairwise_append]
    refine ⟨?_,?_,?_⟩
    · exact (inner.cons hroot).map _ fun a b h => List.cons_lt_cons_self.mpr h
    · rw [List.pairwise_map]
      refine later.imp_of_mem ?_
      intro a b ha hb h
      obtain ⟨i,a,rfl⟩ := List.exists_cons_of_ne_nil (ne_nil_of_mem_addresses ha)
      obtain ⟨j,b,rfl⟩ := List.exists_cons_of_ne_nil (ne_nil_of_mem_addresses hb)
      simpa [List.cons_lt_cons_iff] using h
    · intro a ha b hb
      obtain ⟨a,-,rfl⟩ := List.mem_map.mp ha
      obtain ⟨b,hrest,rfl⟩ := List.mem_map.mp hb
      obtain ⟨j,b,rfl⟩ := List.exists_cons_of_ne_nil (ne_nil_of_mem_addresses hrest)
      exact List.cons_lt_cons_iff.mpr (Or.inl (Nat.succ_pos j))

theorem flattenNested_eq (cs : List Change) : flattenNested cs = cs.flatMap (flatten true) := by
  induction cs with
  | nil => rfl
  | cons c rest ih => rw [flattenNested, List.flatMap_cons, ih]

/-- The listing follows the addresses; with an address of one part comes the change as it
is, unless the forest lies inside another change. -/
theorem listed_at_addresses (inside : Bool) (cs : List Change) :
    List.Forall₂ (fun a e => ∃ c, at? a cs = some c ∧ e = listed (inside || decide (1 < a.length)) c)
      (addresses cs) (cs.flatMap (flatten inside)) := by
  induction cs using forest_induction generalizing inside with
  | nil => exact .nil
  | cons c rest inner later =>
    rw [addresses, innerAddresses_eq, List.map_cons, List.flatMap_cons, flatten_eq, List.cons_append,
      List.cons_append, flattenNested_eq]
    refine .cons ⟨c,rfl,by simp⟩ (List.rel_append ?_ ?_)
    · rw [List.forall₂_map_left_iff]
      refine (inner true).imp ?_
      rintro a e ⟨d,hd,rfl⟩
      cases a with
      | nil => cases hd
      | cons i below => exact ⟨d,hd,by simp⟩
    · rw [List.forall₂_map_left_iff]
      refine (later inside).imp ?_
      rintro a e ⟨d,hd,rfl⟩
      cases a with
      | nil => cases hd
      | cons i below => exact ⟨d,(at?_succ_cons i).trans hd,rfl⟩

end Change

namespace Release

theorem severityOf_foldl_le_iff {s : String} {types : List String} {n : Nat} :
    severityOf (types.foldl moreSevere s) ≤ n ↔ severityOf s ≤ n ∧ ∀ t ∈ types, severityOf t ≤ n := by
  induction types generalizing s with
  | nil => simp
  | cons t rest ih =>
    rw [List.foldl_cons, ih, severityOf_moreSevere, Nat.max_le, List.forall_mem_cons, and_assoc]

/-- The most severe is no more severe than a bound just if none is. -/
theorem severityOf_mostSevere_le_iff {types : List String} {n : Nat} :
    severityOf (mostSevere types) ≤ n ↔ ∀ t ∈ types, severityOf t ≤ n := by
  have hnone : severityOf (name .none) ≤ n := Nat.zero_le n
  rw [mostSevere, severityOf_foldl_le_iff, and_iff_right hnone]

/-- What is not a release type is never the most severe. -/
theorem exists_foldl_moreSevere (r : Release) (types : List String) :
    ∃ r' : Release, types.foldl moreSevere r.name = r'.name := by
  induction types generalizing r with
  | nil => exact ⟨r,rfl⟩
  | cons t rest ih =>
    rw [List.foldl_cons, moreSevere]
    split_ifs with h
    · cases ht : (Vocabulary.parse? t : Option Release) with
      | none => simp [severityOf, ht] at h
      | some s =>
        rw [← Vocabulary.name_of_parse? ht]
        exact ih s
    · exact ih r

theorem exists_mostSevere (types : List String) : ∃ r : Release, mostSevere types = r.name :=
  exists_foldl_moreSevere .none types

theorem severity_injective : Function.Injective severity := by
  intro r s h
  cases r <;> cases s <;> simp [severity] at h ⊢

/-- Release types of one severity are one. -/
theorem eq_of_severityOf {s t : String} (hs : ∃ r : Release, s = r.name)
    (ht : ∃ r : Release, t = r.name) (h : severityOf s = severityOf t) : s = t := by
  obtain ⟨r,rfl⟩ := hs
  obtain ⟨r',rfl⟩ := ht
  rw [severityOf_name, severityOf_name] at h
  rw [severity_injective h]

theorem mostSevere_congr {types types' : List String} (h : ∀ t, t ∈ types ↔ t ∈ types') :
    mostSevere types = mostSevere types' := by
  refine eq_of_severityOf (exists_mostSevere types) (exists_mostSevere types') (Nat.le_antisymm ?_ ?_)
  · exact severityOf_mostSevere_le_iff.mpr fun t ht => severityOf_le_mostSevere ((h t).mp ht)
  · exact severityOf_mostSevere_le_iff.mpr fun t ht => severityOf_le_mostSevere ((h t).mpr ht)

theorem severityOf_mostSevere_append (types types' : List String) :
    severityOf (mostSevere (types ++ types')) =
    max (severityOf (mostSevere types)) (severityOf (mostSevere types')) := by
  apply Nat.le_antisymm
  · rw [severityOf_mostSevere_le_iff]
    intro t ht
    rcases List.mem_append.mp ht with ht | ht
    · exact Nat.le_trans (severityOf_le_mostSevere ht) (Nat.le_max_left _ _)
    · exact Nat.le_trans (severityOf_le_mostSevere ht) (Nat.le_max_right _ _)
  · rw [Nat.max_le, severityOf_mostSevere_le_iff, severityOf_mostSevere_le_iff]
    exact ⟨fun t ht => severityOf_le_mostSevere (List.mem_append_left _ ht),
      fun t ht => severityOf_le_mostSevere (List.mem_append_right _ ht)⟩

/-- Of two parts the more severe one decides. -/
theorem mostSevere_append (types types' : List String) :
    mostSevere (types ++ types') =
    if severityOf (mostSevere types) < severityOf (mostSevere types') then mostSevere types'
    else mostSevere types := by
  have hmax := severityOf_mostSevere_append types types'
  split_ifs with h
  · exact eq_of_severityOf (exists_mostSevere _) (exists_mostSevere _) (by omega)
  · exact eq_of_severityOf (exists_mostSevere _) (exists_mostSevere _) (by omega)

/-- Among types of which there is one, the most severe is as severe as one of them. -/
theorem exists_mem_severityOf {types : List String} (hne : types ≠ []) :
    ∃ t ∈ types, severityOf t = severityOf (mostSevere types) := by
  rcases List.mem_cons.mp (foldl_moreSevere_mem (name .none) types) with hnone | hmem
  · obtain ⟨t,ht⟩ := List.exists_mem_of_ne_nil types hne
    have hle := severityOf_le_mostSevere ht
    rw [mostSevere, hnone] at hle ⊢
    exact ⟨t,ht,Nat.le_antisymm hle (Nat.zero_le _)⟩
  · exact ⟨_,hmem,rfl⟩

end Release

namespace CompiledPolicy

def releaseFor (p : CompiledPolicy) (cs : List Change) : String :=
  overallRelease (p.classifyAll true cs)

variable {p : CompiledPolicy} {cs ds : List Change}

theorem classifyAll_append (p : CompiledPolicy) (cs ds : List Change) : p.classifyAll true (cs ++ ds) =
    p.classifyAll true cs ++ p.classifyAll true ds := by
  simp [classifyAll, Change.flattenAll]

theorem mem_classifyAll_perm (h : ds.Perm cs) {r : Classified} :
    r ∈ p.classifyAll true ds ↔ r ∈ p.classifyAll true cs :=
  ((h.flatMap_right (Change.flatten false)).map p.classify).mem_iff

theorem mem_classifyAll_nested {r : Classified} (h : r ∈ p.classifyAll false cs) :
    r ∈ p.classifyAll true cs := by
  obtain ⟨c,hc,rfl⟩ := List.mem_map.mp h
  refine List.mem_map_of_mem (List.mem_flatMap.mpr ⟨c,hc,?_⟩)
  rw [Change.flatten_eq]
  exact List.mem_cons_self

/-- Each change of the forest is classified once, in the order of the addresses, a nested
one with the tag that says so. -/
theorem classifyAll_at_addresses (p : CompiledPolicy) (cs : List Change) :
    List.Forall₂ (fun a r => ∃ c, Change.at? a cs = some c ∧
        r = p.classify (c.listed (decide (1 < a.length))))
      (Change.addresses cs) (p.classifyAll true cs) := by
  have hlisted := Change.listed_at_addresses false cs
  simp only [Bool.false_or] at hlisted
  refine List.forall₂_map_right_iff.mpr (hlisted.imp ?_)
  rintro a e ⟨c,hc,rfl⟩
  exact ⟨c,hc,rfl⟩

/-- What a forest asks for: its changes are classified in order, each once, and the release
is the most severe of what they ask for. So the order of the changes makes no difference, of
two parts the more severe one decides, and what is nested can only make it more severe. -/
theorem releaseFor_forest (p : CompiledPolicy) (cs : List Change) :
    (∃ addresses : List (List Nat), addresses.Pairwise (· < ·) ∧
      (∀ a, a ∈ addresses ↔ (Change.at? a cs).isSome = true) ∧
      List.Forall₂ (fun a r => ∃ c, Change.at? a cs = some c ∧
        r = p.classify (c.listed (decide (1 < a.length)))) addresses (p.classifyAll true cs)) ∧
    (∀ r ∈ p.classifyAll true cs,
      Release.severityOf r.release.toText ≤ Release.severityOf (p.releaseFor cs)) ∧
    (cs ≠ [] → ∃ r ∈ p.classifyAll true cs,
      Release.severityOf r.release.toText = Release.severityOf (p.releaseFor cs)) ∧
    p.releaseFor [] = Release.none.name ∧
    (∀ ds, ds.Perm cs → p.releaseFor ds = p.releaseFor cs) ∧
    (∀ ds, p.releaseFor (cs ++ ds) =
      if Release.severityOf (p.releaseFor cs) < Release.severityOf (p.releaseFor ds)
      then p.releaseFor ds else p.releaseFor cs) ∧
    Release.severityOf (overallRelease (p.classifyAll false cs)) ≤
      Release.severityOf (p.releaseFor cs) := by
  refine ⟨⟨Change.addresses cs,Change.sorted_addresses cs,fun a => Change.mem_addresses_iff,
    classifyAll_at_addresses p cs⟩,?_,?_,rfl,?_,?_,?_⟩
  · intro r hr
    exact Release.severityOf_le_mostSevere (List.mem_map_of_mem hr)
  · intro hne
    obtain ⟨c,hc⟩ := List.exists_mem_of_ne_nil cs hne
    have htop : p.classify c ∈ p.classifyAll true cs :=
      mem_classifyAll_nested (List.mem_map_of_mem hc)
    obtain ⟨t,ht,hsevere⟩ := Release.exists_mem_severityOf
      (List.ne_nil_of_mem (List.mem_map_of_mem htop))
    obtain ⟨r,hr,rfl⟩ := List.mem_map.mp ht
    exact ⟨r,hr,hsevere⟩
  · intro ds hperm
    refine Release.mostSevere_congr fun t => ?_
    simp only [List.mem_map, mem_classifyAll_perm hperm]
  · intro ds
    simp only [releaseFor, overallRelease, classifyAll_append, List.map_append]
    exact Release.mostSevere_append _ _
  · refine Release.severityOf_mostSevere_le_iff.mpr fun t ht => ?_
    obtain ⟨r,hr,rfl⟩ := List.mem_map.mp ht
    exact Release.severityOf_le_mostSevere (List.mem_map_of_mem (mem_classifyAll_nested hr))

end CompiledPolicy

end ApiRelease
