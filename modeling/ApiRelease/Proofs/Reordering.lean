import Mathlib.Data.List.Nodup
import ApiRelease.Diff.Reorder

/-! # Names that change places

Which names moved is read off the last place of each name. In lists of different names that
is the only one, and a name moved just if it stands in both lists at different places. Where
a name moved from another name stands now, so that two names that moved are two places
whose name changed; the weaker evidence is about such places from the outset. Lists with the
same names in another order always have two names that moved: what stood at a place where
they differ, and what stands there now.
-/
namespace ApiRelease.Reorder

variable {ps olds news : List Parameter} {name : String} {i j : Nat} {p : Place}

def nameAt (ps : List Parameter) (i : Nat) : Option String := (ps.map (·.name))[i]?

def Moved (olds news : List Parameter) (name : String) : Prop :=
  ∃ i j, i ≠ j ∧ nameAt olds i = some name ∧ nameAt news j = some name

def Renamed (olds news : List Parameter) (i : Nat) : Prop :=
  i < olds.length ∧ nameAt olds i ≠ nameAt news i

/-- Only such lists are looked at: several parameters, as many as before, with the same types
place by place. -/
def Comparable (olds news : List Parameter) : Prop :=
  olds.length = news.length ∧ 2 ≤ olds.length ∧ olds.map (·.type) = news.map (·.type)

theorem nameAt_inj (h : (ps.map (·.name)).Nodup) (hi : nameAt ps i = some name)
    (hj : nameAt ps j = some name) : i = j := by
  have hlt : i < (ps.map (·.name)).length := (List.getElem?_eq_some_iff.mp hi).1
  exact (List.getElem?_inj hlt h).mp (hi.trans hj.symm)

theorem lastPlace?_eq_some_iff (h : (ps.map (·.name)).Nodup) :
    lastPlace? ps name = some i ↔ nameAt ps i = some name := by
  have hsound (k : Nat) (hk : lastPlace? ps name = some k) : nameAt ps k = some name := by
    obtain ⟨⟨q,k⟩,hfound,rfl⟩ := Option.map_eq_some_iff.mp hk
    have hname : q.name = name := by simpa using List.find?_some hfound
    have hplace : ps[k]? = some q :=
      List.mem_zipIdx_iff_getElem?.mp (List.mem_reverse.mp (List.mem_of_find?_eq_some hfound))
    simp [nameAt, hplace, hname]
  refine ⟨hsound i,?_⟩
  intro hi
  obtain ⟨q,hq,hname⟩ : ∃ q, ps[i]? = some q ∧ q.name = name := by simpa [nameAt] using hi
  cases hlast : lastPlace? ps name with
  | some k => rw [nameAt_inj h hi (hsound k hlast)]
  | none =>
    have hnone := List.find?_eq_none.mp (Option.map_eq_none_iff.mp hlast) (q,i)
      (List.mem_reverse.mpr (List.mem_zipIdx_iff_getElem?.mpr hq))
    simp [hname] at hnone

theorem mem_movedNames (ho : (olds.map (·.name)).Nodup) (hn : (news.map (·.name)).Nodup) :
    name ∈ movedNames olds news ↔ Moved olds news name := by
  rw [movedNames, List.mem_filter, List.mem_eraseDups]
  constructor
  · rintro ⟨-,hmoved⟩
    split at hmoved
    · rename_i i j hi hj
      exact ⟨i,j,by simpa using hmoved,(lastPlace?_eq_some_iff ho).mp hi,
        (lastPlace?_eq_some_iff hn).mp hj⟩
    · simp at hmoved
  · rintro ⟨i,j,hij,hi,hj⟩
    rw [(lastPlace?_eq_some_iff ho).mpr hi, (lastPlace?_eq_some_iff hn).mpr hj]
    exact ⟨List.mem_of_getElem? hi,by simpa using hij⟩

theorem eraseDups_of_nodup {names : List String} (h : names.Nodup) : names.eraseDups = names := by
  induction names with
  | nil => rfl
  | cons name rest ih =>
    obtain ⟨hname,hrest⟩ := List.nodup_cons.mp h
    have hkept : rest.filter (fun other => !other == name) = rest := by
      apply List.filter_eq_self.mpr
      intro other hother
      simpa using ne_of_mem_of_not_mem hother hname
    rw [List.eraseDups_cons, hkept, ih hrest]

theorem two_le_length_iff {α : Type} {l : List α} (h : l.Nodup) :
    2 ≤ l.length ↔ ∃ a b, a ≠ b ∧ a ∈ l ∧ b ∈ l := by
  constructor
  · intro hlength
    match l with
    | a :: b :: rest =>
      have hab : a ≠ b := by
        rintro rfl
        simp at h
      exact ⟨a,b,hab,by simp,by simp⟩
  · rintro ⟨a,b,hab,ha,hb⟩
    match l with
    | [] => simp at ha
    | [c] => exact absurd ((List.mem_singleton.mp ha).trans (List.mem_singleton.mp hb).symm) hab
    | c :: d :: rest => simp

/-- Several names moved. -/
theorem two_le_movedNames_iff (ho : (olds.map (·.name)).Nodup) (hn : (news.map (·.name)).Nodup) :
    2 ≤ (movedNames olds news).length ↔
      ∃ a b, a ≠ b ∧ Moved olds news a ∧ Moved olds news b := by
  have hnodup : (movedNames olds news).Nodup := by
    rw [movedNames, eraseDups_of_nodup ho]
    exact ho.filter _
  rw [two_le_length_iff hnodup]
  simp only [mem_movedNames ho hn]

theorem map_position_placesFrom (position : Nat) (olds news : List Parameter) :
    (placesFrom position olds news).map (·.position) =
      List.range' position (placesFrom position olds news).length := by
  induction olds generalizing position news with
  | nil => simp [placesFrom]
  | cons old olds ih =>
    cases news with
    | nil => simp [placesFrom]
    | cons new news => simp [placesFrom, placeOf, ih, List.range'_succ]

theorem names_of_mem_placesFrom {position : Nat} (hp : p ∈ placesFrom position olds news) :
    ∃ i, p.position = position + i ∧ nameAt olds i = some p.oldName ∧
      nameAt news i = some p.newName := by
  induction olds generalizing position news with
  | nil => simp [placesFrom] at hp
  | cons old olds ih =>
    cases news with
    | nil => simp [placesFrom] at hp
    | cons new news =>
      rcases List.mem_cons.mp hp with rfl | hp
      · exact ⟨0,rfl,rfl,rfl⟩
      · obtain ⟨i,hi,hold,hnew⟩ := ih hp
        exact ⟨i + 1,by omega,hold,hnew⟩

theorem renamed_of_unlike (hp : p ∈ placesFrom 0 olds news) (h : p.unlike = true) :
    Renamed olds news p.position := by
  obtain ⟨i,hi,hold,hnew⟩ := names_of_mem_placesFrom hp
  obtain rfl : p.position = i := by omega
  have hchanged : p.oldName ≠ p.newName := by
    rw [Place.unlike, Bool.and_eq_true] at h
    simpa [Place.changed] using h.1
  constructor
  · simpa using (List.getElem?_eq_some_iff.mp hold).1
  · rw [hold, hnew]
    simpa using hchanged

/-- The places of a pairing are pairwise different. -/
theorem exists_renamed_of_unlike (h : 2 ≤ ((placesFrom 0 olds news).filter Place.unlike).length) :
    ∃ i j, i ≠ j ∧ Renamed olds news i ∧ Renamed olds news j := by
  have hnodup : (((placesFrom 0 olds news).filter Place.unlike).map (·.position)).Nodup := by
    have hall : ((placesFrom 0 olds news).map (·.position)).Nodup := by
      rw [map_position_placesFrom]
      exact List.nodup_range'
    exact hall.sublist (List.filter_sublist.map _)
  have hrenamed : ∀ i ∈ ((placesFrom 0 olds news).filter Place.unlike).map (·.position),
      Renamed olds news i := by
    intro i hi
    obtain ⟨p,hp,rfl⟩ := List.mem_map.mp hi
    obtain ⟨hp,hunlike⟩ := List.mem_filter.mp hp
    exact renamed_of_unlike hp hunlike
  have hseveral : 2 ≤ (((placesFrom 0 olds news).filter Place.unlike).map (·.position)).length := by
    simpa using h
  obtain ⟨i,j,hij,hi,hj⟩ := (two_le_length_iff hnodup).mp hseveral
  exact ⟨i,j,hij,hrenamed i hi,hrenamed j hj⟩

theorem types_iff (h : olds.length = news.length) :
    ((olds.zip news).any fun p => p.1.type != p.2.type) = false ↔
      olds.map (·.type) = news.map (·.type) := by
  induction olds generalizing news with
  | nil =>
    cases news with
    | nil => simp
    | cons new news => simp at h
  | cons old olds ih =>
    cases news with
    | nil => simp at h
    | cons new news =>
      have ih := ih (Nat.succ.inj h)
      simp only [List.zip_cons_cons, List.any_cons, Bool.or_eq_false_iff, ih, List.map_cons,
        List.cons.injEq, bne_eq_false_iff_eq]

/-- The old names that turn up elsewhere, as far as they are told. -/
def crossings (olds news : List Parameter) : List String :=
  ((placesFrom 0 olds news).filter Place.unlike).filterMap fun p => p.crossText olds

theorem confidence_of_comparable (h : Comparable olds news) : (detect olds news).confidence =
    if 2 ≤ (movedNames olds news).length then .high
    else if 2 ≤ ((placesFrom 0 olds news).filter Place.unlike).length ∧
      2 ≤ (crossings olds news).length then .medium
    else .low := by
  obtain ⟨hlength,hseveral,htypes⟩ := h
  have hsame : (olds.length != news.length) = false := by simpa using hlength
  have hmany : ¬olds.length < 2 := by omega
  have hkept := (types_iff hlength).mpr htypes
  unfold detect crossings
  simp only [hsame, hmany, hkept, Bool.false_eq_true, if_false, Bool.and_eq_true, decide_eq_true_eq]
  split_ifs <;> rfl

theorem confidence_of_not_comparable (h : ¬Comparable olds news) :
    (detect olds news).confidence = .low := by
  unfold detect
  simp only
  by_cases hlength : olds.length = news.length
  · by_cases hseveral : 2 ≤ olds.length
    · have hmany : ¬olds.length < 2 := by omega
      have htypes : (olds.zip news).any (fun p => p.1.type != p.2.type) = true := by
        apply (Bool.not_eq_false _).mp
        intro hkept
        exact h ⟨hlength,hseveral,(types_iff hlength).mp hkept⟩
      rw [if_neg (by simpa using hlength), if_neg hmany, if_pos htypes]
    · rw [if_neg (by simpa using hlength), if_pos (by omega)]
  · rw [if_pos (by simpa using hlength)]

theorem hasReordering_iff :
    (detect olds news).hasReordering = true ↔ (detect olds news).confidence ≠ .low := by
  unfold detect
  simp only
  split_ifs <;> simp

/-- Where a name moved from, another one stands now. -/
theorem Moved.renamed (h : Moved olds news name) (hn : (news.map (·.name)).Nodup) :
    ∃ i, Renamed olds news i ∧ nameAt olds i = some name := by
  obtain ⟨i,j,hij,hi,hj⟩ := h
  have hlength : i < olds.length := by simpa using (List.getElem?_eq_some_iff.mp hi).1
  have hother : nameAt olds i ≠ nameAt news i := fun h => hij (nameAt_inj hn (h ▸ hi) hj)
  exact ⟨i,⟨hlength,hother⟩,hi⟩

theorem exists_renamed_of_moved (hn : (news.map (·.name)).Nodup) {a b : String} (hab : a ≠ b)
    (ha : Moved olds news a) (hb : Moved olds news b) :
    ∃ i j, i ≠ j ∧ Renamed olds news i ∧ Renamed olds news j := by
  obtain ⟨i,hi,hia⟩ := ha.renamed hn
  obtain ⟨j,hj,hjb⟩ := hb.renamed hn
  have hij : i ≠ j := by
    rintro rfl
    exact hab (Option.some.inj (hia.symm.trans hjb))
  exact ⟨i,j,hij,hi,hj⟩

/-- If the names are the same in another order, two of them moved. -/
theorem exists_moved_of_perm (hperm : (olds.map (·.name)).Perm (news.map (·.name)))
    (hne : olds.map (·.name) ≠ news.map (·.name)) :
    ∃ a b, a ≠ b ∧ Moved olds news a ∧ Moved olds news b := by
  obtain ⟨i,hi⟩ : ∃ i, nameAt olds i ≠ nameAt news i := by
    by_contra h
    exact hne (List.ext_getElem? fun i => not_not.mp (not_exists.mp h i))
  have hlt : i < olds.length := by
    by_contra h
    have hold : nameAt olds i = none := List.getElem?_eq_none (by simpa using h)
    have hnew : nameAt news i = none :=
      List.getElem?_eq_none (by rw [← hperm.length_eq]; simpa using h)
    exact hi (hold.trans hnew.symm)
  obtain ⟨a,ha⟩ : ∃ a, nameAt olds i = some a := ⟨_,List.getElem?_eq_getElem (by simpa using hlt)⟩
  obtain ⟨b,hb⟩ : ∃ b, nameAt news i = some b :=
    ⟨_,List.getElem?_eq_getElem (by rw [← hperm.length_eq]; simpa using hlt)⟩
  have hab : a ≠ b := by
    rintro rfl
    exact hi (ha.trans hb.symm)
  obtain ⟨j,hj⟩ := List.mem_iff_getElem?.mp (hperm.mem_iff.mp (List.mem_of_getElem? ha))
  obtain ⟨k,hk⟩ := List.mem_iff_getElem?.mp (hperm.mem_iff.mpr (List.mem_of_getElem? hb))
  have hij : i ≠ j := by
    rintro rfl
    exact hab (Option.some.inj (hj.symm.trans hb))
  have hki : k ≠ i := by
    rintro rfl
    exact hab (Option.some.inj (ha.symm.trans hk))
  exact ⟨a,b,hab,⟨i,j,hij,ha,hj⟩,⟨k,i,hki,hk,hb⟩⟩

theorem comparable_of_confidence (h : (detect olds news).confidence ≠ .low) :
    Comparable olds news := by
  by_contra hnot
  exact h (confidence_of_not_comparable hnot)

/-- Only names that moved make a reordering sure. -/
theorem confidence_eq_high_iff (ho : (olds.map (·.name)).Nodup) (hn : (news.map (·.name)).Nodup) :
    (detect olds news).confidence = .high ↔ Comparable olds news ∧
      ∃ a b, a ≠ b ∧ Moved olds news a ∧ Moved olds news b := by
  rw [← two_le_movedNames_iff ho hn]
  constructor
  · intro h
    have hc : Comparable olds news := comparable_of_confidence (by simp [h])
    rw [confidence_of_comparable hc] at h
    split_ifs at h with hmoved
    exact ⟨hc,hmoved⟩
  · rintro ⟨hc,hmoved⟩
    rw [confidence_of_comparable hc, if_pos hmoved]

/-- Lists of different names are said to be reordered for sure if and only if they are
comparable and several names moved, as in every other order of the same names. Whenever they
are said to be reordered they are comparable, and several places have got another name. -/
theorem detect_of_distinct_names (ho : (olds.map (·.name)).Nodup) (hn : (news.map (·.name)).Nodup) :
    ((detect olds news).confidence = .high ↔ Comparable olds news ∧
      ∃ a b, a ≠ b ∧ Moved olds news a ∧ Moved olds news b) ∧
    ((olds.map (·.name)).Perm (news.map (·.name)) → olds.map (·.name) ≠ news.map (·.name) →
      olds.map (·.type) = news.map (·.type) → (detect olds news).confidence = .high) ∧
    ((detect olds news).hasReordering = true ↔
      (detect olds news).confidence = .high ∨ (detect olds news).confidence = .medium) ∧
    ((detect olds news).hasReordering = true → Comparable olds news ∧
      ∃ i j, i ≠ j ∧ Renamed olds news i ∧ Renamed olds news j) := by
  have hhigh := confidence_eq_high_iff ho hn
  refine ⟨hhigh,?_,?_,?_⟩
  · intro hperm hne htypes
    obtain ⟨a,b,hab,ha,hb⟩ := exists_moved_of_perm hperm hne
    have hlength : olds.length = news.length := by simpa using hperm.length_eq
    have hseveral : 2 ≤ olds.length := by
      obtain ⟨i,j,hij,⟨hi,-⟩,⟨hj,-⟩⟩ := exists_renamed_of_moved hn hab ha hb
      omega
    exact hhigh.mpr ⟨⟨hlength,hseveral,htypes⟩,a,b,hab,ha,hb⟩
  · rw [hasReordering_iff]
    cases (detect olds news).confidence <;> simp
  · intro h
    have hlow := hasReordering_iff.mp h
    have hc := comparable_of_confidence hlow
    refine ⟨hc,?_⟩
    rw [confidence_of_comparable hc] at hlow
    split_ifs at hlow with hmoved hunlike
    · obtain ⟨a,b,hab,ha,hb⟩ := (two_le_movedNames_iff ho hn).mp hmoved
      exact exists_renamed_of_moved hn hab ha hb
    · exact exists_renamed_of_unlike hunlike.1
    · exact absurd rfl hlow

def numeric (names : List String) : List Parameter :=
  names.map fun name => ⟨name,"number",false,false,none⟩

/-- Two names that change places are enough, whatever becomes of the others. -/
theorem detect_of_swap :
    ((numeric ["x","y","label"]).map (·.name)).Nodup ∧
    ((numeric ["y","x","title"]).map (·.name)).Nodup ∧
    (detect (numeric ["x","y","label"]) (numeric ["y","x","title"])).confidence = .high ∧
    ∃ i j, i ≠ j ∧ Renamed (numeric ["x","y","label"]) (numeric ["y","x","title"]) i ∧
      Renamed (numeric ["x","y","label"]) (numeric ["y","x","title"]) j := by
  have ho : ((numeric ["x","y","label"]).map (·.name)).Nodup := by decide
  have hn : ((numeric ["y","x","title"]).map (·.name)).Nodup := by decide
  obtain ⟨hhigh,-,hsure,hreordered⟩ := detect_of_distinct_names ho hn
  have hx : Moved (numeric ["x","y","label"]) (numeric ["y","x","title"]) "x" :=
    ⟨0,1,by decide,rfl,rfl⟩
  have hy : Moved (numeric ["x","y","label"]) (numeric ["y","x","title"]) "y" :=
    ⟨1,0,by decide,rfl,rfl⟩
  have hconfidence := hhigh.mpr ⟨⟨rfl,by decide,rfl⟩,"x","y",by decide,hx,hy⟩
  exact ⟨ho,hn,hconfidence,(hreordered (hsure.mpr (Or.inl hconfidence))).2⟩

end ApiRelease.Reorder
