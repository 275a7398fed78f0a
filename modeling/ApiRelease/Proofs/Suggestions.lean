import ApiRelease.Proofs.Wording
import Mathlib.Data.String.Basic
import Mathlib.Order.Basic

/-! # Suggestions for an intent

Phrases are ranked by their distance from what was written, and phrases of one distance by
the alphabet. What is suggested begins with the near ones in this order, and goes on with
those that share words. No phrase comes twice, and the condition that was written follows
each of them, so that a suggestion is an intent wherever the condition is one that intents
may have.
-/
namespace ApiRelease.Intent

variable {e base : String} {p : Phrase} {r s : Nat × String}

/-! ## Ranking -/

def RankedBefore (r s : Nat × String) : Prop := r.1 < s.1 ∨ r.1 = s.1 ∧ r.2 ≤ s.2

theorem RankedBefore.distance_le (h : RankedBefore r s) : r.1 ≤ s.1 :=
  h.elim le_of_lt fun h => h.1.le

theorem RankedBefore.trans {t : Nat × String} (hrs : RankedBefore r s) (hst : RankedBefore s t) :
    RankedBefore r t := by
  rcases hrs with hlt | ⟨heq,hle⟩
  · rcases hst with h | ⟨h,-⟩
    · exact Or.inl (hlt.trans h)
    · exact Or.inl (h ▸ hlt)
  · rcases hst with h | ⟨h,htext⟩
    · exact Or.inl (heq ▸ h)
    · exact Or.inr ⟨heq.trans h,hle.trans htext⟩

theorem RankedBefore.total (r s : Nat × String) : RankedBefore r s ∨ RankedBefore s r := by
  rcases lt_trichotomy r.1 s.1 with hlt | heq | hgt
  · exact Or.inl (Or.inl hlt)
  · exact (le_total r.2 s.2).imp (fun h => Or.inr ⟨heq,h⟩) fun h => Or.inr ⟨heq.symm,h⟩
  · exact Or.inr (Or.inl hgt)

theorem pairwise_ranked (base : String) : (ranked base).Pairwise RankedBefore := by
  have hiff (r s : Nat × String) :
      (decide (r.1 < s.1) || (r.1 == s.1 && !decide (s.2 < r.2))) = true ↔ RankedBefore r s := by
    simp only [RankedBefore, Bool.or_eq_true, Bool.and_eq_true, Bool.not_eq_true',
      decide_eq_true_eq, decide_eq_false_iff_not, beq_iff_eq, not_lt]
  refine (List.pairwise_mergeSort ?_ ?_ _).imp fun h => (hiff _ _).mp h
  · intro r s t hrs hst
    exact (hiff r t).mpr (((hiff r s).mp hrs).trans ((hiff s t).mp hst))
  · intro r s
    rw [Bool.or_eq_true, hiff, hiff]
    exact RankedBefore.total r s

theorem mem_ranked : r ∈ ranked base ↔ ∃ p ∈ phrases, (Text.editDistance base p.text,p.text) = r := by
  rw [ranked, List.mem_mergeSort, List.mem_map]

theorem nodup_texts : (phrases.map (·.text)).Nodup := by
  decide

theorem nodup_ranked (base : String) : ((ranked base).map (·.2)).Nodup := by
  have hperm : (ranked base).Perm (phrases.map fun p => (Text.editDistance base p.text,p.text)) :=
    List.mergeSort_perm ..
  rw [(hperm.map _).nodup_iff, List.map_map]
  exact nodup_texts

/-! ## Candidates -/

def reach (base : String) : Nat := max 3 (base.length / 2)

def near (base : String) : List (Nat × String) :=
  (ranked base).filter fun r => r.1 ≤ reach base

def candidates (base : String) : List (Nat × String) :=
  near base ++
    (ranked base).filter fun r => !(near base).contains r && 2 ≤ sharedWords base r.2

theorem mem_ranked_of_mem_candidates (h : r ∈ candidates base) : r ∈ ranked base := by
  rcases List.mem_append.mp h with h | h <;> exact List.mem_of_mem_filter h

theorem nodup_candidates (base : String) : ((candidates base).map (·.2)).Nodup := by
  have hranked := nodup_ranked base
  rw [candidates, List.map_append, List.nodup_append]
  refine ⟨hranked.sublist (List.filter_sublist.map _),hranked.sublist (List.filter_sublist.map _),?_⟩
  intro a ha b hb heq
  obtain ⟨r,hr,rfl⟩ := List.mem_map.mp ha
  obtain ⟨s,hs,rfl⟩ := List.mem_map.mp hb
  obtain ⟨hs,hfar⟩ := List.mem_filter.mp hs
  obtain rfl := List.inj_on_of_nodup_map hranked (List.mem_of_mem_filter hr) hs heq
  simp [hr] at hfar

/-- Where a phrase is near, the phrase that is suggested first comes before all others. -/
theorem head?_candidates (hp : p ∈ phrases) (hnear : Text.editDistance base p.text ≤ reach base) :
    ∃ q ∈ phrases, (candidates base).head? = some (Text.editDistance base q.text,q.text) ∧
      ∀ t ∈ phrases, RankedBefore (Text.editDistance base q.text,q.text)
        (Text.editDistance base t.text,t.text) := by
  have hmem : (Text.editDistance base p.text,p.text) ∈ near base :=
    List.mem_filter.mpr ⟨mem_ranked.mpr ⟨p,hp,rfl⟩,decide_eq_true hnear⟩
  obtain ⟨r,rest,hcons⟩ := List.exists_cons_of_ne_nil (List.ne_nil_of_mem hmem)
  have hr : r ∈ near base := hcons ▸ List.mem_cons_self
  obtain ⟨hranked,hreach⟩ := List.mem_filter.mp hr
  obtain ⟨q,hq,rfl⟩ := mem_ranked.mp hranked
  have hsorted : (near base).Pairwise RankedBefore := (pairwise_ranked base).filter _
  refine ⟨q,hq,by rw [candidates, hcons]; rfl,fun t ht => ?_⟩
  by_cases hfar : Text.editDistance base t.text ≤ reach base
  · have hin : (Text.editDistance base t.text,t.text) ∈ near base :=
      List.mem_filter.mpr ⟨mem_ranked.mpr ⟨t,ht,rfl⟩,decide_eq_true hfar⟩
    rw [hcons, List.mem_cons] at hin
    rcases hin with heq | hin
    · rw [heq]
      exact Or.inr ⟨rfl,le_rfl⟩
    · rw [hcons] at hsorted
      exact List.rel_of_pairwise_cons hsorted hin
  · -- what is not near is farther off than all that is
    exact Or.inl ((of_decide_eq_true hreach).trans_lt (not_le.mp hfar))

/-! ## Suggestions -/

def restricted (condition : Option (Keyword × String)) (text : String) : String :=
  match condition with
  | none => text
  | some (keyword,condition) => text ++ " " ++ keyword.name ++ " " ++ condition

theorem restricted_injective (condition : Option (Keyword × String)) :
    Function.Injective (restricted condition) := by
  intro a b h
  match condition with
  | none => exact h
  | some (keyword,condition) =>
    have hchars := congrArg String.toList h
    simp only [restricted, toList_conditional] at hchars
    exact String.toList_injective (List.append_cancel_right hchars)

def Allowed (condition : Option (Keyword × String)) : Prop :=
  ∀ c ∈ condition, conditionError c.1 c.2 = none

theorem isValid_restricted {condition : Option (Keyword × String)} (hp : p ∈ phrases)
    (h : Allowed condition) : isValid (restricted condition p.text) = true := by
  match condition with
  | none => exact isValid_text hp
  | some (keyword,condition) =>
    have hsaid : ∃ c, Says (p.text ++ " " ++ keyword.name ++ " " ++ condition) p c := by
      rcases conditionError_eq_none_iff.mp (h _ rfl) with hnested | ⟨rfl,k,rfl⟩
      · exact ⟨_,.nested hp keyword condition hnested⟩
      · rw [← when_kind]
        exact ⟨_,.kind hp k⟩
    obtain ⟨c,hsaid⟩ := hsaid
    exact isValid_iff.mpr ⟨p,c,(normalize_of_said hsaid).symm ▸ hsaid⟩

def listing (e : String) : List String :=
  ((candidates (parts e).base).map (·.2)).map (restricted (parts e).condition)

theorem suggestions_eq (h : (parts e).base ≠ "") (limit : Nat) :
    suggestions e limit = (listing e).take limit := by
  have hempty : (parts e).base.isEmpty = false := by simpa using h
  have hlimit : ¬ (limit : Int) < 0 := by omega
  simp only [suggestions, hempty, Bool.false_eq_true, if_false, upTo, if_neg hlimit,
    Int.toNat_natCast, listing, candidates, near, reach]
  cases (parts e).condition <;> simp [restricted, Function.comp_def]

theorem nodup_listing (e : String) : (listing e).Nodup :=
  (nodup_candidates _).map (restricted_injective _)

theorem exists_phrase_of_mem_listing {s : String} (h : s ∈ listing e) :
    ∃ p ∈ phrases, restricted (parts e).condition p.text = s := by
  obtain ⟨text,htext,rfl⟩ := List.mem_map.mp h
  obtain ⟨r,hr,rfl⟩ := List.mem_map.mp htext
  obtain ⟨p,hp,rfl⟩ := mem_ranked.mp (mem_ranked_of_mem_candidates hr)
  exact ⟨p,hp,rfl⟩

/-- What is suggested for an expression that says something: at most three texts, no text
twice, each a known phrase with the condition of the expression, and an intent if the
condition is allowed; where a phrase is near, the first of all phrases comes first. -/
theorem suggestions_usable_nearest_first {e : String} (h : (parts e).base ≠ "") :
    (suggestions e 3).length ≤ 3 ∧ (suggestions e 3).Nodup ∧
    (∀ s ∈ suggestions e 3, ∃ p ∈ phrases, restricted (parts e).condition p.text = s) ∧
    (Allowed (parts e).condition → ∀ s ∈ suggestions e 3, isValid s = true) ∧
    ((∃ p ∈ phrases, Text.editDistance (parts e).base p.text ≤ reach (parts e).base) →
      ∃ q ∈ phrases, (suggestions e 3).head? = some (restricted (parts e).condition q.text) ∧
        ∀ t ∈ phrases, RankedBefore (Text.editDistance (parts e).base q.text,q.text)
          (Text.editDistance (parts e).base t.text,t.text)) := by
  have hshown : suggestions e 3 = (listing e).take 3 := suggestions_eq h 3
  rw [hshown]
  have hphrase (s : String) (hs : s ∈ (listing e).take 3) :
      ∃ p ∈ phrases, restricted (parts e).condition p.text = s :=
    exists_phrase_of_mem_listing (List.mem_of_mem_take hs)
  refine ⟨List.length_take_le ..,(nodup_listing e).sublist (List.take_sublist ..),hphrase,?_,?_⟩
  · intro hallowed s hs
    obtain ⟨p,hp,rfl⟩ := hphrase s hs
    exact isValid_restricted hp hallowed
  · rintro ⟨p,hp,hnear⟩
    obtain ⟨q,hq,hhead,hfirst⟩ := head?_candidates hp hnear
    refine ⟨q,hq,?_,hfirst⟩
    rw [List.head?_take, if_neg (by decide), listing, List.head?_map, List.head?_map, hhead,
      Option.map_some, Option.map_some]

def misspelled : String := "Safe REMVAL  when nested"

theorem parts_misspelled : (parts misspelled).base = "safe remval" ∧
    (parts misspelled).condition = some (.when,"nested") := by
  decide +kernel

/-- Only one phrase is one letter off. -/
theorem text_of_misspelled : ∀ q ∈ phrases,
    Text.editDistance "safe remval" q.text ≤ 1 → q.text = "safe removal" := by
  decide +kernel

/-- What is meant is suggested first, with the condition. -/
theorem suggestions_usable_nearest_first_misspelled :
    (parts misspelled).base ≠ "" ∧
    (suggestions misspelled 3).head? = some "safe removal when nested" ∧
    ∀ s ∈ suggestions misspelled 3, isValid s = true := by
  obtain ⟨hbase,hcondition⟩ := parts_misspelled
  have hne : (parts misspelled).base ≠ "" := by simp [hbase]
  obtain ⟨-,-,-,hvalid,hfirst⟩ := suggestions_usable_nearest_first hne
  rw [hbase, hcondition] at hfirst
  rw [hcondition] at hvalid
  have hallowed : Allowed (some (.when,"nested")) := by
    rintro _ ⟨⟩
    decide
  have hnear : ∃ p ∈ phrases, Text.editDistance "safe remval" p.text ≤ 1 := by
    refine ⟨⟨"safe removal","removed optional \x7btarget\x7d",.parameter⟩,by simp [phrases],?_⟩
    decide +kernel
  obtain ⟨p,hp,hone⟩ := hnear
  have hreach : 1 ≤ reach "safe remval" := le_max_of_le_left (by decide)
  obtain ⟨q,hq,hhead,hbefore⟩ := hfirst ⟨p,hp,hone.trans hreach⟩
  have hq1 : Text.editDistance "safe remval" q.text ≤ 1 :=
    (hbefore p hp).distance_le.trans hone
  refine ⟨hne,?_,hvalid hallowed⟩
  rw [hhead, text_of_misspelled q hq hq1]
  rfl

end ApiRelease.Intent
