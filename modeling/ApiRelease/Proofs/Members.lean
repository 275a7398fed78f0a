import ApiRelease.Diff.Forest
import Mathlib.Data.List.Basic

/-! # Look-up and matching of members

Keys are one when their identities are equal, so look-up depends on the identity
alone. What a match calls removed or added is what look-up on the other side does
not find, and members under distinct keys are kept as they are given.
-/
namespace ApiRelease

theorem Scalar.isSame_iff {a b : Scalar} : a.isSame b = true ↔ a.identity = b.identity := by
  simp [Scalar.isSame]

@[simp] theorem Scalar.identity_text (s : String) : (Scalar.text s).identity = .itself (.text s) := rfl

theorem Scalar.identity_text_injective : Function.Injective fun s => (Scalar.text s).identity := by
  intro a b hab
  simpa using hab

namespace Members

theorem find?_congr {a b : Scalar} (h : a.identity = b.identity) (members : Members) :
    find? a members = find? b members := by
  induction members with
  | nil => rfl
  | cons m rest ih =>
    obtain ⟨k,d⟩ := m
    have hk : k.isSame a = k.isSame b := by simp [Scalar.isSame, h]
    simp only [find?, hk, ih]

theorem mem_of_find? {key : Scalar} {members : Members} {d : Declaration}
    (h : find? key members = some d) : ∃ k, (k,d) ∈ members ∧ k.identity = key.identity := by
  induction members with
  | nil => simp [find?] at h
  | cons m rest ih =>
    obtain ⟨k,e⟩ := m
    simp only [find?] at h
    split at h
    · next hk =>
      cases h
      exact ⟨k,List.mem_cons_self,Scalar.isSame_iff.mp hk⟩
    · obtain ⟨l,hl,hkey⟩ := ih h
      exact ⟨l,List.mem_cons_of_mem _ hl,hkey⟩

theorem find?_eq_none_iff {key : Scalar} {members : Members} :
    find? key members = none ↔ ∀ m ∈ members, m.1.identity ≠ key.identity := by
  induction members with
  | nil => simp [find?]
  | cons m rest ih =>
    obtain ⟨k,d⟩ := m
    by_cases hk : k.identity = key.identity
    · simp [find?, Scalar.isSame, hk]
    · simp [find?, Scalar.isSame, hk, ih]

/-- Leaving members out does not hide one that stays. -/
theorem find?_filter {keep : Scalar × Declaration → Bool} {key : Scalar} {members : Members}
    {d : Declaration} (hkeep : ∀ k, keep (k,d) = true) (h : find? key members = some d) :
    find? key (members.filter keep) = some d := by
  induction members with
  | nil => simp [find?] at h
  | cons m rest ih =>
    obtain ⟨k,e⟩ := m
    by_cases hk : k.isSame key = true
    · simp only [find?, hk, if_true, Option.some.injEq] at h
      subst h
      simp [hkeep, find?, hk]
    · simp only [find?, hk] at h
      by_cases he : keep (k,e) = true
      · simpa [List.filter_cons, he, find?, hk] using ih h
      · simpa [List.filter_cons, he] using ih h

end Members

namespace Declaration

theorem putMember_of_new {members : Members} {key : Scalar}
    (h : ∀ m ∈ members, m.1.identity ≠ key.identity) (d : Declaration) :
    putMember members key d = members ++ [(key,d)] := by
  induction members with
  | nil => rfl
  | cons m rest ih =>
    obtain ⟨k,e⟩ := m
    have hk : k.identity ≠ key.identity := h (k,e) List.mem_cons_self
    have hrest := ih (fun n hn => h n (List.mem_cons_of_mem _ hn))
    simp [putMember, Scalar.isSame, hk, hrest]

theorem foldl_putMember {members pairs : Members}
    (h : ((members ++ pairs).map fun m => m.1.identity).Nodup) :
    pairs.foldl (fun members p => putMember members p.1 p.2) members = members ++ pairs := by
  induction pairs generalizing members with
  | nil => simp
  | cons p rest ih =>
    have hnew : ∀ m ∈ members, m.1.identity ≠ p.1.identity := by
      intro m hm
      rw [List.map_append, List.nodup_append] at h
      exact h.2.2 _ (List.mem_map_of_mem hm) _ (List.mem_map_of_mem List.mem_cons_self)
    rw [List.foldl_cons, putMember_of_new hnew, ih (by simpa using h)]
    simp

theorem keyed_of_nodup {pairs : Members} (h : (pairs.map fun m => m.1.identity).Nodup) :
    keyed pairs = pairs := by
  have hp : ((([] : Members) ++ pairs).map fun m => m.1.identity).Nodup := by simpa using h
  simpa [keyed] using foldl_putMember hp

end Declaration

namespace Diff

variable {olds news : Members}

theorem mem_removed_iff {d : Declaration} : d ∈ (matchMembers olds news).removed ↔
    ∃ k, (k,d) ∈ olds ∧ Members.find? k news = none := by
  simp [matchMembers]

theorem mem_added_iff {d : Declaration} : d ∈ (matchMembers olds news).added ↔
    ∃ k, (k,d) ∈ news ∧ Members.find? k olds = none := by
  simp [matchMembers]

theorem mem_matched_iff {o n : Declaration} : (o,n) ∈ (matchMembers olds news).matched ↔
    ∃ k, (k,o) ∈ olds ∧ Members.find? k news = some n := by
  simp [matchMembers]

theorem mem_matched_of_find? {key : Scalar} {o n : Declaration}
    (ho : Members.find? key olds = some o) (hn : Members.find? key news = some n) :
    (o,n) ∈ (matchMembers olds news).matched := by
  obtain ⟨k,hk,hid⟩ := Members.mem_of_find? ho
  exact mem_matched_iff.mpr ⟨k,hk,by rw [Members.find?_congr hid, hn]⟩

theorem mem_removed_of_find? {key : Scalar} {o : Declaration}
    (ho : Members.find? key olds = some o) (hn : Members.find? key news = none) :
    o ∈ (matchMembers olds news).removed := by
  obtain ⟨k,hk,hid⟩ := Members.mem_of_find? ho
  exact mem_removed_iff.mpr ⟨k,hk,by rw [Members.find?_congr hid, hn]⟩

def SameKeys (olds news : Members) : Prop :=
  ∀ key, (Members.find? key olds).isSome = (Members.find? key news).isSome

theorem sameKeys_of_match (hr : (matchMembers olds news).removed = [])
    (ha : (matchMembers olds news).added = []) : SameKeys olds news := by
  intro key
  cases ho : Members.find? key olds with
  | some o =>
    cases hn : Members.find? key news with
    | some n => rfl
    | none =>
      have h := mem_removed_of_find? ho hn
      simp [hr] at h
  | none =>
    cases hn : Members.find? key news with
    | none => rfl
    | some n =>
      obtain ⟨k,hk,hid⟩ := Members.mem_of_find? hn
      have h := mem_added_iff.mpr ⟨k,hk,by rw [Members.find?_congr hid, ho]⟩
      simp [ha] at h

theorem find?_comparedMembers {key : Scalar} {members : Members} {d : Declaration} (both : Bool)
    (hd : d.kind ≠ .parameter) (h : Members.find? key members = some d) :
    Members.find? key (comparedMembers both members) = some d := by
  unfold comparedMembers
  cases both with
  | false => simpa using h
  | true => simpa using Members.find?_filter (fun _ => by simpa using hd) h

theorem find?_comparedMembers_of_none {key : Scalar} {members : Members} (both : Bool)
    (h : Members.find? key members = none) :
    Members.find? key (comparedMembers both members) = none := by
  rw [Members.find?_eq_none_iff] at h ⊢
  intro m hm
  apply h m
  unfold comparedMembers at hm
  cases both with
  | false => simpa using hm
  | true => exact (List.mem_filter.mp hm).1

end Diff

end ApiRelease
