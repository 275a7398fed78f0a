import ApiRelease.Rule.Intent
import Mathlib.Data.List.Basic
import Mathlib.Data.List.DropRight
import Mathlib.Data.List.Infix

/-! # Words and the spaces between them

A text with its blanks collapsed is its words, with one space between every two. So texts
that are put together with a space between them are collapsed each on its own. The same
holds of lower case: no letter looks past a space. A word of small letters stays where
blanks are collapsed and capitals made small around it.
-/
namespace ApiRelease.Text

variable {before cs ds word : List Char}

def spaced (words : List (List Char)) : List Char := [' '].intercalate words

theorem spaced_cons {word : List Char} {words : List (List Char)} (h : words ≠ []) :
    spaced (word :: words) = word ++ ' ' :: spaced words := by
  obtain ⟨next,rest,rfl⟩ := List.exists_cons_of_ne_nil h
  simp [spaced, List.intercalate_cons_cons]

theorem trimRight_append : trimRight (cs ++ ds) =
    if trimRight ds = [] then trimRight cs else cs ++ trimRight ds := by
  simp only [trimRight, List.reverse_append, List.dropWhile_append, List.reverse_eq_nil_iff,
    List.isEmpty_iff]
  split_ifs <;> simp

theorem trimLeft_trimChars (cs : List Char) : trimLeft (trimChars cs) = trimChars cs := by
  cases h : trimChars cs with
  | nil => rfl
  | cons c rest =>
    obtain ⟨blanks,hcs⟩ : c :: rest <+: cs.dropWhile isBlank :=
      h ▸ List.rdropWhile_prefix isBlank (trimLeft cs)
    have hc : isBlank c = false := by simpa [← hcs] using cs.head?_dropWhile_not isBlank
    simp [trimLeft, hc]

/-- What was trimmed has nothing left to trim. -/
theorem trimChars_trimChars (cs : List Char) : trimChars (trimChars cs) = trimChars cs := by
  have hright : trimRight (trimChars cs) = trimChars cs :=
    List.rdropWhile_idempotent isBlank (trimLeft cs)
  rw [trimChars, trimLeft_trimChars, hright]

/-- Trimming takes blanks from both ends and nothing else. -/
theorem exists_trimmed (cs : List Char) : ∃ before behind : List Char,
    (∀ c ∈ before, isBlank c = true) ∧ (∀ c ∈ behind, isBlank c = true) ∧
    before ++ (trimChars cs ++ behind) = cs := by
  have hright : trimChars cs ++ (trimLeft cs).rtakeWhile isBlank = trimLeft cs :=
    List.rdropWhile_append_rtakeWhile ..
  refine ⟨cs.takeWhile isBlank,(trimLeft cs).rtakeWhile isBlank,?_,?_,?_⟩
  · intro c hc
    exact List.mem_takeWhile_imp hc
  · intro c hc
    exact List.mem_rtakeWhile_imp hc
  · rw [hright]
    exact List.takeWhile_append_dropWhile

theorem trimChars_cons_blank {c : Char} (hc : isBlank c = true) :
    trimChars (c :: cs) = trimChars cs := by
  simp [trimChars, trimLeft, hc]

theorem trimChars_concat_blank {c : Char} (hc : isBlank c = true) :
    trimChars (cs ++ [c]) = trimChars cs := by
  have hnone : trimRight [c] = [] := by simp [trimRight, hc]
  have hblank : [c].dropWhile isBlank = [] := by simp [hc]
  rw [trimChars, trimChars, trimLeft, List.dropWhile_append, hblank, ← trimLeft]
  split_ifs with h
  · rw [List.isEmpty_iff.mp h]
  · rw [trimRight_append, if_pos hnone]

theorem trim_trim (s : String) : trim (trim s) = trim s := by
  rw [trim, trim, String.toList_ofList, trimChars_trimChars]

theorem trimLeft_collapse_true : trimLeft (collapse true cs) = collapse true cs := by
  induction cs with
  | nil => rfl
  | cons c rest ih =>
    cases hc : isBlank c with
    | true => simpa [collapse, hc] using ih
    | false => simp [collapse, hc, trimLeft]

theorem trimLeft_collapse : trimLeft (collapse false cs) = collapse true cs := by
  cases cs with
  | nil => rfl
  | cons c rest =>
    have hspace : isBlank ' ' = true := by decide
    cases hc : isBlank c with
    | true =>
      have h : trimLeft (' ' :: collapse true rest) = trimLeft (collapse true rest) := by
        simp [trimLeft, hspace]
      simp [collapse, hc, h, trimLeft_collapse_true]
    | false => simp [collapse, hc, trimLeft]

theorem ne_nil_of_mem_wordsAfter {w : List Char} (h : w ∈ wordsAfter word cs) : w ≠ [] := by
  induction cs generalizing word with
  | nil =>
    cases word <;> simp_all [wordsAfter]
  | cons c rest ih =>
    cases hc : isBlank c with
    | true =>
      cases word with
      | nil => exact ih (by simpa [wordsAfter, hc] using h)
      | cons d word =>
        simp only [wordsAfter, hc, if_true, List.isEmpty_cons, Bool.false_eq_true, if_false,
          List.mem_cons] at h
        rcases h with rfl | h
        · simp
        · exact ih h
    | false => exact ih (by simpa [wordsAfter, hc] using h)

theorem wordsAfter_ne_nil (h : word ≠ [] ∨ ∃ c ∈ cs, isBlank c = false) : wordsAfter word cs ≠ [] := by
  induction cs generalizing word with
  | nil =>
    have hword : word ≠ [] := by simpa using h
    simp [wordsAfter, hword]
  | cons c rest ih =>
    cases hc : isBlank c with
    | true =>
      cases word with
      | nil =>
        have hrest : ∃ d ∈ rest, isBlank d = false := by simpa [hc] using h
        simpa [wordsAfter, hc] using ih (Or.inr hrest)
      | cons d word => simp [wordsAfter, hc]
    | false => simpa [wordsAfter, hc] using ih (Or.inl (List.cons_ne_nil c word))

theorem spaced_wordsOf_eq_nil_iff : spaced (wordsOf cs) = [] ↔ wordsOf cs = [] := by
  cases h : wordsOf cs with
  | nil => simp [spaced]
  | cons w rest =>
    have hw : w ≠ [] := ne_nil_of_mem_wordsAfter (h ▸ List.mem_cons_self)
    cases rest with
    | nil => simpa [spaced] using hw
    | cons next rest => simp [spaced_cons]

theorem trimRight_space (h : trimRight (collapse true cs) = spaced (wordsOf cs)) :
    trimRight (word ++ ' ' :: collapse true cs) =
    if wordsOf cs = [] then trimRight word else word ++ ' ' :: spaced (wordsOf cs) := by
  have hblank : trimRight [' '] = [] := by decide
  have hsplit : word ++ ' ' :: collapse true cs = word ++ ([' '] ++ collapse true cs) := rfl
  rw [hsplit, trimRight_append, trimRight_append, h, hblank]
  simp only [spaced_wordsOf_eq_nil_iff]
  split_ifs <;> simp_all

/-- The two states of going through a text: within a word, and after the space that
follows one. -/
theorem trimRight_collapse (cs : List Char) :
    (∀ c word, isBlank c = false →
      trimRight ((c :: word).reverse ++ collapse false cs) = spaced (wordsAfter (c :: word) cs)) ∧
    trimRight (collapse true cs) = spaced (wordsOf cs) := by
  induction cs with
  | nil =>
    refine ⟨fun c word hc => ?_,rfl⟩
    simp [collapse, trimRight, hc, wordsAfter, spaced]
  | cons d rest ih =>
    obtain ⟨hword,hspace⟩ := ih
    cases hd : isBlank d with
    | true =>
      refine ⟨fun c word hc => ?_,by simpa [collapse, hd, wordsOf, wordsAfter] using hspace⟩
      have hlast : trimRight (c :: word).reverse = (c :: word).reverse := by simp [trimRight, hc]
      have hwords : wordsAfter (c :: word) (d :: rest) = (c :: word).reverse :: wordsOf rest := by
        simp [wordsAfter, hd, wordsOf]
      have hcollapse : collapse false (d :: rest) = ' ' :: collapse true rest := by
        simp [collapse, hd]
      rw [hwords, hcollapse, trimRight_space hspace, hlast]
      split_ifs with hnone
      · simp [hnone, spaced]
      · rw [spaced_cons hnone]
    | false =>
      refine ⟨fun c word hc => ?_,?_⟩
      · have h := hword d (c :: word) hd
        simpa [collapse, hd, wordsAfter] using h
      · have h := hword d [] hd
        simpa [collapse, hd, wordsOf, wordsAfter] using h

theorem trimChars_collapse : trimChars (collapse false cs) = spaced (wordsOf cs) := by
  rw [trimChars, trimLeft_collapse, (trimRight_collapse cs).2]

theorem wordsAfter_append_space : wordsAfter word (cs ++ ' ' :: ds) =
    wordsAfter word cs ++ wordsOf ds := by
  induction cs generalizing word with
  | nil =>
    have hblank : isBlank ' ' = true := by decide
    cases word <;> simp [wordsAfter, hblank, wordsOf]
  | cons c rest ih =>
    cases hc : isBlank c with
    | true => cases word <;> simp [wordsAfter, hc, ih]
    | false => simp [wordsAfter, hc, ih]

theorem spaced_append {us ws : List (List Char)} (hu : us ≠ []) (hw : ws ≠ []) :
    spaced (us ++ ws) = spaced us ++ ' ' :: spaced ws := by
  induction us with
  | nil => exact absurd rfl hu
  | cons u rest ih =>
    cases rest with
    | nil =>
      rw [List.singleton_append, spaced_cons hw]
      simp [spaced]
    | cons next rest =>
      rw [List.cons_append, spaced_cons (by simp), spaced_cons (by simp), ih (by simp)]
      simp

/-! ## Lower case -/

theorem meetsCased_space : meetsCased (cs ++ ' ' :: ds) = meetsCased cs := by
  have hpass : inRanges caseIgnorable ' ' = false := by decide +kernel
  have hcase : inRanges cased ' ' = false := by decide
  simp only [meetsCased, List.dropWhile_append]
  cases h : cs.dropWhile (inRanges caseIgnorable) <;> simp [hpass, hcase]

theorem lowerAfter_space (before : List Char) :
    lowerAfter (before ++ ' ' :: ds) cs = lowerAfter before cs := by
  induction cs generalizing before with
  | nil => rfl
  | cons c rest ih =>
    have hrest := ih (c :: before)
    rw [List.cons_append] at hrest
    simp only [lowerAfter, meetsCased_space, hrest]

theorem lowerAfter_append_space : lowerAfter before (cs ++ ' ' :: ds) =
    lowerAfter before cs ++ ' ' :: lowerChars ds := by
  induction cs generalizing before with
  | nil =>
    have hsigma : (' ' == capitalSigma) = false := by decide
    have hspace : lowerChar ' ' = [' '] := by decide
    have hrest : lowerAfter (' ' :: before) ds = lowerChars ds := lowerAfter_space []
    simp [lowerAfter, hsigma, hspace, hrest]
  | cons c rest ih =>
    simp only [List.cons_append, lowerAfter, meetsCased_space, ih, List.append_assoc]

/-! ## Words that stay -/

def Stays (word : List Char) : Prop :=
  ∀ c ∈ word, isBlank c = false ∧ (c == capitalSigma) = false ∧ lowerChar c = [c]

-- the characters of the word are gone through, not all that there are
instance (word : List Char) : Decidable (Stays word) := List.decidableBAll _ word

theorem prefix_collapse (hw : Stays word) {inRun : Bool} (h : word <+: cs) :
    word <+: collapse inRun cs := by
  induction word generalizing cs inRun with
  | nil => exact List.nil_prefix
  | cons x word ih =>
    obtain ⟨hx,hw⟩ := List.forall_mem_cons.mp hw
    cases cs with
    | nil => simp at h
    | cons c cs =>
      obtain ⟨rfl,hrest⟩ := List.cons_prefix_cons.mp h
      simpa [collapse, hx.1, List.cons_prefix_cons] using ih hw hrest

theorem infix_collapse (hw : Stays word) {inRun : Bool} (h : word <:+: cs) :
    word <:+: collapse inRun cs := by
  induction cs generalizing inRun with
  | nil => exact h
  | cons c rest ih =>
    rcases List.infix_cons_iff.mp h with hhere | hrest
    · exact (prefix_collapse hw hhere).isInfix
    · unfold collapse
      split_ifs
      · exact ih hrest
      · exact List.infix_cons (ih hrest)
      · exact List.infix_cons (ih hrest)

theorem infix_trimLeft (hw : ∀ c ∈ word, isBlank c = false) (h : word <:+: cs) :
    word <:+: trimLeft cs := by
  induction cs with
  | nil => exact h
  | cons c rest ih =>
    rw [trimLeft, List.dropWhile_cons]
    split_ifs with hc
    · rcases List.infix_cons_iff.mp h with hhere | hrest
      · cases word with
        | nil => exact List.nil_infix
        | cons x word =>
          obtain ⟨rfl,-⟩ := List.cons_prefix_cons.mp hhere
          have hx := hw x List.mem_cons_self
          simp [hc] at hx
      · exact ih hrest
    · exact h

theorem infix_trimChars (hw : ∀ c ∈ word, isBlank c = false) (h : word <:+: cs) :
    word <:+: trimChars cs := by
  have hleft := infix_trimLeft hw h
  rw [trimChars, trimRight, ← trimLeft, ← List.reverse_infix, List.reverse_reverse]
  exact infix_trimLeft (by simpa using hw) (List.reverse_infix.mpr hleft)

theorem mem_trimChars {c : Char} (hc : isBlank c = false) : c ∈ trimChars cs ↔ c ∈ cs := by
  have hsub : trimChars cs <+: trimLeft cs := List.rdropWhile_prefix isBlank _
  refine ⟨fun h => (List.dropWhile_suffix isBlank).subset (hsub.subset h),fun h => ?_⟩
  have hinfix : [c] <:+: trimChars cs :=
    infix_trimChars (by simpa using hc) ((List.singleton_infix_iff c cs).mpr h)
  exact (List.singleton_infix_iff c _).mp hinfix

theorem prefix_lowerAfter (hw : Stays word) (h : word <+: cs) : word <+: lowerAfter before cs := by
  induction word generalizing cs before with
  | nil => exact List.nil_prefix
  | cons x word ih =>
    obtain ⟨⟨-,hsigma,hlower⟩,hw⟩ := List.forall_mem_cons.mp hw
    cases cs with
    | nil => simp at h
    | cons c cs =>
      obtain ⟨rfl,hrest⟩ := List.cons_prefix_cons.mp h
      simpa [lowerAfter, hsigma, hlower, List.cons_prefix_cons] using ih hw hrest

theorem infix_lowerAfter (hw : Stays word) (h : word <:+: cs) : word <:+: lowerAfter before cs := by
  induction cs generalizing before with
  | nil => exact h
  | cons c rest ih =>
    rcases List.infix_cons_iff.mp h with hhere | hrest
    · exact (prefix_lowerAfter hw hhere).isInfix
    · exact (ih hrest).trans (List.suffix_append _ _).isInfix

end ApiRelease.Text

namespace ApiRelease.Intent

variable {a b : String}

theorem toList_normalize (e : String) :
    (normalize e).toList = Text.lowerChars (Text.spaced (Text.wordsOf e.toList)) := by
  simp [normalize, Text.lower, Text.normalize, Text.trimChars_collapse]

theorem toList_append_space (a b : String) :
    (a ++ " " ++ b).toList = a.toList ++ ' ' :: b.toList := by
  simp

theorem normalize_append_space (ha : Text.wordsOf a.toList ≠ []) (hb : Text.wordsOf b.toList ≠ []) :
    normalize (a ++ " " ++ b) = normalize a ++ " " ++ normalize b := by
  apply String.toList_injective
  have hwords : Text.wordsOf (a ++ " " ++ b).toList =
      Text.wordsOf a.toList ++ Text.wordsOf b.toList := by
    rw [toList_append_space]
    exact Text.wordsAfter_append_space
  rw [toList_append_space, toList_normalize, toList_normalize, toList_normalize, hwords,
    Text.spaced_append ha hb]
  exact Text.lowerAfter_append_space

theorem normalize_append_blank (hb : Text.wordsOf b.toList = []) :
    normalize (a ++ " " ++ b) = normalize a := by
  apply String.toList_injective
  have hwords : Text.wordsOf (a ++ " " ++ b).toList = Text.wordsOf a.toList := by
    rw [toList_append_space]
    exact Text.wordsAfter_append_space.trans (by rw [hb, List.append_nil]; rfl)
  rw [toList_normalize, toList_normalize, hwords]

/-- A word that stays is found again in the text as it is compared. -/
theorem infix_normalize {word : List Char} {e : String} (hw : Text.Stays word)
    (h : word <:+: e.toList) : word <:+: (normalize e).toList := by
  rw [normalize, Text.lower, Text.normalize, String.toList_ofList, String.toList_ofList]
  exact Text.infix_lowerAfter hw
    (Text.infix_trimChars (fun c hc => (hw c hc).1) (Text.infix_collapse hw h))

end ApiRelease.Intent
