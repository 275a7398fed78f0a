import ApiRelease.Proofs.Spacing

/-! # The words of a text

The words of a text are its runs of characters that are not blank, each taken as far as it goes.
A text with its blanks collapsed is its words with one space between every two. So it has the
same words, collapsing it once more changes nothing, and two texts collapse to the same text
just if they have the same words.
-/
namespace ApiRelease.Text

/-- The text is these words, with blanks before, between and behind them. Between two words
there is a blank at least, as what follows a word begins with one. -/
inductive HasWords : List Char → List (List Char) → Prop
  | blanks {cs : List Char} (hblank : ∀ c ∈ cs, isBlank c = true) : HasWords cs []
  | word (before word : List Char) {rest : List Char} {words : List (List Char)}
      (hbefore : ∀ c ∈ before, isBlank c = true) (hne : word ≠ [])
      (hword : ∀ c ∈ word, isBlank c = false) (hends : ∀ c ∈ rest.head?, isBlank c = true)
      (hrest : HasWords rest words) : HasWords (before ++ (word ++ rest)) (word :: words)

variable {cs rest before word started : List Char} {ws : List (List Char)} {c : Char}

/-! ## The words that are read -/

theorem wordsOf_append_blanks (h : ∀ c ∈ before, isBlank c = true) (cs : List Char) :
    wordsOf (before ++ cs) = wordsOf cs := by
  induction before with
  | nil => rfl
  | cons c before ih =>
    obtain ⟨hc,hbefore⟩ := List.forall_mem_cons.mp h
    simpa [wordsOf, wordsAfter, hc] using ih hbefore

/-- Letters are added to the word that is being read. -/
theorem wordsAfter_append_word (h : ∀ c ∈ word, isBlank c = false) (cs : List Char) :
    wordsAfter started (word ++ cs) = wordsAfter (word.reverse ++ started) cs := by
  induction word generalizing started with
  | nil => rfl
  | cons c word ih =>
    obtain ⟨hc,hword⟩ := List.forall_mem_cons.mp h
    have hrest := @ih (c :: started) hword
    simpa [wordsAfter, hc] using hrest

/-- A blank or the end of the text ends it. -/
theorem wordsAfter_of_ends (hstarted : started ≠ []) (hends : ∀ c ∈ rest.head?, isBlank c = true) :
    wordsAfter started rest = started.reverse :: wordsOf rest := by
  cases rest with
  | nil => simp [wordsAfter, wordsOf, hstarted]
  | cons c rest =>
    have hc : isBlank c = true := by simpa using hends
    simp [wordsAfter, wordsOf, hstarted, hc]

/-- A text has no other words than those that are read. -/
theorem HasWords.eq_wordsOf (h : HasWords cs ws) : ws = wordsOf cs := by
  induction h with
  | blanks hblank =>
    have hnone := wordsOf_append_blanks hblank []
    rw [List.append_nil] at hnone
    exact hnone.symm
  | word before word hbefore hne hword hends _ ih =>
    have hstarted : word.reverse ≠ [] := by simpa using hne
    rw [wordsOf_append_blanks hbefore, wordsOf, wordsAfter_append_word hword, List.append_nil,
      wordsAfter_of_ends hstarted hends, List.reverse_reverse, ← ih]

theorem HasWords.cons_blank (h : HasWords cs ws) (hc : isBlank c = true) :
    HasWords (c :: cs) ws := by
  cases h with
  | blanks hblank => exact .blanks (List.forall_mem_cons.mpr ⟨hc,hblank⟩)
  | word before word hbefore hne hword hends hrest =>
    exact .word (c :: before) word (List.forall_mem_cons.mpr ⟨hc,hbefore⟩) hne hword hends hrest

/-- Where it ends, the word that is being read is the first one. -/
theorem HasWords.ended (h : HasWords rest ws) (hne : started ≠ [])
    (hstarted : ∀ c ∈ started, isBlank c = false) (hends : ∀ c ∈ rest.head?, isBlank c = true) :
    HasWords (started.reverse ++ rest) (started.reverse :: ws) :=
  .word [] started.reverse (by simp) (by simpa using hne) (by simpa using hstarted) hends h

/-- What is read are the words of the text, with what was read of the first one before. -/
theorem hasWords_wordsAfter (hstarted : ∀ c ∈ started, isBlank c = false) (cs : List Char) :
    HasWords (started.reverse ++ cs) (wordsAfter started cs) := by
  induction cs generalizing started with
  | nil =>
    have hrest : HasWords [] [] := .blanks (by simp)
    by_cases hne : started = []
    · simpa [hne, wordsAfter] using hrest
    · rw [wordsAfter_of_ends hne (by simp)]
      exact hrest.ended hne hstarted (by simp)
  | cons c rest ih =>
    cases hc : isBlank c with
    | false =>
      have hmore := ih (List.forall_mem_cons.mpr ⟨hc,hstarted⟩)
      simpa [wordsAfter, hc] using hmore
    | true =>
      have hrest : HasWords (c :: rest) (wordsOf (c :: rest)) := by
        have hread := (ih (List.forall_mem_nil _)).cons_blank hc
        simpa [wordsOf, wordsAfter, hc] using hread
      by_cases hne : started = []
      · rwa [hne]
      · have hends : ∀ d ∈ (c :: rest).head?, isBlank d = true := by simpa using hc
        rw [wordsAfter_of_ends hne hends]
        exact hrest.ended hne hstarted hends

theorem hasWords_wordsOf (cs : List Char) : HasWords cs (wordsOf cs) :=
  hasWords_wordsAfter (List.forall_mem_nil _) cs

/-- A text has words in one way only. -/
theorem hasWords_iff : HasWords cs ws ↔ ws = wordsOf cs := by
  refine ⟨HasWords.eq_wordsOf,?_⟩
  rintro rfl
  exact hasWords_wordsOf cs

/-! ## Words with one space between every two -/

theorem HasWords.with_spaces (h : HasWords cs ws) : HasWords (spaced ws) ws := by
  induction h with
  | blanks _ => exact .blanks (List.forall_mem_nil _)
  | @word _ word _ words _ hne hword _ _ ih =>
    have hspace : isBlank ' ' = true := by decide
    cases words with
    | nil =>
      have halone : HasWords (word ++ []) [word] := .word [] word (by simp) hne hword (by simp) ih
      simpa [spaced] using halone
    | cons next words =>
      rw [spaced_cons (List.cons_ne_nil next words)]
      exact .word [] word (by simp) hne hword (by simpa using hspace) (ih.cons_blank hspace)

theorem wordsOf_spaced_wordsOf (cs : List Char) : wordsOf (spaced (wordsOf cs)) = wordsOf cs :=
  (hasWords_wordsOf cs).with_spaces.eq_wordsOf.symm

theorem toList_words (s : String) : (words s).map String.toList = wordsOf s.toList := by
  simp [words, Function.comp_def]

theorem normalize_eq_intercalate (s : String) : normalize s = " ".intercalate (words s) := by
  apply String.toList_injective
  rw [normalize, String.toList_ofList, trimChars_collapse, String.toList_intercalate, toList_words]
  rfl

/-- Collapsing the blanks keeps the words. -/
theorem words_normalize (s : String) : words (normalize s) = words s := by
  rw [words, normalize, String.toList_ofList, trimChars_collapse, wordsOf_spaced_wordsOf, words]

theorem hasWords_iff_words (s : String) (ws : List String) :
    HasWords s.toList (ws.map String.toList) ↔ ws = words s := by
  rw [hasWords_iff, ← toList_words]
  exact (List.map_injective_iff.mpr fun _ _ => String.toList_injective).eq_iff

/-- Collapsed text is the words with one space between every two. It stays as it is when it is
collapsed again, and it is the same for texts of the same words only. -/
theorem normalize_is_canonical (a b : String) :
    (∀ ws : List String, HasWords a.toList (ws.map String.toList) ↔ ws = words a) ∧
    normalize a = " ".intercalate (words a) ∧ normalize (normalize a) = normalize a ∧
    (normalize a = normalize b ↔ words a = words b) := by
  refine ⟨hasWords_iff_words a,normalize_eq_intercalate a,?_,?_,?_⟩
  · rw [normalize_eq_intercalate (normalize a), words_normalize, normalize_eq_intercalate]
  · intro h
    rw [← words_normalize a, h, words_normalize]
  · intro h
    rw [normalize_eq_intercalate, h, normalize_eq_intercalate]

end ApiRelease.Text
