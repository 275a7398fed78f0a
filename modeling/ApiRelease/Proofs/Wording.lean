import ApiRelease.Proofs.IntentLanguage
import ApiRelease.Proofs.Spacing
import ApiRelease.Rule.Phrasing

/-! # Patterns in words

A pattern with a listed template is put into a phrase that intents know. Where the
template restricts a listed one, the condition follows the phrase, and then it is up to
the condition whether the words are an intent. Any other pattern gets words of its own,
and these are an intent only if they happen to say one.
-/
namespace ApiRelease

namespace Intent

variable {e : String} {p : Phrase}

/-- A keyword with nothing after it is no keyword. -/
theorem splitCondition_cut {base cs : List Char} (h : Unkeyed cs) (keyword : Keyword) :
    splitCondition base (cs ++ ' ' :: keyword.name.toList) = none := by
  induction cs generalizing base with
  | nil =>
    have hw : " when ".toList.isPrefixOf (' ' :: keyword.name.toList) = false := by
      cases keyword <;> rfl
    have hu : " unless ".toList.isPrefixOf (' ' :: keyword.name.toList) = false := by
      cases keyword <;> rfl
    have hword : Unkeyed keyword.name.toList := by
      unfold Unkeyed
      cases keyword <;> decide
    simp only [List.nil_append, splitCondition, hw, hu, Bool.and_false, Bool.false_eq_true, if_false]
    exact splitCondition_of_unkeyed hword
  | cons c cs ih =>
    obtain ⟨hw,hu⟩ := h.not_prefix_append keyword.name.toList
    rw [List.cons_append] at hw hu ⊢
    simp only [splitCondition, hw, hu, Bool.and_false, Bool.false_eq_true, if_false]
    exact ih h.tail

theorem isValid_text (hp : p ∈ phrases) : isValid p.text = true := by
  simp [isValid, parts_of_plain hp (regular_of_mem p hp).settled.normalize_eq, phrase?_text hp]

theorem isValid_cut (hp : p ∈ phrases) {keyword : Keyword}
    (he : normalize e = p.text ++ " " ++ keyword.name) : isValid e = false := by
  have hsplit : splitCondition [] (normalize e).toList = none := by
    rw [he, toList_append_space]
    exact splitCondition_cut (unkeyed_of_mem hp) keyword
  have hparts : parts e = ⟨normalize e, none⟩ := by simp only [parts, hsplit]
  have hphrase : phrase? (normalize e) = none := by
    rw [phrase?, List.find?_eq_none]
    intro q hq htext
    have htext : q.text = p.text ++ " " ++ keyword.name := by simpa [he] using htext
    obtain ⟨hw,hu⟩ := unkeyed_of_mem hq
    rw [htext, toList_append_space] at hw hu
    cases keyword with
    | when => exact hw ⟨p.text.toList,['e', 'n'],by simp [Keyword.name]⟩
    | _ => exact hu ⟨p.text.toList,['l', 'e', 's', 's'],by simp [Keyword.name]⟩
  simp [isValid, hparts, hphrase]

theorem normalize_keyword (hp : p ∈ phrases) (keyword : Keyword) :
    normalize (p.text ++ " " ++ keyword.name) = p.text ++ " " ++ keyword.name := by
  have htext := (regular_of_mem p hp).settled
  have hkeyword := settled_keyword keyword
  rw [normalize_append_space htext.2 hkeyword.2, htext.normalize_eq, hkeyword.normalize_eq]

theorem normalize_conditional (hp : p ∈ phrases) (keyword : Keyword) {condition : String}
    (hc : Text.wordsOf condition.toList ≠ []) :
    normalize (p.text ++ " " ++ keyword.name ++ " " ++ condition) =
    p.text ++ " " ++ keyword.name ++ " " ++ normalize condition := by
  have hboth : Text.wordsOf (p.text ++ " " ++ keyword.name).toList ≠ [] := by
    rw [toList_append_space, Text.wordsOf, Text.wordsAfter_append_space]
    exact List.append_ne_nil_of_left_ne_nil (regular_of_mem p hp).settled.2 _
  rw [normalize_append_space hboth hc, normalize_keyword hp]

/-- The texts of the language are written as they are compared. -/
theorem normalize_of_said {text : String} {c : Option Restriction} (h : Says text p c) :
    normalize text = text := by
  cases h with
  | plain hp => exact (regular_of_mem p hp).settled.normalize_eq
  | nested hp keyword condition hc =>
    have hsettled := settled_nested hc
    rw [normalize_conditional hp keyword hsettled.2, hsettled.normalize_eq]
  | kind hp k =>
    have hsettled := settled_kind k
    rw [when_kind, normalize_conditional hp .when hsettled.2, hsettled.normalize_eq]

/-- After a phrase and a keyword it is the condition that counts. -/
theorem isValid_conditional (hp : p ∈ phrases) (keyword : Keyword) (condition : String) :
    isValid (p.text ++ " " ++ keyword.name ++ " " ++ condition) =
    (conditionError keyword (normalize condition)).isNone := by
  by_cases hblank : Text.wordsOf condition.toList = []
  · have hcut : normalize (p.text ++ " " ++ keyword.name ++ " " ++ condition) =
        p.text ++ " " ++ keyword.name := (normalize_append_blank hblank).trans (normalize_keyword hp _)
    have hempty : normalize condition = "" := by
      apply String.toList_injective
      rw [toList_normalize, hblank]
      rfl
    rw [isValid_cut hp hcut, hempty]
    cases keyword <;> decide
  · have he := normalize_conditional hp keyword hblank
    simp [isValid, parts_of_condition hp he, phrase?_text hp]

end Intent

namespace Text

theorem mem_replaceFirstChars {part put cs : List Char} {x : Char} (hpart : part ≠ [])
    (h : occursIn part cs = true) (hx : x ∈ put) : x ∈ replaceFirstChars part put cs := by
  induction cs with
  | nil => simp_all [occursIn]
  | cons c rest ih =>
    by_cases hhere : part.isPrefixOf (c :: rest) = true
    · simp [replaceFirstChars, hhere, hx]
    · rw [occursIn, Bool.or_eq_true, or_iff_right hhere] at h
      simp [replaceFirstChars, hhere, ih h]

theorem mem_replaceFirst {s part put : String} {x : Char} (hpart : part ≠ "")
    (h : contains s part = true) (hx : x ∈ put.toList) : x ∈ (replaceFirst s part put).toList := by
  have hempty : part.isEmpty = false := by simpa using hpart
  have hchars : part.toList ≠ [] := by simpa using hpart
  simpa [replaceFirst, hempty] using mem_replaceFirstChars hchars h hx

theorem isEmpty_normalize {s : String} {x : Char} (hx : x ∈ s.toList) (hb : isBlank x = false) :
    (normalize s).isEmpty = false := by
  have hwords : wordsOf s.toList ≠ [] := wordsAfter_ne_nil (Or.inr ⟨x,hx,hb⟩)
  have hchars : (normalize s).toList ≠ [] := by
    rw [normalize, String.toList_ofList, trimChars_collapse]
    exact spaced_wordsOf_eq_nil_iff.not.mpr hwords
  simpa using hchars

end Text

namespace Phrasing

variable {r : PatternRule} {template : String} {bindings : List PatternVariable} {x : Phrase}

/-! ## Listed templates -/

theorem listed : ∀ row ∈ phraseTable,
    (∀ x ∈ row.2, (Intent.phrase? x.expression).isSome = true) ∧
    row.2.any (·.target.isNone) = true := by
  decide +kernel

theorem exists_row (h : phrasesFor template ≠ []) : (template, phrasesFor template) ∈ phraseTable := by
  unfold phrasesFor at h ⊢
  cases hrow : phraseTable.lookup template with
  | none => simp [hrow] at h
  | some xs =>
    obtain ⟨before,after,htable,-⟩ := List.lookup_eq_some_iff.mp hrow
    simp [htable]

theorem exists_phrase (h : x ∈ phrasesFor template) : ∃ p ∈ Intent.phrases, p.text = x.expression := by
  have hknown := (listed _ (exists_row (List.ne_nil_of_mem h))).1 x h
  obtain ⟨p,hp⟩ := Option.isSome_iff_exists.mp hknown
  exact ⟨p,List.mem_of_find?_eq_some hp,by simpa using List.find?_some hp⟩

theorem mem_of_mem_fitting (h : x ∈ fitting template bindings) : x ∈ phrasesFor template := by
  have hfit := List.mem_mergeSort.mp h
  exact List.mem_of_mem_filter hfit

/-- Some phrase of a listed template fits every target. -/
theorem fitting_eq_nil_iff : fitting template bindings = [] ↔ phrasesFor template = [] := by
  constructor
  · intro h
    by_contra hne
    obtain ⟨x,hx,hany⟩ := List.any_eq_true.mp (listed _ (exists_row hne)).2
    have htarget : x.target = none := by simpa using hany
    have hfits : x.fits bindings = true := by simp [Phrase.fits, htarget]
    have hmem : x ∈ fitting template bindings :=
      List.mem_mergeSort.mpr (List.mem_filter.mpr ⟨hx,hfits⟩)
    exact List.ne_nil_of_mem hmem h
  · intro h
    simp [fitting, h]

/-! ## Words made up -/

theorem exists_release {returns : Option String} (h : isRelease returns = true) :
    ∃ release : Release, returns = some release.name := by
  obtain ⟨name,rfl,hname⟩ := (Option.any_eq_true ..).mp h
  obtain ⟨release,hr⟩ := Option.isSome_iff_exists.mp hname
  exact ⟨release,congrArg some (Vocabulary.name_of_parse? hr).symm⟩

/-- The severity is named whatever the template says. -/
theorem mem_withSeverity {severity expression : String} {c : Char} (hc : c ∈ severity.toList) :
    c ∈ (withSeverity severity expression).toList := by
  have hempty : severity.isEmpty = false := by
    cases h : severity.isEmpty with
    | false => rfl
    | true => simp [String.isEmpty_iff.mp h] at hc
  unfold withSeverity
  split_ifs with hsaid hremoved hadded hmodified
  · have hinfix : severity.toList <:+: expression.toList := by
      simpa [hempty, Text.contains_iff] using hsaid
    exact hinfix.subset hc
  · exact Text.mem_replaceFirst (by decide) hremoved (by simp [hc])
  · exact Text.mem_replaceFirst (by decide) hadded (by simp [hc])
  · exact Text.mem_replaceFirst (by decide) hmodified (by simp [hc])
  · simp [hc]

theorem isEmpty_lowerAfterSeverity {s : String} (h : s.isEmpty = false) :
    (lowerAfterSeverity s).isEmpty = false := by
  unfold lowerAfterSeverity
  simp only
  split
  · exact h
  · split
    · simp [← String.toList_eq_nil_iff]
    · exact h

theorem isEmpty_describe (h : isRelease r.returns = true) : (describe r).isEmpty = false := by
  obtain ⟨release,hr⟩ := exists_release h
  have hword : (severityWord r.returns).toList.any (!Text.isBlank ·) = true := by
    rw [hr]
    cases release <;> decide
  obtain ⟨c,hc,hb⟩ := List.any_eq_true.mp hword
  unfold describe
  apply isEmpty_lowerAfterSeverity
  apply Text.isEmpty_normalize
  · exact mem_withSeverity hc
  · simpa using hb

/-! ## Words that are read -/

def isReadable (r : PatternRule) : Bool :=
  match (restricted? r).filter fun c => !(phrasesFor c.base).isEmpty with
  | some c => (Intent.conditionError c.keyword (Intent.normalize c.condition)).isNone
  | none => !(phrasesFor r.template).isEmpty || Intent.isValid (describe r)

theorem plainIntent?_of_fitting {rest : List Phrase} (h : fitting r.template r.bindings = x :: rest) :
    plainIntent? r = some ⟨intentWith r x.expression, hundredths x.hundredths,
      alternatives r x rest⟩ := by
  have hlisted : phrasesFor r.template ≠ [] := by
    rw [ne_eq, ← fitting_eq_nil_iff, h]
    exact List.cons_ne_nil x rest
  simp [plainIntent?, hlisted, h]

theorem restrictedIntent?_of_fitting {c : Restricted} {rest : List Phrase} (hc : restricted? r = some c)
    (h : fitting c.base r.bindings = x :: rest) : restrictedIntent? r =
    some ⟨intentWith r (x.expression ++ " " ++ c.keyword.name ++ " " ++ c.condition),
      hundredths x.hundredths * c.factor, []⟩ := by
  simp [restrictedIntent?, hc, h]

theorem exists_plainIntent (h : isRelease r.returns = true) :
    ∃ x, plainIntent? r = some x ∧ x.intent.returns = r.returns ∧
      Intent.isValid x.intent.expression =
        (!(phrasesFor r.template).isEmpty || Intent.isValid (describe r)) := by
  by_cases hnone : phrasesFor r.template = []
  · have hwords : expression r = describe r := by simp [expression, hnone]
    have hplain : plainIntent? r = some ⟨intentWith r (describe r), describedScore, []⟩ := by
      simp [plainIntent?, hnone, hwords, isEmpty_describe h]
    refine ⟨_,hplain,rfl,?_⟩
    simp [intentWith, hnone]
  · have hsome : fitting r.template r.bindings ≠ [] := fitting_eq_nil_iff.not.mpr hnone
    obtain ⟨best,rest,hfit⟩ := List.exists_cons_of_ne_nil hsome
    obtain ⟨p,hp,htext⟩ := exists_phrase (mem_of_mem_fitting (hfit ▸ List.mem_cons_self))
    have hvalid := Intent.isValid_text hp
    rw [htext] at hvalid
    refine ⟨_,plainIntent?_of_fitting hfit,rfl,?_⟩
    simp [intentWith, hnone, hvalid]

/-- A pattern with a release type is always put into words. -/
theorem exists_intent (h : isRelease r.returns = true) :
    ∃ x, intent? r = some x ∧ x.intent.returns = r.returns ∧
      Intent.isValid x.intent.expression = isReadable r := by
  obtain ⟨plain,hplain,hreturns,hvalid⟩ := exists_plainIntent h
  unfold isReadable
  cases hc : restricted? r with
  | none =>
    refine ⟨plain,?_,hreturns,hvalid⟩
    simp [intent?, restrictedIntent?, hc, hplain]
  | some c =>
    by_cases hnone : phrasesFor c.base = []
    · have hfit : fitting c.base r.bindings = [] := fitting_eq_nil_iff.mpr hnone
      have hbare : (some c).filter (fun c => !(phrasesFor c.base).isEmpty) = none := by
        simp [Option.filter, hnone]
      rw [hbare]
      refine ⟨plain,?_,hreturns,hvalid⟩
      simp [intent?, restrictedIntent?, hc, hfit, hplain]
    · have hsome : fitting c.base r.bindings ≠ [] := fitting_eq_nil_iff.not.mpr hnone
      obtain ⟨best,rest,hfit⟩ := List.exists_cons_of_ne_nil hsome
      have hkept : (some c).filter (fun c => !(phrasesFor c.base).isEmpty) = some c := by
        simp [Option.filter, hnone]
      obtain ⟨p,hp,htext⟩ := exists_phrase (mem_of_mem_fitting (hfit ▸ List.mem_cons_self))
      have hcondition := Intent.isValid_conditional hp c.keyword c.condition
      rw [htext] at hcondition
      rw [hkept, intent?, restrictedIntent?_of_fitting hc hfit]
      refine ⟨_,rfl,rfl,?_⟩
      simp [intentWith, hcondition]

end Phrasing

end ApiRelease
