import ApiRelease.Proofs.Ranking
import ApiRelease.Proofs.Readings

/-! # Patterns put into words and read again

Where the words for a pattern come from a listed template, they are a phrase, and an intent
that says it has the template of this phrase. Every row of the table has phrases of its own
template, but for one: the removal of something optional that is no parameter is called an
addition. So a pattern with plain variables keeps its action, aspect, impact and tags when
it is put into words and read again, just if it is not of that row.
-/
namespace ApiRelease.Phrasing

open Intent (Says phrases)

variable {r : PatternRule} {base : String} {y : Phrase} {p : Intent.Phrase}

/-! ## The table -/

def optionalRemoval : String := "removed optional \x7btarget\x7d"

theorem template_of_row : ∀ row ∈ phraseTable, (∃ p ∈ phrases, p.template = row.1) ∧
    (row.1 ≠ optionalRemoval → ∀ y ∈ row.2, ∀ p ∈ phrases, p.text = y.expression →
      p.template = row.1) := by
  decide +kernel

/-- Something optional that is no parameter is removed, for which the table has the words of
an addition. -/
def Misphrased (base : String) (bindings : List PatternVariable) : Prop :=
  base = optionalRemoval ∧ lastValue? bindings "target" ≠ some Target.parameter.name

theorem phrasesFor_optionalRemoval : phrasesFor optionalRemoval =
    [⟨"safe removal", 100, some .parameter⟩, ⟨"optional addition is safe", 70, none⟩] := rfl

/-- No phrase that fits has a higher score than the first. -/
theorem hundredths_le_of_fitting {bindings : List PatternVariable} {rest : List Phrase}
    (h : fitting base bindings = y :: rest) {z : Phrase} (hz : z ∈ phrasesFor base)
    (hfits : z.fits bindings = true) : z.hundredths ≤ y.hundredths := by
  have hsorted : (fitting base bindings).Pairwise fun a b => b.hundredths ≤ a.hundredths :=
    Ranking.pairwise_falling Phrase.hundredths _
  have hmem : z ∈ fitting base bindings := List.mem_mergeSort.mpr (List.mem_filter.mpr ⟨hz,hfits⟩)
  rw [h] at hsorted hmem
  rcases List.mem_cons.mp hmem with rfl | hz
  · exact Nat.le_refl _
  · exact List.rel_of_pairwise_cons hsorted hz

theorem template_of_optionalRemoval : ∀ p ∈ phrases,
    (p.text = "safe removal" → p.template = optionalRemoval) ∧
    (p.text = "optional addition is safe" → p.template ≠ optionalRemoval) := by
  decide +kernel

/-- The best phrase for a listed template has this template, but for the one row. -/
theorem template_of_fitting {bindings : List PatternVariable} {rest : List Phrase}
    (h : fitting base bindings = y :: rest) (hp : p ∈ phrases) (htext : p.text = y.expression) :
    p.template = base ↔ ¬ Misphrased base bindings := by
  have hy : y ∈ fitting base bindings := h ▸ List.mem_cons_self
  have hmem := mem_of_mem_fitting hy
  by_cases hb : base = optionalRemoval
  · subst hb
    have hfits : y.fits bindings = true := List.of_mem_filter (List.mem_mergeSort.mp hy)
    obtain ⟨hremoval,haddition⟩ := template_of_optionalRemoval p hp
    rw [phrasesFor_optionalRemoval, List.mem_pair] at hmem
    rcases hmem with rfl | rfl
    · have hv : lastValue? bindings "target" = some Target.parameter.name := eq_of_beq hfits
      exact iff_of_true (hremoval htext) fun hm => hm.2 hv
    · refine iff_of_false (haddition htext) (not_not.mpr ⟨rfl,fun hv => ?_⟩)
      -- the phrase for parameters would have come first
      have hbest := hundredths_le_of_fitting h (z := ⟨"safe removal", 100, some .parameter⟩)
        (by simp [phrasesFor_optionalRemoval]) (by simp [Phrase.fits, hv])
      simp at hbest
  · have hrow := exists_row (List.ne_nil_of_mem hmem)
    have hsame := (template_of_row _ hrow).2 hb y hmem p hp htext
    exact iff_of_true hsame fun hm => hb hm.1

/-! ## The intent -/

theorem said_of_condition (hp : p ∈ phrases) {keyword : Intent.Keyword} {condition : String}
    (h : Intent.conditionError keyword (Intent.normalize condition) = none) :
    ∃ c, Says (Intent.normalize (p.text ++ " " ++ keyword.name ++ " " ++ condition)) p c := by
  have hknown := Intent.conditionError_eq_none_iff.mp h
  have hwords : Text.wordsOf condition.toList ≠ [] := by
    intro hblank
    have hempty : Intent.normalize condition = "" := by
      apply String.toList_injective
      rw [Intent.toList_normalize, hblank]
      rfl
    have hunknown : ∀ k : Intent.Keyword, Intent.conditionError k "" ≠ none := by
      intro k
      cases k <;> decide
    rw [hempty] at h
    exact hunknown keyword h
  rw [Intent.normalize_conditional hp keyword hwords]
  rcases hknown with hmem | ⟨rfl,k,hk⟩
  · exact ⟨_,.nested hp keyword _ hmem⟩
  · rw [hk, ← Intent.when_kind]
    exact ⟨_,.kind hp k⟩

theorem phrasesFor_listedBase? (h : listedBase? r = some base) : phrasesFor base ≠ [] := by
  unfold listedBase? at h
  split at h
  · next c hc =>
    obtain rfl := Option.some.inj h
    simpa using (Option.filter_eq_some_iff.mp hc).2
  · split_ifs at h with hempty
    obtain rfl := Option.some.inj h
    simpa using hempty

theorem exists_template_of_listedBase? (h : listedBase? r = some base) :
    ∃ p ∈ phrases, p.template = base :=
  (template_of_row _ (exists_row (phrasesFor_listedBase? h))).1

theorem restrictedIntent?_of_unlisted
    (hc : (restricted? r).filter (fun c => !(phrasesFor c.base).isEmpty) = none) :
    restrictedIntent? r = none := by
  cases h : restricted? r with
  | none => simp [restrictedIntent?, h]
  | some c =>
    have hbare : phrasesFor c.base = [] := by simpa [h, Option.filter] using hc
    simp [restrictedIntent?, h, fitting_eq_nil_iff.mpr hbare]

/-- The words that are taken from a listed template say its best phrase. -/
theorem said_of_intent? {x : Phrased} (hx : intent? r = some x) (hbase : listedBase? r = some base)
    (hread : isReadable r = true) : ∃ y rest p c, fitting base r.bindings = y :: rest ∧ p ∈ phrases ∧
    p.text = y.expression ∧ Says (Intent.normalize x.intent.expression) p c ∧
    x.intent.returns = r.returns := by
  have hsome : fitting base r.bindings ≠ [] :=
    fitting_eq_nil_iff.not.mpr (phrasesFor_listedBase? hbase)
  obtain ⟨y,rest,hfit⟩ := List.exists_cons_of_ne_nil hsome
  obtain ⟨p,hp,htext⟩ := exists_phrase (mem_of_mem_fitting (hfit ▸ List.mem_cons_self))
  cases hc : (restricted? r).filter fun c => !(phrasesFor c.base).isEmpty with
  | some c =>
    simp only [listedBase?, hc, Option.some.injEq] at hbase
    simp only [isReadable, hc, Option.isNone_iff_eq_none] at hread
    subst hbase
    rw [intent?, restrictedIntent?_of_fitting (Option.filter_eq_some_iff.mp hc).1 hfit] at hx
    obtain rfl := Option.some.inj hx
    obtain ⟨said,hsaid⟩ := said_of_condition hp hread
    rw [htext] at hsaid
    exact ⟨y,rest,p,said,hfit,hp,htext,hsaid,rfl⟩
  | none =>
    simp only [listedBase?, hc] at hbase
    split_ifs at hbase
    obtain rfl := Option.some.inj hbase
    rw [intent?, restrictedIntent?_of_unlisted hc, plainIntent?_of_fitting hfit] at hx
    obtain rfl := Option.some.inj hx
    have hsaid : Says p.text p none := .plain hp
    refine ⟨y,rest,p,none,hfit,hp,htext,?_,rfl⟩
    rw [intentWith, ← htext, Intent.normalize_of_said hsaid]
    exact hsaid

theorem compile_eq_some {d : DimensionalRule} (h : (Pattern.compile r).dimensional = some d) :
    isRelease r.returns = true ∧
    Pattern.dimensions (Pattern.meaning r.template r.bindings) r.returns r.description = d := by
  have herrors : Pattern.errorsOf r (Pattern.meaning r.template r.bindings) = [] := by
    by_contra hne
    rw [Pattern.dimensional_of_errors hne] at h
    cases h
  rw [Pattern.compile_of_errors_nil herrors] at h
  exact ⟨(Pattern.errorsOf_eq_nil_iff.mp herrors).1,Option.some.inj h⟩

theorem isReadable_of_read {x : Phrased} {q : PatternRule} (hr : isRelease r.returns = true)
    (hx : intent? r = some x) (hq : (Intent.read x.intent).pattern = some q) :
    isReadable r = true := by
  obtain ⟨x',hx',-,hvalid⟩ := exists_intent hr
  obtain rfl := Option.some.inj (hx'.symm.trans hx)
  have hsome := Intent.isSome_read_iff x'.intent
  rw [hq, Option.isSome_some, eq_comm, Bool.and_eq_true] at hsome
  rw [← hvalid, hsome.2]

/-- A pattern with plain variables whose words come from a listed template keeps what it says
of an action, an aspect, an impact and tags in these words, if they are an intent, just if
they are not the words of an addition for what is removed. -/
theorem said_reworded {d : DimensionalRule} {x : Phrased} {q : PatternRule}
    (hd : (Pattern.compile r).dimensional = some d) (hx : intent? r = some x)
    (hq : (Intent.read x.intent).pattern = some q) (hbase : listedBase? r = some base)
    (hr : r.Plain) : ∃ e, (Pattern.compile q).dimensional = some e ∧
    (e.said = d.said ↔ ¬ Misphrased base r.bindings) := by
  obtain ⟨hrelease,rfl⟩ := compile_eq_some hd
  have hread : isReadable r = true := isReadable_of_read hrelease hx hq
  obtain ⟨p₀,hp₀,hbase₀⟩ := exists_template_of_listedBase? hbase
  obtain ⟨v,hv,htemplate₀,hbefore⟩ := said_of_listedBase? hp₀ hr (hbase₀ ▸ hbase) hread r.returns
    r.description
  obtain ⟨y,rest,p,c,hfit,hp,htext,hsaid,hreturns⟩ := said_of_intent? hx hbase hread
  have hreading : Intent.read x.intent =
      ⟨some (Intent.pattern p c x.intent.returns x.intent.description), [], []⟩ :=
    Intent.read_of_said hsaid (hreturns ▸ hrelease)
  have hcompile := Intent.compile_pattern hp c (hreturns ▸ hrelease) x.intent.description
  rw [hreading] at hq
  obtain rfl := Option.some.inj hq
  obtain ⟨w,hw,htemplate,hrule⟩ :=
    Intent.exists_wording hp c x.intent.returns x.intent.description
  refine ⟨_,by rw [hcompile],?_⟩
  calc
    _ ↔ w.said = v.said := by rw [hrule, hbefore]; rfl
    _ ↔ w.template = v.template := Wording.said_eq_iff w hw v hv
    _ ↔ p.template = base := by rw [htemplate, htemplate₀, hbase₀]
    _ ↔ ¬ Misphrased base r.bindings := template_of_fitting hfit hp htext

def optionalUnlessMember : PatternRule where
  template := "\x7bpattern\x7d unless \x7bcondition\x7d"
  bindings := [⟨"condition", " Members", .condition⟩,
    ⟨"pattern", "removed optional \x7btarget\x7d", .pattern⟩, ⟨"target", "parameter", .target⟩]
  returns := some "minor"
  description := .null

theorem said_reworded_of_members : ∃ d x q e,
    (Pattern.compile optionalUnlessMember).dimensional = some d ∧
    intent? optionalUnlessMember = some x ∧ (Intent.read x.intent).pattern = some q ∧
    listedBase? optionalUnlessMember = some optionalRemoval ∧ optionalUnlessMember.Plain ∧
    (Pattern.compile q).dimensional = some e ∧ e.said = d.said ∧
    d.said = [["removed"], [], [], ["was-optional"]] := by
  have hcompile : (Pattern.compile optionalUnlessMember).dimensional.map (·.said) =
      some [["removed"], [], [], ["was-optional"]] := by decide +kernel
  obtain ⟨d,hd,hsaid⟩ := Option.map_eq_some_iff.mp hcompile
  obtain ⟨x,hx,hreturns,hvalid⟩ := exists_intent (r := optionalUnlessMember) (by decide)
  have hsome : (Intent.read x.intent).pattern.isSome = true := by
    rw [Intent.isSome_read_iff, hreturns, hvalid]
    decide +kernel
  obtain ⟨q,hq⟩ := Option.isSome_iff_exists.mp hsome
  have hbase : listedBase? optionalUnlessMember = some optionalRemoval := by decide +kernel
  have hplain : optionalUnlessMember.Plain := by
    refine ⟨by decide +kernel,fun v hv => ?_⟩
    obtain rfl : ⟨"target", "parameter", .target⟩ = v := Option.some.inj hv
    decide
  have hright : ¬ Misphrased optionalRemoval optionalUnlessMember.bindings := fun h => h.2 rfl
  obtain ⟨e,he,hsame⟩ := said_reworded hd hx hq hbase hplain
  exact ⟨d,x,q,e,hd,hx,hq,hbase,hplain,he,hsame.mpr hright,hsaid⟩

def beforeAndAfter? (r : PatternRule) : Option (List (List String) × List (List String)) := do
  let d ← (Pattern.compile r).dimensional
  let x ← intent? r
  let q ← (Intent.read x.intent).pattern
  let e ← (Pattern.compile q).dimensional
  return (d.said, e.said)

/-- The one row turns a removal into an addition. Words that are made up may happen to be an
intent, and the value of a variable may hold wording that no phrase takes over. -/
theorem said_otherwise :
    beforeAndAfter? ⟨"removed optional \x7btarget\x7d", [⟨"target", "property", .target⟩],
        some "minor", .null⟩ =
      some ([["removed"], [], [], ["was-optional"]], [["added"], [], [], ["now-optional"]]) ∧
    beforeAndAfter? ⟨"breaking removal", [⟨"target", "export", .target⟩], some "major", .null⟩ =
      some ([[], [], [], []], [["removed"], [], [], []]) ∧
    beforeAndAfter? ⟨"removed \x7btarget\x7d", [⟨"target", "x type narrowed", .pattern⟩],
        some "major", .null⟩ =
      some ([["removed"], ["type"], ["narrowing"], []], [["removed"], [], [], []]) := by
  decide +kernel

end ApiRelease.Phrasing
