import ApiRelease.Proofs.Raising
import ApiRelease.Proofs.Restrictions

/-! # Intents brought down and up again

On the way up the dimensions of an intent find the template that they came from, and the
template a phrase with the same template and target. What they do not find again is the
restriction: the catalogue has no template for one kind of declaration and none for what
does not lie inside, and the only one for what lies inside that is not beaten by a better
one is that of plain removals.
-/
namespace ApiRelease

open Intent (Restriction phrases)

namespace Phrasing

variable {p : Intent.Phrase} {bindings : List PatternVariable}

/-- The best phrase for the template and target of a phrase has the same ones. -/
theorem row_of_mem : ∀ p ∈ phrases,
    ((phrasesFor p.template).filter (Phrase.fits [⟨"target", p.target.name, .target⟩])).Pairwise
      (fun a b => decide (b.hundredths ≤ a.hundredths) = true) ∧
    (((phrasesFor p.template).filter (Phrase.fits [⟨"target", p.target.name, .target⟩])).head?.any
      fun x => phrases.any fun q =>
        q.text == x.expression && q.template == p.template && decide (q.target = p.target)) = true := by
  decide

theorem exists_fitting (hp : p ∈ phrases)
    (hb : lastValue? bindings "target" = some p.target.name) : ∃ x rest q,
    fitting p.template bindings = x :: rest ∧ q ∈ phrases ∧ q.text = x.expression ∧
    q.template = p.template ∧ q.target = p.target := by
  have hfits : Phrase.fits bindings = Phrase.fits [⟨"target", p.target.name, .target⟩] := by
    funext x
    rw [Phrase.fits, Phrase.fits, hb]
    rfl
  obtain ⟨hsorted,hbest⟩ := row_of_mem p hp
  rw [fitting, hfits, List.mergeSort_of_pairwise hsorted]
  obtain ⟨x,hx,hany⟩ := (Option.any_eq_true ..).mp hbest
  obtain ⟨rest,hrest⟩ := List.head?_eq_some_iff.mp hx
  obtain ⟨q,hq,hsame⟩ := List.any_eq_true.mp hany
  simp only [Bool.and_eq_true, beq_iff_eq, decide_eq_true_eq] at hsame
  exact ⟨x,rest,q,hrest,hq,hsame.1.1,hsame.1.2,hsame.2⟩

theorem beforeEnding?_of_letter {s ending : String} {x : Char} (hx : x ∈ ending.toList)
    (hs : x ∉ s.toList) : beforeEnding? s ending = none := by
  have hsuffix {cs : List Char} (hcs : x ∉ cs) : ending.toList.isSuffixOf cs = false := by
    rw [Bool.eq_false_iff, ne_eq, List.isSuffixOf_iff_suffix]
    exact fun h => hcs (h.subset hx)
  have hlast : x ∉ s.toList.dropLast := fun h => hs (List.dropLast_subset _ h)
  simp [beforeEnding?, hsuffix hs, hsuffix hlast]

theorem restricted?_of_phrase (hp : p ∈ phrases) {r : PatternRule} (h : r.template = p.template) :
    restricted? r = none := by
  obtain ⟨hh,hs,hk⟩ := (Intent.regular_of_mem p hp).letters
  rw [← h] at hh hs hk
  have hwhen : conditional? r .when = none := beforeEnding?_of_letter (by decide) hh
  have hunless : conditional? r .unless = none := beforeEnding?_of_letter (by decide) hs
  have hkind : beforeEnding? r.template (" for " ++ slot "nodeKind") = none :=
    beforeEnding?_of_letter (by decide) hk
  simp [restricted?, hwhen, hunless, hkind]

theorem lastValue?_variablesFor {d : DimensionalRule} {template : String}
    (ht : Text.contains template (slot "target") = true) :
    lastValue? (Catalogue.variablesFor d template) "target" =
    some (d.target.headD Target.exportItem.name) := by
  unfold lastValue? Catalogue.variablesFor
  rw [if_pos ht]
  cases d.nodeKind with
  | nil => split_ifs <;> rfl
  | cons kind rest => split_ifs <;> rfl

theorem target_of_phrase (hp : p ∈ phrases) : Text.contains p.template (slot "target") = true := by
  rw [Text.contains_iff, (Intent.regular_of_mem p hp).template]
  exact ⟨p.lead,p.rest,rfl⟩

variable {d : DimensionalRule} {words : String}

/-- The pattern for a phrase is put into a phrase of the same template and target. -/
theorem said_of_phrase (hp : p ∈ phrases) (ht : d.target = [p.target.name]) : ∃ x q,
    intent? (Catalogue.patternFor d p.template words) = some x ∧ x.intent.returns = d.returns ∧
    Intent.Says (Intent.normalize x.intent.expression) q none ∧
    q.template = p.template ∧ q.target = p.target := by
  have hvalue : lastValue? (Catalogue.variablesFor d p.template) "target" = some p.target.name := by
    rw [lastValue?_variablesFor (target_of_phrase hp), ht]
    rfl
  obtain ⟨x,rest,q,hfit,hq,htext,htemplate,htarget⟩ := exists_fitting hp hvalue
  have hnone : restricted? (Catalogue.patternFor d p.template words) = none :=
    restricted?_of_phrase hp rfl
  have hplain := plainIntent?_of_fitting (r := Catalogue.patternFor d p.template words) hfit
  have hintent : intent? (Catalogue.patternFor d p.template words) =
      plainIntent? (Catalogue.patternFor d p.template words) := by
    simp [intent?, restrictedIntent?, hnone]
  refine ⟨_,q,hintent.trans hplain,rfl,?_,htemplate,htarget⟩
  have hexpression : (intentWith (Catalogue.patternFor d p.template words) x.expression).expression =
      q.text := htext.symm
  have hsaid : Intent.Says q.text q none := .plain hq
  rw [hexpression, Intent.normalize_of_said hsaid]
  exact hsaid

theorem restricted?_of_nested (hd : d.nested = some true) :
    restricted? (Catalogue.patternFor d removedInside words) =
    some ⟨"removed \x7btarget\x7d", .when, "nested", hundredths 90⟩ := by
  have hplace : (Text.contains removedInside ("when " ++ slot "condition") &&
      d.nested == some true) = true := by
    rw [hd]
    decide
  apply restricted?_removedInside rfl
  unfold PatternRule.named? Catalogue.patternFor Catalogue.variablesFor
  rw [if_pos hplace]
  cases d.nodeKind with
  | nil => split_ifs <;> rfl
  | cons kind rest => split_ifs <;> rfl

/-- A plain removal keeps in words that it lies inside. -/
theorem said_of_removal (hp : p ∈ phrases) (hremoved : p.template = "removed \x7btarget\x7d")
    (ht : d.target = [p.target.name]) (hd : d.nested = some true) : ∃ x q,
    intent? (Catalogue.patternFor d removedInside words) = some x ∧
    x.intent.returns = d.returns ∧
    Intent.Says (Intent.normalize x.intent.expression) q (some (.inside .when)) ∧
    q.template = p.template ∧ q.target = p.target := by
  have hslot : Text.contains removedInside (slot "target") = true := by decide
  have hvalue : lastValue? (Catalogue.variablesFor d removedInside) "target" =
      some p.target.name := by
    rw [lastValue?_variablesFor hslot, ht]
    rfl
  obtain ⟨x,rest,q,hfit,hq,htext,htemplate,htarget⟩ := exists_fitting hp hvalue
  rw [hremoved] at hfit
  have hintent : intent? (Catalogue.patternFor d removedInside words) = some
      ⟨intentWith (Catalogue.patternFor d removedInside words)
        (x.expression ++ " " ++ Intent.Keyword.when.name ++ " " ++ "nested"),
        hundredths x.hundredths * hundredths 90, []⟩ := by
    rw [intent?, restrictedIntent?_of_fitting (restricted?_of_nested hd) hfit]
  refine ⟨_,q,hintent,rfl,?_,htemplate,htarget⟩
  have hsaid : Intent.Says (q.text ++ " " ++ Intent.Keyword.when.name ++ " " ++ "nested") q
      (some (.inside .when)) := .nested hq .when "nested" (by decide)
  rw [intentWith, ← htext, Intent.normalize_of_said hsaid]
  exact hsaid

end Phrasing

namespace Catalogue

variable {d : DimensionalRule}

def scored (d : DimensionalRule) : List (Entry × Float) :=
  (entries.filter (·.satisfiedBy d)).map fun e => (e, score d e)

def firstTemplate (d : DimensionalRule) : String :=
  match scored d with
  | [] => (fallback d).pattern.template
  | best :: _ => if best.2 < Scale.ratio 3 10 then (fallback d).pattern.template else best.1.template

theorem decompile?_of_sorted (hr : isRelease d.returns = true)
    (hs : (scored d).Pairwise fun a b => decide (b.2 ≤ a.2) = true) : ∃ description,
    (decompile? d).map (·.pattern) = some (patternFor d (firstTemplate d) description) := by
  have hranking : ranking d = firstOfTemplate (scored d) := by
    rw [ranking, ← scored, List.mergeSort_of_pairwise hs]
  obtain ⟨description,hfallback,-⟩ := fallback_patternFor d
  rw [pattern_decompile? hr, hranking]
  unfold firstTemplate
  cases scored d with
  | nil => exact ⟨description,congrArg some hfallback⟩
  | cons best rest =>
    by_cases hlow : best.2 < Scale.ratio 3 10
    · simp only [firstOfTemplate, if_pos hlow]
      exact ⟨description,congrArg some hfallback⟩
    · simp only [firstOfTemplate, if_neg hlow]
      exact ⟨best.1.description,rfl⟩

end Catalogue

namespace Wording

theorem eq_of_template {v w : Wording} (hv : v ∈ all) (hw : w ∈ all)
    (h : v.template = w.template) : v = w := by
  have hnodup : (all.map (·.template)).Nodup := by decide
  exact List.inj_on_of_nodup_map hnodup hv hw h

/-! ## The best entry of the catalogue -/

/-- A restriction that scores the same. -/
def likeness : Option Restriction → Option Restriction
  | some (.inside .when) => some (.inside .when)
  | some (.ofKind _) => some (.ofKind .classDecl)
  | _ => none

def likenesses : List (Option Restriction) :=
  [none, some (.inside .when), some (.ofKind .classDecl)]

theorem likeness_mem (c : Option Restriction) : likeness c ∈ likenesses := by
  match c with
  | none => simp [likeness, likenesses]
  | some (.inside .when) => simp [likeness, likenesses]
  | some (.inside .unless) => simp [likeness, likenesses]
  | some (.ofKind k) => simp [likeness, likenesses]

variable {w : Wording} {target : Target} {c : Option Restriction} {returns : Option String}
  {description : Value}

theorem satisfiedBy_likeness (e : Catalogue.Entry) :
    e.satisfiedBy (w.rule target c returns description) =
    e.satisfiedBy (w.rule .exportItem (likeness c) none .null) := by
  match c with
  | none => rfl
  | some (.inside .when) => rfl
  | some (.inside .unless) => rfl
  | some (.ofKind k) => rfl

theorem populated_likeness : Catalogue.populated (w.rule target c returns description) =
    Catalogue.populated (w.rule .exportItem (likeness c) none .null) := by
  -- only which of the lists are empty counts
  have hcount (lists : List (List String)) : (lists.filter fun vs => !vs.isEmpty).length =
      (lists.map List.isEmpty).countP fun b => !b := by
    rw [List.countP_map, List.countP_eq_length_filter]
    rfl
  rw [Catalogue.populated, Catalogue.populated, hcount, hcount]
  match c with
  | none => rfl
  | some (.inside .when) => rfl
  | some (.inside .unless) => rfl
  | some (.ofKind k) => rfl

theorem nested_likeness : (Restriction.nested (likeness c) == some true) =
    (Restriction.nested c == some true) := by
  match c with
  | none => rfl
  | some (.inside .when) => rfl
  | some (.inside .unless) => rfl
  | some (.ofKind k) => rfl

theorem score_likeness (e : Catalogue.Entry) :
    Catalogue.score (w.rule target c returns description) e =
    Catalogue.score (w.rule .exportItem (likeness c) none .null) e := by
  have hnested : ((w.rule target c returns description).nested == some true) =
      ((w.rule .exportItem (likeness c) none .null).nested == some true) := nested_likeness.symm
  have himpact : (w.rule target c returns description).impact =
      (w.rule .exportItem (likeness c) none .null).impact := rfl
  rw [Catalogue.score, Catalogue.score, Catalogue.Entry.captured, Catalogue.Entry.captured,
    populated_likeness, hnested, himpact]

theorem scored_likeness : Catalogue.scored (w.rule target c returns description) =
    Catalogue.scored (w.rule .exportItem (likeness c) none .null) := by
  have hsatisfied : (fun e : Catalogue.Entry =>
      e.satisfiedBy (w.rule target c returns description)) = fun e =>
      e.satisfiedBy (w.rule .exportItem (likeness c) none .null) := funext satisfiedBy_likeness
  have hscore : Catalogue.score (w.rule target c returns description) =
      Catalogue.score (w.rule .exportItem (likeness c) none .null) := funext score_likeness
  rw [Catalogue.scored, Catalogue.scored, hsatisfied, hscore]

def found (w : Wording) (c : Option Restriction) : String :=
  if c = some (.inside .when) ∧ w.template = "removed \x7btarget\x7d" then removedInside
  else w.template

theorem sorted_of_mem : ∀ w ∈ all, ∀ c ∈ likenesses,
    (Catalogue.scored (w.rule .exportItem c none .null)).Pairwise
      (fun a b => decide (b.2 ≤ a.2) = true) ∧
    Catalogue.firstTemplate (w.rule .exportItem c none .null) = w.found c := by
  decide +kernel

theorem found_likeness : w.found (likeness c) = w.found c := by
  match c with
  | none => rfl
  | some (.inside .when) => rfl
  | some (.inside .unless) => simp [found, likeness]
  | some (.ofKind k) => simp [found, likeness]

/-- The dimensions of a phrase are read back as the pattern that they came from, but for
the restriction. -/
theorem decompile?_rule (hw : w ∈ all) (target : Target) (c : Option Restriction)
    (hr : isRelease returns = true) (description : Value) : ∃ words,
    (Catalogue.decompile? (w.rule target c returns description)).map (·.pattern) =
    some (Catalogue.patternFor (w.rule target c returns description) (w.found c) words) := by
  obtain ⟨hs,hfirst⟩ := sorted_of_mem w hw (likeness c) (likeness_mem c)
  have hfallback : (Catalogue.fallback (w.rule target c returns description)).pattern.template =
      (Catalogue.fallback (w.rule .exportItem (likeness c) none .null)).pattern.template := rfl
  have hfound : Catalogue.firstTemplate (w.rule target c returns description) = w.found c := by
    rw [← found_likeness, ← hfirst, Catalogue.firstTemplate, Catalogue.firstTemplate,
      scored_likeness, hfallback]
  rw [← scored_likeness] at hs
  obtain ⟨words,hpattern⟩ := Catalogue.decompile?_of_sorted hr hs
  exact ⟨words,by rw [hpattern, hfound]⟩

end Wording

namespace Intent

variable {e : String} {p q : Phrase} {returns : Option String}

/-- What is left of a restriction after the trip. -/
def carried (p : Phrase) (c : Option Restriction) : Option Restriction :=
  if c = some (.inside .when) ∧ p.template = "removed \x7btarget\x7d" then c else none

theorem atLevel_of_said {c : Option Restriction} (h : Says (normalize e) p c)
    (hr : isRelease returns = true) (description : Value) :
    (Rule.intent ⟨e, returns, description⟩).atLevel .dimensional =
    .dimensional (Pattern.dimensions (meaning p c) returns description) := by
  have hread : read ⟨e, returns, description⟩ = ⟨some (pattern p c returns description), [], []⟩ :=
    read_of_said h hr
  have hcompile := compile_pattern h.mem c hr description
  apply Rule.atLevel_of_moveTo
  simp [Rule.moveTo, Rule.level, RuleLevel.rank, Rule.repeatMove, Rule.lowered, hread, hcompile]

/-- On the way up a phrase finds one with the same template and target, under what is left
of the restriction. -/
theorem exists_atLevel_intent (hp : p ∈ phrases) (c : Option Restriction)
    (hr : isRelease returns = true) (description : Value) : ∃ up q,
    (Rule.dimensional (Pattern.dimensions (meaning p c) returns description)).atLevel .intent =
      .intent up ∧
    up.returns = returns ∧ Says (normalize up.expression) q (carried p c) ∧
    q.template = p.template ∧ q.target = p.target := by
  obtain ⟨w,hw,htemplate,hrule⟩ := exists_wording hp c returns description
  obtain ⟨words,hmap⟩ := Wording.decompile?_rule hw p.target c hr description
  obtain ⟨x,hx,hpattern⟩ := Option.map_eq_some_iff.mp hmap
  have hsaid : ∃ y q, Phrasing.intent? x.pattern = some y ∧ y.intent.returns = returns ∧
      Says (normalize y.intent.expression) q (carried p c) ∧
      q.template = p.template ∧ q.target = p.target := by
    rw [hpattern, Wording.found, carried, htemplate]
    by_cases hkept : c = some (.inside .when) ∧ p.template = "removed \x7btarget\x7d"
    · rw [if_pos hkept, if_pos hkept]
      obtain ⟨rfl,hremoved⟩ := hkept
      exact Phrasing.said_of_removal hp hremoved rfl rfl
    · rw [if_neg hkept, if_neg hkept]
      exact Phrasing.said_of_phrase hp rfl
  obtain ⟨y,q,hy,hreturns,hq⟩ := hsaid
  refine ⟨y.intent,q,?_,hreturns,hq⟩
  rw [hrule]
  apply Rule.atLevel_of_moveTo
  simp [Rule.moveTo, Rule.level, RuleLevel.rank, Rule.repeatMove, Rule.raised, hx, hy]

theorem kept_iff (p : Phrase) (c : Option Restriction) :
    (Restriction.kinds (carried p c) = Restriction.kinds c ∧
      Restriction.nested (carried p c) = Restriction.nested c) ↔
    c = none ∨ c = some (.inside .when) ∧ p.template = "removed \x7btarget\x7d" := by
  unfold carried
  split_ifs with hkept
  · exact iff_of_true ⟨rfl,rfl⟩ (Or.inr hkept)
  · rw [or_iff_left hkept]
    match c with
    | none => simp
    | some (.inside keyword) => simp [Restriction.nested]
    | some (.ofKind k) => simp [Restriction.kinds]

end Intent

namespace Draft

open Intent

variable {e : String} {p : Phrase} {c : Option Restriction}

/-- The rule goes down to `first`, up to `up` and down again to `last`. -/
def Trip (e : String) (r : Release) (description : Value) (first : DimensionalRule)
    (up : IntentRule) (last : DimensionalRule) : Prop :=
  (transform "dimensional" [.rule (.intent ⟨e, some r.name, description⟩)]).result =
    .ok [.rule (.dimensional first)] ∧
  (transform "intent" [.rule (.dimensional first)]).result = .ok [.rule (.intent up)] ∧
  (transform "dimensional" [.rule (.intent up)]).result = .ok [.rule (.dimensional last)]

theorem trip_of_atLevel {r : Release} {description : Value} {first last : DimensionalRule}
    {up : IntentRule}
    (hfirst : (Rule.intent ⟨e, some r.name, description⟩).atLevel .dimensional = .dimensional first)
    (hup : (Rule.dimensional first).atLevel .intent = .intent up)
    (hlast : (Rule.intent up).atLevel .dimensional = .dimensional last) :
    Trip e r description first up last := by
  refine ⟨?_,?_,?_⟩
  · rw [← hfirst]
    exact transform_rules .dimensional [_]
  · rw [← hup]
    exact transform_rules .intent [_]
  · rw [← hlast]
    exact transform_rules .dimensional [_]

/-- The second time the dimensions hold what is left of the restriction, and else they are
the same. -/
theorem exists_trip (h : Says (normalize e) p c) (r : Release) (description : Value) :
    ∃ first up last, Trip e r description first up last ∧
      first.nodeKind = Restriction.kinds c ∧ first.nested = Restriction.nested c ∧
      last = { first with
        nodeKind := Restriction.kinds (carried p c), nested := Restriction.nested (carried p c),
        description := last.description } := by
  have hr := isRelease_name r
  obtain ⟨up,q,hup,hreturns,hsaid,htemplate,htarget⟩ :=
    exists_atLevel_intent h.mem c hr description
  obtain ⟨expression,returns,words⟩ := up
  obtain rfl : returns = some r.name := hreturns
  have htrip := trip_of_atLevel (atLevel_of_said h hr description) hup (atLevel_of_said hsaid hr words)
  obtain ⟨w,hw,hwp,hfirst⟩ := exists_wording h.mem c (some r.name) description
  obtain ⟨v,hv,hvq,hlast⟩ := exists_wording hsaid.mem (carried p c) (some r.name) words
  obtain rfl : v = w := Wording.eq_of_template hv hw (hvq.trans (htemplate.trans hwp.symm))
  rw [hfirst, hlast, htarget] at htrip
  exact ⟨_,_,_,htrip,rfl,rfl,rfl⟩

theorem Trip.unique {r : Release} {description : Value} {first first' last last' : DimensionalRule}
    {up up' : IntentRule} (h : Trip e r description first up last)
    (h' : Trip e r description first' up' last') : first = first' ∧ last = last' := by
  obtain ⟨hfirst,hup,hlast⟩ := h
  obtain ⟨hfirst',hup',hlast'⟩ := h'
  obtain rfl : first = first' := by simpa [hfirst] using hfirst'
  obtain rfl : up = up' := by simpa [hup] using hup'
  obtain rfl : last = last' := by simpa [hlast] using hlast'
  exact ⟨rfl,rfl⟩

/-- An intent that goes down, up and down again keeps all but its restriction, and this only
if it restricts a plain removal to what lies inside. -/
theorem trip_of_valid (h : isValid e = true) (r : Release) (description : Value) :
    ∃ first up last, Trip e r description first up last ∧
      last = { first with
        nodeKind := last.nodeKind, nested := last.nested, description := last.description } ∧
      ∀ p c, Says (normalize e) p c →
        if c = none ∨ c = some (.inside .when) ∧ p.template = "removed \x7btarget\x7d" then
          last.nodeKind = first.nodeKind ∧ last.nested = first.nested
        else
          last.nodeKind = [] ∧ last.nested = none ∧
          ¬ (last.nodeKind = first.nodeKind ∧ last.nested = first.nested) := by
  obtain ⟨p,c,hsaid⟩ := isValid_iff.mp h
  obtain ⟨first,up,last,htrip,-,-,hsame⟩ := exists_trip hsaid r description
  refine ⟨first,up,last,htrip,by rw [hsame],?_⟩
  intro p c hsaid
  obtain ⟨first',up',last',htrip',hkinds,hnested,hsame⟩ := exists_trip hsaid r description
  obtain ⟨rfl,rfl⟩ := htrip.unique htrip'
  have hlastKinds : last.nodeKind = Restriction.kinds (carried p c) := by rw [hsame]
  have hlastNested : last.nested = Restriction.nested (carried p c) := by rw [hsame]
  rw [hlastKinds, hlastNested, hkinds, hnested]
  split_ifs with hkept
  · exact (kept_iff p c).mpr hkept
  · have hnone : carried p c = none := if_neg fun hcarried => hkept (Or.inr hcarried)
    refine ⟨?_,?_,(kept_iff p c).not.mpr hkept⟩
    · rw [hnone]
      rfl
    · rw [hnone]
      rfl

theorem trip_of_nested_removal : ∃ first up last,
    Trip "member removal is breaking when nested member" .major .null first up last ∧
    last = { first with description := last.description } := by
  have hp : ⟨"member removal is breaking", "removed \x7btarget\x7d", .property⟩ ∈ phrases := by
    simp [phrases]
  have hsaid := Says.nested hp .when "nested member" (by decide)
  rw [← normalize_of_said hsaid] at hsaid
  obtain ⟨first,up,last,htrip,hsame,hkept⟩ :=
    trip_of_valid (isValid_iff.mpr ⟨_,_,hsaid⟩) .major .null
  have hboth : last.nodeKind = first.nodeKind ∧ last.nested = first.nested := by
    simpa using hkept _ _ hsaid
  refine ⟨first,up,last,htrip,?_⟩
  rw [hboth.1, hboth.2] at hsame
  exact hsame

def Strays (e : String) (r : Release) : Prop :=
  ∃ first up last, Trip e r .null first up last ∧
    ¬ (last.nodeKind = first.nodeKind ∧ last.nested = first.nested)

theorem strays_of_said (h : Says e p c) (r : Release)
    (hlost : ¬ (c = none ∨ c = some (.inside .when) ∧ p.template = "removed \x7btarget\x7d")) :
    Strays e r := by
  rw [← normalize_of_said h] at h
  obtain ⟨first,up,last,htrip,hkinds,hnested,hsame⟩ := exists_trip h r .null
  have hlastKinds : last.nodeKind = Restriction.kinds (carried p c) := by rw [hsame]
  have hlastNested : last.nested = Restriction.nested (carried p c) := by rw [hsame]
  refine ⟨first,up,last,htrip,?_⟩
  rw [hlastKinds, hlastNested, hkinds, hnested]
  exact (kept_iff p c).not.mpr hlost

/-- Lost are a kind of declaration, that an addition lies inside and that a removal does
not. -/
theorem restrictions_stray : Strays "breaking removal when class" .major ∧
    Strays "safe addition when nested" .none ∧ Strays "breaking removal unless nested" .major := by
  have hremoval : ⟨"breaking removal", "removed \x7btarget\x7d", .exportItem⟩ ∈ phrases := by
    simp [phrases]
  have haddition : ⟨"safe addition", "added optional \x7btarget\x7d", .parameter⟩ ∈ phrases := by
    simp [phrases]
  refine ⟨?_,?_,?_⟩
  · exact strays_of_said (.kind hremoval .classDecl) .major (by simp)
  · exact strays_of_said (.nested haddition .when "nested" (by decide)) .none (by simp)
  · exact strays_of_said (.nested hremoval .unless "nested" (by decide)) .major (by simp)

end Draft

end ApiRelease
