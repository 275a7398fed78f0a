import ApiRelease.Proofs.Filling
import ApiRelease.Proofs.Restrictions
import ApiRelease.Proofs.Wording

/-! # What listed templates say, filled in

A listed template has a place for its target, and under a restriction it ends in a keyword
and a condition. With a target in its place the template is understood in one way, and
neither the keyword nor a condition that intents know holds a word that would be understood
as an aspect, however the condition is spaced and whatever its case. So a pattern with such
a template, given as it is or by the variable called `pattern`, says what the template says.
-/
namespace ApiRelease

namespace Text

/-- A word without the letter stands on one side of it. -/
theorem infix_of_append_cons {word before after : List Char} {x : Char} (hx : x ∉ word)
    (h : word <:+: before ++ x :: after) : word <:+: before ∨ word <:+: after := by
  induction before with
  | nil =>
    rcases List.infix_cons_iff.mp h with hhere | hafter
    · cases word with
      | nil => exact Or.inl List.nil_infix
      | cons y word =>
        obtain ⟨rfl,-⟩ := List.cons_prefix_cons.mp hhere
        exact absurd List.mem_cons_self hx
    · exact Or.inr hafter
  | cons y before ih =>
    rw [List.cons_append, List.infix_cons_iff] at h
    rcases h with hhere | hrest
    · rw [← List.cons_append] at hhere
      rcases prefix_append_cases hhere with hbefore | ⟨u,hu,rfl,hafter⟩
      · exact Or.inl hbefore.isInfix
      · obtain ⟨z,u,rfl⟩ := List.exists_cons_of_ne_nil hu
        obtain ⟨rfl,-⟩ := List.cons_prefix_cons.mp hafter
        exact absurd (by simp) hx
    · exact (ih hrest).imp_left fun hbefore => List.infix_cons hbefore

theorem not_infix_of_occursIn {part cs : List Char} (h : occursIn part cs = false) :
    ¬ part <:+: cs := by
  rwa [← occursIn_iff, Bool.not_eq_true]

end Text

namespace Pattern

def lastWord (cs : List Char) : List Char := (cs.reverse.takeWhile (· != ' ')).reverse

theorem lastWord_regular : ∀ a ∈ aspectPhrases, Text.Stays (lastWord a.1.toList) ∧
    (lastWord a.1.toList).isSuffixOf a.1.toList = true ∧
    (∀ w ∈ Intent.nestedConditions, Text.occursIn (lastWord a.1.toList) w.toList = false) ∧
    (∀ k ∈ (Vocabulary.all : List NodeKind),
      Text.occursIn (lastWord a.1.toList) k.name.toList = false) ∧
    ∀ x ∈ restrictions, Text.occursIn (lastWord a.1.toList) x.1.toList = false ∧
      Text.occursIn (lastWord a.1.toList) (slot x.2).toList = false ∧
      ∀ u ∈ a.1.toList.tails, u ≠ [] → u.isPrefixOf (' ' :: (x.1.toList ++ [' '])) = false ∧
        (' ' :: (x.1.toList ++ [' '])).isPrefixOf u = false := by
  simp only [Text.toList_eq_letters]
  decide +kernel

/-- The condition of a restriction, or its placeholder if there is none, has none of the
words that end a phrase for an aspect. -/
def Harmless (condition : List Char) : Prop :=
  ∀ a ∈ aspectPhrases, ¬ lastWord a.1.toList <:+: condition

theorem isClear_ending {x : String × String} (hx : x ∈ restrictions) {condition after : List Char}
    (hc : Harmless condition) (hafter : after = [] ∨ after = ['\n']) :
    ∀ a ∈ aspectPhrases, Text.isClear a.1.toList (ending x.1 condition after) = true := by
  intro a ha
  obtain ⟨hstays,hlast,-,-,hrestrictions⟩ := lastWord_regular a ha
  obtain ⟨hword,-,hends⟩ := hrestrictions x hx
  have hblank {c : Char} (hc : Text.isBlank c = true) : c ∉ lastWord a.1.toList := by
    intro hmem
    have hplain := (hstays c hmem).1
    simp [hc] at hplain
  have hwithin : ¬ a.1.toList <:+: ending x.1 condition after := by
    intro hphrase
    have hending : lastWord a.1.toList <:+: [] ++ ' ' :: (x.1.toList ++ ' ' :: (condition ++ after)) :=
      (List.isSuffixOf_iff_suffix.mp hlast).isInfix.trans hphrase
    have hlater : lastWord a.1.toList <:+: condition ++ after := by
      rcases Text.infix_of_append_cons (hblank (by decide)) hending with hnil | hrest
      · exact hnil.trans List.nil_infix
      · rcases Text.infix_of_append_cons (hblank (by decide)) hrest with hhere | hlater
        · exact absurd hhere (Text.not_infix_of_occursIn hword)
        · exact hlater
    apply hc a ha
    rcases hafter with rfl | rfl
    · rwa [List.append_nil] at hlater
    · rcases Text.infix_of_append_cons (hblank (by decide)) hlater with hcondition | hnil
      · exact hcondition
      · exact hnil.trans List.nil_infix
  simp only [Text.isClear, Bool.and_eq_true, List.all_eq_true, List.mem_tails, Bool.or_eq_true,
    List.isEmpty_iff, Bool.not_eq_true']
  refine ⟨fun u hu => or_iff_not_imp_left.mpr fun hne => ?_,?_⟩
  · obtain ⟨hshort,hlong⟩ := hends u ((List.mem_tails ..).mpr hu) hne
    have hsplit : ending x.1 condition after = ' ' :: (x.1.toList ++ [' ']) ++ (condition ++ after) := by
      simp [ending]
    rw [hsplit, Text.isPrefixOf_append hlong, hshort]
  · rwa [Bool.eq_false_iff, ne_eq, Text.occursIn_iff]

theorem harmless_slot {x : String × String} (hx : x ∈ restrictions) : Harmless (slot x.2).toList :=
  fun a ha => Text.not_infix_of_occursIn ((lastWord_regular a ha).2.2.2.2 x hx).2.1

theorem brace_of_condition : (∀ w ∈ Intent.nestedConditions, '\x7b' ∉ w.toList) ∧
    ∀ k ∈ (Vocabulary.all : List NodeKind), '\x7b' ∉ k.name.toList := by
  simp only [Text.toList_eq_letters]
  decide +kernel

/-- A condition that intents know, however it is written. -/
theorem harmless_of_conditionError {keyword : Intent.Keyword} {condition : String}
    (h : Intent.conditionError keyword (Intent.normalize condition) = none) :
    Harmless condition.toList ∧ '\x7b' ∉ condition.toList := by
  have habsent {word : List Char} (hstays : Text.Stays word)
      (hnested : ∀ w ∈ Intent.nestedConditions, ¬ word <:+: w.toList)
      (hkinds : ∀ k ∈ (Vocabulary.all : List NodeKind), ¬ word <:+: k.name.toList) :
      ¬ word <:+: condition.toList := by
    intro hinfix
    have hthere := Intent.infix_normalize hstays hinfix
    rcases Intent.conditionError_eq_none_iff.mp h with hmem | ⟨-,k,hk⟩
    · exact hnested _ hmem hthere
    · rw [hk] at hthere
      exact hkinds k (Vocabulary.mem_all k) hthere
  constructor
  · intro a ha
    obtain ⟨hstays,-,hnested,hkinds,-⟩ := lastWord_regular a ha
    exact habsent hstays (fun w hw => Text.not_infix_of_occursIn (hnested w hw))
      fun k hk => Text.not_infix_of_occursIn (hkinds k hk)
  · simp only [← List.singleton_infix_iff]
    apply habsent
    · decide
    · simpa only [List.singleton_infix_iff] using brace_of_condition.1
    · simpa only [List.singleton_infix_iff] using brace_of_condition.2

/-! ## Templates with any target -/

/-- What may stand in the place of the target: a target, or the placeholder that is left
if no variable has its name. -/
def targetTexts : List (List Char) :=
  (slot "target").toList :: (Vocabulary.all : List Target).map (·.name.toList)

/-- The template of a phrase is understood in one way, whatever its target is. -/
theorem worded_of_mem : ∀ p ∈ Intent.phrases, ∃ w ∈ Wording.all, w.template = p.template ∧
    ∀ cs ∈ targetTexts, (∀ l ∈ leads, (p.lead ++ cs ++ p.rest).isPrefixOf l.toList = false) ∧
      aspectIn (p.lead ++ cs ++ p.rest) = w.aspect ∧
      (actionIn (p.lead ++ cs ++ p.rest)).or (w.aspect.map fun _ => .modified) = some w.action ∧
      tagIn (p.lead ++ cs ++ p.rest) = w.tag := by
  simp only [Intent.Phrase.lead, Intent.Phrase.rest, targetTexts, actionIn, aspectIn, tagIn,
    Text.toList_eq_letters]
  decide +kernel

end Pattern

def DimensionalRule.said (d : DimensionalRule) : List (List String) :=
  [d.action, d.aspect, d.impact, d.tags]

def Wording.said (w : Wording) : List (List String) :=
  [[w.action.name], (w.aspect.map (·.1.name)).toList, (w.aspect.map (·.2.name)).toList,
    (w.tag.map Tag.name).toList]

/-- Wordings of different templates say different things. -/
theorem Wording.said_eq_iff : ∀ v ∈ all, ∀ w ∈ all, v.said = w.said ↔ v.template = w.template := by
  decide +kernel

namespace Pattern

theorem said_of_expanded {p : Intent.Phrase} (hp : p ∈ Intent.phrases) {cs tail : List Char}
    (hcs : cs ∈ targetTexts)
    (hclear : ∀ a ∈ aspectPhrases, Text.isClear a.1.toList tail = true) {template : String}
    {bindings : List PatternVariable}
    (h : (expand template bindings).toList = p.lead ++ cs ++ p.rest ++ tail)
    (returns : Option String) (description : Value) : ∃ w ∈ Wording.all, w.template = p.template ∧
    (dimensions (meaning template bindings) returns description).said = w.said := by
  obtain ⟨w,hw,htemplate,hworded⟩ := worded_of_mem p hp
  obtain ⟨hleads,haspect,haction,htag⟩ := hworded cs hcs
  obtain ⟨hactions,haspects,himpacts,htags⟩ := said_of_letters h
  rw [actionIn_append hleads, aspectIn_append hclear, haspect, haction] at hactions
  rw [aspectIn_append hclear, haspect] at haspects himpacts
  rw [tagIn_append hleads, htag] at htags
  refine ⟨w,hw,htemplate,?_⟩
  simp only [DimensionalRule.said, Wording.said, dimensions, hactions, haspects, himpacts, htags,
    Option.map_map]
  rfl

end Pattern

namespace Phrasing

/-! ## Restricted templates -/

theorem toList_of_beforeEnding? {s ending base : String} (h : beforeEnding? s ending = some base) :
    ∃ after, (after = [] ∨ after = ['\n']) ∧ s.toList = base.toList ++ ending.toList ++ after := by
  have hcut {cs : List Char}
      (h : (if ending.toList.isSuffixOf cs = true then
          if ((cs.take (cs.length - ending.length)).isEmpty ||
            (cs.take (cs.length - ending.length)).contains '\n') = true then none
          else some (String.ofList (cs.take (cs.length - ending.length)))
        else none) = some base) : cs = base.toList ++ ending.toList := by
    split_ifs at h with hsuffix
    obtain rfl := Option.some.inj h
    obtain ⟨before,rfl⟩ := List.isSuffixOf_iff_suffix.mp hsuffix
    rw [← String.length_toList, List.length_append, Nat.add_sub_cancel, List.take_left,
      String.toList_ofList]
  simp only [beforeEnding?] at h
  split at h
  · next hbase =>
    obtain rfl := Option.some.inj h
    exact ⟨[],Or.inl rfl,by rw [List.append_nil]; exact hcut hbase⟩
  · cases hline : Text.endsWith s "\n" with
    | false => simp [hline] at h
    | true =>
      obtain ⟨before,hs⟩ : ['\n'] <:+ s.toList := List.isSuffixOf_iff_suffix.mp hline
      rw [if_pos hline, ← hs, List.dropLast_concat] at h
      exact ⟨['\n'],Or.inr rfl,by rw [← hs, hcut h]⟩

theorem exists_restriction {r : PatternRule} {c : Restricted} (h : restricted? r = some c) :
    ∃ x ∈ Pattern.restrictions, ∃ stem after, (after = [] ∨ after = ['\n']) ∧
      r.template.toList = stem.toList ++ Pattern.ending x.1 (slot x.2).toList after ∧
      underlying? r stem = some c.base ∧
      ((r.named? x.2).map (·.value)).getD "nested" = c.condition := by
  have hunder (keyword : Intent.Keyword) (hmem : (keyword.name, "condition") ∈ Pattern.restrictions)
      {stem base : String} (hstem : conditional? r keyword = some stem)
      (hbase : underlying? r stem = some base) : ∃ x ∈ Pattern.restrictions, ∃ stem after,
        (after = [] ∨ after = ['\n']) ∧
        r.template.toList = stem.toList ++ Pattern.ending x.1 (slot x.2).toList after ∧
        underlying? r stem = some base ∧ ((r.named? x.2).map (·.value)).getD "nested" =
          ((r.named? "condition").map (·.value)).getD "nested" := by
    obtain ⟨after,hafter,htemplate⟩ := toList_of_beforeEnding? hstem
    refine ⟨_,hmem,stem,after,hafter,?_,hbase,rfl⟩
    simpa [Pattern.ending] using htemplate
  simp only [restricted?] at h
  split at h
  · next stem hstem =>
    obtain ⟨base,hbase,hc⟩ := Option.bind_eq_some_iff.mp h
    obtain rfl := Option.some.inj hc
    exact hunder .when (by decide) hstem hbase
  · next stem _ hstem =>
    obtain ⟨base,hbase,hc⟩ := Option.bind_eq_some_iff.mp h
    obtain rfl := Option.some.inj hc
    exact hunder .unless (by decide) hstem hbase
  · next stem _ _ hstem =>
    obtain ⟨after,hafter,htemplate⟩ := toList_of_beforeEnding? hstem
    obtain ⟨base,hbase,hrest⟩ := Option.bind_eq_some_iff.mp h
    obtain ⟨kind,hkind,hc⟩ := Option.bind_eq_some_iff.mp hrest
    obtain rfl := Option.some.inj hc
    refine ⟨("for","nodeKind"),by decide,stem,after,hafter,?_,hbase,?_⟩
    · simpa [Pattern.ending] using htemplate
    · rw [hkind]
      rfl
  · cases h

def listedBase? (r : PatternRule) : Option String :=
  match (restricted? r).filter fun c => !(phrasesFor c.base).isEmpty with
  | some c => some c.base
  | none => if (phrasesFor r.template).isEmpty then none else some r.template

end Phrasing

structure PatternRule.Plain (r : PatternRule) : Prop where
  named : ∀ v ∈ r.bindings, v.Named
  target : ∀ v, r.named? "target" = some v → Pattern.isTarget v.value = true

namespace Pattern

open Piece

variable {r : PatternRule} {p : Intent.Phrase}

theorem brace_of_target : ∀ t ∈ (Vocabulary.all : List Target), '\x7b' ∉ t.name.toList := by
  simp only [Text.toList_eq_letters]
  decide +kernel

theorem settled_of_named {name : String} {v : PatternVariable} (h : r.named? name = some v) :
    settled r.bindings (hole name) = text v.value.toList := by
  rw [PatternRule.named?] at h
  simp [settled, h]

theorem settled_of_unnamed {name : String} (h : r.named? name = none) :
    settled r.bindings (hole name) = hole name := by
  rw [PatternRule.named?] at h
  simp [settled, h]

theorem settled_target (hr : r.Plain) : (settled r.bindings (hole "target")).chars ∈ targetTexts ∧
    (settled r.bindings (hole "target")).Clean := by
  cases hv : r.named? "target" with
  | none =>
    rw [settled_of_unnamed hv]
    exact ⟨List.mem_cons_self,by unfold Clean; decide⟩
  | some v =>
    obtain ⟨t,ht⟩ := Option.isSome_iff_exists.mp (hr.target v hv)
    have hvalue : v.value = t.name := (Vocabulary.name_of_parse? ht).symm
    rw [settled_of_named hv, hvalue]
    exact ⟨List.mem_cons_of_mem _ (List.mem_map_of_mem (Vocabulary.mem_all t)),
      brace_of_target t (Vocabulary.mem_all t)⟩

/-- What stands in the place of the condition. -/
theorem settled_condition {x : String × String} (hx : x ∈ restrictions) {condition : String}
    (hvalue : ((r.named? x.2).map (·.value)).getD "nested" = condition)
    (hc : Harmless condition.toList ∧ '\x7b' ∉ condition.toList) :
    Harmless (settled r.bindings (hole x.2)).chars ∧ (settled r.bindings (hole x.2)).Clean := by
  cases hv : r.named? x.2 with
  | none =>
    rw [settled_of_unnamed hv]
    exact ⟨harmless_slot hx,clean_of_restriction x hx⟩
  | some v =>
    obtain rfl : v.value = condition := by simpa [hv] using hvalue
    rw [settled_of_named hv]
    exact hc

theorem safe_targetPieces (hp : p ∈ Intent.phrases) (hr : r.Plain) :
    ∀ q ∈ targetPieces p, q.Safe r.bindings := by
  apply safe_of_holes (clean_targetPieces hp)
  intro name hname
  obtain rfl : name = "target" := by simpa [targetPieces] using hname
  exact (settled_target hr).2

theorem safe_endingPieces {x : String × String} (hx : x ∈ restrictions) {after : List Char}
    (hafter : after = [] ∨ after = ['\n']) (hc : (settled r.bindings (hole x.2)).Clean) :
    ∀ q ∈ endingPieces x after, q.Safe r.bindings := by
  have hline : '\x7b' ∉ after := by
    rcases hafter with rfl | rfl
    · decide
    · decide
  apply safe_of_holes (clean_endingPieces hx hline)
  intro name hname
  obtain rfl : name = x.2 := by simpa [endingPieces] using hname
  exact hc

theorem toList_expand_listed (hp : p ∈ Intent.phrases) (hr : r.Plain)
    (ht : r.template = p.template) : (expand r.template r.bindings).toList =
    p.lead ++ (settled r.bindings (hole "target")).chars ++ p.rest := by
  have hrender := (congrArg String.toList ht).trans (render_targetPieces hp).symm
  rw [toList_expand hr.named (safe_targetPieces hp hr) (by simp [targetPieces]) hrender]
  exact render_settled_targetPieces ..

theorem toList_expand_restricted (hp : p ∈ Intent.phrases) (hr : r.Plain) {x : String × String}
    (hx : x ∈ restrictions) {stem : String} {after : List Char}
    (hafter : after = [] ∨ after = ['\n'])
    (ht : r.template.toList = stem.toList ++ ending x.1 (slot x.2).toList after)
    (hstem : Phrasing.underlying? r stem = some p.template)
    (hc : (settled r.bindings (hole x.2)).Clean) : (expand r.template r.bindings).toList =
    p.lead ++ (settled r.bindings (hole "target")).chars ++ p.rest ++
      ending x.1 (settled r.bindings (hole x.2)).chars after := by
  have hsafe : ∀ q ∈ targetPieces p ++ endingPieces x after, q.Safe r.bindings := by
    intro q hq
    rcases List.mem_append.mp hq with hq | hq
    · exact safe_targetPieces hp hr q hq
    · exact safe_endingPieces hx hafter hc q hq
  have hnames : ∀ x ∈ restrictions, x.2 ≠ "pattern" := by decide
  have hpattern : hole "pattern" ∉ targetPieces p ++ endingPieces x after := by
    simp [targetPieces, endingPieces, (hnames x hx).symm]
  have hexpand : (expand r.template r.bindings).toList =
      render ((targetPieces p ++ endingPieces x after).map (settled r.bindings)) := by
    rw [← render_endingPieces] at ht
    rw [Phrasing.underlying?] at hstem
    split_ifs at hstem with hslot
    · obtain ⟨v,hv,hvalue⟩ := Option.map_eq_some_iff.mp hstem
      rw [eq_of_beq hslot] at ht
      have hrender := (congrArg String.toList hvalue).trans (render_targetPieces hp).symm
      exact toList_expand_pattern hr.named hsafe hpattern hv hrender ht
    · obtain rfl := Option.some.inj hstem
      rw [← render_targetPieces hp, ← render_append] at ht
      exact toList_expand hr.named hsafe hpattern ht
  rw [hexpand, List.map_append, render_append, render_settled_targetPieces,
    render_settled_endingPieces]

end Pattern

namespace Phrasing

/-- A pattern whose words come from a listed template and are an intent says what that
template says. -/
theorem said_of_listedBase? {r : PatternRule} {p : Intent.Phrase} (hp : p ∈ Intent.phrases)
    (hr : r.Plain) (hbase : listedBase? r = some p.template) (hread : isReadable r = true)
    (returns : Option String) (description : Value) : ∃ w ∈ Wording.all, w.template = p.template ∧
    (Pattern.dimensions (Pattern.meaning r.template r.bindings) returns description).said =
      w.said := by
  have htarget := (Pattern.settled_target hr).1
  cases hc : (restricted? r).filter fun c => !(phrasesFor c.base).isEmpty with
  | none =>
    simp only [listedBase?, hc] at hbase
    split_ifs at hbase
    have hletters := Pattern.toList_expand_listed hp hr (Option.some.inj hbase)
    rw [← List.append_nil (p.lead ++ _ ++ _)] at hletters
    exact Pattern.said_of_expanded hp htarget (Intent.regular_tail none).2 hletters ..
  | some c =>
    simp only [listedBase?, hc, Option.some.injEq] at hbase
    simp only [isReadable, hc, Option.isNone_iff_eq_none] at hread
    obtain ⟨hrestricted,-⟩ := Option.filter_eq_some_iff.mp hc
    obtain ⟨x,hx,stem,after,hafter,htemplate,hstem,hvalue⟩ := exists_restriction hrestricted
    have hknown := Pattern.harmless_of_conditionError hread
    obtain ⟨hharmless,hclean⟩ := Pattern.settled_condition hx hvalue hknown
    rw [hbase] at hstem
    have hletters := Pattern.toList_expand_restricted hp hr hx hafter htemplate hstem hclean
    exact Pattern.said_of_expanded hp htarget (Pattern.isClear_ending hx hharmless hafter)
      hletters ..

end Phrasing

end ApiRelease
