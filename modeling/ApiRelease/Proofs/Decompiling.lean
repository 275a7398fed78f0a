import ApiRelease.Proofs.Raising
import ApiRelease.Proofs.Readings

/-! # Patterns found for dimensional rules

A pattern that is found for a rule has the template of an entry of the catalogue that says
nothing the rule does not list, be it that the rule satisfies the entry or that only its
action is taken. Its variables name the first target and the first kind of declaration that
the rule lists. So each pattern that is offered compiles, and what it compiles to never
contradicts the rule.
-/
namespace ApiRelease

namespace DimensionalRule

structure Known (d : DimensionalRule) : Prop where
  action : ∀ a ∈ d.action, ∃ action : Action, a = action.name
  target : ∀ t ∈ d.target, ∃ target : Target, t = target.name
  nodeKind : ∀ k ∈ d.nodeKind, ∃ kind : NodeKind, k = kind.name

/-- The rule restricts no dimension to values that the other does not list, unless the
other leaves that dimension open. -/
structure StaysWithin (c d : DimensionalRule) : Prop where
  returns : c.returns = d.returns
  action : d.action = [] ∨ c.action ⊆ d.action
  aspect : d.aspect = [] ∨ c.aspect ⊆ d.aspect
  impact : d.impact = [] ∨ c.impact ⊆ d.impact
  target : d.target = [] ∨ c.target ⊆ d.target
  nodeKind : d.nodeKind = [] ∨ c.nodeKind ⊆ d.nodeKind
  nested : ∀ b, c.nested = some b → d.nested = some b

variable {d : DimensionalRule}

theorem Known.exists_first (hk : d.Known) :
    ∃ t : Target, d.target.headD Target.exportItem.name = t.name := by
  cases htargets : d.target with
  | nil => exact ⟨.exportItem,rfl⟩
  | cons first rest => exact hk.target first (htargets ▸ List.mem_cons_self)

theorem Known.firstKnown (hk : d.Known) : d.FirstKnown := by
  obtain ⟨t,ht⟩ := hk.exists_first
  refine ⟨ht ▸ Pattern.isTarget_name t,fun k hfirst => ?_⟩
  obtain ⟨kind,rfl⟩ := hk.nodeKind k (List.mem_of_mem_head? hfirst)
  exact Intent.isNodeKind_name kind

end DimensionalRule

namespace Catalogue

open Pattern (Piece)

namespace Entry

def lead (e : Entry) : List Char := e.template.toList.takeWhile (· != '\x7b')

def rest (e : Entry) : List Char :=
  ((e.template.toList.dropWhile (· != '\x7d')).drop 1).takeWhile (· != '\x7b')

def pieces (e : Entry) (target condition : Piece) : List Piece :=
  [.text e.lead,target,.text e.rest] ++ if e.nested then [condition] else []

def letters (e : Entry) (t : Target) : List Char :=
  Piece.render (e.pieces (.text t.name.toList) (.text "nested".toList))

structure Fits (e : Entry) (d : DimensionalRule) : Prop where
  action : d.action = [] ∨ e.action.name ∈ d.action
  aspect : ∀ a, e.aspect = some a → a.name ∈ d.aspect
  impact : ∀ i, e.impact = some i ∨ e.expectedImpact = some i → d.impact = [] ∨ i.name ∈ d.impact
  nested : e.nested = true → d.nested = some true

end Entry

/-- The templates of the catalogue are made up of these pieces and restricted by a condition
only where that is said. -/
theorem template_of_mem : ∀ e ∈ entries,
    e.template.toList = Piece.render (e.pieces (.hole "target") (.hole "condition")) ∧
    Pattern.keyword? e.template = (if e.nested then some .when else none) ∧
    (e.nested = true → Text.contains e.template ("when " ++ slot "condition") = true) := by
  simp only [Entry.pieces, Entry.lead, Entry.rest, Pattern.keyword?, Text.contains,
    Text.toList_eq_letters]
  decide +kernel

/-- Whatever the target is, a filled-in template says the action of its entry, and no aspect
or impact but those of the entry. -/
theorem said_of_mem : ∀ e ∈ entries, ∀ t ∈ (Vocabulary.all : List Target),
    (Pattern.actionIn (e.letters t)).or ((Pattern.aspectIn (e.letters t)).map fun _ => .modified) =
      some e.action ∧
    ∀ s ∈ Pattern.aspectIn (e.letters t),
      e.aspect = some s.1 ∧ (e.impact = some s.2 ∨ e.expectedImpact = some s.2) := by
  simp only [Entry.letters, Entry.pieces, Entry.lead, Entry.rest, Pattern.actionIn, Pattern.aspectIn,
    Text.toList_eq_letters]
  decide +kernel

/-- Every action has an entry that says nothing else. -/
theorem exists_plain : ∀ a ∈ (Vocabulary.all : List Action), ∃ e ∈ entries,
    e.template = a.name ++ " " ++ slot "target" ∧ e.action = a ∧ e.aspect = none ∧
    e.impact = none ∧ e.expectedImpact = none ∧ e.nested = false := by
  decide +kernel

variable {d : DimensionalRule} {e : Entry} {t : Target}

/-! ## Which entries are offered -/

theorem fits_of_satisfiedBy (h : e.satisfiedBy d = true) : e.Fits d := by
  have hlists {values : List String} {wanted : Option String} (h : lists values wanted = true) :
      ∀ w, wanted = some w → w ∈ values := by
    rintro w rfl
    exact List.contains_iff_mem.mp h
  simp only [Entry.satisfiedBy, Bool.and_eq_true, Bool.or_eq_true, Bool.not_eq_true',
    List.contains_iff_mem, beq_iff_eq, List.isEmpty_iff] at h
  obtain ⟨⟨⟨⟨⟨haction,haspect⟩,himpact⟩,-⟩,hnested⟩,hexpected⟩ := h
  refine ⟨Or.inr haction,fun a ha => hlists haspect _ (by simp [ha]),?_,fun hin => ?_⟩
  · rintro i (hi | hi)
    · exact Or.inr (hlists himpact _ (by simp [hi]))
    · exact hexpected.imp_right fun hexpected => hlists hexpected _ (by simp [hi])
  · exact hnested.resolve_left (by simp [hin])

theorem fits_fallback (hk : d.Known) : ∃ e ∈ entries, e.Fits d ∧
    ∃ description, (fallback d).pattern = patternFor d e.template description := by
  have hplain (a : Action) (ha : d.action = [] ∨ a.name ∈ d.action) : ∃ e ∈ entries, e.Fits d ∧
      e.template = a.name ++ " " ++ slot "target" := by
    obtain ⟨e,he,htemplate,rfl,haspect,himpact,hexpected,hnested⟩ :=
      exists_plain a (Vocabulary.mem_all a)
    refine ⟨e,he,⟨ha,?_,?_,?_⟩,htemplate⟩
    · simp [haspect]
    · simp [himpact, hexpected]
    · simp [hnested]
  unfold fallback
  -- an action alone is told by the same template as by its plain entry
  cases hactions : d.action with
  | nil =>
    obtain ⟨e,he,hfits,htemplate⟩ := hplain .modified (Or.inl hactions)
    exact ⟨e,he,hfits,_,by rw [htemplate]⟩
  | cons first rest =>
    have hfirst : first ∈ d.action := hactions ▸ List.mem_cons_self
    obtain ⟨a,rfl⟩ := hk.action first hfirst
    obtain ⟨e,he,hfits,htemplate⟩ := hplain a (Or.inr hfirst)
    have hfound : actionTemplate a.name = e.template := by
      have hparse : (Vocabulary.parse? a.name : Option Action) = some a := Vocabulary.parse?_name a
      rw [actionTemplate, hparse, htemplate]
    exact ⟨e,he,hfits,"Generic " ++ a.name ++ " pattern",by rw [← hfound]⟩

/-- All that is offered has the template of an entry that fits. -/
theorem fits_of_decompile? (hk : d.Known) {x : Decompiled} (h : decompile? d = some x)
    {p : PatternRule} (hp : p ∈ x.pattern :: x.alternatives) : ∃ e ∈ entries, e.Fits d ∧
    ∃ description, p = patternFor d e.template description := by
  rcases offered_of_decompile? h p hp with rfl | ⟨s,hs,rfl⟩
  · exact fits_fallback hk
  · obtain ⟨hmem,hsatisfied⟩ := satisfied_of_mem_ranking hs
    exact ⟨s.1,hmem,fits_of_satisfiedBy hsatisfied,_,rfl⟩

/-! ## What their templates compile to -/

theorem named_variablesFor (template : String) : ∀ v ∈ variablesFor d template, v.Named := by
  have hnames : ∀ name ∈ ["target","nodeKind","condition"],
      '\x7b' ∉ name.toList ∧ '\x7d' ∉ name.toList := by decide
  exact forall_variablesFor ⟨rfl,hnames "target" (by simp)⟩
    (fun _ => ⟨rfl,hnames "nodeKind" (by simp)⟩) ⟨rfl,hnames "condition" (by simp)⟩

theorem settled_target (he : e ∈ entries) (ht : d.target.headD Target.exportItem.name = t.name) :
    Piece.settled (variablesFor d e.template) (.hole "target") = .text t.name.toList := by
  have hfound : (variablesFor d e.template).find? (fun v => v.name == .text "target") =
      some ⟨"target",d.target.headD Target.exportItem.name,.target⟩ := by
    rw [variablesFor, if_pos (target_of_mem e he)]
    rfl
  simp only [Piece.settled, hfound, ht]

theorem settled_condition (he : e ∈ entries) (hin : e.nested = true) (hd : d.nested = some true) :
    Piece.settled (variablesFor d e.template) (.hole "condition") = .text "nested".toList := by
  have hcondition := (template_of_mem e he).2.2 hin
  have hfound : (variablesFor d e.template).find? (fun v => v.name == .text "condition") =
      some ⟨"condition","nested",.condition⟩ := by
    rw [variablesFor, if_pos (target_of_mem e he), hcondition, hd]
    cases d.nodeKind with
    | nil => rfl
    | cons kind rest => rfl
  simp only [Piece.settled, hfound]

theorem settled_pieces (he : e ∈ entries) (hnested : e.nested = true → d.nested = some true)
    (ht : d.target.headD Target.exportItem.name = t.name) :
    (e.pieces (.hole "target") (.hole "condition")).map (Piece.settled (variablesFor d e.template)) =
    e.pieces (.text t.name.toList) (.text "nested".toList) := by
  have htext (cs : List Char) :
      Piece.settled (variablesFor d e.template) (.text cs) = .text cs := rfl
  unfold Entry.pieces
  split_ifs with hin
  · have hcondition := settled_condition he hin (hnested hin)
    simp only [List.map_append, List.map_cons, List.map_nil, htext, settled_target he ht, hcondition]
  · simp only [List.map_append, List.map_cons, List.map_nil, htext, settled_target he ht]

theorem clean_pieces {target condition : Piece} (ht : target.Clean) (hc : condition.Clean) :
    ∀ q ∈ e.pieces target condition, q.Clean := by
  have hlead : Piece.Clean (.text e.lead) := fun h => by simpa using List.mem_takeWhile_imp h
  have hrest : Piece.Clean (.text e.rest) := fun h => by simpa using List.mem_takeWhile_imp h
  unfold Entry.pieces
  split_ifs
  · simpa using ⟨hlead,ht,hrest,hc⟩
  · simpa using ⟨hlead,ht,hrest⟩

theorem toList_expand_variablesFor (he : e ∈ entries)
    (hnested : e.nested = true → d.nested = some true)
    (ht : d.target.headD Target.exportItem.name = t.name) :
    (Pattern.expand e.template (variablesFor d e.template)).toList = e.letters t := by
  have hholes : Piece.Clean (.hole "target") ∧ Piece.Clean (.hole "condition") := by
    unfold Piece.Clean
    decide
  have hput : Piece.Clean (.text t.name.toList) := Pattern.brace_of_target t (Vocabulary.mem_all t)
  have hinside : Piece.Clean (.text "nested".toList) := by
    unfold Piece.Clean
    decide
  have hmap := settled_pieces he hnested ht
  have hsafe : ∀ q ∈ e.pieces (.hole "target") (.hole "condition"),
      q.Safe (variablesFor d e.template) := by
    intro q hq
    have hsettled : Piece.settled (variablesFor d e.template) q ∈
        e.pieces (.text t.name.toList) (.text "nested".toList) := hmap ▸ List.mem_map_of_mem hq
    exact ⟨clean_pieces hholes.1 hholes.2 q hq,clean_pieces hput hinside _ hsettled⟩
  have hpattern : Piece.hole "pattern" ∉ e.pieces (.hole "target") (.hole "condition") := by
    unfold Entry.pieces
    split_ifs
    · simp
    · simp
  rw [Piece.toList_expand (named_variablesFor e.template) hsafe hpattern (template_of_mem e he).1,
    hmap, Entry.letters]

theorem staysWithin_meaning (hk : d.Known) (he : e ∈ entries) (hfits : e.Fits d)
    (description : Value) :
    (Pattern.dimensions (Pattern.meaning e.template (variablesFor d e.template)) d.returns
      description).StaysWithin d := by
  obtain ⟨t,ht⟩ := hk.exists_first
  have hletters := toList_expand_variablesFor he hfits.nested ht
  obtain ⟨haction,haspect,himpact,-⟩ := Pattern.said_of_letters hletters
  obtain ⟨hsaid,hbounds⟩ := said_of_mem e he t (Vocabulary.mem_all t)
  have htarget : (Pattern.meaning e.template (variablesFor d e.template)).target = some t.name :=
    (valueOf?_target (target_of_mem e he)).trans (congrArg some ht)
  constructor
  case returns => simp only [Pattern.dimensions]
  case action =>
    refine hfits.action.imp_right fun hmem => ?_
    simpa [Pattern.dimensions, haction, hsaid] using hmem
  case aspect =>
    refine Or.inr fun a ha => ?_
    obtain ⟨s,hs,rfl⟩ : ∃ s ∈ Pattern.aspectIn (e.letters t), s.1.name = a := by
      simpa [Pattern.dimensions, haspect] using ha
    exact hfits.aspect s.1 (hbounds s hs).1
  case impact =>
    refine or_iff_not_imp_left.mpr fun hne i hi => ?_
    obtain ⟨s,hs,rfl⟩ : ∃ s ∈ Pattern.aspectIn (e.letters t), s.2.name = i := by
      simpa [Pattern.dimensions, himpact] using hi
    exact (hfits.impact s.2 (hbounds s hs).2).resolve_left hne
  case target =>
    refine or_iff_not_imp_left.mpr fun hne => ?_
    have hname := Pattern.nonEmpty_of_isTarget (Pattern.isTarget_name t)
    obtain ⟨first,rest,htargets⟩ := List.exists_cons_of_ne_nil hne
    rw [htargets, List.headD_cons] at ht
    simp [Pattern.dimensions, htarget, hname, htargets, ht]
  case nodeKind =>
    refine Or.inr fun k hmem => ?_
    have hfirst : Pattern.nonEmpty d.nodeKind.head? = some k := by
      simpa [Pattern.dimensions, nodeKind_variablesFor] using hmem
    exact List.mem_of_mem_head? (Option.filter_eq_some_iff.mp hfirst).1
  case nested =>
    intro b hb
    simp only [Pattern.dimensions, nested_variablesFor, (template_of_mem e he).2.1] at hb
    split_ifs at hb with hin
    · obtain rfl := Option.some.inj hb
      exact hfits.nested hin
    · cases hb

/-- A pattern with the template of an entry that fits compiles to what the rule lists. -/
theorem compile_patternFor (hr : isRelease d.returns = true) (hk : d.Known) (he : e ∈ entries)
    (hfits : e.Fits d) (description : String) :
    (Pattern.compile (patternFor d e.template description)).errors = [] ∧
    ∃ c, (Pattern.compile (patternFor d e.template description)).dimensional = some c ∧
      c.StaysWithin d := by
  have haccepts : Policy.Accepts (.pattern (patternFor d e.template description)) :=
    (accepts_patternFor_iff hr (target_of_mem e he)).mpr hk.firstKnown
  rw [Pattern.compile_of_errors_nil (Policy.accepts_pattern_iff.mp haccepts)]
  exact ⟨rfl,_,rfl,staysWithin_meaning hk he hfits _⟩

/-- A rule with a release type has a pattern, and neither it nor any other that is offered
contradicts the rule. -/
theorem decompile?_staysWithin (hr : isRelease d.returns = true) (hk : d.Known) :
    ∃ x, decompile? d = some x ∧ ∀ p ∈ x.pattern :: x.alternatives,
      (Pattern.compile p).errors = [] ∧
      ∃ c, (Pattern.compile p).dimensional = some c ∧ c.StaysWithin d := by
  obtain ⟨template,description,hmap,-⟩ := exists_patternFor hr
  obtain ⟨x,hx,-⟩ := Option.map_eq_some_iff.mp hmap
  refine ⟨x,hx,fun p hp => ?_⟩
  obtain ⟨e,he,hfits,description,rfl⟩ := fits_of_decompile? hk hx hp
  exact compile_patternFor hr hk he hfits description

def lostMembers : DimensionalRule where
  returns := some "major"
  action := ["renamed", "removed"]
  target := ["method", "property"]
  aspect := []
  impact := ["narrowing"]
  nodeKind := ["class", "interface"]
  tags := []
  notTags := []
  nested := some true
  description := .null

theorem decompile?_of_lostMembers : lostMembers.Known ∧
    ∃ x, decompile? lostMembers = some x ∧ ∀ p ∈ x.pattern :: x.alternatives,
      (Pattern.compile p).errors = [] ∧
      ∃ c, (Pattern.compile p).dimensional = some c ∧ c.StaysWithin lostMembers := by
  have hpair {P : String → Prop} {s t : String} (hs : P s) (ht : P t) : ∀ u ∈ [s,t], P u :=
    List.forall_mem_cons.mpr ⟨hs,List.forall_mem_singleton.mpr ht⟩
  have hknown : lostMembers.Known := {
    action := hpair ⟨.renamed,rfl⟩ ⟨.removed,rfl⟩
    target := hpair ⟨.method,rfl⟩ ⟨.property,rfl⟩
    nodeKind := hpair ⟨.classDecl,rfl⟩ ⟨.interface,rfl⟩ }
  exact ⟨hknown,decompile?_staysWithin (by decide) hknown⟩

end Catalogue

end ApiRelease
