import ApiRelease.Proofs.Members
import ApiRelease.Proofs.Raising
import ApiRelease.Proofs.Runs
import ApiRelease.Proofs.ShownTexts
import ApiRelease.Rule.Decode
import Mathlib.Logic.Relation

/-! # Documents of rules

A rule that is settled has words, names each variable by a text and gives no release type
that does not exist; its document gives it back. Rules that were read are settled, and so
is whatever they are translated to, also where a translation offers several rules.
-/
namespace ApiRelease

namespace Fields

theorem find?_eq_none {key : Scalar} {fs : Fields} (h : ∀ f ∈ fs, f.1.identity ≠ key.identity) :
    find? key fs = none := by
  induction fs with
  | nil => rfl
  | cons f rest ih =>
    have hf : f.1.isSame key = false := by simpa [Scalar.isSame] using h f List.mem_cons_self
    simp [find?, hf, ih fun g hg => h g (List.mem_cons_of_mem _ hg)]

@[simp] theorem find?_append (key : Scalar) (fs gs : Fields) :
    find? key (fs ++ gs) = (find? key fs).or (find? key gs) := by
  induction fs with
  | nil => rfl
  | cons f rest ih =>
    by_cases hf : f.1.isSame key = true
    · simp [find?, hf]
    · simp [find?, hf, ih]

@[simp] theorem find?_cons_text (key name : String) (v : Value) (rest : Fields) :
    find? key ((.text name,v) :: rest) = if name = key then some v else find? key rest := by
  simp [find?, Scalar.isSame]

/-- A field that is left out reads as nothing, which is what it held. -/
theorem get_dropNull (fs : Fields) (h : fs.Pairwise fun f g => f.1.identity ≠ g.1.identity)
    (key : String) : (dropNull fs).get key = fs.get key := by
  induction h with
  | nil => rfl
  | @cons f rest hf _ ih =>
    obtain ⟨k,v⟩ := f
    by_cases hk : k.isSame key = true
    · cases hv : v.isNull with
      | false => simp [dropNull, hv, get, getD, find?, hk]
      | true =>
        -- the key stands only here, so without this field nothing is found
        have hsame := Scalar.isSame_iff.mp hk
        have hnone : find? key (dropNull rest) = none :=
          find?_eq_none fun g hg => hsame ▸ (hf g (List.mem_of_mem_filter hg)).symm
        have hnull : v = .null := by
          unfold Value.isNull at hv
          split at hv
          · rfl
          · cases hv
        subst hnull
        have hdrop : dropNull ((k,.null) :: rest) = dropNull rest := by simp [dropNull, Value.isNull]
        simp [get, getD, hdrop, hnone, find?, hk]
    · have hrest : get ((k,v) :: rest) key = get rest key := by simp [get, getD, find?, hk]
      rw [hrest, ← ih]
      cases hv : v.isNull <;> simp [dropNull, hv, get, getD, find?, hk]

end Fields

def Releasable (returns : Option String) : Prop := ∀ name ∈ returns, Release.isName name = true

theorem isRelease_iff {returns : Option String} :
    isRelease returns = true ↔ returns.isSome = true ∧ Releasable returns := by
  cases returns <;> simp [isRelease, Releasable]

theorem Value.truthy_text {s : String} : (Value.text s).truthy = true ↔ s ≠ "" := by
  simp [Value.truthy, Scalar.truthy]

namespace VariableRole

/-- A role that was read is not another way to write a known one. -/
theorem ofValue_toValue_ofValue (v : Value) : ofValue (ofValue v).toValue = ofValue v := by
  fun_cases ofValue v with
  | case5 ht hk hc hp => simp [ofValue, toValue, ht, hk, hc, hp]
  | _ => decide

end VariableRole

structure PatternVariable.Settled (v : PatternVariable) : Prop where
  name : ∃ name, v.name = .text name
  role : VariableRole.ofValue v.role.toValue = v.role

namespace Rule

/-- What a rule has to fulfil to be read: a dimensional rule may lack a release type. -/
def Settled : Rule → Prop
  | .intent r => r.expression ≠ "" ∧ isRelease r.returns = true
  | .pattern r => r.template ≠ "" ∧ isRelease r.returns = true ∧ ∀ v ∈ r.bindings, v.Settled
  | .dimensional r => Releasable r.returns

/-! ## Settled rules come back -/

theorem refuse_ne_ok {α : Type} (v : Value) (cause : Fault) (a : α) : refuse v cause ≠ .ok a := by
  unfold refuse
  cases v.shown <;> simp [bind, Except.bind, throw, throwThe, MonadExceptOf.throw]

theorem returnsOf_eq_ok {v : Value} {returns : Option String} :
    returnsOf v = .ok returns ↔ v = .ofOption returns ∧ Releasable returns := by
  constructor
  · intro h
    unfold returnsOf at h
    split at h
    · cases h
      exact ⟨rfl,by simp [Releasable]⟩
    · obtain ⟨-,-,h⟩ := bind_eq_ok.mp h
      split at h
      · split at h
        · next hname =>
          cases h
          exact ⟨rfl,by simpa [Releasable] using hname⟩
        · exact (refuse_ne_ok _ _ _ h).elim
      · exact (refuse_ne_ok _ _ _ h).elim
  · rintro ⟨rfl,h⟩
    cases returns with
    | none => rfl
    | some name =>
      have hname : Release.isName name = true := h name rfl
      exact bind_eq_ok.mpr ⟨(),rfl,if_pos hname⟩

theorem valuesOf_texts (values : List String) : valuesOf (.texts values) = .ok values :=
  Value.mapM_shown_texts values

theorem variableOf_toValue {v : PatternVariable} (h : v.Settled) : variableOf v.toValue = .ok v := by
  obtain ⟨name,value,role⟩ := v
  obtain ⟨⟨name,rfl⟩,hrole⟩ := h
  refine bind_eq_ok.mpr ⟨.text name,rfl,bind_eq_ok.mpr ⟨name,rfl,?_⟩⟩
  exact bind_eq_ok.mpr ⟨.text value,rfl,bind_eq_ok.mpr ⟨value,rfl,
    congrArg (fun role => Except.ok (PatternVariable.mk _ _ role)) hrole⟩⟩

theorem variablesOf_toValue {vs : List PatternVariable} (h : ∀ v ∈ vs, v.Settled) :
    variablesOf (.list (vs.map (·.toValue))) = .ok vs := by
  have hread : (vs.map (·.toValue)).mapM variableOf = .ok vs :=
    mapM_written fun v hv => variableOf_toValue (h v hv)
  cases vs with
  | nil => rfl
  | cons v rest =>
    have hkept : ((v :: rest).map (·.toValue)).filter isTable = (v :: rest).map (·.toValue) :=
      List.filter_eq_self.mpr (by simp [PatternVariable.toValue, isTable])
    exact bind_eq_ok.mpr ⟨_,rfl,(congrArg (List.mapM variableOf) hkept).trans hread⟩

theorem intentOf_eq_ok {fs : Fields} {returns : Option String} {i : IntentRule} :
    intentOf fs returns = .ok i ↔ (fs.get "expression").truthy = true ∧ returns.isSome = true ∧
      ∃ expression, (fs.get "expression").shown = .ok expression ∧
      { expression, returns, description := fs.get "description" } = i := by
  cases he : (fs.get "expression").truthy with
  | false => simp [intentOf, he]
  | true =>
    cases returns with
    | none => simp [intentOf]
    | some name =>
      simp only [intentOf, he, Bool.not_true, Option.isNone_some, Bool.or_self,
        Bool.false_eq_true, if_false, true_and, Option.isSome_some]
      rw [bind_eq_ok]
      simp [pure, Except.pure]

theorem patternOf_eq_ok {fs : Fields} {returns : Option String} {p : PatternRule} :
    patternOf fs returns = .ok p ↔ (fs.get "template").truthy = true ∧ returns.isSome = true ∧
      ∃ bindings template, variablesOf (fs.get "variables") = .ok bindings ∧
      (fs.get "template").shown = .ok template ∧
      { template, bindings, returns, description := fs.get "description" } = p := by
  cases ht : (fs.get "template").truthy with
  | false => simp [patternOf, ht]
  | true =>
    cases returns with
    | none => simp [patternOf]
    | some name =>
      simp only [patternOf, ht, Bool.not_true, Option.isNone_some, Bool.or_self,
        Bool.false_eq_true, if_false, true_and, Option.isSome_some]
      simp only [bind_eq_ok, pure, Except.pure, Except.ok.injEq, exists_and_left]

theorem ofFields_eq_ok {fs : Fields} {r : Rule} : ofFields fs = .ok r ↔
    ∃ returns, returnsOf (fs.get "returns") = .ok returns ∧
      ((typeOf fs = .text "intent" ∧ ∃ i, intentOf fs returns = .ok i ∧ .intent i = r) ∨
       (typeOf fs = .text "pattern" ∧ ∃ p, patternOf fs returns = .ok p ∧ .pattern p = r) ∨
       (typeOf fs = .text "dimensional" ∧
          ∃ d, dimensionalOf fs returns = .ok d ∧ .dimensional d = r)) := by
  unfold ofFields
  simp only [bind_eq_ok]
  refine exists_congr fun returns => and_congr_right fun _ => ?_
  split_ifs with hi hp hd
  · simp [hi, bind_eq_ok, pure, Except.pure]
  · simp [hp, bind_eq_ok, pure, Except.pure]
  · simp [hd, bind_eq_ok, pure, Except.pure]
  · simp [hi, hp, hd, refuse_ne_ok]

theorem typeOf_of_text {fs : Fields} {kind : String} (h : fs.get "type" = .text kind) :
    typeOf fs = .text kind := by
  simp [typeOf, h]

theorem ofValue_toValue_intent {i : IntentRule} (h : (Rule.intent i).Settled) :
    ofValue i.toValue = .ok (.intent i) := by
  obtain ⟨hwords,hrelease⟩ := h
  have hget := Fields.get_dropNull [("type",.text "intent"),("expression",.text i.expression),
    ("returns",.ofOption i.returns),("description",i.description)] (by simp)
  refine ofFields_eq_ok.mpr ⟨i.returns,?_,Or.inl ⟨typeOf_of_text (hget "type"),i,?_,rfl⟩⟩
  · rw [hget]
    exact returnsOf_eq_ok.mpr ⟨rfl,(isRelease_iff.mp hrelease).2⟩
  · rw [intentOf_eq_ok, hget, hget]
    exact ⟨Value.truthy_text.mpr hwords,(isRelease_iff.mp hrelease).1,_,rfl,rfl⟩

theorem ofValue_toValue_pattern {p : PatternRule} (h : (Rule.pattern p).Settled) :
    ofValue p.toValue = .ok (.pattern p) := by
  obtain ⟨hwords,hrelease,hbindings⟩ := h
  have hget := Fields.get_dropNull [("type",.text "pattern"),("template",.text p.template),
    ("variables",.list (p.bindings.map (·.toValue))),("returns",.ofOption p.returns),
    ("description",p.description)] (by simp)
  refine ofFields_eq_ok.mpr ⟨p.returns,?_,
    Or.inr (Or.inl ⟨typeOf_of_text (hget "type"),p,?_,rfl⟩)⟩
  · rw [hget]
    exact returnsOf_eq_ok.mpr ⟨rfl,(isRelease_iff.mp hrelease).2⟩
  · rw [patternOf_eq_ok, hget, hget, hget]
    exact ⟨Value.truthy_text.mpr hwords,(isRelease_iff.mp hrelease).1,p.bindings,p.template,
      variablesOf_toValue hbindings,rfl,rfl⟩

/-! An empty dimension is not written, and reads as empty. -/

@[simp] theorem find?_valuesField (key name : String) (values : List String) :
    Fields.find? key (valuesField name values) =
    if name = key ∧ values ≠ [] then some (.texts values) else none := by
  cases values with
  | nil => simp [valuesField, Fields.find?]
  | cons value rest => simp [valuesField, Fields.find?]

theorem valuesOf_written (values : List String) :
    valuesOf ((if values = [] then none else some (Value.texts values)).getD .null) = .ok values := by
  cases values with
  | nil => rfl
  | cons value rest => exact valuesOf_texts (value :: rest)

@[simp] theorem find?_nestedField (key : String) (nested : Option Bool) :
    Fields.find? key (nestedField nested) = if "nested" = key then nested.map .bool else none := by
  cases nested <;> simp [nestedField, Fields.find?]

theorem ofValue_toValue_dimensional {d : DimensionalRule} (h : (Rule.dimensional d).Settled) :
    ofValue d.toValue = .ok (.dimensional d) := by
  have hlast : (Fields.find? "description" (dropNull [("description",d.description)])).getD .null =
      d.description := Fields.get_dropNull [("description",d.description)] (by simp) "description"
  have hother (key : String) (hk : "description" ≠ key) :
      Fields.find? key (dropNull [("description",d.description)]) = none := by
    refine Fields.find?_eq_none fun f hf => ?_
    obtain rfl := List.mem_singleton.mp (List.mem_of_mem_filter hf)
    simpa using hk
  refine ofFields_eq_ok.mpr ⟨d.returns,?_,Or.inr (Or.inr ⟨typeOf_of_text rfl,d,?_,rfl⟩)⟩
  · rw [returnsOf_eq_ok]
    refine ⟨?_,h⟩
    simp [Fields.get, Fields.getD, DimensionalRule.dimensionFields]
  · -- every field is found under its own key, and the older spellings under none
    obtain ⟨returns,action,target,aspect,impact,nodeKind,tags,notTags,nested,description⟩ := d
    simp only at hlast hother
    cases nested <;>
      simp [dimensionalOf, Fields.get, Fields.getD, DimensionalRule.dimensionFields, hother, hlast,
        valuesOf_written, bind, Except.bind, pure, Except.pure, Value.truthy, Scalar.truthy]

/-- The document of a rule that is settled gives the rule back. -/
theorem ofValue_toValue {r : Rule} (h : r.Settled) : ofValue r.toValue = .ok r := by
  cases r with
  | intent i => exact ofValue_toValue_intent h
  | pattern p => exact ofValue_toValue_pattern h
  | dimensional d => exact ofValue_toValue_dimensional h

/-! ## What is read is settled -/

theorem settled_infer {name : String} (value : String) :
    (PatternVariable.infer (.text name) value).Settled := by
  refine ⟨⟨name,rfl⟩,?_⟩
  unfold PatternVariable.infer
  split_ifs <;> rfl

theorem settled_of_variableOf {v : Value} {w : PatternVariable} (h : variableOf v = .ok w) :
    w.Settled := by
  obtain ⟨_,-,h⟩ := bind_eq_ok.mp h
  obtain ⟨name,-,h⟩ := bind_eq_ok.mp h
  obtain ⟨_,-,h⟩ := bind_eq_ok.mp h
  obtain ⟨value,-,h⟩ := bind_eq_ok.mp h
  cases h
  exact ⟨⟨name,rfl⟩,VariableRole.ofValue_toValue_ofValue _⟩

theorem settled_of_variablesOf {v : Value} {ws : List PatternVariable}
    (hnames : ∀ f ∈ v.fieldsOrNone, ∃ name, f.1 = .text name) (h : variablesOf v = .ok ws) :
    ∀ w ∈ ws, w.Settled := by
  unfold variablesOf at h
  split at h
  · next fs hv =>
    have htable : v = .table fs := by
      unfold Value.orElse at hv
      split_ifs at hv
      exact hv
    subst htable
    intro w hw
    obtain ⟨f,hf,hinfer⟩ := exists_left_of_forall₂ (mapM_eq_ok_iff.mp h) hw
    obtain ⟨value,-,hinfer⟩ := bind_eq_ok.mp hinfer
    obtain ⟨name,hname⟩ := hnames f hf
    cases hinfer
    rw [hname]
    exact settled_infer value
  · -- a list, where names are made texts
    obtain ⟨items,-,h⟩ := bind_eq_ok.mp h
    intro w hw
    obtain ⟨item,-,hitem⟩ := exists_left_of_forall₂ (mapM_eq_ok_iff.mp h) hw
    exact settled_of_variableOf hitem

theorem returns_of_dimensionalOf {fs : Fields} {returns : Option String} {d : DimensionalRule}
    (h : dimensionalOf fs returns = .ok d) : d.returns = returns := by
  obtain ⟨action,-,h⟩ := bind_eq_ok.mp h
  obtain ⟨target,-,h⟩ := bind_eq_ok.mp h
  obtain ⟨aspect,-,h⟩ := bind_eq_ok.mp h
  obtain ⟨impact,-,h⟩ := bind_eq_ok.mp h
  obtain ⟨nodeKind,-,h⟩ := bind_eq_ok.mp h
  obtain ⟨tags,-,h⟩ := bind_eq_ok.mp h
  obtain ⟨notTags,-,h⟩ := bind_eq_ok.mp h
  cases h
  rfl

theorem settled_of_ofFields {fs : Fields} {r : Rule}
    (hnames : ∀ f ∈ (fs.get "variables").fieldsOrNone, ∃ name, f.1 = .text name)
    (h : ofFields fs = .ok r) : r.Settled := by
  obtain ⟨returns,hreturns,h⟩ := ofFields_eq_ok.mp h
  have hknown := (returnsOf_eq_ok.mp hreturns).2
  rcases h with ⟨-,i,hi,rfl⟩ | ⟨-,p,hp,rfl⟩ | ⟨-,d,hd,rfl⟩
  · obtain ⟨hwords,hsome,expression,hshown,rfl⟩ := intentOf_eq_ok.mp hi
    exact ⟨Value.ne_empty_of_shown hwords hshown,isRelease_iff.mpr ⟨hsome,hknown⟩⟩
  · obtain ⟨hwords,hsome,bindings,template,hbindings,hshown,rfl⟩ := patternOf_eq_ok.mp hp
    exact ⟨Value.ne_empty_of_shown hwords hshown,isRelease_iff.mpr ⟨hsome,hknown⟩,
      settled_of_variablesOf hnames hbindings⟩
  · rw [← returns_of_dimensionalOf hd] at hknown
    exact hknown

/-! ## Translations -/

/-- One rule is what a translation makes of another, or offers for it. -/
inductive Gives : Rule → Rule → Prop
  | read {i : IntentRule} {p : PatternRule} (h : (Intent.read i).pattern = some p) :
      Gives (.intent i) (.pattern p)
  | compiled {p : PatternRule} {d : DimensionalRule} (h : (Pattern.compile p).dimensional = some d) :
      Gives (.pattern p) (.dimensional d)
  | decompiled {d : DimensionalRule} {x : Catalogue.Decompiled} {p : PatternRule}
      (h : Catalogue.decompile? d = some x) (hp : p ∈ x.pattern :: x.alternatives) :
      Gives (.dimensional d) (.pattern p)
  | phrased {p : PatternRule} {x : Phrasing.Phrased} {i : IntentRule}
      (h : Phrasing.intent? p = some x) (hi : i ∈ x.intent :: x.alternatives) :
      Gives (.pattern p) (.intent i)

end Rule

theorem PatternVariable.settled_text {name value : String} {role : VariableRole}
    (h : VariableRole.ofValue role.toValue = role) :
    (PatternVariable.mk (.text name) value role).Settled := ⟨⟨name,rfl⟩,h⟩

namespace Intent

theorem settled_conditioned {q : Phrase} (hq : q ∈ phrases) (c : Option (Keyword × String)) :
    (conditioned q c).1 ≠ "" ∧ ∀ v ∈ (conditioned q c).2, v.Settled := by
  have htemplates : ∀ q ∈ phrases, q.template ≠ "" := by decide
  have htarget : (PatternVariable.mk "target" q.target.name .target).Settled :=
    PatternVariable.settled_text rfl
  unfold conditioned
  split
  · simpa using ⟨htemplates q hq,htarget⟩
  · next keyword condition =>
    split_ifs
    · simpa using ⟨htarget,PatternVariable.settled_text rfl⟩
    · simpa using ⟨htarget,PatternVariable.settled_text rfl⟩

theorem settled_of_read {i : IntentRule} {p : PatternRule} (h : (read i).pattern = some p) :
    (Rule.pattern p).Settled := by
  have hsome := isSome_read_iff i
  rw [h, Option.isSome_some] at hsome
  obtain ⟨hrelease,hvalid⟩ := Bool.and_eq_true_iff.mp hsome.symm
  obtain ⟨q,c,hsaid⟩ := isValid_iff.mp hvalid
  have hread : read ⟨i.expression,i.returns,i.description⟩ =
      ⟨some (pattern q c i.returns i.description),[],[]⟩ := read_of_said hsaid hrelease
  rw [hread] at h
  cases h
  obtain ⟨hwords,hbindings⟩ := settled_conditioned hsaid.mem (c.map (·.condition))
  exact ⟨hwords,hrelease,hbindings⟩

end Intent

namespace Catalogue

variable {d : DimensionalRule}

theorem settled_variablesFor (template : String) : ∀ v ∈ variablesFor d template, v.Settled :=
  forall_variablesFor (PatternVariable.settled_text rfl)
    (fun _ => PatternVariable.settled_text rfl) (PatternVariable.settled_text rfl)

theorem settled_patternFor {template : String} (hr : isRelease d.returns = true)
    (ht : Text.contains template (slot "target") = true) (description : String) :
    (Rule.pattern (patternFor d template description)).Settled := by
  refine ⟨?_,hr,settled_variablesFor template⟩
  rintro rfl
  exact absurd ht (by decide)

theorem settled_of_decompile? {x : Decompiled} {p : PatternRule} (h : decompile? d = some x)
    (hp : p ∈ x.pattern :: x.alternatives) : (Rule.pattern p).Settled := by
  have hr := isRelease_of_decompile? h
  rcases offered_of_decompile? h p hp with rfl | ⟨s,hs,rfl⟩
  · obtain ⟨description,hpattern,htarget⟩ := fallback_patternFor d
    rw [hpattern]
    exact settled_patternFor hr htarget description
  · exact settled_patternFor hr (target_of_mem _ (entry_of_mem_ranking hs)) _

end Catalogue

namespace Phrasing

variable {p : PatternRule} {x : Phrased} {i : IntentRule}

theorem expression_ne_empty {template : String} {y : Phrase} (h : y ∈ phrasesFor template) :
    y.expression ≠ "" := by
  have htexts : ∀ q ∈ Intent.phrases, q.text ≠ "" := by decide
  obtain ⟨q,hq,htext⟩ := exists_phrase h
  exact htext ▸ htexts q hq

theorem words_of_restrictedIntent? (h : restrictedIntent? p = some x)
    (hi : i ∈ x.intent :: x.alternatives) : ∃ words, words ≠ "" ∧ i = intentWith p words := by
  obtain ⟨c,-,h⟩ := Option.bind_eq_some_iff.mp h
  obtain ⟨best,-,h⟩ := Option.bind_eq_some_iff.mp h
  cases h
  obtain rfl := List.mem_singleton.mp hi
  exact ⟨_,by simp,rfl⟩

theorem words_of_plainIntent? (h : plainIntent? p = some x)
    (hi : i ∈ x.intent :: x.alternatives) : ∃ words, words ≠ "" ∧ i = intentWith p words := by
  unfold plainIntent? at h
  split at h
  · simp only at h
    split at h
    · cases h
    · next hwords =>
      cases h
      obtain rfl := List.mem_singleton.mp hi
      exact ⟨_,by simpa using hwords,rfl⟩
  · split at h
    · cases h
    · next best rest hfit =>
      cases h
      have hlisted : ∀ y ∈ best :: rest, y.expression ≠ "" := fun y hy =>
        expression_ne_empty (mem_of_mem_fitting (hfit ▸ hy))
      rcases List.mem_cons.mp hi with rfl | hi
      · exact ⟨_,hlisted best List.mem_cons_self,rfl⟩
      · obtain ⟨words,hwords,rfl⟩ := List.mem_map.mp hi
        have hmem := List.mem_eraseDups.mp (List.mem_of_mem_filter (List.mem_of_mem_take hwords))
        obtain ⟨y,hy,rfl⟩ := List.mem_map.mp hmem
        exact ⟨_,hlisted y (List.mem_cons_of_mem best hy),rfl⟩

theorem words_of_intent? (h : intent? p = some x)
    (hi : i ∈ x.intent :: x.alternatives) : ∃ words, words ≠ "" ∧ i = intentWith p words := by
  unfold intent? at h
  split at h
  · next y hy =>
    cases h
    exact words_of_restrictedIntent? hy hi
  · exact words_of_plainIntent? h hi

theorem settled_of_intent? (hr : isRelease p.returns = true) (h : intent? p = some x)
    (hi : i ∈ x.intent :: x.alternatives) : (Rule.intent i).Settled := by
  obtain ⟨words,hwords,rfl⟩ := words_of_intent? h hi
  exact ⟨hwords,hr⟩

end Phrasing

namespace Rule

theorem Gives.settled {r s : Rule} (h : r.Gives s) (hr : r.Settled) : s.Settled := by
  cases h with
  | read h => exact Intent.settled_of_read h
  | @compiled p d h =>
    by_cases he : Pattern.errorsOf p (Pattern.meaning p.template p.bindings) = []
    · rw [Pattern.compile_of_errors_nil he] at h
      cases h
      exact (isRelease_iff.mp hr.2.1).2
    · rw [Pattern.dimensional_of_errors he] at h
      cases h
  | decompiled h hp => exact Catalogue.settled_of_decompile? h hp
  | phrased h hi => exact Phrasing.settled_of_intent? hr.2.1 h hi

/-- A rule that was read comes back from its own document, and so does every rule that
translations make of it, one after the other. In JSON all names are texts, so nothing
more is asked of the document than that it is read. -/
theorem translated_rules_come_back {fs : Fields} {r s : Rule}
    (hnames : ∀ f ∈ (fs.get "variables").fieldsOrNone, ∃ name, f.1 = .text name)
    (h : ofValue (.table fs) = .ok r) (hs : Relation.ReflTransGen Gives r s) :
    ofValue s.toValue = .ok s := by
  have hsettled : s.Settled := by
    induction hs with
    | refl => exact settled_of_ofFields hnames h
    | tail _ hstep ih => exact hstep.settled ih
  exact ofValue_toValue hsettled

/-! A pattern whose type is told by its fields and whose variables stand in a table is put
into words, read again and compiled. -/

def insideDocument : Fields :=
  [("returns",.text "major"),("template",.text removedInside),("description",.int 7),
   ("variables",.table [("target",.text "property"),("condition",.text "nested")])]

def inside : PatternRule where
  template := removedInside
  bindings := [⟨"target","property",.target⟩,⟨"condition","nested",.condition⟩]
  returns := some "major"
  description := .int 7

def insideIntent : IntentRule where
  expression := "member removal is breaking when nested"
  returns := some "major"
  description := .int 7

def insideDimensions : DimensionalRule :=
  { DimensionalRule.anything (some "major") (.int 7) with
    action := ["removed"], target := ["property"], nested := some true }

theorem intent?_inside : ∃ x, Phrasing.intent? inside = some x ∧ x.intent = insideIntent := by
  obtain ⟨rest,hfit⟩ : ∃ rest, Phrasing.fitting "removed \x7btarget\x7d" inside.bindings =
      ⟨"member removal is breaking",100,some .property⟩ :: rest :=
    ⟨_,List.mergeSort_of_pairwise (by decide)⟩
  rw [Phrasing.intent?,
    Phrasing.restrictedIntent?_of_fitting (Phrasing.restricted?_removedInside rfl rfl) hfit]
  exact ⟨_,rfl,rfl⟩

theorem inside_gives : Relation.ReflTransGen Gives (.pattern inside) (.dimensional insideDimensions) := by
  obtain ⟨x,hx,hintent⟩ := intent?_inside
  have hphrased : Gives (.pattern inside) (.intent insideIntent) :=
    .phrased hx (hintent ▸ List.mem_cons_self)
  have hread : Gives (.intent insideIntent) (.pattern inside) := .read (by rfl)
  have hcompiled : Gives (.pattern inside) (.dimensional insideDimensions) := .compiled (by rfl)
  exact ((Relation.ReflTransGen.single hphrased).tail hread).tail hcompiled

theorem translated_rules_come_back_inside :
    ofValue (.table insideDocument) = .ok (.pattern inside) ∧
    Relation.ReflTransGen Gives (.pattern inside) (.dimensional insideDimensions) ∧
    ofValue insideDimensions.toValue = .ok (.dimensional insideDimensions) := by
  have hnames : ∀ f ∈ (insideDocument.get "variables").fieldsOrNone, ∃ name, f.1 = .text name := by
    have hfields : (insideDocument.get "variables").fieldsOrNone =
        [(.text "target",.text "property"),(.text "condition",.text "nested")] := rfl
    simp [hfields]
  have hread : ofValue (.table insideDocument) = .ok (.pattern inside) := rfl
  exact ⟨hread,inside_gives,translated_rules_come_back hnames hread inside_gives⟩

end Rule

end ApiRelease
