import ApiRelease.Policy.Config
import ApiRelease.Proofs.MalformedEntries

/-! # What becomes of a table of rules

The table of a rule gives an entry of the policy or is passed over. A table that cannot be
read as a rule at its level never ends the loading; a number that is too long to be put
into words does. A matcher has values for a dimension exactly if the table gives some:
a text does, and so do the entries of a list, whatever they are, if they are shown as more
than blanks. A value of another shape is given up without a word.
-/
namespace ApiRelease

def Scalar.IsSequence (s : Scalar) : Prop := (∃ t, s = .text t) ∨ ∃ bytes, s = .binary bytes

namespace Value

def table? : Value → Option Fields
  | .table fs => some fs
  | _ => none

def tables (vs : List Value) : List Fields := vs.filterMap table?

/-- Only lists and pairs have tables among what is gone through. -/
theorem tables_eq_nil {α : Type} {f : α → Scalar} (as : List α) :
    tables (as.map fun a => .scalar (f a)) = [] := by
  rw [tables, List.filterMap_map]
  exact List.filterMap_eq_nil_iff.mpr fun a _ => rfl

theorem items_ends (v : Value) :
    Ends (fun f => ∃ s, v = .scalar s ∧ ¬ s.IsSequence ∧ f = .notIterable s.typeName)
      (fun vs => tables vs = tables v.entries) v.items := by
  unfold items
  split
  · exact .ok rfl
  · exact .ok rfl
  · exact .ok (tables_eq_nil _)
  · exact .ok (tables_eq_nil _)
  · exact .ok (tables_eq_nil _)
  · exact .ok (tables_eq_nil _)
  · next htable htext hbinary =>
    cases v with
    | scalar s =>
      refine .error ⟨s,rfl,?_,rfl⟩
      rintro (⟨t,rfl⟩ | ⟨bytes,rfl⟩)
      · exact htext t rfl
      · exact hbinary bytes rfl
    | _ => simp_all

theorem items_recovers (v : Value) : Recovers v.items := by
  cases h : v.items with
  | ok vs => exact .ok trivial
  | error f =>
    obtain ⟨s,-,-,rfl⟩ := v.items_ends.of_eq_error h
    exact .error rfl

theorem hashable_recovers : ∀ v : Value, Recovers v.hashable
  | .pair a b => (hashable_recovers a).bind fun _ _ => hashable_recovers b
  | .list _ => .error rfl
  | .table _ => .error rfl
  | .scalar _ => .ok trivial
  | .set _ => .ok trivial

end Value

namespace Rule

/-! ## Rules of a document -/

theorem valuesOf_recovers (v : Value) : Recovers (valuesOf v) := by
  unfold valuesOf
  split
  · exact .ok trivial
  · exact .ok trivial
  · exact v.items_recovers.bind fun vs _ => Value.mapM_shown_recovers vs

theorem refuse_recovers {α : Type} (v : Value) {cause : Fault} (h : cause.isOfEntry = true) :
    Recovers (refuse v cause : Except Fault α) := v.shown_recovers.bind fun _ _ => .error h

theorem returnsOf_recovers (v : Value) : Recovers (returnsOf v) := by
  unfold returnsOf
  split
  · exact .ok trivial
  · refine v.hashable_recovers.bind fun _ _ => ?_
    split
    · split
      · exact .ok trivial
      · exact refuse_recovers _ rfl
    · exact refuse_recovers _ rfl

theorem variableOf_recovers (v : Value) : Recovers (variableOf v) := by
  refine (v.index_recovers "name").bind fun name _ => name.shown_recovers.bind fun _ _ => ?_
  exact (v.index_recovers "value").bind fun value _ => value.shown_recovers.bind fun _ _ => .ok trivial

theorem variablesOf_recovers (v : Value) : Recovers (variablesOf v) := by
  unfold variablesOf
  split
  · exact .mapM fun f _ => f.2.shown_recovers.bind fun _ _ => .ok trivial
  · exact (Value.items_recovers _).bind fun vs _ => Recovers.mapM fun v _ => variableOf_recovers v

theorem intentOf_recovers (fs : Fields) (returns : Option String) : Recovers (intentOf fs returns) := by
  unfold intentOf
  dsimp only
  split
  · exact .error rfl
  · exact (Value.shown_recovers _).bind fun _ _ => .ok trivial

theorem patternOf_recovers (fs : Fields) (returns : Option String) :
    Recovers (patternOf fs returns) := by
  unfold patternOf
  dsimp only
  split
  · exact .error rfl
  · refine (variablesOf_recovers _).bind fun _ _ => ?_
    exact (Value.shown_recovers _).bind fun _ _ => .ok trivial

theorem dimensionalOf_recovers (fs : Fields) (returns : Option String) :
    Recovers (dimensionalOf fs returns) := by
  unfold dimensionalOf
  refine (valuesOf_recovers _).bind fun _ _ => ?_
  refine (valuesOf_recovers _).bind fun _ _ => ?_
  refine (valuesOf_recovers _).bind fun _ _ => ?_
  refine (valuesOf_recovers _).bind fun _ _ => ?_
  refine (valuesOf_recovers _).bind fun _ _ => ?_
  refine (valuesOf_recovers _).bind fun _ _ => ?_
  exact (valuesOf_recovers _).bind fun _ _ => .ok trivial

/-- Whatever keeps a rule from being read is a cause that loaders recover from. -/
theorem ofFields_recovers (fs : Fields) : Recovers (ofFields fs) := by
  unfold ofFields
  dsimp only
  refine (returnsOf_recovers _).bind fun returns _ => ?_
  split
  · exact (intentOf_recovers fs returns).bind fun _ _ => .ok trivial
  split
  · exact (patternOf_recovers fs returns).bind fun _ _ => .ok trivial
  split
  · exact (dimensionalOf_recovers fs returns).bind fun _ _ => .ok trivial
  · exact refuse_recovers _ rfl

end Rule

def Value.givenTexts : Value → List String
  | .text s => [s]
  | .list vs => vs.map toText
  | _ => []

def Value.GivesValues (v : Value) : Prop := ∃ given ∈ v.givenTexts, Text.trim given ≠ ""

/-- Conditions are read if each dimension is. -/
theorem Conditions.ofReader_ends {failure : Fault → Prop} {R : Dimension → List String → Prop}
    {read : Dimension → Except Fault (List String)} (h : ∀ d, Ends failure (R d) (read d))
    (nested : Option Bool) :
    Ends failure (fun c => (∀ d, R d (c.values d)) ∧ c.nested = nested) (ofReader read nested) := by
  unfold ofReader
  refine (h .action).bind fun _ haction => ?_
  refine (h .target).bind fun _ htarget => ?_
  refine (h .aspect).bind fun _ haspect => ?_
  refine (h .impact).bind fun _ himpact => ?_
  refine (h .nodeKind).bind fun _ hnodeKind => ?_
  refine (h .tags).bind fun _ htags => ?_
  refine (h .notTags).bind fun _ hnotTags => ?_
  refine (h .anyTags).bind fun _ hanyTags => .ok ⟨fun d => ?_,rfl⟩
  cases d <;> assumption

namespace PolicyConfig

/-! ## Matchers -/

def listed : Value → List Value
  | .list vs => vs
  | _ => []

def worded (ts : Fields) : List Value :=
  ts.get "returns" :: ts.get "name" :: Dimension.all.flatMap fun d => listed (ts.get d.key)

def Unworded (ts : Fields) (f : Fault) : Prop :=
  f = .numberTooLong ∧ ∃ v ∈ worded ts, v.hasText = false

def fieldText (ts : Fields) (key : String) : String := Text.trim (ts.getD key (.text "")).toText

theorem mem_trimmed {texts : List String} {s : String} :
    s ∈ valueList.trimmed texts ↔ s ≠ "" ∧ ∃ given ∈ texts, s = Text.trim given := by
  simp only [valueList.trimmed, List.mem_filter, List.mem_map, Bool.not_eq_true',
    String.isEmpty_eq_false_iff]
  rw [and_comm]
  simp only [eq_comm]

theorem valueList_ends (v : Value) :
    Ends (fun f => f = .numberTooLong ∧ ∃ w ∈ listed v, w.hasText = false)
      (fun values => ∀ s, s ∈ values ↔ s ≠ "" ∧ ∃ given ∈ v.givenTexts, s = Text.trim given)
      (valueList v) := by
  unfold valueList
  split
  · exact .ok fun s => mem_trimmed
  · next vs =>
    have htexts := Ends.mapM fun w (hw : w ∈ vs) => w.shown_ends.mono fun f hf =>
      (⟨hf.1,w,hw,hf.2⟩ : f = .numberTooLong ∧ ∃ w ∈ listed (.list vs), w.hasText = false)
    refine htexts.bind fun texts htexts => .ok fun s => ?_
    have hshown : texts.map id = vs.map Value.toText := map_eq_of_forall₂ htexts
    rw [List.map_id] at hshown
    rw [mem_trimmed, hshown]
    rfl
  · next htext hlist =>
    have hnone : v.givenTexts = [] := by
      unfold Value.givenTexts
      split
      · next s => exact absurd rfl (htext s)
      · next vs => exact absurd rfl (hlist vs)
      · rfl
    exact .ok fun s => by simp [hnone]

theorem nestedOnly_eq_some {v : Value} {b : Bool} : nestedOnly v = some b ↔ v = .bool b := by
  unfold nestedOnly
  split
  · simp
  · next hbool =>
    simp only [reduceCtorEq, false_iff]
    exact hbool b

theorem trimmedField_ends (fs : Fields) (key : String) :
    Ends (fun f => f = .numberTooLong ∧ (fs.get key).hasText = false)
      (fun s => s = fieldText fs key) (trimmedField fs key) := by
  refine ((fs.getD key (.text "")).shown_ends.mono ?_).bind fun text htext => .ok ?_
  · exact fun f hf => hf.imp_right Fields.hasText_get
  · rw [htext, fieldText]

theorem matcherOf_ends (ts : Fields) (name returns : String) :
    Ends (Unworded ts) (fun m => m.name = .text name ∧ m.returns = returns ∧
        (∀ d s, s ∈ m.values d ↔
          s ≠ "" ∧ ∃ given ∈ (ts.get d.key).givenTexts, s = Text.trim given) ∧
        ∀ b, m.nested = some b ↔ ts.get "nested" = .bool b) (matcherOf ts name returns) := by
  refine (Conditions.ofReader_ends (fun d => (valueList_ends (ts.get d.key)).mono ?_) _).bind
    fun conditions hconditions => .ok ⟨rfl,rfl,hconditions.1,fun b => ?_⟩
  · rintro f ⟨hf,v,hv,h⟩
    have hd : d ∈ Dimension.all := by cases d <;> decide
    refine ⟨hf,v,?_,h⟩
    simp only [worded, List.mem_cons, List.mem_flatMap]
    exact Or.inr (Or.inr ⟨d,hd,hv⟩)
  · change conditions.nested = some b ↔ _
    rw [hconditions.2]
    exact nestedOnly_eq_some

/-! ## Entries -/

/-- The table has no word of the rule languages, a release type and a name, and the
matcher has just the values that are given, trimmed and without blank ones, and the place
that is given as a truth value. -/
structure KeptAs (ts : Fields) (m : Matcher) : Prop where
  plain : isLevelled ts = false
  name : m.name = .text (fieldText ts "name")
  named : fieldText ts "name" ≠ ""
  returns : m.returns = fieldText ts "returns"
  released : Release.isName m.returns = true
  values : ∀ d s, s ∈ m.values d ↔
    s ≠ "" ∧ ∃ given ∈ (ts.get d.key).givenTexts, s = Text.trim given
  nested : ∀ b, m.nested = some b ↔ ts.get "nested" = .bool b

/-- What becomes of a table: nothing for want of a release type, of a rule that can be
read or of a name; a rule at its level; or a matcher. -/
inductive Becomes (ts : Fields) : Option PolicyEntry → Prop
  | unreleased (h : Release.isName (fieldText ts "returns") = false) : Becomes ts none
  | unread {f : Fault} (hlevel : isLevelled ts = true) (h : Rule.ofFields ts = .error f) :
      Becomes ts none
  | nameless (hlevel : isLevelled ts = false) (h : fieldText ts "name" = "") : Becomes ts none
  | levelled {r : Rule} (hlevel : isLevelled ts = true)
      (hreturns : Release.isName (fieldText ts "returns") = true) (h : Rule.ofFields ts = .ok r) :
      Becomes ts (some (.rule r))
  | kept {m : Matcher} (h : KeptAs ts m) : Becomes ts (some (.matcher m))

theorem KeptAs.values_ne_nil {ts : Fields} {m : Matcher} (h : KeptAs ts m) (d : Dimension) :
    m.values d ≠ [] ↔ (ts.get d.key).GivesValues := by
  constructor
  · intro hne
    obtain ⟨s,hs⟩ := List.exists_mem_of_ne_nil _ hne
    obtain ⟨hs,given,hgiven,rfl⟩ := (h.values d s).mp hs
    exact ⟨given,hgiven,hs⟩
  · rintro ⟨given,hgiven,hs⟩
    exact List.ne_nil_of_mem ((h.values d _).mpr ⟨hs,given,hgiven,rfl⟩)

theorem entryOf_ends (source : String) (number : Nat) (ts : Fields) :
    Ends (Unworded ts) (Becomes ts) (entryOf source number ts).result := by
  have hfield (key : String) (hkey : ts.get key ∈ worded ts) :=
    (trimmedField_ends ts key).mono fun f hf => (⟨hf.1,_,hkey,hf.2⟩ : Unworded ts f)
  unfold entryOf
  rw [Traced.result_bind]
  refine (hfield "returns" (by simp [worded])).bind fun returns hreturns => ?_
  subst hreturns
  split
  · next hname => exact .ok (.unreleased (by simpa using hname))
  next hname =>
  have hreleased : Release.isName (fieldText ts "returns") = true := by simpa using hname
  split
  · next hlevel =>
    -- what keeps a rule from being read is noted and goes no further
    cases hr : Rule.ofFields ts with
    | ok r => exact .ok (.levelled hlevel hreleased hr)
    | error f =>
      have hf : f.isOfEntry = true := (Rule.ofFields_recovers ts).of_eq_error hr
      simp only [hf, if_true]
      exact .ok (.unread hlevel hr)
  · next hlevel =>
    have hplain : isLevelled ts = false := by simpa using hlevel
    rw [Traced.result_bind]
    refine (hfield "name" (by simp [worded])).bind fun name hname => ?_
    subst hname
    split
    · next hempty => exact .ok (.nameless hplain (by simpa using hempty))
    · next hempty =>
      rw [Traced.result_bind]
      refine (matcherOf_ends ..).bind fun m hm => .ok (.kept ?_)
      exact {
        plain := hplain
        name := hm.1
        named := by simpa using hempty
        returns := hm.2.1
        released := hm.2.1 ▸ hreleased
        values := hm.2.2.1
        nested := hm.2.2.2 }

/-- The entries of a list come from its tables, one after the other. -/
theorem entriesFrom_ends (source : String) (number : Nat) (vs : List Value) :
    Ends (fun f => ∃ ts ∈ Value.tables vs, Unworded ts f)
      (fun es => ∃ outcomes, List.Forall₂ Becomes (Value.tables vs) outcomes ∧
        es = outcomes.reduceOption) (entriesFrom source number vs).result := by
  -- the number only labels what is noted
  induction vs generalizing number with
  | nil => exact .ok ⟨[],.nil,rfl⟩
  | cons v rest ih =>
    cases v with
    | table ts =>
      unfold entriesFrom
      rw [Traced.result_bind]
      refine ((entryOf_ends source number ts).mono ?_).bind fun e he => ?_
      · exact fun f hf => ⟨ts,List.mem_cons_self,hf⟩
      rw [Traced.result_bind]
      refine ((ih (number + 1)).mono ?_).bind ?_
      · rintro f ⟨us,hus,hf⟩
        exact ⟨us,List.mem_cons_of_mem ts hus,hf⟩
      · rintro later ⟨outcomes,hbecomes,rfl⟩
        refine .ok ⟨e :: outcomes,.cons he hbecomes,?_⟩
        cases e <;> rfl
    | _ => exact ih (number + 1)

end PolicyConfig

end ApiRelease
