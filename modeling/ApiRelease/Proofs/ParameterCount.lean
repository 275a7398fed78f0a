import ApiRelease.Proofs.Removal
import ApiRelease.Proofs.Silence

/-! # Calls that no longer fit

A call breaks if a parameter is taken away or one comes that has to be passed. Where
signatures are compared, each such parameter is told as a change of its own, and for
those who read and write it is major. Only a finding about type parameters comes
before the signatures then. It is as severe, unless it is that a default changed.
-/
namespace ApiRelease

def Signature.BreaksCalls (old new : Signature) : Prop :=
  new.parameters.length < old.parameters.length ∨
  ∃ p ∈ new.parameters.drop old.parameters.length, p.isRequired = true

instance (old new : Signature) : Decidable (old.BreaksCalls new) :=
  inferInstanceAs (Decidable (new.parameters.length < old.parameters.length ∨
    ∃ p ∈ new.parameters.drop old.parameters.length, p.isRequired = true))

inductive SignatureDifference.BreaksCalls : SignatureDifference → Prop
  | removed (path : String) (p : Parameter) : BreaksCalls (Signature.removedParameter path p)
  | added (path : String) {p : Parameter} (h : p.isRequired = true) :
      BreaksCalls (Signature.addedParameter path p)

namespace Signature

variable {compareTypes : TypeOracle} {path : String}

theorem BreaksCalls.length_ne {old new : Signature} (h : old.BreaksCalls new) :
    old.parameters.length ≠ new.parameters.length := by
  rcases h with h | ⟨p,hp,-⟩
  · omega
  · have hlength := List.length_pos_of_mem hp
    rw [List.length_drop] at hlength
    omega

/-- Parameters that only one side has are told one by one. -/
theorem mem_compareParameters {olds news : List Parameter} {ds : List SignatureDifference}
    (h : compareParameters path compareTypes olds news = .ok ds) :
    (∀ p ∈ olds.drop news.length, removedParameter path p ∈ ds) ∧
    ∀ p ∈ news.drop olds.length, addedParameter path p ∈ ds := by
  -- both lists are gone through in step, so that what is left is what one side has more
  induction olds generalizing news ds with
  | nil =>
    cases news with
    | nil => simp
    | cons new news =>
      obtain rfl := Except.ok.inj h
      simpa using fun p hp => Or.inr ⟨p,hp,rfl⟩
  | cons old olds ih =>
    cases news with
    | nil =>
      obtain rfl := Except.ok.inj h
      simpa using fun p hp => Or.inr ⟨p,hp,rfl⟩
    | cons new news =>
      obtain ⟨here,-,h⟩ := bind_eq_ok.mp h
      obtain ⟨rest,hrest,h⟩ := bind_eq_ok.mp h
      obtain rfl := Except.ok.inj h
      obtain ⟨hremoved,hadded⟩ := ih hrest
      simp only [List.length_cons, List.drop_succ_cons]
      exact ⟨fun p hp => List.mem_append_right _ (hremoved p hp),
        fun p hp => List.mem_append_right _ (hadded p hp)⟩

theorem BreaksCalls.exists_of_compare {old new : Signature} (hb : old.BreaksCalls new)
    {ds : List SignatureDifference} (h : compare path old new compareTypes = .ok ds) :
    ∃ d ∈ ds, d.BreaksCalls := by
  obtain ⟨parameters,hp,h⟩ := bind_eq_ok.mp h
  obtain ⟨result,-,h⟩ := bind_eq_ok.mp h
  obtain rfl := Except.ok.inj h
  obtain ⟨hremoved,hadded⟩ := mem_compareParameters hp
  rcases hb with hshorter | ⟨p,hmem,hrequired⟩
  · have hne : old.parameters.drop new.parameters.length ≠ [] := by
      simpa using hshorter
    obtain ⟨p,hmem⟩ := List.exists_mem_of_ne_nil _ hne
    exact ⟨_,List.mem_append_left _ (hremoved p hmem),.removed path p⟩
  · exact ⟨_,List.mem_append_left _ (hadded p hmem),.added path hrequired⟩

end Signature

namespace Classification

variable {compareTypes : TypeOracle} {old new : Facts} {options : DiffOptions} {s t : Signature}

theorem detectedReordering_of_length_ne (hs : primarySignature old = some s)
    (ht : primarySignature new = some t) (h : s.parameters.length ≠ t.parameters.length)
    (options : DiffOptions) : detectedReordering old new options = none := by
  unfold detectedReordering
  split
  · simp only [reordering?, hs, ht, Option.bind_eq_bind, Option.bind_some, ite_eq_right_iff]
    intro hreordered
    exact absurd (Reorder.evidence_of_hasReordering hreordered).1 h
  · rfl

theorem signatureChanges_ofSignatures {target : Target} {oldText newText : String}
    {ds : List SignatureDifference} {c : Classification}
    (h : ofSignatures old target oldText newText ds = .ok c) : c.signatureChanges = ds := by
  cases ds with
  | nil =>
    obtain rfl := Except.ok.inj h
    rfl
  | cons first rest =>
    obtain ⟨descriptor,-,h⟩ := bind_eq_ok.mp h
    obtain rfl := Except.ok.inj h
    rfl

/-- Unless an earlier check finds something, signatures that are written differently are
compared, and what breaks calls is among the differences. -/
theorem exists_of_breaksCalls (ha : TypeOracle.Answers (fun _ => False) compareTypes)
    (hbefore : beforeType old new options = none) (hr : (old.isResolved && new.isResolved) = true)
    (hne : old.signature ≠ new.signature) (hs : primarySignature old = some s)
    (ht : primarySignature new = some t) (hb : s.BreaksCalls t) :
    ∃ c, ofPair old new options compareTypes = .ok c ∧ ∃ d ∈ c.signatureChanges, d.BreaksCalls := by
  obtain ⟨ds,hds,hjudged⟩ := (Signature.compare_ends ha old.path s t).exists_ok
  obtain ⟨d,hd,hbreaks⟩ := hb.exists_of_compare hds
  have hends : Ends (fun _ => False) Describable (ofSignatures old old.kind.target old.signature
      new.signature ds) := ofSignatures_ends hjudged _ _ _ _
  obtain ⟨c,hc,-⟩ := hends.exists_ok
  have htype : ofType old new old.kind.target compareTypes = .ok (some c) := by
    simp only [ofType, hr, Bool.not_true, Bool.false_eq_true, if_false, beq_iff_eq, hne, hs, ht]
    exact bind_eq_ok.mpr ⟨ds,hds,bind_eq_ok.mpr ⟨c,hc,rfl⟩⟩
  have hchanged : c.isEquivalent = false := by
    apply Bool.eq_false_iff.mpr
    intro hequivalent
    obtain rfl := isEquivalent_ofSignatures hjudged hc hequivalent
    simp at hd
  refine ⟨c,?_,d,?_,hbreaks⟩
  · simp only [ofPair, hbefore]
    exact bind_eq_ok.mpr ⟨some c,htype,by simp only [hchanged]; rfl⟩
  · rwa [signatureChanges_ofSignatures hc]

end Classification

theorem SignatureDifference.BreaksCalls.release {d : SignatureDifference} (hd : d.BreaksCalls)
    {o n : Declaration} {place : Diff.Place} {c : Change}
    (h : Diff.signatureChange o n place d = .ok c) (inside : Bool) :
    (Policy.shared.compile.classify (c.listed inside)).release = .text Release.major.name := by
  obtain ⟨descriptor,hdescriptor,h⟩ := bind_eq_ok.mp h
  obtain rfl := Except.ok.inj h
  cases hd with
  | removed path p =>
    obtain rfl := Except.ok.inj hdescriptor
    exact Policy.release_of_removed_member (Or.inl rfl) (by rw [Change.listed_effect]; rfl)
      (by rw [Change.listed_context]; rfl)
  | added path hp =>
    obtain rfl := Except.ok.inj hdescriptor
    refine Policy.release_of_required_parameter (by rw [Change.listed_effect]; rfl)
      (by rw [Change.listed_target]; rfl) ?_
    rw [Change.has_listed inside _ (by decide)]
    simp [Descriptor.plain, Signature.addedTags, Signature.addedParameter, hp]

namespace TypeParameterChange

variable {t : TypeParameterChange}

theorem describe_of_ne_default (ht : ∀ name x y, t ≠ .defaultChanged name x y) (path : String) :
    (t.describe path).1.target = .typeParameter ∧
    (t.describe path).1.tags = .ofList [.affectsTypeParameter] ∧
    ((t.describe path).1.effect = .removed ∨ (t.describe path).1.effect = .added ∨
      ∃ impact, (t.describe path).1.effect = .modified .constraint impact) := by
  cases t with
  | removed name => exact ⟨rfl,rfl,Or.inl rfl⟩
  | added name => exact ⟨rfl,rfl,Or.inr (Or.inl rfl)⟩
  | constraintChanged name x y =>
    simp only [describe]
    split_ifs <;> exact ⟨rfl,rfl,Or.inr (Or.inr ⟨_,rfl⟩)⟩
  | defaultChanged name x y => exact absurd rfl (ht name x y)

/-- A change of a type parameter other than to its default is major, whatever changed
inside. -/
theorem release (ht : ∀ name x y, t ≠ .defaultChanged name x y) (o n : Declaration)
    (path text : String) (nested : List Change) (inside : Bool) :
    (Policy.shared.compile.classify ((Diff.modifiedWith .top o n
      (.plain (t.describe path).1 text) nested).listed inside)).release =
    .text Release.major.name := by
  obtain ⟨htarget,htags,heffect⟩ := describe_of_ne_default ht path
  apply Policy.release_of_type_parameter
  · rw [Change.listed_target]
    simpa [Diff.modifiedWith, Classification.plain] using htarget
  · rw [Change.listed_context]
    rfl
  · rw [Change.has_listed inside _ (by decide)]
    simp [Diff.modifiedWith, Classification.plain, Diff.has_tagNested, htags]
  · rw [Change.listed_effect]
    simpa [Diff.modifiedWith, Classification.plain] using heffect

end TypeParameterChange

namespace Diff

variable {options : DiffOptions} {compareTypes : TypeOracle} {descend : Descent} {place : Place}
  {o n : Declaration}

theorem modifiedChange_of_typeParameter
    (hreorder : Classification.detectedReordering o.toFacts n.toFacts options = none)
    {first : TypeParameterChange} {rest : List TypeParameterChange}
    (hdetect : TypeParameterChange.detect o.toFacts n.toFacts = first :: rest)
    {inside : List Change} (hi : (descend o n place.depth place.ancestors).result = .ok inside) :
    (modifiedChange options compareTypes descend place o n).result =
    .ok (some (modifiedWith place o n
      (.plain (first.describe o.path).1 (first.describe o.path).2) inside)) := by
  refine (modifiedChange_of_ok (Classification.ofPair_of_typeParameter hreorder hdetect)).mpr
    ⟨[],inside,signatureChanges_of_nil rfl ..,hi,?_⟩
  simp [Classification.isEquivalent, Classification.plain, Classification.describe_effect]

/-- What a difference of signatures becomes is nested in what is reported of the pair. -/
theorem within_of_signatureChanges (hi : options.includeNested = true) {olds news : Members}
    {cs inside : List Change} {k : Classification} {d : SignatureDifference}
    (h : (level options compareTypes descend place olds news).result = .ok cs)
    (hp : (o,n) ∈ (matchMembers olds news).matched)
    (hk : Classification.ofPair o.toFacts n.toFacts options compareTypes = .ok k)
    (hdescribable : k.Describable) (hd : d ∈ k.signatureChanges)
    (hinside : (descend o n place.depth place.ancestors).result = .ok inside) :
    ∃ c, signatureChange o n place d = .ok c ∧ Change.Within c cs := by
  obtain ⟨fromSignature,hs⟩ := signatureChanges_ok hdescribable options o n place
  have hall : k.signatureChanges.mapM (signatureChange o n place) = .ok fromSignature := by
    simpa [signatureChanges, hi] using hs
  obtain ⟨c,hc,hdc⟩ := exists_right_of_forall₂ (mapM_eq_ok_iff.mp hall) hd
  have hmem : c ∈ fromSignature ++ inside := List.mem_append_left _ hc
  have hm := modifiedChange_of_nested hk hs hinside (List.ne_nil_of_mem hmem)
  exact ⟨c,hdc,.inside (mem_of_modifiedChange h hp hm) (.here hmem)⟩

end Diff

namespace Analysis

/-- An export whose calls break makes the release major, whatever else changed, unless
the first change of a type parameter is one of a default. -/
theorem release_of_breaking_call {old new : Module} {path : String} {o n : Declaration}
    (ho : Members.find? (.text path) old.exports = some o)
    (hn : Members.find? (.text path) new.exports = some n) (hk : o.kind = .function)
    (hor : o.isResolved = true) (hnr : n.isResolved = true) (hne : o.signature ≠ n.signature)
    {s t : Signature} (hs : primarySignature o.toFacts = some s)
    (ht : primarySignature n.toFacts = some t) (hb : s.BreaksCalls t)
    (hfirst : ∀ name x y, (TypeParameterChange.detect o.toFacts n.toFacts).head? ≠
      some (.defaultChanged name x y)) :
    ∃ a, (ofModules old new .shared .standard TypeText.heuristic).result = .ok a ∧
      a.release = Release.major.name := by
  have ha := Diff.typeComparer_answers (TypeText.heuristic_answers fun _ => False) .standard
  have hreorder := Classification.detectedReordering_of_length_ne hs ht hb.length_ne .standard
  have hpair := Diff.mem_matched_of_find? ho hn
  obtain ⟨cs,hcs⟩ := Diff.modules_ok (TypeText.heuristic_answers _) old new .standard
  obtain ⟨inside,hinside⟩ := Diff.membersWithin_ok (Diff.files_of_answers ha)
    DiffOptions.standard.maxDepth.toNat o n 0 []
  have hlevel := Diff.modules_eq_ok.mp hcs
  refine ⟨_,ofModules_eq_ok.mpr ⟨cs,hcs,rfl⟩,?_⟩
  cases hdetect : TypeParameterChange.detect o.toFacts n.toFacts with
  | cons first rest =>
    -- the signatures are not looked at, and what is said instead is as severe
    have hmem := Diff.mem_of_modifiedChange hlevel hpair
      (Diff.modifiedChange_of_typeParameter hreorder hdetect hinside)
    apply release_ofChanges (.here hmem)
    apply TypeParameterChange.release
    intro name x y heq
    exact hfirst name x y (by rw [hdetect, heq]; rfl)
  | nil =>
    have hbefore : Classification.beforeType o.toFacts n.toFacts .standard = none :=
      Classification.beforeType_eq_none_iff.mpr ⟨hreorder,hdetect,by simp [hk]⟩
    obtain ⟨k,hc,d,hd,hbreaks⟩ := Classification.exists_of_breaksCalls ha hbefore
      (by simp [hor, hnr]) hne hs ht hb
    have hdescribable := (Classification.ofPair_ends ha _ _ _).of_eq_ok hc
    obtain ⟨c,hsignature,hwithin⟩ := Diff.within_of_signatureChanges rfl hlevel hpair hc
      hdescribable hd hinside
    exact release_ofChanges hwithin (hbreaks.release hsignature)

def load (text default : String) (parameters : List Parameter) : Declaration :=
  { Declaration.bare .function "load" "load" [] with
    typeInfo := some ⟨text,text,[],[],[⟨parameters,"Data",[],text⟩],[],[],
      [⟨"T",none,some default⟩],none,none⟩ }

def loadUrl (default : String) : Declaration :=
  load "<T>(url: T) => Data" default [⟨"url","T",false,false,none⟩]

def loadUrlWithin (default : String) : Declaration :=
  load "<T>(url: T, timeout: number) => Data" default
    [⟨"url","T",false,false,none⟩,⟨"timeout","number",false,false,none⟩]

theorem release_of_required_timeout : ∃ a,
    (ofModules (.ofExports [loadUrl "string"] "<memory>" "" [])
      (.ofExports [loadUrlWithin "string"] "<memory>" "" []) .shared .standard
      TypeText.heuristic).result = .ok a ∧ a.release = Release.major.name := by
  have ho : Members.find? (.text "load")
      (Module.ofExports [loadUrl "string"] "<memory>" "" []).exports = some (loadUrl "string") := rfl
  have hn : Members.find? (.text "load")
      (Module.ofExports [loadUrlWithin "string"] "<memory>" "" []).exports =
      some (loadUrlWithin "string") := rfl
  have hkept : TypeParameterChange.detect (loadUrl "string").toFacts
      (loadUrlWithin "string").toFacts = [] := by decide
  exact release_of_breaking_call ho hn rfl (by decide) (by decide) (by decide) rfl rfl (by decide)
    (by simp [hkept])

/-- A parameter that was taken away is not told if the default of a type parameter changed
with it, and the release is minor. -/
theorem release_of_changed_default :
    (loadUrlWithin "string").path = (loadUrl "number").path ∧
    (loadUrlWithin "string").kind = .function ∧ (loadUrl "number").kind = .function ∧
    (loadUrlWithin "string").isResolved = true ∧ (loadUrl "number").isResolved = true ∧
    (loadUrlWithin "string").signature ≠ (loadUrl "number").signature ∧
    (∃ s t, primarySignature (loadUrlWithin "string").toFacts = some s ∧
      primarySignature (loadUrl "number").toFacts = some t ∧
      t.parameters.length < s.parameters.length) ∧
    ∃ a, (ofModules (.ofExports [loadUrlWithin "string"] "<memory>" "" [])
      (.ofExports [loadUrl "number"] "<memory>" "" []) .shared .standard
      TypeText.heuristic).result = .ok a ∧ a.release = Release.minor.name := by
  have hpath : (loadUrlWithin "string").path = (loadUrl "number").path := rfl
  refine ⟨hpath,rfl,rfl,by decide,by decide,by decide,⟨_,_,rfl,rfl,by decide⟩,?_⟩
  have hreorder := Classification.detectedReordering_of_length_ne
    (show primarySignature (loadUrlWithin "string").toFacts = some _ from rfl)
    (show primarySignature (loadUrl "number").toFacts = some _ from rfl) (by decide) .standard
  have hdetect : TypeParameterChange.detect (loadUrlWithin "string").toFacts
      (loadUrl "number").toFacts = [.defaultChanged "T" (some "string") (some "number")] := by decide
  refine ⟨_,ofModules_eq_ok.mpr ⟨_,Diff.modules_of_pair hpath
    (Diff.modifiedChange_of_typeParameter hreorder hdetect rfl) ..,rfl⟩,?_⟩
  refine (ofChanges_of_release (List.cons_ne_nil _ _) ?_ (by decide) ?_).1
  · simp only [List.forall_mem_singleton]
    rfl
  · simpa using Policy.release_of_default_type rfl

end Analysis

end ApiRelease
