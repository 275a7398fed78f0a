import ApiRelease.Diff.Signature
import ApiRelease.Diff.TypeParameters
import Mathlib.Logic.Basic

/-! # The signature whose type parameters are compared

Parameters are those of the primary signature: of a class the first by which it is made, of
everything else the first by which it is called, and the other one where there is no choice.
Type parameters that a declaration does not have itself are those of the first signature by
which it is called, of a class too. So they are those of the primary signature, unless a class
can be called as well as made. How it is made then has no say.
-/
namespace ApiRelease

def primaryTypeParameters (f : Facts) : List TypeParameter :=
  ((primarySignature f).map (·.typeParameters)).getD []

def Facts.IsMade (f : Facts) : Prop := f.kind = .classDecl ∨ f.kind = .constructSignature

instance (f : Facts) : Decidable f.IsMade := inferInstanceAs (Decidable (_ ∨ _))

namespace TypeInfo

/-- The first signature by which to call, or to make where there is none. -/
def firstCalled? (t : TypeInfo) : Option Signature :=
  t.callSignatures.head?.or t.constructSignatures.head?

def firstMade? (t : TypeInfo) : Option Signature :=
  t.constructSignatures.head?.or t.callSignatures.head?

/-- There are both ways, and their first signatures have different type parameters. -/
def Diverges (t : TypeInfo) : Prop :=
  ∃ called ∈ t.callSignatures.head?, ∃ made ∈ t.constructSignatures.head?,
    called.typeParameters ≠ made.typeParameters

end TypeInfo

theorem head?_ite_isEmpty {α : Type} (xs ys : List α) :
    (if xs.isEmpty then ys else xs).head? = xs.head?.or ys.head? := by
  cases xs <;> simp

variable {f : Facts} {t : TypeInfo}

theorem primarySignature_eq (ht : f.typeInfo = some t) :
    primarySignature f = if f.IsMade then t.firstMade? else t.firstCalled? := by
  simp only [primarySignature, ht, Option.bind_some, head?_ite_isEmpty, Facts.IsMade,
    TypeInfo.firstMade?, TypeInfo.firstCalled?]
  rfl

/-- The kind has no say in this: how a class is called comes first too. -/
theorem typeParametersOf_eq (ht : f.typeInfo = some t) (hown : t.typeParameters = []) :
    typeParametersOf f = (t.firstCalled?.map (·.typeParameters)).getD [] := by
  simp only [typeParametersOf, ht, hown, List.isEmpty_nil, Bool.not_true, Bool.false_eq_true,
    if_false, head?_ite_isEmpty, TypeInfo.firstCalled?]

theorem TypeInfo.firstCalled?_agrees_iff (t : TypeInfo) :
    (t.firstCalled?.map (·.typeParameters)).getD [] =
      (t.firstMade?.map (·.typeParameters)).getD [] ↔ ¬t.Diverges := by
  unfold firstCalled? firstMade? Diverges
  cases t.callSignatures.head? with
  | none => simp
  | some called =>
    cases t.constructSignatures.head? with
    | none => simp
    | some made => simp

/-- Type parameters that a declaration does not have itself are those of its primary signature,
except for one that is compared by how it is made and can be called with other ones. -/
theorem typeParametersOf_eq_primary_iff (ht : f.typeInfo = some t) (hown : t.typeParameters = []) :
    typeParametersOf f = (t.firstCalled?.map (·.typeParameters)).getD [] ∧
    (typeParametersOf f = primaryTypeParameters f ↔ ¬(f.IsMade ∧ t.Diverges)) := by
  have hcalled := typeParametersOf_eq ht hown
  refine ⟨hcalled,?_⟩
  rw [hcalled, primaryTypeParameters, primarySignature_eq ht]
  by_cases hmade : f.IsMade
  · rw [if_pos hmade, t.firstCalled?_agrees_iff, and_iff_right hmade]
  · rw [if_neg hmade]
    exact iff_of_true rfl fun h => hmade h.1

def registry (called made : List String) : Facts :=
  let parameters (names : List String) : List TypeParameter := names.map fun n => ⟨n,none,none⟩
  { path := "Registry", name := "Registry", kind := .classDecl, location := none, parent := none
    typeInfo := some ⟨"typeof Registry","typeof Registry",[],[],
      [⟨[⟨"name","string",false,false,none⟩],"Registry",parameters called,""⟩],
      [⟨[⟨"items","T[]",false,false,none⟩],"Registry",parameters made,""⟩],[],[],none,none⟩
    modifiers := ∅, metadata := none, extended := [], implemented := [] }

/-- With the same type parameters either way there is no telling the two apart. -/
theorem typeParametersOf_registry :
    ∃ t, (registry ["T"] ["T"]).typeInfo = some t ∧ t.typeParameters = [] ∧
      (registry ["T"] ["T"]).IsMade ∧
      typeParametersOf (registry ["T"] ["T"]) = primaryTypeParameters (registry ["T"] ["T"]) := by
  refine ⟨_,rfl,rfl,Or.inl rfl,(typeParametersOf_eq_primary_iff rfl rfl).2.mpr ?_⟩
  rintro ⟨-,called,hcalled,made,hmade,hne⟩
  obtain rfl := Option.some.inj hcalled
  obtain rfl := Option.some.inj hmade
  exact hne rfl

/-- There is one more type parameter to make it with, and no change of type parameters is
found. -/
theorem detect_of_untold_typeParameter :
    (∃ t, (registry [] ["T","K"]).typeInfo = some t ∧ t.typeParameters = []) ∧
    typeParametersOf (registry [] ["T","K"]) ≠ primaryTypeParameters (registry [] ["T","K"]) ∧
    TypeParameterChange.detect (registry [] ["T"]) (registry [] ["T","K"]) = [] ∧
    TypeParameterChange.detectIn (primaryTypeParameters (registry [] ["T"]))
      (primaryTypeParameters (registry [] ["T","K"])) = [.added "K"] := by
  exact ⟨⟨_,rfl,rfl⟩,by decide,by decide,by decide⟩

end ApiRelease
