import ApiRelease.Change.Vocabulary
import ApiRelease.Document.Read
import ApiRelease.Text.Search
import ApiRelease.TypeText.Union

/-! # Which way a type moved

An oracle is asked whether replacing one type text by another widens or narrows
what is accepted. It may answer with something that is no impact at all, or fail;
whoever asks has to cope. The heuristic oracle looks at the texts only.
-/
namespace ApiRelease

inductive Verdict where
  | known (impact : Impact)
  /-- an answer outside the vocabulary -/
  | other (given : Value)

namespace Verdict

def ofValue (v : Value) : Verdict :=
  match v with
  | .text s =>
    match Vocabulary.parse? s with
    | some impact => .known impact
    | none => .other v
  | _ => .other v

def toValue : Verdict → Value
  | .known impact => .text impact.name
  | .other v => v

def isEquivalent : Verdict → Bool
  | .known .equivalent => true
  | _ => false

end Verdict

abbrev TypeOracle := String → String → Except Fault Verdict

namespace TypeText

structure Comparison where
  impact : Impact
  reason : String

def isSubset (a b : List String) : Bool := a.all b.contains

/-- The verdict on two normalized texts, the first rule that applies. -/
def compareNormalized (old new : String) : Comparison :=
  if old == new then ⟨.equivalent, "identical after normalization"⟩
  else if old.isEmpty || new.isEmpty then ⟨.undetermined, "missing type text"⟩
  else
    let olds := unionMembers old
    let news := unionMembers new
    let both := decide (1 < olds.length) && decide (1 < news.length)
    if both && isSubset olds news && isSubset news olds then ⟨.equivalent, "same union members"⟩
    else if both && isSubset olds news then ⟨.widening, "union gained members"⟩
    else if both && isSubset news olds then ⟨.narrowing, "union lost members"⟩
    else if decide (1 < news.length) && news.contains old then
      ⟨.widening, "new union includes the old type"⟩
    else if decide (1 < olds.length) && olds.contains new then
      ⟨.narrowing, "old union includes the new type"⟩
    else
      match old.toList.contains '?', new.toList.contains '?' with
      | true, false => ⟨.narrowing, "optional marker removed"⟩
      | false, true => ⟨.widening, "optional marker added"⟩
      | _, _ => ⟨.undetermined, "no structural relationship found"⟩

def compare (old new : String) : Comparison :=
  compareNormalized (Text.normalize old) (Text.normalize new)

/-- A type text; a false document counts as an empty one. -/
def textOf (v : Value) : Except String String :=
  match v.orElse (.text "") with
  | .text s => .ok s
  | w => .error ("expected string or bytes-like object, got '" ++ w.kindName ++ "'")

/-- The verdict on whatever is given as types. -/
def compareValues (old new : Value) : Comparison :=
  match textOf old, textOf new with
  | .ok o, .ok n => compare o n
  | .error e, _ | .ok _, .error e => ⟨.undetermined, "comparison failed: " ++ e⟩

def heuristic : TypeOracle := fun old new => .ok (.known (compare old new).impact)

end TypeText

end ApiRelease
