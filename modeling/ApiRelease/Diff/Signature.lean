import ApiRelease.Change.Descriptor
import ApiRelease.Declaration.Basic
import ApiRelease.TypeText.Oracle

/-! # Signatures compared place by place

Parameters are compared by position and the return type last; names do not count.
-/
namespace ApiRelease

/-- A modification whose impact is an oracle's answer; an answer that is no impact
is refused. -/
def Descriptor.judged (target : Target) (aspect : Aspect) (verdict : Verdict) (tags : List Tag) :
    Except Fault Descriptor :=
  match verdict with
  | .known impact => .ok (.plain target (.modified aspect impact) tags)
  | .other .null => .error (.descriptor (.incomplete target.name (.text aspect.name) .null))
  | .other v => do
    v.hashable
    throw (.descriptor (.unknownImpact v))

/-- The signature by which a declaration is compared: a class by how it is made,
everything else by how it is called, as far as there is a choice. -/
def primarySignature (f : Facts) : Option Signature :=
  f.typeInfo.bind fun t =>
    if f.kind = .classDecl ∨ f.kind = .constructSignature then
      (if t.constructSignatures.isEmpty then t.callSignatures else t.constructSignatures).head?
    else (if t.callSignatures.isEmpty then t.constructSignatures else t.callSignatures).head?

/-- One parameter or return type that differs. -/
structure SignatureDifference where
  target : Target
  action : Action
  aspect : Aspect
  verdict : Verdict
  name : String
  explanation : String
  tags : List Tag
  oldType : Option String
  newType : Option String

namespace SignatureDifference

def descriptor (d : SignatureDifference) : Except Fault Descriptor :=
  match d.action with
  | .modified => Descriptor.judged d.target d.aspect d.verdict d.tags
  | .added => .ok (.plain d.target .added d.tags)
  | .removed => .ok (.plain d.target .removed d.tags)
  | .renamed => .ok (.plain d.target .renamed d.tags)
  | .reordered => .ok (.plain d.target .reordered d.tags)

end SignatureDifference

namespace Signature

def tagIf (b : Bool) (t : Tag) : List Tag := if b then [t] else []

def addedTags (p : Parameter) : List Tag :=
  (if p.isRequired then .nowRequired else .nowOptional) ::
    tagIf p.rest .isRestParameter ++ tagIf p.defaultValue.isSome .hasDefault

def removedTags (p : Parameter) : List Tag :=
  (if p.isRequired then .wasRequired else .wasOptional) ::
    tagIf p.rest .wasRestParameter ++ tagIf p.defaultValue.isSome .hadDefault

def verb : Verdict → Except Fault String
  | .known .widening => .ok "Widened"
  | .known .narrowing => .ok "Narrowed"
  | .known _ => .ok "Changed"
  | .other v => do
    v.hashable
    return "Changed"

/-- The verdict on two types that do not read the same, `none` when it is that they
are equivalent. -/
def typeVerdict (compareTypes : TypeOracle) (old new : String) : Except Fault (Option Verdict) :=
  if Text.normalize old == Text.normalize new then .ok none
  else do
    let verdict ← compareTypes old new
    return if verdict.isEquivalent then none else some verdict

def compareParameter (path : String) (old new : Parameter) (compareTypes : TypeOracle) :
    Except Fault (Option SignatureDifference) := do
  match ← typeVerdict compareTypes old.type new.type with
  | some verdict =>
    let verb ← verb verdict
    return some {
      target := .parameter, action := .modified, aspect := .type, verdict, name := new.name,
      explanation := verb ++ " type of parameter '" ++ new.name ++ "' in '" ++ path ++ "' from '" ++
        old.type ++ "' to '" ++ new.type ++ "'",
      tags := [], oldType := some old.type, newType := some new.type }
  | none =>
    let made (impact : Impact) (what : String) (tags : List Tag) : SignatureDifference := {
      target := .parameter, action := .modified, aspect := .optionality, verdict := .known impact,
      name := new.name,
      explanation := "Made parameter '" ++ new.name ++ "' of '" ++ path ++ "' " ++ what,
      tags, oldType := none, newType := none }
    if old.isRequired && !new.isRequired then
      return some (made .widening "optional (was required)"
        ([.wasRequired, .nowOptional] ++ tagIf new.defaultValue.isSome .hasDefault))
    else if !old.isRequired && new.isRequired then
      return some (made .narrowing "required (was optional)"
        ([.wasOptional, .nowRequired] ++ tagIf old.defaultValue.isSome .hadDefault))
    else return none

def addedParameter (path : String) (p : Parameter) : SignatureDifference :=
  let kind :=
    if p.rest then "rest parameter"
    else if p.isRequired then "required parameter" else "optional parameter"
  { target := .parameter, action := .added, aspect := .type,
    verdict := .known (if p.isRequired then .narrowing else .widening), name := p.name,
    explanation := "Added " ++ kind ++ " '" ++ p.name ++ "' to '" ++ path ++ "'",
    tags := addedTags p, oldType := none, newType := some p.type }

def removedParameter (path : String) (p : Parameter) : SignatureDifference :=
  { target := .parameter, action := .removed, aspect := .type, verdict := .known .narrowing,
    name := p.name, explanation := "Removed parameter '" ++ p.name ++ "' from '" ++ path ++ "'",
    tags := removedTags p, oldType := some p.type, newType := none }

def compareParameters (path : String) (compareTypes : TypeOracle) :
    List Parameter → List Parameter → Except Fault (List SignatureDifference)
  | [], [] => .ok []
  | old :: olds, new :: news => do
    let here ← compareParameter path old new compareTypes
    return here.toList ++ (← compareParameters path compareTypes olds news)
  | [], news => .ok (news.map (addedParameter path))
  | olds, [] => .ok (olds.map (removedParameter path))

def compareReturn (path old new : String) (compareTypes : TypeOracle) :
    Except Fault (Option SignatureDifference) := do
  match ← typeVerdict compareTypes old new with
  | none => return none
  | some verdict =>
    let verb ← verb verdict
    return some {
      target := .returnType, action := .modified, aspect := .type, verdict, name := "return",
      explanation := verb ++ " return type of '" ++ path ++ "' from '" ++ old ++ "' to '" ++ new ++
        "'",
      tags := [], oldType := some old, newType := some new }

/-- The differences in order of position, the return type last. -/
def compare (path : String) (old new : Signature) (compareTypes : TypeOracle) :
    Except Fault (List SignatureDifference) := do
  let parameters ← compareParameters path compareTypes old.parameters new.parameters
  let result ← compareReturn path old.returnType new.returnType compareTypes
  return parameters ++ result.toList

end Signature

end ApiRelease
