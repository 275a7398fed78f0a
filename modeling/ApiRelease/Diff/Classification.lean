import ApiRelease.Diff.Options
import ApiRelease.Diff.Reorder
import ApiRelease.Diff.Signature
import ApiRelease.Diff.TypeParameters

/-! # What changed between two versions of one declaration

Checks run in a fixed order and the first that finds something decides: reordered
parameters, type parameters, the value of an enum member, the type or signature,
modifiers, heritage clauses, deprecation, the default value.
-/
namespace ApiRelease

inductive Side where
  | old
  | new
  deriving DecidableEq

structure Classification where
  descriptor : Descriptor
  explanation : String
  signatureChanges : List SignatureDifference
  analysis : Option Reorder.Analysis
  modifierChange : Option String
  anomalies : List (Side × String)

namespace Classification

def plain (descriptor : Descriptor) (explanation : String) : Classification :=
  ⟨descriptor, explanation, [], none, none, []⟩

def isEquivalent (c : Classification) : Bool :=
  decide (c.descriptor.effect = .modified .type .equivalent)

end Classification

/-- What a change to a declaration of this kind is a change to. -/
def NodeKind.target : NodeKind → Target
  | .property => .property
  | .method => .method
  | .parameter => .parameter
  | .typeParameter => .typeParameter
  | .enumMember => .enumMember
  | .indexSignature => .indexSignature
  | .getter | .setter => .accessor
  | .constructSignature => .constructor
  | _ => .exportItem

def membershipTags (d : Facts) (parent : Option Declaration) (removed : Bool) : List Tag :=
  match parent with
  | none => []
  | some p =>
    (if d.has .optional then [if removed then .wasOptional else .nowOptional]
     else if p.kind.isContract || d.has .abstract then
      [if removed then .wasRequired else .nowRequired]
     else []) ++
    (if d.defaultValue.isSome then [if removed then .hadDefault else .hasDefault] else [])

namespace Classification

def reordering? (old new : Facts) : Option Reorder.Analysis := do
  let analysis := Reorder.detect (← primarySignature old).parameters (← primarySignature new).parameters
  if analysis.hasReordering then some analysis else none

def typeExplanation (path : String) (verdict : Verdict) (old new : String) : String :=
  let moved (verb : String) := verb ++ " type of '" ++ path ++ "' from '" ++ old ++ "' to '" ++ new ++ "'"
  match verdict with
  | .known .equivalent => "Type of '" ++ path ++ "' changed syntax but is semantically equivalent"
  | .known .widening => moved "Widened"
  | .known .narrowing => moved "Narrowed"
  | _ => moved "Changed"

def unresolvedText (path : String) : String :=
  "'" ++ path ++ "': type information unavailable; compared raw text"

/-- Types of which at least one is unresolved are compared as they were written. -/
def ofRawText (old new : Facts) (target : Target) : Option Classification :=
  let oldRaw := Text.normalize old.rawType
  let newRaw := Text.normalize new.rawType
  if oldRaw == newRaw then none
  else
    some { plain (.plain target (.modified .type .undetermined) [])
        (typeExplanation old.path (.known .undetermined) oldRaw newRaw) with
      anomalies := (if old.isResolved then [] else [(Side.old, unresolvedText old.path)]) ++
        (if new.isResolved then [] else [(Side.new, unresolvedText new.path)]) }

def ofSignatures (old : Facts) (target : Target) (oldText newText : String)
    (differences : List SignatureDifference) : Except Fault Classification :=
  match differences with
  | [] =>
    .ok (plain (.plain target (.modified .type .equivalent) [])
      (typeExplanation old.path (.known .equivalent) oldText newText))
  | first :: _ => do
    let descriptor ← Descriptor.judged target first.aspect first.verdict first.tags
    return { plain descriptor ("Signature of '" ++ old.path ++ "' changed: " ++ first.explanation) with
      signatureChanges := differences }

def ofType (old new : Facts) (target : Target) (compareTypes : TypeOracle) :
    Except Fault (Option Classification) :=
  if !(old.isResolved && new.isResolved) then .ok (ofRawText old new target)
  else if old.signature == new.signature then .ok none
  else
    match primarySignature old, primarySignature new with
    | some o, some n => do
      let differences ← Signature.compare old.path o n compareTypes
      return some (← ofSignatures old target old.signature new.signature differences)
    | _, _ => do
      let verdict ← compareTypes old.signature new.signature
      let descriptor ← Descriptor.judged target .type verdict []
      return some (plain descriptor (typeExplanation old.path verdict old.signature new.signature))

/-- The modifiers in the order in which they are looked at: what gaining and losing
one says. Losing a visibility says nothing. -/
def modifierRules : List (Modifier × Bool × Aspect × Impact × List Tag × String × String) :=
  [(.readonly, true, .readonly, .narrowing, [], "Made '", "' readonly"),
   (.readonly, false, .readonly, .widening, [], "Made '", "' writable (removed readonly)"),
   (.optional, true, .optionality, .widening, [.wasRequired, .nowOptional], "Made '",
    "' optional (was required)"),
   (.optional, false, .optionality, .narrowing, [.wasOptional, .nowRequired], "Made '",
    "' required (was optional)"),
   (.abstract, true, .abstractness, .narrowing, [], "Made '", "' abstract"),
   (.abstract, false, .abstractness, .widening, [], "Made '", "' concrete (removed abstract)"),
   (.static, true, .staticness, .unrelated, [], "Made '", "' static"),
   (.static, false, .staticness, .unrelated, [], "Made '", "' an instance member (removed static)"),
   (.publicAccess, true, .visibility, .undetermined, [], "Changed visibility of '", "' to public"),
   (.protectedAccess, true, .visibility, .undetermined, [], "Changed visibility of '",
    "' to protected"),
   (.privateAccess, true, .visibility, .undetermined, [], "Changed visibility of '", "' to private")]

def ofModifiers (old new : Facts) (target : Target) : Option Classification :=
  (modifierRules.find? fun r =>
    if r.2.1 then new.has r.1 && !old.has r.1 else old.has r.1 && !new.has r.1).map
  fun (m, gained, aspect, impact, tags, before, after) =>
    { plain (.plain target (.modified aspect impact) tags) (before ++ old.path ++ after) with
      modifierChange := some ((if gained then "+" else "-") ++ m.name) }

def ofClause (old new : Facts) (target : Target) (keyword : String) (aspect : Aspect)
    (oldNames newNames : List String) : Option Classification :=
  let list (names : List String) := ", ".intercalate names
  let made (impact : Impact) (explanation : String) : Option Classification :=
    some (plain (.plain target (.modified aspect impact) []) explanation)
  if oldNames == newNames then none
  else if oldNames.isEmpty then
    made .narrowing ("Added " ++ keyword ++ " clause to '" ++ new.path ++ "': now " ++ keyword ++ " " ++
      list newNames)
  else if newNames.isEmpty then
    made .widening ("Removed " ++ keyword ++ " clause from '" ++ old.path ++ "' (no longer " ++
      keyword ++ " " ++ list oldNames ++ ")")
  else
    made .undetermined ("Changed " ++ keyword ++ " clause of '" ++ old.path ++ "' from '" ++
      list oldNames ++ "' to '" ++ list newNames ++ "'")

def ofDeprecation (old new : Facts) (target : Target) : Option Classification :=
  if !old.deprecated && new.deprecated then
    let message := (new.metadata.bind (·.deprecationMessage)).getD ""
    let suffix := if message.isEmpty then "" else ": " ++ message
    some (plain (.plain target (.modified .deprecation .widening) [])
      ("Marked '" ++ old.path ++ "' as @deprecated" ++ suffix))
  else if old.deprecated && !new.deprecated then
    some (plain (.plain target (.modified .deprecation .narrowing) [])
      ("Removed @deprecated from '" ++ old.path ++ "'"))
  else none

def ofDefaultValue (old new : Facts) (target : Target) : Option Classification :=
  let made (impact : Impact) (tags : List Tag) (explanation : String) : Option Classification :=
    some (plain (.plain target (.modified .defaultValue impact) tags) explanation)
  match old.defaultValue, new.defaultValue with
  | none, none => none
  | none, some n =>
    made .widening [.hasDefault] ("Added default value '" ++ n ++ "' to '" ++ old.path ++ "'")
  | some o, none =>
    made .narrowing [.hadDefault] ("Removed default value from '" ++ old.path ++ "' (was '" ++ o ++ "')")
  | some o, some n =>
    if o == n then none
    else
      made .undetermined [.hadDefault, .hasDefault] ("Changed default value of '" ++ old.path ++
        "' from '" ++ o ++ "' to '" ++ n ++ "'")

def unchanged (target : Target) : Classification :=
  plain (.plain target (.modified .type .equivalent) []) "No significant change detected"

/-- Reordering is looked for in what is called, if the options ask for it, and even
when the texts of the signatures agree: swapping parameters of one type leaves them
equal. -/
def detectedReordering (old new : Facts) (options : DiffOptions) : Option Reorder.Analysis :=
  if options.detectReordering && old.kind.isCallable then reordering? old new else none

def beforeType (old new : Facts) (options : DiffOptions) : Option Classification :=
  match detectedReordering old new options with
  | some analysis =>
    some { plain (.plain .parameter .reordered [])
        ("Parameters reordered in '" ++ old.name ++ "': " ++ analysis.summary) with
      analysis := some analysis }
  | none =>
    match TypeParameterChange.detect old new with
    | first :: _ =>
      let (descriptor, explanation) := first.describe old.path
      some (plain descriptor explanation)
    | [] =>
      if old.kind = .enumMember ∧ old.signature ≠ new.signature then
        some (plain (.plain .enumMember (.modified .enumValue .unrelated) [])
          ("Changed value of enum member '" ++ old.name ++ "' from '" ++ old.signature ++ "' to '" ++
            new.signature ++ "'"))
      else none

def afterType (old new : Facts) (target : Target) : Option Classification :=
  ofModifiers old new target <|>
    ofClause old new target "extends" .extendsClause old.extended new.extended <|>
    ofClause old new target "implements" .implementsClause old.implemented new.implemented <|>
    ofDeprecation old new target <|>
    ofDefaultValue old new target

/-- What changed; a type that is only written differently gives way to every later
check. -/
def ofPair (old new : Facts) (options : DiffOptions) (compareTypes : TypeOracle) :
    Except Fault Classification :=
  let target := old.kind.target
  match beforeType old new options with
  | some c => .ok c
  | none => do
    let byType ← ofType old new target compareTypes
    match byType with
    | some c =>
      if !c.isEquivalent then return c
      return (afterType old new target).getD c
    | none => return (afterType old new target).getD (unchanged target)

end Classification

end ApiRelease
