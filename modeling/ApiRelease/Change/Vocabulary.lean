import ApiRelease.Vocabulary

/-! # The dimensions along which a change is described

What changed (target), what happened to it (action), which facet of it (aspect), in
which direction compatibility moved (impact), and further facts (tags). A release
type says how large a version step a change asks for.
-/
namespace ApiRelease

inductive Target where
  | accessor
  | constructor
  | enumMember
  | exportItem
  | indexSignature
  | method
  | parameter
  | property
  | returnType
  | typeParameter
  deriving DecidableEq

def Target.name : Target → String
  | .accessor => "accessor"
  | .constructor => "constructor"
  | .enumMember => "enum-member"
  | .exportItem => "export"
  | .indexSignature => "index-signature"
  | .method => "method"
  | .parameter => "parameter"
  | .property => "property"
  | .returnType => "return-type"
  | .typeParameter => "type-parameter"

instance : Vocabulary Target where
  all := [.accessor, .constructor, .enumMember, .exportItem, .indexSignature, .method, .parameter,
    .property, .returnType, .typeParameter]
  name := Target.name
  find_name := by intro a; cases a <;> decide

inductive Action where
  | added
  | modified
  | removed
  | renamed
  | reordered
  deriving DecidableEq

def Action.name : Action → String
  | .added => "added"
  | .modified => "modified"
  | .removed => "removed"
  | .renamed => "renamed"
  | .reordered => "reordered"

instance : Vocabulary Action where
  all := [.added, .modified, .removed, .renamed, .reordered]
  name := Action.name
  find_name := by intro a; cases a <;> decide

inductive Aspect where
  | abstractness
  | constraint
  | defaultType
  | defaultValue
  | deprecation
  | enumValue
  | extendsClause
  | implementsClause
  | optionality
  | readonly
  | staticness
  | type
  | visibility
  deriving DecidableEq

def Aspect.name : Aspect → String
  | .abstractness => "abstractness"
  | .constraint => "constraint"
  | .defaultType => "default-type"
  | .defaultValue => "default-value"
  | .deprecation => "deprecation"
  | .enumValue => "enum-value"
  | .extendsClause => "extends-clause"
  | .implementsClause => "implements-clause"
  | .optionality => "optionality"
  | .readonly => "readonly"
  | .staticness => "staticness"
  | .type => "type"
  | .visibility => "visibility"

instance : Vocabulary Aspect where
  all := [.abstractness, .constraint, .defaultType, .defaultValue, .deprecation, .enumValue,
    .extendsClause, .implementsClause, .optionality, .readonly, .staticness, .type, .visibility]
  name := Aspect.name
  find_name := by intro a; cases a <;> decide

inductive Impact where
  | equivalent
  | narrowing
  | undetermined
  | unrelated
  | widening
  deriving DecidableEq

def Impact.name : Impact → String
  | .equivalent => "equivalent"
  | .narrowing => "narrowing"
  | .undetermined => "undetermined"
  | .unrelated => "unrelated"
  | .widening => "widening"

instance : Vocabulary Impact where
  all := [.equivalent, .narrowing, .undetermined, .unrelated, .widening]
  name := Impact.name
  find_name := by intro a; cases a <;> decide

inductive Tag where
  | affectsTypeParameter
  | hadDefault
  | hasDefault
  | hasNestedChanges
  | isNestedChange
  | isRestParameter
  | nowOptional
  | nowRequired
  | wasOptional
  | wasRequired
  | wasRestParameter
  deriving DecidableEq

def Tag.name : Tag → String
  | .affectsTypeParameter => "affects-type-parameter"
  | .hadDefault => "had-default"
  | .hasDefault => "has-default"
  | .hasNestedChanges => "has-nested-changes"
  | .isNestedChange => "is-nested-change"
  | .isRestParameter => "is-rest-parameter"
  | .nowOptional => "now-optional"
  | .nowRequired => "now-required"
  | .wasOptional => "was-optional"
  | .wasRequired => "was-required"
  | .wasRestParameter => "was-rest-parameter"

instance : Vocabulary Tag where
  all := [.affectsTypeParameter, .hadDefault, .hasDefault, .hasNestedChanges, .isNestedChange,
    .isRestParameter, .nowOptional, .nowRequired, .wasOptional, .wasRequired, .wasRestParameter]
  name := Tag.name
  find_name := by intro a; cases a <;> decide

inductive Release where
  | major
  | minor
  | none
  | patch
  deriving DecidableEq

namespace Release

def name : Release → String
  | .major => "major"
  | .minor => "minor"
  | .none => "none"
  | .patch => "patch"

instance : Vocabulary Release where
  all := [.major, .minor, .none, .patch]
  name := name
  find_name := by intro a; cases a <;> decide

def severity : Release → Nat
  | .none => 0
  | .patch => 1
  | .minor => 2
  | .major => 3

def isName (s : String) : Bool := (Vocabulary.parse? s : Option Release).isSome

def severityOf (s : String) : Nat := ((Vocabulary.parse? s : Option Release).map severity).getD 0

/-- The more severe of two, the first when they are equal. -/
def moreSevere (highest s : String) : String :=
  if severityOf s > severityOf highest then s else highest

/-- The most severe of the release types, `none` when there are none. -/
def mostSevere (types : List String) : String := types.foldl moreSevere (name .none)

end Release

end ApiRelease
