import ApiRelease.Policy.Basic

/-! # Built-in policies

Three policies for surfaces that consumers read and write, only read, or only
write. The first rule that fits decides, and what no rule recognizes is major.
-/
namespace ApiRelease.Policy

def builtinRule (name : String) (release : Release) (rationale : Option String) (c : Conditions) :
    PolicyEntry :=
  .matcher { toConditions := c, name := .text name, returns := release.name,
             rationale := .ofOption rationale }

/-- For surfaces that consumers both read and write. -/
def shared : Policy where
  name := "semver-default"
  default := Release.major.name
  description := some "Conservative semantic versioning for shared APIs"
  rules :=
    [builtinRule "export-removal" .major (some "Removing an export breaks consumers who depend on it")
       { action := [Action.removed.name], target := [Target.exportItem.name] },
     builtinRule "member-removal" .major (some "Removing a member breaks consumers who access it")
       { action := [Action.removed.name], nested := some true },
     builtinRule "rename" .major (some "Renaming breaks consumers who reference by name")
       { action := [Action.renamed.name] },
     builtinRule "param-reorder" .major (some "Reordering parameters breaks positional callers")
       { action := [Action.reordered.name], target := [Target.parameter.name] },
     builtinRule "type-param-reorder" .major (some "Reordering type parameters breaks generic instantiation")
       { action := [Action.reordered.name], target := [Target.typeParameter.name] },
     builtinRule "required-param-addition" .major (some "Adding required parameters breaks existing callers")
       { action := [Action.added.name], target := [Target.parameter.name], tags := [Tag.nowRequired.name] },
     builtinRule "required-property-addition" .major (some "Adding required properties breaks existing implementers")
       { action := [Action.added.name], target := [Target.property.name], tags := [Tag.nowRequired.name] },
     builtinRule "type-narrowing" .major (some "Type narrowing may reject previously valid values")
       { aspect := [Aspect.type.name], impact := [Impact.narrowing.name] },
     builtinRule "optionality-tightened" .major (some "Making something required breaks consumers who omit it")
       { aspect := [Aspect.optionality.name], impact := [Impact.narrowing.name] },
     builtinRule "optionality-loosened" .major (some "Making something optional may hand readers a missing value")
       { aspect := [Aspect.optionality.name], impact := [Impact.widening.name] },
     builtinRule "visibility-change" .major (some "Visibility changes affect accessibility")
       { aspect := [Aspect.visibility.name] },
     builtinRule "readonly-removed" .major (some "Removing readonly allows mutation, changing semantics")
       { aspect := [Aspect.readonly.name], impact := [Impact.widening.name] },
     builtinRule "constraint-change" .major (some "Constraint changes affect type parameter requirements")
       { aspect := [Aspect.constraint.name] },
     builtinRule "enum-value-change" .major (some "Enum value changes may break switch statements")
       { aspect := [Aspect.enumValue.name] },
     builtinRule "export-addition" .minor (some "Adding exports is backward compatible")
       { action := [Action.added.name], target := [Target.exportItem.name] },
     builtinRule "optional-addition" .minor (some "Optional additions are backward compatible")
       { action := [Action.added.name], tags := [Tag.nowOptional.name] },
     builtinRule "member-addition" .minor (some "Adding members is generally backward compatible")
       { action := [Action.added.name], notTags := [Tag.nowRequired.name], nested := some true },
     builtinRule "type-widening" .minor (some "Type widening accepts more values")
       { aspect := [Aspect.type.name], impact := [Impact.widening.name] },
     builtinRule "readonly-added" .minor (some "Adding readonly is backward compatible for consumers")
       { aspect := [Aspect.readonly.name], impact := [Impact.narrowing.name] },
     builtinRule "undeprecation" .minor (some "Removing deprecation notices is backward compatible")
       { aspect := [Aspect.deprecation.name], impact := [Impact.narrowing.name] },
     builtinRule "default-type-change" .minor (some "Default type parameter changes are usually compatible")
       { aspect := [Aspect.defaultType.name] },
     builtinRule "default-removed" .minor (some "Removing defaults requires explicit values")
       { aspect := [Aspect.defaultValue.name], tags := [Tag.hadDefault.name], notTags := [Tag.hasDefault.name] },
     builtinRule "deprecation" .patch (some "Adding deprecation is informational, no behavior change")
       { aspect := [Aspect.deprecation.name], impact := [Impact.widening.name] },
     builtinRule "default-change" .patch (some "Default value changes are backward compatible")
       { aspect := [Aspect.defaultValue.name] },
     builtinRule "type-equivalent" .none (some "Semantically equivalent types require no version bump")
       { aspect := [Aspect.type.name], impact := [Impact.equivalent.name] }]

/-- For surfaces that consumers only read: what they get must not grow. -/
def readOnly : Policy where
  name := "semver-read-only"
  default := Release.major.name
  description := some "Covariant policy for surfaces consumers only read"
  rules :=
    [builtinRule "removal" .major (some "Readers expect data to be present")
       { action := [Action.removed.name] },
     builtinRule "rename" .major (some "Readers reference by name")
       { action := [Action.renamed.name] },
     builtinRule "param-reorder" .major (some "Positional access is affected")
       { action := [Action.reordered.name], target := [Target.parameter.name] },
     builtinRule "type-param-reorder" .major (some "Reordering type parameters breaks generic instantiation")
       { action := [Action.reordered.name], target := [Target.typeParameter.name] },
     builtinRule "type-narrowing" .major (some "Readers may not handle the narrower type")
       { aspect := [Aspect.type.name], impact := [Impact.narrowing.name] },
     builtinRule "optionality-loosened" .major (some "Readers might receive a missing value")
       { aspect := [Aspect.optionality.name], impact := [Impact.widening.name] },
     builtinRule "addition" .minor (some "Readers receive additional data")
       { action := [Action.added.name] },
     builtinRule "type-widening" .minor (some "Readers can handle broader types")
       { aspect := [Aspect.type.name], impact := [Impact.widening.name] },
     builtinRule "optionality-tightened" .minor (some "Readers always receive a value")
       { aspect := [Aspect.optionality.name], impact := [Impact.narrowing.name] },
     builtinRule "undeprecation" .minor none
       { aspect := [Aspect.deprecation.name], impact := [Impact.narrowing.name] },
     builtinRule "deprecation" .patch none
       { aspect := [Aspect.deprecation.name], impact := [Impact.widening.name] },
     builtinRule "default-change" .patch none { aspect := [Aspect.defaultValue.name] },
     builtinRule "type-equivalent" .none none
       { aspect := [Aspect.type.name], impact := [Impact.equivalent.name] }]

/-- For surfaces that consumers only write: what they must give must not grow. -/
def writeOnly : Policy where
  name := "semver-write-only"
  default := Release.major.name
  description := some "Contravariant policy for surfaces consumers only write"
  rules :=
    [builtinRule "export-removal" .major (some "Cannot use removed exports")
       { action := [Action.removed.name], target := [Target.exportItem.name] },
     builtinRule "enum-member-removal" .major (some "Cannot use removed enum value")
       { action := [Action.removed.name], target := [Target.enumMember.name] },
     builtinRule "member-removal" .minor (some "Writers no longer need to provide the value")
       { action := [Action.removed.name], nested := some true },
     builtinRule "rename" .major (some "Writers reference by name")
       { action := [Action.renamed.name] },
     builtinRule "param-reorder" .major (some "Positional arguments affected")
       { action := [Action.reordered.name], target := [Target.parameter.name] },
     builtinRule "type-param-reorder" .major (some "Reordering type parameters breaks generic instantiation")
       { action := [Action.reordered.name], target := [Target.typeParameter.name] },
     builtinRule "required-addition" .major (some "Writers must provide the new required value")
       { action := [Action.added.name], tags := [Tag.nowRequired.name] },
     builtinRule "type-widening" .major (some "Writers must handle broader type requirements")
       { aspect := [Aspect.type.name], impact := [Impact.widening.name] },
     builtinRule "optionality-tightened" .major (some "Writers must now provide the value")
       { aspect := [Aspect.optionality.name], impact := [Impact.narrowing.name] },
     builtinRule "default-removed" .major (some "Writers must now explicitly provide the value")
       { aspect := [Aspect.defaultValue.name], tags := [Tag.hadDefault.name], notTags := [Tag.hasDefault.name] },
     builtinRule "optional-addition" .minor (some "Writers can optionally provide the value")
       { action := [Action.added.name], tags := [Tag.nowOptional.name] },
     builtinRule "export-addition" .minor (some "New exports are available to use")
       { action := [Action.added.name], target := [Target.exportItem.name] },
     builtinRule "type-narrowing" .minor (some "Stricter requirements, existing valid values still work")
       { aspect := [Aspect.type.name], impact := [Impact.narrowing.name] },
     builtinRule "optionality-loosened" .minor (some "Writers can now omit the value")
       { aspect := [Aspect.optionality.name], impact := [Impact.widening.name] },
     builtinRule "undeprecation" .minor none
       { aspect := [Aspect.deprecation.name], impact := [Impact.narrowing.name] },
     builtinRule "deprecation" .patch none
       { aspect := [Aspect.deprecation.name], impact := [Impact.widening.name] },
     builtinRule "default-change" .patch none { aspect := [Aspect.defaultValue.name] },
     builtinRule "type-equivalent" .none none
       { aspect := [Aspect.type.name], impact := [Impact.equivalent.name] }]

def builtins : List Policy := [shared, readOnly, writeOnly]

def builtin (name : String) : Except Fault Policy :=
  match builtins.find? fun p => p.name == name with
  | some p => .ok p
  | none => .error (.unknownBuiltin name (builtins.map (·.name)))

end ApiRelease.Policy
