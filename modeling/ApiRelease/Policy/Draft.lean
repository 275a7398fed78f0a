import ApiRelease.Policy.Basic
import ApiRelease.Rule.Decode

/-! # Policies in the making

Rules are gathered in order and may be moved between levels together before they
become a policy. Moving keeps every rule in its place, also one that cannot be moved.
-/
namespace ApiRelease

namespace DimensionalRule

def withValues (r : DimensionalRule) (d : Dimension) (values : List String) : DimensionalRule :=
  match d with
  | .action => { r with action := values }
  | .target => { r with target := values }
  | .aspect => { r with aspect := values }
  | .impact => { r with impact := values }
  | .nodeKind => { r with nodeKind := values }
  | .tags | .anyTags => { r with tags := values }
  | .notTags => { r with notTags := values }

end DimensionalRule

namespace Draft

/-- Moves an entry to a level; only rules have levels. -/
def moveEntry (target : RuleLevel) : PolicyEntry → Logged PolicyEntry
  | .rule r => ⟨(r.moveTo target).notes, .ok (.rule (r.atLevel target))⟩
  | .matcher m => Traced.fail (.noField m.toValue.kindName)
  | .absent => Traced.fail (.noField Value.null.kindName)

def transform (level : String) (rules : List PolicyEntry) : Logged (List PolicyEntry) :=
  match RuleLevel.parse? level with
  | none => Traced.fail (.unknownLevel level)
  | some target => rules.mapM (moveEntry target)

/-- An intent becomes the pattern that it means, if it has one. -/
def settle : PolicyEntry → PolicyEntry
  | .rule (.intent r) =>
    match (Intent.read r).pattern with
    | some p => .rule (.pattern p)
    | none => .rule (.intent r)
  | e => e

def build (name default : String) (description : Option String) (rules : List PolicyEntry) : Policy where
  name := name
  rules := rules.map settle
  default := default
  description := description

def intent (expression : String) (returns : Option String) (description : Value) : PolicyEntry :=
  .rule (.intent { expression, returns, description })

/-- A pattern whose variables are told apart by their names and values. -/
def pattern (template : String) (bindings : Fields) (returns : Option String)
    (description : Value) : PolicyEntry :=
  .rule (.pattern { template, bindings := bindings.map fun f => .infer f.1 f.2.toText, returns,
                    description })

def dimensional (r : DimensionalRule) (returns : Option String) : PolicyEntry :=
  .rule (.dimensional { r with returns })

def common (expression : String) (returns : Release) : PolicyEntry :=
  intent expression (some returns.name) .null

structure StandardParts where
  removals : Bool := true
  additions : Bool := true
  deprecations : Bool := true
  narrowing : Bool := true

def standard (name default : String) (parts : StandardParts) : Policy :=
  build name default none
    ((if parts.removals then
        [common "export removal is breaking" .major, common "member removal is breaking" .major]
      else []) ++
     (if parts.additions then [common "optional addition is safe" .none] else []) ++
     (if parts.deprecations then [common "deprecation is patch" .patch] else []) ++
     (if parts.narrowing then
        [common "type narrowing is breaking" .major, common "type widening is safe" .none]
      else []))

def standardKeys : List Scalar :=
  ["name", "breaking_removals", "safe_additions", "deprecations", "type_narrowing",
   "default_release_type"]

/-- A ready-made policy as a document asks for it: the name is needed, and nothing
that is not known may be asked. -/
def standardOf (fs : Fields) : Except Fault Policy :=
  if !fs.has "name" || fs.any (fun f => !standardKeys.contains f.1) then .error .badCall
  else
    let wanted (key : String) : Bool := (fs.getD key (.bool true)).truthy
    .ok (standard (fs.get "name").toText
      (fs.getD "default_release_type" (.text Release.none.name)).toText
      ⟨wanted "breaking_removals", wanted "safe_additions", wanted "deprecations",
        wanted "type_narrowing"⟩)

end Draft

end ApiRelease
