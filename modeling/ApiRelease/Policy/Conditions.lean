import ApiRelease.Change.Basic
import ApiRelease.Rule.Basic

/-! # Conditions on a change

A condition lists values for some dimensions of a change; a dimension without values
is not looked at. A change has one of the listed values in each of the others, all
of the required tags, one of the alternative tags and none of the forbidden ones.
-/
namespace ApiRelease

inductive Dimension where
  | action
  | target
  | aspect
  | impact
  | nodeKind
  | tags
  | notTags
  | anyTags
  deriving DecidableEq

namespace Dimension

def all : List Dimension :=
  [.action, .target, .aspect, .impact, .nodeKind, .tags, .notTags, .anyTags]

def key : Dimension → String
  | .action => "action"
  | .target => "target"
  | .aspect => "aspect"
  | .impact => "impact"
  | .nodeKind => "node_kind"
  | .tags => "tags"
  | .notTags => "not_tags"
  | .anyTags => "any_tags"

end Dimension

structure Conditions where
  action : List String := []
  target : List String := []
  aspect : List String := []
  impact : List String := []
  nodeKind : List String := []
  tags : List String := []
  notTags : List String := []
  anyTags : List String := []
  nested : Option Bool := none
  deriving DecidableEq

namespace Conditions

def values (c : Conditions) : Dimension → List String
  | .action => c.action
  | .target => c.target
  | .aspect => c.aspect
  | .impact => c.impact
  | .nodeKind => c.nodeKind
  | .tags => c.tags
  | .notTags => c.notTags
  | .anyTags => c.anyTags

def withValues (c : Conditions) (d : Dimension) (values : List String) : Conditions :=
  match d with
  | .action => { c with action := values }
  | .target => { c with target := values }
  | .aspect => { c with aspect := values }
  | .impact => { c with impact := values }
  | .nodeKind => { c with nodeKind := values }
  | .tags => { c with tags := values }
  | .notTags => { c with notTags := values }
  | .anyTags => { c with anyTags := values }

@[simp] theorem values_withValues (c : Conditions) (d e : Dimension) (vs : List String) :
    (c.withValues d vs).values e = if e = d then vs else c.values e := by
  cases d <;> cases e <;> rfl

def extend (c : Conditions) (d : Dimension) (values : List String) : Conditions :=
  c.withValues d (c.values d ++ values)

def ofValues (values : Dimension → List String) (nested : Option Bool) : Conditions where
  action := values .action
  target := values .target
  aspect := values .aspect
  impact := values .impact
  nodeKind := values .nodeKind
  tags := values .tags
  notTags := values .notTags
  anyTags := values .anyTags
  nested := nested

@[simp] theorem values_ofValues (f : Dimension → List String) (nested : Option Bool)
    (d : Dimension) : (ofValues f nested).values d = f d := by cases d <;> rfl

def ofReader {ε : Type} (read : Dimension → Except ε (List String)) (nested : Option Bool) :
    Except ε Conditions := do
  return { action := ← read .action, target := ← read .target, aspect := ← read .aspect,
           impact := ← read .impact, nodeKind := ← read .nodeKind, tags := ← read .tags,
           notTags := ← read .notTags, anyTags := ← read .anyTags, nested }

def toFields (c : Conditions) : Fields :=
  Dimension.all.flatMap (fun d => valuesField d.key (c.values d)) ++ nestedField c.nested

/-- A listed value, or no list. -/
def allows (values : List String) (v : Option String) : Bool :=
  values.isEmpty || (v.map values.contains).getD false

/-- The kind of declaration that a finding is about, where it is a text. -/
def kindOf (f : Finding) : Option String :=
  match f.nodeKind with
  | .text k => some k
  | _ => none

def hasTag (f : Finding) (tag : String) : Bool := f.descriptor.tags.names.contains tag

def holdFor (c : Conditions) (f : Finding) : Bool :=
  allows c.target (some f.descriptor.target.name) &&
  allows c.action (some f.descriptor.effect.action.name) &&
  allows c.aspect f.descriptor.aspectName? &&
  allows c.impact f.descriptor.impactName? &&
  allows c.nodeKind (kindOf f) &&
  c.tags.all (hasTag f) &&
  (c.anyTags.isEmpty || c.anyTags.any (hasTag f)) &&
  !c.notTags.any (hasTag f) &&
  (match c.nested with
    | none => true
    | some b => f.context.nested == b)

end Conditions

end ApiRelease
