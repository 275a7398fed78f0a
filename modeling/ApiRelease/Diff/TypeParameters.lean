import ApiRelease.Change.Descriptor
import ApiRelease.Declaration.Basic

/-! # Changes of type parameters

Type parameters are compared by name. Of several of one name the last counts on the
side where a name is looked up.
-/
namespace ApiRelease

/-- The type parameters of a declaration itself, else those of its first call or
construct signature. -/
def typeParametersOf (f : Facts) : List TypeParameter :=
  match f.typeInfo with
  | none => []
  | some t =>
    if !t.typeParameters.isEmpty then t.typeParameters
    else
      let signatures := if t.callSignatures.isEmpty then t.constructSignatures else t.callSignatures
      (signatures.head?.map (·.typeParameters)).getD []

inductive TypeParameterChange where
  | removed (name : String)
  | added (name : String)
  | constraintChanged (name : String) (old new : Option String)
  | defaultChanged (name : String) (old new : Option String)
  deriving DecidableEq

namespace TypeParameterChange

def kindName : TypeParameterChange → String
  | .removed _ => "removed"
  | .added _ => "added"
  | .constraintChanged .. => "constraint-changed"
  | .defaultChanged .. => "default-changed"

def name : TypeParameterChange → String
  | .removed name | .added name | .constraintChanged name _ _ | .defaultChanged name _ _ => name

def oldValue : TypeParameterChange → Option String
  | .constraintChanged _ old _ | .defaultChanged _ old _ => old
  | _ => none

def newValue : TypeParameterChange → Option String
  | .constraintChanged _ _ new | .defaultChanged _ _ new => new
  | _ => none

def find? (ps : List TypeParameter) (name : String) : Option TypeParameter :=
  ps.reverse.find? fun p => p.name == name

def edits (old new : TypeParameter) : List TypeParameterChange :=
  (if old.constraint != new.constraint then
    [.constraintChanged old.name old.constraint new.constraint] else []) ++
  (if old.default != new.default then [.defaultChanged old.name old.default new.default] else [])

/-- Removals, then additions, then edits. -/
def detectIn (olds news : List TypeParameter) : List TypeParameterChange :=
  ((olds.filter fun p => (find? news p.name).isNone).map fun p => .removed p.name) ++
  ((news.filter fun p => (find? olds p.name).isNone).map fun p => .added p.name) ++
  olds.flatMap fun p => ((find? news p.name).map (edits p)).getD []

def detect (old new : Facts) : List TypeParameterChange :=
  detectIn (typeParametersOf old) (typeParametersOf new)

def blankValue (v : Option String) : Bool := v.getD "" == ""

def shown (v : Option String) : String := v.getD "None"

def modification (aspect : Aspect) (impact : Impact) : Descriptor :=
  .plain .typeParameter (.modified aspect impact) [.affectsTypeParameter]

def describe (path : String) : TypeParameterChange → Descriptor × String
  | .added name =>
    (.plain .typeParameter .added [.affectsTypeParameter],
      "Added type parameter '" ++ name ++ "' to '" ++ path ++ "'")
  | .removed name =>
    (.plain .typeParameter .removed [.affectsTypeParameter],
      "Removed type parameter '" ++ name ++ "' from '" ++ path ++ "'")
  | .constraintChanged name old new =>
    if blankValue new then
      (modification .constraint .widening, "Removed constraint from type parameter '" ++ name ++
        "' in '" ++ path ++ "' (was '" ++ shown old ++ "')")
    else if blankValue old then
      (modification .constraint .narrowing, "Added constraint '" ++ shown new ++
        "' to type parameter '" ++ name ++ "' in '" ++ path ++ "'")
    else
      (modification .constraint .undetermined, "Changed constraint on type parameter '" ++ name ++
        "' in '" ++ path ++ "' from '" ++ shown old ++ "' to '" ++ shown new ++ "'")
  | .defaultChanged name old new =>
    if blankValue old then
      (modification .defaultType .widening, "Added default type '" ++ shown new ++
        "' to type parameter '" ++ name ++ "' in '" ++ path ++ "'")
    else if blankValue new then
      (modification .defaultType .narrowing, "Removed default type from type parameter '" ++ name ++
        "' in '" ++ path ++ "' (was '" ++ shown old ++ "')")
    else
      (modification .defaultType .undetermined, "Changed default type of type parameter '" ++ name ++
        "' in '" ++ path ++ "' from '" ++ shown old ++ "' to '" ++ shown new ++ "'")

end TypeParameterChange

end ApiRelease
