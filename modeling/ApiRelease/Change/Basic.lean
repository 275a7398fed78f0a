import ApiRelease.Change.Descriptor
import ApiRelease.Declaration.Encode
import ApiRelease.Declaration.Decode
import ApiRelease.Text.Case

/-! # Changes

A change is a finding about one path together with the changes found inside it. The
same record holds what a comparison found and what a document says was found, so
the fields that a document may fill freely are documents themselves.
-/
namespace ApiRelease

/-- Where a change stands in the tree and how it was noticed. -/
structure Context where
  nested : Bool
  depth : Int
  ancestors : List Value
  renameConfidence : Option Float
  modifierChange : Value
  oldType : Value
  newType : Value
  deriving DecidableEq

structure Finding where
  descriptor : Descriptor
  path : Value
  nodeKind : Value
  explanation : Value
  context : Context
  oldLocation : Option Span
  newLocation : Option Span
  oldNode : Option Declaration
  newNode : Option Declaration
  parameterAnalysis : Value
  deriving DecidableEq

structure Change extends Finding where
  nested : List Change

namespace Context

def below (nested : Bool) (depth : Nat) (ancestors : List String) : Context where
  nested := nested
  depth := depth
  ancestors := ancestors.map .text
  renameConfidence := none
  modifierChange := .null
  oldType := .null
  newType := .null

def toValue (c : Context) : Value :=
  .table [("is_nested", .bool c.nested), ("depth", .int c.depth), ("ancestors", .list c.ancestors),
    ("rename_confidence", optionalValue .float c.renameConfidence),
    ("modifier_change", c.modifierChange), ("old_type", c.oldType), ("new_type", c.newType)]

def ofValue (v : Value) : Except Fault Context := do
  let fs ← v.fields
  let depth ← (fs.getD "depth" (.int 0)).toInt
  let ancestors ← (fs.getD "ancestors" (.list [])).items
  let renameConfidence ←
    match fs.get "rename_confidence" with
    | .null => pure none
    | c => c.toFloat.map some
  return { nested := fs.flag "is_nested", depth, ancestors, renameConfidence,
           modifierChange := fs.get "modifier_change", oldType := fs.get "old_type",
           newType := fs.get "new_type" }

end Context

namespace Finding

/-- The finding without the declarations it refers to and without the analysis that
goes with it; two records are taken for the same when these agree. -/
def core (f : Finding) : Finding :=
  { f with oldNode := none, newNode := none, parameterAnalysis := .null }

def toFields (f : Finding) (nested : List Value) : Fields :=
  [("descriptor", f.descriptor.toValue), ("path", f.path), ("node_kind", f.nodeKind),
    ("explanation", f.explanation), ("context", f.context.toValue),
    ("old_location", optionalValue Span.toValue f.oldLocation),
    ("new_location", optionalValue Span.toValue f.newLocation),
    ("old_path", .ofOption (f.oldNode.map (·.path))),
    ("new_path", .ofOption (f.newNode.map (·.path))), ("nested_changes", .list nested),
    ("parameter_analysis", f.parameterAnalysis)]

def ofFields (fs : Fields) : Except Fault Finding := do
  let v := Value.table fs
  let descriptor ← Descriptor.ofValue (← v.index "descriptor")
  let path ← v.index "path"
  let nodeKind ← v.index "node_kind"
  let context ← Context.ofValue (fs.getD "context" (.table []))
  let location (key : String) : Except Fault (Option Span) :=
    let l := fs.get key
    if l.truthy then (Span.ofValue l).map some else pure none
  let oldLocation ← location "old_location"
  let newLocation ← location "new_location"
  return { descriptor, path, nodeKind, explanation := fs.getD "explanation" (.text ""), context,
           oldLocation, newLocation, oldNode := none, newNode := none,
           parameterAnalysis := fs.get "parameter_analysis" }

end Finding

namespace Change

mutual

def toValue : Change → Value
  | ⟨finding, nested⟩ => .table (finding.toFields (toValues nested))

def toValues : List Change → List Value
  | [] => []
  | c :: rest => toValue c :: toValues rest

end

/-- Nested changes are given as a list; whatever else can be gone through has to be
empty. -/
def nestedShape (fs : Fields) : Except Fault Unit :=
  match Fields.find? "nested_changes" fs with
  | none | some (.list _) => .ok ()
  | some (.text s) => if s.isEmpty then .ok () else .error (.noField "str")
  | some (.table t) => if t.isEmpty then .ok () else .error (.noField "str")
  | some v => .error (.notIterable v.kindName)

theorem sizeOf_entries_lt {fs : Fields} {key : String} {w : Value}
    (h : w ∈ (fs.get key).entries) : sizeOf w < sizeOf (Value.table fs) := by
  have hlt := Declaration.sizeOf_get_le fs key
  cases hv : fs.get key with
  | list vs =>
    rw [hv] at h hlt
    have hw : w ∈ vs := h
    have := List.sizeOf_lt_of_mem hw
    simp only [Value.list.sizeOf_spec] at hlt
    omega
  | pair a b =>
    rw [hv] at h hlt
    simp only [Value.entries, List.mem_cons, List.not_mem_nil, or_false] at h
    simp only [Value.pair.sizeOf_spec] at hlt
    rcases h with rfl | rfl <;> omega
  | _ => rw [hv] at h; simp [Value.entries] at h

def decode (v : Value) : Except Fault Change :=
  match v with
  | .table fs => do
    let finding ← Finding.ofFields fs
    nestedShape fs
    let nested ← (Fields.get fs "nested_changes").entries.attach.mapM fun ⟨w, _⟩ => decode w
    return { toFinding := finding, nested }
  | v => .error (.noField v.kindName)
termination_by sizeOf v
decreasing_by
  rename_i h
  exact sizeOf_entries_lt h

mutual

def sameRecord : Change → Change → Bool
  | ⟨f, ns⟩, ⟨g, ms⟩ => decide (f.core = g.core) && sameRecords ns ms

def sameRecords : List Change → List Change → Bool
  | [], [] => true
  | a :: as, b :: bs => sameRecord a b && sameRecords as bs
  | _, _ => false

end

/-- The change as it is listed among all changes: a nested one is tagged as such. -/
def listed (inside : Bool) (c : Change) : Change :=
  if inside then { c with descriptor := c.descriptor.withTag .isNestedChange } else c

mutual

/-- The change and those nested in it, each before its own nested ones. -/
def flatten (inside : Bool) : Change → List Change
  | ⟨f, ns⟩ => listed inside ⟨f, ns⟩ :: flattenNested ns

def flattenNested : List Change → List Change
  | [] => []
  | c :: rest => flatten true c ++ flattenNested rest

end

def flattenAll (cs : List Change) : List Change := cs.flatMap (flatten false)

def addToGroup (groups : List (String × List Change)) (c : Change) : List (String × List Change) :=
  match groups with
  | [] => [(c.descriptor.key, [c])]
  | (key, cs) :: rest =>
    if key == c.descriptor.key then (key, cs ++ [c]) :: rest
    else (key, cs) :: addToGroup rest c

def groupByKey (cs : List Change) : List (String × List Change) := cs.foldl addToGroup []

end Change

structure MatchedRule where
  name : Value
  description : Value
  deriving DecidableEq

structure Classified where
  change : Change
  release : Value
  rule : Option MatchedRule

namespace Classified

def toValue (c : Classified) : Value :=
  .table [("change", c.change.toValue), ("release_type", c.release),
    ("matched_rule", optionalValue
      (fun r : MatchedRule => .table [("name", r.name), ("description", r.description)]) c.rule)]

def ofValue (v : Value) : Except Fault Classified := do
  let fs ← v.fields
  let change ← Change.decode (← v.index "change")
  let release ← v.index "release_type"
  let matched := fs.get "matched_rule"
  let rule ←
    if matched.truthy then do
      let name ← matched.index "name"
      pure (some { name, description := matched.fieldsOrNone.get "description" })
    else pure none
  return { change, release, rule }

def sameRecord (a b : Classified) : Bool :=
  a.change.sameRecord b.change && decide (a.release = b.release) && decide (a.rule = b.rule)

/-- The line that reports a classified change; only a release type that is a text
can be written in capitals. -/
def headline (c : Classified) : Except Fault String :=
  match c.release with
  | .text r =>
    let rule := (c.rule.map fun m => " [" ++ m.name.toText ++ "]").getD ""
    .ok (Text.upper r ++ ":" ++ rule ++ " " ++ c.change.path.toText ++ " - " ++
      c.change.explanation.toText)
  | v => .error (.noField v.kindName)

end Classified

end ApiRelease
