import ApiRelease.Declaration.Basic
import ApiRelease.Document.Read
import ApiRelease.Notice

/-! # Declarations from documents

Texts are taken from whatever stands in their place, lists that are not lists count
as empty, and unknown modifiers are passed over with a log line. A declaration
needs a name and a known kind; a member whose document is not a table is passed
over. Several fields have a second, older spelling that counts when the first is
absent.
-/
namespace ApiRelease

def Fields.text (fs : Fields) (key fallback : String) : Except Fault String :=
  (fs.getD key (.text fallback)).shown

def Fields.flag (fs : Fields) (key : String) : Bool := (fs.getD key (.bool false)).truthy

def Fields.optional (fs : Fields) (key : String) : Except Fault (Option String) :=
  (fs.get key).optionalShown

def Fields.texts (fs : Fields) (key : String) : Except Fault (List String) :=
  (fs.get key).entries.mapM (·.shown)

/-- A field under its present name, else under its older one. -/
def Fields.renamed (fs : Fields) (key older : String) : Value := fs.getD key (fs.get older)

def Position.ofFields (fs : Fields) : Except Fault Position := do
  return { line := ← (fs.getD "line" (.int 1)).toInt,
           column := ← (fs.getD "column" (.int 0)).toInt,
           offset := ← (fs.getD "offset" (.int 0)).toInt }

def Position.ofValue (v : Value) : Except Fault Position := do
  Position.ofFields (← v.fields)

def Span.ofFields (fs : Fields) : Except Fault Span := do
  return { start := ← Position.ofFields (fs.get "start").fieldsOrNone,
           stop := ← Position.ofFields (fs.get "end").fieldsOrNone }

def Span.ofValue (v : Value) : Except Fault Span := do
  Span.ofFields (← v.fields)

def TypeParameter.ofValue (v : Value) : Except Fault TypeParameter := do
  let name ← v.index "name"
  let fs := v.fieldsOrNone
  return { name := ← name.shown, constraint := ← fs.optional "constraint",
           default := ← fs.optional "default" }

def Parameter.ofValue (v : Value) : Except Fault Parameter := do
  let name ← v.index "name"
  let fs := v.fieldsOrNone
  return { name := ← name.shown, type := ← fs.text "type" "", optional := fs.flag "optional",
           rest := fs.flag "rest",
           defaultValue := ← (fs.renamed "default_value" "defaultValue").optionalShown }

def Signature.ofValue (v : Value) : Except Fault Signature := do
  let fs ← v.fields
  return { parameters := ← (fs.get "parameters").entries.mapM Parameter.ofValue,
           returnType := ← (fs.getD "return_type" (fs.getD "returnType" (.text ""))).shown,
           typeParameters :=
             ← (fs.renamed "type_parameters" "typeParameters").entries.mapM TypeParameter.ofValue,
           normalized := ← fs.text "normalized" "" }

def Property.ofValue (v : Value) : Except Fault Property := do
  let name ← v.index "name"
  let fs := v.fieldsOrNone
  return { name := ← name.shown, type := ← fs.text "type" "", optional := fs.flag "optional",
           readonly := fs.flag "readonly" }

def TypeInfo.ofFields (fs : Fields) : Except Fault TypeInfo := do
  return { signature := ← fs.text "signature" "",
           raw := ← (fs.getD "raw" (fs.getD "signature" (.text ""))).shown,
           unionMembers := ← fs.texts "union_members",
           intersectionMembers := ← fs.texts "intersection_members",
           callSignatures :=
             ← (fs.renamed "call_signatures" "callSignatures").entries.mapM Signature.ofValue,
           constructSignatures :=
             ← (fs.renamed "construct_signatures" "constructSignatures").entries.mapM
               Signature.ofValue,
           properties := ← (fs.get "properties").entries.mapM Property.ofValue,
           typeParameters :=
             ← (fs.renamed "type_parameters" "typeParameters").entries.mapM TypeParameter.ofValue,
           stringIndexType := ← fs.optional "string_index_type",
           numberIndexType := ← fs.optional "number_index_type" }

def TypeInfo.ofValue (v : Value) : Except Fault TypeInfo := do
  TypeInfo.ofFields (← v.fields)

def Metadata.ofFields (fs : Fields) : Except Fault Metadata := do
  return { deprecated := fs.flag "deprecated",
           deprecationMessage :=
             ← (fs.renamed "deprecation_message" "deprecationMessage").optionalShown,
           defaultValue := ← (fs.renamed "default_value" "defaultValue").optionalShown,
           rawComment := ← (fs.renamed "raw_comment" "rawComment").optionalShown }

def Metadata.ofValue (v : Value) : Except Fault Metadata := do
  Metadata.ofFields (← v.fields)

namespace Declaration

/-- The trimmed name of a declaration; `given` is the local name that counts when
the document has none. -/
def nameIn (fs : Fields) (given : Option Scalar) : Except Fault String := do
  return Text.trim (← (fs.getD "name" (.scalar (given.getD ""))).shown)

def kindIn (fs : Fields) (name : String) : Except Fault NodeKind := do
  let text := Text.trim (← fs.text "kind" "")
  match (Vocabulary.parse? text : Option NodeKind) with
  | some kind => return kind
  | none => throw (.unknownNodeKind text name)

/-- The path as given, else the name under the path of the parent. -/
def pathIn (fs : Fields) (parent : Option String) (name : String) : Except Fault String :=
  let v := fs.get "path"
  if v.truthy then v.shown
  else
    match parent with
    | some p => .ok (if p.isEmpty then name else p ++ "." ++ name)
    | none => .ok name

/-- The known modifiers; each unknown one leaves a line in the log. -/
def modifiersIn (path : String) : List Value → Logged (Subset Modifier)
  | [] => pure ∅
  | v :: rest => do
    let given ← v.shown
    match (Vocabulary.parse? given : Option Modifier) with
    | some m => return (← modifiersIn path rest).insert m
    | none =>
      Traced.note (.debug ("Ignoring unknown modifier " ++ v.quote ++ " on " ++ path))
      modifiersIn path rest

/-- A key of a table as a local name; nothing is none. -/
def localName? : Scalar → Option Scalar
  | .null => none
  | s => some s

/-- The member documents with their local names; only a table gives names. -/
def memberEntries : Value → List (Option Scalar × Value)
  | .table fs => fs.map fun f => (localName? f.1, f.2)
  | v => v.entries.map fun e => (none, e)

def isTable : Value → Bool
  | .table _ => true
  | _ => false

def memberTables (v : Value) : List (Option Scalar × Value) :=
  (memberEntries v).filter fun e => isTable e.2

theorem sizeOf_get_le (fs : Fields) (key : String) :
    sizeOf (fs.get key) ≤ sizeOf (Value.table fs) := by
  induction fs with
  | nil => simp [Fields.get, Fields.getD, Fields.find?]
  | cons f rest ih =>
    obtain ⟨k, v⟩ := f
    simp only [Fields.get, Fields.getD, Fields.find?] at ih ⊢
    split
    · simp; omega
    · simp at ih ⊢; omega

theorem sizeOf_memberTables_lt {v : Value} {e : Option Scalar × Value} (h : e ∈ memberTables v) :
    sizeOf e.2 < sizeOf v := by
  unfold memberTables at h
  have h := (List.mem_filter.mp h).1
  cases v with
  | table fs =>
    simp only [memberEntries, List.mem_map] at h
    obtain ⟨f, hf, rfl⟩ := h
    have := List.sizeOf_lt_of_mem hf
    obtain ⟨k, w⟩ := f
    simp at this ⊢
    omega
  | list vs =>
    simp only [memberEntries, Value.entries, List.mem_map] at h
    obtain ⟨w, hw, rfl⟩ := h
    have := List.sizeOf_lt_of_mem hw
    simp
    omega
  | pair a b =>
    simp only [memberEntries, Value.entries, List.map_cons, List.map_nil, List.mem_cons,
      List.not_mem_nil, or_false] at h
    rcases h with rfl | rfl <;> simp <;> omega
  | _ => simp [memberEntries, Value.entries] at h

def memberKey (given : Option Scalar) (d : Declaration) : Scalar :=
  match given with
  | some k => if k.truthy then k else d.name
  | none => d.name

/-- The record in a table, and none in anything else. -/
def recordIn {α : Type} (read : Fields → Except Fault α) : Value → Except Fault (Option α)
  | .table fs => (read fs).map some
  | _ => .ok none

def factsIn (fs : Fields) (parent : Option String) (path name : String) (kind : NodeKind)
    (modifiers : Subset Modifier) : Except Fault Facts := do
  let location ← recordIn Span.ofFields (fs.get "location")
  let own ← fs.optional "parent"
  let typeInfo ← recordIn TypeInfo.ofFields (fs.renamed "type_info" "typeInfo")
  let metadata ← recordIn Metadata.ofFields (fs.get "metadata")
  return { path, name, kind, location, typeInfo, modifiers, metadata,
           parent := if own.getD "" == "" then parent else own,
           extended := ← fs.texts "extends",
           implemented := ← fs.texts "implements" }

/-- Reads a declaration and its members. `given` is its local name among the
members of the declaration with path `parent`. -/
def decode (v : Value) (given : Option Scalar) (parent : Option String) : Logged Declaration :=
  match v with
  | .table fs => do
    let name ← nameIn fs given
    if name.isEmpty then Traced.fail .namelessNode
    let kind ← kindIn fs name
    let path ← pathIn fs parent name
    let modifiers ← modifiersIn path (Fields.get fs "modifiers").entries
    let members ← (memberTables (Fields.get fs "children")).attach.mapM fun ⟨e, _⟩ => do
      let d ← decode e.2 e.1 (some path)
      pure (memberKey e.1 d, d)
    let facts ← factsIn fs parent path name kind modifiers
    return { toFacts := facts, members := keyed members }
  | v => Traced.fail (.noField v.kindName)
termination_by sizeOf v
decreasing_by
  rename_i h
  exact Nat.lt_of_lt_of_le (sizeOf_memberTables_lt h) (sizeOf_get_le fs "children")

end Declaration

end ApiRelease
