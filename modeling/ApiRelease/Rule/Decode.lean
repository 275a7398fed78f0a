import ApiRelease.Rule.Basic

/-! # Rules from documents

The type of a rule may be left out when its fields tell it: an expression makes an
intent, a template a pattern, anything else a dimensional rule. Intents and patterns
need a release type; a dimensional rule may lack one.
-/
namespace ApiRelease

/-- Values that make a bare variable stand for a kind of declaration. -/
def nodeKindValues : List String := ["function", "class", "interface", "enum", "type-alias"]

def PatternVariable.infer (name : Scalar) (value : String) : PatternVariable :=
  let role : VariableRole :=
    if name == .text "nodeKind" || nodeKindValues.contains value then .nodeKind
    else if name == .text "condition" then .condition
    else if name == .text "pattern" then .pattern
    else .target
  { name, value, role }

namespace Rule

/-- One value or many; nothing is none. -/
def valuesOf (v : Value) : Except Fault (List String) :=
  match v with
  | .null => .ok []
  | .text s => .ok [s]
  | _ => do (← v.items).mapM (·.shown)

/-- Refuses a document for a cause that quotes it. -/
def refuse {α : Type} (v : Value) (cause : Fault) : Except Fault α := do
  let _ ← v.shown
  throw cause

/-- The release type that a document gives, if it gives one. -/
def returnsOf (v : Value) : Except Fault (Option String) :=
  match v with
  | .null => .ok none
  | _ => do
    v.hashable
    match v with
    | .text s => if Release.isName s then return some s else refuse v (.unknownRelease v)
    | _ => refuse v (.unknownRelease v)

def variableOf (v : Value) : Except Fault PatternVariable := do
  let name ← (← v.index "name").shown
  let value ← (← v.index "value").shown
  return { name, value,
           role := .ofValue (v.fieldsOrNone.getD "type" (.text "target")) }

def isTable : Value → Bool
  | .table _ => true
  | _ => false

/-- Variables by name, or a list of tables; what is not a table is passed over. -/
def variablesOf (v : Value) : Except Fault (List PatternVariable) :=
  match v.orElse (.list []) with
  | .table fs => fs.mapM fun f => do return .infer f.1 (← f.2.shown)
  | w => do ((← w.items).filter isTable).mapM variableOf

def typeOf (fs : Fields) : Value :=
  match fs.get "type" with
  | .null =>
    .text (if fs.has "expression" then "intent"
      else if fs.has "template" then "pattern" else "dimensional")
  | v => v

def intentOf (fs : Fields) (returns : Option String) : Except Fault IntentRule :=
  let expression := fs.get "expression"
  if !expression.truthy || returns.isNone then .error .incompleteIntent
  else do return { expression := ← expression.shown, returns, description := fs.get "description" }

def patternOf (fs : Fields) (returns : Option String) : Except Fault PatternRule :=
  let template := fs.get "template"
  if !template.truthy || returns.isNone then .error .incompletePattern
  else do
    let bindings ← variablesOf (fs.get "variables")
    return { template := ← template.shown, bindings, returns, description := fs.get "description" }

def dimensionalOf (fs : Fields) (returns : Option String) : Except Fault DimensionalRule := do
  let action ← valuesOf (fs.get "action")
  let target ← valuesOf (fs.get "target")
  let aspect ← valuesOf (fs.get "aspect")
  let impact ← valuesOf (fs.get "impact")
  let nodeKind ← valuesOf (fs.getD "node_kind" (fs.get "nodeKind"))
  let tags ← valuesOf (fs.get "tags")
  let notTags ← valuesOf (fs.getD "not_tags" (fs.get "notTags"))
  let nested :=
    match fs.get "nested" with
    | .null => none
    | v => some v.truthy
  return { returns, action, target, aspect, impact, nodeKind, tags, notTags, nested,
           description := fs.get "description" }

def ofFields (fs : Fields) : Except Fault Rule := do
  let kind := typeOf fs
  let returns ← returnsOf (fs.get "returns")
  if kind = .text "intent" then return .intent (← intentOf fs returns)
  else if kind = .text "pattern" then return .pattern (← patternOf fs returns)
  else if kind = .text "dimensional" then return .dimensional (← dimensionalOf fs returns)
  else refuse kind (.unknownRuleType kind)

def ofValue (v : Value) : Except Fault Rule := do
  ofFields (← v.fields)

end Rule

end ApiRelease
