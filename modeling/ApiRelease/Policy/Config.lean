import ApiRelease.Diff.Options
import ApiRelease.Document.Toml.Read
import ApiRelease.Document.Yaml.Read
import ApiRelease.File
import ApiRelease.Policy.Basic
import ApiRelease.Rule.Decode
import ApiRelease.Text.Blank

/-! # Policies from files

A policy file holds the policy and the options of the comparison that go with it. A
rule that has an expression, a template or a type is kept at its level; any other
rule with a name is a matcher. A rule without a release type is left out, with a
warning, and so is one that cannot be read.
-/
namespace ApiRelease

structure PolicyConfig where
  policy : Policy
  options : DiffOptions

namespace PolicyConfig

/-- One text or a list of values; texts are trimmed and blank ones left out. -/
def valueList : Value → Except Fault (List String)
  | .text s => .ok (trimmed [s])
  | .list vs => do return trimmed (← vs.mapM (·.shown))
  | _ => .ok []
where
  trimmed (texts : List String) : List String :=
    (texts.map Text.trim).filter fun s => !s.isEmpty

/-- Only a text counts. -/
def textOnly : Value → Option String
  | .text s => some s
  | _ => none

def nestedOnly : Value → Option Bool
  | .bool b => some b
  | _ => none

def matcherOf (fs : Fields) (name returns : String) : Except Fault Matcher := do
  let conditions ←
    Conditions.ofReader (fun d => valueList (fs.get d.key)) (nestedOnly (fs.get "nested"))
  return { toConditions := conditions, name := .text name, returns,
           rationale := .ofOption (textOnly (fs.get "rationale")) }

def ruleLabel (source : String) (number : Nat) : String :=
  source ++ ": rule #" ++ Scalar.showInt number

/-- A field as trimmed text, empty when it is absent. -/
def trimmedField (fs : Fields) (key : String) : Except Fault String := do
  return Text.trim (← (fs.getD key (.text "")).shown)

def isLevelled (fs : Fields) : Bool := fs.has "expression" || fs.has "template" || fs.has "type"

def entryOf (source : String) (number : Nat) (fs : Fields) : Logged (Option PolicyEntry) := do
  let returns ← trimmedField fs "returns"
  if !Release.isName returns then
    Traced.note (.warning (ruleLabel source number ++ " has no valid 'returns', skipped"))
    return none
  else if isLevelled fs then
    match Rule.ofFields fs with
    | .ok r => return some (.rule r)
    | .error f =>
      if f.isOfEntry then do
        Traced.note (.warning (ruleLabel source number ++ " skipped: " ++ f.message))
        return none
      else Traced.fail f
  else
    let name ← trimmedField fs "name"
    if name.isEmpty then return none
    else return some (.matcher (← matcherOf fs name returns))

/-- The entries of a list of rules, from number `number` on; what is not a table is
passed over. -/
def entriesFrom (source : String) (number : Nat) : List Value → Logged (List PolicyEntry)
  | [] => pure []
  | .table fs :: rest => do
    let entry ← entryOf source number fs
    return entry.toList ++ (← entriesFrom source (number + 1) rest)
  | _ :: rest => entriesFrom source (number + 1) rest

def optionsOf (source : String) (v : Value) : Except Fault DiffOptions :=
  match DiffOptions.ofFields v.fieldsOrNone with
  | .ok o => .ok o
  | .error f =>
    if f.isOfValue then
      .error (.policyFile source ("invalid [diff] table: " ++ f.message))
    else .error f

/-- The default release type; a blank one is `major`. -/
def defaultOf (fs : Fields) : Except Fault String := do
  let given := Text.trim (← (fs.getD "default" (.text Release.major.name)).shown)
  return if given.isEmpty then Release.major.name else given

def ofFields (source : String) (fs : Fields) : Logged PolicyConfig := do
  let name ← trimmedField fs "name"
  if name.isEmpty then Traced.fail (.policyFile source "name is required")
  let default ← defaultOf fs
  if !Release.isName default then
    Traced.fail (.policyFile source
      ("default must be one of " ++ ", ".intercalate (Vocabulary.names Release)))
  let options ← optionsOf source (fs.get "diff")
  let raw ← (fs.getD "rules" (.list [])).items
  let rules ← entriesFrom source 1 raw
  return { policy := { name, rules, default, description := textOnly (fs.get "description") },
           options }

/-- A fault in reading the document of a policy file. That the text breaks the rules of
its format is one of the file; others stay what they are. -/
def documentFault (name format : String) (f : Fault) : Fault :=
  match f.sort with
  | .illFormed => .policyFile name ("invalid " ++ format ++ ": " ++ f.detail)
  | _ => f

def document (name text : String) : Except Fault Value :=
  if isYamlName name then
    match Yaml.read text with
    | .ok v => .ok (v.orElse (.table []))
    | .error f => .error (documentFault name "YAML" f)
  else (Toml.read text).mapError (documentFault name "TOML")

def load (files : Files) (name : String) : Logged PolicyConfig :=
  match files.read name with
  | .error f => Traced.fail (f.toFault (.policyFile name))
  | .ok text =>
    match document name text with
    | .error f => Traced.fail f
    | .ok (.table fs) => ofFields name fs
    | .ok _ => Traced.fail (.policyFile name "top-level value must be a table")

end PolicyConfig

end ApiRelease
