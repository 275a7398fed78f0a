import ApiRelease.Command.Request
import ApiRelease.Decimal.Fixed
import ApiRelease.Document.Json.Plain
import ApiRelease.Document.Json.Reader
import ApiRelease.Document.Toml.Read
import ApiRelease.Document.Yaml.Read
import ApiRelease.Report.Outcome
import ApiRelease.Rule.Catalogue
import ApiRelease.Rule.Decode
import ApiRelease.Rule.Phrasing

/-! # The report on the rules of a file

Each rule is shown with the pattern that says the same and the intent that the
pattern can be put into, both with the confidence of the step.
-/
namespace ApiRelease.Report

open Command

def ruleDocument (name text : String) : Except Fault Value :=
  if isYamlName name then Yaml.read text
  else if isTomlName name then Toml.read text
  else
    match Json.read? text with
    | some v => .ok v
    | none => .error .illFormed

def tables (vs : List Value) : List Fields :=
  vs.filterMap fun
    | .table fs => some fs
    | _ => none

/-- The rules in a document: a list, a table with a list of rules, or one rule. What
is not a table is passed over. -/
def ruleTables : Value → Except Fault (List Fields)
  | .list vs => .ok (tables vs)
  | .table fs =>
    match Fields.get fs "rules" with
    | .list vs => .ok (tables vs)
    | _ => .ok [fs]
  | _ => .error .notRules

def readRules (name text : String) : Except Fault (List Fields) := do
  ruleTables (← ruleDocument name text)

structure HigherForms where
  pattern : PatternRule
  intent : Option (String × Float)
  alternatives : Option (List String)

/-- A rule with what was found for it, or the reason why nothing was. -/
structure Explained where
  rule : Fields
  confidence : Option Float
  forms : Except String HigherForms

def places : Nat := 3

def higherForms (p : PatternRule) (alternatives : Option (List String)) : HigherForms where
  pattern := p
  intent := (Phrasing.intent? p).map fun phrased =>
    (phrased.intent.expression, Decimal.roundTo places phrased.confidence)
  alternatives := alternatives

def explainDimensional (fs : Fields) (r : DimensionalRule) : Explained :=
  match Catalogue.decompile? r with
  | none => ⟨fs, some 0, .error "no pattern matches this rule"⟩
  | some d =>
    ⟨fs, some (Decimal.roundTo places d.confidence),
      .ok (higherForms d.pattern (some (d.alternatives.map (·.template))))⟩

/-- The higher forms of the rule in a table. A rule that is incomplete or has a value
that is not allowed is explained by that. -/
def explain (fs : Fields) : Except Fault Explained :=
  match Rule.ofFields fs with
  | .ok (.dimensional r) => .ok (explainDimensional fs r)
  | .ok (.pattern p) => .ok ⟨fs, none, .ok (higherForms p none)⟩
  | .ok (.intent _) => .ok ⟨fs, none, .error "already an intent rule"⟩
  | .error f =>
    if f.sort = .absent ∨ f.sort = .malformed then .ok ⟨fs, none, .error f.message⟩ else .error f

namespace HigherForms

def toFields (h : HigherForms) : Fields :=
  let alternatives : Fields :=
    match h.alternatives with
    | some ts => [("alternatives", .texts ts)]
    | none => []
  let intent : Fields :=
    match h.intent with
    | some (expression, confidence) =>
      [("intent", .text expression), ("intent_confidence", .float confidence)]
    | none => []
  alternatives ++ ([("pattern", h.pattern.toValue)] : Fields) ++ intent

end HigherForms

namespace Explained

def failed (e : Explained) : Bool :=
  match e.forms with
  | .error _ => true
  | .ok _ => false

def toValue (e : Explained) : Value :=
  let confidence : Fields :=
    match e.confidence with
    | some x => [("confidence", .float x)]
    | none => []
  let found : Fields :=
    match e.forms with
    | .error reason => [("error", .text reason)]
    | .ok forms => forms.toFields
  .table (("rule", .table e.rule) :: (confidence ++ found))

def row (number : Nat) (e : Explained) : List Value :=
  .text (Scalar.showInt number) ::
    match e.forms with
    | .error reason => [.text ("✗ " ++ reason), .text "", .text "", .text ""]
    | .ok forms =>
      [.text forms.pattern.template, .text ((e.confidence.map (Decimal.fixed 2)).getD "-"),
       .text ((forms.intent.map (·.1)).getD "-"),
       .text (", ".intercalate (forms.alternatives.getD []))]

end Explained

def rulesTable (name : String) (es : List Explained) : Console.Table where
  title := "Decompiled rules (" ++ name ++ ")"
  columns := [⟨"#", .right⟩, ⟨"Pattern", .left⟩, ⟨"Confidence", .right⟩, ⟨"Intent", .left⟩,
    ⟨"Alternatives", .left⟩]
  rows := es.mapIdx fun i e => e.row (i + 1)

def rulesOutcome (d : Decompilation) (tables : List Fields) : Logged Outcome := do
  let explained ← (tables.mapM explain : Except Fault _)
  let output ←
    if d.json then do
      pure (.document (← Json.plain .asText (.list (explained.map Explained.toValue))))
    else do pure (.text (← (rulesTable d.rules explained).render))
  return ⟨if explained.any Explained.failed then 1 else 0, output, ""⟩

def rules (files : Files) (d : Decompilation) : Logged Outcome :=
  let unreadable (reason : String) : String := "cannot read " ++ d.rules ++ ": " ++ reason
  match files.read d.rules with
  | .error f => refused (unreadable f.message)
  | .ok text =>
    orRefuse [.illFormed, .malformed] (fun f => unreadable f.detail)
      (Traced.ofExcept (readRules d.rules text)) (rulesOutcome d)

end ApiRelease.Report
