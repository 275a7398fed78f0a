import ApiRelease.Command.Request
import ApiRelease.Document.Json.Plain
import ApiRelease.Policy.Builtin
import ApiRelease.Policy.Config
import ApiRelease.Report.Outcome

/-! # The report on policies

Without a name the built-in policies are listed; with one, or with a file, the rules
of that policy in the order in which they are tried.
-/
namespace ApiRelease.Report

open Command

def orBlank (v : Value) : Value := v.orElse (.text "")

def builtinTable : Console.Table where
  title := "Built-in policies"
  columns := [⟨"Name", .left⟩, ⟨"Rules", .right⟩, ⟨"Default", .left⟩, ⟨"Description", .left⟩]
  rows := Policy.builtins.map fun p =>
    [.text p.name, .text (Scalar.showInt p.rules.length), .text p.default,
     .text (p.description.getD "")]

def conditionText (field : Scalar × Value) : String :=
  let shown :=
    match field.2 with
    | .list vs => ",".intercalate (vs.map Value.toText)
    | v => v.toText
  field.1.toText ++ "=" ++ shown

/-- What a rule asks for; a star when it takes everything. -/
def conditionsText (c : Conditions) : String :=
  let conditions := c.toFields.map conditionText
  if conditions.isEmpty then "*" else "; ".intercalate conditions

def ruleRow (number : Nat) (m : Matcher) : List Value :=
  [.text (Scalar.showInt number), m.name, .text (conditionsText m.toConditions), .text m.returns,
   orBlank m.rationale]

def policyTable (p : CompiledPolicy) : Console.Table where
  title := p.name ++ " (default: " ++ p.default ++ ")"
  columns := [⟨"#", .right⟩, ⟨"Rule", .left⟩, ⟨"Matches", .left⟩, ⟨"Returns", .left⟩,
    ⟨"Rationale", .left⟩]
  rows := p.rules.mapIdx fun i m => ruleRow (i + 1) m

def builtinList (json : Bool) : Logged Outcome :=
  if json then do
    Traced.noteAll (Policy.builtins.flatMap Policy.notices)
    return .document (.list (Policy.builtins.map fun p => p.compile.toValue))
  else do return printed (← builtinTable.render)

def onePolicy (json : Bool) (p : Policy) : Logged Outcome := do
  Traced.noteAll p.notices
  let compiled := p.compile
  if json then return .document (← Json.plain .refused compiled.toValue)
  let shown ← (policyTable compiled).render
  let messages ← Console.lines (compiled.errors.map ("⚠ Skipped rule: " ++ ·))
  return ⟨0, .text shown, messages⟩

def chosenPolicy (files : Files) (name : String) : Option String → Logged Policy
  | some file => do return (← PolicyConfig.load files file).policy
  | none => do Policy.builtin name

def policies (files : Files) (i : Inspection) : Logged Outcome :=
  match i.name, i.policyFile with
  | none, none => builtinList i.json
  | name, file =>
    orRefuse [.absent, .unreadablePolicy] Fault.detail (chosenPolicy files (name.getD "") file)
      (onePolicy i.json)

end ApiRelease.Report
