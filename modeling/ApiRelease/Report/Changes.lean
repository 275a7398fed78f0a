import ApiRelease.Command.Request
import ApiRelease.Declaration.Load
import ApiRelease.Document.Json.Plain
import ApiRelease.Policy.Analysis
import ApiRelease.Policy.Config
import ApiRelease.Report.Outcome

/-! # The report on two modules

The report lists every change with its release type, then the rules of the policy
that were skipped, then the release that the new module asks for. Problems with the
modules themselves are told beside it.
-/
namespace ApiRelease.Report

open Command

structure Sources where
  policy : Policy
  options : DiffOptions
  old : Module
  new : Module

def loadSources (files : Files) (c : Comparison) : Logged Sources := do
  let (policy, options) ←
    match c.policyFile with
    | some name => do
      let config ← PolicyConfig.load files name
      pure (config.policy, config.options)
    | none => do pure (← Policy.builtin c.builtin, DiffOptions.standard)
  let old ← Module.load files c.old
  let new ← Module.load files c.new
  return { policy, options, old, new }

structure Findings where
  analysis : Analysis
  oldErrors : List String
  newErrors : List String

def findings (s : Sources) : Logged Findings :=
  let run := Analysis.ofModules s.old s.new s.policy s.options TypeText.heuristic
  ⟨run.notes.filterMap Remark.notice?, run.result.map fun analysis =>
    { analysis,
      oldErrors := (Diff.withProblems .old run.notes s.old).errors,
      newErrors := (Diff.withProblems .new run.notes s.new).errors }⟩

namespace Findings

def toValue (f : Findings) : Value :=
  let errors : Value := .table [("old", .texts f.oldErrors), ("new", .texts f.newErrors)]
  .table (f.analysis.toFields ++ ([("errors", errors)] : Fields))

def changeText (d : Descriptor) : String :=
  d.target.name ++ " " ++ d.effect.action.name ++
    match d.aspectName?, d.impactName? with
    | some aspect, some impact => " (" ++ aspect ++ ", " ++ impact ++ ")"
    | _, _ => ""

def row (r : Classified) : List Value :=
  [.text (Text.upper r.release.toText), r.change.path, .text (changeText r.change.descriptor),
   (r.rule.map (·.name)).getD (.text "default"), r.change.explanation]

def table (a : Analysis) : Console.Table where
  title := "API changes (" ++ a.policy ++ ")"
  columns := [⟨"Release", .left⟩, ⟨"Path", .left⟩, ⟨"Change", .left⟩, ⟨"Rule", .left⟩,
    ⟨"Explanation", .left⟩]
  rows := a.results.map row

def text (a : Analysis) : Except Fault String := do
  let changes ←
    if a.results.isEmpty then Console.line "No API changes detected." else (table a).render
  let rest ← Console.lines (a.policyErrors.map ("⚠ Skipped policy rule: " ++ ·) ++
    ["Overall release: " ++ a.release])
  return changes ++ rest

def problemLines (f : Findings) : List String :=
  f.oldErrors.map ("old: " ++ ·) ++ f.newErrors.map ("new: " ++ ·)

/-- The release is at least as severe as the one that must not be reached. -/
def reaches (f : Findings) (limit : Option Release) : Bool :=
  (limit.map fun r => decide (r.severity ≤ Release.severityOf f.analysis.release)).getD false

def limitLines (f : Findings) (limit : Option Release) : List String :=
  match limit with
  | some r =>
    if f.reaches limit then
      ["✗ Release type " ++ f.analysis.release ++ " meets --fail-on " ++ r.name]
    else []
  | none => []

def outcome (f : Findings) (c : Comparison) : Except Fault Outcome :=
  let status := if f.reaches c.failOn then 1 else 0
  if c.json then do return ⟨status, .document (← Json.plain .asText f.toValue), ""⟩
  else do
    let shown ← text f.analysis
    let messages ← Console.lines (f.problemLines ++ f.limitLines c.failOn)
    return ⟨status, .text shown, messages⟩

end Findings

def sourceFaults : List FaultSort :=
  [.absent, .invalidDescriptor, .unreadablePolicy, .unreadableModule]

def changes (files : Files) (c : Comparison) : Logged Outcome :=
  orRefuse sourceFaults Fault.message (loadSources files c) fun s => do
    (← findings s).outcome c

end ApiRelease.Report
