import ApiRelease.Report.Changes
import ApiRelease.Report.Policies
import ApiRelease.Report.Rules

/-! # Obeying a command line -/
namespace ApiRelease.Command

open Report

def versionText : String := "semver-impact, version 0.1.0\n"

def helpText : String :=
  "Usage: semver-impact [--version] [--verbose] [--quiet] COMMAND\n\n" ++
  "Commands:\n" ++
  "  diff OLD NEW [--policy FILE] [--builtin NAME] [--json] [--fail-on RELEASE]\n" ++
  "  decompile RULES [--json]\n" ++
  "  policies [NAME] [--file FILE] [--json]\n"

def Request.run (files : Files) : Request → Logged Outcome
  | .version => pure (printed versionText)
  | .help => pure (printed helpText)
  | .compare c => changes files c
  | .decompile d => rules files d
  | .inspect i => policies files i

def Invocation.run (files : Files) (i : Invocation) : Logged Outcome :=
  let run := i.request.run files
  ⟨Notice.shown i.level run.notes, run.result⟩

end ApiRelease.Command
