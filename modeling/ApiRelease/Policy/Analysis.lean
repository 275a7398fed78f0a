import ApiRelease.Diff.Forest
import ApiRelease.Policy.Builtin

/-! # Two modules compared under a policy

The changes are found, classified with everything nested in them, and the most
severe release type is the release that the new module asks for.
-/
namespace ApiRelease

structure Analysis where
  policy : String
  release : String
  changes : List Change
  results : List Classified
  policyErrors : List String

namespace Analysis

def resultValue (r : Classified) : Value :=
  .table [("path", r.change.path), ("release_type", r.release),
    ("rule", (r.rule.map (·.name)).getD .null), ("descriptor", r.change.descriptor.toValue),
    ("explanation", r.change.explanation)]

def fieldsWith (a : Analysis) (changes : Value) : Fields :=
  [("policy", .text a.policy), ("release_type", .text a.release), ("changes", changes),
    ("results", .list (a.results.map resultValue)), ("policy_errors", .texts a.policyErrors)]

def toFields (a : Analysis) : Fields := a.fieldsWith (.list (Change.toValues a.changes))

def ofChanges (p : CompiledPolicy) (changes : List Change) : Analysis :=
  let results := p.classifyAll true changes
  { policy := p.name, release := overallRelease results, changes, results,
    policyErrors := p.errors }

def summary (a : Analysis) : Notice :=
  .info (a.policy ++ ": " ++ Scalar.showInt a.results.length ++ " changes, overall release " ++
    a.release)

def ofModules (old new : Module) (policy : Policy) (options : DiffOptions) (oracle : TypeOracle) :
    Comparing Analysis := do
  Traced.noteAll (policy.notices.map .log)
  let changes ← Diff.modules old new options oracle
  let a := ofChanges policy.compile changes
  Traced.note (.log a.summary)
  return a

end Analysis

end ApiRelease
