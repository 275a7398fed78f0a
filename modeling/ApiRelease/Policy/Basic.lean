import ApiRelease.Policy.Conditions
import ApiRelease.Rule.Level

/-! # Policies

A policy is an ordered list of rules with a release type for the changes that no
rule speaks of. Its rules may be matchers already or rules at any level; compiling
turns each into a matcher or a reason why it is left out.
-/
namespace ApiRelease

structure Matcher extends Conditions where
  name : Value
  returns : String
  rationale : Value
  deriving DecidableEq

def Matcher.toValue (m : Matcher) : Value :=
  let rationale : Fields := if m.rationale.truthy then [("rationale", m.rationale)] else []
  .table (("name", m.name) ::
    (m.toConditions.toFields ++ ([("returns", .text m.returns)] : Fields) ++ rationale))

inductive PolicyEntry where
  | matcher (m : Matcher)
  | rule (r : Rule)
  /-- a place that nothing was put in -/
  | absent

namespace PolicyEntry

def toValue : PolicyEntry → Value
  | .matcher m => m.toValue
  | .rule r => r.toValue
  | .absent => .null

/-- Reading a field of an empty place is a fault. -/
def document : PolicyEntry → Except Fault Value
  | .absent => .error (.noField Value.null.kindName)
  | e => .ok e.toValue

end PolicyEntry

structure Policy where
  name : String
  rules : List PolicyEntry
  default : String
  description : Option String

/-- A policy whose rules are all matchers, with the reasons for those left out. -/
structure CompiledPolicy where
  name : String
  rules : List Matcher
  default : String
  description : Option String
  errors : List String

namespace Policy

def toValue (p : Policy) : Except Fault Value := do
  let rules ← p.rules.mapM (·.document)
  return .table (dropNull [("name", .text p.name), ("description", .ofOption p.description),
    ("default", .text p.default), ("rules", .list rules)])

/-- The name of the rule at a place: what describes it, else what it says, else its
number. -/
def ruleName (index : Nat) : Rule → Value
  | .intent r => r.description.orElse (.text r.expression)
  | .pattern r => r.description.orElse (.text r.template)
  | .dimensional r => r.description.orElse (.text ("rule-" ++ Scalar.showInt (index + 1)))

/-- The dimensions of a rule at any level, or why they cannot be told. -/
def dimensionsOf : Rule → Except String DimensionalRule
  | .intent r =>
    let reading := Intent.read r
    match reading.pattern with
    | none => .error ("; ".intercalate reading.errors)
    | some p => compilePattern p
  | .pattern r => compilePattern r
  | .dimensional r => .ok r
where
  compilePattern (p : PatternRule) : Except String DimensionalRule :=
    let compiled := Pattern.compile p
    match compiled.dimensional with
    | none => .error ("; ".intercalate compiled.errors)
    | some d => .ok d

/-- The matcher that a dimensional rule is; its tags are alternatives. -/
def matcherOf (d : DimensionalRule) (returns : String) (name rationale : Value) : Matcher where
  action := d.action
  target := d.target
  aspect := d.aspect
  impact := d.impact
  nodeKind := d.nodeKind
  tags := []
  notTags := d.notTags
  anyTags := d.tags
  nested := d.nested
  name := name
  returns := returns
  rationale := rationale

def compileRule (index : Nat) (r : Rule) : Except String Matcher :=
  let name := ruleName index r
  match dimensionsOf r with
  | .error reason => .error (name.toText ++ ": " ++ reason)
  | .ok d =>
    match d.returns with
    | none => .error (name.toText ++ ": rule has no release type")
    | some returns => .ok (matcherOf d returns name r.description)

def compileEntry (index : Nat) : PolicyEntry → Except String Matcher
  | .matcher m => .ok m
  | .rule r => compileRule index r
  | .absent =>
    .error ("rule-" ++ Scalar.showInt (index + 1) ++ ": unsupported rule type " ++
      Value.null.kindName)

def compileEntries (index : Nat) : List PolicyEntry → List (Except String Matcher)
  | [] => []
  | e :: rest => compileEntry index e :: compileEntries (index + 1) rest

def matcher? : Except String Matcher → Option Matcher
  | .ok m => some m
  | .error _ => none

def reason? : Except String Matcher → Option String
  | .ok _ => none
  | .error reason => some reason

/-- Compiles every rule; those that cannot be compiled are left out and reported. -/
def compile (p : Policy) : CompiledPolicy where
  name := p.name
  rules := (compileEntries 0 p.rules).filterMap matcher?
  default := p.default
  description := p.description
  errors := (compileEntries 0 p.rules).filterMap reason?

def patternOf? : PolicyEntry → Option PatternRule
  | .rule (.intent r) => (Intent.read r).pattern
  | .rule (.pattern r) => some r
  | _ => none

def entryNotices (policy : String) (index : Nat) (e : PolicyEntry) : List Notice :=
  ((patternOf? e).map Pattern.notices).getD [] ++
    match compileEntry index e with
    | .ok _ => []
    | .error reason => [.warning ("Policy '" ++ policy ++ "': skipping rule " ++ reason)]

def noticesFrom (policy : String) (index : Nat) : List PolicyEntry → List Notice
  | [] => []
  | e :: rest => entryNotices policy index e ++ noticesFrom policy (index + 1) rest

def notices (p : Policy) : List Notice := noticesFrom p.name 0 p.rules

end Policy

namespace CompiledPolicy

def toValue (p : CompiledPolicy) : Value :=
  .table [("name", .text p.name), ("description", .ofOption p.description),
    ("default", .text p.default), ("rules", .list (p.rules.map (·.toValue))),
    ("errors", .texts p.errors)]

/-- The first rule that a change meets. -/
def matching? (p : CompiledPolicy) (c : Change) : Option Matcher :=
  p.rules.find? fun m => m.holdFor c.toFinding

/-- The release type of a change: that of the first rule it meets, else the default. -/
def classify (p : CompiledPolicy) (c : Change) : Classified :=
  match p.matching? c with
  | some m => ⟨c, .text m.returns, some ⟨m.name, m.rationale⟩⟩
  | none => ⟨c, .text p.default, none⟩

/-- Classifies a list of changes, with the nested ones or without. -/
def classifyAll (p : CompiledPolicy) (flatten : Bool) (cs : List Change) : List Classified :=
  (if flatten then Change.flattenAll cs else cs).map p.classify

end CompiledPolicy

def overallRelease (rs : List Classified) : String :=
  Release.mostSevere (rs.map fun r => r.release.toText)

end ApiRelease
