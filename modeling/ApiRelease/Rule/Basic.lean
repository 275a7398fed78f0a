import ApiRelease.Change.Vocabulary
import ApiRelease.Document.Read

/-! # Rules at three levels

An intent is a phrase, a pattern a template with placeholders, a dimensional rule a
list of allowed values for each dimension of a change, where an empty list allows
everything. Rules are kept as they were given: whether a release type or a
dimension value exists is asked when a rule is put to use.
-/
namespace ApiRelease

/-- A placeholder as it stands in a template. -/
def slot (name : String) : String := "\x7b" ++ name ++ "\x7d"

inductive RuleLevel where
  | intent
  | pattern
  | dimensional
  deriving DecidableEq

def RuleLevel.name : RuleLevel → String
  | .intent => "intent"
  | .pattern => "pattern"
  | .dimensional => "dimensional"

def RuleLevel.rank : RuleLevel → Nat
  | .intent => 0
  | .pattern => 1
  | .dimensional => 2

def RuleLevel.parse? (s : String) : Option RuleLevel :=
  [RuleLevel.intent, .pattern, .dimensional].find? fun l => l.name == s

inductive VariableRole where
  | target
  | nodeKind
  | condition
  | pattern
  | other (given : Value)
  deriving DecidableEq

namespace VariableRole

def ofValue (v : Value) : VariableRole :=
  if v = .text "target" then .target
  else if v = .text "nodeKind" then .nodeKind
  else if v = .text "condition" then .condition
  else if v = .text "pattern" then .pattern
  else .other v

def toValue : VariableRole → Value
  | .target => .text "target"
  | .nodeKind => .text "nodeKind"
  | .condition => .text "condition"
  | .pattern => .text "pattern"
  | .other v => v

end VariableRole

/-- A placeholder and what stands for it. The name is most often a text; any other
scalar is put into a template as its text. -/
structure PatternVariable where
  name : Scalar
  value : String
  role : VariableRole
  deriving DecidableEq

structure IntentRule where
  expression : String
  returns : Option String
  description : Value
  deriving DecidableEq

structure PatternRule where
  template : String
  bindings : List PatternVariable
  returns : Option String
  description : Value
  deriving DecidableEq

structure DimensionalRule where
  returns : Option String
  action : List String
  target : List String
  aspect : List String
  impact : List String
  nodeKind : List String
  tags : List String
  notTags : List String
  nested : Option Bool
  description : Value
  deriving DecidableEq

inductive Rule where
  | intent (rule : IntentRule)
  | pattern (rule : PatternRule)
  | dimensional (rule : DimensionalRule)
  deriving DecidableEq

def PatternVariable.toValue (v : PatternVariable) : Value :=
  .table [("name", .scalar v.name), ("value", .text v.value), ("type", v.role.toValue)]

/-- Without the fields that hold nothing. -/
def dropNull (fs : Fields) : Fields := fs.filter fun f => !f.2.isNull

namespace IntentRule

def toValue (r : IntentRule) : Value :=
  .table (dropNull [("type", .text "intent"), ("expression", .text r.expression),
    ("returns", .ofOption r.returns), ("description", r.description)])

end IntentRule

namespace PatternRule

def toValue (r : PatternRule) : Value :=
  .table (dropNull [("type", .text "pattern"), ("template", .text r.template),
    ("variables", .list (r.bindings.map (·.toValue))), ("returns", .ofOption r.returns),
    ("description", r.description)])

def named? (r : PatternRule) (name : String) : Option PatternVariable :=
  r.bindings.find? fun v => v.name == .text name

def variableOf? (r : PatternRule) (role : VariableRole) : Option PatternVariable :=
  r.bindings.find? fun v => decide (v.role = role)

end PatternRule

/-- A list of values as a field, left out when it is empty. -/
def valuesField (key : String) (values : List String) : Fields :=
  if values.isEmpty then [] else [(key, .texts values)]

def nestedField (nested : Option Bool) : Fields :=
  match nested with
  | some b => [("nested", .bool b)]
  | none => []

namespace DimensionalRule

def anything (returns : Option String) (description : Value) : DimensionalRule :=
  { returns, action := [], target := [], aspect := [], impact := [], nodeKind := [], tags := [],
    notTags := [], nested := none, description }

def dimensionFields (r : DimensionalRule) : Fields :=
  valuesField "action" r.action ++ valuesField "target" r.target ++ valuesField "aspect" r.aspect ++
    valuesField "impact" r.impact ++ valuesField "node_kind" r.nodeKind ++
    valuesField "tags" r.tags ++ valuesField "not_tags" r.notTags ++ nestedField r.nested

def toValue (r : DimensionalRule) : Value :=
  .table (("type", .text "dimensional") :: (r.dimensionFields ++
    ([("returns", .ofOption r.returns)] : Fields) ++ dropNull [("description", r.description)]))

end DimensionalRule

namespace Rule

def level : Rule → RuleLevel
  | .intent _ => .intent
  | .pattern _ => .pattern
  | .dimensional _ => .dimensional

def returns : Rule → Option String
  | .intent r => r.returns
  | .pattern r => r.returns
  | .dimensional r => r.returns

def description : Rule → Value
  | .intent r => r.description
  | .pattern r => r.description
  | .dimensional r => r.description

def toValue : Rule → Value
  | .intent r => r.toValue
  | .pattern r => r.toValue
  | .dimensional r => r.toValue

end Rule

def isRelease (returns : Option String) : Bool := returns.any Release.isName

/-- A release type in a message; an absent one is called `None`. -/
def releaseText (returns : Option String) : String := returns.getD "None"

end ApiRelease
