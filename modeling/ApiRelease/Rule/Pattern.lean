import ApiRelease.Rule.Intent
import ApiRelease.Text.Search

/-! # Patterns compiled to dimensions

The wording of a template, with its variables filled in, says what happened and in
which direction; the variables say to what. Only the wording gives an impact: the
release type of a rule never does.
-/
namespace ApiRelease.Pattern

/-- Fills in the variables, the one called `pattern` before the others. -/
def expand (template : String) (bindings : List PatternVariable) : String :=
  let fill (s : String) (v : PatternVariable) : String := Text.replaceAll s (slot v.name.toText) v.value
  let s := (bindings.filter fun v => v.name == .text "pattern").foldl fill template
  (bindings.filter fun v => v.name != .text "pattern").foldl fill s

/-- Words in a template that say which aspect changed and how. -/
def aspectPhrases : List (String × Aspect × Impact) :=
  [(" type narrowed", .type, .narrowing), (" type widened", .type, .widening),
   (" made optional", .optionality, .widening), (" made required", .optionality, .narrowing),
   (" undeprecated", .deprecation, .narrowing), (" deprecated", .deprecation, .widening)]

def leadingAction? (s : String) : Option Action :=
  [Action.added, .removed, .renamed, .reordered, .modified].find? fun a =>
    Text.startsWith s (a.name ++ " ")

def leadingTag? (s : String) : Option Tag :=
  if Text.startsWith s "added required " then some .nowRequired
  else if Text.startsWith s "added optional " then some .nowOptional
  else if Text.startsWith s "removed optional " then some .wasOptional
  else none

structure Meaning where
  action : Option Action
  aspect : Option Aspect
  impact : Option Impact
  target : Option String
  nodeKind : Option String
  tag : Option Tag
  keyword : Option Intent.Keyword
  condition : Option String
  nested : Option Bool

def keyword? (template : String) : Option Intent.Keyword :=
  if Text.contains template " when " then some .when
  else if Text.contains template " unless " then some .unless
  else none

def valueOf? (bindings : List PatternVariable) (role : VariableRole) : Option String :=
  (bindings.find? fun v => decide (v.role = role)).map (·.value)

def plainCondition (condition : String) : String := Text.lower (Text.trim condition)

/-- An empty text counts as absent. -/
def nonEmpty (s : Option String) : Option String := s.filter fun t => !t.isEmpty

def meaning (template : String) (bindings : List PatternVariable) : Meaning :=
  let expanded := expand template bindings
  let phrase := aspectPhrases.find? fun p => Text.contains expanded p.1
  let action :=
    match leadingAction? expanded with
    | some a => some a
    | none => phrase.map fun _ => .modified
  let keyword := keyword? template
  let condition := valueOf? bindings .condition
  let plain := plainCondition ((nonEmpty condition).getD "nested")
  let nodeKind := valueOf? bindings .nodeKind
  { action, keyword, condition,
    aspect := phrase.map (·.2.1)
    impact := phrase.map (·.2.2)
    target := valueOf? bindings .target
    nodeKind :=
      if keyword = some .when ∧ !Intent.isNestedCondition plain ∧ Intent.isNodeKind plain then
        some ((nonEmpty nodeKind).getD plain)
      else nodeKind
    tag := leadingTag? expanded
    nested :=
      if Intent.isNestedCondition plain then keyword.map fun k => decide (k = .when) else none }

def dimensions (m : Meaning) (returns : Option String) (description : Value) : DimensionalRule where
  returns := returns
  action := (m.action.map Action.name).toList
  target := (nonEmpty m.target).toList
  aspect := (m.aspect.map Aspect.name).toList
  impact := (m.impact.map Impact.name).toList
  nodeKind := (nonEmpty m.nodeKind).toList
  tags := (m.tag.map Tag.name).toList
  notTags := []
  nested := m.nested
  description := description

/-- Names between braces, from left to right. The fuel is the length of the text. -/
def placeholdersFrom : Nat → List Char → List (List Char)
  | 0, _ => []
  | _ + 1, [] => []
  | fuel + 1, c :: rest =>
    if c == '\x7b' then
      let body := rest.takeWhile (· != '\x7d')
      let after := rest.dropWhile (· != '\x7d')
      if body.isEmpty || after.isEmpty then placeholdersFrom fuel rest
      else body :: placeholdersFrom fuel (after.drop 1)
    else placeholdersFrom fuel rest

def placeholders (s : String) : List String :=
  (placeholdersFrom s.length s.toList).map String.ofList

structure Compiled where
  dimensional : Option DimensionalRule
  errors : List String
  warnings : List String

def Compiled.notPattern : Compiled := ⟨none, ["Expected a pattern rule"], []⟩

def isTarget (s : String) : Bool := (Vocabulary.parse? s : Option Target).isSome

def errorsOf (r : PatternRule) (m : Meaning) : List String :=
  (if isRelease r.returns then [] else ["Unknown release type '" ++ releaseText r.returns ++ "'"]) ++
  (match m.target with
    | some t => if isTarget t then [] else ["Unknown target '" ++ t ++ "'"]
    | none => []) ++
  (match m.nodeKind with
    | some k => if Intent.isNodeKind k then [] else ["Unknown node kind '" ++ k ++ "'"]
    | none => []) ++
  (if m.action.isSome || m.aspect.isSome || (nonEmpty m.target).isSome then []
    else ["Pattern must specify at least one dimension (action, aspect, or target)"])

def warningsOf (r : PatternRule) (m : Meaning) : List String :=
  (match m.keyword, m.nested with
    | some k, none =>
      if k = .when ∧ Intent.isNodeKind (plainCondition (m.condition.getD "")) then []
      else ["Condition '" ++ k.name ++ " " ++ m.condition.getD "None" ++
        "' has no dimensional form and was ignored"]
    | _, _ => []) ++
  ((placeholders (expand r.template r.bindings)).filter fun n =>
    n != "target" && n != "condition").map fun n => "Placeholder '" ++ slot n ++ "' has no variable"

def compile (r : PatternRule) : Compiled :=
  let m := meaning r.template r.bindings
  let errors := errorsOf r m
  let warnings := warningsOf r m
  if errors.isEmpty then ⟨some (dimensions m r.returns r.description), [], warnings⟩
  else ⟨none, errors, warnings⟩

/-- What a pattern constrains, whether or not the values exist. -/
def constraints (r : PatternRule) : Fields :=
  let d := dimensions (meaning r.template r.bindings) r.returns .null
  ("returns", .ofOption r.returns) :: d.dimensionFields

def endings : List String :=
  ["type narrowed", "type widened", "made optional", "made required", "deprecated", "undeprecated"]

def endsInPhrase (cs : List Char) : Bool :=
  endings.any fun e =>
    e.toList.isSuffixOf cs &&
      ((cs.take (cs.length - e.length)).getLast?.map Text.isBlank).getD false

/-- It begins with an action, ends in a known phrase or has a placeholder. One line
end after the phrase does no harm. -/
def isTemplate (s : String) : Bool :=
  let cs := s.toList
  ([Action.added, .removed, .renamed, .reordered, .modified].any fun a =>
    Text.startsWith s a.name && (((cs.drop a.name.length).head?).map Text.isBlank).getD false) ||
  endsInPhrase cs || (cs.getLast? == some '\n' && endsInPhrase cs.dropLast) ||
  !(placeholders s).isEmpty

end ApiRelease.Pattern
