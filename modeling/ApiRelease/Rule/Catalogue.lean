import ApiRelease.Likeness
import ApiRelease.Rule.Pattern

/-! # Dimensional rules read back as patterns

The catalogue lists templates with the dimension values that they express. Each
entry that a rule satisfies is scored, and the best one gives the pattern. A rule
that satisfies no entry gets a template by its first action alone.
-/
namespace ApiRelease.Catalogue

structure Entry where
  template : String
  priority : Nat
  description : String
  action : Action
  aspect : Option Aspect := none
  impact : Option Impact := none
  tag : Option Tag := none
  /-- an impact that the rule lists if it lists any -/
  expectedImpact : Option Impact := none
  /-- only for rules about nested members -/
  nested : Bool := false

def entries : List Entry :=
  [{ template := "added required \x7btarget\x7d", priority := 10,
     description := "Adding a required element", action := .added, impact := some .narrowing },
   { template := "added optional \x7btarget\x7d", priority := 10,
     description := "Adding an optional element", action := .added, impact := some .widening },
   { template := "removed optional \x7btarget\x7d", priority := 10,
     description := "Removing an optional element", action := .removed, impact := some .widening },
   { template := "added required \x7btarget\x7d", priority := 10,
     description := "Adding a required element", action := .added, tag := some .nowRequired },
   { template := "added optional \x7btarget\x7d", priority := 10,
     description := "Adding an optional element", action := .added, tag := some .nowOptional },
   { template := "removed optional \x7btarget\x7d", priority := 10,
     description := "Removing an optional element", action := .removed, tag := some .wasOptional },
   { template := "\x7btarget\x7d type narrowed", priority := 9,
     description := "Type became more restrictive", action := .modified, aspect := some .type,
     impact := some .narrowing },
   { template := "\x7btarget\x7d type widened", priority := 9,
     description := "Type became less restrictive", action := .modified, aspect := some .type,
     impact := some .widening },
   { template := "\x7btarget\x7d made optional", priority := 9,
     description := "Changed from required to optional", action := .modified,
     aspect := some .optionality, impact := some .widening },
   { template := "\x7btarget\x7d made required", priority := 9,
     description := "Changed from optional to required", action := .modified,
     aspect := some .optionality, impact := some .narrowing },
   { template := "\x7btarget\x7d deprecated", priority := 8,
     description := "Element was marked as deprecated", action := .modified,
     aspect := some .deprecation, expectedImpact := some .widening },
   { template := "\x7btarget\x7d undeprecated", priority := 8,
     description := "Deprecation was removed", action := .modified,
     aspect := some .deprecation, expectedImpact := some .narrowing },
   { template := "removed \x7btarget\x7d when \x7bcondition\x7d", priority := 6,
     description := "Nested member was removed", action := .removed, nested := true },
   { template := "added \x7btarget\x7d when \x7bcondition\x7d", priority := 6,
     description := "Nested member was added", action := .added, nested := true },
   { template := "added \x7btarget\x7d", priority := 5, description := "Element was added",
     action := .added },
   { template := "removed \x7btarget\x7d", priority := 5, description := "Element was removed",
     action := .removed },
   { template := "renamed \x7btarget\x7d", priority := 5, description := "Element was renamed",
     action := .renamed },
   { template := "reordered \x7btarget\x7d", priority := 5, description := "Element order changed",
     action := .reordered },
   { template := "modified \x7btarget\x7d", priority := 3, description := "Element was modified",
     action := .modified }]

/-- A wanted value is listed; where none is wanted, anything will do. -/
def lists (values : List String) (wanted : Option String) : Bool :=
  match wanted with
  | none => true
  | some w => values.contains w

namespace Entry

def satisfiedBy (e : Entry) (r : DimensionalRule) : Bool :=
  r.action.contains e.action.name && lists r.aspect (e.aspect.map Aspect.name) &&
    lists r.impact (e.impact.map Impact.name) && lists r.tags (e.tag.map Tag.name) &&
    (!e.nested || r.nested == some true) &&
    (r.impact.isEmpty || lists r.impact (e.expectedImpact.map Impact.name))

/-- How many dimensions of the rule the entry speaks of. -/
def captured (e : Entry) (r : DimensionalRule) : Nat :=
  1 + e.aspect.toList.length + e.impact.toList.length + e.tag.toList.length +
    (if e.nested && r.nested == some true then 1 else 0) +
    (if e.expectedImpact.isSome && !r.impact.isEmpty then 1 else 0)

end Entry

def populated (r : DimensionalRule) : Nat :=
  ([r.action, r.aspect, r.impact, r.target, r.nodeKind, r.tags].filter fun vs => !vs.isEmpty).length +
    (if r.nested == some true then 1 else 0)

def atMostOne (x : Float) : Float := if x < Likeness.one then x else Likeness.one

def bonus (earned : Bool) (amount score : Float) : Float := if earned then score + amount else score

/-- The priority counts four tenths, the share of the rule that is captured three,
an aspect and an impact one each, and nesting half a one. -/
def score (r : DimensionalRule) (e : Entry) : Float :=
  let base : Float := Scale.ratio e.priority 10 * Scale.ratio 4 10
  let share : Float := atMostOne (Scale.ratio (e.captured r) (populated r)) * Scale.ratio 3 10
  atMostOne (bonus (e.nested && r.nested == some true) (Scale.ratio 5 100)
    (bonus e.impact.isSome (Scale.ratio 1 10)
      (bonus e.aspect.isSome (Scale.ratio 1 10) (bonus (populated r != 0) share base))))

/-- Keeps the first entry of each template. -/
def firstOfTemplate : List (Entry × Float) → List (Entry × Float)
  | [] => []
  | s :: rest => s :: (firstOfTemplate rest).filter fun t => t.1.template != s.1.template

/-- The satisfied entries by falling score, one for each template; entries of one
score stay in the order of the catalogue. -/
def ranking (r : DimensionalRule) : List (Entry × Float) :=
  firstOfTemplate
    (((entries.filter (·.satisfiedBy r)).map fun e => (e, score r e)).mergeSort fun a b =>
      decide (b.2 ≤ a.2))

def variablesFor (r : DimensionalRule) (template : String) : List PatternVariable :=
  (if Text.contains template (slot "target") then
    [⟨"target", r.target.headD Target.exportItem.name, .target⟩] else []) ++
  (match r.nodeKind with
    | kind :: _ => [⟨"nodeKind", kind, .nodeKind⟩]
    | [] => []) ++
  (if Text.contains template ("when " ++ slot "condition") && r.nested == some true then
    [⟨"condition", "nested", .condition⟩] else [])

/-- The pattern for a rule; the rule's own description counts more than the given one. -/
def patternFor (r : DimensionalRule) (template description : String) : PatternRule where
  template := template
  bindings := variablesFor r template
  returns := r.returns
  description := r.description.orElse (.text description)

structure Decompiled where
  pattern : PatternRule
  confidence : Float
  alternatives : List PatternRule

def actionTemplate (action : String) : String :=
  match (Vocabulary.parse? action : Option Action) with
  | some a => a.name ++ " " ++ slot "target"
  | none => Action.modified.name ++ " " ++ slot "target"

def fallback (r : DimensionalRule) : Decompiled :=
  match r.action with
  | action :: _ =>
    ⟨patternFor r (actionTemplate action) ("Generic " ++ action ++ " pattern"), Scale.ratio 3 10, []⟩
  | [] =>
    ⟨patternFor r (Action.modified.name ++ " " ++ slot "target") "Unspecified modification",
      Scale.ratio 2 10, []⟩

def entryPattern (r : DimensionalRule) (s : Entry × Float) : PatternRule :=
  patternFor r s.1.template s.1.description

/-- The pattern that expresses a rule best, with up to three more that do well. Only a
rule with a release type has one. -/
def decompile? (r : DimensionalRule) : Option Decompiled :=
  if !isRelease r.returns then none
  else
    match ranking r with
    | [] => some (fallback r)
    | best :: rest =>
      if best.2 < Scale.ratio 3 10 then some (fallback r)
      else
        some ⟨entryPattern r best, best.2,
          ((rest.filter fun s => decide ((Scale.ratio 4 10 : Float) < s.2)).map
            (entryPattern r)).take 3⟩

end ApiRelease.Catalogue
