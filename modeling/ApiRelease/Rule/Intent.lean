import ApiRelease.Declaration.Kind
import ApiRelease.Rule.Basic
import ApiRelease.Text.Blank
import ApiRelease.Text.Case
import ApiRelease.Text.Distance

/-! # Intents read as patterns

An intent is one of a fixed set of phrases, perhaps followed by `when` or `unless`
and a condition. Conditions speak of nested members or, after `when`, of a kind of
declaration. Case and spacing do not matter.
-/
namespace ApiRelease.Intent

structure Phrase where
  text : String
  template : String
  target : Target

def phrases : List Phrase :=
  [⟨"breaking removal", "removed \x7btarget\x7d", .exportItem⟩,
   ⟨"export removal is breaking", "removed \x7btarget\x7d", .exportItem⟩,
   ⟨"member removal is breaking", "removed \x7btarget\x7d", .property⟩,
   ⟨"safe removal", "removed optional \x7btarget\x7d", .parameter⟩,
   ⟨"safe addition", "added optional \x7btarget\x7d", .parameter⟩,
   ⟨"optional addition is safe", "added optional \x7btarget\x7d", .parameter⟩,
   ⟨"required addition is breaking", "added required \x7btarget\x7d", .parameter⟩,
   ⟨"type narrowing is breaking", "\x7btarget\x7d type narrowed", .parameter⟩,
   ⟨"type widening is safe", "\x7btarget\x7d type widened", .parameter⟩,
   ⟨"type change is breaking", "modified \x7btarget\x7d", .exportItem⟩,
   ⟨"making optional is breaking", "\x7btarget\x7d made optional", .returnType⟩,
   ⟨"making required is breaking", "\x7btarget\x7d made required", .parameter⟩,
   ⟨"deprecation is patch", "\x7btarget\x7d deprecated", .exportItem⟩,
   ⟨"rename is breaking", "renamed \x7btarget\x7d", .exportItem⟩,
   ⟨"reorder is breaking", "reordered \x7btarget\x7d", .parameter⟩]

def phrase? (text : String) : Option Phrase := phrases.find? fun p => p.text == text

inductive Keyword where
  | when
  | unless
  deriving DecidableEq

def Keyword.name : Keyword → String
  | .when => "when"
  | .unless => "unless"

/-- Ways to say that a change lies inside a declaration. -/
def nestedConditions : List String := ["nested", "member", "members", "nested member"]

def isNestedCondition (condition : String) : Bool := nestedConditions.contains condition

def isNodeKind (s : String) : Bool := (Vocabulary.parse? s : Option NodeKind).isSome

/-- The text before the first keyword, the keyword and the text after it; `base`
holds what was passed, in reverse. -/
def splitCondition (base : List Char) : List Char → Option (List Char × Keyword × List Char)
  | [] => none
  | c :: rest =>
    if !base.isEmpty && " when ".toList.isPrefixOf (c :: rest) then
      some (base.reverse, .when, (c :: rest).drop 6)
    else if !base.isEmpty && " unless ".toList.isPrefixOf (c :: rest) then
      some (base.reverse, .unless, (c :: rest).drop 8)
    else splitCondition (c :: base) rest

structure Parts where
  base : String
  condition : Option (Keyword × String)

def normalize (expression : String) : String := Text.lower (Text.normalize expression)

def parts (expression : String) : Parts :=
  let text := normalize expression
  match splitCondition [] text.toList with
  | some (base, keyword, condition) =>
    ⟨String.ofList base, some (keyword, String.ofList condition)⟩
  | none => ⟨text, none⟩

def conditionError (keyword : Keyword) (condition : String) : Option String :=
  if isNestedCondition condition then none
  else
    match keyword with
    | .when =>
      if isNodeKind condition then none else some ("Unknown condition '" ++ condition ++ "'")
    | .unless =>
      some ("'unless' supports only the 'nested' condition, got '" ++ condition ++ "'")

def isValid (expression : String) : Bool :=
  let p := parts expression
  (phrase? p.base).isSome &&
    match p.condition with
    | none => true
    | some (keyword, condition) => (conditionError keyword condition).isNone

/-- The known phrases, the nearest first, then in alphabetic order. -/
def ranked (base : String) : List (Nat × String) :=
  (phrases.map fun p => (Text.editDistance base p.text, p.text)).mergeSort fun a b =>
    decide (a.1 < b.1) || (a.1 == b.1 && !decide (b.2 < a.2))

def sharedWords (a b : String) : Nat :=
  ((Text.words a).eraseDups.filter (Text.words b).contains).length

/-- The first `limit` entries; a negative limit leaves out that many at the end. -/
def upTo {α : Type} (limit : Int) (xs : List α) : List α :=
  if limit < 0 then xs.take (xs.length - limit.natAbs) else xs.take limit.toNat

/-- Known phrases close to an expression by distance, then those that share two of
its words; the condition of the expression is kept. -/
def suggestions (expression : String) (limit : Int) : List String :=
  let p := parts expression
  if p.base.isEmpty then []
  else
    let order := ranked p.base
    let near := order.filter fun r => r.1 ≤ max 3 (p.base.length / 2)
    let related := order.filter fun r => !near.contains r && 2 ≤ sharedWords p.base r.2
    let known := (near ++ related).map (·.2)
    let full :=
      match p.condition with
      | none => known
      | some (keyword, condition) => known.map fun k => k ++ " " ++ keyword.name ++ " " ++ condition
    upTo limit full

structure Reading where
  pattern : Option PatternRule
  errors : List String
  suggestions : List String

def Reading.failed (errors : List String) (suggestions : List String) : Reading :=
  ⟨none, errors, suggestions⟩

def Reading.notIntent : Reading := .failed ["Expected an intent rule"] []

def conditioned (p : Phrase) : Option (Keyword × String) → String × List PatternVariable
  | none => (p.template, [⟨"target", p.target.name, .target⟩])
  | some (keyword, condition) =>
    if isNestedCondition condition then
      (p.template ++ " " ++ keyword.name ++ " " ++ slot "condition",
        [⟨"target", p.target.name, .target⟩, ⟨"condition", "nested", .condition⟩])
    else
      (p.template ++ " for " ++ slot "nodeKind",
        [⟨"target", p.target.name, .target⟩, ⟨"nodeKind", condition, .nodeKind⟩])

def read (rule : IntentRule) : Reading :=
  if !isRelease rule.returns then
    .failed ["Unknown release type '" ++ releaseText rule.returns ++ "'"] []
  else
    let p := parts rule.expression
    match phrase? p.base with
    | none =>
      .failed ["Unrecognized intent expression '" ++ rule.expression ++ "'"]
        (suggestions rule.expression 3)
    | some phrase =>
      match p.condition.bind fun c => conditionError c.1 c.2 with
      | some error => .failed [error] []
      | none =>
        let (template, bindings) := conditioned phrase p.condition
        ⟨some { template, bindings, returns := rule.returns, description := rule.description }, [],
          []⟩

end ApiRelease.Intent
