import ApiRelease.Likeness
import ApiRelease.Rule.Pattern

/-! # Patterns put into words

A known template has one or more phrases, some of them only for one target. A
template with a condition borrows the phrases of the template under it, at a lower
score. Any other template is put into words by its release type and its own wording.
-/
namespace ApiRelease.Phrasing

/-- A phrase for a template, good for one target or for all of them. The score is
counted in hundredths. -/
structure Phrase where
  expression : String
  hundredths : Nat
  target : Option Target

def phraseTable : List (String × List Phrase) :=
  [("removed \x7btarget\x7d",
    [⟨"breaking removal", 100, some .exportItem⟩,
     ⟨"export removal is breaking", 100, some .exportItem⟩,
     ⟨"member removal is breaking", 100, some .property⟩,
     ⟨"breaking removal", 80, none⟩]),
   ("removed optional \x7btarget\x7d",
    [⟨"safe removal", 100, some .parameter⟩, ⟨"optional addition is safe", 70, none⟩]),
   ("added optional \x7btarget\x7d",
    [⟨"safe addition", 100, some .parameter⟩, ⟨"optional addition is safe", 100, some .parameter⟩,
     ⟨"safe addition", 80, none⟩]),
   ("added required \x7btarget\x7d",
    [⟨"required addition is breaking", 100, some .parameter⟩,
     ⟨"required addition is breaking", 90, none⟩]),
   ("\x7btarget\x7d type narrowed",
    [⟨"type narrowing is breaking", 100, some .parameter⟩, ⟨"type narrowing is breaking", 90, none⟩]),
   ("\x7btarget\x7d type widened",
    [⟨"type widening is safe", 100, some .parameter⟩, ⟨"type widening is safe", 90, none⟩]),
   ("modified \x7btarget\x7d",
    [⟨"type change is breaking", 90, some .exportItem⟩, ⟨"type change is breaking", 70, none⟩]),
   ("\x7btarget\x7d made optional",
    [⟨"making optional is breaking", 100, some .returnType⟩,
     ⟨"making optional is breaking", 90, none⟩]),
   ("\x7btarget\x7d made required",
    [⟨"making required is breaking", 100, some .parameter⟩,
     ⟨"making required is breaking", 90, none⟩]),
   ("\x7btarget\x7d deprecated",
    [⟨"deprecation is patch", 100, some .exportItem⟩, ⟨"deprecation is patch", 95, none⟩]),
   ("renamed \x7btarget\x7d",
    [⟨"rename is breaking", 100, some .exportItem⟩, ⟨"rename is breaking", 95, none⟩]),
   ("reordered \x7btarget\x7d",
    [⟨"reorder is breaking", 100, some .parameter⟩, ⟨"reorder is breaking", 90, none⟩])]

def phrasesFor (template : String) : List Phrase := (phraseTable.lookup template).getD []

/-- The value of a variable; of several of one name the last counts. -/
def lastValue? (bindings : List PatternVariable) (name : String) : Option String :=
  (bindings.reverse.find? fun v => v.name == .text name).map (·.value)

def Phrase.fits (bindings : List PatternVariable) (p : Phrase) : Bool :=
  match p.target with
  | none => true
  | some t => lastValue? bindings "target" == some t.name

/-- The phrases that fit, the best first, those of one score in the order of the table. -/
def fitting (template : String) (bindings : List PatternVariable) : List Phrase :=
  ((phrasesFor template).filter (Phrase.fits bindings)).mergeSort fun a b =>
    decide (b.hundredths ≤ a.hundredths)

def hundredths (n : Nat) : Float := Scale.ratio n 100

/-- A template that restricts another one, with the factor that this costs. -/
structure Restricted where
  base : String
  keyword : Intent.Keyword
  condition : String
  factor : Float

/-- What stands before `ending` at the end of a text, if it is one non-empty line. A
line end after the ending does no harm. -/
def beforeEnding? (s ending : String) : Option String :=
  let before? (cs : List Char) : Option String :=
    if ending.toList.isSuffixOf cs then
      let base := cs.take (cs.length - ending.length)
      if base.isEmpty || base.contains '\n' then none else some (String.ofList base)
    else none
  match before? s.toList with
  | some base => some base
  | none => if Text.endsWith s "\n" then before? s.toList.dropLast else none

/-- The template under a restriction; the placeholder `pattern` stands for the value
of that variable. -/
def underlying? (r : PatternRule) (base : String) : Option String :=
  if base == slot "pattern" then (r.named? "pattern").map (·.value) else some base

def conditional? (r : PatternRule) (keyword : Intent.Keyword) : Option String :=
  beforeEnding? r.template (" " ++ keyword.name ++ " " ++ slot "condition")

def restricted? (r : PatternRule) : Option Restricted :=
  let underCondition (keyword : Intent.Keyword) (base : String) : Option Restricted := do
    let base ← underlying? r base
    let condition := ((r.named? "condition").map (·.value)).getD "nested"
    return ⟨base, keyword, condition, hundredths 90⟩
  match conditional? r .when, conditional? r .unless,
      beforeEnding? r.template (" for " ++ slot "nodeKind") with
  | some base, _, _ => underCondition .when base
  | none, some base, _ => underCondition .unless base
  | none, none, some base => do
    let base ← underlying? r base
    let kind ← r.named? "nodeKind"
    return ⟨base, .when, kind.value, hundredths 50⟩
  | none, none, none => none

def severityWord : Option String → String
  | some "major" => "breaking"
  | some "minor" => "minor"
  | some "patch" => "patch"
  | some "none" => "safe"
  | _ => ""

/-- Hyphens and underscores become spaces. -/
def readable (value : String) : String :=
  Text.lower (Text.replaceAll (Text.replaceAll value "-" " ") "_" " ")

/-- Names the severity in place of the action, or in front. -/
def withSeverity (severity expression : String) : String :=
  if severity.isEmpty || Text.contains expression severity then expression
  else if Text.contains expression "removed" then
    Text.replaceFirst expression "removed" (severity ++ " removal of")
  else if Text.contains expression "added" then
    Text.replaceFirst expression "added" (severity ++ " addition of")
  else if Text.contains expression "modified" then
    Text.replaceFirst expression "modified" (severity ++ " change to")
  else severity ++ " " ++ expression

/-- The characters that are taken for a small letter when case does not matter. -/
def isLetter (letter c : Char) : Bool :=
  c.toLower == letter ||
    (match letter with
      | 'i' => c.toNat == 0x130 || c.toNat == 0x131
      | 'k' => c.toNat == 0x212A
      | 's' => c.toNat == 0x17F
      | _ => false)

def beginsWithWord (word : List Char) (cs : List Char) : Bool :=
  decide (word.length ≤ cs.length) && (word.zip cs).all fun p => isLetter p.1 p.2

/-- The letter after a leading severity word is made small. -/
def lowerAfterSeverity (s : String) : String :=
  let cs := s.toList
  match ["breaking", "safe", "minor", "patch"].find? fun w => beginsWithWord w.toList cs with
  | none => s
  | some w =>
    match cs.drop w.length with
    | ' ' :: c :: rest =>
      String.ofList (cs.take w.length ++ ' ' :: Text.lowerChars [c] ++ rest)
    | _ => s

def describe (r : PatternRule) : String :=
  let fill (s : String) (v : PatternVariable) : String :=
    Text.replaceAll s (slot v.name.toText) (readable v.value)
  lowerAfterSeverity
    (Text.normalize (withSeverity (severityWord r.returns) (r.bindings.foldl fill r.template)))

/-- An expression for any pattern: the first phrase that fits, or words made up. -/
def expression (r : PatternRule) : String :=
  match phrasesFor r.template with
  | [] => describe r
  | first :: rest =>
    (((first :: rest).find? (Phrase.fits r.bindings)).getD first).expression

structure Phrased where
  intent : IntentRule
  confidence : Float
  alternatives : List IntentRule

def intentWith (r : PatternRule) (expression : String) : IntentRule :=
  { expression, returns := r.returns, description := r.description }

def describedScore : Float := hundredths 30

/-- Phrases other than the best one, each once, at most three. -/
def alternatives (r : PatternRule) (best : Phrase) (rest : List Phrase) : List IntentRule :=
  (((rest.map (·.expression)).eraseDups.filter (· != best.expression)).take 3).map (intentWith r)

/-- The phrase for a template as it stands, or words made up for it. -/
def plainIntent? (r : PatternRule) : Option Phrased :=
  if (phrasesFor r.template).isEmpty then
    let words := expression r
    if words.isEmpty then none else some ⟨intentWith r words, describedScore, []⟩
  else
    match fitting r.template r.bindings with
    | [] => none
    | best :: rest =>
      some ⟨intentWith r best.expression, hundredths best.hundredths, alternatives r best rest⟩

/-- The phrase for a restricted template, with its condition. -/
def restrictedIntent? (r : PatternRule) : Option Phrased := do
  let c ← restricted? r
  let best ← (fitting c.base r.bindings).head?
  return ⟨intentWith r (best.expression ++ " " ++ c.keyword.name ++ " " ++ c.condition),
    hundredths best.hundredths * c.factor, []⟩

/-- Puts a pattern into words. -/
def intent? (r : PatternRule) : Option Phrased :=
  match restrictedIntent? r with
  | some phrased => some phrased
  | none => plainIntent? r

def families : List (String × String) :=
  [("removal", "removal-pattern"), ("addition", "addition-pattern"), ("type", "type-change-pattern"),
   ("optional", "optionality-pattern"), ("required", "optionality-pattern"),
   ("deprecation", "deprecation-pattern"), ("rename", "rename-pattern"),
   ("reorder", "reorder-pattern")]

def templateFamilies : List (String × String) :=
  [(" when ", "conditional-when-pattern"), (" unless ", "conditional-unless-pattern"),
   (" for ", "scoped-pattern"), (" and ", "compound-and-pattern"), (" or ", "compound-or-pattern")]

def familyIn (table : List (String × String)) (s : String) : Option String :=
  (table.find? fun f => Text.contains s f.1).map (·.2)

def family? (r : PatternRule) : Option String :=
  let fits := (phrasesFor r.template).filter (Phrase.fits r.bindings)
  match fits.findSome? fun p => familyIn families p.expression with
  | some name => some name
  | none => familyIn templateFamilies r.template

end ApiRelease.Phrasing
