import ApiRelease.Declaration.Encode
import ApiRelease.Decimal.Fixed
import ApiRelease.Likeness

/-! # Parameters that change places

Two lists of equal length with the same types place by place may hold the same
parameters in another order, which breaks callers without a word from the type
checker. Names that moved are strong evidence; names that are unlike their
predecessors but like a name from another place are weaker evidence.
-/
namespace ApiRelease.Reorder

inductive Confidence where
  | high
  | medium
  | low
  deriving DecidableEq

def Confidence.name : Confidence → String
  | .high => "high"
  | .medium => "medium"
  | .low => "low"

structure Place where
  position : Nat
  oldName : String
  newName : String
  type : String
  similarity : Float
  interpretation : String

structure Analysis where
  hasReordering : Bool
  confidence : Confidence
  summary : String
  places : List Place
  oldParameters : List Parameter
  newParameters : List Parameter

def Place.toValue (p : Place) : Value :=
  .table [("position", .int p.position), ("old_name", .text p.oldName),
    ("new_name", .text p.newName), ("type", .text p.type), ("similarity", .float p.similarity),
    ("interpretation", .text p.interpretation)]

def Analysis.toValue (a : Analysis) : Value :=
  .table [("has_reordering", .bool a.hasReordering), ("confidence", .text a.confidence.name),
    ("summary", .text a.summary), ("position_analysis", .list (a.places.map (·.toValue))),
    ("old_params", .list (a.oldParameters.map (·.toValue))),
    ("new_params", .list (a.newParameters.map (·.toValue)))]

/-- Below this score a name at one place is a different name. -/
def lowSimilarity : Float := Scale.ratio 3 5

/-- From this score on a new name counts as an old one from elsewhere. -/
def crossMatch : Float := Scale.ratio 7 10

def placeOf (position : Nat) (old new : Parameter) : Place :=
  let similarity : Float := Likeness.names old.name new.name
  { position, similarity, oldName := old.name, newName := new.name, type := old.type,
    interpretation := Likeness.interpret old.name new.name similarity }

def placesFrom (position : Nat) : List Parameter → List Parameter → List Place
  | old :: olds, new :: news => placeOf position old new :: placesFrom (position + 1) olds news
  | _, _ => []

def lastPlace? (ps : List Parameter) (name : String) : Option Nat :=
  (ps.zipIdx.reverse.find? fun p => p.1.name == name).map (·.2)

/-- Names of both lists whose places differ, in the order of the old list. -/
def movedNames (olds news : List Parameter) : List String :=
  (olds.map (·.name)).eraseDups.filter fun name =>
    match lastPlace? olds name, lastPlace? news name with
    | some i, some j => i != j
    | _, _ => false

def order (ps : List Parameter) : String := ", ".intercalate (ps.map (·.name))

def Place.changed (p : Place) : Bool := p.oldName != p.newName

def Place.unlike (p : Place) : Bool := p.changed && decide (p.similarity < lowSimilarity)

/-- The first other place whose old name the new name resembles. -/
def Place.elsewhere? (p : Place) (olds : List Parameter) : Option (Parameter × Nat) :=
  olds.zipIdx.find? fun o =>
    o.2 != p.position && decide (crossMatch ≤ Likeness.resemblance o.1.name p.newName)

def Place.crossText (p : Place) (olds : List Parameter) : Option String :=
  (p.elsewhere? olds).map fun o =>
    "\"" ++ p.newName ++ "\" at position " ++ toString p.position ++ " resembles \"" ++ o.1.name ++
      "\" which was at position " ++ toString o.2

def Place.renameText (p : Place) : String :=
  "\"" ++ p.oldName ++ "\" → \"" ++ p.newName ++ "\" (" ++ p.interpretation ++ ")"

def Place.percentText (p : Place) : String :=
  "position " ++ toString p.position ++ ": \"" ++ p.oldName ++ "\" → \"" ++ p.newName ++
    "\" (similarity: " ++ Decimal.fixed 0 (p.similarity * 100) ++ "%)"

def detect (olds news : List Parameter) : Analysis :=
  let places := placesFrom 0 olds news
  let verdict (has : Bool) (confidence : Confidence) (summary : String) : Analysis :=
    ⟨has, confidence, summary, places, olds, news⟩
  let negative := verdict false .low
  if olds.length != news.length then
    negative "Parameter count changed; not analyzing for reordering"
  else if olds.length < 2 then negative "Single parameter; reordering not applicable"
  else if (olds.zip news).any fun p => p.1.type != p.2.type then
    negative "Types differ at some positions; type analysis will handle this"
  else
    let orders := "(" ++ order olds ++ ") → (" ++ order news ++ "). "
    if 2 ≤ (movedNames olds news).length then
      verdict true .high ("Parameters reordered: " ++ orders ++
        "The same parameter names appear at different positions.")
    else
      let low := places.filter Place.unlike
      let crossings := low.filterMap fun p => p.crossText olds
      if 2 ≤ low.length && 2 ≤ crossings.length then
        verdict true .medium ("Parameters appear reordered: " ++ orders ++
          "Names at each position are dissimilar, but new names resemble old names " ++
          "from other positions. " ++ "; ".intercalate crossings ++ ".")
      else
        let changed := places.filter Place.changed
        if changed.all fun p => decide (lowSimilarity ≤ Likeness.resemblance p.oldName p.newName) then
          if changed.isEmpty then negative "No parameter name changes detected"
          else
            negative ("Parameter names changed but appear to be renames rather than reordering: " ++
              ", ".intercalate (changed.map Place.renameText))
        else
          negative ("Significant name changes detected but no clear reordering pattern: " ++
            ", ".intercalate (low.map Place.percentText))

end ApiRelease.Reorder
