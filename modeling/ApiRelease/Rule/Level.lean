import ApiRelease.Notice
import ApiRelease.Rule.Catalogue
import ApiRelease.Rule.Phrasing

/-! # Moving rules between levels

Downwards an intent is read as a pattern and a pattern compiled to dimensions;
upwards a dimensional rule is read back as a pattern and a pattern put into words. A
rule that cannot go all the way stays as it was, and a warning says why.
-/
namespace ApiRelease

def Pattern.notices (r : PatternRule) : List Notice :=
  let c := Pattern.compile r
  if c.errors.isEmpty then c.warnings.map fun w => .debug (r.template ++ ": " ++ w) else []

namespace Rule

/-- A move that fails has said why. -/
abbrev Move := Traced Notice Unit Rule

def stuck (notice : Notice) : Move := ⟨[notice], .error ()⟩

def lowered : Rule → Move
  | .intent r =>
    let reading := Intent.read r
    match reading.pattern with
    | some p => pure (.pattern p)
    | none =>
      stuck (.warning ("Failed to parse intent '" ++ r.expression ++ "': " ++
        ", ".intercalate reading.errors))
  | .pattern r =>
    let compiled := Pattern.compile r
    match compiled.dimensional with
    | some d => ⟨Pattern.notices r, .ok (.dimensional d)⟩
    | none =>
      stuck (.warning ("Failed to compile pattern '" ++ r.template ++ "': " ++
        ", ".intercalate compiled.errors))
  | .dimensional _ => Traced.fail ()

def raised : Rule → Move
  | .dimensional r =>
    match Catalogue.decompile? r with
    | some d => pure (.pattern d.pattern)
    | none =>
      stuck (.warning ("Cannot decompile dimensional rule '" ++
        (r.description.orElse (.text "<unnamed>")).toText ++ "'"))
  | .pattern r =>
    match Phrasing.intent? r with
    | some phrased => pure (.intent phrased.intent)
    | none => stuck (.warning ("Cannot synthesize an intent for pattern '" ++ r.template ++ "'"))
  | .intent _ => Traced.fail ()

/-- Makes a move so many times. -/
def repeatMove (move : Rule → Move) : Nat → Rule → Move
  | 0, r => pure r
  | n + 1, r => move r >>= repeatMove move n

/-- Moves a rule to a level, one level at a time. -/
def moveTo (target : RuleLevel) (r : Rule) : Move :=
  if r.level.rank ≤ target.rank then repeatMove lowered (target.rank - r.level.rank) r
  else repeatMove raised (r.level.rank - target.rank) r

/-- The rule at the level, or the rule itself when it cannot get there. -/
def atLevel (target : RuleLevel) (r : Rule) : Rule :=
  match (moveTo target r).result with
  | .ok s => s
  | .error _ => r

end Rule

end ApiRelease
