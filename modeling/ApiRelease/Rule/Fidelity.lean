import ApiRelease.Likeness
import ApiRelease.Rule.Pattern

/-! # How faithfully a pattern expresses a rule

Each dimension that the rule restricts has a weight. A value that the rule lists
earns all of it, another value half, no value nothing. Weights are counted in
quarters, so that half of each is whole and only the last division rounds.
-/
namespace ApiRelease.Fidelity

structure Tally where
  earned : Nat
  possible : Nat

namespace Tally

def zero : Tally := ⟨0, 0⟩

def add (a b : Tally) : Tally := ⟨a.earned + b.earned, a.possible + b.possible⟩

def weigh (weight : Nat) (allowed : List String) (value : Option String) : Tally :=
  if allowed.isEmpty then zero
  else
    match value with
    | none => ⟨0, weight⟩
    | some v => ⟨if allowed.contains v then weight else weight / 2, weight⟩

def total (ts : List Tally) : Tally := ts.foldl add zero

def share (t : Tally) : Float :=
  if t.possible == 0 then Likeness.zero else Scale.ratio t.earned t.possible

end Tally

/-- The impact of a release type when the wording gives none. -/
def impactOfRelease : Option String → Impact
  | some "major" => .narrowing
  | some "minor" => .widening
  | some "patch" => .equivalent
  | some "none" => .equivalent
  | _ => .unrelated

/-- The impact that a pattern implies: by its wording, then by its action and release
type. -/
def inferImpact (p : PatternRule) : Impact :=
  let m := Pattern.meaning p.template p.bindings
  match m.impact, m.tag, m.action with
  | some impact, _, _ => impact
  | none, some .nowRequired, _ => .narrowing
  | none, some .nowOptional, _ => .widening
  | none, some .wasOptional, _ => .widening
  | none, _, some .removed => .narrowing
  | none, _, some .added => if p.returns = some "major" then .narrowing else .widening
  | none, _, _ => impactOfRelease p.returns

def nestedTally (r : DimensionalRule) (p : PatternRule) : Tally :=
  match r.nested with
  | none => .zero
  | some b => ⟨if b == Text.contains p.template " when " then 4 else 0, 4⟩

def returnsTally (r : DimensionalRule) (p : PatternRule) : Tally :=
  match Pattern.nonEmpty r.returns, Pattern.nonEmpty p.returns with
  | some a, some b => ⟨if a == b then 8 else 4, 8⟩
  | _, _ => .zero

/-- Equal descriptions earn all, one inside the other, whatever the case, half. Only
texts can be looked for in each other. -/
def descriptionTally (r : DimensionalRule) (p : PatternRule) : Except Fault Tally :=
  if !(r.description.truthy && p.description.truthy) then .ok .zero
  else if r.description = p.description then .ok ⟨2, 2⟩
  else
    match r.description, p.description with
    | .text a, .text b =>
      let a := Text.lower a
      let b := Text.lower b
      .ok ⟨if Text.contains b a || Text.contains a b then 1 else 0, 2⟩
    | .text _, v => .error (.noField v.kindName)
    | v, _ => .error (.noField v.kindName)

def dimensionTallies (r : DimensionalRule) (p : PatternRule) : List Tally :=
  let m := Pattern.meaning p.template p.bindings
  [.weigh 12 r.action (m.action.map Action.name),
   .weigh 10 r.aspect (m.aspect.map Aspect.name),
   .weigh 8 r.target ((p.variableOf? .target).map (·.value)),
   .weigh 8 r.impact (some (inferImpact p).name),
   .weigh 6 r.nodeKind ((p.variableOf? .nodeKind).map (·.value)),
   nestedTally r p, returnsTally r p]

def score (r : DimensionalRule) (p : PatternRule) : Except Fault Float := do
  let description ← descriptionTally r p
  return (Tally.total (dimensionTallies r p ++ [description])).share

end ApiRelease.Fidelity
