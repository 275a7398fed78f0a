import ApiRelease.Change.Vocabulary
import ApiRelease.Document.Read

/-! # Descriptions of changes

A modification names the aspect that changed and its impact; no other action has
either. The type of effects says so, and a document that breaks the rule is
refused when it is read.
-/
namespace ApiRelease

inductive Effect where
  | added
  | removed
  | renamed
  | reordered
  | modified (aspect : Aspect) (impact : Impact)
  deriving DecidableEq

namespace Effect

def action : Effect → Action
  | .added => .added
  | .removed => .removed
  | .renamed => .renamed
  | .reordered => .reordered
  | .modified _ _ => .modified

def aspect? : Effect → Option Aspect
  | .modified aspect _ => some aspect
  | _ => none

def impact? : Effect → Option Impact
  | .modified _ impact => some impact
  | _ => none

end Effect

structure Descriptor where
  target : Target
  effect : Effect
  tags : Subset Tag
  deriving DecidableEq

namespace Descriptor

def plain (target : Target) (effect : Effect) (tags : List Tag) : Descriptor :=
  ⟨target, effect, .ofList tags⟩

def withTag (d : Descriptor) (t : Tag) : Descriptor := { d with tags := d.tags.insert t }

def aspectName? (d : Descriptor) : Option String := d.effect.aspect?.map Aspect.name

def impactName? (d : Descriptor) : Option String := d.effect.impact?.map Impact.name

def key (d : Descriptor) : String :=
  let base := d.target.name ++ ":" ++ d.effect.action.name
  match d.effect.aspect? with
  | some a => base ++ ":" ++ a.name
  | none => base

def effectFields : Effect → Fields
  | .modified aspect impact => [("aspect", .text aspect.name), ("impact", .text impact.name)]
  | _ => []

def toValue (d : Descriptor) : Value :=
  .table (("target", .text d.target.name) :: ("action", .text d.effect.action.name) ::
    (effectFields d.effect ++ ([("tags", .texts d.tags.names)] : Fields)))

def word {α : Type} [Vocabulary α] (unknown : Value → DescriptorFault) (v : Value) :
    Except Fault α := do
  v.hashable
  match v with
  | .text s =>
    match Vocabulary.parse? s with
    | some a => pure a
    | none => throw (.descriptor (unknown v))
  | _ => throw (.descriptor (unknown v))

def isTagName (v : Value) : Bool :=
  match v with
  | .text s => (Vocabulary.parse? s : Option Tag).isSome
  | _ => false

def asText? : Value → Option String
  | .text s => some s
  | _ => none

def sortTexts (ss : List String) : List String := ss.mergeSort fun a b => !decide (b < a)

/-- The tags that the documents name; unknown ones are reported together, in order. -/
def tagSet (vs : List Value) : Except Fault (Subset Tag) :=
  let unknown := vs.filter fun v => !isTagName v
  if unknown.isEmpty then
    .ok (.ofList (vs.filterMap fun v => (asText? v).bind fun s => Vocabulary.parse? s))
  else
    match unknown.mapM asText? with
    | some names => .error (.descriptor (.unknownTags (sortTexts names.eraseDups)))
    | none => .error .notJoinable

def effectOf (target : Target) (action : Action) (aspect impact : Value) : Except Fault Effect :=
  match action with
  | .modified =>
    if aspect.isNull || impact.isNull then
      .error (.descriptor (.incomplete target.name aspect impact))
    else do
      return .modified (← word .unknownAspect aspect) (← word .unknownImpact impact)
  | .added => simple .added
  | .removed => simple .removed
  | .renamed => simple .renamed
  | .reordered => simple .reordered
where
  simple (effect : Effect) : Except Fault Effect :=
    if aspect.isNull && impact.isNull then .ok effect
    else .error (.descriptor (.superfluous action.name target.name aspect impact))

/-- A descriptor from its parts as documents; nothing stands for a part that is
absent. Faults are found in the order target, action, tags, aspect and impact. -/
def ofParts (target action aspect impact : Value) (tags : List Value) : Except Fault Descriptor := do
  tags.forM (·.hashable)
  let target ← word .unknownTarget target
  let action ← word .unknownAction action
  let tags ← tagSet tags
  let effect ← effectOf target action aspect impact
  return { target, effect, tags }

def withTags (d : Descriptor) (tags : List Value) : Except Fault Descriptor := do
  tags.forM (·.hashable)
  let more ← tagSet tags
  return { d with tags := d.tags.union more }

def ofValue (v : Value) : Except Fault Descriptor := do
  let target ← v.index "target"
  let action ← v.index "action"
  let fs := v.fieldsOrNone
  let tags ← (fs.getD "tags" (.list [])).items
  ofParts target action (fs.get "aspect") (fs.get "impact") tags

end Descriptor

end ApiRelease
