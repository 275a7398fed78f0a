import ApiRelease.Change.Basic
import ApiRelease.Declaration.Module
import ApiRelease.Diff.Classification
import ApiRelease.Diff.Match

/-! # The changes between two modules

Both trees are walked in step. A level reports renamed, removed, added and modified
declarations in this order, each modified or renamed one with what changed inside
it. How many more levels may be entered counts down, so the walk ends whatever the
trees are. Problems with the trees are noted and never end a comparison.
-/
namespace ApiRelease

/-- What a comparison notes: log lines, and problems to be filed with a module. -/
inductive Remark where
  | log (notice : Notice)
  | problem (side : Side) (text : String)

namespace Remark

def notice? : Remark → Option Notice
  | .log n => some n
  | .problem _ _ => none

def problem? (side : Side) : Remark → Option String
  | .problem s text => if s = side then some text else none
  | .log _ => none

end Remark

abbrev Comparing (α : Type) := Traced Remark Fault α

namespace Diff

/-- How two type texts are compared: equal words need no oracle, and without leave
to ask it nothing is known. -/
def typeComparer (options : DiffOptions) (oracle : TypeOracle) : TypeOracle := fun old new =>
  if Text.normalize old == Text.normalize new then .ok (.known .equivalent)
  else if !options.resolveTypes then .ok (.known .undetermined)
  else oracle old new

/-- Where a level of the two trees stands: the declarations whose members it
compares, if any, and the paths above. -/
structure Place where
  oldParent : Option Declaration
  newParent : Option Declaration
  depth : Nat
  ancestors : List String

def Place.top : Place := ⟨none, none, 0, []⟩

def Place.inside (old new : Declaration) (depth : Nat) (ancestors : List String) : Place :=
  ⟨some old, some new, depth + 1, ancestors ++ [old.path]⟩

def Place.isNested (p : Place) : Bool := p.oldParent.isSome

/-- How the members of two declarations at a depth below some paths are compared. -/
abbrev Descent := Declaration → Declaration → Nat → List String → Comparing (List Change)

def tagNested (d : Descriptor) (nested : List Change) : Descriptor :=
  if nested.isEmpty then d else d.withTag .hasNestedChanges

def renamedWith (place : Place) (r : Rename Float) (nested : List Change) : Change where
  descriptor := tagNested (.plain (if place.isNested then r.old.kind.target else .exportItem)
    .renamed []) nested
  path := .text r.old.path
  nodeKind := .text r.old.kind.name
  explanation := .text ("'" ++ r.old.name ++ "' renamed to '" ++ r.new.name ++ "'")
  context := { Context.below place.isNested place.depth place.ancestors with
    renameConfidence := some r.confidence }
  oldLocation := r.old.location
  newLocation := r.new.location
  oldNode := some r.old
  newNode := some r.new
  parameterAnalysis := .null
  nested := nested

def renamedChange (descend : Descent) (place : Place) (r : Rename Float) : Comparing Change := do
  return renamedWith place r (← descend r.old r.new place.depth place.ancestors)

/-- What is said of a declaration that only one side has. -/
def membershipTarget (d : Declaration) : Option Declaration → Target
  | none => .exportItem
  | some _ => d.kind.target

def membershipText (d : Declaration) (parent : Option Declaration) (verb preposition : String) :
    String :=
  match parent with
  | none => "Export '" ++ d.name ++ "' " ++ verb
  | some p => "Member '" ++ d.name ++ "' " ++ verb ++ " " ++ preposition ++ " " ++ p.kind.name ++ " '" ++
      p.name ++ "'"

def removedChange (place : Place) (d : Declaration) : Change where
  descriptor := .plain (membershipTarget d place.oldParent) .removed
    (membershipTags d.toFacts place.oldParent true)
  path := .text d.path
  nodeKind := .text d.kind.name
  explanation := .text (membershipText d place.oldParent "removed" "from")
  context := Context.below place.isNested place.depth place.ancestors
  oldLocation := d.location
  newLocation := none
  oldNode := some d
  newNode := none
  parameterAnalysis := .null
  nested := []

def addedChange (place : Place) (d : Declaration) : Change where
  descriptor := .plain (membershipTarget d place.newParent) .added
    (membershipTags d.toFacts place.newParent false)
  path := .text d.path
  nodeKind := .text d.kind.name
  explanation := .text (membershipText d place.newParent "added" "to")
  context := Context.below place.isNested place.depth place.ancestors
  oldLocation := none
  newLocation := d.location
  oldNode := none
  newNode := some d
  parameterAnalysis := .null
  nested := []

def signatureChange (old new : Declaration) (place : Place) (d : SignatureDifference) :
    Except Fault Change := do
  let descriptor ← d.descriptor
  let isReturn := decide (d.target = .returnType)
  return {
    descriptor
    path := .text (old.path ++ "." ++ if isReturn then "return" else d.name)
    nodeKind := .text (if isReturn then old.kind.name else NodeKind.parameter.name)
    explanation := .text d.explanation
    context := { Context.below true (place.depth + 1) (place.ancestors ++ [old.path]) with
      oldType := .ofOption d.oldType
      newType := .ofOption d.newType }
    oldLocation := old.location
    newLocation := new.location
    oldNode := none
    newNode := none
    parameterAnalysis := .null
    nested := [] }

def signatureChanges (options : DiffOptions) (old new : Declaration) (place : Place)
    (c : Classification) : Except Fault (List Change) :=
  if options.includeNested then c.signatureChanges.mapM (signatureChange old new place) else .ok []

def noteAnomaly (a : Side × String) : Comparing Unit :=
  Traced.noteAll [.problem a.1 a.2, .log (.debug a.2)]

/-- Faults in comparing two declarations that are filed with the new module. -/
def isOfComparison (f : Fault) : Bool :=
  match f.sort with
  | .absent | .mistyped | .malformed | .unsupported | .unreadablePolicy | .unreadableModule
  | .undecodable => true
  | _ => false

def noteFailure (path : String) (f : Fault) : Comparing Unit :=
  Traced.noteAll [.log (.warning ("Could not compare '" ++ path ++ "': " ++ f.message)),
    .problem .new ("'" ++ path ++ "': comparison failed: " ++ f.message)]

def modifiedWith (place : Place) (old new : Declaration) (c : Classification)
    (nested : List Change) : Change where
  descriptor := tagNested c.descriptor nested
  path := .text old.path
  nodeKind := .text old.kind.name
  explanation := .text c.explanation
  context := { Context.below (decide (0 < place.depth)) place.depth place.ancestors with
    modifierChange := .ofOption c.modifierChange
    oldType := .text old.signature
    newType := .text new.signature }
  oldLocation := old.location
  newLocation := new.location
  oldNode := some old
  newNode := some new
  parameterAnalysis := optionalValue Reorder.Analysis.toValue c.analysis
  nested := nested

def modifiedChange (options : DiffOptions) (compareTypes : TypeOracle) (descend : Descent)
    (place : Place) (old new : Declaration) : Comparing (Option Change) :=
  match Classification.ofPair old.toFacts new.toFacts options compareTypes with
  | .error f =>
    if isOfComparison f then do
      noteFailure old.path f
      return none
    else Traced.fail f
  | .ok c => do
    c.anomalies.forM noteAnomaly
    let fromSignature ← signatureChanges options old new place c
    let inside ← descend old new place.depth place.ancestors
    let nested := fromSignature ++ inside
    return if c.isEquivalent && nested.isEmpty then none else some (modifiedWith place old new c nested)

def levelRenames (options : DiffOptions) (m : Match) : List (Rename Float) :=
  Rename.detect Rename.score options.renameThreshold m.removed m.added

def level (options : DiffOptions) (compareTypes : TypeOracle) (descend : Descent) (place : Place)
    (olds news : Members) : Comparing (List Change) := do
  let m := matchMembers olds news
  let renames := levelRenames options m
  let renamed ← renames.mapM (renamedChange descend place)
  let modified ← m.matched.mapM fun p => modifiedChange options compareTypes descend place p.1 p.2
  return renamed ++ (Rename.unusedOld renames m.removed).map (removedChange place) ++
    (Rename.unusedNew renames m.added).map (addedChange place) ++ modified.filterMap id

def bothSigned (old new : Declaration) : Bool :=
  (primarySignature old.toFacts).isSome && (primarySignature new.toFacts).isSome

/-- The members that are compared as members: parameters are not when both sides
have a signature that holds them. -/
def comparedMembers (bothSignatures : Bool) (members : Members) : Members :=
  if bothSignatures then members.filter fun m => decide (m.2.kind ≠ .parameter) else members

/-- Compares the members of two declarations while there is room for more levels. A
declaration is not entered below itself. -/
def membersWithin (options : DiffOptions) (compareTypes : TypeOracle) : Nat → Descent
  | room, old, new, depth, ancestors =>
    if !options.includeNested || (old.members.isEmpty && new.members.isEmpty) then pure []
    else
      let stop : Comparing (List Change) := do
        Traced.note (.log (.debug ("Not descending into '" ++ old.path ++ "' at depth " ++
          toString depth)))
        return []
      match room with
      | 0 => stop
      | room + 1 =>
        if ancestors.contains old.path then stop
        else
          level options compareTypes (membersWithin options compareTypes room)
            (.inside old new depth ancestors)
            (comparedMembers (bothSigned old new) old.members)
            (comparedMembers (bothSigned old new) new.members)

def modules (old new : Module) (options : DiffOptions) (oracle : TypeOracle) :
    Comparing (List Change) := do
  let compareTypes := typeComparer options oracle
  let descend := membersWithin options compareTypes options.maxDepth.toNat
  let changes ← level options compareTypes descend .top old.exports new.exports
  Traced.note (.log (.debug ("Found " ++ toString changes.length ++ " top-level changes between " ++
    old.filename ++ " and " ++ new.filename)))
  return changes

def withProblems (side : Side) (remarks : List Remark) (m : Module) : Module :=
  { m with errors := m.errors ++ remarks.filterMap (·.problem? side) }

end Diff

end ApiRelease
