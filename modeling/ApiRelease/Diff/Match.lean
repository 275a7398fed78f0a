import ApiRelease.Declaration.Basic
import ApiRelease.Likeness

/-! # Which declaration of one version is which of the other

Declarations are matched by key. Among the rest, a removed and an added declaration
of one kind that are alike enough are taken for one that was renamed: candidates are
taken in descending order of their score, ties in the order in which they were met,
and each path is used once.
-/
namespace ApiRelease

def Members.find? (key : Scalar) : Members → Option Declaration
  | [] => none
  | (k, d) :: rest => if k.isSame key then some d else find? key rest

structure Match where
  matched : List (Declaration × Declaration)
  removed : List Declaration
  added : List Declaration

def matchMembers (olds news : Members) : Match where
  matched := olds.filterMap fun o => (Members.find? o.1 news).map fun n => (o.2, n)
  removed := (olds.filter fun o => (Members.find? o.1 news).isNone).map (·.2)
  added := (news.filter fun n => (Members.find? n.1 olds).isNone).map (·.2)

structure Rename (α : Type) where
  old : Declaration
  new : Declaration
  confidence : α

namespace Rename

section Pairing

variable {α : Type} [LE α] [DecidableLE α] (score : Declaration → Declaration → α) (threshold : α)

/-- The pair, if it is of one kind and scores high enough. -/
def candidate? (old new : Declaration) : Option (Rename α) :=
  if old.kind = new.kind ∧ threshold ≤ score old new then some ⟨old, new, score old new⟩ else none

def candidates (removed added : List Declaration) : List (Rename α) :=
  removed.flatMap fun old => added.filterMap fun new => candidate? score threshold old new

/-- Higher scores first; the sort keeps the order of equal ones. -/
def ranked (cs : List (Rename α)) : List (Rename α) :=
  cs.mergeSort fun a b => decide (b.confidence ≤ a.confidence)

omit [LE α] [DecidableLE α] in
/-- Takes each candidate whose two paths are still free. -/
def pick (usedOld usedNew : List String) : List (Rename α) → List (Rename α)
  | [] => []
  | r :: rest =>
    if usedOld.contains r.old.path || usedNew.contains r.new.path then pick usedOld usedNew rest
    else r :: pick (r.old.path :: usedOld) (r.new.path :: usedNew) rest

def detect (removed added : List Declaration) : List (Rename α) :=
  pick [] [] (ranked (candidates score threshold removed added))

omit [LE α] [DecidableLE α] in
def unusedOld (renames : List (Rename α)) (ds : List Declaration) : List Declaration :=
  ds.filter fun d => !(renames.any fun r => r.old.path == d.path)

omit [LE α] [DecidableLE α] in
def unusedNew (renames : List (Rename α)) (ds : List Declaration) : List Declaration :=
  ds.filter fun d => !(renames.any fun r => r.new.path == d.path)

end Pairing

/-- Two fifths each for name and type, one tenth each for modifiers and the number
of members. -/
def weighted {α : Type} [Scale α] (old new : Declaration) : α :=
  Scale.ratio 2 5 * Likeness.names old.name new.name +
    Scale.ratio 2 5 * Likeness.signatures old.signature new.signature +
    Scale.ratio 1 10 * Likeness.overlap old.modifiers.toList new.modifiers.toList +
    Scale.ratio 1 10 * Likeness.counts old.members.length new.members.length

/-- Likeness of two declarations, kept between zero and one. -/
def score {α : Type} [Scale α] (old new : Declaration) : α :=
  let s : α := weighted old new
  if (Likeness.one : α) < s then Likeness.one
  else if s < (Likeness.zero : α) then Likeness.zero
  else s

end Rename

end ApiRelease
