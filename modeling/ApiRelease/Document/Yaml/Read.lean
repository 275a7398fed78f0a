import ApiRelease.Document.Yaml.Node

/-! # Reading YAML

A mapping becomes a table; a later pair of the same key replaces the value. The key
`<<` takes over the pairs of the mappings under it, which the mapping's own pairs go
before. Documents are made level by level, so of two faults that come to light only
then, the one further out counts, and on one level the earlier one.
-/
namespace ApiRelease.Yaml

/-- A fault with the level on which it comes to light. -/
structure Flaw where
  level : Nat
  fault : Fault

/-- The one that comes to light first, where the second stands later in the text. -/
def Flaw.first (a b : Flaw) : Flaw := if b.level < a.level then b else a

abbrev Made (α : Type) := Except Flaw α

def Made.both {α β γ : Type} (f : α → β → γ) : Made α → Made β → Made γ
  | .ok a, .ok b => .ok (f a b)
  | .error x, .error y => .error (x.first y)
  | .error x, .ok _ => .error x
  | .ok _, .error y => .error y

def Made.flaw {α : Type} (level : Nat) (fault : Fault) : Made α := .error ⟨level, fault⟩

def Made.ofExcept {α : Type} (level : Nat) (r : Except Fault α) : Made α :=
  r.mapError fun fault => ⟨level, fault⟩

namespace Node

def tag : Node → Tag
  | .scalar t _ | .sequence t _ | .mapping t _ => t

def isMapping : Node → Bool
  | .mapping .. => true
  | _ => false

mutual

def text? : Node → Option String
  | .scalar _ text => some text
  | .sequence .. => none
  | .mapping _ pairs => textIn? pairs

def textIn? : List (Node × Node) → Option String
  | [] => none
  | (k, v) :: rest => if k.tag = .value then text? v else textIn? rest

end

mutual

/-- What stands under the key `<<` can be taken over. -/
def isMergeable : Node → Bool
  | .scalar .. => false
  | .sequence _ items => areMergeable items
  | .mapping _ pairs => mergesIn pairs

def areMergeable : List Node → Bool
  | [] => true
  | n :: rest => n.isMapping && isMergeable n && areMergeable rest

/-- All merges among the pairs can be made. -/
def mergesIn : List (Node × Node) → Bool
  | [] => true
  | (k, v) :: rest => (k.tag != .merge || isMergeable v) && mergesIn rest

end

end Node

def taggedScalar (level : Nat) (n : Node) : Made Value :=
  match n.text?, n.isMapping && n.tag = .timestamp with
  | none, _ => .flaw level .illFormed
  | some _, true => .flaw level (.notText "list")
  | some text, false => (Made.ofExcept level (scalarOf n.tag text)).map .scalar

/-- A scalar as a key. Anything else cannot be one, which comes to light before what is
inside it. -/
def keyOf (level : Nat) : Made Value → Made Scalar
  | .ok (.scalar s) => .ok s
  | .ok _ => .flaw level .illFormed
  | .error flaw => .error (flaw.first ⟨level, .illFormed⟩)

mutual

def make (level : Nat) : Node → Made Value
  | .scalar tag text =>
    match tag with
    | .seq | .map | .set | .omap | .pairs => .flaw (level + 1) .illFormed
    | _ => taggedScalar level (.scalar tag text)
  | .sequence tag items =>
    match tag with
    | .seq => (makeItems (level + 1) items).map .list
    | .omap | .pairs => (makePairs (level + 1) items).map .list
    | .map | .set => .flaw (level + 1) .illFormed
    | _ => .flaw level .illFormed
  | .mapping tag pairs =>
    let fields : Made Fields :=
      if Node.mergesIn pairs then
        let (taken, own) := makeFields (level + 1) pairs
        Made.both (fun t o => Fields.ofPairs (t ++ o)) taken own
      else .flaw (level + 1) .illFormed
    match tag with
    | .map => fields.map .table
    | .set => fields.map fun fs => .set (fs.map (·.1))
    | .seq | .omap | .pairs => .flaw (level + 1) .illFormed
    | _ => taggedScalar level (.mapping tag pairs)

def makeItems (level : Nat) : List Node → Made (List Value)
  | [] => .ok []
  | n :: rest => Made.both (· :: ·) (make level n) (makeItems level rest)

/-- The pairs of an ordered mapping, each of them a mapping of its own. -/
def makePairs (level : Nat) : List Node → Made (List Value)
  | [] => .ok []
  | .mapping _ [(k, v)] :: rest =>
    Made.both (· :: ·) (Made.both .pair (make level k) (make level v)) (makePairs level rest)
  | _ :: rest => Made.both (· :: ·) (.flaw level .illFormed) (makePairs level rest)

/-- Pairs taken over by merges, and the mapping's own. -/
def makeFields (level : Nat) : List (Node × Node) → Made Fields × Made Fields
  | [] => (.ok [], .ok [])
  | (k, v) :: rest =>
    let (taken, own) := makeFields level rest
    if k.tag = .merge then (Made.both (· ++ ·) (makeTaken level v) taken, own)
    else
      let key : Made Scalar :=
        match k with
        | .scalar .value text => .ok (.text text)
        | _ => keyOf level (make level k)
      (taken, Made.both (· :: ·) (Made.both (·, ·) key (make level v)) own)

/-- What a merge takes over; of several mappings the first goes before the others. -/
def makeTaken (level : Nat) : Node → Made Fields
  | .mapping _ pairs =>
    let (taken, own) := makeFields level pairs
    Made.both (· ++ ·) taken own
  | .sequence _ items => makeAllTaken level items
  | .scalar .. => .flaw level .illFormed

def makeAllTaken (level : Nat) : List Node → Made Fields
  | [] => .ok []
  | n :: rest => Made.both (· ++ ·) (makeAllTaken level rest) (makeTaken level n)

end

def read (s : String) : Except Fault Value :=
  match tokens? s with
  | none => .error .illFormed
  | some ts =>
    match document ts with
    | .error f => .error f
    | .ok none => .ok .null
    | .ok (some n) => (make 0 n).mapError (·.fault)

end ApiRelease.Yaml
