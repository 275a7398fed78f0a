import ApiRelease.Text.Blank
import ApiRelease.Text.Case
import ApiRelease.Text.Distance
import ApiRelease.Text.Search

/-! # How alike two names, types or sets are

Scores lie between zero and one. They are written over any scale that has
fractions, so that one definition gives both the doubles that are compared with
thresholds and the exact fractions that laws are about.
-/
namespace ApiRelease

class Scale (α : Type) extends Add α, Sub α, Mul α, LE α, LT α where
  ratio : Nat → Nat → α
  decLE : ∀ a b : α, Decidable (a ≤ b)
  decLT : ∀ a b : α, Decidable (a < b)

attribute [reducible, instance] Scale.decLE Scale.decLT

instance : Scale Float where
  ratio m n := Float.ofNat m / Float.ofNat n
  decLE := inferInstance
  decLT := inferInstance

namespace Likeness

open Scale

variable {α : Type} [Scale α]

def one : α := ratio 1 1

def zero : α := ratio 0 1

/-- The score of names that differ in case only. -/
def caseOnly : α := ratio 19 20

def affixed : α := ratio 17 20

/-- One less the distance per character of the longer text. -/
def closeness (a b : List Char) : α :=
  one - ratio (Text.editDistanceChars a b) (max a.length b.length)

def isAffix (a b : List Char) : Bool :=
  b.isPrefixOf a || a.isPrefixOf b || b.isSuffixOf a || a.isSuffixOf b

def names (a b : String) : α :=
  if a == b then one
  else if a.isEmpty || b.isEmpty then zero
  else
    let la := Text.lowerChars a.toList
    let lb := Text.lowerChars b.toList
    if la == lb then caseOnly
    else if isAffix la lb then affixed
    else closeness la lb

/-- The shorter text, lower-cased, keeps the first letter of the longer one and is
found in it letter by letter, in order. -/
def isAbbreviation (a b : String) : Bool :=
  let la := Text.lowerChars a.toList
  let lb := Text.lowerChars b.toList
  let (short, long) := if la.length ≤ lb.length then (la, lb) else (lb, la)
  decide (2 ≤ short.length) && short != long && short.head? == long.head? && short.isSublist long

/-- Likeness of names that gives abbreviations the score of an affix. -/
def resemblance (a b : String) : α :=
  let score : α := names a b
  if score < affixed ∧ isAbbreviation a b then affixed else score

/-- What a change of name with this score looks like to a reader. -/
def interpret (old new : String) (score : α) : String :=
  if old == new then "unchanged"
  else if (caseOnly : α) ≤ score then "case change only"
  else if (ratio 4 5 : α) ≤ score then
    let lo := Text.lowerChars old.toList
    let ln := Text.lowerChars new.toList
    if ln.isPrefixOf lo || lo.isPrefixOf ln then "abbreviation expansion/contraction"
    else "minor spelling variation"
  else if isAbbreviation old new then "abbreviation expansion/contraction"
  else if (ratio 3 5 : α) ≤ score then "moderate name change"
  else if (ratio 2 5 : α) ≤ score then "significant name change"
  else "completely different name"

def signatures (a b : String) : α :=
  if a == b then one
  else
    let na := (Text.normalize a).toList
    let nb := (Text.normalize b).toList
    if na == nb then caseOnly
    else if max na.length nb.length == 0 then one
    else closeness na nb

/-- Shared members over all members; two empty sets are alike. -/
def overlap {β : Type} [BEq β] (a b : List β) : α :=
  let a := a.eraseDups
  let b := b.eraseDups
  if a.isEmpty && b.isEmpty then one
  else
    ratio (a.filter b.contains).length (a.length + (b.filter fun x => !a.contains x).length)

def counts (m n : Nat) : α :=
  if m == n then one else if m == 0 || n == 0 then zero else ratio (min m n) (max m n)

end Likeness

end ApiRelease
