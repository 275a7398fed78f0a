/-! # Edit distance

The least number of insertions, deletions and substitutions of single characters
that turn one text into another. The table of distances is built row by row: a
row holds the distances from one beginning of the first text to every beginning
of the second.
-/
namespace ApiRelease.Text

/-- The rest of a row for the character `c`: `corner` is the entry up and left,
`left` the entry just written, `above` the entries of the previous row. -/
def rowRest (c : Char) (corner left : Nat) : List Char → List Nat → List Nat
  | d :: target, up :: above =>
    let here := min (min (up + 1) (left + 1)) (corner + if c == d then 0 else 1)
    here :: rowRest c up here target above
  | _, _ => []

def nextRow (target : List Char) (row : List Nat) (c : Char) : List Nat :=
  match row with
  | [] => []
  | corner :: above => (corner + 1) :: rowRest c corner (corner + 1) target above

def editDistanceChars (source target : List Char) : Nat :=
  (source.foldl (nextRow target) (List.range (target.length + 1))).getLastD 0

def editDistance (a b : String) : Nat := editDistanceChars a.toList b.toList

end ApiRelease.Text
