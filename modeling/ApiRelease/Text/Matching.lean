/-! # Words that look like a given word

Two words are compared by their longest common block, then by the longest blocks on
either side of it, and so on. Twice the number of characters in these blocks, over
the number of all characters, is the likeness of the words.
-/
namespace ApiRelease.Text

def commonLength : List Char → List Char → Nat
  | a :: as, b :: bs => if a == b then commonLength as bs + 1 else 0
  | _, _ => 0

/-- A block that two words have in common: where it starts in each, and its length. -/
structure Block where
  left : Nat
  right : Nat
  length : Nat

/-- The longer of two blocks, the first when they are equally long. -/
def Block.longer (best b : Block) : Block := if b.length > best.length then b else best

/-- The longest block; of several, the one that starts first in the left word, then
in the right one. -/
def longestBlock (as bs : List Char) : Block :=
  (List.range as.length).foldl (fun best i =>
    (List.range bs.length).foldl (fun best j =>
      best.longer ⟨i, j, commonLength (as.drop i) (bs.drop j)⟩) best) ⟨0, 0, 0⟩

/-- The number of characters in common blocks, split at most `depth` times. -/
def matchedWithin : Nat → List Char → List Char → Nat
  | 0, _, _ => 0
  | depth + 1, as, bs =>
    let b := longestBlock as bs
    if b.length == 0 then 0
    else
      matchedWithin depth (as.take b.left) (bs.take b.right) + b.length +
        matchedWithin depth (as.drop (b.left + b.length)) (bs.drop (b.right + b.length))

/-- Each block takes at least one character, so the left word bounds the splits. -/
def matchedChars (as bs : List Char) : Nat := matchedWithin as.length as bs

structure Candidate where
  word : String
  matched : Nat
  total : Nat

namespace Candidate

def against (sought word : String) : Candidate where
  word := word
  matched := 2 * matchedChars word.toList sought.toList
  total := word.length + sought.length

/-- Alike in at least three fifths. -/
def isClose (c : Candidate) : Bool := 3 * c.total ≤ 5 * c.matched

/-- More alike, or as much and later in the alphabet. -/
def before (a b : Candidate) : Bool :=
  let x := a.matched * b.total
  let y := b.matched * a.total
  x > y || (x == y && decide (b.word ≤ a.word))

end Candidate

/-- At most three of the words that are close to the one looked for, the closest first. -/
def closeMatches (sought : String) (words : List String) : List String :=
  ((((words.map (Candidate.against sought)).filter Candidate.isClose).mergeSort
    Candidate.before).take 3).map Candidate.word

end ApiRelease.Text
