import ApiRelease.Text.Blank

/-! # Breaking a line at a width

A line is broken between words, each of which keeps the blanks after it. Only a word
that is longer than the width is cut.
-/
namespace ApiRelease.Console

def cutWord (width : Nat) : Nat → List Char → List (List Char)
  | 0, cs => [cs]
  | count + 1, cs =>
    if cs.length ≤ width then [cs] else cs.take width :: cutWord width count (cs.drop width)

/-- Words with the blanks after them; the first has those before it too. -/
def spacedWordsFrom (word : List Char) (ended : Bool) : List Char → List (List Char)
  | [] => if word.isEmpty then [] else [word]
  | c :: rest =>
    if Text.isBlank c then
      spacedWordsFrom (word ++ [c]) (word.any fun d => !Text.isBlank d) rest
    else if ended then word :: spacedWordsFrom [c] false rest
    else spacedWordsFrom (word ++ [c]) false rest

/-- The finished lines and the one that is being filled. -/
structure Filling where
  done : List (List Char)
  current : List Char

def Filling.finish (f : Filling) : List (List Char) := f.done ++ [f.current]

def Filling.closed (f : Filling) : List (List Char) :=
  if f.current.isEmpty then f.done else f.finish

def Filling.put (width : Nat) (f : Filling) (word : List Char) : Filling :=
  let length := (Text.trimRight word).length
  if f.current.length + length ≤ width then { f with current := f.current ++ word }
  else if length ≤ width then ⟨f.closed, word⟩
  else
    let parts := cutWord width word.length word
    ⟨f.closed ++ parts.dropLast, parts.getLastD []⟩

/-- The lines of at most `width` characters that a line is broken into, blanks at
their ends left aside. -/
def wrap (width : Nat) (cs : List Char) : List (List Char) :=
  ((spacedWordsFrom [] false cs).foldl (Filling.put width) ⟨[], []⟩).finish

end ApiRelease.Console
