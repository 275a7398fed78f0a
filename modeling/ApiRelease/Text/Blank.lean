/-! # Blanks, words and collapsed text

Blank characters are the line and field separators, the no-break space and the
spaces of every width; the zero-width space is not one of them. Two spellings of
a type that differ only in blanks collapse to the same text.
-/
namespace ApiRelease.Text

def isBlank (c : Char) : Bool :=
  let n := c.toNat
  (decide (0x09 ≤ n) && decide (n ≤ 0x0D)) || (decide (0x1C ≤ n) && decide (n ≤ 0x20)) ||
    n == 0x85 || n == 0xA0 || n == 0x1680 || (decide (0x2000 ≤ n) && decide (n ≤ 0x200A)) ||
    n == 0x2028 || n == 0x2029 || n == 0x202F || n == 0x205F || n == 0x3000

def trimLeft (cs : List Char) : List Char := cs.dropWhile isBlank

def trimRight (cs : List Char) : List Char := (cs.reverse.dropWhile isBlank).reverse

def trimChars (cs : List Char) : List Char := trimRight (trimLeft cs)

/-- Each run of blanks becomes one space; `inRun` says that the space of the
present run is already written. -/
def collapse (inRun : Bool) : List Char → List Char
  | [] => []
  | c :: rest =>
    if isBlank c then
      if inRun then collapse true rest else ' ' :: collapse true rest
    else c :: collapse false rest

/-- The words after the open word `word`, whose characters are kept in reverse. -/
def wordsAfter (word : List Char) : List Char → List (List Char)
  | [] => if word.isEmpty then [] else [word.reverse]
  | c :: rest =>
    if isBlank c then
      if word.isEmpty then wordsAfter [] rest else word.reverse :: wordsAfter [] rest
    else wordsAfter (c :: word) rest

def wordsOf (cs : List Char) : List (List Char) := wordsAfter [] cs

def trim (s : String) : String := String.ofList (trimChars s.toList)

def words (s : String) : List String := (wordsOf s.toList).map String.ofList

/-- The text with its runs of blanks collapsed and its ends trimmed. -/
def normalize (s : String) : String :=
  String.ofList (trimChars (collapse false s.toList))

end ApiRelease.Text
