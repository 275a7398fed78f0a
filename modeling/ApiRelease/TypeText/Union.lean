import ApiRelease.Text.Blank

/-! # Members of a union type

A bar separates members when it stands in no bracket and in no string. A closing
bracket that closes nothing is plain text.
-/
namespace ApiRelease.TypeText

def isQuote (c : Char) : Bool := c == '\'' || c == '"' || c == '\x60'

def isOpening (c : Char) : Bool := c == '(' || c == '[' || c == '\x7b' || c == '<'

def isClosing (c : Char) : Bool := c == ')' || c == ']' || c == '\x7d' || c == '>'

/-- The pieces from here on: inside `depth` brackets, perhaps inside a string that
ends with `quote`, and with the present piece, reversed, so far. -/
def pieces (depth : Nat) (quote : Option Char) (piece : List Char) :
    List Char → List (List Char)
  | [] => [piece.reverse]
  | c :: rest =>
    match quote with
    | some q => pieces depth (if c == q then none else some q) (c :: piece) rest
    | none =>
      if isQuote c then pieces depth (some c) (c :: piece) rest
      else if isOpening c then pieces (depth + 1) none (c :: piece) rest
      else if isClosing c && decide (0 < depth) then pieces (depth - 1) none (c :: piece) rest
      else if c == '|' && depth == 0 then piece.reverse :: pieces depth none [] rest
      else pieces depth none (c :: piece) rest

def unionMembersOf (cs : List Char) : List (List Char) :=
  ((pieces 0 none [] cs).map Text.trimChars).filter fun m => !m.isEmpty

def unionMembers (s : String) : List String := (unionMembersOf s.toList).map String.ofList

end ApiRelease.TypeText
