/-! # A place in a text

Block structure hangs on columns, so a place knows its line and column besides the
rest of the text. Line ends are those of a text read from a file, where a carriage
return no longer occurs.
-/
namespace ApiRelease.Yaml

def isBreak (c : Char) : Bool :=
  c == '\n' || c.toNat == 0x85 || c.toNat == 0x2028 || c.toNat == 0x2029

/-- What a line end stands for in a text that is kept. -/
def kept (c : Char) : Char := if c.toNat == 0x85 then '\n' else c

def isSpaceOrTab (c : Char) : Bool := c == ' ' || c == '\t'

def isGap (c : Char) : Bool := isSpaceOrTab c || isBreak c

structure Cursor where
  rest : List Char
  index : Nat
  line : Nat
  column : Nat

namespace Cursor

def start (cs : List Char) : Cursor := ⟨cs, 0, 0, 0⟩

/-- One character further; the byte order mark takes no column. -/
def next (c : Cursor) : Cursor :=
  match c.rest with
  | [] => c
  | ch :: rest =>
    if isBreak ch then ⟨rest, c.index + 1, c.line + 1, 0⟩
    else if ch.toNat == 0xFEFF then ⟨rest, c.index + 1, c.line, c.column⟩
    else ⟨rest, c.index + 1, c.line, c.column + 1⟩

def advance : Nat → Cursor → Cursor
  | 0, c => c
  | n + 1, c => advance n c.next

def span (p : Char → Bool) (c : Cursor) : List Char × Cursor :=
  let taken := c.rest.takeWhile p
  (taken, c.advance taken.length)

def skip (p : Char → Bool) (c : Cursor) : Cursor := (c.span p).2

def peek? (c : Cursor) : Option Char := c.rest.head?

/-- The text ends here or goes on with a blank or a line end. -/
def atGap (c : Cursor) : Bool := (c.peek?.map isGap).getD true

def begins (c : Cursor) (part : String) : Bool := part.toList.isPrefixOf c.rest

/-- The marks between documents. -/
def atMark (c : Cursor) : Bool :=
  (c.begins "---" || c.begins "...") && (c.advance 3).atGap

end Cursor

end ApiRelease.Yaml
