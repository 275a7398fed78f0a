import ApiRelease.Document.Yaml.Cursor
import ApiRelease.Fault
import ApiRelease.Text.Digit

/-! # Quoted scalars

Between single quotes only the quote itself is written twice; between double quotes
a backslash begins an escape. A line end inside the quotes becomes a space, and
empty lines after it become line ends. An escape may give the number of a character;
that there is no such character is a fault of its own, and half of a surrogate pair is
read as the replacement character.
-/
namespace ApiRelease.Yaml

inductive QuotedFault where
  | illFormed
  | noCharacter
  | hugeNumber
  deriving DecidableEq

def QuotedFault.toFault : QuotedFault → Fault
  | .illFormed => .illFormed
  | .noCharacter => .badCharacter
  | .hugeNumber => .characterTooLarge

abbrev QuotedPart := Except QuotedFault (List Char × Cursor)

/-- Line ends and the blanks between them, as far as they go. A mark between documents
may not stand inside quotes. -/
def breaksFrom : Nat → Cursor → QuotedPart
  | 0, _ => .error .illFormed
  | fuel + 1, c =>
    if c.atMark then .error .illFormed
    else
      let c := c.skip isSpaceOrTab
      match c.rest with
      | ch :: _ =>
        if isBreak ch then (breaksFrom fuel c.next).map fun r => (kept ch :: r.1, r.2)
        else .ok ([], c)
      | [] => .ok ([], c)

/-- What a line end with the empty lines after it is folded to. -/
def folded (first : Char) (more : List Char) : List Char :=
  if kept first != '\n' then kept first :: more else if more.isEmpty then [' '] else more

def quotedGap (fuel : Nat) (c : Cursor) : QuotedPart :=
  let (blanks, c) := c.span isSpaceOrTab
  match c.rest with
  | [] => .error .illFormed
  | ch :: _ =>
    if isBreak ch then (breaksFrom fuel c.next).map fun r => (folded ch r.1, r.2)
    else .ok (blanks, c)

def escapeTable : List (Char × Nat) :=
  [('0', 0), ('a', 7), ('b', 8), ('t', 9), ('\t', 9), ('n', 10), ('v', 11), ('f', 12), ('r', 13),
   ('e', 0x1B), (' ', 0x20), ('"', 0x22), ('\\', 0x5C), ('/', 0x2F), ('N', 0x85), ('_', 0xA0),
   ('L', 0x2028), ('P', 0x2029)]

def numberedEscapes : List (Char × Nat) := [('x', 2), ('u', 4), ('U', 8)]

def ofCode (n : Nat) : Except QuotedFault Char :=
  if n.isValidChar then .ok (Char.ofNat n)
  else if n < 0x110000 then .ok (Char.ofNat 0xFFFD)
  else if n < 0x80000000 then .error .noCharacter
  else .error .hugeNumber

def escape (fuel : Nat) (c : Cursor) : QuotedPart :=
  match c.rest with
  | [] => .error .illFormed
  | e :: rest =>
    match escapeTable.lookup e, numberedEscapes.lookup e with
    | some n, _ => .ok ([Char.ofNat n], c.next)
    | none, some count =>
      let digits := rest.take count
      match digits.length == count, Text.hexNumber? digits with
      | true, some n => (ofCode n).map fun ch => ([ch], c.next.advance count)
      | _, _ => .error .illFormed
    | none, none => if isBreak e then breaksFrom fuel c.next else .error .illFormed

def quotedBody (double : Bool) : Nat → Cursor → QuotedPart
  | 0, _ => .error .illFormed
  | fuel + 1, c =>
    match c.rest with
    | [] => .error .illFormed
    | ch :: rest =>
      let continueWith (r : List Char × Cursor) : QuotedPart :=
        (quotedBody double fuel r.2).map fun s => (r.1 ++ s.1, s.2)
      if isGap ch then (quotedGap fuel c).bind continueWith
      else if double && ch == '"' then .ok ([], c.next)
      else if !double && ch == '\'' then
        if rest.head? == some '\'' then continueWith (['\''], c.advance 2) else .ok ([], c.next)
      else if double && ch == '\\' then (escape fuel c.next).bind continueWith
      else continueWith ([ch], c.next)

def quotedScalar (double : Bool) (c : Cursor) : Except QuotedFault (String × Cursor) :=
  (quotedBody double (c.rest.length + 1) c.next).map fun r => (String.ofList r.1, r.2)

end ApiRelease.Yaml
