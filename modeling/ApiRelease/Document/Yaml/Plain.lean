import ApiRelease.Document.Yaml.Quoted

/-! # Plain scalars

A plain scalar ends before a comment, before a colon that a gap follows, and inside
brackets before any mark of those. It goes on over lines that are indented enough.
-/
namespace ApiRelease.Yaml

def flowMarks : List Char := [',', '?', '[', ']', '\x7b', '\x7d']

/-- Characters after which a colon inside brackets ends a scalar. -/
def flowEnds : List Char := [',', '[', ']', '\x7b', '\x7d']

def plainWord (inFlow : Bool) : List Char → List Char
  | [] => []
  | ch :: rest =>
    let ends (next : Option Char) : Bool :=
      (next.map fun n => isGap n || (inFlow && flowEnds.contains n)).getD true
    if isGap ch || (ch == ':' && ends rest.head?) || (inFlow && flowMarks.contains ch) then []
    else ch :: plainWord inFlow rest

/-- Line ends and spaces, none of them before a mark between documents. -/
def plainBreaks : Nat → Cursor → Option (List Char × Cursor)
  | 0, _ => none
  | fuel + 1, c =>
    match c.rest with
    | ch :: _ =>
      if ch == ' ' then plainBreaks fuel c.next
      else if isBreak ch then
        if c.next.atMark then none
        else (plainBreaks fuel c.next).map fun r => (kept ch :: r.1, r.2)
      else some ([], c)
    | [] => some ([], c)

/-- What stands between two words, and whether it holds a line end; nothing when the
scalar ends here. -/
structure PlainGap where
  text : List Char
  cursor : Cursor
  broken : Bool

def plainGap (c : Cursor) : PlainGap :=
  let (blanks, after) := c.span (· == ' ')
  match after.rest with
  | ch :: _ =>
    if isBreak ch then
      if after.next.atMark then ⟨[], after.next, true⟩
      else
        match plainBreaks (after.rest.length + 1) after.next with
        | some (breaks, end_) => ⟨folded ch breaks, end_, true⟩
        | none => ⟨[], after.next, true⟩
    else ⟨blanks, after, false⟩
  | [] => ⟨blanks, after, false⟩

/-- The words of a scalar, from one on, with the place after them and whether a line
end was passed since the last word. -/
def plainWords (inFlow : Bool) (indent : Int) : Nat → Cursor → List Char × Cursor × Bool
  | 0, c => ([], c, false)
  | fuel + 1, c =>
    let word := plainWord inFlow c.rest
    let gap := plainGap (c.advance word.length)
    let next := gap.cursor
    if gap.text.isEmpty || next.peek? == some '#' || (!inFlow && (next.column : Int) < indent) ||
        (plainWord inFlow next.rest).isEmpty then
      (word, next, gap.broken)
    else
      let (more, after, broken) := plainWords inFlow indent fuel next
      (word ++ gap.text ++ more, after, broken)

/-- A plain scalar inside a block at column `parent`. -/
def plainScalar (inFlow : Bool) (parent : Int) (c : Cursor) : String × Cursor × Bool :=
  let (text, after, broken) := plainWords inFlow (parent + 1) (c.rest.length + 1) c
  (String.ofList text, after, broken)

end ApiRelease.Yaml
