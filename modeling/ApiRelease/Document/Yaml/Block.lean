import ApiRelease.Document.Yaml.Cursor

/-! # Block scalars

A literal scalar keeps its lines; a folded one joins lines that begin with
something else than a blank. The first line that is not empty gives the indentation,
unless the header does. The header also says what becomes of the line ends at the
end: all but one are dropped, all are dropped, or all are kept.
-/
namespace ApiRelease.Yaml

inductive Chomping where
  | clip
  | strip
  | keep
  deriving DecidableEq

structure BlockHeader where
  chomping : Chomping
  /-- how far the lines are indented, where the header says it -/
  increment : Option Nat

def chomping? : Option Char → Option Chomping
  | some '+' => some .keep
  | some '-' => some .strip
  | _ => none

def increment? (c : Option Char) : Option Nat :=
  c.bind fun d => if d.isDigit then some (d.toNat - 0x30) else none

/-- The header after the mark of a block scalar, up to the end of its line. -/
def blockHeader (c : Cursor) : Option (BlockHeader × Cursor) := do
  let (header, c) : BlockHeader × Cursor :=
    match chomping? c.peek?, increment? c.peek? with
    | some chomping, _ =>
      match increment? c.next.peek? with
      | some n => (⟨chomping, some n⟩, c.advance 2)
      | none => (⟨chomping, none⟩, c.next)
    | none, some n =>
      match chomping? c.next.peek? with
      | some chomping => (⟨chomping, some n⟩, c.advance 2)
      | none => (⟨.clip, some n⟩, c.next)
    | none, none => (⟨.clip, none⟩, c)
  if header.increment == some 0 then none
  if !(c.peek?.map fun ch => ch == ' ' || isBreak ch).getD true then none
  let c := c.skip (· == ' ')
  let c := if c.peek? == some '#' then c.skip fun ch => !isBreak ch else c
  match c.peek? with
  | none => return (header, c)
  | some ch => if isBreak ch then return (header, c.next) else none

/-- Leading spaces and line ends, with the greatest column that a space reached. -/
def leadingLines : Nat → Nat → Cursor → List Char × Nat × Cursor
  | 0, widest, c => ([], widest, c)
  | fuel + 1, widest, c =>
    match c.rest with
    | [] => ([], widest, c)
    | ch :: _ =>
      if ch == ' ' then leadingLines fuel (max widest c.next.column) c.next
      else if isBreak ch then
        let (breaks, widest, after) := leadingLines fuel widest c.next
        (kept ch :: breaks, widest, after)
      else ([], widest, c)

def spacesBefore (indent : Nat) : Nat → Cursor → Cursor
  | 0, c => c
  | fuel + 1, c =>
    if c.column < indent && c.peek? == some ' ' then spacesBefore indent fuel c.next else c

/-- Empty lines, and the spaces of the line after them up to a column. -/
def emptyLines (indent : Nat) : Nat → Cursor → List Char × Cursor
  | 0, c => ([], c)
  | fuel + 1, c =>
    let c := spacesBefore indent indent c
    match c.rest with
    | [] => ([], c)
    | ch :: _ =>
      if isBreak ch then
        let (breaks, after) := emptyLines indent fuel c.next
        (kept ch :: breaks, after)
      else ([], c)

/-- The lines of a scalar from one that stands at the indentation on. What comes back
are its characters, the last line end and the empty lines after it. -/
def blockLines (isFolded : Bool) (indent : Nat) :
    Nat → List Char → Cursor → List Char × List Char × List Char × Cursor
  | 0, breaks, c => ([], [], breaks, c)
  | fuel + 1, breaks, c =>
    if c.column != indent || c.rest.isEmpty then ([], [], breaks, c)
    else
      let indented := (c.peek?.map isSpaceOrTab).getD false
      let (line, c) := c.span fun ch => !isBreak ch
      let (ending, c) : List Char × Cursor :=
        match c.rest with
        | ch :: _ => ([kept ch], c.next)
        | [] => ([], c)
      let (more, c) := emptyLines indent (c.rest.length + 1) c
      if c.column == indent && !c.rest.isEmpty then
        let joint :=
          if isFolded && ending == ['\n'] && !indented && !(c.peek?.map isSpaceOrTab).getD false then
            if more.isEmpty then [' '] else []
          else ending
        let (rest, last, after, c) := blockLines isFolded indent fuel more c
        (breaks ++ line ++ joint ++ rest, last, after, c)
      else (breaks ++ line, ending, more, c)

def blockScalar (isFolded : Bool) (parent : Int) (c : Cursor) : Option (String × Cursor) := do
  let (header, c) ← blockHeader c.next
  let least := (max 1 (parent + 1)).toNat
  let fuel := c.rest.length + 1
  let (indent, breaks, c) : Nat × List Char × Cursor :=
    match header.increment with
    | none =>
      let (breaks, widest, c) := leadingLines fuel 0 c
      (max least widest, breaks, c)
    | some n =>
      let indent := least + n - 1
      let (breaks, c) := emptyLines indent fuel c
      (indent, breaks, c)
  let (body, last, after, c) := blockLines isFolded indent fuel breaks c
  let tail :=
    match header.chomping with
    | .clip => last
    | .strip => []
    | .keep => last ++ after
  return (String.ofList (body ++ tail), c)

end ApiRelease.Yaml
