import ApiRelease.Console.Markup
import ApiRelease.Console.Wrap
import ApiRelease.Text.Search

/-! # Tables

A table has a centred title, a heavy frame around its headers and a light one around
its rows. A column is as wide as its widest line, with a space on either side.
-/
namespace ApiRelease.Console

inductive Justify where
  | left
  | right
  deriving DecidableEq

def Justify.pad (j : Justify) (width : Nat) (cs : List Char) : List Char :=
  let blanks := List.replicate (width - cs.length) ' '
  match j with
  | .left => cs ++ blanks
  | .right => blanks ++ cs

structure Column where
  header : String
  justify : Justify := .left

structure Table where
  title : String
  columns : List Column
  rows : List (List Value)

structure Stroke where
  start : Char
  fill : Char
  cross : Char
  stop : Char

namespace Stroke

def top : Stroke := ⟨'┏', '━', '┳', '┓'⟩

def headed : Stroke := ⟨'┡', '━', '╇', '┩'⟩

def bottom : Stroke := ⟨'└', '─', '┴', '┘'⟩

def across (s : Stroke) (parts : List (List Char)) : List Char :=
  s.start :: [s.cross].intercalate parts ++ [s.stop]

def draw (s : Stroke) (widths : List Nat) : List Char :=
  s.across (widths.map fun w => List.replicate (w + 2) s.fill)

end Stroke

def headerWall : Stroke := ⟨'┃', ' ', '┃', '┃'⟩

def rowWall : Stroke := ⟨'│', ' ', '│', '│'⟩

abbrev Cell := List (List Char)

def Cell.width (c : Cell) : Nat := (c.map List.length).foldl max 0

def Cell.ofText (s : String) : Except Fault Cell := do
  return Text.splitChars '\n' (← plain s).toList

def cellText : Value → Except Fault String
  | .text s => .ok s
  | .null => .ok ""
  | _ => .error .unprintable

def rowLine (wall : Stroke) (layout : List (Justify × Nat)) (cells : List Cell) (height : Nat) :
    List Char :=
  wall.across ((cells.zip layout).map fun p =>
    ' ' :: p.2.1.pad p.2.2 (p.1.getD height []) ++ [' '])

def rowLines (wall : Stroke) (layout : List (Justify × Nat)) (cells : List Cell) :
    List (List Char) :=
  (List.range ((cells.map List.length).foldl max 1)).map (rowLine wall layout cells)

/-- Centred, one blank more on the right when the blanks are odd in number. -/
def centred (width : Nat) (cs : List Char) : List Char :=
  let shown := Text.trimRight cs
  Justify.left.pad width (List.replicate ((width - shown.length) / 2) ' ' ++ shown)

def titleLines (width : Nat) (title : Cell) : List (List Char) :=
  (title.flatMap (wrap width)).map (centred width)

def columnWidths (headers : List Cell) (rows : List (List Cell)) : List Nat :=
  rows.foldl (fun widths row => widths.zipWith max (row.map Cell.width)) (headers.map Cell.width)

/-- The frame adds two blanks and a stroke to each column, and one stroke at the end. -/
def tableWidth (widths : List Nat) : Nat := (widths.map (· + 3)).foldl (· + ·) 1

def Table.lines (t : Table) : Except Fault (List (List Char)) := do
  let texts ← t.rows.mapM (·.mapM cellText)
  let title ← Cell.ofText t.title
  let headers ← t.columns.mapM fun c => Cell.ofText c.header
  let rows ← texts.mapM (·.mapM Cell.ofText)
  let widths := columnWidths headers rows
  let layout := (t.columns.map Column.justify).zip widths
  return titleLines (tableWidth widths) title ++ [Stroke.top.draw widths] ++
    rowLines headerWall layout headers ++ [Stroke.headed.draw widths] ++
    rows.flatMap (rowLines rowWall layout) ++ [Stroke.bottom.draw widths]

def Table.render (t : Table) : Except Fault String := do
  return String.join ((← t.lines).map fun cs => String.ofList (cs ++ ['\n']))

end ApiRelease.Console
