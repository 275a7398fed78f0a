import ApiRelease.Document.Yaml.Block
import ApiRelease.Document.Yaml.Plain
import ApiRelease.Document.Yaml.Tag

/-! # The tokens of a YAML text

Indentation becomes tokens that open and close blocks. That something is a key is
known only when the colon after it comes, so the places where a key could have begun
are remembered, one for each level of brackets, and the key mark is put there
afterwards. Tokens from such a place on are held back until that is known, so a scalar
that cannot be read hides them.
-/
namespace ApiRelease.Yaml

inductive Token where
  | documentStart
  | documentEnd
  | sequenceStart
  | mappingStart
  | blockEnd
  | entry
  | key
  | value
  | flowSequenceStart
  | flowSequenceEnd
  | flowMappingStart
  | flowMappingEnd
  | flowEntry
  | anchor (name : String)
  | alias (name : String)
  | tag (text : TagText)
  | directive (d : Directive)
  | scalar (text : String) (plain : Bool)
  /-- a scalar that cannot be read; no token follows it -/
  | broken (cause : QuotedFault)
  deriving DecidableEq

structure Pending where
  /-- how many tokens stand before it -/
  place : Nat
  /-- nothing but a key can stand there -/
  required : Bool
  index : Nat
  line : Nat
  column : Nat

structure Scan where
  cursor : Cursor
  tokens : List Token
  /-- the possible key of each level of brackets, the innermost first -/
  pending : List (Option Pending)
  indent : Int
  outerIndents : List Int
  keyAllowed : Bool
  /-- how many tokens were not held back when the search for the next one began -/
  settled : Nat

namespace Scan

def start (cs : List Char) : Scan :=
  { cursor := .start cs, tokens := [], pending := [none], indent := -1, outerIndents := [],
    keyAllowed := true, settled := 0 }

def inFlow (s : Scan) : Bool := decide (1 < s.pending.length)

def emit (s : Scan) (t : Token) : Scan := { s with tokens := s.tokens ++ [t] }

def move (s : Scan) (n : Nat) : Scan := { s with cursor := s.cursor.advance n }

def allowKey (s : Scan) (allowed : Bool) : Scan := { s with keyAllowed := allowed }

def unwindFrom (column : Int) : Int → List Int → Nat × Int × List Int
  | indent, [] => (0, indent, [])
  | indent, outer :: more =>
    if column < indent then
      let (n, i, rest) := unwindFrom column outer more
      (n + 1, i, rest)
    else (0, indent, outer :: more)

def unwind (s : Scan) (column : Int) : Scan :=
  if s.inFlow then s
  else
    let (n, indent, outer) := unwindFrom column s.indent s.outerIndents
    { s with tokens := s.tokens ++ List.replicate n .blockEnd, indent, outerIndents := outer }

def opensBlock (s : Scan) (column : Nat) : Bool := decide (s.indent < column)

def openBlock (s : Scan) (column : Nat) : Scan :=
  if s.opensBlock column then
    { s with indent := column, outerIndents := s.indent :: s.outerIndents }
  else s

/-- Forgets the possible key of this level; a required one must not be lost. -/
def dropKey (s : Scan) : Option Scan :=
  match s.pending with
  | some p :: outer => if p.required then none else some { s with pending := none :: outer }
  | _ => some s

/-- Remembers that a key may begin here. -/
def saveKey (s : Scan) : Option Scan :=
  if !s.keyAllowed then some s
  else do
    let s ← s.dropKey
    let p : Pending :=
      { place := s.tokens.length, required := !s.inFlow && s.indent == s.cursor.column,
        index := s.cursor.index, line := s.cursor.line, column := s.cursor.column }
    return { s with pending := some p :: s.pending.drop 1 }

/-- A key stands on one line and is not longer than this. -/
def longestKey : Nat := 1024

def isStale (s : Scan) (p : Pending) : Bool :=
  p.line != s.cursor.line || decide (longestKey < s.cursor.index - p.index)

/-- Forgets the keys that can no longer be any. -/
def dropStale (s : Scan) : Option Scan := do
  let pending ← s.pending.mapM fun k =>
    match k with
    | none => some none
    | some p => if s.isStale p then (if p.required then none else some none) else some (some p)
  return { s with pending }

/-- Passes spaces, comments and line ends. -/
def toToken : Nat → Scan → Scan
  | 0, s => s
  | fuel + 1, s =>
    let c := s.cursor.skip (· == ' ')
    let c := if c.peek? == some '#' then c.skip fun ch => !isBreak ch else c
    match c.rest with
    | ch :: _ =>
      if isBreak ch then
        toToken fuel { s with cursor := c.next, keyAllowed := s.keyAllowed || !s.inFlow }
      else { s with cursor := c }
    | [] => { s with cursor := c }

def documentMark (s : Scan) (t : Token) : Option Scan := do
  let s ← (s.unwind (-1)).dropKey
  return ((s.allowKey false).emit t).move 3

def flowStart (s : Scan) (t : Token) : Option Scan := do
  let s ← s.saveKey
  return ({ s with pending := none :: s.pending, keyAllowed := true }.emit t).move 1

def flowEnd (s : Scan) (t : Token) : Option Scan := do
  let s ← s.dropKey
  if !s.inFlow then none
  return ({ s with pending := s.pending.drop 1, keyAllowed := false }.emit t).move 1

def flowSeparator (s : Scan) : Option Scan := do
  let s ← (s.allowKey true).dropKey
  return (s.emit .flowEntry).move 1

/-- Opens a block here for an entry, a key or a value that stands by itself. -/
def blockHere (s : Scan) (opening : Token) : Option Scan :=
  if s.inFlow then some s
  else if !s.keyAllowed then none
  else
    let column := s.cursor.column
    some (if s.opensBlock column then (s.openBlock column).emit opening else s)

def blockEntry (s : Scan) : Option Scan := do
  let s ← s.blockHere .sequenceStart
  let s ← (s.allowKey true).dropKey
  return (s.emit .entry).move 1

def explicitKey (s : Scan) : Option Scan := do
  let s ← s.blockHere .mappingStart
  let s ← (s.allowKey !s.inFlow).dropKey
  return (s.emit .key).move 1

/-- Puts the key mark where the key began, and the opening of its block before it. -/
def insertKey (s : Scan) (p : Pending) : Scan :=
  let opening := !s.inFlow && s.opensBlock p.column
  let marks := if opening then [Token.mappingStart, .key] else [.key]
  let s := { s with
    tokens := s.tokens.take p.place ++ marks ++ s.tokens.drop p.place
    pending := none :: s.pending.drop 1
    keyAllowed := false }
  if opening then s.openBlock p.column else s

def colon (s : Scan) : Option Scan := do
  let s ←
    match s.pending with
    | some p :: _ => some (s.insertKey p)
    | _ => do
      let s ← s.blockHere .mappingStart
      (s.allowKey !s.inFlow).dropKey
  return (s.emit .value).move 1

def nameEnds : List Char := ['?', ':', ',', ']', '\x7d', '%', '@', '\x60']

def named (s : Scan) (t : String → Token) : Option Scan := do
  let s ← s.saveKey
  let (name, c) := s.cursor.next.span isNameChar
  if name.isEmpty then none
  if !(c.peek?.map fun ch => isGap ch || nameEnds.contains ch).getD true then none
  return ({ s with cursor := c, keyAllowed := false }).emit (t (String.ofList name))

def tag (s : Scan) : Option Scan := do
  let s ← s.saveKey
  let (text, c) ← tagText? s.cursor
  return ({ s with cursor := c, keyAllowed := false }).emit (.tag text)

def directive (s : Scan) : Option Scan := do
  let s ← (s.unwind (-1)).dropKey
  let (d, c) ← directive? s.cursor
  return ({ s with cursor := c, keyAllowed := false }).emit (.directive d)

/-- Ends with a scalar that cannot be read, in the place of all tokens held back. -/
def stop (s : Scan) (cause : QuotedFault) : Scan :=
  { s with cursor := { s.cursor with rest := [] }, pending := [none],
           tokens := s.tokens.take s.settled ++ [.broken cause] }

def quoted (s : Scan) (double : Bool) : Option Scan := do
  let s ← s.saveKey
  match quotedScalar double s.cursor with
  | .ok (text, c) => return ({ s with cursor := c, keyAllowed := false }).emit (.scalar text false)
  | .error .illFormed => none
  | .error cause => return s.stop cause

def block (s : Scan) (isFolded : Bool) : Option Scan := do
  let s ← (s.allowKey true).dropKey
  let (text, c) ← blockScalar isFolded s.indent s.cursor
  return ({ s with cursor := c }).emit (.scalar text false)

def plain (s : Scan) : Option Scan := do
  let s ← s.saveKey
  let (text, c, broken) := plainScalar s.inFlow s.indent s.cursor
  return ({ s with cursor := c, keyAllowed := broken }).emit (.scalar text true)

/-- Characters that no plain scalar begins with, but for the first three before a
character that belongs to it. -/
def indicators : List Char :=
  ['-', '?', ':', ',', '[', ']', '\x7b', '\x7d', '#', '&', '*', '!', '|', '>', '\'', '"', '%', '@',
   '\x60']

def beginsPlain (s : Scan) (ch : Char) : Bool :=
  !(isGap ch || indicators.contains ch) ||
    (!s.cursor.next.atGap && (ch == '-' || (!s.inFlow && (ch == '?' || ch == ':'))))

def token (s : Scan) (ch : Char) : Option Scan :=
  let gapAfter := s.cursor.next.atGap
  if ch == '%' && s.cursor.column == 0 then s.directive
  else if s.cursor.column == 0 && s.cursor.atMark then
    s.documentMark (if ch == '-' then .documentStart else .documentEnd)
  else if ch == '[' then s.flowStart .flowSequenceStart
  else if ch == '\x7b' then s.flowStart .flowMappingStart
  else if ch == ']' then s.flowEnd .flowSequenceEnd
  else if ch == '\x7d' then s.flowEnd .flowMappingEnd
  else if ch == ',' then s.flowSeparator
  else if ch == '-' && gapAfter then s.blockEntry
  else if ch == '?' && (s.inFlow || gapAfter) then s.explicitKey
  else if ch == ':' && (s.inFlow || gapAfter) then s.colon
  else if ch == '*' then s.named .alias
  else if ch == '&' then s.named .anchor
  else if ch == '!' then s.tag
  else if ch == '|' && !s.inFlow then s.block false
  else if ch == '>' && !s.inFlow then s.block true
  else if ch == '\'' then s.quoted false
  else if ch == '"' then s.quoted true
  else if s.beginsPlain ch then s.plain
  else none

/-- Notes how many tokens are not held back by a possible key. -/
def settle (s : Scan) : Scan :=
  let places := s.pending.filterMap fun k => (k.filter fun p => !s.isStale p).map (·.place)
  { s with settled := places.foldl min s.tokens.length }

def run : Nat → Scan → Option (List Token)
  | 0, _ => none
  | fuel + 1, s => do
    let s ← (toToken (s.cursor.rest.length + 1) s.settle).dropStale
    let s := s.unwind s.cursor.column
    match s.cursor.rest with
    | [] => return (← (s.unwind (-1)).dropKey).tokens
    | ch :: _ => run fuel (← s.token ch)

end Scan

def isAllowed (c : Char) : Bool :=
  let n := c.toNat
  n == 9 || n == 10 || n == 13 || (decide (0x20 ≤ n) && decide (n ≤ 0x7E)) || n == 0x85 ||
    (decide (0xA0 ≤ n) && n != 0xFFFE && n != 0xFFFF)

def dropMark : List Char → List Char
  | c :: rest => if c.toNat == 0xFEFF then rest else c :: rest
  | [] => []

def tokens? (s : String) : Option (List Token) :=
  let cs := dropMark s.toList
  if cs.all isAllowed then Scan.run (cs.length + 1) (.start cs) else none

end ApiRelease.Yaml
