import ApiRelease.Document.Yaml.Cursor
import ApiRelease.Text.Digit

/-! # Tags and directives

A tag says what a node is. It is written out between `!<` and `>`, or as a handle and a
suffix; a directive may say what a handle stands for. The tag `!` alone leaves the
question to the node itself.
-/
namespace ApiRelease.Yaml

inductive Tag where
  | null
  | bool
  | int
  | float
  | str
  | binary
  | timestamp
  | seq
  | map
  | set
  | omap
  | pairs
  | merge
  | value
  /-- a tag that nothing can be made of -/
  | other
  deriving DecidableEq

def commonTags : String := "tag:yaml.org,2002:"

def Tag.names : List (String × Tag) :=
  [("null", .null), ("bool", .bool), ("int", .int), ("float", .float), ("str", .str),
   ("binary", .binary), ("timestamp", .timestamp), ("seq", .seq), ("map", .map), ("set", .set),
   ("omap", .omap), ("pairs", .pairs), ("merge", .merge), ("value", .value)]

def Tag.ofName (name : String) : Tag :=
  ((Tag.names.find? fun t => commonTags ++ t.1 == name).map (·.2)).getD .other

structure TagText where
  handle : Option String
  suffix : String
  deriving DecidableEq

inductive Directive where
  | version (major : Nat)
  | handle (name meaning : String)
  | unknown
  deriving DecidableEq

def commonHandles : List (String × String) := [("!", "!"), ("!!", commonTags)]

def TagText.name? (handles : List (String × String)) (t : TagText) : Option String :=
  match t.handle with
  | none => some t.suffix
  | some h => (handles.lookup h).map (· ++ t.suffix)

def isNameChar (c : Char) : Bool := c.isAlphanum || c == '-' || c == '_'

/-- The text ends here or goes on with a space or a line end. -/
def atSpace (c : Cursor) : Bool := (c.peek?.map fun ch => ch == ' ' || isBreak ch).getD true

def tagMarks : List Char :=
  ['-', ';', '/', '?', ':', '@', '&', '=', '+', '$', ',', '_', '.', '!', '~', '*', '\'', '(', ')',
   '[', ']']

def isTagChar (c : Char) : Bool := c.isAlphanum || tagMarks.contains c

/-- Bytes written as `%` and two digits, as many as there are. -/
def escapedBytes : Nat → Cursor → Option (List UInt8 × Cursor)
  | 0, _ => none
  | fuel + 1, c =>
    match c.rest with
    | '%' :: a :: b :: _ =>
      match Text.hexNumber? [a, b] with
      | none => none
      | some n => (escapedBytes fuel (c.advance 3)).map fun r => (UInt8.ofNat n :: r.1, r.2)
    | '%' :: _ => none
    | _ => some ([], c)

/-- Parts of a name, plain or escaped. -/
def nameParts : Nat → Cursor → Option (List String × Cursor)
  | 0, _ => none
  | fuel + 1, c =>
    if c.peek? == some '%' then
      match escapedBytes (c.rest.length + 1) c with
      | none => none
      | some (bytes, c) =>
        match String.fromUTF8? ⟨bytes.toArray⟩ with
        | none => none
        | some s => (nameParts fuel c).map fun r => (s :: r.1, r.2)
    else
      let (plain, after) := c.span isTagChar
      if plain.isEmpty then some ([], c)
      else (nameParts fuel after).map fun r => (String.ofList plain :: r.1, r.2)

def tagName? (c : Cursor) : Option (String × Cursor) :=
  match nameParts (c.rest.length + 1) c with
  | none | some ([], _) => none
  | some (parts, c) => some (String.join parts, c)

/-- A handle: one `!`, or two with a word between them that may be empty. -/
def tagHandle? (c : Cursor) : Option (String × Cursor) :=
  match c.rest with
  | '!' :: rest =>
    if rest.head? == some ' ' then some ("!", c.next)
    else
      let word := rest.takeWhile isNameChar
      if (rest.drop word.length).head? == some '!' then
        some ("!" ++ String.ofList word ++ "!", c.advance (word.length + 2))
      else none
  | _ => none

/-- A tag from its `!` on, without a look at what follows it. -/
def tagHead? (c : Cursor) : Option (TagText × Cursor) :=
  let word := c.rest.tail.takeWhile fun ch => !(ch == ' ' || isBreak ch)
  if c.next.peek? == some '<' then do
    let (name, after) ← tagName? (c.advance 2)
    if after.peek? == some '>' then some (⟨none, name⟩, after.next) else none
  else if c.next.atGap then some (⟨none, "!"⟩, c.next)
  else if word.contains '!' then do
    let (handle, after) ← tagHandle? c
    let (name, after) ← tagName? after
    some (⟨some handle, name⟩, after)
  else do
    let (name, after) ← tagName? c.next
    some (⟨some "!", name⟩, after)

/-- A tag, which a space or the end of the line follows. -/
def tagText? (c : Cursor) : Option (TagText × Cursor) :=
  (tagHead? c).filter fun r => atSpace r.2

/-- Passes the rest of a line, in which only a comment may stand. -/
def lineEnd? (c : Cursor) : Option Cursor :=
  let c := c.skip (· == ' ')
  let c := if c.peek? == some '#' then c.skip fun ch => !isBreak ch else c
  match c.peek? with
  | none => some c
  | some ch => if isBreak ch then some c.next else none

def number? (c : Cursor) : Option (Nat × Cursor) :=
  let (ds, after) := c.span Char.isDigit
  if ds.isEmpty then none
  else some (ds.foldl (fun n d => 10 * n + (d.toNat - 0x30)) 0, after)

def version? (c : Cursor) : Option (Directive × Cursor) := do
  let (major, c) ← number? (c.skip (· == ' '))
  if c.peek? != some '.' then none
  let (_, c) ← number? c.next
  if atSpace c then return (.version major, c) else none

def handleMeaning? (c : Cursor) : Option (Directive × Cursor) := do
  let (name, c) ← tagHandle? (c.skip (· == ' '))
  if c.peek? != some ' ' then none
  let (meaning, c) ← tagName? (c.skip (· == ' '))
  if atSpace c then return (.handle name meaning, c) else none

def directive? (c : Cursor) : Option (Directive × Cursor) := do
  let (name, c) := c.next.span isNameChar
  if name.isEmpty || !atSpace c then none
  let (d, c) ←
    if name == "YAML".toList then version? c
    else if name == "TAG".toList then handleMeaning? c
    else some (.unknown, c.skip fun ch => !isBreak ch)
  return (d, ← lineEnd? c)

end ApiRelease.Yaml
