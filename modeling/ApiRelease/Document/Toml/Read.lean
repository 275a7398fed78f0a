import ApiRelease.Document.Toml.Moment
import ApiRelease.Fault

/-! # Reading TOML

A text is a list of statements: a key with its value, the header of a table, or the
header of an entry in a list of tables. A key is given once; a value given in
brackets or braces is closed and cannot be added to, and a table is opened by its
header once.
-/
namespace ApiRelease.Toml

abbrev Path := List String

def isBareChar (c : Char) : Bool := c.isAlphanum || c == '-' || c == '_'

def keyPart? (cs : List Char) : Parsed String :=
  match cs.takeWhile isBareChar with
  | [] => lineString? cs
  | bare => some (String.ofList bare, cs.dropWhile isBareChar)

def key? : Nat → List Char → Parsed Path
  | 0, _ => none
  | fuel + 1, cs =>
    match keyPart? cs with
    | none => none
    | some (part, rest) =>
      match skipBlanks rest with
      | '.' :: more => (key? fuel (skipBlanks more)).map fun r => (part :: r.1, r.2)
      | rest => some ([part], rest)

/-- Passes a comment, which has no control characters. -/
def skipComment (cs : List Char) : Option (List Char) :=
  match cs with
  | '#' :: rest =>
    if (rest.takeWhile (· != '\n')).all (allowedIn false) then some (rest.dropWhile (· != '\n'))
    else none
  | _ => some cs

/-- Passes blanks, line ends and comments inside brackets. -/
def skipFiller : Nat → List Char → Option (List Char)
  | 0, _ => none
  | fuel + 1, cs =>
    let rest := cs.dropWhile isBlankOrBreak
    match rest with
    | '#' :: _ => (skipComment rest).bind (skipFiller fuel)
    | _ => some rest

/-- Changes the table at a path, making it if need be. Through a list of tables the
path goes to the last of them, where that is allowed. -/
def updateAt (throughLists : Bool) (change : Fields → Option Fields) : Path → Fields → Option Fields
  | [], fs => change fs
  | k :: path, fs =>
    match Fields.find? k fs with
    | none =>
      (updateAt throughLists change path []).map fun sub => fs ++ ([(k, .table sub)] : Fields)
    | some (.table sub) =>
      (updateAt throughLists change path sub).map fun sub => Fields.set k (.table sub) fs
    | some (.list items) =>
      match throughLists, items.getLast? with
      | true, some (.table sub) =>
        (updateAt throughLists change path sub).map fun sub =>
          Fields.set k (.list (items.dropLast ++ [.table sub])) fs
      | _, _ => none
    | some _ => none

/-- Adds a field that is not there yet. -/
def addNew (key : String) (v : Value) (fs : Fields) : Option Fields :=
  if Fields.has fs key then none else some (fs ++ ([(key, v)] : Fields))

def addAt (throughLists : Bool) (path : Path) (v : Value) (fs : Fields) : Option Fields :=
  match path.getLast? with
  | none => none
  | some key => updateAt throughLists (addNew key v) path.dropLast fs

def isClosedValue : Value → Bool
  | .list _ | .table _ => true
  | _ => false

/-- A path inside one of the closed values. -/
def isClosed (closed : List Path) (path : Path) : Bool := closed.any fun c => c.isPrefixOf path

abbrev Reading (α : Type) := Except Fault (α × List Char)

/-- What has no reading breaks the rules of the format. -/
def orIllFormed {α : Type} : Option α → Except Fault α
  | some a => .ok a
  | none => .error .illFormed

def plainValue (cs : List Char) : Reading Value :=
  match moment? cs, number? cs with
  | some (.ok m, rest), _ => .ok (.scalar (.moment m), rest)
  | some (.error _, _), _ => .error .illFormed
  | none, some (.ok v, rest) => .ok (v, rest)
  | none, some (.error (.tooLong count), _) => .error (.tooManyDigits count)
  | none, some (.error .malformed, _) => .error .illFormed
  | none, none => .error .illFormed

mutual

def value : Nat → List Char → Reading Value
  | 0, _ => .error .illFormed
  | fuel + 1, cs =>
    match cs with
    | '"' :: _ | '\'' :: _ => orIllFormed ((string? cs).map fun r => (.text r.1, r.2))
    | '[' :: rest =>
      match skipFiller cs.length rest with
      | none => .error .illFormed
      | some rest => (items fuel rest).map fun r => (.list r.1, r.2)
    | '\x7b' :: rest =>
      match skipBlanks rest with
      | '\x7d' :: after => .ok (.table [], after)
      | inside => (pairs [] [] fuel inside).map fun r => (.table r.1, r.2)
    | _ =>
      if "true".toList.isPrefixOf cs then .ok (.bool true, cs.drop 4)
      else if "false".toList.isPrefixOf cs then .ok (.bool false, cs.drop 5)
      else plainValue cs

/-- Entries of a list; a comma may stand after the last. -/
def items : Nat → List Char → Reading (List Value)
  | 0, _ => .error .illFormed
  | fuel + 1, cs =>
    match cs with
    | ']' :: after => .ok ([], after)
    | _ =>
      match value fuel cs with
      | .error f => .error f
      | .ok (v, rest) =>
        match skipFiller (rest.length + 1) rest with
        | some (']' :: after) => .ok ([v], after)
        | some (',' :: more) =>
          match skipFiller (more.length + 1) more with
          | none => .error .illFormed
          | some rest => (items fuel rest).map fun r => (v :: r.1, r.2)
        | _ => .error .illFormed

/-- Pairs of an inline table, added to those read before. -/
def pairs (fs : Fields) (closed : List Path) : Nat → List Char → Reading Fields
  | 0, _ => .error .illFormed
  | fuel + 1, cs =>
    match key? (cs.length + 1) cs with
    | some (path, '=' :: rest) =>
      match value fuel (skipBlanks rest) with
      | .error f => .error f
      | .ok (v, rest) =>
        if isClosed closed path then .error .illFormed
        else
          match addAt false path v fs with
          | none => .error .illFormed
          | some fs =>
            match skipBlanks rest with
            | '\x7d' :: after => .ok (fs, after)
            | ',' :: more =>
              pairs fs (if isClosedValue v then path :: closed else closed) fuel (skipBlanks more)
            | _ => .error .illFormed
    | _ => .error .illFormed

end

structure Draft where
  fields : Fields
  /-- paths of values that cannot be added to -/
  closed : List Path
  /-- paths of tables that have been opened -/
  opened : List Path
  /-- tables made by keys with points, opened once the present table ends -/
  implied : List Path
  header : Path

namespace Draft

def empty : Draft := ⟨[], [], [], [], []⟩

/-- The proper beginnings of a path below the header. -/
def beginnings (header key : Path) : List Path :=
  (List.range (key.length - 1)).map fun i => header ++ key.take (i + 1)

def assign (d : Draft) (key : Path) (v : Value) : Option Draft := do
  let inner := beginnings d.header key
  if inner.any d.opened.contains then none
  if isClosed d.closed (d.header ++ key.dropLast) then none
  let fields ← addAt true (d.header ++ key) v d.fields
  return { d with
    fields
    implied := d.implied ++ inner
    closed := if isClosedValue v then (d.header ++ key) :: d.closed else d.closed }

def settle (d : Draft) : Draft := { d with opened := d.opened ++ d.implied, implied := [] }

def openTable (d : Draft) (key : Path) : Option Draft := do
  let d := d.settle
  if d.opened.contains key || isClosed d.closed key then none
  let fields ← updateAt true some key d.fields
  return { d with fields, opened := key :: d.opened, header := key }

def addEntry (key : String) (fs : Fields) : Option Fields :=
  match Fields.get fs key, Fields.has fs key with
  | _, false => some (fs ++ ([(key, .list [.table []])] : Fields))
  | .list items, true => some (Fields.set key (.list (items ++ [.table []])) fs)
  | _, true => none

/-- Begins a further entry of a list of tables; what was opened below the last entry
may be opened again. -/
def openEntry (d : Draft) (key : Path) : Option Draft := do
  let d := d.settle
  if isClosed d.closed key then none
  let last ← key.getLast?
  let fields ← updateAt true (addEntry last) key.dropLast d.fields
  let outside (p : Path) : Bool := !key.isPrefixOf p
  return { d with
    fields
    closed := d.closed.filter outside
    opened := key :: d.opened.filter outside
    header := key }

end Draft

def statement (d : Draft) (cs : List Char) : Reading Draft :=
  let key (cs : List Char) := key? (cs.length + 1) cs
  match cs with
  | '[' :: '[' :: rest =>
    match key (skipBlanks rest) with
    | some (path, ']' :: ']' :: after) => orIllFormed ((d.openEntry path).map (·, after))
    | _ => .error .illFormed
  | '[' :: rest =>
    match key (skipBlanks rest) with
    | some (path, ']' :: after) => orIllFormed ((d.openTable path).map (·, after))
    | _ => .error .illFormed
  | '#' :: _ => .ok (d, cs)
  | _ =>
    match key cs with
    | some (path, '=' :: rest) =>
      let rest := skipBlanks rest
      match value (2 * rest.length + 2) rest with
      | .ok (v, after) => orIllFormed ((d.assign path v).map (·, after))
      | .error f => .error f
    | _ => .error .illFormed

/-- Statements to the end of the text, each on a line of its own. -/
def statements : Nat → Draft → List Char → Except Fault Draft
  | 0, _, _ => .error .illFormed
  | fuel + 1, d, cs =>
    match skipBlanks cs with
    | [] => .ok d
    | '\n' :: rest => statements fuel d rest
    | cs =>
      match statement d cs with
      | .error f => .error f
      | .ok (d, rest) =>
        match skipComment (skipBlanks rest) with
        | some [] => .ok d
        | some ('\n' :: rest) => statements fuel d rest
        | _ => .error .illFormed

def read (s : String) : Except Fault Value :=
  let cs := s.toList
  (statements (cs.length + 1) .empty cs).map fun d => .table d.fields

end ApiRelease.Toml
