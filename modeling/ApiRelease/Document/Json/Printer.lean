import ApiRelease.Document.Show

/-! # Writing JSON

Only ASCII is written; other characters are escaped by UTF-16 units. The document
goes on one line, or with each entry on a line of its own. A key is written as the
text of its scalar, a pair as a list, and what JSON has no form for as its text.
-/
namespace ApiRelease.Json

def unitEscape (n : Nat) : List Char := '\\' :: 'u' :: Text.hexDigits 4 n

def escapedChar (c : Char) : List Char :=
  let n := c.toNat
  if c == '"' then ['\\', '"']
  else if c == '\\' then ['\\', '\\']
  else if c == '\n' then ['\\', 'n']
  else if c == '\r' then ['\\', 'r']
  else if c == '\t' then ['\\', 't']
  else if n == 8 then ['\\', 'b']
  else if n == 12 then ['\\', 'f']
  else if decide (0x20 ≤ n) && decide (n < 0x7F) then [c]
  else if n < 0x10000 then unitEscape n
  else unitEscape (0xD800 + (n - 0x10000) / 0x400) ++ unitEscape (0xDC00 + (n - 0x10000) % 0x400)

def string (s : String) : String :=
  String.ofList ('"' :: s.toList.flatMap escapedChar ++ ['"'])

def float (x : Float) : String :=
  match Decimal.parts x with
  | .nan => "NaN"
  | .infinite negative => if negative then "-Infinity" else "Infinity"
  | .finite .. => Scalar.showFloat x

def key : Scalar → String
  | .null => "null"
  | .bool b => if b then "true" else "false"
  | .float x => float x
  | s => s.toText

def scalar : Scalar → String
  | .null => "null"
  | .bool b => if b then "true" else "false"
  | .int n => Scalar.showInt n
  | .float x => float x
  | s => string s.toText

mutual

def compact : Value → String
  | .scalar s => scalar s
  | .list items => "[" ++ ", ".intercalate (compactItems items) ++ "]"
  | .pair first second => "[" ++ compact first ++ ", " ++ compact second ++ "]"
  | .set members => string (Value.quoteSet members)
  | .table fields => "\x7b" ++ ", ".intercalate (compactFields fields) ++ "\x7d"

def compactItems : List Value → List String
  | [] => []
  | v :: rest => compact v :: compactItems rest

def compactFields : List (Scalar × Value) → List String
  | [] => []
  | (k, v) :: rest => (string (key k) ++ ": " ++ compact v) :: compactFields rest

end

/-- Brackets around entries, each on a line of its own, two spaces further in. -/
def block (opening closing : String) (depth : Nat) (entries : List String) : String :=
  if entries.isEmpty then opening ++ closing
  else
    let pad (n : Nat) := "\n" ++ String.ofList (List.replicate (2 * n) ' ')
    opening ++ pad (depth + 1) ++ ("," ++ pad (depth + 1)).intercalate entries ++ pad depth ++ closing

mutual

def indented (depth : Nat) : Value → String
  | .list items => block "[" "]" depth (indentedItems (depth + 1) items)
  | .pair first second =>
    block "[" "]" depth [indented (depth + 1) first, indented (depth + 1) second]
  | .table fields => block "\x7b" "\x7d" depth (indentedFields (depth + 1) fields)
  | v => compact v

def indentedItems (depth : Nat) : List Value → List String
  | [] => []
  | v :: rest => indented depth v :: indentedItems depth rest

def indentedFields (depth : Nat) : List (Scalar × Value) → List String
  | [] => []
  | (k, v) :: rest => (string (key k) ++ ": " ++ indented depth v) :: indentedFields depth rest

end

end ApiRelease.Json
