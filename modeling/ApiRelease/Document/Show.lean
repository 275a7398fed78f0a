import ApiRelease.Document.Value

/-! # Documents as text

A text or a moment is shown as itself, everything else in one line: `None`, `True`,
`False`, whole numbers in decimal, doubles with the fewest digits that read back,
and the others with the texts inside them quoted.
-/
namespace ApiRelease.Value

def quoteSet (members : List Scalar) : String :=
  if members.isEmpty then "set()"
  else "\x7b" ++ ", ".intercalate (members.map Scalar.quote) ++ "\x7d"

mutual

def quote : Value → String
  | .scalar s => s.quote
  | .list items => "[" ++ ", ".intercalate (quoteItems items) ++ "]"
  | .pair first second => "(" ++ quote first ++ ", " ++ quote second ++ ")"
  | .set members => quoteSet members
  | .table fields => "\x7b" ++ ", ".intercalate (quoteFields fields) ++ "\x7d"

def quoteItems : List Value → List String
  | [] => []
  | v :: rest => quote v :: quoteItems rest

def quoteFields : List (Scalar × Value) → List String
  | [] => []
  | (k, v) :: rest => (k.quote ++ ": " ++ quote v) :: quoteFields rest

end

def toText : Value → String
  | .scalar s => s.toText
  | v => quote v

def optionalText : Value → Option String
  | .null => none
  | v => some v.toText

end ApiRelease.Value
