import ApiRelease.Document.Json.Reader

/-! # Strings and numbers of TOML

A string is basic, with escapes, or literal, without, and either sort may go over
several lines. Between digits single underscores may stand, and a decimal
whole number is no longer than whole numbers may be.
-/
namespace ApiRelease.Toml

abbrev Parsed (α : Type) := Option (α × List Char)

def isBlank (c : Char) : Bool := c == ' ' || c == '\t'

def skipBlanks (cs : List Char) : List Char := cs.dropWhile isBlank

/-- Control characters, of which only some may stand in a text. -/
def isControl (c : Char) : Bool := decide (c.toNat < 0x20) || c.toNat == 0x7F

def allowedIn (multiline : Bool) (c : Char) : Bool :=
  !isControl c || c == '\t' || (multiline && c == '\n')

def shortEscapes : List (Char × Nat) :=
  [('b', 8), ('t', 9), ('n', 10), ('f', 12), ('r', 13), ('"', 0x22), ('\\', 0x5C)]

/-- A character by the number in its first `count` digits. -/
def numbered (count : Nat) (cs : List Char) : Option (Char × List Char) := do
  let digits := cs.take count
  if digits.length != count then none
  let n ← Text.hexNumber? digits
  if n.isValidChar then return (Char.ofNat n, cs.drop count) else none

def isBlankOrBreak (c : Char) : Bool := isBlank c || c == '\n'

/-- What an escape stands for; a backslash at the end of a line joins it to the next
word. -/
def escape (multiline : Bool) : List Char → Parsed (List Char)
  | 'u' :: rest => (numbered 4 rest).map fun r => ([r.1], r.2)
  | 'U' :: rest => (numbered 8 rest).map fun r => ([r.1], r.2)
  | e :: rest =>
    if multiline && isBlankOrBreak e then
      match skipBlanks (e :: rest) with
      | '\n' :: more => some ([], more.dropWhile isBlankOrBreak)
      | [] => some ([], [])
      | _ => none
    else (shortEscapes.lookup e).map fun n => ([Char.ofNat n], rest)
  | [] => none

def basicBody (multiline : Bool) : Nat → List Char → Parsed (List Char)
  | 0, _ => none
  | fuel + 1, cs =>
    match cs with
    | [] => none
    | '"' :: rest =>
      if !multiline then some ([], rest)
      else
        match rest with
        | '"' :: '"' :: after => some ([], after)
        | _ => (basicBody multiline fuel rest).map fun r => ('"' :: r.1, r.2)
    | '\\' :: rest =>
      match escape multiline rest with
      | none => none
      | some (part, rest) => (basicBody multiline fuel rest).map fun r => (part ++ r.1, r.2)
    | c :: rest =>
      if allowedIn multiline c then (basicBody multiline fuel rest).map fun r => (c :: r.1, r.2)
      else none

def literalBody (multiline : Bool) : List Char → Parsed (List Char)
  | [] => none
  | c :: rest =>
    if c == '\'' && !multiline then some ([], rest)
    else if c == '\'' && ['\'', '\''].isPrefixOf rest then some ([], rest.drop 2)
    else if allowedIn multiline c then (literalBody multiline rest).map fun r => (c :: r.1, r.2)
    else none

/-- Up to two quotes before the closing ones belong to the string. -/
def extraQuotes (quote : Char) (r : List Char × List Char) : List Char × List Char :=
  let extra := (r.2.take 2).takeWhile (· == quote)
  (r.1 ++ extra, r.2.drop extra.length)

/-- A line end right after the opening quotes is dropped. -/
def dropFirstBreak : List Char → List Char
  | '\n' :: rest => rest
  | cs => cs

def asText (r : List Char × List Char) : String × List Char := (String.ofList r.1, r.2)

def lineString? : List Char → Parsed String
  | '"' :: rest => (basicBody false (rest.length + 1) rest).map asText
  | '\'' :: rest => (literalBody false rest).map asText
  | _ => none

def string? : List Char → Parsed String
  | '"' :: '"' :: '"' :: rest =>
    (basicBody true (rest.length + 1) (dropFirstBreak rest)).map fun r => asText (extraQuotes '"' r)
  | '\'' :: '\'' :: '\'' :: rest =>
    (literalBody true (dropFirstBreak rest)).map fun r => asText (extraQuotes '\'' r)
  | cs => lineString? cs

/-- Digits with single underscores between them. -/
def moreDigits (isDigit : Char → Bool) : List Char → List Char × List Char
  | '_' :: d :: rest =>
    if isDigit d then
      let (ds, after) := moreDigits isDigit rest
      (d :: ds, after)
    else ([], '_' :: d :: rest)
  | d :: rest =>
    if isDigit d then
      let (ds, after) := moreDigits isDigit rest
      (d :: ds, after)
    else ([], d :: rest)
  | [] => ([], [])

def digits? (isDigit : Char → Bool) (cs : List Char) : Parsed (List Char) :=
  if (cs.head?.map isDigit).getD false then some (moreDigits isDigit cs) else none

def inBase (base : Nat) (ds : List Char) : Nat :=
  ds.foldl (fun n d => base * n + (Text.hexValue? d).getD 0) 0

def based? : List Char → Parsed Nat
  | '0' :: 'x' :: rest =>
    (digits? (fun c => (Text.hexValue? c).isSome) rest).map fun r => (inBase 16 r.1, r.2)
  | '0' :: 'o' :: rest =>
    (digits? (fun c => decide ('0' ≤ c) && decide (c ≤ '7')) rest).map fun r => (inBase 8 r.1, r.2)
  | '0' :: 'b' :: rest =>
    (digits? (fun c => c == '0' || c == '1') rest).map fun r => (inBase 2 r.1, r.2)
  | _ => none

def fraction (cs : List Char) : List Char × List Char :=
  match cs with
  | '.' :: rest => (digits? Char.isDigit rest).getD ([], cs)
  | _ => ([], cs)

def exponent (cs : List Char) : Option Int × List Char :=
  match cs with
  | e :: rest =>
    if e == 'e' || e == 'E' then
      let (down, ds) := Numeral.splitSign rest
      match digits? Char.isDigit ds with
      | some (ds, after) => (some (Numeral.signed down (Numeral.digitsValue ds)), after)
      | none => (none, cs)
    else (none, cs)
  | [] => (none, [])

/-- A decimal number: whole, or a double when it has a fraction or an exponent. -/
def decimal? (cs : List Char) : Parsed (Except Numeral.IntegerFault Value) :=
  let (negative, ds) := Numeral.splitSign cs
  let whole? : Parsed (List Char) :=
    match ds with
    | '0' :: rest => some (['0'], rest)
    | _ => digits? Char.isDigit ds
  whole?.map fun (whole, rest) =>
    let (part, rest) := fraction rest
    let (power, rest) := exponent rest
    if !part.isEmpty || power.isSome then
      (.ok (.float (Decimal.ofDecimal negative (Numeral.digitsValue (whole ++ part))
        (power.getD 0 - part.length))), rest)
    else if Numeral.mostDigits < whole.length then (.error (.tooLong whole.length), rest)
    else (.ok (.int (Numeral.signed negative (Numeral.digitsValue whole))), rest)

/-- Words for the doubles that have no digits. -/
def special? (cs : List Char) : Parsed Value :=
  let (negative, word) := Numeral.splitSign cs
  if ['i', 'n', 'f'].isPrefixOf word then some (.float (Decimal.infinity negative), word.drop 3)
  else if ['n', 'a', 'n'].isPrefixOf word then some (.float Decimal.notANumber, word.drop 3)
  else none

def number? (cs : List Char) : Parsed (Except Numeral.IntegerFault Value) :=
  match based? cs, decimal? cs with
  | some (n, rest), _ => some (.ok (.int n), rest)
  | none, some r => some r
  | none, none => (special? cs).map fun r => (.ok r.1, r.2)

end ApiRelease.Toml
