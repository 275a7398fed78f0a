import ApiRelease.Document.Numeral
import ApiRelease.Document.Value

/-! # Reading JSON

Besides the standard the reader takes `NaN`, `Infinity` and `-Infinity` for
doubles. A number without point and exponent is whole, and no longer than whole
numbers may be. Of several fields of one name the last value counts, in the place of
the first. Half of a surrogate pair on its own is read as the replacement character.
-/
namespace ApiRelease.Json

def isSpace (c : Char) : Bool := c == ' ' || c == '\t' || c == '\n' || c == '\r'

def skipSpace (cs : List Char) : List Char := cs.dropWhile isSpace

def isHighHalf (n : Nat) : Bool := decide (0xD800 ≤ n) && decide (n ≤ 0xDBFF)

def isLowHalf (n : Nat) : Bool := decide (0xDC00 ≤ n) && decide (n ≤ 0xDFFF)

def replacement : Char := Char.ofNat 0xFFFD

def ofUnit (n : Nat) : Char := if isHighHalf n || isLowHalf n then replacement else Char.ofNat n

def shortEscape? : Char → Option Char
  | '"' => some '"'
  | '\\' => some '\\'
  | '/' => some '/'
  | 'b' => some (Char.ofNat 8)
  | 'f' => some (Char.ofNat 12)
  | 'n' => some '\n'
  | 'r' => some '\r'
  | 't' => some '\t'
  | _ => none

/-- The characters of a string up to its closing quote, and what follows it.
`high` is the first half of a surrogate pair that waits for its second half. -/
def stringBody (high : Option Nat) : List Char → Option (List Char × List Char)
  | [] => none
  | '"' :: rest => some (if high.isSome then [replacement] else [], rest)
  | '\\' :: 'u' :: a :: b :: c :: d :: rest =>
    match Text.hexNumber? [a, b, c, d] with
    | none => none
    | some n =>
      match high with
      | some h =>
        if isLowHalf n then
          (stringBody none rest).map fun r =>
            (Char.ofNat (0x10000 + (h - 0xD800) * 0x400 + (n - 0xDC00)) :: r.1, r.2)
        else if isHighHalf n then
          (stringBody (some n) rest).map fun r => (replacement :: r.1, r.2)
        else (stringBody none rest).map fun r => (replacement :: ofUnit n :: r.1, r.2)
      | none =>
        if isHighHalf n then stringBody (some n) rest
        else (stringBody none rest).map fun r => (ofUnit n :: r.1, r.2)
  | '\\' :: e :: rest =>
    match shortEscape? e with
    | none => none
    | some c =>
      (stringBody none rest).map fun r =>
        (if high.isSome then replacement :: c :: r.1 else c :: r.1, r.2)
  | c :: rest =>
    if c == '\\' || c.toNat < 0x20 then none
    else
      (stringBody none rest).map fun r =>
        (if high.isSome then replacement :: c :: r.1 else c :: r.1, r.2)

/-- The part after the whole digits: a point needs digits after it to belong to
the number, and so does an exponent mark. -/
def fractionPart : List Char → List Char × List Char
  | '.' :: d :: rest =>
    if d.isDigit then ((d :: rest).takeWhile Char.isDigit, (d :: rest).dropWhile Char.isDigit)
    else ([], '.' :: d :: rest)
  | cs => ([], cs)

def exponentPart (cs : List Char) : Option Int × List Char :=
  match cs with
  | e :: rest =>
    if e == 'e' || e == 'E' then
      let (down, ds) := Numeral.splitSign rest
      match Numeral.natural? (ds.takeWhile Char.isDigit) with
      | some n => (some (Numeral.signed down n), ds.dropWhile Char.isDigit)
      | none => (none, cs)
    else (none, cs)
  | [] => (none, [])

def number? (cs : List Char) : Option (Value × List Char) :=
  let (negative, cs) :=
    match cs with
    | '-' :: rest => (true, rest)
    | _ => (false, cs)
  let whole? : Option (List Char × List Char) :=
    match cs with
    | '0' :: rest => some (['0'], rest)
    | d :: _ => if d.isDigit then some (cs.takeWhile Char.isDigit, cs.dropWhile Char.isDigit) else none
    | [] => none
  whole?.bind fun (whole, rest) =>
    let (fraction, rest) := fractionPart rest
    let (exponent, rest) := exponentPart rest
    if !fraction.isEmpty || exponent.isSome then
      some (.float (Decimal.ofDecimal negative (Numeral.digitsValue (whole ++ fraction))
        (exponent.getD 0 - fraction.length)), rest)
    else if Numeral.mostDigits < whole.length then none
    else some (.int (Numeral.signed negative (Numeral.digitsValue whole)), rest)

/-- The constants, each with the characters that spell it. -/
def constants : List (String × Value) :=
  [("null", .null), ("true", .bool true), ("false", .bool false), ("NaN", .float Decimal.notANumber),
   ("Infinity", .float (Decimal.infinity false)), ("-Infinity", .float (Decimal.infinity true))]

def constant? (cs : List Char) : Option (Value × List Char) :=
  (constants.find? fun k => k.1.toList.isPrefixOf cs).map fun k => (k.2, cs.drop k.1.length)

mutual

/-- A value at the head of the text. The fuel bounds the nesting and the number of
entries together; the length of the text is always enough. -/
def value? : Nat → List Char → Option (Value × List Char)
  | 0, _ => none
  | fuel + 1, cs =>
    match cs with
    | '"' :: rest => (stringBody none rest).map fun r => (.text (String.ofList r.1), r.2)
    | '\x7b' :: rest =>
      match skipSpace rest with
      | '\x7d' :: after => some (.table [], after)
      | inside => (fields? fuel inside).map fun r => (.table (Fields.ofPairs r.1), r.2)
    | '[' :: rest =>
      match skipSpace rest with
      | ']' :: after => some (.list [], after)
      | inside => (items? fuel inside).map fun r => (.list r.1, r.2)
    | _ =>
      match constant? cs with
      | some r => some r
      | none => number? cs

def items? : Nat → List Char → Option (List Value × List Char)
  | 0, _ => none
  | fuel + 1, cs =>
    match value? fuel cs with
    | none => none
    | some (v, rest) =>
      match skipSpace rest with
      | ']' :: after => some ([v], after)
      | ',' :: more => (items? fuel (skipSpace more)).map fun r => (v :: r.1, r.2)
      | _ => none

def fields? : Nat → List Char → Option (Fields × List Char)
  | 0, _ => none
  | fuel + 1, cs =>
    match cs with
    | '"' :: rest =>
      match stringBody none rest with
      | none => none
      | some (key, rest) =>
        match skipSpace rest with
        | ':' :: rest =>
          match value? fuel (skipSpace rest) with
          | none => none
          | some (v, rest) =>
            match skipSpace rest with
            | '\x7d' :: after => some ([(String.ofList key, v)], after)
            | ',' :: more =>
              (fields? fuel (skipSpace more)).map fun r => ((String.ofList key, v) :: r.1, r.2)
            | _ => none
        | _ => none
    | _ => none

end

def read? (s : String) : Option Value :=
  let cs := s.toList
  match value? (2 * cs.length + 2) (skipSpace cs) with
  | some (v, rest) => if (skipSpace rest).isEmpty then some v else none
  | none => none

end ApiRelease.Json
