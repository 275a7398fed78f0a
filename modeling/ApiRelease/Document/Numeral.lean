import ApiRelease.Text.Blank
import ApiRelease.Text.Case
import ApiRelease.Text.Digit
import ApiRelease.Text.Search
import ApiRelease.Decimal.Nearest

/-! # Numbers written as text

A numeral may stand between blanks and carry a sign; its digits may come from any
script, and a single underscore may stand between two of them.
-/
namespace ApiRelease.Numeral

/-- Blanks around a numeral; the four information separators are not among them. -/
def isPad (c : Char) : Bool :=
  Text.isBlank c && !(decide (0x1C ≤ c.toNat) && decide (c.toNat ≤ 0x1F))

def strip (cs : List Char) : List Char :=
  ((cs.dropWhile isPad).reverse.dropWhile isPad).reverse

/-- Digits of every script become those of ASCII. -/
def plainDigit (c : Char) : Char :=
  match Text.digit? c with
  | some d => Char.ofNat (0x30 + d)
  | none => c

/-- Removes the underscores, each of which has to stand between two digits. -/
def dropUnderscores (afterDigit : Bool) : List Char → Option (List Char)
  | [] => some []
  | '_' :: d :: rest =>
    if afterDigit && d.isDigit then (dropUnderscores true rest).map (d :: ·) else none
  | ['_'] => none
  | c :: rest => (dropUnderscores c.isDigit rest).map (c :: ·)

def clean (cs : List Char) : Option (List Char) :=
  dropUnderscores false ((strip cs).map plainDigit)

def splitSign : List Char → Bool × List Char
  | '+' :: rest => (false, rest)
  | '-' :: rest => (true, rest)
  | cs => (false, cs)

def digitsValue (ds : List Char) : Nat := ds.foldl (fun n d => 10 * n + (d.toNat - 0x30)) 0

def natural? (ds : List Char) : Option Nat :=
  if ds.isEmpty || !ds.all Char.isDigit then none else some (digitsValue ds)

def signed (negative : Bool) (n : Nat) : Int := if negative then -(n : Int) else n

/-- The longest decimal whole number that is read, in digits. -/
def mostDigits : Nat := 4300

inductive IntegerFault where
  | malformed
  | tooLong (count : Nat)

def isDigitIn (base : Nat) (c : Char) : Bool := (Text.hexValue? c).any fun d => decide (d < base)

def valueIn (base : Nat) (ds : List Char) : Nat :=
  ds.foldl (fun n d => base * n + (Text.hexValue? d).getD 0) 0

def baseMarks : List (Nat × List Char) := [(2, ['b', 'B']), (8, ['o', 'O']), (16, ['x', 'X'])]

/-- Passes a zero with the letter of the base, and an underscore after it. -/
def dropBaseMark (base : Nat) (cs : List Char) : List Char :=
  match cs with
  | '0' :: mark :: rest =>
    if ((baseMarks.lookup base).getD []).contains mark then
      if rest.head? == some '_' then rest.drop 1 else rest
    else cs
  | _ => cs

/-- A whole number in a base up to sixteen. Only decimal ones are limited in length,
which is found out before what follows the digits is looked at. -/
def integerIn (base : Nat) (cs : List Char) : Except IntegerFault Int :=
  let (negative, cs) := splitSign ((strip cs).map plainDigit)
  let cs := dropBaseMark base cs
  let run := cs.takeWhile fun c => isDigitIn base c || c == '_'
  let groups := Text.splitChars '_' run
  let count := groups.flatten.length
  if groups.any List.isEmpty then .error .malformed
  else if base == 10 && decide (mostDigits < count) then .error (.tooLong count)
  else if run.length < cs.length then .error .malformed
  else .ok (signed negative (valueIn base groups.flatten))

/-- A decimal without sign: digits before and after the point, and an exponent. -/
def decimal? (negative : Bool) (cs : List Char) : Option Float := do
  let whole := cs.takeWhile Char.isDigit
  let rest := cs.dropWhile Char.isDigit
  let (fraction, rest) :=
    match rest with
    | '.' :: more => (more.takeWhile Char.isDigit, more.dropWhile Char.isDigit)
    | _ => ([], rest)
  if whole.isEmpty && fraction.isEmpty then none
  let exponent ←
    match rest with
    | [] => some 0
    | e :: more =>
      if e == 'e' || e == 'E' then
        let (down, ds) := splitSign more
        (natural? ds).map (signed down)
      else none
  return Decimal.ofDecimal negative (digitsValue (whole ++ fraction)) (exponent - fraction.length)

def number? (cs : List Char) : Option Float := do
  let (negative, cs) := splitSign (← clean cs)
  let word := String.ofList (cs.map Char.toLower)
  if word == "nan" then return Decimal.notANumber
  if word == "inf" || word == "infinity" then return Decimal.infinity negative
  decimal? negative cs

end ApiRelease.Numeral
