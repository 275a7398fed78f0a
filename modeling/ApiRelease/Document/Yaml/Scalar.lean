import ApiRelease.Document.Read
import ApiRelease.Document.Yaml.Stamp
import ApiRelease.Document.Yaml.Tag
import ApiRelease.Text.Base64
import ApiRelease.Text.Case

/-! # What a scalar stands for

A scalar without a tag is told by its text. Words like `yes` and `off` are truth
values. A whole number may be binary, octal, hexadecimal or written in base sixty; a
number with a point is a double, and without a point it is never one. Everything else
that is no date is text. A tag may ask for more than that, and then the text is read as
best it can be.
-/
namespace ApiRelease.Yaml

def areDigits (isDigit : Char → Bool) (cs : List Char) : Bool :=
  !cs.isEmpty && cs.all fun c => isDigit c || c == '_'

/-- Decimal digits and underscores, a digit first. -/
def isDecimal (cs : List Char) : Bool :=
  (cs.head?.map Char.isDigit).getD false && areDigits Char.isDigit cs

/-- A place after the first in base sixty. -/
def isSixtieth (cs : List Char) : Bool :=
  match cs with
  | [d] => d.isDigit
  | [t, d] => decide (t ≤ '5') && t.isDigit && d.isDigit
  | _ => false

def isOctal (c : Char) : Bool := decide ('0' ≤ c) && decide (c ≤ '7')

def isBinary (c : Char) : Bool := c == '0' || c == '1'

def isWhole (cs : List Char) : Bool :=
  match cs with
  | ['0'] => true
  | '0' :: 'b' :: ds => areDigits isBinary ds
  | '0' :: 'x' :: ds => areDigits (fun c => (Text.hexValue? c).isSome) ds
  | '0' :: ds => areDigits isOctal ds
  | _ =>
    match Text.splitChars ':' cs with
    | first :: more => isDecimal first && more.all isSixtieth
    | [] => false

/-- The exponent of a double has a sign. -/
def isExponent : List Char → Bool
  | [] => true
  | e :: sign :: ds =>
    (e == 'e' || e == 'E') && (sign == '+' || sign == '-') && !ds.isEmpty && ds.all Char.isDigit
  | _ => false

/-- Digits after a point, perhaps with an exponent. -/
def isFraction (cs : List Char) : Bool :=
  isExponent (cs.dropWhile fun c => c.isDigit || c == '_')

/-- The form of a double without its sign; only some forms may have one. -/
def isDouble (signed : Bool) (cs : List Char) : Bool :=
  let word := String.ofList cs
  let whole := cs.takeWhile (· != '.')
  [".inf", ".Inf", ".INF"].contains word ||
  (!signed && [".nan", ".NaN", ".NAN"].contains word) ||
  match cs.dropWhile (· != '.') with
  | '.' :: fraction =>
    if whole.isEmpty then
      !signed && (fraction.head?.map Char.isDigit).getD false && isFraction fraction
    else
      (isDecimal whole && isFraction fraction) ||
      match Text.splitChars ':' whole with
      | first :: next :: more =>
        isDecimal first && (next :: more).all isSixtieth &&
          fraction.all fun c => c.isDigit || c == '_'
      | _ => false
  | _ => false

def truths : List String := ["yes", "Yes", "YES", "true", "True", "TRUE", "on", "On", "ON"]

def falsehoods : List String := ["no", "No", "NO", "false", "False", "FALSE", "off", "Off", "OFF"]

def nulls : List String := ["~", "null", "Null", "NULL"]

/-- Texts of one character that begin something else than a scalar. -/
def reserved : List String := ["!", "&", "*"]

def isSigned : List Char → Bool
  | '+' :: _ | '-' :: _ => true
  | _ => false

/-- A line end at the end does not count for what a text looks like. -/
def dropFinalBreak (cs : List Char) : List Char :=
  if cs.getLast? == some '\n' then cs.dropLast else cs

def tagOf (text : String) : Tag :=
  let cs := dropFinalBreak text.toList
  let word := String.ofList cs
  let unsigned := (Numeral.splitSign cs).2
  if text.isEmpty then .null
  else if truths.contains word || falsehoods.contains word then .bool
  else if isDouble (isSigned cs) unsigned then .float
  else if isWhole unsigned then .int
  else if word == "<<" then .merge
  else if nulls.contains word then .null
  else if (stamp? cs).any Stamp.isPlain then .timestamp
  else if word == "=" then .value
  else if reserved.contains word then .other
  else .str

def withoutUnderscores (text : String) : List Char := text.toList.filter (· != '_')

def wholeNumber (cs : List Char) : Except Fault Int :=
  let inBase (base : Nat) (ds : List Char) : Except Fault Int :=
    Value.integerIn base (.text (String.ofList ds)) ds
  match cs with
  | [] => .error .blankNumber
  | '0' :: 'b' :: ds => inBase 2 ds
  | '0' :: 'x' :: ds => inBase 16 ds
  | '0' :: _ => inBase 8 cs
  | _ => (Text.splitChars ':' cs).foldlM (fun n place => (inBase 10 place).map (60 * n + ·)) 0

def integer (text : String) : Except Fault Int :=
  let cs := withoutUnderscores text
  let (negative, digits) := Numeral.splitSign cs
  if cs.isEmpty then .error .blankNumber
  else (wholeNumber digits).map fun n => if negative then -n else n

def sixtySum (places : List Float) : Float :=
  (places.reverse.foldl (fun (acc : Float × Float) v => (acc.1 + v * acc.2, acc.2 * 60)) (0, 1)).1

def unsignedDouble (cs : List Char) : Except Fault Float :=
  let place (ds : List Char) : Except Fault Float := Value.floatIn (.text (String.ofList ds)) ds
  let word := String.ofList cs
  if word == ".inf" then .ok (Decimal.infinity false)
  else if word == ".nan" then .ok Decimal.notANumber
  else if cs.contains ':' then ((Text.splitChars ':' cs).mapM place).map sixtySum
  else place cs

def double (text : String) : Except Fault Float :=
  let cs := Text.lowerChars (withoutUnderscores text)
  let (negative, digits) := Numeral.splitSign cs
  if cs.isEmpty then .error .blankNumber
  else (unsignedDouble digits).map fun x => if negative then -x else x

def truth (text : String) : Except Fault Bool :=
  let word := Text.lower text
  if truths.contains word then .ok true
  else if falsehoods.contains word then .ok false
  else .error (.missing word)

def bytes (text : String) : Except Fault (List UInt8) :=
  let cs := text.toList
  match cs.all (fun c => decide (c.toNat < 0x80)), Text.base64? cs with
  | true, some bs => .ok bs
  | _, _ => .error .illFormed

def moment (text : String) : Except Fault Moment :=
  match stamp? (dropFinalBreak text.toList) with
  | none => .error (.noField Value.null.kindName)
  | some s => s.moment.mapError .badMoment

def scalarOf (tag : Tag) (text : String) : Except Fault Scalar :=
  match tag with
  | .null => .ok .null
  | .bool => (truth text).map .bool
  | .int => (integer text).map .int
  | .float => (double text).map .float
  | .str => .ok (.text text)
  | .binary => (bytes text).map .binary
  | .timestamp => (moment text).map .moment
  | _ => .error .illFormed

end ApiRelease.Yaml
