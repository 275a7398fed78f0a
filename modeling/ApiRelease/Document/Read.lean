import ApiRelease.Fault

/-! # Reading documents as something definite

Reading is lenient where a document can still be understood, so a number may be
given as a text and a truth value as anything, and faults only where it cannot. A number
that is given for a text has to be short enough to be written.
-/
namespace ApiRelease

/-- A whole number of more digits than are read is not written either. -/
def Scalar.hasText : Scalar → Bool
  | .int n => decide (n.natAbs < Nat.pow 10 Numeral.mostDigits)
  | _ => true

namespace Value

mutual

/-- Every whole number in the document can be written. -/
def hasText : Value → Bool
  | .scalar s => s.hasText
  | .list items => itemsHaveText items
  | .pair first second => hasText first && hasText second
  | .set members => members.all Scalar.hasText
  | .table fields => fieldsHaveText fields

def itemsHaveText : List Value → Bool
  | [] => true
  | v :: rest => hasText v && itemsHaveText rest

def fieldsHaveText : List (Scalar × Value) → Bool
  | [] => true
  | (k, v) :: rest => k.hasText && hasText v && fieldsHaveText rest

end

/-- The text of a document, if it can be written. -/
def shown (v : Value) : Except Fault String :=
  if v.hasText then .ok v.toText else .error .numberTooLong

/-- The text of a document that can be written, or nothing for nothing. -/
def optionalShown (v : Value) : Except Fault (Option String) :=
  if v.hasText then .ok v.optionalText else .error .numberTooLong

def fields : Value → Except Fault Fields
  | .table fs => .ok fs
  | v => .error (.noField v.typeName)

/-- A field that has to be there. -/
def index (v : Value) (key : String) : Except Fault Value :=
  match v with
  | .table fs =>
    match Fields.find? key fs with
    | some w => .ok w
    | none => .error (.missing key)
  | _ => .error (.notIndexed v.typeName)

/-- What is gone through one by one: entries of a list, characters of a text, keys
of a table, numbers of bytes. -/
def items : Value → Except Fault (List Value)
  | .list vs => .ok vs
  | .pair a b => .ok [a, b]
  | .set members => .ok (members.map .scalar)
  | .table fs => .ok (fs.map fun f => .scalar f.1)
  | .text s => .ok (s.toList.map fun c => .text (String.singleton c))
  | .scalar (.binary bytes) => .ok (bytes.map fun b => .int b.toNat)
  | v => .error (.notIterable v.typeName)

/-- Lists and tables cannot be looked for in a set, nor can a pair that holds one. -/
def hashable : Value → Except Fault Unit
  | .list _ => .error (.notHashable "list")
  | .table _ => .error (.notHashable "dict")
  | .pair a b => do
    hashable a
    hashable b
  | .scalar _ | .set _ => .ok ()

/-- Bytes as the characters of those numbers; beyond ASCII they mean nothing. -/
def asciiChars (bytes : List UInt8) : List Char :=
  bytes.map fun b => if b < 0x80 then Char.ofNat b.toNat else '?'

def integerIn (base : Nat) (given : Scalar) (cs : List Char) : Except Fault Int :=
  match Numeral.integerIn base cs with
  | .ok n => .ok n
  | .error .malformed => .error (.badInteger base given)
  | .error (.tooLong count) => .error (.tooManyDigits count)

def toInt : Value → Except Fault Int
  | .int n => .ok n
  | .bool b => .ok (if b then 1 else 0)
  | .float x =>
    match Decimal.parts x with
    | .nan => .error .integerOfNaN
    | .infinite _ => .error .integerOfInfinity
    | .finite .. => .ok ((Decimal.truncate? x).getD 0)
  | .text s => integerIn 10 (.text s) s.toList
  | .scalar (.binary bytes) => integerIn 10 (.binary bytes) (asciiChars bytes)
  | v => .error (.notInteger v.typeName)

def floatIn (given : Scalar) (cs : List Char) : Except Fault Float :=
  match Numeral.number? cs with
  | some x => .ok x
  | none => .error (.badNumber given)

def toFloat : Value → Except Fault Float
  | .float x => .ok x
  | .int n =>
    match Decimal.ofInt? n with
    | some x => .ok x
    | none => .error .integerTooLarge
  | .bool b => .ok ((Decimal.ofInt? (if b then 1 else 0)).getD Decimal.notANumber)
  | .text s => floatIn (.text s) s.toList
  | .scalar (.binary bytes) => floatIn (.binary bytes) (asciiChars bytes)
  | v => .error (.notNumber v.typeName)

end Value

end ApiRelease
