import ApiRelease.Decimal.Shortest
import ApiRelease.Document.Moment
import ApiRelease.Text.Quoted

/-! # Scalars

A scalar is what a document holds where it holds no further documents, and what the
fields of a table are kept under. As keys, numbers of equal value are one key however
they are written, and so are a truth value and zero or one.
-/
namespace ApiRelease

inductive Scalar where
  | null
  | bool (b : Bool)
  | int (n : Int)
  | float (x : Float)
  | text (s : String)
  | moment (m : Moment)
  | binary (bytes : List UInt8)
  deriving DecidableEq

instance : Coe String Scalar := ⟨.text⟩

inductive Identity where
  | number (n : Int)
  | instant (minutes : Int) (second micro : Nat)
  | itself (s : Scalar)
  deriving DecidableEq

def wholeValue? (x : Float) : Option Int :=
  match Decimal.parts x with
  | .finite _ m q =>
    if m * Decimal.powerUp 2 q % Decimal.powerDown 2 q == 0 then Decimal.truncate? x else none
  | _ => none

namespace Scalar

def identity : Scalar → Identity
  | .bool b => .number (if b then 1 else 0)
  | .int n => .number n
  | .float x => ((wholeValue? x).map Identity.number).getD (.itself (.float x))
  | .moment (.dateTime d t (some offset)) =>
    .instant (instantMinutes d t offset) t.second t.micro
  | s => .itself s

/-- The two are one key. -/
def isSame (a b : Scalar) : Bool := decide (a.identity = b.identity)

/-- Nothing, zero and whatever is empty count as false. -/
def truthy : Scalar → Bool
  | .null => false
  | .bool b => b
  | .int n => n != 0
  | .float x => x != 0
  | .text s => !s.isEmpty
  | .moment _ => true
  | .binary bytes => !bytes.isEmpty

/-- The name under which an error message speaks of a scalar of this shape. -/
def kindName : Scalar → String
  | .null => "NoneType"
  | .bool _ => "bool"
  | .int _ => "int"
  | .float _ => "float"
  | .text _ => "str"
  | .moment m => m.kindName
  | .binary _ => "bytes"

/-- The longer name that messages about a failed conversion give. -/
def typeName : Scalar → String
  | .moment m => "datetime." ++ m.kindName
  | s => s.kindName

/-- Doubles from `1e-4` up to below `1e16` are written without an exponent. -/
def pointStyle : Decimal.PointStyle := ⟨-3, 16⟩

def showFloat (x : Float) : String := Decimal.shortest pointStyle x

def showInt (n : Int) : String :=
  if n < 0 then "-" ++ String.ofList (Decimal.decimalDigits n.natAbs)
  else String.ofList (Decimal.decimalDigits n.natAbs)

def quotedByte (quote : Char) (b : UInt8) : List Char :=
  if b < 0x80 then Text.quotedChar quote (Char.ofNat b.toNat)
  else '\\' :: 'x' :: Text.hexDigits 2 b.toNat

def quotedBytes (bytes : List UInt8) : String :=
  let q := Text.quoteFor (bytes.map fun b => Char.ofNat b.toNat)
  String.ofList ('b' :: q :: bytes.flatMap (quotedByte q) ++ [q])

def quote : Scalar → String
  | .null => "None"
  | .bool true => "True"
  | .bool false => "False"
  | .int n => showInt n
  | .float x => showFloat x
  | .text s => Text.quoted s
  | .moment m => m.quote
  | .binary bytes => quotedBytes bytes

/-- A text is shown as itself, and a moment as it is commonly written. -/
def toText : Scalar → String
  | .text s => s
  | .moment m => m.toText
  | s => s.quote

end Scalar

end ApiRelease
