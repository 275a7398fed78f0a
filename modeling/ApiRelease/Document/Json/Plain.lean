import ApiRelease.Document.Json.Printer
import ApiRelease.Fault

/-! # Documents that JSON can hold

Keys become texts and pairs become lists. A moment, bytes or a set has no form in
JSON: it is written as its text where that is allowed, and refused elsewhere. As a key
it is always refused, but for a set, which is none.
-/
namespace ApiRelease.Json

/-- How a document is treated that has no form in JSON. -/
inductive Leniency where
  | asText
  | refused
  deriving DecidableEq

def plainOther (leniency : Leniency) (v : Value) : Except Fault Value :=
  match leniency with
  | .asText => .ok (.text v.toText)
  | .refused => .error (.notWritable v.kindName)

def plainKey : Scalar → Except Fault Scalar
  | .moment m => .error (.notKey (Scalar.moment m).kindName)
  | .binary bytes => .error (.notKey (Scalar.binary bytes).kindName)
  | s => .ok (.text (key s))

mutual

def plain (leniency : Leniency) : Value → Except Fault Value
  | .scalar (.moment m) => plainOther leniency (.scalar (.moment m))
  | .scalar (.binary bytes) => plainOther leniency (.scalar (.binary bytes))
  | .scalar s => .ok (.scalar s)
  | .list items => (plainItems leniency items).map .list
  | .pair first second => do
    let first ← plain leniency first
    let second ← plain leniency second
    return .list [first, second]
  | .set members => plainOther leniency (.set members)
  | .table fields => (plainFields leniency fields).map .table

def plainItems (leniency : Leniency) : List Value → Except Fault (List Value)
  | [] => .ok []
  | v :: rest => do
    let w ← plain leniency v
    return w :: (← plainItems leniency rest)

def plainFields (leniency : Leniency) :
    List (Scalar × Value) → Except Fault (List (Scalar × Value))
  | [] => .ok []
  | (k, v) :: rest => do
    let k ← plainKey k
    let v ← plain leniency v
    return (k, v) :: (← plainFields leniency rest)

end

end ApiRelease.Json
