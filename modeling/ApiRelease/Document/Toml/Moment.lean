import ApiRelease.Document.Numeral
import ApiRelease.Document.Toml.Scalar

/-! # Dates and times of TOML

Every part has its full number of digits. Between a date and a time stands a `T` or
one blank; a fraction of a second counts to the sixth digit.
-/
namespace ApiRelease.Toml

/-- A number of exactly that many digits, not below `least` and not above `most`. -/
def numberWithin? (width least most : Nat) (cs : List Char) :
    Option (Nat × List Char) :=
  let ds := cs.take width
  let n := Numeral.digitsValue ds
  if ds.length == width && ds.all Char.isDigit && decide (least ≤ n) && decide (n ≤ most) then
    some (n, cs.drop width)
  else none

def passes? (p : Char → Bool) : List Char → Option (List Char)
  | c :: rest => if p c then some rest else none
  | [] => none

/-- Microseconds after the seconds; without digits a point is none of them. -/
def micros (cs : List Char) : Nat × List Char :=
  match cs with
  | '.' :: rest =>
    let ds := rest.takeWhile Char.isDigit
    if ds.isEmpty then (0, cs)
    else (Numeral.digitsValue ((ds ++ List.replicate 6 '0').take 6), rest.dropWhile Char.isDigit)
  | _ => (0, cs)

def clock? (cs : List Char) : Option (Clock × List Char) := do
  let (hour, rest) ← numberWithin? 2 0 23 cs
  let rest ← passes? (· == ':') rest
  let (minute, rest) ← numberWithin? 2 0 59 rest
  let rest ← passes? (· == ':') rest
  let (second, rest) ← numberWithin? 2 0 59 rest
  let (micro, rest) := micros rest
  return (⟨hour, minute, second, micro⟩, rest)

/-- The offset from universal time after a time, if one is given. -/
def offset (cs : List Char) : Option Int × List Char :=
  match cs with
  | [] => (none, [])
  | c :: rest =>
    if c == 'Z' || c == 'z' then (some 0, rest)
    else if c == '+' || c == '-' then
      let given : Option (Nat × List Char) := do
        let (hours, rest) ← numberWithin? 2 0 23 rest
        let rest ← passes? (· == ':') rest
        let (minutes, rest) ← numberWithin? 2 0 59 rest
        return (60 * hours + minutes, rest)
      match given with
      | some (n, rest) => (some (Numeral.signed (c == '-') n), rest)
      | none => (none, cs)
    else (none, cs)

/-- The numbers of a date, which need not be one of the calendar. -/
def dateNumbers? (cs : List Char) : Option ((Nat × Nat × Nat) × List Char) := do
  let (year, rest) ← numberWithin? 4 0 9999 cs
  let rest ← passes? (· == '-') rest
  let (month, rest) ← numberWithin? 2 1 12 rest
  let rest ← passes? (· == '-') rest
  let (day, rest) ← numberWithin? 2 1 31 rest
  return ((year, month, day), rest)

def timeAfterDate? (cs : List Char) : Option (Clock × List Char) := do
  clock? (← passes? (fun c => c == 'T' || c == 't' || c == ' ') cs)

/-- A date, perhaps with a time, or a time alone. What looks like a date and is not in
the calendar is a fault. -/
def moment? (cs : List Char) : Option (Except MomentFault Moment × List Char) :=
  match dateNumbers? cs with
  | some ((year, month, day), rest) =>
    let date := Date.ofNumbers year month day
    match timeAfterDate? rest with
    | some (t, rest) =>
      let (minutes, rest) := offset rest
      some (date.map fun d => .dateTime d t minutes, rest)
    | none => some (date.map .date, rest)
  | none => (clock? cs).map fun r => (.ok (.time r.1), r.2)

end ApiRelease.Toml
