import ApiRelease.Document.Moment
import ApiRelease.Document.Numeral
import ApiRelease.Document.Yaml.Cursor

/-! # Dates and times of YAML

A date with a time may leave out leading zeros of its month, day and hour. A date
alone may do so only where a tag says that it is one. A fraction of a second counts to
the sixth digit, and an offset may leave out its minutes.
-/
namespace ApiRelease.Yaml

structure StampTime where
  hour : Nat
  minute : Nat
  second : Nat
  micro : Nat
  /-- minutes ahead of universal time -/
  offset : Option Int
  deriving DecidableEq

structure Stamp where
  year : Nat
  month : Nat
  day : Nat
  /-- month and day have two digits -/
  full : Bool
  time : Option StampTime
  deriving DecidableEq

/-- A number of at least `least` and at most `most` digits. -/
def digits? (least most : Nat) (cs : List Char) : Option (List Char × List Char) :=
  let ds := (cs.take most).takeWhile Char.isDigit
  if ds.length < least then none else some (ds, cs.drop ds.length)

def after? (c : Char) : List Char → Option (List Char)
  | d :: rest => if d == c then some rest else none
  | [] => none

/-- The offset at the end of a time: nothing, `Z`, or a sign with hours and perhaps
minutes. -/
def stampOffset? (cs : List Char) : Option (Option Int) :=
  match cs with
  | [] => some none
  | _ =>
    match cs.dropWhile isSpaceOrTab with
    | ['Z'] => some (some 0)
    | c :: rest =>
      if c == '+' || c == '-' then do
        let (hours, rest) ← digits? 1 2 rest
        let minutes ←
          match rest with
          | [] => some []
          | ':' :: rest => do
            let (minutes, rest) ← digits? 2 2 rest
            if rest.isEmpty then some minutes else none
          | _ => none
        return some (Numeral.signed (c == '-')
          (60 * Numeral.digitsValue hours + Numeral.digitsValue minutes))
      else none
    | [] => none

def stampMicros (cs : List Char) : Nat × List Char :=
  match cs with
  | '.' :: rest =>
    let ds := rest.takeWhile Char.isDigit
    (Numeral.digitsValue ((ds ++ List.replicate 6 '0').take 6), rest.dropWhile Char.isDigit)
  | _ => (0, cs)

def stampTime? (cs : List Char) : Option StampTime := do
  let (hour, rest) ← digits? 1 2 cs
  let (minute, rest) ← digits? 2 2 (← after? ':' rest)
  let (second, rest) ← digits? 2 2 (← after? ':' rest)
  let (micro, rest) := stampMicros rest
  let offset ← stampOffset? rest
  return { hour := Numeral.digitsValue hour, minute := Numeral.digitsValue minute,
           second := Numeral.digitsValue second, micro, offset }

/-- What stands between a date and a time. -/
def dropTimeMark (cs : List Char) : Option (List Char) :=
  match cs with
  | c :: rest =>
    if c == 'T' || c == 't' then some rest
    else if isSpaceOrTab c then some (rest.dropWhile isSpaceOrTab)
    else none
  | [] => none

def stamp? (cs : List Char) : Option Stamp := do
  let (year, rest) ← digits? 4 4 cs
  let (month, rest) ← digits? 1 2 (← after? '-' rest)
  let (day, rest) ← digits? 1 2 (← after? '-' rest)
  let time ←
    match rest with
    | [] => some none
    | _ => do some (some (← stampTime? (← dropTimeMark rest)))
  return { year := Numeral.digitsValue year, month := Numeral.digitsValue month,
           day := Numeral.digitsValue day, full := month.length == 2 && day.length == 2, time }

namespace Stamp

def isPlain (s : Stamp) : Bool := s.full || s.time.isSome

/-- The moment that the numbers name. The offset is looked at first. -/
def moment (s : Stamp) : Except MomentFault Moment :=
  match s.time with
  | none => (Date.ofNumbers s.year s.month s.day).map .date
  | some t => do
    let offset ←
      match t.offset with
      | none => pure none
      | some minutes => (offsetOfMinutes minutes).map some
    let date ← Date.ofNumbers s.year s.month s.day
    let clock ← Clock.ofNumbers t.hour t.minute t.second t.micro
    return .dateTime date clock offset

end Stamp

end ApiRelease.Yaml
