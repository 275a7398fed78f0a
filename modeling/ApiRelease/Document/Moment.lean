import ApiRelease.Decimal.Binary

/-! # Dates and times

A date is one of the Gregorian calendar, from year 1 to year 9999. A date with a time
may say how far its clock is ahead of universal time; two of these that name the
same instant count as the same key of a table.
-/
namespace ApiRelease

structure Date where
  year : Nat
  month : Nat
  day : Nat
  deriving DecidableEq

structure Clock where
  hour : Nat
  minute : Nat
  second : Nat
  micro : Nat
  deriving DecidableEq

inductive Moment where
  | date (d : Date)
  | time (t : Clock)
  /-- the offset is in minutes -/
  | dateTime (d : Date) (t : Clock) (offset : Option Int)
  deriving DecidableEq

inductive MomentFault where
  | year (given : Nat)
  | month
  | day
  | hour
  | minute
  | second
  | offset (minutes : Int)
  deriving DecidableEq

def isLeapYear (year : Nat) : Bool := year % 4 == 0 && (year % 100 != 0 || year % 400 == 0)

def daysInMonth (year month : Nat) : Nat :=
  if month == 2 then (if isLeapYear year then 29 else 28)
  else if [4, 6, 9, 11].contains month then 30
  else 31

namespace Date

def ofNumbers (year month day : Nat) : Except MomentFault Date :=
  if year == 0 || decide (9999 < year) then .error (.year year)
  else if month == 0 || decide (12 < month) then .error .month
  else if day == 0 || decide (daysInMonth year month < day) then .error .day
  else .ok ⟨year, month, day⟩

/-- Days since the last day before year 1. -/
def ordinal (d : Date) : Nat :=
  let past := d.year - 1
  365 * past + past / 4 - past / 100 + past / 400 +
    (List.range (d.month - 1)).foldl (fun days m => days + daysInMonth d.year (m + 1)) d.day

end Date

namespace Clock

def ofNumbers (hour minute second micro : Nat) : Except MomentFault Clock :=
  if 23 < hour then .error .hour
  else if 59 < minute then .error .minute
  else if 59 < second then .error .second
  else .ok ⟨hour, minute, second, micro⟩

end Clock

/-- An offset is less than a day either way. -/
def offsetOfMinutes (minutes : Int) : Except MomentFault Int :=
  if 1440 ≤ minutes.natAbs then .error (.offset minutes) else .ok minutes

def paddedDigits (width n : Nat) : String :=
  let ds := Decimal.decimalDigits n
  String.ofList (List.replicate (width - ds.length) '0' ++ ds)

/-- A length of time as whole days and the seconds after them. -/
def durationText (minutes : Int) : String :=
  let days := minutes.fdiv 1440
  let seconds := 60 * minutes.fmod 1440
  let parts := (if days == 0 then [] else ["days=" ++ toString days]) ++
    (if seconds == 0 then [] else ["seconds=" ++ toString seconds])
  "datetime.timedelta(" ++ ", ".intercalate parts ++ ")"

namespace MomentFault

def message : MomentFault → String
  | .year given => "year " ++ toString given ++ " is out of range"
  | .month => "month must be in 1..12"
  | .day => "day is out of range for month"
  | .hour => "hour must be in 0..23"
  | .minute => "minute must be in 0..59"
  | .second => "second must be in 0..59"
  | .offset minutes =>
    "offset must be a timedelta strictly between -timedelta(hours=24) and timedelta(hours=24), not " ++
      durationText minutes ++ "."

end MomentFault

namespace Date

def toText (d : Date) : String :=
  paddedDigits 4 d.year ++ "-" ++ paddedDigits 2 d.month ++ "-" ++ paddedDigits 2 d.day

def numbers (d : Date) : List Nat := [d.year, d.month, d.day]

end Date

namespace Clock

def toText (t : Clock) : String :=
  ":".intercalate [paddedDigits 2 t.hour, paddedDigits 2 t.minute, paddedDigits 2 t.second] ++
    if t.micro == 0 then "" else "." ++ paddedDigits 6 t.micro

/-- Hours and minutes, and what is needed of the finer parts. -/
def numbers (t : Clock) : List Nat :=
  [t.hour, t.minute] ++
    if t.micro != 0 then [t.second, t.micro] else if t.second != 0 then [t.second] else []

end Clock

def offsetText (minutes : Int) : String :=
  let n := minutes.natAbs
  (if minutes < 0 then "-" else "+") ++ paddedDigits 2 (n / 60) ++ ":" ++ paddedDigits 2 (n % 60)

def zoneText (minutes : Int) : String :=
  if minutes == 0 then "datetime.timezone.utc"
  else "datetime.timezone(" ++ durationText minutes ++ ")"

namespace Moment

def toText : Moment → String
  | .date d => d.toText
  | .time t => t.toText
  | .dateTime d t offset => d.toText ++ " " ++ t.toText ++ (offset.map offsetText).getD ""

def kindName : Moment → String
  | .date _ => "date"
  | .time _ => "time"
  | .dateTime .. => "datetime"

def quote (m : Moment) : String :=
  let parts :=
    match m with
    | .date d => d.numbers.map toString
    | .time t => t.numbers.map toString
    | .dateTime d t offset =>
      (d.numbers ++ t.numbers).map toString ++
        (offset.map fun minutes => "tzinfo=" ++ zoneText minutes).toList
  "datetime." ++ m.kindName ++ "(" ++ ", ".intercalate parts ++ ")"

end Moment

/-- The minutes of universal time from the last midnight before year 1 to an instant. -/
def instantMinutes (d : Date) (t : Clock) (offset : Int) : Int :=
  ((d.ordinal * 24 + t.hour) * 60 + t.minute : Nat) - offset

end ApiRelease
