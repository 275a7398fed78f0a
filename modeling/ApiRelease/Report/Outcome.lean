import ApiRelease.Console.Table
import ApiRelease.Notice

/-! # What a command leaves behind

A command ends with a status, what it printed, and the messages beside it. The
statuses are zero when all is well, one when what was asked about does not pass, and
two when it could not be read.
-/
namespace ApiRelease.Report

inductive Output where
  | nothing
  | text (s : String)
  | document (v : Value)

structure Outcome where
  status : Nat
  output : Output
  messages : String

def printed (s : String) : Outcome := ⟨0, .text s, ""⟩

def Outcome.document (v : Value) : Outcome := ⟨0, .document v, ""⟩

/-- The outcome of a request about something that cannot be read. -/
def refused (reason : String) : Logged Outcome := do
  return ⟨2, .nothing, ← Console.line ("Error: " ++ reason)⟩

/-- Goes on with a value, or refuses in the words given when its fault is of one of
these sorts; any other fault is passed on. -/
def orRefuse {α : Type} (sorts : List FaultSort) (words : Fault → String) (x : Logged α)
    (next : α → Logged Outcome) : Logged Outcome := do
  match ← x.attempt with
  | .ok a => next a
  | .error f => if sorts.contains f.sort then refused (words f) else Traced.fail f

end ApiRelease.Report
