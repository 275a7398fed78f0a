import ApiRelease.Trace
import ApiRelease.Fault

/-! # Log lines

A notice is one line of the log with its level; which levels are shown is decided
at the end, by whoever shows them.
-/
namespace ApiRelease

inductive LogLevel where
  | debug
  | info
  | warning
  | error
  deriving DecidableEq

namespace LogLevel

def rank : LogLevel → Nat
  | .debug => 0
  | .info => 1
  | .warning => 2
  | .error => 3

def label : LogLevel → String
  | .debug => "DEBUG"
  | .info => "INFO"
  | .warning => "WARNING"
  | .error => "ERROR"

end LogLevel

structure Notice where
  level : LogLevel
  text : String
  deriving DecidableEq

namespace Notice

def debug (text : String) : Notice := ⟨.debug, text⟩

def info (text : String) : Notice := ⟨.info, text⟩

def warning (text : String) : Notice := ⟨.warning, text⟩

def line (n : Notice) : String := n.level.label ++ ": " ++ n.text

def shown (least : LogLevel) (ns : List Notice) : List Notice :=
  ns.filter fun n => least.rank ≤ n.level.rank

end Notice

abbrev Logged (α : Type) := Traced Notice Fault α

end ApiRelease
