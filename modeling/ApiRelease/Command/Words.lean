import ApiRelease.Command.Usage
import ApiRelease.Text.Matching
import ApiRelease.Text.Search

/-! # The words of a command line

A word that begins with a dash names options: a long name, after an equals sign
perhaps with its value, or letters that each stand for a flag. Two dashes alone end
the options. The words are read from the left, and the first that does not fit is
the fault.
-/
namespace ApiRelease.Command

structure OptionSpec where
  name : String
  letter : Option Char := none
  takesValue : Bool := false

structure Given where
  name : String
  value : Option String

structure Words where
  given : List Given
  plain : List String

def isOptionWord (word : String) : Bool := Text.startsWith word "-" && word.length > 1

inductive OptionWord where
  | complete (given : List Given)
  /-- its value is the next word -/
  | awaiting (name : String)

def unknownLong (specs : List OptionSpec) (name : String) : UsageFault :=
  let near := Text.closeMatches name (specs.map (·.name))
  .unknownOption name (near.mergeSort fun a b => decide (a ≤ b))

def flagFor (specs : List OptionSpec) (letter : Char) : Except UsageFault Given :=
  match specs.find? fun s => s.letter == some letter with
  | some s => .ok ⟨s.name, none⟩
  | none => .error (.unknownOption (String.ofList ['-', letter]) [])

def nameAndValue (word : String) : String × Option String :=
  let cs := word.toList
  let name := String.ofList (cs.takeWhile (· != '='))
  match cs.dropWhile (· != '=') with
  | _ :: value => (name, some (String.ofList value))
  | [] => (name, none)

def readOption (specs : List OptionSpec) (word : String) : Except UsageFault OptionWord :=
  let (name, value) := nameAndValue word
  match specs.find? fun s => s.name == name with
  | some s =>
    match s.takesValue, value with
    | true, some v => .ok (.complete [⟨name, some v⟩])
    | true, none => .ok (.awaiting name)
    | false, some _ => .error (.unexpectedValue name)
    | false, none => .ok (.complete [⟨name, none⟩])
  | none =>
    if Text.startsWith word "--" then .error (unknownLong specs name)
    else do return .complete (← (word.toList.drop 1).mapM (flagFor specs))

namespace Words

def give (given : List Given) (w : Words) : Words := { w with given := given ++ w.given }

def keep (word : String) (w : Words) : Words := { w with plain := word :: w.plain }

/-- Reads a command line. Unless options may follow plain words, the first plain word
ends them. -/
def read (specs : List OptionSpec) (mixed : Bool) : List String → Except UsageFault Words
  | [] => .ok ⟨[], []⟩
  | word :: rest =>
    if word == "--" then .ok ⟨[], rest⟩
    else if isOptionWord word then
      match readOption specs word with
      | .error f => .error f
      | .ok (.complete given) => (read specs mixed rest).map (give given)
      | .ok (.awaiting name) =>
        match rest with
        | [] => .error (.missingValue name)
        | value :: rest => (read specs mixed rest).map (give [⟨name, some value⟩])
    else if mixed then (read specs mixed rest).map (keep word)
    else .ok ⟨[], word :: rest⟩

def has (w : Words) (name : String) : Bool := w.given.any fun g => g.name == name

def value? (w : Words) (name : String) : Option String :=
  (w.given.reverse.find? fun g => g.name == name).bind (·.value)

/-- The options that were given, each once, in the order in which they first came. -/
def names (w : Words) : List String := (w.given.map (·.name)).eraseDups

end Words

end ApiRelease.Command
