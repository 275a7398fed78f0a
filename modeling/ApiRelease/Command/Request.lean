import ApiRelease.Change.Vocabulary
import ApiRelease.Command.Words
import ApiRelease.File
import ApiRelease.Notice

/-! # What a command line asks for

The options before the command say how much is logged. Those of the command are
checked in the order in which they were given, then its arguments in their own order.
-/
namespace ApiRelease.Command

structure Comparison where
  old : String
  new : String
  policyFile : Option String
  builtin : String
  json : Bool
  failOn : Option Release

structure Decompilation where
  rules : String
  json : Bool

structure Inspection where
  name : Option String
  policyFile : Option String
  json : Bool

inductive Request where
  | version
  | help
  | compare (c : Comparison)
  | decompile (d : Decompilation)
  | inspect (i : Inspection)

structure Invocation where
  /-- the least level that is logged -/
  level : LogLevel
  request : Request

def helpOption : OptionSpec := { name := "--help" }

def jsonOption : OptionSpec := { name := "--json" }

def commonOptions : List OptionSpec :=
  [{ name := "--version" }, { name := "--verbose" },
   { name := "--quiet", letter := some 'q' }, helpOption]

def compareOptions : List OptionSpec :=
  [{ name := "--policy", takesValue := true }, { name := "--builtin", takesValue := true },
   jsonOption, { name := "--fail-on", takesValue := true }, helpOption]

def decompileOptions : List OptionSpec := [jsonOption, helpOption]

def inspectOptions : List OptionSpec :=
  [{ name := "--file", takesValue := true }, jsonOption, helpOption]

def releaseChoices : List Release := [.major, .minor, .patch, .none]

def checkFile (files : Files) (parameter file : String) : Except UsageFault Unit :=
  match files file with
  | .missing => .error (.missingFile parameter file)
  | .directory => .error (.directory parameter file)
  | .text _ | .undecodable => .ok ()

def checkRelease (parameter given : String) : Except UsageFault Unit :=
  let choices := releaseChoices.map Release.name
  if choices.contains given then .ok () else .error (.notAChoice parameter given choices)

def checkOption (files : Files) (name value : String) : Except UsageFault Unit :=
  match name with
  | "--policy" | "--file" => checkFile files name value
  | "--fail-on" => checkRelease name value
  | _ => .ok ()

namespace Words

def checkOptions (files : Files) (w : Words) : Except UsageFault Unit :=
  w.names.forM fun name => ((w.value? name).map (checkOption files name)).getD (.ok ())

/-- A plain word that must be there and name a file. -/
def fileArgument (files : Files) (w : Words) (index : Nat) (parameter : String) :
    Except UsageFault String :=
  match w.plain[index]? with
  | none => .error (.missingArgument parameter)
  | some file => do
    checkFile files parameter file
    return file

def checkCount (w : Words) (count : Nat) : Except UsageFault Unit :=
  if w.plain.length ≤ count then .ok () else .error (.extraArguments (w.plain.drop count))

end Words

def comparison (files : Files) (w : Words) : Except UsageFault Request := do
  let old ← w.fileArgument files 0 "OLD"
  let new ← w.fileArgument files 1 "NEW"
  w.checkCount 2
  return .compare { old, new, policyFile := w.value? "--policy",
                    builtin := (w.value? "--builtin").getD "semver-default",
                    json := w.has "--json",
                    failOn := (w.value? "--fail-on").bind Vocabulary.parse? }

def decompilation (files : Files) (w : Words) : Except UsageFault Request := do
  let rules ← w.fileArgument files 0 "RULES"
  w.checkCount 1
  return .decompile { rules, json := w.has "--json" }

def inspection (w : Words) : Except UsageFault Request := do
  w.checkCount 1
  return .inspect { name := w.plain.head?, policyFile := w.value? "--file",
                    json := w.has "--json" }

/-- A command: its name, its options, and the request that its words make. -/
structure Verb where
  name : String
  options : List OptionSpec
  request : Files → Words → Except UsageFault Request

def verbs : List Verb :=
  [⟨"diff", compareOptions, comparison⟩, ⟨"decompile", decompileOptions, decompilation⟩,
   ⟨"policies", inspectOptions, fun _ => inspection⟩]

def Verb.read (v : Verb) (files : Files) (args : List String) : Except UsageFault Request := do
  let w ← Words.read v.options true args
  if w.has "--help" then return .help
  w.checkOptions files
  v.request files w

def unknownVerb (name : String) : UsageFault :=
  .unknownCommand name (Text.closeMatches name (verbs.map (·.name)))

def levelOf (w : Words) : LogLevel :=
  if w.has "--quiet" then .error else if w.has "--verbose" then .debug else .warning

/-- The command after the common options; a name that looks like an option is read as
one before it is refused. -/
def readVerb (files : Files) (w : Words) (name : String) (rest : List String) :
    Except UsageFault Request :=
  match verbs.find? fun v => v.name == name with
  | none => do
    let _ ← Words.read commonOptions false (name :: rest)
    throw (unknownVerb name)
  | some v => do
    if w.has "--verbose" && w.has "--quiet" then throw (.conflict "--verbose" "--quiet")
    v.read files rest

def Invocation.ofArguments (files : Files) (args : List String) : Except UsageFault Invocation := do
  let w ← Words.read commonOptions false args
  match w.names.find? fun name => name == "--version" || name == "--help" with
  | some "--version" => return ⟨.warning, .version⟩
  | some _ => return ⟨.warning, .help⟩
  | none =>
    match w.plain with
    | [] => throw .noCommand
    | name :: rest => return ⟨levelOf w, ← readVerb files w name rest⟩

end ApiRelease.Command
