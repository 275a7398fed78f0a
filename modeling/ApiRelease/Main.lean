import ApiRelease.Command.Run
import ApiRelease.Document.Json.Printer

/-! # The command line

Every word of the command line may name a file, so these files are read before the
command runs. What it leaves behind is then printed.
-/
namespace ApiRelease.Main

/-- The words of a command line and the values inside them, which may name files. -/
def fileNames (args : List String) : List String :=
  args ++ args.filterMap fun word => (Command.nameAndValue word).2

def readContent (name : String) : IO FileContent := do
  try
    return .ofBytes (← IO.FS.readBinFile name)
  catch
    | .inappropriateType .. => return .directory
    | _ => return .missing

def readFiles (names : List String) : IO Files := do
  let contents ← names.mapM fun name => do return (name, ← readContent name)
  return fun name => (contents.lookup name).getD .missing

def printOutput : Report.Output → IO Unit
  | .nothing => pure ()
  | .text s => IO.print s
  | .document v => IO.println (Json.indented 0 v)

def printNotices (notices : List Notice) : IO Unit :=
  notices.forM fun n => IO.eprintln n.line

end ApiRelease.Main

open ApiRelease in
def main (args : List String) : IO UInt32 := do
  let files ← Main.readFiles (Main.fileNames args)
  match Command.Invocation.ofArguments files args with
  | .error f =>
    IO.eprintln ("Error: " ++ f.message)
    return 2
  | .ok invocation =>
    let run := invocation.run files
    Main.printNotices run.notes
    match run.result with
    | .error f =>
      IO.eprintln f.message
      return 1
    | .ok outcome =>
      Main.printOutput outcome.output
      IO.eprint outcome.messages
      return UInt32.ofNat outcome.status
