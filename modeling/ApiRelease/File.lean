import ApiRelease.Fault
import ApiRelease.Text.Case

/-! # Files

What a name stands for is all that is known of the files. A text is read with its
line ends made plain, and the letters after the last point of a name tell its format.
-/
namespace ApiRelease

inductive FileContent where
  | text (s : String)
  | undecodable
  | directory
  | missing

abbrev Files := String → FileContent

def FileContent.ofBytes (bytes : ByteArray) : FileContent :=
  match String.fromUTF8? bytes with
  | some s => .text s
  | none => .undecodable

inductive FileFault where
  | missing (name : String)
  | directory (name : String)
  | undecodable

namespace FileFault

def message : FileFault → String
  | .missing name => "[Errno 2] No such file or directory: " ++ Text.quoted name
  | .directory name => "[Errno 21] Is a directory: " ++ Text.quoted name
  | .undecodable => Fault.undecodable.detail

/-- A fault of the file; one that is not text is a fault of its own. -/
def toFault (wrap : String → Fault) : FileFault → Fault
  | .undecodable => .undecodable
  | f => wrap f.message

end FileFault

/-- Every line end becomes a line feed. -/
def plainBreaks : List Char → List Char
  | '\r' :: '\n' :: rest => '\n' :: plainBreaks rest
  | '\r' :: rest => '\n' :: plainBreaks rest
  | c :: rest => c :: plainBreaks rest
  | [] => []

namespace Files

def read (files : Files) (name : String) : Except FileFault String :=
  match files name with
  | .text s => .ok (String.ofList (plainBreaks s.toList))
  | .undecodable => .error .undecodable
  | .directory => .error (.directory name)
  | .missing => .error (.missing name)

end Files

/-- The last point of a name and what follows it, in small letters. A point at either
end of the name does not count. -/
def fileSuffix (name : String) : String :=
  let cs := name.toList
  let after := (cs.reverse.takeWhile (· != '.')).reverse
  let before := cs.length - after.length
  if after.isEmpty || before ≤ 1 then "" else Text.lower (String.ofList ('.' :: after))

def isYamlName (name : String) : Bool := [".yaml", ".yml"].contains (fileSuffix name)

def isTomlName (name : String) : Bool := fileSuffix name == ".toml"

end ApiRelease
