import ApiRelease.Declaration.Module
import ApiRelease.Document.Json.Reader
import ApiRelease.Document.Yaml.Read
import ApiRelease.File

/-! # Modules from files

A module is a JSON document, or a YAML document when the name of its file says so.
The problems found in it are logged as well as kept.
-/
namespace ApiRelease.Module

/-- A fault in reading the document of a module file. One that comes from the text is
one of the file. -/
def documentFault (name : String) (f : Fault) : Fault :=
  match f.sort with
  | .illFormed | .malformed => .moduleFile name ("unparseable document: " ++ f.detail)
  | _ => f

/-- The document in the text of a module file; nothing counts as an empty table. -/
def document (name text : String) : Except Fault Value :=
  if isYamlName name then
    match Yaml.read text with
    | .ok v => .ok (v.orElse (.table []))
    | .error f => .error (documentFault name f)
  else
    match Json.read? text with
    | some v => .ok v
    | none => .error (documentFault name .illFormed)

def ofDocument (name : String) (v : Value) : Logged Module :=
  match v with
  | .table fs => do
    let filename ← ((Fields.get fs "filename").orElse (.text name)).shown
    let m ← ofFields fs (some filename)
    Traced.noteAll (m.errors.map fun e => .warning (name ++ ": " ++ e))
    return m
  | _ => Traced.fail (.moduleFile name "top-level value must be an object")

def load (files : Files) (name : String) : Logged Module :=
  match files.read name with
  | .error f => Traced.fail (f.toFault (.moduleFile name))
  | .ok text =>
    match document name text with
    | .error f => Traced.fail f
    | .ok v => ofDocument name v

end ApiRelease.Module
