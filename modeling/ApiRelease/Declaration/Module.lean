import ApiRelease.Declaration.Decode
import ApiRelease.Declaration.Encode

/-! # Modules

One side of a comparison: the exported declarations, all declarations under them
by path, and the problems found so far. An export entry that cannot be read is
reported and left out; so is a later entry with a path that is already taken.
-/
namespace ApiRelease

structure Module where
  filename : String
  source : String
  nodes : Members
  exports : Members
  errors : List String
  deriving DecidableEq

namespace Module

def ofExports (exports : List Declaration) (filename source : String) (errors : List String) :
    Module where
  filename := filename
  source := source
  nodes := Declaration.keyed ((exports.flatMap (·.walk)).map fun d => (.text d.path, d))
  exports := Declaration.keyed (exports.map fun d => (.text d.path, d))
  errors := errors

def toValue (m : Module) : Value :=
  .table [("filename", .text m.filename), ("source", .text m.source),
    ("exports", .list (m.exports.map fun e => e.2.toValue)), ("errors", .texts m.errors)]

/-- The export documents, given as a list or under names that do not count. -/
def exportEntries : Value → List Value
  | .table fs => fs.map (·.2)
  | v => v.entries

def entryLabel (index : Nat) : String := "export #" ++ Scalar.showInt index ++ ": "

/-- Reads the entries from number `index` on, given the paths already taken. What
comes back are the declarations kept and the messages for those that are not. -/
def readExports (index : Nat) (taken : List String) :
    List Value → Logged (List Declaration × List String)
  | [] => pure ([], [])
  | v :: rest =>
    match v with
    | .table _ => do
      match ← (Declaration.decode v none none).attempt with
      | .error f =>
        if f.isOfEntry then
          let (ds, es) ← readExports (index + 1) taken rest
          return (ds, (entryLabel index ++ f.message) :: es)
        else Traced.fail f
      | .ok d =>
        if taken.contains d.path then
          let (ds, es) ← readExports (index + 1) taken rest
          return (ds, ("duplicate export path '" ++ d.path ++ "'") :: es)
        else
          let (ds, es) ← readExports (index + 1) (d.path :: taken) rest
          return (d :: ds, es)
    | _ => do
      let (ds, es) ← readExports (index + 1) taken rest
      return (ds, (entryLabel index ++ "expected an object, got " ++ v.kindName) :: es)

def filenameIn (fs : Fields) (given : String) : Except Fault String :=
  if given.isEmpty then fs.text "filename" "<memory>" else .ok given

/-- Reads a module. A non-empty `filename` counts more than the document's own. -/
def ofFields (fs : Fields) (filename : Option String) : Logged Module := do
  let noted ← fs.texts "errors"
  let (exports, problems) ← readExports 0 [] (exportEntries (fs.get "exports"))
  let filename ← filenameIn fs (filename.getD "")
  let source ← fs.text "source" ""
  return ofExports exports filename source (noted ++ problems)

def ofValue (v : Value) (filename : Option String) : Logged Module := do
  ofFields (← v.fields) filename

end Module

end ApiRelease
