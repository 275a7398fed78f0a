import ApiRelease.Text.Quoted

/-! # Command lines that cannot be obeyed -/
namespace ApiRelease

inductive UsageFault where
  | noCommand
  | unknownCommand (name : String) (near : List String)
  | unknownOption (name : String) (near : List String)
  | missingValue (option : String)
  | unexpectedValue (option : String)
  | missingArgument (parameter : String)
  | extraArguments (words : List String)
  | notAChoice (parameter given : String) (choices : List String)
  | missingFile (parameter file : String)
  | directory (parameter file : String)
  | conflict (first second : String)

namespace UsageFault

def suggestion (one : String → String) (many : List String → String) : List String → String
  | [] => ""
  | [word] => " " ++ one word
  | words => " " ++ many words

def invalidValue (parameter reason : String) : String :=
  "Invalid value for '" ++ parameter ++ "': " ++ reason

def message : UsageFault → String
  | .noCommand => "Missing command."
  | .unknownCommand name near =>
    "No such command " ++ Text.quoted name ++ "." ++
      suggestion (fun w => "Did you mean " ++ Text.quoted w ++ "?")
        (fun ws => "(Did you mean one of: " ++ ", ".intercalate (ws.map Text.quoted) ++ "?)") near
  | .unknownOption name near =>
    "No such option: " ++ name ++
      suggestion (fun w => "Did you mean " ++ w ++ "?")
        (fun ws => "(Possible options: " ++ ", ".intercalate ws ++ ")") near
  | .missingValue option => "Option " ++ Text.quoted option ++ " requires an argument."
  | .unexpectedValue option => "Option " ++ Text.quoted option ++ " does not take a value."
  | .missingArgument parameter => "Missing argument '" ++ parameter ++ "'."
  | .extraArguments words =>
    (if words.length == 1 then "Got unexpected extra argument ("
      else "Got unexpected extra arguments (") ++ " ".intercalate words ++ ")"
  | .notAChoice parameter given choices =>
    invalidValue parameter (Text.quoted given ++ " is not one of " ++
      ", ".intercalate (choices.map Text.quoted) ++ ".")
  | .missingFile parameter file =>
    invalidValue parameter ("File " ++ Text.quoted file ++ " does not exist.")
  | .directory parameter file =>
    invalidValue parameter ("File " ++ Text.quoted file ++ " is a directory.")
  | .conflict first second => first ++ " and " ++ second ++ " are mutually exclusive"

end UsageFault

end ApiRelease
