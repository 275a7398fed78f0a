/-! # Finding and replacing parts of a text

Parts are compared character by character. Replacing goes from left to right and
does not look again at what it has put in.
-/
namespace ApiRelease.Text

def occursIn (part : List Char) : List Char → Bool
  | [] => part.isEmpty
  | c :: rest => part.isPrefixOf (c :: rest) || occursIn part rest

/-- Replaces every occurrence of a non-empty part; `skip` characters of an
occurrence that has been replaced are still to be dropped. -/
def replaceFrom (part put : List Char) (skip : Nat) : List Char → List Char
  | [] => []
  | c :: rest =>
    match skip with
    | n + 1 => replaceFrom part put n rest
    | 0 =>
      if part.isPrefixOf (c :: rest) then put ++ replaceFrom part put (part.length - 1) rest
      else c :: replaceFrom part put 0 rest

def replaceFirstChars (part put : List Char) : List Char → List Char
  | [] => []
  | c :: rest =>
    if part.isPrefixOf (c :: rest) then put ++ (c :: rest).drop part.length
    else c :: replaceFirstChars part put rest

def contains (s part : String) : Bool := occursIn part.toList s.toList

def startsWith (s part : String) : Bool := part.toList.isPrefixOf s.toList

def endsWith (s part : String) : Bool := part.toList.isSuffixOf s.toList

def replaceAll (s part put : String) : String :=
  if part.isEmpty then s else String.ofList (replaceFrom part.toList put.toList 0 s.toList)

def replaceFirst (s part put : String) : String :=
  if part.isEmpty then s else String.ofList (replaceFirstChars part.toList put.toList s.toList)

/-- The pieces of a text between single characters `sep`. -/
def splitChars (sep : Char) : List Char → List (List Char)
  | [] => [[]]
  | c :: rest =>
    if c == sep then [] :: splitChars sep rest
    else
      match splitChars sep rest with
      | [] => [[c]]
      | piece :: pieces => (c :: piece) :: pieces

def joinWith (sep : String) (parts : List String) : String := sep.intercalate parts

end ApiRelease.Text
