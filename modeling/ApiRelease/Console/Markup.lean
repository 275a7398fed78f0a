import ApiRelease.Fault
import ApiRelease.Text.Blank
import ApiRelease.Text.Case

/-! # Text for the console

Console text may hold tags in square brackets, which set a style and are not shown.
A backslash before a tag makes it plain text. A closing tag closes the latest open
tag of its name, or the latest of all when it has no name, and one that closes
nothing is a fault.
-/
namespace ApiRelease.Console

def opensTag (c : Char) : Bool :=
  (decide ('a' ≤ c) && decide (c ≤ 'z')) || c == '#' || c == '/' || c == '@'

def isBracket (c : Char) : Bool := c == '[' || c == ']'

/-- The inside of a tag whose opening bracket has been read, and what follows it. -/
def tag? (cs : List Char) : Option (List Char × List Char) :=
  let inside := cs.takeWhile fun c => !isBracket c
  match cs.dropWhile fun c => !isBracket c with
  | ']' :: rest => if (inside.head?.map opensTag).getD false then some (inside, rest) else none
  | _ => none

theorem length_of_tag? {cs inside rest : List Char} (h : tag? cs = some (inside, rest)) :
    rest.length < cs.length := by
  unfold tag? at h
  split at h
  · rename_i tail heq
    dsimp only at h
    split at h
    · have hsuffix : (cs.dropWhile fun c => !isBracket c).length ≤ cs.length :=
        (List.dropWhile_suffix _).length_le
      rw [heq] at hsuffix
      simp only [Option.some.injEq, Prod.mk.injEq] at h
      simp only [List.length_cons] at hsuffix
      rw [← h.2]
      omega
    · cases h
  · cases h

inductive Piece where
  | plain (cs : List Char)
  | tag (inside : List Char)

def backslashes (n : Nat) : List Char := List.replicate n '\\'

/-- What a tag is after so many backslashes: each pair of them stands for one, and an
odd one takes the tag as plain text. -/
def tagPieces (slashes : Nat) (inside : List Char) : List Piece :=
  [.plain (backslashes (slashes / 2)),
   if slashes % 2 == 1 then .plain ('[' :: inside ++ [']']) else .tag inside]

/-- The pieces of a text, after so many backslashes. A bracket that opens no tag loses
the backslash before it. -/
def pieces (slashes : Nat) (cs : List Char) : List Piece :=
  match cs with
  | [] => [.plain (backslashes slashes)]
  | '\\' :: rest => pieces (slashes + 1) rest
  | '[' :: rest =>
    match h : tag? rest with
    | some (inside, after) =>
      have : after.length < rest.length := length_of_tag? h
      tagPieces slashes inside ++ pieces 0 after
    | none => .plain (backslashes (slashes - 1) ++ ['[']) :: pieces 0 rest
  | c :: rest => .plain (backslashes slashes ++ [c]) :: pieces 0 rest
termination_by cs.length

/-- The name in a tag: what stands before an equals sign. -/
def tagName (inside : List Char) : List Char := inside.takeWhile (· != '=')

def styleName (name : List Char) : List Char := Text.lowerChars (Text.trimChars name)

/-- The open tags after a tag, the latest first. -/
def follow (opened : List (List Char)) (inside : List Char) : Except Fault (List (List Char)) :=
  match tagName inside with
  | '/' :: name =>
    let closed := styleName name
    match opened with
    | [] => .error .unbalancedMarkup
    | _ :: others =>
      if closed.isEmpty then .ok others
      else if opened.contains closed then .ok (opened.erase closed)
      else .error .unbalancedMarkup
  | name => .ok (styleName name :: opened)

def shownPieces (opened : List (List Char)) : List Piece → Except Fault (List Char)
  | [] => .ok []
  | .plain cs :: rest => do return cs ++ (← shownPieces opened rest)
  | .tag inside :: rest => do shownPieces (← follow opened inside) rest

/-- Characters that move the cursor and are never shown. -/
def movesCursor (c : Char) : Bool := [7, 8, 11, 12, 13].contains c.toNat

def plain (s : String) : Except Fault String := do
  let shown ← shownPieces [] (pieces 0 s.toList)
  return String.ofList (shown.filter fun c => !movesCursor c)

def line (s : String) : Except Fault String := do return (← plain s) ++ "\n"

def lines (ss : List String) : Except Fault String := do return String.join (← ss.mapM line)

end ApiRelease.Console
