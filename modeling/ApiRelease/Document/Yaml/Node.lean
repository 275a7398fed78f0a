import ApiRelease.Document.Yaml.Scalar
import ApiRelease.Document.Yaml.Token

/-! # The nodes of a YAML document

Tokens are read as a tree of scalars, sequences and mappings, each with its tag. A
node may be given a name, once and before it is used; an alias stands for the node of
its name. A node is not part of itself, so an alias inside the node that it names has
no reading. What is wrong first in the text is the fault of the whole.
-/
namespace ApiRelease.Yaml

inductive Node where
  | scalar (tag : Tag) (text : String)
  | sequence (tag : Tag) (items : List Node)
  | mapping (tag : Tag) (pairs : List (Node × Node))

namespace Node

def empty : Node := .scalar .null ""

end Node

/-- What is left of the tokens, and the nodes named so far; a name without a node is
that of a node still in the making. -/
structure Feed where
  tokens : List Token
  named : List (String × Option Node)

abbrev Parsed (α : Type) := Except Fault (α × Feed)

/-- What the handles of tags stand for. -/
abbrev Handles := List (String × String)

def refusal : List Token → Fault
  | .broken cause :: _ => cause.toFault
  | _ => .illFormed

namespace Feed

def refuse {α : Type} (f : Feed) : Parsed α := .error (refusal f.tokens)

def next (f : Feed) : Feed := { f with tokens := f.tokens.drop 1 }

def isBroken (f : Feed) : Bool :=
  match f.tokens with
  | .broken _ :: _ => true
  | _ => false

/-- Takes up a name, which must be new. -/
def reserve (f : Feed) : Option String → Except Fault Feed
  | none => .ok f
  | some name =>
    if (f.named.lookup name).isSome then .error .illFormed
    else .ok { f with named := (name, none) :: f.named }

def give (f : Feed) (name : Option String) (n : Node) : Feed :=
  match name with
  | none => f
  | some name => { f with named := (name, some n) :: f.named }

end Feed

/-- Where a node stands: blocks are opened in blocks only, and a sequence that is the
value of a key need not be indented. -/
inductive Setting where
  | block
  | mappingValue
  | flow
  deriving DecidableEq

/-- What stands before a node: the name that it is given, and the name of its tag. -/
structure Properties where
  anchor : Option String
  tag : Option String

namespace Properties

/-- The full name of a tag; its handle must be known. -/
def tagName (handles : Handles) (t : TagText) : Except Fault (Option String) :=
  match t.name? handles with
  | some name => .ok (some name)
  | none => .error .illFormed

/-- Anchor and tag in either order. After a tag alone the next token is looked at before
its handle is. -/
def read (handles : Handles) (f : Feed) : Parsed Properties :=
  match f.tokens with
  | .anchor a :: .tag t :: rest | .tag t :: .anchor a :: rest =>
    (tagName handles t).map fun name => (⟨some a, name⟩, { f with tokens := rest })
  | .anchor a :: rest => .ok (⟨some a, none⟩, { f with tokens := rest })
  | .tag t :: rest =>
    let f := { f with tokens := rest }
    if f.isBroken then f.refuse else (tagName handles t).map fun name => (⟨none, name⟩, f)
  | _ => .ok (⟨none, none⟩, f)

def isNone (p : Properties) : Bool := p.anchor.isNone && p.tag.isNone

/-- The tag, where `own` is that of a node without one. -/
def tagOr (p : Properties) (own ownUnmarked : Tag) : Tag :=
  match p.tag with
  | none => own
  | some name => if name == "!" then ownUnmarked else Tag.ofName name

def scalar (p : Properties) (text : String) (plain : Bool) : Node :=
  .scalar (p.tagOr (if plain then tagOf text else .str) (tagOf text)) text

end Properties

/-- Nothing stands before one of these. -/
def endsNode (setting : Setting) : List Token → Bool
  | t :: _ =>
    match setting with
    | .block => [Token.entry, .blockEnd].contains t
    | .mappingValue => [Token.key, .value, .blockEnd].contains t
    | .flow => [Token.value, .flowEntry, .flowSequenceEnd, .flowMappingEnd].contains t
  | [] => false

mutual

def node (handles : Handles) (setting : Setting) : Nat → Feed → Parsed Node
  | 0, f => f.refuse
  | fuel + 1, f =>
    match f.tokens with
    | .alias name :: _ =>
      match f.named.lookup name with
      | some (some n) => .ok (n, f.next)
      | _ => .error .illFormed
    | _ =>
      match Properties.read handles f with
      | .error e => .error e
      | .ok (p, f) => content handles setting p fuel f

def content (handles : Handles) (setting : Setting) (p : Properties) : Nat → Feed → Parsed Node
  | 0, f => f.refuse
  | fuel + 1, f =>
    if f.isBroken then f.refuse
    else
      match f.reserve p.anchor with
      | .error e => .error e
      | .ok f =>
        let sequence (r : Parsed (List Node)) : Parsed Node :=
          r.map fun (items, f) =>
            let n := Node.sequence (p.tagOr .seq .seq) items
            (n, f.give p.anchor n)
        let mapping (r : Parsed (List (Node × Node))) : Parsed Node :=
          r.map fun (pairs, f) =>
            let n := Node.mapping (p.tagOr .map .map) pairs
            (n, f.give p.anchor n)
        match f.tokens, setting with
        | .scalar text plain :: _, _ =>
          let n := p.scalar text plain
          .ok (n, f.next.give p.anchor n)
        | .flowSequenceStart :: _, _ => sequence (flowItems handles true fuel f.next)
        | .flowMappingStart :: _, _ => mapping (flowPairs handles true fuel f.next)
        | .entry :: _, .mappingValue => sequence (looseItems handles fuel f)
        | .sequenceStart :: _, .block | .sequenceStart :: _, .mappingValue =>
          sequence (blockItems handles fuel f.next)
        | .mappingStart :: _, .block | .mappingStart :: _, .mappingValue =>
          mapping (blockPairs handles fuel f.next)
        | _, _ =>
          if p.isNone then f.refuse
          else
            let n := p.scalar "" true
            .ok (n, f.give p.anchor n)

/-- A node, or an empty one before a token that ends it. -/
def nodeOrEmpty (handles : Handles) (setting : Setting) : Nat → Feed → Parsed Node
  | 0, f => f.refuse
  | fuel + 1, f =>
    if endsNode setting f.tokens then .ok (.empty, f) else node handles setting fuel f

def blockItems (handles : Handles) : Nat → Feed → Parsed (List Node)
  | 0, f => f.refuse
  | fuel + 1, f =>
    match f.tokens with
    | .entry :: _ =>
      match nodeOrEmpty handles .block fuel f.next with
      | .error e => .error e
      | .ok (item, f) => (blockItems handles fuel f).map fun r => (item :: r.1, r.2)
    | .blockEnd :: _ => .ok ([], f.next)
    | _ => f.refuse

/-- Entries of a sequence that is not indented; it ends with its entries. -/
def looseItems (handles : Handles) : Nat → Feed → Parsed (List Node)
  | 0, f => f.refuse
  | fuel + 1, f =>
    match f.tokens with
    | .entry :: rest =>
      let item :=
        if endsNode .block rest || endsNode .mappingValue rest then .ok (.empty, f.next)
        else node handles .block fuel f.next
      match item with
      | .error e => .error e
      | .ok (item, f) => (looseItems handles fuel f).map fun r => (item :: r.1, r.2)
    | _ => .ok ([], f)

def blockPairs (handles : Handles) : Nat → Feed → Parsed (List (Node × Node))
  | 0, f => f.refuse
  | fuel + 1, f =>
    match f.tokens with
    | .key :: _ =>
      match nodeOrEmpty handles .mappingValue fuel f.next with
      | .error e => .error e
      | .ok (k, f) =>
        match valueAfter handles .mappingValue fuel f with
        | .error e => .error e
        | .ok (v, f) => (blockPairs handles fuel f).map fun r => ((k, v) :: r.1, r.2)
    | .blockEnd :: _ => .ok ([], f.next)
    | _ => f.refuse

/-- The value after a key; a key without a colon has an empty one. -/
def valueAfter (handles : Handles) (setting : Setting) : Nat → Feed → Parsed Node
  | 0, f => f.refuse
  | fuel + 1, f =>
    match f.tokens with
    | .value :: _ => nodeOrEmpty handles setting fuel f.next
    | _ => .ok (.empty, f)

/-- Entries between square brackets; a pair among them is a mapping of its own. -/
def flowItems (handles : Handles) (first : Bool) : Nat → Feed → Parsed (List Node)
  | 0, f => f.refuse
  | fuel + 1, f =>
    match f.tokens, first with
    | .flowSequenceEnd :: _, _ => .ok ([], f.next)
    | .flowEntry :: _, false => flowItem handles fuel f.next
    | _, false => f.refuse
    | _, true => flowItem handles fuel f

def flowItem (handles : Handles) : Nat → Feed → Parsed (List Node)
  | 0, f => f.refuse
  | fuel + 1, f =>
    match f.tokens with
    | .flowSequenceEnd :: _ => .ok ([], f.next)
    | .key :: _ =>
      match nodeOrEmpty handles .flow fuel f.next with
      | .error e => .error e
      | .ok (k, f) =>
        match valueAfter handles .flow fuel f with
        | .error e => .error e
        | .ok (v, f) =>
          (flowItems handles false fuel f).map fun r => (.mapping .map [(k, v)] :: r.1, r.2)
    | _ =>
      match node handles .flow fuel f with
      | .error e => .error e
      | .ok (item, f) => (flowItems handles false fuel f).map fun r => (item :: r.1, r.2)

/-- Pairs between braces; a node without a colon is a key with an empty value. -/
def flowPairs (handles : Handles) (first : Bool) : Nat → Feed → Parsed (List (Node × Node))
  | 0, f => f.refuse
  | fuel + 1, f =>
    match f.tokens, first with
    | .flowMappingEnd :: _, _ => .ok ([], f.next)
    | .flowEntry :: _, false => flowPair handles fuel f.next
    | _, false => f.refuse
    | _, true => flowPair handles fuel f

def flowPair (handles : Handles) : Nat → Feed → Parsed (List (Node × Node))
  | 0, f => f.refuse
  | fuel + 1, f =>
    match f.tokens with
    | .flowMappingEnd :: _ => .ok ([], f.next)
    | .key :: _ =>
      match nodeOrEmpty handles .flow fuel f.next with
      | .error e => .error e
      | .ok (k, f) =>
        match valueAfter handles .flow fuel f with
        | .error e => .error e
        | .ok (v, f) => (flowPairs handles false fuel f).map fun r => ((k, v) :: r.1, r.2)
    | _ =>
      match node handles .flow fuel f with
      | .error e => .error e
      | .ok (k, f) => (flowPairs handles false fuel f).map fun r => ((k, .empty) :: r.1, r.2)

end

/-- The directives at the head of the tokens: each handle is given a meaning once, and
the version once. -/
def directives (versioned : Bool) (handles : Handles) :
    List Token → Except Fault (Handles × List Token)
  | .directive (.version major) :: rest =>
    if versioned || major != 1 then .error .illFormed else directives true handles rest
  | .directive (.handle name meaning) :: rest =>
    if (handles.lookup name).isSome then .error .illFormed
    else directives versioned ((name, meaning) :: handles) rest
  | .directive .unknown :: rest => directives versioned handles rest
  | ts => .ok (handles ++ commonHandles, ts)

def atDocumentEdge : List Token → Bool
  | [] | .directive _ :: _ | .documentStart :: _ | .documentEnd :: _ => true
  | _ => false

/-- After the one document of a text nothing stands but marks of its end. -/
def noMore (ts : List Token) : Except Fault Unit :=
  match ts.dropWhile (· == .documentEnd) with
  | [] => .ok ()
  | rest => do
    let (_, rest) ← directives false [] rest
    .error (refusal rest)

def markedDocument (fuel : Nat) (ts : List Token) : Except Fault Node := do
  let (handles, ts) ← directives false [] ts
  match ts with
  | .documentStart :: rest =>
    if atDocumentEdge rest then
      noMore rest
      return .empty
    else
      let (n, f) ← node handles .block fuel ⟨rest, []⟩
      noMore f.tokens
      return n
  | _ => .error (refusal ts)

/-- The node of the one document of a text; a text without one has none. -/
def document (ts : List Token) : Except Fault (Option Node) :=
  let fuel := 6 * ts.length + 6
  match ts with
  | [] => .ok none
  | .directive _ :: _ | .documentStart :: _ => (markedDocument fuel ts).map some
  | _ => do
    let (n, f) ← node commonHandles .block fuel ⟨ts, []⟩
    noMore f.tokens
    return some n

end ApiRelease.Yaml
