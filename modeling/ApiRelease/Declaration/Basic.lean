import ApiRelease.Declaration.Kind
import ApiRelease.Document.Scalar
import ApiRelease.Text.Blank

/-! # Declarations of a module

A declaration is a tree: facts about one declared thing and, under local names,
the members that belong to it. A local name is most often a text, but any scalar will
do. The path identifies a declaration across versions.
-/
namespace ApiRelease

/-- A point in source text: line from one, column from zero, offset in bytes. -/
structure Position where
  line : Int
  column : Int
  offset : Int
  deriving DecidableEq

structure Span where
  start : Position
  stop : Position
  deriving DecidableEq

structure TypeParameter where
  name : String
  constraint : Option String
  default : Option String
  deriving DecidableEq

structure Parameter where
  name : String
  type : String
  optional : Bool
  rest : Bool
  defaultValue : Option String
  deriving DecidableEq

def Parameter.isRequired (p : Parameter) : Bool :=
  !(p.optional || p.rest || p.defaultValue.isSome)

structure Signature where
  parameters : List Parameter
  returnType : String
  typeParameters : List TypeParameter
  normalized : String
  deriving DecidableEq

structure Property where
  name : String
  type : String
  optional : Bool
  readonly : Bool
  deriving DecidableEq

/-- The text of a type and its breakdown. `raw` is the text as written; a blank
`signature` says that the type could not be resolved. -/
structure TypeInfo where
  signature : String
  raw : String
  unionMembers : List String
  intersectionMembers : List String
  callSignatures : List Signature
  constructSignatures : List Signature
  properties : List Property
  typeParameters : List TypeParameter
  stringIndexType : Option String
  numberIndexType : Option String
  deriving DecidableEq

def TypeInfo.isResolved (t : TypeInfo) : Bool := !(Text.trim t.signature).isEmpty

structure Metadata where
  deprecated : Bool
  deprecationMessage : Option String
  defaultValue : Option String
  rawComment : Option String
  deriving DecidableEq

structure Facts where
  path : String
  name : String
  kind : NodeKind
  location : Option Span
  parent : Option String
  typeInfo : Option TypeInfo
  modifiers : Subset Modifier
  metadata : Option Metadata
  extended : List String
  implemented : List String
  deriving DecidableEq

structure Declaration extends Facts where
  members : List (Scalar × Declaration)

/-- Declarations with what each is kept under: its local name, or its path. -/
abbrev Members := List (Scalar × Declaration)

namespace Facts

def signature (f : Facts) : String := (f.typeInfo.map (·.signature)).getD ""

def rawType (f : Facts) : String := (f.typeInfo.map (·.raw)).getD ""

/-- There is a type and it could be resolved. -/
def isResolved (f : Facts) : Bool := (f.typeInfo.map (·.isResolved)).getD false

def deprecated (f : Facts) : Bool := (f.metadata.map (·.deprecated)).getD false

def defaultValue (f : Facts) : Option String := f.metadata.bind (·.defaultValue)

def has (f : Facts) (m : Modifier) : Bool := f.modifiers.has m

end Facts

namespace Declaration

mutual

/-- The declaration and everything under it, parents before their members. -/
def walk : Declaration → List Declaration
  | ⟨facts, members⟩ => ⟨facts, members⟩ :: walkAll members

def walkAll : List (Scalar × Declaration) → List Declaration
  | [] => []
  | (_, d) :: rest => walk d ++ walkAll rest

end

mutual

def same : Declaration → Declaration → Bool
  | ⟨f, ms⟩, ⟨g, ns⟩ => decide (f = g) && sameMembers ms ns

def sameMembers : List (Scalar × Declaration) → List (Scalar × Declaration) → Bool
  | [], [] => true
  | (k, a) :: as, (l, b) :: bs => k == l && same a b && sameMembers as bs
  | _, _ => false

end

mutual

theorem same_iff : ∀ a b : Declaration, same a b = true ↔ a = b
  | ⟨f, ms⟩, ⟨g, ns⟩ => by
    simp only [same, Bool.and_eq_true, decide_eq_true_eq, sameMembers_iff ms ns,
      Declaration.mk.injEq]

theorem sameMembers_iff : ∀ a b : List (Scalar × Declaration), sameMembers a b = true ↔ a = b
  | [], b => by cases b <;> simp [sameMembers]
  | (k, a) :: as, b => by
    cases b with
    | nil => simp [sameMembers]
    | cons b bs =>
      obtain ⟨l, b⟩ := b
      simp [sameMembers, same_iff a b, sameMembers_iff as bs, and_assoc]

end

instance : DecidableEq Declaration := fun a b => decidable_of_iff _ (same_iff a b)

/-- Puts a member under its local name, in the place of an earlier one of that name,
which stays as it was first written. -/
def putMember (members : Members) (key : Scalar) (d : Declaration) : Members :=
  match members with
  | [] => [(key, d)]
  | (k, e) :: rest => if k.isSame key then (k, d) :: rest else (k, e) :: putMember rest key d

def keyed (pairs : Members) : Members :=
  pairs.foldl (fun members p => putMember members p.1 p.2) []

end Declaration

end ApiRelease
