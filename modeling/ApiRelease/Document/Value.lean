import ApiRelease.Document.Scalar

/-! # Documents

A document is what a JSON, YAML or TOML text says, before anything is known about
its shape: a scalar, a list, a pair, a set of scalars, or a table whose fields keep
the order in which they were written.
-/
namespace ApiRelease

inductive Value where
  | scalar (s : Scalar)
  | list (items : List Value)
  | pair (first second : Value)
  | set (members : List Scalar)
  | table (fields : List (Scalar × Value))

abbrev Fields := List (Scalar × Value)

instance : Inhabited Value := ⟨.scalar .null⟩

namespace Value

@[match_pattern] abbrev null : Value := .scalar .null

@[match_pattern] abbrev bool (b : Bool) : Value := .scalar (.bool b)

@[match_pattern] abbrev int (n : Int) : Value := .scalar (.int n)

@[match_pattern] abbrev float (x : Float) : Value := .scalar (.float x)

@[match_pattern] abbrev text (s : String) : Value := .scalar (.text s)

mutual

/-- Equality of documents; two doubles are equal when they are the same double,
so that what is not a number equals itself. -/
def same : Value → Value → Bool
  | .scalar a, .scalar b => decide (a = b)
  | .list a, .list b => sameItems a b
  | .pair a b, .pair c d => same a c && same b d
  | .set a, .set b => decide (a = b)
  | .table a, .table b => sameFields a b
  | _, _ => false

def sameItems : List Value → List Value → Bool
  | [], [] => true
  | a :: as, b :: bs => same a b && sameItems as bs
  | _, _ => false

def sameFields : List (Scalar × Value) → List (Scalar × Value) → Bool
  | [], [] => true
  | (k, a) :: as, (l, b) :: bs => k == l && same a b && sameFields as bs
  | _, _ => false

end

mutual

theorem same_iff : ∀ a b : Value, same a b = true ↔ a = b
  | .scalar a, b => by cases b <;> simp [same]
  | .list a, b => by
    cases b with
    | list b => simp only [same, sameItems_iff a b, Value.list.injEq]
    | _ => simp [same]
  | .pair a b, c => by
    cases c with
    | pair c d => simp only [same, Bool.and_eq_true, same_iff a c, same_iff b d, Value.pair.injEq]
    | _ => simp [same]
  | .set a, b => by cases b <;> simp [same]
  | .table a, b => by
    cases b with
    | table b => simp only [same, sameFields_iff a b, Value.table.injEq]
    | _ => simp [same]

theorem sameItems_iff : ∀ a b : List Value, sameItems a b = true ↔ a = b
  | [], b => by cases b <;> simp [sameItems]
  | a :: as, b => by
    cases b with
    | nil => simp [sameItems]
    | cons b bs => simp [sameItems, same_iff a b, sameItems_iff as bs]

theorem sameFields_iff : ∀ a b : List (Scalar × Value), sameFields a b = true ↔ a = b
  | [], b => by cases b <;> simp [sameFields]
  | (k, a) :: as, b => by
    cases b with
    | nil => simp [sameFields]
    | cons b bs =>
      obtain ⟨l, b⟩ := b
      simp [sameFields, same_iff a b, sameFields_iff as bs, and_assoc]

end

instance : DecidableEq Value := fun a b => decidable_of_iff _ (same_iff a b)

/-- The name under which an error message speaks of a document of this shape. -/
def kindName : Value → String
  | .scalar s => s.kindName
  | .list _ => "list"
  | .pair _ _ => "tuple"
  | .set _ => "set"
  | .table _ => "dict"

/-- The longer name that messages about a failed conversion give. -/
def typeName : Value → String
  | .scalar s => s.typeName
  | v => v.kindName

/-- Nothing, zero and whatever is empty count as false. -/
def truthy : Value → Bool
  | .scalar s => s.truthy
  | .list items => !items.isEmpty
  | .pair _ _ => true
  | .set members => !members.isEmpty
  | .table fields => !fields.isEmpty

def isNull : Value → Bool
  | .null => true
  | _ => false

def orElse (v fallback : Value) : Value := if v.truthy then v else fallback

def ofOption : Option String → Value
  | none => .null
  | some s => .text s

def texts (ss : List String) : Value := .list (ss.map .text)

/-- The entries of a list or pair; any other document has none. -/
def entries : Value → List Value
  | .list items => items
  | .pair first second => [first, second]
  | _ => []

/-- The fields of a table; any other document has none. -/
def fieldsOrNone : Value → Fields
  | .table fields => fields
  | _ => []

end Value

namespace Fields

def find? (key : Scalar) : Fields → Option Value
  | [] => none
  | (k, v) :: rest => if k.isSame key then some v else find? key rest

/-- The field, or `fallback` when it is absent; a field that holds nothing is present. -/
def getD (fields : Fields) (key : String) (fallback : Value) : Value :=
  (find? key fields).getD fallback

def get (fields : Fields) (key : String) : Value := fields.getD key .null

def has (fields : Fields) (key : String) : Bool := (find? key fields).isSome

/-- Sets a field in its place, or at the end when it is new. The key that was there
first stays. -/
def set (key : Scalar) (v : Value) : Fields → Fields
  | [] => [(key, v)]
  | (k, w) :: rest => if k.isSame key then (k, v) :: rest else (k, w) :: set key v rest

def ofPairs (pairs : List (Scalar × Value)) : Fields :=
  pairs.foldl (fun fields p => set p.1 p.2 fields) []

end Fields

end ApiRelease
