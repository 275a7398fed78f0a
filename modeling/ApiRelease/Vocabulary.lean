/-! # Closed vocabularies and their subsets

A vocabulary is a finite list of words, each written as one text, given in the
alphabetic order of those texts. A subset is known by which words it has, so two
subsets with the same words are equal; listing one goes through the vocabulary.
-/
namespace ApiRelease

class Vocabulary (α : Type) where
  all : List α
  name : α → String
  /-- every word is listed, and is the first of its name -/
  find_name : ∀ a, all.find? (fun b => name b == name a) = some a

namespace Vocabulary

variable {α : Type} [Vocabulary α]

def parse? (s : String) : Option α := (all : List α).find? fun a => name a == s

@[simp] theorem parse?_name (a : α) : parse? (name a) = some a := find_name a

theorem name_of_parse? {s : String} {a : α} (h : parse? s = some a) : name a = s := by
  have := List.find?_some h
  simpa using this

theorem mem_all (a : α) : a ∈ (all : List α) := List.mem_of_find?_eq_some (find_name a)

theorem name_injective {a b : α} (h : name a = name b) : a = b := by
  have ha := parse?_name a
  rw [h, parse?_name] at ha
  exact (Option.some.inj ha).symm

def names (α : Type) [Vocabulary α] : List String := (all : List α).map name

end Vocabulary

@[ext] structure Subset (α : Type) where
  has : α → Bool

namespace Subset

variable {α : Type}

def empty : Subset α := ⟨fun _ => false⟩

instance : EmptyCollection (Subset α) := ⟨empty⟩

def toList [Vocabulary α] (s : Subset α) : List α := Vocabulary.all.filter s.has

def names [Vocabulary α] (s : Subset α) : List String := s.toList.map Vocabulary.name

variable [DecidableEq α]

def insert (a : α) (s : Subset α) : Subset α := ⟨fun b => b == a || s.has b⟩

def ofList (as : List α) : Subset α := ⟨fun b => as.contains b⟩

def union (s t : Subset α) : Subset α := ⟨fun b => s.has b || t.has b⟩

/-- The words of `s` that `t` lacks. -/
def without (s t : Subset α) : Subset α := ⟨fun b => s.has b && !t.has b⟩

@[simp] theorem has_insert (a b : α) (s : Subset α) : (s.insert a).has b = (b == a || s.has b) := rfl

@[simp] theorem has_ofList (as : List α) (b : α) : (ofList as).has b = as.contains b := rfl

omit [DecidableEq α] in
@[simp] theorem mem_toList [Vocabulary α] {s : Subset α} {a : α} :
    a ∈ s.toList ↔ s.has a = true := by
  simp [toList, Vocabulary.mem_all]

/-- A subset is the subset of its listed words. -/
theorem ofList_toList [Vocabulary α] (s : Subset α) : ofList s.toList = s := by
  ext a
  rw [has_ofList, Bool.eq_iff_iff, List.contains_iff_mem, mem_toList]

instance [Vocabulary α] : DecidableEq (Subset α) := fun s t =>
  decidable_of_iff (s.toList = t.toList) ⟨fun h => by rw [← ofList_toList s, h, ofList_toList t],
    fun h => by rw [h]⟩

end Subset

end ApiRelease
