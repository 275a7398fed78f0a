import ApiRelease.Rule.Pattern
import Mathlib.Data.List.Infix
import Mathlib.Tactic.MkIffOfInductiveProp

/-! # Phrases and restrictions, checked one by one

There are few phrases and restrictions, and whatever a proof needs of their letters is
checked here for each of them. The template of a phrase has one placeholder, that of its
target; its stem is the template with the target in this place.
-/
namespace ApiRelease

namespace Text

/-- The characters of a text, read off its bytes if each of them is one byte. Tables are
checked by this, as decoding takes its time. -/
def letters (s : String) : List Char :=
  if s.toByteArray.data.toList.all (·.toNat ≤ 127) then
    s.toByteArray.data.toList.map fun b => Char.ofNat b.toNat
  else s.toList

theorem map_utf8EncodeChar {c : Char} (h : ∀ b ∈ String.utf8EncodeChar c, b.toNat ≤ 127) :
    (String.utf8EncodeChar c).map (fun b => Char.ofNat b.toNat) = [c] := by
  by_cases hone : c.val.toNat ≤ 127
  · have hbyte : (UInt8.ofNat c.val.toNat).toNat = c.val.toNat := by
      rw [UInt8.toNat_ofNat']
      omega
    have hencoded : String.utf8EncodeChar c = [UInt8.ofNat c.val.toNat] := if_pos hone
    rw [hencoded, List.map_singleton, hbyte]
    exact congrArg ([·]) c.ofNat_toNat
  · -- the first of several bytes is over 127
    simp only [String.utf8EncodeChar, if_neg hone] at h
    split_ifs at h
    all_goals
      have hfirst := h _ List.mem_cons_self
      rw [UInt8.toNat_ofNat'] at hfirst
      omega

theorem toList_eq_letters (s : String) : s.toList = letters s := by
  obtain ⟨cs,rfl⟩ := s.exists_eq_ofList
  rw [letters, String.toByteArray_ofList, List.utf8Encode, List.toList_data_toByteArray]
  split_ifs with h
  · have hbytes : ∀ c ∈ cs, ∀ b ∈ String.utf8EncodeChar c, b.toNat ≤ 127 := by simpa using h
    rw [String.toList_ofList, List.map_flatMap,
      List.flatMap_congr fun c hc => map_utf8EncodeChar (hbytes c hc), List.flatMap_singleton']
  · rfl

end Text

structure Wording where
  template : String
  action : Action
  aspect : Option (Aspect × Impact) := none
  tag : Option Tag := none

def Wording.all : List Wording :=
  [{ template := "removed \x7btarget\x7d", action := .removed },
   { template := "removed optional \x7btarget\x7d", action := .removed, tag := some .wasOptional },
   { template := "added optional \x7btarget\x7d", action := .added, tag := some .nowOptional },
   { template := "added required \x7btarget\x7d", action := .added, tag := some .nowRequired },
   { template := "\x7btarget\x7d type narrowed", action := .modified,
     aspect := some (.type, .narrowing) },
   { template := "\x7btarget\x7d type widened", action := .modified,
     aspect := some (.type, .widening) },
   { template := "modified \x7btarget\x7d", action := .modified },
   { template := "\x7btarget\x7d made optional", action := .modified,
     aspect := some (.optionality, .widening) },
   { template := "\x7btarget\x7d made required", action := .modified,
     aspect := some (.optionality, .narrowing) },
   { template := "\x7btarget\x7d deprecated", action := .modified,
     aspect := some (.deprecation, .widening) },
   { template := "renamed \x7btarget\x7d", action := .renamed },
   { template := "reordered \x7btarget\x7d", action := .reordered }]

/-- No occurrence of the part ends in the text. -/
def Text.isClear (part cs : List Char) : Bool :=
  part.tails.all (fun u => u.isEmpty || !u.isPrefixOf cs) && !Text.occursIn part cs

namespace Pattern

/-! The words of a template, looked for in its letters. -/

def actionIn (cs : List Char) : Option Action :=
  [Action.added, .removed, .renamed, .reordered, .modified].find? fun a =>
    (a.name ++ " ").toList.isPrefixOf cs

def aspectIn (cs : List Char) : Option (Aspect × Impact) :=
  (aspectPhrases.find? fun a => Text.occursIn a.1.toList cs).map (·.2)

def tagIn (cs : List Char) : Option Tag :=
  if "added required ".toList.isPrefixOf cs then some .nowRequired
  else if "added optional ".toList.isPrefixOf cs then some .nowOptional
  else if "removed optional ".toList.isPrefixOf cs then some .wasOptional
  else none

def leads : List String :=
  [Action.added, .removed, .renamed, .reordered, .modified].map (·.name ++ " ") ++
    ["added required ", "added optional ", "removed optional "]

end Pattern

namespace Intent

def Settled (text : String) : Prop :=
  Text.lowerChars (Text.trimChars (Text.collapse false text.toList)) = text.toList ∧
  Text.wordsOf text.toList ≠ []
deriving Decidable

theorem Settled.normalize_eq {text : String} (h : Settled text) : normalize text = text := by
  apply String.toList_injective
  rw [normalize, Text.lower, Text.normalize, String.toList_ofList, String.toList_ofList, h.1]

namespace Phrase

def lead (p : Phrase) : List Char := p.template.toList.takeWhile (· != '\x7b')

def rest (p : Phrase) : List Char := (p.template.toList.dropWhile (· != '\x7d')).drop 1

def stem (p : Phrase) : List Char := p.lead ++ p.target.name.toList ++ p.rest

def Worded (p : Phrase) (w : Wording) : Prop :=
  w.template = p.template ∧ Pattern.aspectIn p.stem = w.aspect ∧
  (Pattern.actionIn p.stem).or (w.aspect.map fun _ => .modified) = some w.action ∧
  Pattern.tagIn p.stem = w.tag
deriving Decidable

@[mk_iff] structure Regular (p : Phrase) : Prop where
  settled : Settled p.text
  /-- no word of the text begins like a keyword -/
  unkeyed : Text.occursIn [' ', 'w', 'h'] p.text.toList = false ∧
    Text.occursIn [' ', 'u', 'n'] p.text.toList = false
  template : p.template.toList = p.lead ++ (slot "target").toList ++ p.rest
  braces : '\x7b' ∉ p.stem
  name : 'g' ∉ p.rest
  /-- the letters by which a restriction would be known -/
  letters : 'h' ∉ p.template.toList ∧ 's' ∉ p.template.toList ∧ 'K' ∉ p.template.toList
  leads : ∀ w ∈ Pattern.leads, p.stem.isPrefixOf w.toList = false
  worded : ∃ w ∈ Wording.all, p.Worded w

instance (p : Phrase) : Decidable p.Regular := decidable_of_iff' _ (regular_iff p)

end Phrase

theorem regular_of_mem : ∀ p ∈ phrases, p.Regular := by
  simp only [Phrase.regular_iff, Phrase.Worded, Phrase.stem, Phrase.lead, Phrase.rest, Settled,
    Pattern.actionIn, Pattern.aspectIn, Pattern.tagIn, Text.toList_eq_letters]
  decide +kernel

inductive Restriction where
  | inside (keyword : Keyword)
  | ofKind (kind : NodeKind)
  deriving DecidableEq

namespace Restriction

def condition : Restriction → Keyword × String
  | inside keyword => (keyword, "nested")
  | ofKind kind => (.when, kind.name)

def nested : Option Restriction → Option Bool
  | some (inside keyword) => some (decide (keyword = .when))
  | _ => none

def kinds : Option Restriction → List String
  | some (ofKind kind) => [kind.name]
  | _ => []

def tail : Option Restriction → List Char
  | some (inside keyword) => ' ' :: (keyword.name.toList ++ ' ' :: "nested".toList)
  | some (ofKind kind) => " for ".toList ++ kind.name.toList
  | none => []

end Restriction

/-- What is written for restrictions is settled, and no word of a template reaches into it. -/
theorem restrictions_regular :
    (∀ k ∈ (Vocabulary.all : List NodeKind), Settled k.name ∧
      '\x7b' ∉ Restriction.tail (some (.ofKind k)) ∧ ∀ a ∈ Pattern.aspectPhrases,
        Text.isClear a.1.toList (Restriction.tail (some (.ofKind k))) = true) ∧
    (∀ keyword ∈ [Keyword.when, .unless], Settled keyword.name ∧
      '\x7b' ∉ Restriction.tail (some (.inside keyword)) ∧ ∀ a ∈ Pattern.aspectPhrases,
        Text.isClear a.1.toList (Restriction.tail (some (.inside keyword))) = true) ∧
    ∀ w ∈ nestedConditions, Settled w := by
  simp only [Settled, Text.toList_eq_letters]
  decide +kernel

theorem settled_kind (k : NodeKind) : Settled k.name :=
  (restrictions_regular.1 k (Vocabulary.mem_all k)).1

theorem settled_keyword (keyword : Keyword) : Settled keyword.name :=
  (restrictions_regular.2.1 keyword (by cases keyword <;> simp)).1

theorem settled_nested {w : String} (hw : w ∈ nestedConditions) : Settled w :=
  restrictions_regular.2.2 w hw

theorem regular_tail (c : Option Restriction) : '\x7b' ∉ Restriction.tail c ∧
    ∀ a ∈ Pattern.aspectPhrases, Text.isClear a.1.toList (Restriction.tail c) = true := by
  match c with
  | none => exact ⟨List.not_mem_nil,by decide⟩
  | some (.inside keyword) => exact (restrictions_regular.2.1 keyword (by cases keyword <;> simp)).2
  | some (.ofKind k) => exact (restrictions_regular.1 k (Vocabulary.mem_all k)).2

end Intent

end ApiRelease
