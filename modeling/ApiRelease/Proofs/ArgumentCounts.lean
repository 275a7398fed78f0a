import ApiRelease.Diff.Signature
import ApiRelease.Proofs.Runs

/-! # Counts of arguments

A call passes its arguments by position, at least as many as it takes to reach the last
parameter that has to be passed, and no more than there are parameters unless one of them
takes the rest. Signatures between which no difference is told have as many parameters,
and each has to be passed on both sides or on neither. Which of them takes the rest is
not compared, so they agree on all counts up to the number of parameters, and on the
greater ones just if both or neither takes the rest.
-/
namespace ApiRelease

namespace Signature

/-- The position of the last parameter that has to be passed, counted from one, and zero if
none has to be. -/
def lastRequired : List Parameter → Nat
  | [] => 0
  | p :: rest =>
    match lastRequired rest with
    | 0 => if p.isRequired then 1 else 0
    | n + 1 => n + 2

def leastCount (s : Signature) : Nat := lastRequired s.parameters

def takesRest (s : Signature) : Bool := s.parameters.any (·.rest)

def Accepts (s : Signature) (count : Nat) : Prop :=
  s.leastCount ≤ count ∧ (s.takesRest = true ∨ count ≤ s.parameters.length)

/-- A count reaches the last parameter that has to be passed just if none of those beyond it
has to be. -/
theorem lastRequired_le_iff {ps : List Parameter} {count : Nat} :
    lastRequired ps ≤ count ↔ ∀ p ∈ ps.drop count, p.isRequired = false := by
  induction ps generalizing count with
  | nil => simp [lastRequired]
  | cons p rest ih =>
    cases count with
    | zero =>
      have hrest : lastRequired rest ≤ 0 ↔ ∀ q ∈ rest.drop 0, q.isRequired = false := ih
      simp only [lastRequired, List.drop_zero, List.forall_mem_cons, Nat.le_zero] at hrest ⊢
      rw [← hrest]
      cases lastRequired rest <;> simp
    | succ count =>
      rw [List.drop_succ_cons, ← ih, lastRequired]
      split
      · split_ifs <;> omega
      · omega

theorem lastRequired_le_length (ps : List Parameter) : lastRequired ps ≤ ps.length := by
  apply lastRequired_le_iff.mpr
  intro p hp
  simp at hp

variable {compareTypes : TypeOracle} {path : String}

def SameType (compareTypes : TypeOracle) (old new : String) : Prop :=
  typeVerdict compareTypes old new = .ok none

theorem SameType.refl (compareTypes : TypeOracle) (text : String) :
    SameType compareTypes text text := by
  simp [SameType, typeVerdict]

theorem compareParameter_eq_none_iff (path : String) {o n : Parameter} :
    compareParameter path o n compareTypes = .ok none ↔
    SameType compareTypes o.type n.type ∧ o.isRequired = n.isRequired := by
  constructor
  · intro h
    obtain ⟨verdict,hv,h⟩ := bind_eq_ok.mp h
    cases verdict with
    | some verdict =>
      obtain ⟨text,-,h⟩ := bind_eq_ok.mp h
      cases h
    | none =>
      refine ⟨hv,?_⟩
      cases ho : o.isRequired <;> cases hn : n.isRequired <;> simp [ho, hn] at h ⊢ <;> cases h
  · rintro ⟨hv,hrequired⟩
    refine bind_eq_ok.mpr ⟨none,hv,?_⟩
    simp only [hrequired, Bool.and_not_self, Bool.not_and_self, Bool.false_eq_true, if_false]
    rfl

/-- Nothing is told of parameters just if they go in pairs of one type, each pair to be
passed or not. -/
theorem compareParameters_eq_nil_iff (path : String) {olds news : List Parameter} :
    compareParameters path compareTypes olds news = .ok [] ↔
    List.Forall₂ (fun o n => SameType compareTypes o.type n.type ∧ o.isRequired = n.isRequired)
      olds news := by
  induction olds generalizing news with
  | nil =>
    cases news with
    | nil => simp [compareParameters]
    | cons new news => simp [compareParameters]
  | cons old olds ih =>
    cases news with
    | nil => simp [compareParameters]
    | cons new news =>
      rw [List.forall₂_cons, ← ih, ← compareParameter_eq_none_iff path]
      constructor
      · intro h
        obtain ⟨here,hhere,h⟩ := bind_eq_ok.mp h
        obtain ⟨rest,hrest,h⟩ := bind_eq_ok.mp h
        obtain ⟨hnone,rfl⟩ := List.append_eq_nil_iff.mp (Except.ok.inj h)
        obtain rfl := Option.toList_eq_nil_iff.mp hnone
        exact ⟨hhere,hrest⟩
      · rintro ⟨hhere,hrest⟩
        exact bind_eq_ok.mpr ⟨none,hhere,bind_eq_ok.mpr ⟨[],hrest,rfl⟩⟩

theorem compareReturn_eq_none_iff (path : String) {old new : String} :
    compareReturn path old new compareTypes = .ok none ↔ SameType compareTypes old new := by
  constructor
  · intro h
    obtain ⟨verdict,hv,h⟩ := bind_eq_ok.mp h
    cases verdict with
    | some verdict =>
      obtain ⟨text,-,h⟩ := bind_eq_ok.mp h
      cases h
    | none => exact hv
  · intro hv
    exact bind_eq_ok.mpr ⟨none,hv,rfl⟩

theorem compare_eq_nil_iff {old new : Signature} :
    compare path old new compareTypes = .ok [] ↔
    List.Forall₂ (fun o n => SameType compareTypes o.type n.type ∧ o.isRequired = n.isRequired)
      old.parameters new.parameters ∧ SameType compareTypes old.returnType new.returnType := by
  rw [← compareParameters_eq_nil_iff path, ← compareReturn_eq_none_iff path]
  constructor
  · intro h
    obtain ⟨parameters,hp,h⟩ := bind_eq_ok.mp h
    obtain ⟨result,hr,h⟩ := bind_eq_ok.mp h
    obtain ⟨rfl,hnone⟩ := List.append_eq_nil_iff.mp (Except.ok.inj h)
    obtain rfl := Option.toList_eq_nil_iff.mp hnone
    exact ⟨hp,hr⟩
  · rintro ⟨hp,hr⟩
    exact bind_eq_ok.mpr ⟨[],hp,bind_eq_ok.mpr ⟨none,hr,rfl⟩⟩

theorem lastRequired_of_forall₂ {olds news : List Parameter}
    (h : List.Forall₂ (fun o n => o.isRequired = n.isRequired) olds news) :
    lastRequired olds = lastRequired news := by
  induction h with
  | nil => rfl
  | cons hfirst _ ih => simp only [lastRequired, hfirst, ih]

theorem accepts_iff_of_le {s : Signature} {count : Nat} (h : count ≤ s.parameters.length) :
    s.Accepts count ↔ s.leastCount ≤ count := by
  constructor
  · intro ha
    exact ha.1
  · intro hleast
    exact ⟨hleast,Or.inr h⟩

/-- Beyond the parameters it only matters whether one of them takes the rest. -/
theorem accepts_iff_of_lt {s : Signature} {count : Nat} (h : s.parameters.length < count) :
    s.Accepts count ↔ s.takesRest = true := by
  have hleast : s.leastCount ≤ s.parameters.length := lastRequired_le_length s.parameters
  constructor
  · rintro ⟨-,hrest | hle⟩
    · exact hrest
    · omega
  · intro hrest
    exact ⟨by omega,Or.inl hrest⟩

/-- Signatures of which nothing is told take the same counts of arguments just if both or
neither has a parameter that takes the rest. -/
theorem argumentCounts_of_compare_eq_nil {old new : Signature}
    (h : compare path old new compareTypes = .ok []) :
    old.leastCount = new.leastCount ∧ old.parameters.length = new.parameters.length ∧
    (∀ count ≤ old.parameters.length, old.Accepts count ↔ new.Accepts count) ∧
    ((∀ count, old.Accepts count ↔ new.Accepts count) ↔ old.takesRest = new.takesRest) := by
  have hpairs := (compare_eq_nil_iff.mp h).1
  have hleast : old.leastCount = new.leastCount :=
    lastRequired_of_forall₂ (hpairs.imp fun _ _ hpair => hpair.2)
  have hlength := hpairs.length_eq
  have hfew : ∀ count ≤ old.parameters.length, old.Accepts count ↔ new.Accepts count := by
    intro count hcount
    rw [accepts_iff_of_le hcount, accepts_iff_of_le (hlength ▸ hcount), hleast]
  refine ⟨hleast,hlength,hfew,?_,?_⟩
  · intro hall
    have hmany := hall (old.parameters.length + 1)
    rw [accepts_iff_of_lt (by omega), accepts_iff_of_lt (by omega)] at hmany
    exact Bool.eq_iff_iff.mpr hmany
  · intro hrest count
    rcases Nat.lt_or_ge old.parameters.length count with hmany | hcount
    · rw [accepts_iff_of_lt hmany, accepts_iff_of_lt (hlength ▸ hmany), hrest]
    · exact hfew count hcount

def openFile (mode : Parameter) : Signature :=
  ⟨[⟨"path","string",false,false,none⟩,mode],"File",[],""⟩

/-- A parameter that got a name of its own and a default instead of a question mark. -/
theorem argumentCounts_of_named_default :
    compare "open" (openFile ⟨"mode","string",true,false,none⟩)
      (openFile ⟨"flags","string",false,false,some "r"⟩) TypeText.heuristic = .ok [] ∧
    ∀ count, (openFile ⟨"mode","string",true,false,none⟩).Accepts count ↔
      (openFile ⟨"flags","string",false,false,some "r"⟩).Accepts count := by
  have h : compare "open" (openFile ⟨"mode","string",true,false,none⟩)
      (openFile ⟨"flags","string",false,false,some "r"⟩) TypeText.heuristic = .ok [] :=
    compare_eq_nil_iff.mpr
      ⟨.cons ⟨.refl _ _,rfl⟩ (.cons ⟨.refl _ _,rfl⟩ .nil),.refl _ _⟩
  exact ⟨h,(argumentCounts_of_compare_eq_nil h).2.2.2.mpr rfl⟩

def ofItems (items : Parameter) : Signature := ⟨[items],"void",[],""⟩

/-- Of a parameter that takes the rest where it could be left out before nothing is told,
though calls with two arguments fit just one of the signatures. -/
theorem compare_of_untold_rest :
    (∀ compareTypes, compare "f" (ofItems ⟨"items","string[]",true,false,none⟩)
      (ofItems ⟨"items","string[]",false,true,none⟩) compareTypes = .ok []) ∧
    ¬(ofItems ⟨"items","string[]",true,false,none⟩).Accepts 2 ∧
    (ofItems ⟨"items","string[]",false,true,none⟩).Accepts 2 := by
  refine ⟨?_,by simp [Accepts, takesRest, ofItems],by decide,Or.inl rfl⟩
  intro compareTypes
  exact compare_eq_nil_iff.mpr ⟨.cons ⟨.refl _ _,rfl⟩ .nil,.refl _ _⟩

end Signature

end ApiRelease
