import ApiRelease.Proofs.Spacing
import ApiRelease.TypeText.Union

/-! # Members that are not split again

All that the reader of a type text keeps of what it has read is how many brackets are open
and which string is. A bar separates members where nothing is open, and after it the reader
starts afresh. So a piece is read from the start, as if it stood alone, no bar in it separates
anything, and it leaves nothing open unless it is the last. Blanks open and close nothing: a
member is such a piece, trimmed. It is its own only member, and members that are written with
bars between them are the members of what is written.
-/
namespace ApiRelease.TypeText

/-- What is open at a place of a type text: brackets, and perhaps a string that ends with
the quote. -/
structure Standing where
  depth : Nat
  quote : Option Char
  deriving DecidableEq

namespace Standing

def start : Standing := ⟨0,none⟩

def step (s : Standing) (c : Char) : Standing :=
  match s.quote with
  | some q => ⟨s.depth,if c == q then none else some q⟩
  | none =>
    if isQuote c then ⟨s.depth,some c⟩
    else if isOpening c then ⟨s.depth + 1,none⟩
    else if isClosing c then ⟨s.depth - 1,none⟩
    else s

def after (s : Standing) (cs : List Char) : Standing := cs.foldl step s

def Uncut : Standing → List Char → Prop
  | _, [] => True
  | s, c :: rest => ¬(s = start ∧ c = '|') ∧ (s.step c).Uncut rest

def Closed (cs : List Char) : Prop := start.Uncut cs ∧ start.after cs = start

def Proper (s : Standing) : Prop := ∀ q ∈ s.quote, isQuote q = true

variable {s : Standing} {cs ds piece : List Char}

theorem after_append : s.after (cs ++ ds) = (s.after cs).after ds := List.foldl_append

theorem uncut_append : s.Uncut (cs ++ ds) ↔ s.Uncut cs ∧ (s.after cs).Uncut ds := by
  induction cs generalizing s with
  | nil => simp [Uncut, after]
  | cons c rest ih => simp [Uncut, after, ih, and_assoc]

/-! ## Blanks -/

theorem Proper.step (hs : s.Proper) (c : Char) : (s.step c).Proper := by
  intro q hq
  obtain ⟨depth,quote⟩ := s
  cases quote with
  | some p =>
    have hp : isQuote p = true := hs p rfl
    by_cases hc : c = p
    · simp [Standing.step, hc] at hq
    · obtain rfl : p = q := by simpa [Standing.step, hc] using hq
      exact hp
  | none =>
    cases hquote : isQuote c with
    | true =>
      obtain rfl : c = q := by simpa [Standing.step, hquote] using hq
      exact hquote
    | false =>
      cases hopening : isOpening c <;> cases hclosing : isClosing c <;>
        simp [Standing.step, hquote, hopening, hclosing] at hq

theorem Proper.after (hs : s.Proper) (cs : List Char) : (s.after cs).Proper := by
  induction cs generalizing s with
  | nil => exact hs
  | cons c rest ih => exact ih (hs.step c)

theorem proper_start : start.Proper := by simp [Proper, start]

theorem step_of_blank (hs : s.Proper) {c : Char} (hc : Text.isBlank c = true) : s.step c = s := by
  have hne (x : Char) (hx : Text.isBlank x = false) : (c == x) = false := by
    rw [beq_eq_false_iff_ne]
    rintro rfl
    simp [hc] at hx
  have hquote : isQuote c = false := by simp (disch := decide) [isQuote, hne]
  have hopening : isOpening c = false := by simp (disch := decide) [isOpening, hne]
  have hclosing : isClosing c = false := by simp (disch := decide) [isClosing, hne]
  obtain ⟨depth,quote⟩ := s
  cases quote with
  | none => simp [step, hquote, hopening, hclosing]
  | some q =>
    have hcq : c ≠ q := by
      rintro rfl
      simp [hs c rfl] at hquote
    simp [step, hcq]

/-- Blanks leave everything as it stands. -/
theorem of_blanks (hs : s.Proper) (hcs : ∀ c ∈ cs, Text.isBlank c = true) :
    s.Uncut cs ∧ s.after cs = s := by
  induction cs with
  | nil => exact ⟨trivial,rfl⟩
  | cons c rest ih =>
    obtain ⟨hc,hrest⟩ := List.forall_mem_cons.mp hcs
    have hstep : s.step c = s := step_of_blank hs hc
    have hbar : ¬(s = start ∧ c = '|') := by
      rintro ⟨-,rfl⟩
      exact absurd hc (by decide)
    obtain ⟨huncut,hafter⟩ := ih hrest
    refine ⟨⟨hbar,hstep.symm ▸ huncut⟩,?_⟩
    change (s.step c).after rest = s
    rw [hstep, hafter]

theorem after_trimChars (cs : List Char) : start.after (Text.trimChars cs) = start.after cs := by
  obtain ⟨before,behind,hbefore,hbehind,hcs⟩ := Text.exists_trimmed cs
  have hfirst : start.after before = start := (of_blanks proper_start hbefore).2
  have hlast := (of_blanks (proper_start.after (Text.trimChars cs)) hbehind).2
  rw [← congrArg start.after hcs, after_append, after_append, hfirst, hlast]

theorem uncut_trimChars_iff : start.Uncut (Text.trimChars cs) ↔ start.Uncut cs := by
  obtain ⟨before,behind,hbefore,hbehind,hcs⟩ := Text.exists_trimmed cs
  obtain ⟨hfirst,hstart⟩ := of_blanks proper_start hbefore
  have hlast := (of_blanks (proper_start.after (Text.trimChars cs)) hbehind).1
  rw [← iff_of_eq (congrArg start.Uncut hcs), uncut_append, uncut_append, hstart]
  exact ⟨fun h => ⟨hfirst,h,hlast⟩,fun h => h.2.1⟩

/-! ## Pieces -/

/-- What one character does to the pieces: a bar where nothing is open ends one, any other
character belongs to it. -/
theorem pieces_cons (s : Standing) (piece : List Char) (c : Char) (rest : List Char) :
    pieces s.depth s.quote piece (c :: rest) =
      if s = start ∧ c = '|' then piece.reverse :: pieces start.depth start.quote [] rest
      else pieces (s.step c).depth (s.step c).quote (c :: piece) rest := by
  obtain ⟨depth,quote⟩ := s
  cases quote with
  | some q => simp [pieces, step, start]
  | none =>
    by_cases hbar : c = '|'
    · have hplain : isQuote '|' = false ∧ isOpening '|' = false ∧ isClosing '|' = false := by decide
      cases depth <;> simp [pieces, step, start, hbar, hplain]
    · cases hquote : isQuote c <;> cases hopening : isOpening c <;> cases hclosing : isClosing c <;>
        cases depth <;> simp [pieces, step, hbar, hquote, hopening, hclosing]

/-- An uncut text belongs to the present piece. -/
theorem pieces_append (h : s.Uncut cs) : pieces s.depth s.quote piece (cs ++ ds) =
    pieces (s.after cs).depth (s.after cs).quote (cs.reverse ++ piece) ds := by
  induction cs generalizing s piece with
  | nil => rfl
  | cons c rest ih =>
    rw [List.cons_append, pieces_cons, if_neg h.1, ih h.2]
    simp [after]

theorem pieces_of_uncut (h : s.Uncut cs) :
    pieces s.depth s.quote piece cs = [piece.reverse ++ cs] := by
  have happend : pieces s.depth s.quote piece (cs ++ []) = _ := pieces_append h
  simpa [pieces] using happend

/-- What was read of the present piece stands in front of the first piece. -/
theorem pieces_piece (depth : Nat) (quote : Option Char) (piece cs : List Char) :
    pieces depth quote piece cs = (pieces depth quote [] cs).modifyHead (piece.reverse ++ ·) := by
  induction cs generalizing depth quote piece with
  | nil => simp [pieces]
  | cons c rest ih =>
    rw [pieces_cons ⟨depth,quote⟩, pieces_cons ⟨depth,quote⟩]
    split_ifs
    · simp
    · rw [ih _ _ (c :: piece), ih _ _ [c], List.modifyHead_modifyHead]
      simp [Function.comp_def]

/-- The invariant of the reader: what it holds of the present piece is uncut and leads from
the start to where it stands. So each piece is uncut, and all but the last leave nothing
open. -/
theorem exists_pieces (hpiece : start.Uncut piece.reverse) (hs : start.after piece.reverse = s)
    (cs : List Char) : ∃ closed last, pieces s.depth s.quote piece cs = closed ++ [last] ∧
      (∀ p ∈ closed, Closed p) ∧ start.Uncut last := by
  induction cs generalizing s piece with
  | nil => exact ⟨[],piece.reverse,rfl,by simp,hpiece⟩
  | cons c rest ih =>
    rw [pieces_cons]
    split_ifs with hcut
    · have hfresh : start.Uncut [].reverse ∧ start.after [].reverse = start := ⟨trivial,rfl⟩
      obtain ⟨closed,last,hpieces,hclosed,hlast⟩ := ih hfresh.1 hfresh.2
      have hended : Closed piece.reverse := ⟨hpiece,hs.trans hcut.1⟩
      refine ⟨piece.reverse :: closed,last,?_,List.forall_mem_cons.mpr ⟨hended,hclosed⟩,hlast⟩
      rw [hpieces, List.cons_append]
    · refine ih ?_ ?_
      · rw [List.reverse_cons, uncut_append, hs]
        exact ⟨hpiece,hcut,trivial⟩
      · rw [List.reverse_cons, after_append, hs]
        rfl

end Standing

variable {cs ds m : List Char} {ms : List (List Char)} {t : String}

open Standing

theorem mem_unionMembersOf :
    m ∈ unionMembersOf cs ↔ m ≠ [] ∧ ∃ p ∈ pieces 0 none [] cs, Text.trimChars p = m := by
  simp [unionMembersOf, and_comm]

/-- All members are uncut, and all but the last leave nothing open. -/
theorem members_stand (cs : List Char) : (∀ m ∈ unionMembersOf cs, start.Uncut m) ∧
    ∀ m ∈ (unionMembersOf cs).dropLast, Closed m := by
  have hfresh : start.Uncut [].reverse ∧ start.after [].reverse = start := ⟨trivial,rfl⟩
  obtain ⟨closed,last,hpieces,hclosed,hlast⟩ := exists_pieces hfresh.1 hfresh.2 cs
  have hmembers : unionMembersOf cs = ((closed.map Text.trimChars).filter fun m => !m.isEmpty) ++
      ([Text.trimChars last].filter fun m => !m.isEmpty) := by
    change ((pieces start.depth start.quote [] cs).map _).filter _ = _
    rw [hpieces, List.map_append, List.filter_append]
    rfl
  have htrimmed : ∀ m ∈ (closed.map Text.trimChars).filter fun m => !m.isEmpty, Closed m := by
    intro m hm
    obtain ⟨p,hp,rfl⟩ := List.mem_map.mp (List.mem_of_mem_filter hm)
    obtain ⟨huncut,hafter⟩ := hclosed p hp
    exact ⟨uncut_trimChars_iff.mpr huncut,(after_trimChars p).trans hafter⟩
  rw [hmembers]
  constructor
  · intro m hm
    rcases List.mem_append.mp hm with hm | hm
    · exact (htrimmed m hm).1
    · obtain rfl := List.mem_singleton.mp (List.mem_of_mem_filter hm)
      exact uncut_trimChars_iff.mpr hlast
  · intro m hm
    cases hempty : (Text.trimChars last).isEmpty with
    | true =>
      rw [List.filter_cons_of_neg (by simp [hempty]), List.filter_nil, List.append_nil] at hm
      exact htrimmed m (List.mem_of_mem_dropLast hm)
    | false =>
      rw [List.filter_cons_of_pos (by simp [hempty]), List.filter_nil, List.dropLast_concat] at hm
      exact htrimmed m hm

theorem unionMembersOf_of_uncut (h : start.Uncut cs) :
    unionMembersOf cs = [Text.trimChars cs].filter fun m => !m.isEmpty := by
  have hpieces : pieces 0 none [] cs = [cs] := pieces_of_uncut h
  rw [unionMembersOf, hpieces, List.map_singleton]

/-- A bar behind a text that leaves nothing open separates the members on both sides. -/
theorem unionMembersOf_append_bar (h : Closed cs) :
    unionMembersOf (cs ++ '|' :: ds) = unionMembersOf cs ++ unionMembersOf ds := by
  obtain ⟨huncut,hafter⟩ := h
  have hpieces : pieces 0 none [] (cs ++ '|' :: ds) = cs :: pieces 0 none [] ds := by
    have happend : pieces start.depth start.quote [] (cs ++ '|' :: ds) = _ := pieces_append huncut
    rw [hafter, pieces_cons, if_pos ⟨rfl,rfl⟩] at happend
    simpa [start] using happend
  rw [unionMembersOf_of_uncut huncut, unionMembersOf, hpieces, List.map_cons, ← List.singleton_append,
    List.filter_append]
  rfl

theorem unionMembersOf_cons_blank {c : Char} (hc : Text.isBlank c = true) :
    unionMembersOf (c :: cs) = unionMembersOf cs := by
  have hstep : start.step c = start := step_of_blank proper_start hc
  have hbar : ¬(start = start ∧ c = '|') := by
    rintro ⟨-,rfl⟩
    exact absurd hc (by decide)
  have hpieces : pieces 0 none [] (c :: cs) = (pieces 0 none [] cs).modifyHead (c :: ·) := by
    have hcons := pieces_cons start [] c cs
    rw [if_neg hbar, hstep, pieces_piece start.depth start.quote [c]] at hcons
    exact hcons
  have hhead : ∀ ps : List (List Char),
      (ps.modifyHead (c :: ·)).map Text.trimChars = ps.map Text.trimChars := by
    intro ps
    cases ps <;> simp [Text.trimChars_cons_blank hc]
  rw [unionMembersOf, hpieces, hhead, unionMembersOf]

/-- A member is its own only member. -/
theorem unionMembersOf_of_mem (h : m ∈ unionMembersOf cs) : unionMembersOf m = [m] := by
  obtain ⟨hne,p,-,rfl⟩ := mem_unionMembersOf.mp h
  have huncut : start.Uncut (Text.trimChars p) := (members_stand cs).1 _ h
  rw [unionMembersOf_of_uncut huncut, Text.trimChars_trimChars]
  simpa using hne

/-- Members that are their own only members come back from a text in which bars stand
between them, if all but the last leave nothing open. -/
theorem unionMembersOf_joined (hms : ∀ m ∈ ms, unionMembersOf m = [m])
    (hclosed : ∀ m ∈ ms.dropLast, Closed m) :
    unionMembersOf ([' ','|',' '].intercalate ms) = ms := by
  induction ms with
  | nil => rfl
  | cons m rest ih =>
    obtain ⟨hm,hrest⟩ := List.forall_mem_cons.mp hms
    cases rest with
    | nil => simpa using hm
    | cons n rest =>
      obtain ⟨⟨huncut,hafter⟩,hclosed⟩ := List.forall_mem_cons.mp hclosed
      have hblank : Text.isBlank ' ' = true := by decide
      have hbefore : Closed (m ++ [' ']) := by
        have hspace : start.Uncut [' '] ∧ start.after [' '] = start :=
          of_blanks proper_start (by simpa using hblank)
        rw [Closed, uncut_append, after_append, hafter]
        exact ⟨⟨huncut,hspace.1⟩,hspace.2⟩
      have hmember : unionMembersOf (m ++ [' ']) = [m] := by
        rw [unionMembersOf_of_uncut hbefore.1, Text.trimChars_concat_blank hblank,
          ← unionMembersOf_of_uncut huncut, hm]
      calc unionMembersOf ([' ','|',' '].intercalate (m :: n :: rest))
          = unionMembersOf (m ++ [' '] ++ '|' :: ' ' :: [' ','|',' '].intercalate (n :: rest)) := by
            simp [List.intercalate_cons_cons]
        _ = [m] ++ unionMembersOf ([' ','|',' '].intercalate (n :: rest)) := by
            rw [unionMembersOf_append_bar hbefore, hmember, unionMembersOf_cons_blank hblank]
        _ = m :: n :: rest := by
            rw [ih hrest hclosed, List.singleton_append]

theorem unionMembers_of_mem {m : String} (h : m ∈ unionMembers t) : unionMembers m = [m] := by
  obtain ⟨cs,hcs,rfl⟩ := List.mem_map.mp h
  simp [unionMembers, unionMembersOf_of_mem hcs]

/-- Splitting loses bars only. -/
theorem exists_mem_pieces {c : Char} (hc : c ≠ '|') (depth : Nat) (quote : Option Char)
    (piece cs : List Char) : (∃ p ∈ pieces depth quote piece cs, c ∈ p) ↔ c ∈ piece ∨ c ∈ cs := by
  induction cs generalizing depth quote piece with
  | nil => simp [pieces]
  | cons d rest ih =>
    rw [Standing.pieces_cons ⟨depth,quote⟩]
    split_ifs with hcut
    · simp [ih, hcut.2, hc]
    · simp only [ih, List.mem_cons]
      tauto

theorem exists_mem_unionMembers {c : Char} (hbar : c ≠ '|') (hblank : Text.isBlank c = false) :
    (∃ m ∈ unionMembers t, c ∈ m.toList) ↔ c ∈ t.toList := by
  have hpieces : (∃ p ∈ pieces 0 none [] t.toList, c ∈ p) ↔ c ∈ t.toList := by
    simpa using exists_mem_pieces hbar 0 none [] t.toList
  rw [← hpieces]
  constructor
  · rintro ⟨m,hm,hc⟩
    obtain ⟨cs,hcs,rfl⟩ := List.mem_map.mp hm
    obtain ⟨-,p,hp,rfl⟩ := mem_unionMembersOf.mp hcs
    exact ⟨p,hp,(Text.mem_trimChars hblank).mp (by simpa using hc)⟩
  · rintro ⟨p,hp,hc⟩
    have hc := (Text.mem_trimChars hblank).mpr hc
    have hmem := mem_unionMembersOf.mpr ⟨List.ne_nil_of_mem hc,p,hp,rfl⟩
    exact ⟨_,List.mem_map_of_mem hmem,by simpa using hc⟩

/-- Members are trimmed, not empty and split no further, and members that are written with
bars between them are split into the same members again, whatever they leave open. -/
theorem unionMembers_split_no_further (t : String) :
    (∀ m ∈ unionMembers t, Text.trim m = m ∧ m ≠ "" ∧ unionMembers m = [m]) ∧
    unionMembers (Text.joinWith " | " (unionMembers t)) = unionMembers t := by
  constructor
  · intro m hm
    obtain ⟨cs,hcs,rfl⟩ := List.mem_map.mp hm
    obtain ⟨hne,p,-,rfl⟩ := mem_unionMembersOf.mp hcs
    refine ⟨?_,?_,unionMembers_of_mem hm⟩
    · rw [Text.trim, String.toList_ofList, Text.trimChars_trimChars]
    · simpa using hne
  · have hclosed := (members_stand t.toList).2
    have hjoined : (Text.joinWith " | " (unionMembers t)).toList =
        [' ','|',' '].intercalate (unionMembersOf t.toList) := by
      simp [Text.joinWith, unionMembers, Function.comp_def]
    rw [unionMembers, hjoined, unionMembersOf_joined (fun m hm => unionMembersOf_of_mem hm) hclosed]
    rfl

/-- The last member may leave something open. -/
example : unionMembers "'a | b' |  (c | d" = ["'a | b'","(c | d"] := by decide

end ApiRelease.TypeText
