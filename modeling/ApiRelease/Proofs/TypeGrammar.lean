import ApiRelease.Proofs.UnionMembers

/-! # Members by the grammar of types

A type text is made of plain characters, strings, arrows, bars and groups in brackets. What
counts as open behind one of these does not hang on what stands in it, arrows apart: the
tip of an arrow is read as a closing bracket, so that each arrow closes one of the brackets
around it, if one is left. A bar of a group separates members where all the brackets around
it are closed in this way. The bars of the text itself always do.
-/
namespace ApiRelease.TypeText

namespace Standing

variable {s : Standing} {cs ds piece : List Char} {depth : Nat} {q c : Char}

def cuts : Standing → List Char → List (Char × Bool)
  | _, [] => []
  | s, c :: rest => (c,decide (s = start ∧ c = '|')) :: (s.step c).cuts rest

theorem cuts_append : s.cuts (cs ++ ds) = s.cuts cs ++ (s.after cs).cuts ds := by
  induction cs generalizing s with
  | nil => rfl
  | cons c rest ih => simp [cuts, after, ih]

theorem pieces_eq_cuts (s : Standing) (cs : List Char) :
    pieces s.depth s.quote [] cs = ((s.cuts cs).splitOnP (·.2)).map (·.map (·.1)) := by
  induction cs generalizing s with
  | nil => simp [pieces, cuts]
  | cons c rest ih =>
    rw [pieces_cons, cuts, List.splitOnP_cons_eq_if_modifyHead]
    by_cases hcut : s = start ∧ c = '|'
    · have hbar : s.step c = start := by
        rw [hcut.1, hcut.2]
        rfl
      rw [if_pos hcut, hbar, ih]
      simp [hcut]
    · rw [if_neg hcut, pieces_piece _ _ [c], ih]
      cases ((s.step c).cuts rest).splitOnP (·.2) <;> simp [hcut]

theorem uncut_iff_cuts : s.Uncut cs ↔ ∀ x ∈ s.cuts cs, x.2 = false := by
  induction cs generalizing s with
  | nil => simp [Uncut, cuts]
  | cons c rest ih =>
    rw [Uncut, cuts, List.forall_mem_cons, ih, decide_eq_false_iff_not]

theorem cuts_cons_of_ne_bar (hc : c ≠ '|') : s.cuts (c :: ds) = (c,false) :: (s.step c).cuts ds := by
  simp [cuts, hc]

/-- Nothing closes a string but its quote, and no bar in it separates anything. -/
theorem quoted (hq : q ∉ cs) : (mk depth (some q)).after cs = mk depth (some q) ∧
    (mk depth (some q)).cuts cs = cs.map fun c => (c,false) := by
  induction cs with
  | nil => exact ⟨rfl,rfl⟩
  | cons c rest ih =>
    obtain ⟨hc,hrest⟩ := not_or.mp fun h => hq (List.mem_cons.mpr h)
    obtain ⟨hafter,hcuts⟩ := ih hrest
    have hstep : (mk depth (some q)).step c = mk depth (some q) := by simp [step, Ne.symm hc]
    constructor
    · change ((mk depth (some q)).step c).after rest = _
      rw [hstep, hafter]
    · rw [cuts, hstep, hcuts]
      simp [start]

end Standing

inductive Bracket where
  | round
  | square
  | curly
  | angle
  deriving DecidableEq

namespace Bracket

def opening : Bracket → Char
  | round => '('
  | square => '['
  | curly => '\x7b'
  | angle => '<'

def closing : Bracket → Char
  | round => ')'
  | square => ']'
  | curly => '\x7d'
  | angle => '>'

end Bracket

def isPlain (c : Char) : Bool :=
  !(isQuote c || isOpening c || isClosing c || c == '|' || c == '=')

/-- What type texts are made of. The quote of a string does not stand in it. -/
inductive Item where
  | plain (c : Char) (hc : isPlain c = true)
  | literal (quote : Char) (inside : List Char) (hquote : isQuote quote = true)
      (hinside : quote ∉ inside)
  | arrow
  | group (bracket : Bracket) (inside : List Item)
  | bar

namespace Item

def isBar : Item → Bool
  | bar => true
  | _ => false

mutual

def written : Item → List Char
  | plain c _ => [c]
  | literal quote inside _ _ => quote :: (inside ++ [quote])
  | arrow => ['=','>']
  | group bracket inside => bracket.opening :: (writtenAll inside ++ [bracket.closing])
  | bar => ['|']

def writtenAll : List Item → List Char
  | [] => []
  | i :: rest => i.written ++ writtenAll rest

end

mutual

def arrows : Item → Nat
  | arrow => 1
  | group _ inside => arrowsAll inside
  | _ => 0

def arrowsAll : List Item → Nat
  | [] => 0
  | i :: rest => i.arrows + arrowsAll rest

end

mutual

/-- The characters of an item that stands within `depth` brackets, each with whether it is a
bar that is laid bare: every arrow closes one more of the brackets around it. -/
def marked (depth : Nat) : Item → List (Char × Bool)
  | plain c _ => [(c,false)]
  | literal quote inside _ _ => (quote :: (inside ++ [quote])).map fun c => (c,false)
  | arrow => [('=',false),('>',false)]
  | group bracket inside =>
    (bracket.opening,false) :: (markedAll (depth + 1) inside ++ [(bracket.closing,false)])
  | bar => [('|',decide (depth = 0))]

def markedAll (depth : Nat) : List Item → List (Char × Bool)
  | [] => []
  | i :: rest => i.marked depth ++ markedAll (depth - i.arrows) rest

end

def render (t : List Item) : String := String.ofList (writtenAll t)

def trimmed (parts : List (List Char)) : List String :=
  ((parts.map Text.trimChars).filter fun m => !m.isEmpty).map String.ofList

/-- What stands between the bars that are in no group and in no string. -/
def members (t : List Item) : List String := trimmed ((t.splitOnP isBar).map writtenAll)

/-- What stands between the bars that are laid bare. -/
def readMembers (t : List Item) : List String :=
  trimmed (((markedAll 0 t).splitOnP (·.2)).map (·.map (·.1)))

def Sheltered (t : List Item) : Prop := ∀ i ∈ t, i.isBar = false → ∀ x ∈ i.marked 0, x.2 = false

variable {i : Item} {t : List Item} {depth : Nat}

open Standing

theorem eq_bar (h : i.isBar = true) : i = bar := by
  cases i <;> first | rfl | simp [isBar] at h

theorem step_plain {c : Char} (hc : isPlain c = true) (depth : Nat) :
    (mk depth none).step c = mk depth none := by
  simp only [isPlain, Bool.not_eq_true', Bool.or_eq_false_iff] at hc
  simp [step, hc]

theorem step_quote {q : Char} (hq : isQuote q = true) (depth : Nat) :
    (mk depth none).step q = mk depth (some q) ∧ (mk depth (some q)).step q = mk depth none := by
  simp [step, hq]

theorem step_opening (b : Bracket) (depth : Nat) :
    (mk depth none).step b.opening = mk (depth + 1) none := by
  cases b <;> rfl

theorem step_closing (b : Bracket) (depth : Nat) :
    (mk depth none).step b.closing = mk (depth - 1) none := by
  cases b <;> rfl

mutual

/-- Behind an item no string is open, and the arrows in it have closed one bracket each. -/
theorem after_written (i : Item) (depth : Nat) :
    (mk depth none).after i.written = mk (depth - i.arrows) none := by
  cases i with
  | plain c hc => exact step_plain hc depth
  | literal quote inside hquote hinside =>
    obtain ⟨hopen,hclose⟩ := step_quote hquote depth
    change ((mk depth none).step quote).after (inside ++ [quote]) = mk depth none
    rw [hopen, after_append, (quoted hinside).1]
    exact hclose
  | arrow => rfl
  | group bracket inside =>
    have hinside := after_writtenAll inside (depth + 1)
    have hdepth : depth + 1 - arrowsAll inside - 1 = depth - arrowsAll inside := by omega
    change ((mk depth none).step bracket.opening).after (writtenAll inside ++ [bracket.closing]) = _
    rw [step_opening, after_append, hinside]
    change (mk _ none).step bracket.closing = _
    rw [step_closing, hdepth, arrows]
  | bar => rfl

theorem after_writtenAll (t : List Item) (depth : Nat) :
    (mk depth none).after (writtenAll t) = mk (depth - arrowsAll t) none := by
  cases t with
  | nil => rfl
  | cons i rest =>
    rw [writtenAll, after_append, after_written i, after_writtenAll rest, arrowsAll, Nat.sub_sub]

end

mutual

theorem cuts_written (i : Item) (depth : Nat) :
    (mk depth none).cuts i.written = i.marked depth := by
  cases i with
  | plain c hc =>
    have hbar : c ≠ '|' := by
      rintro rfl
      exact absurd hc (by decide)
    rw [written, cuts_cons_of_ne_bar hbar, cuts, marked]
  | literal quote inside hquote hinside =>
    have hbar : quote ≠ '|' := by
      rintro rfl
      exact absurd hquote (by decide)
    obtain ⟨hafter,hcuts⟩ : (mk depth (some quote)).after inside = _ ∧ _ := quoted hinside
    rw [written, cuts_cons_of_ne_bar hbar, (step_quote hquote depth).1, cuts_append, hcuts, hafter,
      cuts_cons_of_ne_bar hbar, cuts, marked]
    simp
  | arrow => simp [written, marked, cuts]
  | group bracket inside =>
    have hinside := cuts_writtenAll inside (depth + 1)
    have hbars : bracket.opening ≠ '|' ∧ bracket.closing ≠ '|' := by cases bracket <;> decide
    rw [written, cuts_cons_of_ne_bar hbars.1, step_opening, cuts_append, hinside,
      cuts_cons_of_ne_bar hbars.2, cuts, marked]
  | bar => simp [written, marked, cuts, start]

theorem cuts_writtenAll (t : List Item) (depth : Nat) :
    (mk depth none).cuts (writtenAll t) = markedAll depth t := by
  cases t with
  | nil => rfl
  | cons i rest =>
    rw [writtenAll, cuts_append, cuts_written i, after_written i, cuts_writtenAll rest, markedAll]

end

theorem uncut_written : start.Uncut i.written ↔ ∀ x ∈ i.marked 0, x.2 = false := by
  rw [uncut_iff_cuts, start, cuts_written]

theorem after_start (i : Item) : start.after i.written = start := by
  rw [start, after_written, Nat.zero_sub]

theorem uncut_writtenAll (t : List Item) :
    start.Uncut (writtenAll t) ↔ ∀ i ∈ t, start.Uncut i.written := by
  induction t with
  | nil => simp [writtenAll, Uncut]
  | cons i rest ih => rw [writtenAll, uncut_append, after_start, ih, List.forall_mem_cons]

/-- Where no bar in an item is laid bare, the pieces are what stands between the bars of the
text itself. -/
theorem pieces_writtenAll (h : Sheltered t) :
    pieces 0 none [] (writtenAll t) = (t.splitOnP isBar).map writtenAll := by
  induction t with
  | nil => simp [writtenAll, pieces]
  | cons i rest ih =>
    obtain ⟨hi,hrest⟩ := List.forall_mem_cons.mp h
    have hpieces := ih hrest
    rw [List.splitOnP_cons_eq_if_modifyHead]
    cases hbar : i.isBar with
    | true =>
      obtain rfl := eq_bar hbar
      change pieces start.depth start.quote [] ('|' :: writtenAll rest) = _
      rw [pieces_cons, if_pos ⟨rfl,rfl⟩]
      simp [start, hpieces, writtenAll]
    | false =>
      have huncut : start.Uncut i.written := uncut_written.mpr (hi hbar)
      have happend : pieces start.depth start.quote [] (i.written ++ writtenAll rest) = _ :=
        pieces_append huncut
      rw [after_start, pieces_piece start.depth start.quote (i.written.reverse ++ [])] at happend
      change pieces start.depth start.quote [] (i.written ++ writtenAll rest) = _
      rw [happend]
      change List.modifyHead _ (pieces 0 none [] (writtenAll rest)) = _
      rw [hpieces]
      cases rest.splitOnP isBar <;> simp [writtenAll]

/-- What is no bar stands between bars. -/
theorem exists_mem_splitOnP (hi : i ∈ t) (hbar : i.isBar = false) :
    ∃ p ∈ t.splitOnP isBar, i ∈ p := by
  induction t with
  | nil => simp at hi
  | cons j rest ih =>
    rw [List.splitOnP_cons_eq_if_modifyHead]
    rcases List.mem_cons.mp hi with rfl | hi
    · obtain ⟨p,ps,hparts⟩ := List.exists_cons_of_ne_nil (List.splitOnP_ne_nil isBar rest)
      simp [hbar, hparts]
    · obtain ⟨p,hp,hip⟩ := ih hi
      split_ifs
      · exact ⟨p,List.mem_cons_of_mem _ hp,hip⟩
      · cases hparts : rest.splitOnP isBar with
        | nil => simp [hparts] at hp
        | cons first others =>
          rw [hparts] at hp
          rcases List.mem_cons.mp hp with rfl | hp
          · exact ⟨j :: p,List.mem_cons_self,List.mem_cons_of_mem _ hip⟩
          · exact ⟨p,List.mem_cons_of_mem _ hp,hip⟩

mutual

/-- No bar in an item is laid bare if there are fewer arrows in it than brackets around it. -/
theorem marked_of_arrows (i : Item) {depth : Nat} (h : i.arrows < depth) :
    ∀ x ∈ i.marked depth, x.2 = false := by
  cases i with
  | plain c hc => simp [marked]
  | literal quote inside hquote hinside => simp [marked]
  | arrow => simp [marked]
  | group bracket inside =>
    have hinside := markedAll_of_arrows inside (Nat.lt_succ_of_lt h)
    simpa [marked, or_imp, forall_and] using hinside
  | bar => simp [marked, Nat.ne_of_gt (Nat.zero_lt_of_lt h)]

theorem markedAll_of_arrows (t : List Item) {depth : Nat} (h : arrowsAll t < depth) :
    ∀ x ∈ markedAll depth t, x.2 = false := by
  cases t with
  | nil => simp [markedAll]
  | cons i rest =>
    rw [arrowsAll] at h
    have hi : i.arrows < depth := by omega
    have hrest : arrowsAll rest < depth - i.arrows := by omega
    rw [markedAll, List.forall_mem_append]
    exact ⟨marked_of_arrows i hi,markedAll_of_arrows rest hrest⟩

end

theorem sheltered_of_arrows (h : ∀ bracket inside, group bracket inside ∈ t → arrowsAll inside = 0) :
    Sheltered t := by
  intro i hi hbar
  cases i with
  | group bracket inside =>
    have hinside : arrowsAll inside < 1 := by
      rw [h bracket inside hi]
      exact Nat.zero_lt_one
    simpa [marked, or_imp, forall_and] using markedAll_of_arrows inside hinside
  | bar => simp [isBar] at hbar
  | plain c hc => simp [marked]
  | literal quote inside hquote hinside => simp [marked]
  | arrow => simp [marked]

/-- If all parts come out as members, or as nothing where they are blank, no bar in a part
separates anything. -/
theorem uncut_of_members (h : unionMembers (render t) = members t) {p : List Item}
    (hp : p ∈ t.splitOnP isBar) : start.Uncut (writtenAll p) := by
  rw [← uncut_trimChars_iff]
  by_cases hblank : Text.trimChars (writtenAll p) = []
  · rw [hblank]
    trivial
  · have hmem : String.ofList (Text.trimChars (writtenAll p)) ∈ unionMembers (render t) := by
      rw [h]
      refine List.mem_map_of_mem (List.mem_filter.mpr ⟨?_,by simpa using hblank⟩)
      exact List.mem_map_of_mem (List.mem_map_of_mem hp)
    obtain ⟨m,hm,hsame⟩ := List.mem_map.mp hmem
    obtain rfl := String.ofList_injective hsame
    exact (members_stand _).1 _ hm

/-- The members are what stands between the bars that are laid bare. They are what stands
between the bars that are in no group and in no string if and only if no other bar is laid
bare, and so wherever no group holds an arrow. -/
theorem unionMembers_render (t : List Item) : unionMembers (render t) = readMembers t ∧
    (unionMembers (render t) = members t ↔ Sheltered t) ∧
    ((∀ bracket inside, group bracket inside ∈ t → arrowsAll inside = 0) →
      unionMembers (render t) = members t) := by
  have htext : (render t).toList = writtenAll t := String.toList_ofList
  have hsheltered : Sheltered t → unionMembers (render t) = members t := by
    intro h
    rw [unionMembers, htext, unionMembersOf, pieces_writtenAll h]
    rfl
  refine ⟨?_,⟨?_,hsheltered⟩,fun h => hsheltered (sheltered_of_arrows h)⟩
  · have hpieces := pieces_eq_cuts start (writtenAll t)
    rw [start, cuts_writtenAll] at hpieces
    rw [unionMembers, htext, unionMembersOf, hpieces]
    rfl
  · intro h i hi hbar
    obtain ⟨p,hp,hip⟩ := exists_mem_splitOnP hi hbar
    exact uncut_written.mp ((uncut_writtenAll p).mp (uncut_of_members h hp) i hip)

/-- The bar of a function type in angle brackets is laid bare. -/
theorem unionMembers_of_arrow_in_group : ∃ t : List Item, render t = "F<() => A | B>" ∧
    members t = ["F<() => A | B>"] ∧ unionMembers (render t) = ["F<() => A","B>"] := by
  let space : Item := plain ' ' (by decide)
  let t : List Item := [plain 'F' (by decide),
    group .angle [group .round [],space,arrow,space,plain 'A' (by decide),space,bar,space,
      plain 'B' (by decide)]]
  exact ⟨t,by decide,by decide,by decide⟩

end Item

end ApiRelease.TypeText
