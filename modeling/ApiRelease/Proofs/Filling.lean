import ApiRelease.Proofs.Templates

/-! # Templates filled in piece by piece

A template is literal text with named holes in between. If neither the names nor what is
put into the holes opens a brace, the variables can be gone through one by one: each hole
gets the value of the first variable of its name, and the text around the holes stays.
-/
namespace ApiRelease

theorem Text.replaceFrom_skip {part put cs : List Char} (n : Nat) :
    replaceFrom part put n cs = replaceFrom part put 0 (cs.drop n) := by
  induction cs generalizing n with
  | nil => cases n <;> rfl
  | cons c rest ih =>
    cases n with
    | zero => rfl
    | succ n => exact ih n

theorem Text.replaceFrom_append {part put after : List Char} {x : Char} :
    replaceFrom (x :: part) put 0 (x :: part ++ after) =
    put ++ replaceFrom (x :: part) put 0 after := by
  have hhere : (x :: part).isPrefixOf (x :: (part ++ after)) = true := by
    rw [List.isPrefixOf_iff_prefix]
    exact ⟨after,rfl⟩
  have hrest : replaceFrom (x :: part) put part.length (part ++ after) =
      replaceFrom (x :: part) put 0 after := by
    rw [replaceFrom_skip, List.drop_left]
  simp [replaceFrom, hhere, hrest]

theorem Text.replaceFrom_append_of_not_mem {part put before after : List Char} {x : Char}
    (hx : x ∉ before) : replaceFrom (x :: part) put 0 (before ++ after) =
    before ++ replaceFrom (x :: part) put 0 after := by
  induction before with
  | nil => rfl
  | cons y before ih =>
    obtain ⟨hxy,hx⟩ := not_or.mp (fun h => hx (List.mem_cons.mpr h))
    simp [replaceFrom, List.isPrefixOf, hxy, ih hx]

def PatternVariable.Named (v : PatternVariable) : Prop :=
  v.name = .text v.name.toText ∧ '\x7b' ∉ v.name.toText.toList ∧ '\x7d' ∉ v.name.toText.toList
deriving Decidable

theorem PatternVariable.named_text {name : String} (hopen : '\x7b' ∉ name.toList)
    (hclose : '\x7d' ∉ name.toList) (value : String) (role : VariableRole) :
    (PatternVariable.mk (.text name) value role).Named := ⟨rfl,hopen,hclose⟩

theorem PatternVariable.Named.name_beq {v : PatternVariable} (hv : v.Named) (name : String) :
    (v.name == .text name) = decide (v.name.toText = name) := by
  have htext : (Scalar.text v.name.toText == .text name) = decide (v.name.toText = name) := by
    rw [Bool.eq_iff_iff]
    simp
  rw [← htext, ← hv.1]

namespace Pattern

inductive Piece where
  | text (cs : List Char)
  | hole (name : String)

namespace Piece

def chars : Piece → List Char
  | text cs => cs
  | hole name => (slot name).toList

def render (ps : List Piece) : List Char := ps.flatMap chars

def Clean : Piece → Prop
  | text cs => '\x7b' ∉ cs
  | hole name => '\x7b' ∉ name.toList ∧ '\x7d' ∉ name.toList

def filled (name put : String) : Piece → Piece
  | text cs => text cs
  | hole n => if n = name then text put.toList else hole n

def settled (bindings : List PatternVariable) : Piece → Piece
  | text cs => text cs
  | hole name =>
    match bindings.find? fun v => v.name == .text name with
    | some v => text v.value.toList
    | none => hole name

variable {ps qs : List Piece} {p : Piece} {bindings : List PatternVariable} {v : PatternVariable}
  {name put s template : String}

theorem render_cons : render (p :: ps) = p.chars ++ render ps := List.flatMap_cons ..

theorem render_append : render (ps ++ qs) = render ps ++ render qs := List.flatMap_append ..

/-! ## One variable -/

theorem eq_of_prefix_closed {name n rest : List Char} (hname : '\x7d' ∉ name) (hn : '\x7d' ∉ n)
    (h : name ++ ['\x7d'] <+: n ++ '\x7d' :: rest) : name = n := by
  induction name generalizing n with
  | nil =>
    cases n with
    | nil => rfl
    | cons d n =>
      rw [List.nil_append, List.cons_append, List.cons_prefix_cons] at h
      exact absurd (h.1 ▸ List.mem_cons_self) hn
  | cons c name ih =>
    have hname := not_or.mp (fun hm => hname (List.mem_cons.mpr hm))
    cases n with
    | nil =>
      rw [List.cons_append, List.nil_append, List.cons_prefix_cons] at h
      exact absurd h.1.symm hname.1
    | cons d n =>
      rw [List.cons_append, List.cons_append, List.cons_prefix_cons] at h
      obtain ⟨-,hn⟩ := not_or.mp (fun hm => hn (List.mem_cons.mpr hm))
      rw [h.1, ih hname.2 hn h.2]

/-- A name is put into its holes and nowhere else. -/
theorem replaceFrom_render (hopen : '\x7b' ∉ name.toList) (hclose : '\x7d' ∉ name.toList)
    (hps : ∀ p ∈ ps, p.Clean) :
    Text.replaceFrom (slot name).toList put.toList 0 (render ps) =
    render (ps.map (filled name put)) := by
  induction ps with
  | nil => rfl
  | cons p ps ih =>
    obtain ⟨hp,hps⟩ := List.forall_mem_cons.mp hps
    rw [List.map_cons, render_cons, render_cons, ← ih hps]
    cases p with
    | text cs =>
      rw [toList_slot]
      exact Text.replaceFrom_append_of_not_mem hp
    | hole n =>
      by_cases hn : n = name
      · subst hn
        have hfirst : Text.replaceFrom ('\x7b' :: (n.toList ++ ['\x7d'])) put.toList 0
            ('\x7b' :: (n.toList ++ ['\x7d']) ++ render ps) = put.toList ++
            Text.replaceFrom ('\x7b' :: (n.toList ++ ['\x7d'])) put.toList 0 (render ps) :=
          Text.replaceFrom_append
        simpa [filled, chars, toList_slot] using hfirst
      · have hbody : '\x7b' ∉ n.toList ++ ['\x7d'] := by simp [hp.1]
        have hnot : ('\x7b' :: (name.toList ++ ['\x7d'])).isPrefixOf
            ('\x7b' :: (n.toList ++ ['\x7d'] ++ render ps)) = false := by
          rw [Bool.eq_false_iff, ne_eq, List.isPrefixOf_iff_prefix, List.cons_prefix_cons]
          rintro ⟨-,hname⟩
          rw [List.append_assoc] at hname
          exact hn (String.toList_injective (eq_of_prefix_closed hclose hp.2 hname).symm)
        have hrest : Text.replaceFrom ('\x7b' :: (name.toList ++ ['\x7d'])) put.toList 0
            (n.toList ++ ['\x7d'] ++ render ps) = n.toList ++ ['\x7d'] ++
            Text.replaceFrom ('\x7b' :: (name.toList ++ ['\x7d'])) put.toList 0 (render ps) :=
          Text.replaceFrom_append_of_not_mem hbody
        simp only [filled, if_neg hn, chars, toList_slot, List.cons_append]
        rw [Text.replaceFrom]
        simp only [hnot, Bool.false_eq_true, if_false, hrest]

theorem toList_fill (hv : v.Named) (hps : ∀ p ∈ ps, p.Clean) (hs : s.toList = render ps) :
    (Text.replaceAll s (slot v.name.toText) v.value).toList =
    render (ps.map (filled v.name.toText v.value)) := by
  have hne : (slot v.name.toText).isEmpty = false := by
    rw [Bool.eq_false_iff, ne_eq, String.isEmpty_iff]
    intro h
    have hl := congrArg String.toList h
    simp [toList_slot] at hl
  simp only [Text.replaceAll, hne, Bool.false_eq_true, if_false, String.toList_ofList, hs]
  exact replaceFrom_render hv.2.1 hv.2.2 hps

theorem filled_of_ne (hp : p ≠ hole name) : filled name put p = p := by
  cases p with
  | text cs => rfl
  | hole n =>
    have hn : n ≠ name := fun h => hp (congrArg hole h)
    simp [filled, hn]

/-! ## All variables -/

theorem settled_cons (hv : v.Named) (p : Piece) :
    settled (v :: bindings) p = settled bindings (filled v.name.toText v.value p) := by
  cases p with
  | text cs => rfl
  | hole name =>
    by_cases hn : name = v.name.toText
    · simp [settled, filled, hv.name_beq, hn]
    · simp [settled, filled, hv.name_beq, hn, Ne.symm hn]

theorem settled_nil (p : Piece) : settled [] p = p := by cases p <;> rfl

def Safe (bindings : List PatternVariable) (p : Piece) : Prop := p.Clean ∧ (settled bindings p).Clean

theorem Safe.filled (hv : v.Named) (h : p.Safe (v :: bindings)) :
    (p.filled v.name.toText v.value).Safe bindings := by
  obtain ⟨hp,hsettled⟩ := h
  rw [settled_cons hv] at hsettled
  refine ⟨?_,hsettled⟩
  cases p with
  | text cs => exact hp
  | hole name =>
    by_cases hn : name = v.name.toText
    · simpa [Piece.filled, hn, settled] using hsettled
    · simpa [Piece.filled, hn] using hp

theorem toList_foldl_fill (hnames : ∀ v ∈ bindings, v.Named) (hps : ∀ p ∈ ps, p.Safe bindings)
    (hs : s.toList = render ps) :
    (bindings.foldl (fun s v => Text.replaceAll s (slot v.name.toText) v.value) s).toList =
    render (ps.map (settled bindings)) := by
  induction bindings generalizing s ps with
  | nil => rw [List.map_congr_left fun p _ => settled_nil p, List.map_id', List.foldl_nil, hs]
  | cons v bindings ih =>
    obtain ⟨hv,hnames⟩ := List.forall_mem_cons.mp hnames
    have hstep := toList_fill hv (fun p hp => (hps p hp).1) hs
    have hmap : ps.map (settled (v :: bindings)) =
        (ps.map (filled v.name.toText v.value)).map (settled bindings) := by
      rw [List.map_map]
      exact List.map_congr_left fun p _ => settled_cons hv p
    rw [List.foldl_cons, hmap]
    apply ih hnames ?_ hstep
    intro q hq
    obtain ⟨p,hp,rfl⟩ := List.mem_map.mp hq
    exact (hps p hp).filled hv

/-! ## The variable called `pattern` -/

theorem settled_of_forall_pattern (h : ∀ v ∈ bindings, v.name = .text "pattern")
    (hp : p ≠ hole "pattern") : settled bindings p = p := by
  cases p with
  | text cs => rfl
  | hole name =>
    have hnone : (bindings.find? fun v => v.name == .text name) = none := by
      rw [List.find?_eq_none]
      intro v hv hname
      rw [h v hv] at hname
      obtain rfl : "pattern" = name := by simpa using hname
      exact hp rfl
    simp [settled, hnone]

theorem settled_filter_pattern (hp : p ≠ hole "pattern") :
    settled (bindings.filter fun v => v.name != .text "pattern") p = settled bindings p := by
  cases p with
  | text cs => rfl
  | hole name =>
    have hname : name ≠ "pattern" := fun h => hp (congrArg hole h)
    have hfind : ((bindings.filter fun v => v.name != .text "pattern").find? fun v =>
        v.name == .text name) = bindings.find? fun v => v.name == .text name := by
      rw [List.find?_filter]
      congr 1
      funext v
      by_cases hv : v.name = .text name
      · simp [hv, hname]
      · simp [hv]
    simp only [settled, hfind]

theorem toList_foldl_pattern (hnames : ∀ v ∈ bindings, v.Named)
    (h : ∀ v ∈ bindings, v.name = .text "pattern") (hps : ∀ p ∈ ps, p.Clean)
    (hpattern : hole "pattern" ∉ ps) (hs : s.toList = render ps) :
    (bindings.foldl (fun s v => Text.replaceAll s (slot v.name.toText) v.value) s).toList =
    render ps := by
  have hsettled : ∀ p ∈ ps, settled bindings p = p := fun p hp =>
    settled_of_forall_pattern h (ne_of_mem_of_not_mem hp hpattern)
  have hsafe : ∀ p ∈ ps, p.Safe bindings := by
    intro p hp
    rw [Safe, hsettled p hp]
    exact ⟨hps p hp,hps p hp⟩
  rw [toList_foldl_fill hnames hsafe hs, List.map_congr_left hsettled, List.map_id']

/-- The variables of other names are filled in last. -/
theorem toList_foldl_rest (hnames : ∀ v ∈ bindings, v.Named) (hps : ∀ p ∈ ps, p.Safe bindings)
    (hpattern : hole "pattern" ∉ ps) (hs : s.toList = render ps) :
    ((bindings.filter fun v => v.name != .text "pattern").foldl
      (fun s v => Text.replaceAll s (slot v.name.toText) v.value) s).toList =
    render (ps.map (settled bindings)) := by
  have hsettled : ∀ p ∈ ps,
      settled (bindings.filter fun v => v.name != .text "pattern") p = settled bindings p :=
    fun p hp => settled_filter_pattern (ne_of_mem_of_not_mem hp hpattern)
  have hsafe : ∀ p ∈ ps, p.Safe (bindings.filter fun v => v.name != .text "pattern") := by
    intro p hp
    rw [Safe, hsettled p hp]
    exact hps p hp
  rw [toList_foldl_fill (fun v hv => hnames v (List.mem_of_mem_filter hv)) hsafe hs,
    List.map_congr_left hsettled]

theorem mem_filter_pattern (h : v ∈ bindings.filter fun v => v.name == .text "pattern") :
    v ∈ bindings ∧ v.name = .text "pattern" :=
  (List.mem_filter.mp h).imp_right eq_of_beq

theorem toList_expand (hnames : ∀ v ∈ bindings, v.Named) (hps : ∀ p ∈ ps, p.Safe bindings)
    (hpattern : hole "pattern" ∉ ps) (ht : template.toList = render ps) :
    (expand template bindings).toList = render (ps.map (settled bindings)) := by
  have hfirst := toList_foldl_pattern (fun v hv => hnames v (mem_filter_pattern hv).1)
    (fun v hv => (mem_filter_pattern hv).2) (fun p hp => (hps p hp).1) hpattern ht
  exact toList_foldl_rest hnames hps hpattern hfirst

theorem safe_of_holes (hps : ∀ p ∈ ps, p.Clean)
    (hholes : ∀ name, hole name ∈ ps → (settled bindings (hole name)).Clean) :
    ∀ p ∈ ps, p.Safe bindings := by
  intro p hp
  refine ⟨hps p hp,?_⟩
  cases p with
  | text cs => exact hps _ hp
  | hole name => exact hholes name hp

/-- Nothing that was put in opens a brace if none is open in the end. -/
theorem safe_of_render (hps : ∀ p ∈ ps, p.Clean) (hbrace : '\x7b' ∉ render (ps.map (settled bindings))) :
    ∀ p ∈ ps, p.Safe bindings := by
  intro p hp
  refine ⟨hps p hp,?_⟩
  have hnot : '\x7b' ∉ (settled bindings p).chars := fun h =>
    hbrace (List.mem_flatMap.mpr ⟨_,List.mem_map_of_mem hp,h⟩)
  cases hs : settled bindings p with
  | text cs => simpa [Clean, chars, hs] using hnot
  | hole name => simp [chars, hs, toList_slot] at hnot

/-- The value of the variable called `pattern` is filled in as a template. -/
theorem toList_expand_pattern (hnames : ∀ v ∈ bindings, v.Named)
    (hps : ∀ p ∈ qs ++ ps, p.Safe bindings) (hpattern : hole "pattern" ∉ qs ++ ps)
    (hv : (bindings.find? fun v => v.name == .text "pattern") = some v)
    (hvalue : v.value.toList = render qs)
    (ht : template.toList = (slot "pattern").toList ++ render ps) :
    (expand template bindings).toList = render ((qs ++ ps).map (settled bindings)) := by
  rw [← List.head?_filter] at hv
  obtain ⟨vs,hvs⟩ := List.head?_eq_some_iff.mp hv
  have hall : ∀ w ∈ v :: vs, w ∈ bindings ∧ w.name = .text "pattern" := by
    intro w hw
    rw [← hvs] at hw
    exact mem_filter_pattern hw
  obtain ⟨⟨hmem,hname⟩,hall⟩ := List.forall_mem_cons.mp hall
  have htext : v.name.toText = "pattern" := by
    rw [hname]
    rfl
  have hput : (Text.replaceAll template (slot v.name.toText) v.value).toList = render (qs ++ ps) := by
    have hslot : (hole "pattern").Clean := by unfold Clean; decide
    have hclean : ∀ p ∈ hole "pattern" :: ps, p.Clean :=
      List.forall_mem_cons.mpr ⟨hslot,fun p hp => (hps p (List.mem_append_right qs hp)).1⟩
    have hkept : ps.map (filled "pattern" v.value) = ps := by
      have hself : ∀ p ∈ ps, filled "pattern" v.value p = p := fun p hp =>
        filled_of_ne (ne_of_mem_of_not_mem (List.mem_append_right qs hp) hpattern)
      rw [List.map_congr_left hself, List.map_id']
    rw [toList_fill (hnames v hmem) hclean ht, htext, List.map_cons, hkept, render_append, ← hvalue]
    simp [filled, render, chars]
  have hfirst := toList_foldl_pattern (fun w hw => hnames w (hall w hw).1)
    (fun w hw => (hall w hw).2) (fun p hp => (hps p hp).1) hpattern hput
  rw [← List.foldl_cons, ← hvs] at hfirst
  exact toList_foldl_rest hnames hps hpattern hfirst

end Piece

end Pattern

end ApiRelease
