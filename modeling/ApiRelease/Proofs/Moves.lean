import ApiRelease.Proofs.LoadedPolicies
import Mathlib.Data.Nat.Dist

/-! # Moving a rule ends

A rule is moved again and again, until it is at a level or a move fails. Nothing bounds how
often that is. But whichever translation a move uses, it brings the rule one level nearer and
keeps its release type. So there is an end: the rule is at the level, or it is kept as it was
before the first move.
-/
namespace ApiRelease

theorem RuleLevel.rank_injective : Function.Injective rank := by
  intro a b
  cases a <;> cases b <;> decide

namespace Rule

variable {r s : Rule} {target : RuleLevel} {m : Move}

/-! ## One move -/

theorem Gives.returns (h : r.Gives s) : s.returns = r.returns := by
  cases h with
  | read h => exact Intent.returns_of_read h
  | @compiled p d h =>
    have hd : Policy.dimensionsOf.compilePattern p = .ok d := by
      simp only [Policy.dimensionsOf.compilePattern, h]
    exact Policy.returns_of_compilePattern hd
  | @decompiled d x p h hp =>
    rcases Catalogue.offered_of_decompile? h p hp with rfl | ⟨e,-,rfl⟩
    · obtain ⟨description,hpattern,-⟩ := Catalogue.fallback_patternFor d
      rw [hpattern]
      rfl
    · rfl
  | phrased h hi =>
    obtain ⟨words,-,rfl⟩ := Phrasing.words_of_intent? h hi
    rfl

theorem gives_of_lowered (h : r.lowered.result = .ok s) :
    r.Gives s ∧ s.level.rank = r.level.rank + 1 := by
  cases r with
  | intent i =>
    simp only [lowered] at h
    split at h
    · next p hp =>
      cases h
      exact ⟨.read hp,rfl⟩
    · cases h
  | pattern p =>
    simp only [lowered] at h
    split at h
    · next d hd =>
      cases h
      exact ⟨.compiled hd,rfl⟩
    · cases h
  | dimensional d => cases h

theorem gives_of_raised (h : r.raised.result = .ok s) :
    r.Gives s ∧ r.level.rank = s.level.rank + 1 := by
  cases r with
  | intent i => cases h
  | pattern p =>
    simp only [raised] at h
    split at h
    · next x hx =>
      cases h
      exact ⟨.phrased hx List.mem_cons_self,rfl⟩
    · cases h
  | dimensional d =>
    simp only [raised] at h
    split at h
    · next x hx =>
      cases h
      exact ⟨.decompiled hx List.mem_cons_self,rfl⟩
    · cases h

def towards (target : RuleLevel) (r : Rule) : Move :=
  if r.level.rank < target.rank then r.lowered else r.raised

/-- A move that succeeds is a translation, and there is one level less to go. -/
theorem gives_of_towards (hne : r.level ≠ target) (h : (r.towards target).result = .ok s) :
    r.Gives s ∧ Nat.dist r.level.rank target.rank = Nat.dist s.level.rank target.rank + 1 := by
  have hrank : r.level.rank ≠ target.rank := RuleLevel.rank_injective.ne hne
  unfold towards at h
  unfold Nat.dist
  split at h
  · obtain ⟨hgives,hnext⟩ := gives_of_lowered h
    exact ⟨hgives,by omega⟩
  · obtain ⟨hgives,hnext⟩ := gives_of_raised h
    exact ⟨hgives,by omega⟩

/-! ## The whole way -/

/-- What comes of moving a rule for as long as it is not at the level and no move has failed:
the rule that gets there or the failure, with what the moves leave in the log. -/
inductive Loop (target : RuleLevel) : Rule → Move → Prop
  | arrived {r : Rule} (h : r.level = target) : Loop target r (pure r)
  | failed {r : Rule} (hne : r.level ≠ target) (hmove : (r.towards target).result = .error ()) :
      Loop target r (r.towards target)
  | moved {r s : Rule} {m : Move} (hne : r.level ≠ target)
      (hmove : (r.towards target).result = .ok s) (hrest : Loop target s m) :
      Loop target r (r.towards target >>= fun _ => m)

theorem Loop.of_result (h : Loop target r m) (hm : m.result = .ok s) :
    s.level = target ∧ s.returns = r.returns := by
  induction h with
  | arrived h =>
    cases hm
    exact ⟨h,rfl⟩
  | failed _ hmove =>
    rw [hmove] at hm
    cases hm
  | moved hne hmove _ ih =>
    obtain ⟨_,-,hrest⟩ := Traced.result_bind_eq_ok.mp hm
    obtain ⟨hlevel,hreturns⟩ := ih hrest
    exact ⟨hlevel,hreturns.trans (gives_of_towards hne hmove).1.returns⟩

theorem moveTo_of_le (h : r.level.rank ≤ target.rank) :
    r.moveTo target = repeatMove lowered (target.rank - r.level.rank) r := by
  rw [moveTo, if_pos h]

theorem moveTo_of_ge (h : target.rank ≤ r.level.rank) :
    r.moveTo target = repeatMove raised (r.level.rank - target.rank) r := by
  rcases h.eq_or_lt with heq | hlt
  · rw [moveTo_of_le heq.ge, heq, Nat.sub_self, repeatMove, repeatMove]
  · rw [moveTo, if_neg hlt.not_ge]

theorem moveTo_of_level (h : r.level = target) : r.moveTo target = pure r := by
  rw [moveTo_of_le (congrArg RuleLevel.rank h).le, h, Nat.sub_self, repeatMove]

/-- The moves are counted before the first one, and after each of them the count of the rest
is right for the rule that there is by then. -/
theorem moveTo_of_ne (hne : r.level ≠ target) :
    r.moveTo target = r.towards target >>= moveTo target := by
  rcases lt_or_gt_of_ne (RuleLevel.rank_injective.ne hne) with hbelow | habove
  · obtain ⟨n,hn⟩ := Nat.exists_eq_add_of_lt hbelow
    have hcount : target.rank - r.level.rank = n + 1 := by omega
    rw [moveTo_of_le hbelow.le, hcount, repeatMove, towards, if_pos hbelow]
    refine Traced.bind_congr_result fun s hs => ?_
    have hnext := (gives_of_lowered hs).2
    have hrest : target.rank - s.level.rank = n := by omega
    rw [moveTo_of_le (by omega), hrest]
  · obtain ⟨n,hn⟩ := Nat.exists_eq_add_of_lt habove
    have hcount : r.level.rank - target.rank = n + 1 := by omega
    rw [moveTo_of_ge habove.le, hcount, repeatMove, towards, if_neg habove.not_gt]
    refine Traced.bind_congr_result fun s hs => ?_
    have hnext := (gives_of_raised hs).2
    have hrest : s.level.rank - target.rank = n := by omega
    rw [moveTo_of_ge (by omega), hrest]

theorem Loop.eq_moveTo (h : Loop target r m) : m = r.moveTo target := by
  induction h with
  | arrived h => rw [moveTo_of_level h]
  | failed hne hmove => rw [moveTo_of_ne hne, Traced.bind_of_error hmove]
  | moved hne hmove _ ih =>
    rw [moveTo_of_ne hne, ih]
    exact (Traced.bind_of_ok hmove _).symm

/-- The induction is on the levels that there are to go. -/
theorem loop_moveTo (target : RuleLevel) (r : Rule) : Loop target r (r.moveTo target) := by
  induction hn : Nat.dist r.level.rank target.rank generalizing r with
  | zero =>
    have hlevel := RuleLevel.rank_injective (Nat.eq_of_dist_eq_zero hn)
    rw [moveTo_of_level hlevel]
    exact .arrived hlevel
  | succ n ih =>
    have hne : r.level ≠ target := by
      intro hlevel
      rw [hlevel, Nat.dist_self] at hn
      cases hn
    rw [moveTo_of_ne hne]
    cases hmove : (r.towards target).result with
    | error _ =>
      rw [Traced.bind_of_error hmove]
      exact .failed hne hmove
    | ok s =>
      have hleft := (gives_of_towards hne hmove).2
      rw [Traced.bind_of_ok hmove]
      exact .moved hne hmove (ih s (by omega))

theorem loop_iff : Loop target r m ↔ m = r.moveTo target := by
  refine ⟨Loop.eq_moveTo,?_⟩
  rintro rfl
  exact loop_moveTo target r

theorem atLevel_of_level (h : r.level = target) : r.atLevel target = r := by
  rw [atLevel, moveTo_of_level h, Traced.result_pure]

/-- A rule gets to the level with its release type, or it is as it was. -/
theorem atLevel_cases (target : RuleLevel) (r : Rule) :
    ((r.moveTo target).result = .ok (r.atLevel target) ∧ (r.atLevel target).level = target ∧
      (r.atLevel target).returns = r.returns) ∨
    ((r.moveTo target).result = .error () ∧ r.atLevel target = r) := by
  unfold atLevel
  cases hm : (r.moveTo target).result with
  | error _ => exact Or.inr ⟨rfl,rfl⟩
  | ok s => exact Or.inl ⟨rfl,(loop_moveTo target r).of_result hm⟩

end Rule

namespace Draft

/-- For every rule and level there is one end to which moving it comes. There it is at the level
and has the release type that it had, or it is given up and stays as it was. So the rules of a
draft are kept one by one, and those at the level as they are. -/
theorem moved_or_untouched (level : RuleLevel) :
    (∀ r : Rule,
      (∀ m, Rule.Loop level r m ↔ m = r.moveTo level) ∧
      (((r.moveTo level).result = .ok (r.atLevel level) ∧ (r.atLevel level).level = level ∧
          (r.atLevel level).returns = r.returns) ∨
        ((r.moveTo level).result = .error () ∧ r.atLevel level = r))) ∧
    ∀ rules : List Rule, ∃ moved : List Rule,
      (transform level.name (rules.map .rule)).result = .ok (moved.map .rule) ∧
      List.Forall₂ (fun r s => s = r.atLevel level ∧ (r.level = level → s = r)) rules moved := by
  refine ⟨fun r => ⟨fun m => Rule.loop_iff,Rule.atLevel_cases level r⟩,?_⟩
  intro rules
  refine ⟨rules.map (·.atLevel level),?_,?_⟩
  · rw [transform_rules, List.map_map]
    rfl
  · rw [List.forall₂_map_right_iff, List.forall₂_same]
    intro r _
    exact ⟨rfl,Rule.atLevel_of_level⟩

def allFine : IntentRule where
  expression := "everything is fine"
  returns := some "none"
  description := .null

/-- One rule is given up, one gets to the level and one is there. -/
theorem moved_or_untouched_of_mixed :
    (Rule.dimensional Rule.insideDimensions).level = .dimensional ∧
    (transform "dimensional" [.rule (.intent allFine), .rule (.pattern Rule.inside),
        .rule (.dimensional Rule.insideDimensions)]).result =
      .ok [.rule (.intent allFine), .rule (.dimensional Rule.insideDimensions),
        .rule (.dimensional Rule.insideDimensions)] := by
  have hlevel : (Rule.dimensional Rule.insideDimensions).level = .dimensional := rfl
  obtain ⟨moved,hresult,hmoved⟩ := (moved_or_untouched .dimensional).2
    [.intent allFine,.pattern Rule.inside,.dimensional Rule.insideDimensions]
  obtain ⟨fine,others,⟨hfine,-⟩,hothers,rfl⟩ := List.forall₂_cons_left_iff.mp hmoved
  obtain ⟨lowered,last,⟨hlowered,-⟩,hlast,rfl⟩ := List.forall₂_cons_left_iff.mp hothers
  obtain ⟨there,nothing,⟨-,hthere⟩,hnothing,rfl⟩ := List.forall₂_cons_left_iff.mp hlast
  obtain rfl := List.forall₂_nil_left_iff.mp hnothing
  have hstays : (Rule.intent allFine).atLevel .dimensional = .intent allFine := rfl
  have harrives : (Rule.pattern Rule.inside).atLevel .dimensional =
      .dimensional Rule.insideDimensions := rfl
  rw [hfine, hstays, hlowered, harrives, hthere hlevel] at hresult
  exact ⟨hlevel,hresult⟩

end Draft

end ApiRelease
