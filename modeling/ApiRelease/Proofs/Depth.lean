import ApiRelease.Proofs.Exports
import ApiRelease.Proofs.Level
import ApiRelease.Proofs.Release

/-! # How deep changes lie

Entering a declaration uses up one of the levels that the options allow, so what is found
among members lies no deeper than they say. The differences of signatures are told with
the pair they were found in and use up no level: at the greatest depth they are still
reported, one deeper, and nothing else is.
-/
namespace ApiRelease

structure Change.OfSignature (c : Change) : Prop where
  oldNode : c.oldNode = none
  newNode : c.newNode = none
  nested : c.nested = []

/-- The change lies within a depth, or it is a difference of signatures right below. -/
def Change.LiesWithin (limit : Int) (c : Change) : Prop :=
  c.context.depth ≤ limit ∨ c.context.depth = limit + 1 ∧ c.OfSignature

namespace Change

theorem LiesWithin.mono {c : Change} {low high : Int} (h : c.LiesWithin low) (hle : low ≤ high) :
    c.LiesWithin high := by
  rcases h with h | ⟨h,hs⟩
  · exact Or.inl (Int.le_trans h hle)
  · by_cases heq : low = high
    · exact Or.inr ⟨heq ▸ h,hs⟩
    · exact Or.inl (by omega)

theorem within_append {c : Change} {cs ds : List Change} (h : Within c (cs ++ ds)) :
    Within c cs ∨ Within c ds := by
  cases h with
  | here hc => exact (List.mem_append.mp hc).imp .here .here
  | inside hd hc => exact (List.mem_append.mp hd).imp (.inside · hc) (.inside · hc)

end Change

namespace Diff

variable {options : DiffOptions} {compareTypes : TypeOracle} {descend : Descent} {place : Place}

theorem depth_of_signatureChanges {o n : Declaration} {k : Classification} {cs : List Change}
    (h : signatureChanges options o n place k = .ok cs) :
    ∀ c ∈ cs, c.context.depth = place.depth + 1 ∧ c.OfSignature := by
  intro c hc
  obtain ⟨d,-,hok⟩ := of_mem_signatureChanges h hc
  obtain ⟨descriptor,-,hok⟩ := bind_eq_ok.mp hok
  cases hok
  exact ⟨rfl,rfl,rfl,rfl⟩

/-- A change of the forest below a level is reported by the level, or it is a difference of
signatures of a pair of it, or it was found inside two of its declarations. -/
theorem of_within_level {olds news : Members} {cs : List Change}
    (h : (level options compareTypes descend place olds news).result = .ok cs) {c : Change}
    (hc : Change.Within c cs) :
    c ∈ cs ∨
    (∃ (o n : Declaration) (k : Classification) (signed : List Change),
      Classification.ofPair o.toFacts n.toFacts options compareTypes = .ok k ∧
      signatureChanges options o n place k = .ok signed ∧ c ∈ signed) ∨
    ∃ o n inside, (descend o n place.depth place.ancestors).result = .ok inside ∧
      Change.Within c inside := by
  cases hc with
  | here hc => exact Or.inl hc
  | inside hparent hc =>
    cases reports_of_mem_level h hparent with
    | renamed _ hn => exact Or.inr (Or.inr ⟨_,_,_,hn,hc⟩)
    | removed _ => cases hc <;> contradiction
    | added _ => cases hc <;> contradiction
    | modified _ hk hs hi =>
      rcases Change.within_append hc with hc | hc
      · cases hc with
        | here hc => exact Or.inr (Or.inl ⟨_,_,_,_,hk,hs,hc⟩)
        | inside hparent hc =>
          -- nothing is nested in a difference of signatures
          rw [(depth_of_signatureChanges hs _ hparent).2.nested] at hc
          cases hc <;> contradiction
      · exact Or.inr (Or.inr ⟨_,_,_,hi,hc⟩)

def Descent.FitsIn (descend : Descent) (room : Nat) : Prop :=
  ∀ o n depth ancestors cs, (descend o n depth ancestors).result = .ok cs →
    ∀ c, Change.Within c cs → c.LiesWithin (depth + room)

/-- One level with room below it: what is nested in its changes was found in signatures,
one deeper, or lies within the room. -/
theorem liesWithin_of_level {room : Nat} (hd : descend.FitsIn room) {olds news : Members}
    {cs : List Change} (h : (level options compareTypes descend place olds news).result = .ok cs) :
    ∀ c, Change.Within c cs → c.LiesWithin (place.depth + room) := by
  intro c hc
  have hroom : (place.depth : Int) ≤ place.depth + room := by omega
  rcases of_within_level h hc with hc | ⟨o,n,k,signed,-,hs,hc⟩ | ⟨o,n,inside,hi,hc⟩
  · have hdepth : c.context.depth = place.depth := by cases reports_of_mem_level h hc <;> rfl
    exact Or.inl (hdepth ▸ hroom)
  · have hbelow : c.LiesWithin place.depth := Or.inr (depth_of_signatureChanges hs c hc)
    exact hbelow.mono hroom
  · exact hd _ _ _ _ _ hi c hc

theorem membersWithin_fitsIn (options : DiffOptions) (compareTypes : TypeOracle) (room : Nat) :
    Descent.FitsIn (membersWithin options compareTypes room) room := by
  have hnone {limit : Int} {c : Change} (hc : Change.Within c []) : c.LiesWithin limit := by
    cases hc <;> contradiction
  induction room with
  | zero =>
    intro o n depth ancestors cs h c hc
    rw [membersWithin_zero] at h
    cases h
    exact hnone hc
  | succ room ih =>
    intro o n depth ancestors cs h c hc
    rcases of_membersWithin_succ h with rfl | h
    · exact hnone hc
    · have hlies := liesWithin_of_level ih h c hc
      have hdepth : ((Place.inside o n depth ancestors).depth : Int) + room =
          depth + (room + 1 : Nat) := by
        change ((depth + 1 : Nat) : Int) + room = _
        omega
      rwa [hdepth] at hlies

/-- No declaration is reported below the greatest depth, and differences of signatures are
at most one deeper. -/
theorem modules_liesWithin {old new : Module} {options : DiffOptions} {oracle : TypeOracle}
    (hdepth : 0 ≤ options.maxDepth) {cs : List Change}
    (h : (modules old new options oracle).result = .ok cs) :
    ∀ c, Change.Within c cs → c.context.depth ≤ options.maxDepth ∨
      c.context.depth = options.maxDepth + 1 ∧ c.oldNode = none ∧ c.newNode = none ∧
        c.nested = [] := by
  intro c hc
  have hlies := liesWithin_of_level (membersWithin_fitsIn _ _ _) (modules_eq_ok.mp h) c hc
  have hlimit : (Place.top.depth : Int) + options.maxDepth.toNat = options.maxDepth := by
    change (0 : Int) + options.maxDepth.toNat = _
    omega
  rw [hlimit] at hlies
  exact hlies.imp id fun ⟨hc,hs⟩ => ⟨hc,hs.oldNode,hs.newNode,hs.nested⟩

def brushWith (color : String) : Module :=
  .ofExports [.bare .classDecl "Brush" "Brush" [("fill",
    { Declaration.bare .method "Brush.fill" "fill" [] with
      parent := some "Brush"
      typeInfo := some ⟨"(color: " ++ color ++ ") => void","(color: " ++ color ++ ") => void",[],[],
        [⟨[⟨"color",color,false,false,none⟩],"void",[],""⟩],[],[],[],none,none⟩ })]] "<memory>" "" []

def oneLevel : DiffOptions := { DiffOptions.standard with maxDepth := 1 }

theorem modules_liesWithin_of_brush : ∃ cs,
    (modules (brushWith "string") (brushWith "number") oneLevel TypeText.heuristic).result = .ok cs ∧
    ((Change.flattenAll cs).map fun c => (c.path,c.context.depth)) =
      [(.text "Brush",0),(.text "Brush.fill",1),(.text "Brush.fill.color",2)] ∧
    ∀ c, Change.Within c cs → c.context.depth ≤ 1 ∨
      c.context.depth = 1 + 1 ∧ c.oldNode = none ∧ c.newNode = none ∧ c.nested = [] := by
  have hlisted : ((modules (brushWith "string") (brushWith "number") oneLevel
      TypeText.heuristic).result.toOption.map fun cs =>
        (Change.flattenAll cs).map fun c => (c.path,c.context.depth)) =
      some [(.text "Brush",0),(.text "Brush.fill",1),(.text "Brush.fill.color",2)] := by
    decide +kernel
  obtain ⟨cs,hcs,hdepths⟩ := exists_ok_of_toOption hlisted
  have hlimit : 0 ≤ oneLevel.maxDepth := by decide
  exact ⟨cs,hcs,hdepths,modules_liesWithin hlimit hcs⟩

/-- A parameter of a method is reported although it lies below the greatest depth. -/
theorem parameter_told_below : ∃ cs,
    (modules (brushWith "string") (brushWith "number") oneLevel TypeText.heuristic).result = .ok cs ∧
    ∃ c, Change.Within c cs ∧ oneLevel.maxDepth < c.context.depth := by
  have hinner : ((modules (brushWith "string") (brushWith "number") oneLevel
      TypeText.heuristic).result.toOption.map fun cs =>
        ((cs.flatMap (·.nested)).flatMap (·.nested)).map (·.context.depth)) = some [2] := by
    decide +kernel
  obtain ⟨cs,hcs,hdepths⟩ := exists_ok_of_toOption hinner
  obtain ⟨c,hc,hdepth⟩ := List.mem_map.mp (hdepths ▸ List.mem_singleton_self (2 : Int))
  obtain ⟨method,hmethod,hc⟩ := List.mem_flatMap.mp hc
  obtain ⟨owner,howner,hmethod⟩ := List.mem_flatMap.mp hmethod
  refine ⟨cs,hcs,c,.inside howner (.inside hmethod (.here hc)),?_⟩
  rw [hdepth]
  decide

end Diff

end ApiRelease
