import ApiRelease.Proofs.Depth
import ApiRelease.Proofs.Shape

/-! # What is said to be reordered

The changes of a forest are made in two ways only: a level reports them, or they are
differences of signatures. What holds of both holds of the whole forest. So it is seen that
parameters are all that is ever said to be reordered: no check but the first has that to
say, and it speaks of parameters.
-/
namespace ApiRelease

namespace Descriptor

def OrdersParameters (d : Descriptor) : Prop := d.effect = .reordered → d.target = .parameter

theorem ordersParameters_plain {effect : Effect} (h : effect ≠ .reordered) (target : Target)
    (tags : List Tag) : (plain target effect tags).OrdersParameters := fun he => absurd he h

theorem Found.ordersParameters {d : Descriptor} (h : d.Found) : d.OrdersParameters := by
  cases h with
  | order => exact fun _ => rfl
  | other he _ => exact ordersParameters_plain he _ _

end Descriptor

theorem SignatureDifference.ordersParameters_descriptor {d : SignatureDifference}
    (h : d.action ≠ .reordered) {e : Descriptor} (he : d.descriptor = .ok e) : e.OrdersParameters := by
  obtain ⟨effect,rfl,hreordered⟩ := eq_of_descriptor he
  exact Descriptor.ordersParameters_plain (fun heffect => h (hreordered heffect)) _ _

namespace Classification

structure OrdersParameters (c : Classification) : Prop where
  descriptor : c.descriptor.OrdersParameters
  signatureChanges : ∀ d ∈ c.signatureChanges, d.action ≠ .reordered

theorem Found.ordersParameters {c : Classification} (h : c.Found) : c.OrdersParameters :=
  ⟨h.descriptor.ordersParameters,fun d hd => (h.signatureChanges d hd).action⟩

end Classification

namespace Diff

variable {options : DiffOptions} {compareTypes : TypeOracle} {descend : Descent} {place : Place}

section Induction

variable {P : Change → Prop}
  (hreported : ∀ {descend : Descent} {place : Place} {olds news : Members} {cs : List Change},
    (level options compareTypes descend place olds news).result = .ok cs → ∀ c ∈ cs, P c)
  (hsigned : ∀ {o n : Declaration} {place : Place} {k : Classification} {cs : List Change},
    Classification.ofPair o.toFacts n.toFacts options compareTypes = .ok k →
    signatureChanges options o n place k = .ok cs → ∀ c ∈ cs, P c)
include hreported hsigned

/-- One level: what is nested in its changes comes from signatures or from below. -/
theorem forall_within_level
    (hbelow : ∀ o n depth ancestors cs, (descend o n depth ancestors).result = .ok cs →
      ∀ c, Change.Within c cs → P c)
    {olds news : Members} {cs : List Change}
    (h : (level options compareTypes descend place olds news).result = .ok cs) :
    ∀ c, Change.Within c cs → P c := by
  intro c hc
  rcases of_within_level h hc with hc | ⟨o,n,k,signed,hk,hs,hc⟩ | ⟨o,n,inside,hi,hc⟩
  · exact hreported h c hc
  · exact hsigned hk hs c hc
  · exact hbelow _ _ _ _ _ hi c hc

theorem forall_within_membersWithin (room : Nat) (o n : Declaration) (depth : Nat)
    (ancestors : List String) (cs : List Change)
    (h : (membersWithin options compareTypes room o n depth ancestors).result = .ok cs) :
    ∀ c, Change.Within c cs → P c := by
  have hnone {c : Change} (hc : Change.Within c []) : P c := by
    cases hc <;> contradiction
  induction room generalizing o n depth ancestors cs with
  | zero =>
    rw [membersWithin_zero] at h
    cases h
    exact fun _ => hnone
  | succ room ih =>
    rcases of_membersWithin_succ h with rfl | h
    · exact fun _ => hnone
    · exact forall_within_level hreported hsigned ih h

end Induction

/-- What holds of the changes that levels report and of the differences of signatures holds
of the whole forest. -/
theorem forall_within_modules {oracle : TypeOracle} {P : Change → Prop}
    (hreported : ∀ {descend : Descent} {place : Place} {olds news : Members} {cs : List Change},
      (level options (typeComparer options oracle) descend place olds news).result = .ok cs →
        ∀ c ∈ cs, P c)
    (hsigned : ∀ {o n : Declaration} {place : Place} {k : Classification} {cs : List Change},
      Classification.ofPair o.toFacts n.toFacts options (typeComparer options oracle) = .ok k →
      signatureChanges options o n place k = .ok cs → ∀ c ∈ cs, P c)
    {old new : Module} {cs : List Change} (h : (modules old new options oracle).result = .ok cs) :
    ∀ c, Change.Within c cs → P c :=
  forall_within_level hreported hsigned (forall_within_membersWithin hreported hsigned _)
    (modules_eq_ok.mp h)

theorem ordersParameters_of_reports {olds news : Members} {c : Change}
    (h : Reports options compareTypes descend place olds news c) : c.descriptor.OrdersParameters := by
  cases h with
  | renamed _ _ => simp [Descriptor.OrdersParameters, renamedWith, Descriptor.plain]
  | removed _ => exact Descriptor.ordersParameters_plain (by simp) _ _
  | added _ => exact Descriptor.ordersParameters_plain (by simp) _ _
  | modified _ hk _ _ =>
    have hfound := (Classification.found_ofPair hk).ordersParameters.descriptor
    simpa [Descriptor.OrdersParameters, modifiedWith] using hfound

theorem ordersParameters_of_signatureChanges {o n : Declaration} {k : Classification}
    (hk : k.OrdersParameters) {cs : List Change}
    (h : signatureChanges options o n place k = .ok cs) :
    ∀ c ∈ cs, c.descriptor.OrdersParameters := by
  intro c hc
  obtain ⟨d,hd,hok⟩ := of_mem_signatureChanges h hc
  obtain ⟨descriptor,hdescriptor,hok⟩ := bind_eq_ok.mp hok
  cases hok
  exact SignatureDifference.ordersParameters_descriptor (hk.signatureChanges d hd) hdescriptor

/-- Only parameters are ever said to be reordered. -/
theorem ordersParameters_of_modules {old new : Module} {oracle : TypeOracle} {cs : List Change}
    (h : (modules old new options oracle).result = .ok cs) :
    ∀ c, Change.Within c cs → c.descriptor.OrdersParameters :=
  forall_within_modules
    (fun hlevel _ hc => ordersParameters_of_reports (reports_of_mem_level hlevel hc))
    (fun hk => ordersParameters_of_signatureChanges (Classification.found_ofPair hk).ordersParameters) h

end Diff

end ApiRelease
