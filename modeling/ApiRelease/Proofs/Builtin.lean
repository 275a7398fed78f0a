import ApiRelease.Proofs.Release

/-! # What the built-in policies say of what came and went

A rename is major under every built-in policy, and so is the removal of an export.
The removal of a member is major for all who read it; those who only write no longer
have to give it. A further export is minor for everyone. For those who read and write,
a parameter that callers have to pass is major, and so is a type parameter that came,
went or is constrained in another way.
-/
namespace ApiRelease

namespace Conditions

theorem allows_name {α : Type} [Vocabulary α] [DecidableEq α] (a b : α) :
    allows [Vocabulary.name a] (some (Vocabulary.name b)) = decide (b = a) := by
  by_cases h : b = a
  · simp [allows, h]
  · have hn : Vocabulary.name b ≠ Vocabulary.name a := fun hn => h (Vocabulary.name_injective hn)
    simp [allows, h, hn]

@[simp] theorem allows_nil (v : Option String) : allows [] v = true := rfl

@[simp] theorem allows_absent (s : String) : allows [s] none = false := rfl

@[simp] theorem allows_action (a b : Action) : allows [a.name] (some b.name) = decide (b = a) :=
  allows_name a b

@[simp] theorem allows_target (a b : Target) : allows [a.name] (some b.name) = decide (b = a) :=
  allows_name a b

@[simp] theorem allows_aspect (a b : Aspect) : allows [a.name] (some b.name) = decide (b = a) :=
  allows_name a b

/-- A finding has a tag by its name just if its description has the tag. -/
@[simp] theorem hasTag_name (f : Finding) (t : Tag) : hasTag f t.name = f.descriptor.tags.has t := by
  rw [Bool.eq_iff_iff, hasTag, Subset.names, List.contains_iff_mem, List.mem_map]
  constructor
  · rintro ⟨u,hu,hname⟩
    rw [← Vocabulary.name_injective hname]
    exact Subset.mem_toList.mp hu
  · intro ht
    exact ⟨t,Subset.mem_toList.mpr ht,rfl⟩

end Conditions

namespace CompiledPolicy

/-- The release type of a change is that of the first matcher that holds. -/
theorem release_classify (p : CompiledPolicy) (c : Change) :
    (p.classify c).release = .text (((p.rules.find? fun m => m.holdFor c.toFinding).map
      (·.returns)).getD p.default) := by
  unfold classify matching?
  cases p.rules.find? fun m => m.holdFor c.toFinding <;> rfl

end CompiledPolicy

namespace Policy

@[simp] theorem matchers_nil (index : Nat) : (compileEntries index []).filterMap matcher? = [] := rfl

@[simp] theorem matchers_builtinRule (index : Nat) (name : String) (release : Release)
    (rationale : Option String) (c : Conditions) (rest : List PolicyEntry) :
    (compileEntries index (builtinRule name release rationale c :: rest)).filterMap matcher? =
    { toConditions := c, name := .text name, returns := release.name,
      rationale := .ofOption rationale } :: (compileEntries (index + 1) rest).filterMap matcher? := rfl

variable {p : Policy} {c : Change}

theorem release_of_renamed (hp : p ∈ builtins) (h : c.descriptor.effect = .renamed) :
    (p.compile.classify c).release = .text (Release.name .major) := by
  rw [CompiledPolicy.release_classify]
  simp only [builtins, List.mem_cons, List.not_mem_nil, or_false] at hp
  rcases hp with rfl | rfl | rfl
  · simp [compile, shared, Conditions.holdFor, h, Effect.action]
  · simp [compile, readOnly, Conditions.holdFor, h, Effect.action]
  · simp [compile, writeOnly, Conditions.holdFor, h, Effect.action]

theorem release_of_removed_export (hp : p ∈ builtins) (h : c.descriptor.effect = .removed)
    (ht : c.descriptor.target = .exportItem) :
    (p.compile.classify c).release = .text (Release.name .major) := by
  rw [CompiledPolicy.release_classify]
  simp only [builtins, List.mem_cons, List.not_mem_nil, or_false] at hp
  rcases hp with rfl | rfl | rfl
  · simp [compile, shared, Conditions.holdFor, h, ht, Effect.action]
  · simp [compile, readOnly, Conditions.holdFor, h, Effect.action]
  · simp [compile, writeOnly, Conditions.holdFor, h, ht, Effect.action]

theorem release_of_removed_member (hp : p = shared ∨ p = readOnly)
    (h : c.descriptor.effect = .removed) (hn : c.context.nested = true) :
    (p.compile.classify c).release = .text (Release.name .major) := by
  rw [CompiledPolicy.release_classify]
  rcases hp with rfl | rfl
  · -- what is not an export by its kind is left to the rule on members
    by_cases ht : c.descriptor.target = .exportItem
    · simp [compile, shared, Conditions.holdFor, h, ht, Effect.action]
    · simp [compile, shared, Conditions.holdFor, h, ht, hn, Effect.action]
  · simp [compile, readOnly, Conditions.holdFor, h, Effect.action]

theorem release_of_added_export (hp : p ∈ builtins) (h : c.descriptor.effect = .added)
    (ht : c.descriptor.target = .exportItem) (hr : c.descriptor.tags.has .nowRequired = false) :
    (p.compile.classify c).release = .text (Release.name .minor) := by
  rw [CompiledPolicy.release_classify]
  simp only [builtins, List.mem_cons, List.not_mem_nil, or_false] at hp
  rcases hp with rfl | rfl | rfl
  · simp [compile, shared, Conditions.holdFor, Descriptor.aspectName?, h, ht, Effect.action,
      Effect.aspect?]
  · simp [compile, readOnly, Conditions.holdFor, Descriptor.aspectName?, h, Effect.action,
      Effect.aspect?]
  · -- what may be left out is minor by a rule of its own
    cases ho : c.descriptor.tags.has .nowOptional <;>
      simp [compile, writeOnly, Conditions.holdFor, Descriptor.aspectName?, h, ht, hr, ho,
        Effect.action, Effect.aspect?]

theorem release_of_required_parameter (h : c.descriptor.effect = .added)
    (ht : c.descriptor.target = .parameter) (hr : c.descriptor.tags.has .nowRequired = true) :
    (shared.compile.classify c).release = .text (Release.name .major) := by
  rw [CompiledPolicy.release_classify]
  simp [compile, shared, Conditions.holdFor, h, ht, hr, Effect.action]

/-- A type parameter of an export that came or went is left to the default. -/
theorem release_of_type_parameter (ht : c.descriptor.target = .typeParameter)
    (hn : c.context.nested = false) (ho : c.descriptor.tags.has .nowOptional = false)
    (h : c.descriptor.effect = .removed ∨ c.descriptor.effect = .added ∨
      ∃ impact, c.descriptor.effect = .modified .constraint impact) :
    (shared.compile.classify c).release = .text (Release.name .major) := by
  rw [CompiledPolicy.release_classify]
  rcases h with h | h | ⟨impact,h⟩
  · simp [compile, shared, Conditions.holdFor, Descriptor.aspectName?, h, ht, hn, Effect.action,
      Effect.aspect?]
  · simp [compile, shared, Conditions.holdFor, Descriptor.aspectName?, h, ht, hn, ho, Effect.action,
      Effect.aspect?]
  · simp [compile, shared, Conditions.holdFor, Descriptor.aspectName?, h, Effect.action,
      Effect.aspect?]

theorem release_of_default_type {impact : Impact}
    (h : c.descriptor.effect = .modified .defaultType impact) :
    (shared.compile.classify c).release = .text (Release.name .minor) := by
  rw [CompiledPolicy.release_classify]
  simp [compile, shared, Conditions.holdFor, Descriptor.aspectName?, h, Effect.action,
    Effect.aspect?]

end Policy

end ApiRelease
