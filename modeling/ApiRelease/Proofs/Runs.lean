import ApiRelease.Trace
import Mathlib.Data.List.Forall2

/-! # Runs that end well

A chain of steps ends well when each step does, and going through a list ends well
when every entry does, each giving one result in its place. Notes never decide how a
run ends. Where failures of some sort are allowed, `Ends` says what results and what
failures a run may end with.
-/
namespace ApiRelease

variable {ν ε α β : Type}

theorem bind_eq_ok {x : Except ε α} {f : α → Except ε β} {b : β} :
    (x >>= f) = .ok b ↔ ∃ a, x = .ok a ∧ f a = .ok b := by
  constructor
  · intro h
    cases x with
    | error e => cases h
    | ok a => exact ⟨a,rfl,h⟩
  · rintro ⟨a,rfl,h⟩
    exact h

theorem mapM_eq_ok_iff {f : α → Except ε β} {xs : List α} {ys : List β} :
    xs.mapM f = .ok ys ↔ List.Forall₂ (fun x y => f x = .ok y) xs ys := by
  induction xs generalizing ys with
  | nil =>
    simp only [List.mapM_nil, List.forall₂_nil_left_iff]
    constructor
    · intro h
      cases h
      rfl
    · rintro rfl
      rfl
  | cons x xs ih =>
    simp only [List.mapM_cons, bind_eq_ok, List.forall₂_cons_left_iff]
    constructor
    · rintro ⟨y,hy,rest,hrest,h⟩
      cases h
      exact ⟨y,rest,hy,ih.mp hrest,rfl⟩
    · rintro ⟨y,rest,hy,hrest,rfl⟩
      exact ⟨y,hy,rest,ih.mpr hrest,rfl⟩

theorem mapM_ok_of_forall {f : α → Except ε β} {xs : List α} (h : ∀ x ∈ xs, ∃ y, f x = .ok y) :
    ∃ ys, xs.mapM f = .ok ys := by
  induction xs with
  | nil => exact ⟨[],rfl⟩
  | cons x xs ih =>
    obtain ⟨y,hy⟩ := h x List.mem_cons_self
    obtain ⟨ys,hys⟩ := ih (fun z hz => h z (List.mem_cons_of_mem _ hz))
    refine ⟨y :: ys,?_⟩
    rw [mapM_eq_ok_iff] at hys ⊢
    exact .cons hy hys

/-- A list of records is read back if each of them is. -/
theorem mapM_written {write : α → β} {read : β → Except ε α} {as : List α}
    (h : ∀ a ∈ as, read (write a) = .ok a) : (as.map write).mapM read = .ok as := by
  rw [mapM_eq_ok_iff, List.forall₂_map_left_iff, List.forall₂_same]
  exact h

theorem exists_right_of_forall₂ {R : α → β → Prop} {xs : List α} {ys : List β}
    (h : List.Forall₂ R xs ys) {x : α} (hx : x ∈ xs) : ∃ y ∈ ys, R x y := by
  induction h with
  | nil => simp at hx
  | cons hr _ ih =>
    rcases List.mem_cons.mp hx with rfl | hx
    · exact ⟨_,List.mem_cons_self,hr⟩
    · obtain ⟨y,hy,hxy⟩ := ih hx
      exact ⟨y,List.mem_cons_of_mem _ hy,hxy⟩

theorem exists_left_of_forall₂ {R : α → β → Prop} {xs : List α} {ys : List β}
    (h : List.Forall₂ R xs ys) {y : β} (hy : y ∈ ys) : ∃ x ∈ xs, R x y :=
  exists_right_of_forall₂ h.flip hy

theorem map_eq_of_forall₂ {γ : Type} {f : α → γ} {g : β → γ} {as : List α} {bs : List β}
    (h : List.Forall₂ (fun a b => g b = f a) as bs) : bs.map g = as.map f := by
  induction h with
  | nil => rfl
  | cons hab _ ih => rw [List.map_cons, List.map_cons, hab, ih]

theorem filterMap_eq_of_forall₂ {γ : Type} {f : α → Option γ} {g : β → Option γ} {as : List α}
    {bs : List β} (h : List.Forall₂ (fun a b => g b = f a) as bs) :
    bs.filterMap g = as.filterMap f := by
  induction h with
  | nil => rfl
  | cons hab _ ih => rw [List.filterMap_cons, List.filterMap_cons, hab, ih]

/-- A run with a known view of its result ends well. -/
theorem exists_ok_of_toOption {x : Except ε α} {f : α → β} {b : β}
    (h : x.toOption.map f = some b) : ∃ a, x = .ok a ∧ f a = b := by
  cases x with
  | error e => simp [Except.toOption] at h
  | ok a => exact ⟨a,rfl,by simpa [Except.toOption] using h⟩

/-- The run ends with a result of the one sort or a failure of the other. -/
inductive Ends (failure : ε → Prop) (result : α → Prop) : Except ε α → Prop
  | ok {a : α} (h : result a) : Ends failure result (.ok a)
  | error {e : ε} (h : failure e) : Ends failure result (.error e)

namespace Ends

variable {failure : ε → Prop} {result : α → Prop} {next : β → Prop}

theorem bind {x : Except ε α} {f : α → Except ε β} (hx : Ends failure result x)
    (hf : ∀ a, result a → Ends failure next (f a)) : Ends failure next (x >>= f) := by
  cases hx with
  | error he => exact .error he
  | ok ha => exact hf _ ha

theorem mono {failure' : ε → Prop} {x : Except ε α} (hx : Ends failure result x)
    (hf : ∀ e, failure e → failure' e) : Ends failure' result x := by
  cases hx with
  | error he => exact .error (hf _ he)
  | ok ha => exact .ok ha

theorem weaken {result' : α → Prop} {x : Except ε α} (hx : Ends failure result x)
    (h : ∀ a, result a → result' a) : Ends failure result' x := by
  cases hx with
  | error he => exact .error he
  | ok ha => exact .ok (h _ ha)

theorem of_eq_ok {x : Except ε α} (hx : Ends failure result x) {a : α} (h : x = .ok a) :
    result a := by
  subst h
  cases hx with
  | ok ha => exact ha

theorem of_eq_error {x : Except ε α} (hx : Ends failure result x) {e : ε} (h : x = .error e) :
    failure e := by
  subst h
  cases hx with
  | error he => exact he

theorem and_eq_ok {x : Except ε α} (hx : Ends failure result x) :
    Ends failure (fun a => result a ∧ x = .ok a) x := by
  cases hx with
  | error he => exact .error he
  | ok ha => exact .ok ⟨ha,rfl⟩

/-- A list is gone through to its end, or as far as an entry that fails. -/
theorem mapM {R : α → β → Prop} {f : α → Except ε β} {xs : List α}
    (h : ∀ x ∈ xs, Ends failure (R x) (f x)) : Ends failure (List.Forall₂ R xs) (xs.mapM f) := by
  induction xs with
  | nil => exact .ok .nil
  | cons x rest ih =>
    rw [List.mapM_cons]
    refine (h x List.mem_cons_self).bind fun y hy => ?_
    exact (ih fun z hz => h z (List.mem_cons_of_mem x hz)).bind fun ys hys => .ok (.cons hy hys)

/-- A run that may not fail has a result. -/
theorem exists_ok {x : Except ε α} (hx : Ends (fun _ => False) result x) :
    ∃ a, x = .ok a ∧ result a := by
  cases hx with
  | error he => exact he.elim
  | ok ha => exact ⟨_,rfl,ha⟩

end Ends

namespace Traced

@[simp] theorem result_noteAll (ns : List ν) : (noteAll ns : Traced ν ε Unit).result = .ok () := rfl

@[simp] theorem result_fail (e : ε) : (fail e : Traced ν ε α).result = .error e := rfl

@[simp] theorem result_attempt (x : Traced ν ε α) : x.attempt.result = .ok x.result := rfl

@[simp] theorem result_lift (r : Except ε α) : (liftM r : Traced ν ε α).result = r := rfl

@[simp] theorem notes_lift (r : Except ε α) : (liftM r : Traced ν ε α).notes = [] := rfl

theorem result_bind_eq_ok {x : Traced ν ε α} {f : α → Traced ν ε β} {b : β} :
    (x >>= f).result = .ok b ↔ ∃ a, x.result = .ok a ∧ (f a).result = .ok b := by
  rw [result_bind, bind_eq_ok]

theorem result_mapM (f : α → Traced ν ε β) (xs : List α) :
    (xs.mapM f).result = xs.mapM fun x => (f x).result := by
  induction xs with
  | nil => rfl
  | cons x xs ih => simp only [List.mapM_cons, result_bind, ih, result_pure]; rfl

theorem result_mapM_eq_ok {f : α → Traced ν ε β} {xs : List α} {ys : List β} :
    (xs.mapM f).result = .ok ys ↔ List.Forall₂ (fun x y => (f x).result = .ok y) xs ys := by
  rw [result_mapM, mapM_eq_ok_iff]

theorem notes_bind_of_ok {x : Traced ν ε α} {a : α} (h : x.result = .ok a) (f : α → Traced ν ε β) :
    (x >>= f).notes = x.notes ++ (f a).notes := by
  change (Traced.bind x f).notes = _
  simp only [Traced.bind, h]

/-- What comes next counts only for the result that there is. -/
theorem bind_congr_result {x : Traced ν ε α} {f g : α → Traced ν ε β}
    (h : ∀ a, x.result = .ok a → f a = g a) : x >>= f = x >>= g := by
  change Traced.bind x f = Traced.bind x g
  unfold Traced.bind
  cases hx : x.result with
  | error e => rfl
  | ok a => simp only [h a hx]

theorem bind_of_ok {x : Traced ν ε α} {a : α} (h : x.result = .ok a) (f : α → Traced ν ε β) :
    x >>= f = x >>= fun _ => f a := by
  refine bind_congr_result fun b hb => ?_
  obtain rfl := Except.ok.inj (h.symm.trans hb)
  rfl

/-- A failure is the end. -/
theorem bind_of_error {x : Traced ν ε α} {e : ε} (h : x.result = .error e)
    (f : α → Traced ν ε α) : x >>= f = x := by
  cases x with
  | mk notes result =>
    obtain rfl : result = .error e := h
    rfl

/-- A list that is gone through to its end leaves the notes of its entries in order. -/
theorem notes_mapM_of_ok {f : α → Traced ν ε β} {xs : List α} {ys : List β}
    (h : List.Forall₂ (fun x y => (f x).result = .ok y) xs ys) :
    (xs.mapM f).notes = xs.flatMap fun x => (f x).notes := by
  induction h with
  | nil => rfl
  | cons hx hrest ih =>
    rw [List.mapM_cons, notes_bind_of_ok hx, notes_bind_of_ok (result_mapM_eq_ok.mpr hrest), ih]
    simp

theorem notes_forM_of_ok {f : α → Traced ν ε Unit} {xs : List α} (h : ∀ x, (f x).result = .ok ()) :
    (xs.forM f).notes = xs.flatMap fun x => (f x).notes := by
  induction xs with
  | nil => rfl
  | cons x xs ih =>
    change (f x >>= fun _ => xs.forM f).notes = _
    rw [notes_bind_of_ok (h x), ih]
    simp

/-- Steps that give nothing back and cannot fail do not fail together. -/
theorem result_forM (f : α → Traced ν ε Unit) (xs : List α) (h : ∀ x, (f x).result = .ok ()) :
    (xs.forM f).result = .ok () := by
  induction xs with
  | nil => rfl
  | cons x xs ih =>
    change (f x >>= fun _ => xs.forM f).result = .ok ()
    rw [result_bind_eq_ok]
    exact ⟨(),h x,ih⟩

end Traced

end ApiRelease
