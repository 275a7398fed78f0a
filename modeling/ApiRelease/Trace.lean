/-! # Computations that leave notes

A traced computation leaves its notes in order, also when it ends in a failure:
whatever was noted before the failure stays noted.
-/
namespace ApiRelease

structure Traced (ν ε α : Type) where
  notes : List ν
  result : Except ε α

namespace Traced

variable {ν ε α β : Type}

protected def pure (a : α) : Traced ν ε α := ⟨[], .ok a⟩

protected def bind (x : Traced ν ε α) (f : α → Traced ν ε β) : Traced ν ε β :=
  match x.result with
  | .error e => ⟨x.notes, .error e⟩
  | .ok a => ⟨x.notes ++ (f a).notes, (f a).result⟩

instance : Monad (Traced ν ε) where
  pure := Traced.pure
  bind := Traced.bind

instance : LawfulMonad (Traced ν ε) := LawfulMonad.mk' _
  (fun x => by
    cases x with | mk ns r => cases r <;> simp [Functor.map, Traced.bind, Traced.pure])
  (fun a f => by simp [Bind.bind, Pure.pure, Traced.bind, Traced.pure])
  (fun x f g => by
    cases x with
    | mk ns r =>
      cases r with
      | error e => simp [Bind.bind, Traced.bind]
      | ok a => cases h : (f a).result <;> simp [Bind.bind, Traced.bind, h])

@[simp] theorem notes_pure (a : α) : (pure a : Traced ν ε α).notes = [] := rfl

@[simp] theorem result_pure (a : α) : (pure a : Traced ν ε α).result = .ok a := rfl

/-- Forgetting the notes turns sequencing into that of plain results. -/
@[simp] theorem result_bind (x : Traced ν ε α) (f : α → Traced ν ε β) :
    (x >>= f).result = x.result >>= fun a => (f a).result := by
  show (Traced.bind x f).result = _
  unfold Traced.bind
  cases x.result <;> rfl

def note (n : ν) : Traced ν ε Unit := ⟨[n], .ok ()⟩

def noteAll (ns : List ν) : Traced ν ε Unit := ⟨ns, .ok ()⟩

def fail (e : ε) : Traced ν ε α := ⟨[], .error e⟩

def ofExcept (r : Except ε α) : Traced ν ε α := ⟨[], r⟩

instance : MonadLift (Except ε) (Traced ν ε) := ⟨ofExcept⟩

@[simp] theorem result_note (n : ν) : (note n : Traced ν ε Unit).result = .ok () := rfl

@[simp] theorem result_ofExcept (r : Except ε α) : (ofExcept r : Traced ν ε α).result = r := rfl

/-- The outcome as a value; the notes stay. -/
def attempt (x : Traced ν ε α) : Traced ν ε (Except ε α) := ⟨x.notes, .ok x.result⟩

end Traced

end ApiRelease
