import CrateIndex.Log

/-!
# Computations that log

A computation gives its log records along with its result. When it fails, the records made before
are kept.
-/

namespace CrateIndex

/-- The records made, first to last, and the result. -/
structure Logged (ε α : Type) where
  log : List Log.Entry
  result : Except ε α

namespace Logged

variable {ε ε' α β : Type}

/-- A result without records. -/
def ofExcept (x : Except ε α) : Logged ε α := ⟨[], x⟩

/-- The second computation follows the first unless that fails. -/
protected def bind (x : Logged ε α) (f : α → Logged ε β) : Logged ε β :=
  match x.result with
  | .error e => ⟨x.log, .error e⟩
  | .ok a =>
    let y := f a
    ⟨x.log ++ y.log, y.result⟩

instance : Monad (Logged ε) where
  pure a := ⟨[], .ok a⟩
  bind := Logged.bind

/-- Makes one record. -/
def note (e : Log.Entry) : Logged ε Unit := ⟨[e], .ok ()⟩

def fail (e : ε) : Logged ε α := ⟨[], .error e⟩

/-- The same records and result, a failure changed by `f`. -/
def mapError (f : ε → ε') (x : Logged ε α) : Logged ε' α := ⟨x.log, x.result.mapError f⟩

theorem bind_ok {x : Logged ε α} {a : α} (h : x.result = .ok a) (f : α → Logged ε β) :
    x >>= f = ⟨x.log ++ (f a).log, (f a).result⟩ := by
  show Logged.bind x f = _
  simp [Logged.bind, h]

theorem bind_error {x : Logged ε α} {e : ε} (h : x.result = .error e) (f : α → Logged ε β) :
    x >>= f = ⟨x.log, .error e⟩ := by
  show Logged.bind x f = _
  simp [Logged.bind, h]

/-- The result of a sequence does not hang on its records. -/
@[simp] theorem result_bind (x : Logged ε α) (f : α → Logged ε β) :
    (x >>= f).result = x.result >>= fun a => (f a).result := by
  show (Logged.bind x f).result = _
  cases h : x.result <;> simp [Logged.bind, h] <;> rfl

@[simp] theorem result_pure (a : α) : (pure a : Logged ε α).result = .ok a := rfl

@[simp] theorem result_note (e : Log.Entry) : (note e : Logged ε Unit).result = .ok () := rfl

@[simp] theorem result_ofExcept (x : Except ε α) : (ofExcept x).result = x := rfl

@[simp] theorem result_mapError (f : ε → ε') (x : Logged ε α) :
    (x.mapError f).result = x.result.mapError f := rfl

end Logged

end CrateIndex
