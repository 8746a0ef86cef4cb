import Mathlib.Data.Option.Basic

/-!
# Computations that make calls and may raise

A computation has made some calls when it ends, and it ends with a value or with an
exception, which passes through everything that follows.
-/

namespace GPush.Transition

universe u v

/-- A computation that makes calls of the type `ε`; `none` is an exception. -/
structure Traced (ε : Type u) (α : Type v) where
  calls : List ε
  result : Option α

namespace Traced

variable {ε : Type u} {α β : Type v}

/-- One call. -/
def call (e : ε) : Traced ε PUnit := ⟨[e], some ⟨⟩⟩

/-- A value that may not be there, in which case an exception is raised. -/
def ofOption (x : Option α) : Traced ε α := ⟨[], x⟩

/-- After an exception nothing more is called. -/
def andThen (m : Traced ε α) (f : α → Traced ε β) : Traced ε β :=
  match m.result with
  | none => ⟨m.calls, none⟩
  | some a => ⟨m.calls ++ (f a).calls, (f a).result⟩

instance : Monad (Traced ε) where
  pure a := ⟨[], some a⟩
  bind := andThen

theorem pure_eq (a : α) : (pure a : Traced ε α) = ⟨[], some a⟩ := rfl

theorem ofOption_some_bind (a : α) (f : α → Traced ε β) :
    ((ofOption (some a) : Traced ε α) >>= f) = f a := rfl

theorem some_bind (calls : List ε) (a : α) (f : α → Traced ε β) :
    ((⟨calls, some a⟩ : Traced ε α) >>= f) = ⟨calls ++ (f a).calls, (f a).result⟩ := rfl

end Traced

end GPush.Transition
