import Mathlib.Logic.Function.Basic

/-!
# Locks and their holders

Every thread is in a phase of its program, and some of the phases are inside of a lock.  The
lock is held by the thread that is in one of them, if there is any.
-/

namespace GPush.Transition

universe u v

variable {ι : Type u} {P : Type v}

/-- The thread in `lock`, if any, is the one in a phase inside. -/
def HeldBy (inside : P → Bool) (phases : ι → P) (lock : Option ι) : Prop :=
  ∀ w, inside (phases w) = true ↔ lock = some w

namespace HeldBy

variable [DecidableEq ι] {inside : P → Bool} {phases : ι → P} {lock : Option ι} {w : ι} {phase : P}

/-- A thread moves on inside the lock, or outside of it. -/
theorem keep (held : HeldBy inside phases lock) (same : inside phase = inside (phases w)) :
    HeldBy inside (Function.update phases w phase) lock := by
  intro v
  by_cases isMoved : v = w
  · subst isMoved
    rw [Function.update_self, same]
    exact held v
  · rw [Function.update_of_ne isMoved]
    exact held v

/-- A thread takes the lock. -/
theorem acquire (held : HeldBy inside phases none) (enters : inside phase = true) :
    HeldBy inside (Function.update phases w phase) (some w) := by
  intro v
  by_cases isMoved : v = w
  · subst isMoved
    rw [Function.update_self, enters]
    exact iff_of_true rfl rfl
  · rw [Function.update_of_ne isMoved, held v, Option.some.injEq]
    exact iff_of_false (by simp) (Ne.symm isMoved)

/-- The holder gives the lock back. -/
theorem release (held : HeldBy inside phases lock) (holds : inside (phases w) = true)
    (leaves : inside phase = false) :
    HeldBy inside (Function.update phases w phase) none := by
  have isHolder := (held w).mp holds
  intro v
  by_cases isMoved : v = w
  · subst isMoved
    rw [Function.update_self, leaves]
    exact iff_of_false (by decide) (by simp)
  · rw [Function.update_of_ne isMoved, held v, isHolder, Option.some.injEq]
    exact iff_of_false (Ne.symm isMoved) (by simp)

end HeldBy

end GPush.Transition
