import Mathlib.Data.List.Basic

/-!
# Allocated arrays

An array as an allocator gives it: its cells hold nothing at first, and a store outside of it
fails.  It is filled from the front.
-/

namespace GPush.Containers

universe u

/-- An array, with what its cells hold. -/
structure Cells (α : Type u) where
  cells : List (Option α)

namespace Cells

variable {α : Type u}

/-- An array of `n` cells. -/
def alloc (n : Nat) : Cells α := ⟨List.replicate n none⟩

/-- A store at an index. -/
def store (c : Cells α) (i : Int) (a : α) : Option (Cells α) :=
  if 0 ≤ i ∧ i < c.cells.length then some ⟨c.cells.set i.toNat (some a)⟩ else none

/-- The first cells hold `as`, and `room` cells behind them hold nothing. -/
def holding (as : List α) (room : Nat) : Cells α := ⟨as.map some ++ List.replicate room none⟩

/-- What is stored behind the elements becomes the last of them. -/
theorem store_holding (as : List α) (room : Nat) (a : α) :
    (holding as (room + 1)).store as.length a = some (holding (as ++ [a]) room) := by
  have inside : (as.length : Int) < (holding as (room + 1)).cells.length := by
    simp only [holding, List.length_append, List.length_map, List.length_replicate]
    omega
  rw [store, if_pos ⟨Int.natCast_nonneg _, inside⟩, Int.toNat_natCast]
  simp [holding, List.replicate_succ]

end Cells

end GPush.Containers
