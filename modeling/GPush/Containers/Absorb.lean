import Mathlib.Data.List.Basic
import Mathlib.Algebra.Order.Group.Nat

/-!
# Blocks that are absorbed

A list is absorbed in blocks of `n`, and what does not fill a block is left.  Absorbing what was
left before another list comes to absorbing both at once.
-/

namespace GPush.Containers

universe u v

variable {α : Type u} {S : Type v} (n : Nat) (f : S → List α → S)

/-- `count` blocks from the front. -/
def absorbBlocks : Nat → S → List α → S
  | 0, s, _ => s
  | count + 1, s, l => absorbBlocks count (f s (l.take n)) (l.drop n)

/-- All whole blocks. -/
def absorb (s : S) (l : List α) : S := absorbBlocks n f (l.length / n) s l

/-- What does not fill a block. -/
def leftOver (l : List α) : List α := l.drop (n * (l.length / n))

theorem length_leftOver (l : List α) : (leftOver n l).length = l.length % n := by
  rw [leftOver, List.length_drop, Nat.mod_def]

theorem absorbBlocks_append {count : Nat} {front : List α} (whole : front.length = n * count) (s : S)
    (l : List α) (more : Nat) :
    absorbBlocks n f (count + more) s (front ++ l) =
      absorbBlocks n f more (absorbBlocks n f count s front) l := by
  induction count generalizing s front with
  | zero =>
      rw [Nat.mul_zero, List.length_eq_zero_iff] at whole
      rw [whole, Nat.zero_add]
      rfl
  | succ count ih =>
      have enough : n ≤ front.length := by
        rw [whole, Nat.mul_succ]
        exact Nat.le_add_left n _
      have shorter : (front.drop n).length = n * count := by
        rw [List.length_drop, whole, Nat.mul_succ, Nat.add_sub_cancel]
      rw [Nat.succ_add, absorbBlocks, absorbBlocks, List.take_append_of_le_length enough,
        List.drop_append_of_le_length enough, ih shorter]

theorem absorbBlocks_take {count : Nat} (s : S) {l : List α} (inside : n * count ≤ l.length) :
    absorbBlocks n f count s (l.take (n * count)) = absorbBlocks n f count s l := by
  have whole : (l.take (n * count)).length = n * count := by
    rw [List.length_take, Nat.min_eq_left inside]
  have both := absorbBlocks_append n f whole s (l.drop (n * count)) 0
  rw [List.take_append_drop] at both
  exact both.symm

variable {n}

theorem absorb_of_short (s : S) {l : List α} (short : l.length < n) : absorb n f s l = s := by
  rw [absorb, Nat.div_eq_of_lt short]
  rfl

theorem leftOver_of_short {l : List α} (short : l.length < n) : leftOver n l = l := by
  rw [leftOver, Nat.div_eq_of_lt short, Nat.mul_zero, List.drop_zero]

variable (positive : 0 < n)

include positive

/-- Whole blocks in front. -/
theorem absorb_append_of_whole {front : List α} (whole : n ∣ front.length) (s : S) (l : List α) :
    absorb n f s (front ++ l) = absorb n f (absorb n f s front) l := by
  obtain ⟨count, length⟩ := whole
  have frontCount : front.length / n = count := by rw [length, Nat.mul_div_cancel_left _ positive]
  have bothCount : (front ++ l).length / n = count + l.length / n := by
    rw [List.length_append, length, Nat.mul_add_div positive]
  rw [absorb, absorb, absorb, bothCount, frontCount, absorbBlocks_append n f length]

theorem leftOver_append_of_whole {front : List α} (whole : n ∣ front.length) (l : List α) :
    leftOver n (front ++ l) = leftOver n l := by
  obtain ⟨count, length⟩ := whole
  rw [leftOver, leftOver, List.length_append, length, Nat.mul_add_div positive, Nat.mul_add,
    ← length, List.drop_append]
  simp

/-- A block in front. -/
theorem absorb_cons_block {block : List α} (full : block.length = n) (s : S) (l : List α) :
    absorb n f s (block ++ l) = absorb n f (f s block) l := by
  have one : absorb n f s block = f s block := by
    rw [absorb, full, Nat.div_self positive, absorbBlocks, absorbBlocks,
      List.take_of_length_le (Nat.le_of_eq full)]
  rw [absorb_append_of_whole f positive (full ▸ Nat.dvd_refl _), one]

/-- The whole blocks of a list and what is left. -/
theorem front_append_leftOver (l : List α) : ∃ front, n ∣ front.length ∧
    l = front ++ leftOver n l ∧ ∀ s : S, absorb n f s front = absorb n f s l := by
  have inside : n * (l.length / n) ≤ l.length := Nat.mul_div_le _ _
  have length : (l.take (n * (l.length / n))).length = n * (l.length / n) := by
    rw [List.length_take, Nat.min_eq_left inside]
  refine ⟨l.take (n * (l.length / n)), ⟨_, length⟩, (List.take_append_drop _ _).symm, ?_⟩
  intro s
  rw [absorb, length, Nat.mul_div_cancel_left _ positive, absorbBlocks_take n f s inside, absorb]

/-- What was left is absorbed before what follows. -/
theorem absorb_append (s : S) (first second : List α) :
    absorb n f s (first ++ second) =
      absorb n f (absorb n f s first) (leftOver n first ++ second) := by
  obtain ⟨front, whole, split, same⟩ := front_append_leftOver f positive first
  conv_lhs => rw [split, List.append_assoc]
  rw [absorb_append_of_whole f positive whole, same]

theorem leftOver_append (first second : List α) :
    leftOver n (first ++ second) = leftOver n (leftOver n first ++ second) := by
  obtain ⟨front, whole, split, -⟩ :=
    front_append_leftOver (fun (s : Unit) (_ : List α) => s) positive first
  conv_lhs => rw [split, List.append_assoc]
  exact leftOver_append_of_whole positive whole _

end GPush.Containers
