import GPush.LoopBuf.Frame
import Mathlib.Data.List.Infix
import Mathlib.Data.List.Lemmas
import Mathlib.Data.List.TakeWhile

/-!
# Searching in strings

`std::string::find`, `find_first_not_of` and `replace`.  A place that is `npos` is `none`.
-/

namespace GPush.Utility

open GPush.LoopBuf

/-- `std::string::find`, for a string and the place to begin at. -/
def find (str pattern : Bytes) (pos : Nat) : Option Nat :=
  if pos ≤ str.length then
    ((str.drop pos).tails.findIdx? pattern.isPrefixOf).map (pos + ·)
  else
    none

/-- `std::string::find_first_not_of`, from the beginning. -/
def findFirstNotOf (str chars : Bytes) : Option Nat := str.findIdx? fun a => !chars.contains a

/-- `std::string::replace`. -/
def replace (str : Bytes) (pos len : Nat) (other : Bytes) : Bytes :=
  str.take pos ++ other ++ str.drop (pos + len)

variable {str pattern : Bytes} {pos i : Nat}

/-- The pattern stands at the place that is found, and at none between the beginning of the
search and it. -/
theorem find_eq_some (found : find str pattern pos = some i) :
    pos ≤ i ∧ pattern <+: str.drop i ∧ ∀ j, pos ≤ j → j < i → ¬ pattern <+: str.drop j := by
  rw [find] at found
  split_ifs at found with inside
  rw [Option.map_eq_some_iff] at found
  obtain ⟨k, found, rfl⟩ := found
  obtain ⟨short, here, before⟩ := List.findIdx?_eq_some_iff_getElem.mp found
  rw [List.getElem_tails, List.drop_drop, List.isPrefixOf_iff_prefix] at here
  refine ⟨Nat.le_add_right _ _, here, fun j above below => ?_⟩
  have missed := before (j - pos) (by omega)
  rw [List.getElem_tails, List.drop_drop, List.isPrefixOf_iff_prefix,
    Nat.add_sub_cancel' above] at missed
  exact missed

/-- A pattern that is not found stands at no place. -/
theorem find_eq_none (missed : find str pattern pos = none) {j : Nat} (above : pos ≤ j)
    (below : j ≤ str.length) : ¬ pattern <+: str.drop j := by
  rw [find, if_pos (above.trans below), Option.map_eq_none_iff, List.findIdx?_eq_none_iff]
    at missed
  have here := missed (str.drop j) (by
    rw [List.mem_tails, ← Nat.add_sub_cancel' above, ← List.drop_drop]
    exact List.drop_suffix _ _)
  intro stands
  rw [List.isPrefixOf_iff_prefix.mpr stands] at here
  cases here

/-- The string around a place that is found. -/
theorem find_split (found : find str pattern pos = some i) :
    str = str.take i ++ pattern ++ str.drop (i + pattern.length) := by
  obtain ⟨-, ⟨rest, stands⟩, -⟩ := find_eq_some found
  have behind : str.drop (i + pattern.length) = rest := by
    rw [← List.drop_drop, ← stands, List.drop_left]
  rw [behind, List.append_assoc, stands, List.take_append_drop]

theorem find_length (found : find str pattern pos = some i) (nonempty : pattern ≠ []) :
    i + pattern.length ≤ str.length := by
  obtain ⟨-, stands, -⟩ := find_eq_some found
  have bound := stands.length_le
  rw [List.length_drop] at bound
  have long := List.length_pos_iff.mpr nonempty
  omega

end GPush.Utility
