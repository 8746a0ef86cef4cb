import Mathlib.Data.List.Rotate
import Mathlib.Data.Nat.ModEq

/-!
# Circular storage

A storage whose last element is followed by its first one, and the elements of it that are
in use.  They are read from the front, and written behind the last one where that does not
cross the end of the storage.
-/

namespace GPush.Containers

universe u

variable {α : Type u} {buf data : List α} {start size place : Nat}

/-- The `size` elements from `start` on. -/
def window (buf : List α) (start size : Nat) : List α := (buf.rotate start).take size

/-- The storage after elements are written at a place. -/
def overwrite (buf : List α) (place : Nat) (data : List α) : List α :=
  buf.take place ++ data ++ buf.drop (place + data.length)

theorem length_window (fits : size ≤ buf.length) : (window buf start size).length = size := by
  rw [window, List.length_take, List.length_rotate, Nat.min_eq_left fits]

@[simp]
theorem window_zero (buf : List α) (start : Nat) : window buf start 0 = [] := by
  rw [window, List.take_zero]

theorem window_mod (buf : List α) (start size : Nat) :
    window buf (start % buf.length) size = window buf start size := by
  rw [window, window, List.rotate_mod]

/-- A window that starts behind the end starts at the front. -/
theorem window_sub (beyond : buf.length ≤ start) :
    window buf (start - buf.length) size = window buf start size := by
  rw [← window_mod buf start, Nat.mod_eq_sub_mod beyond, window_mod]

theorem getElem?_window {i : Nat} (fits : size ≤ buf.length) (inside : i < size) :
    (window buf start size)[i]? = buf[(start + i) % buf.length]? := by
  rw [window, List.getElem?_take_of_lt inside, List.getElem?_rotate (by omega), Nat.add_comm]

/-- The window up to the end of the storage, and from its front on. -/
theorem window_parts (inside : start ≤ buf.length) (fits : size ≤ buf.length) :
    window buf start size =
      (buf.drop start).take size ++ buf.take (size - (buf.length - start)) := by
  have shorter : size - (buf.length - start) ≤ start := by omega
  rw [window, List.rotate_eq_drop_append_take inside, List.take_append, List.length_drop,
    List.take_take, Nat.min_eq_left shorter]

/-! ## Reading -/

theorem take_window (n : Nat) : (window buf start size).take n = window buf start (min n size) := by
  rw [window, List.take_take, window]

theorem drop_window {n : Nat} (bound : n ≤ size) (fits : size ≤ buf.length) :
    (window buf start size).drop n = window buf (start + n) (size - n) := by
  have long : n ≤ (buf.rotate start).length := by
    rw [List.length_rotate]
    omega
  have enough : size - n ≤ ((buf.rotate start).drop n).length := by
    rw [List.length_drop, List.length_rotate]
    omega
  rw [window, window, ← List.rotate_rotate, List.rotate_eq_drop_append_take long,
    List.take_append_of_le_length enough, List.drop_take]

/-! ## Writing -/

theorem length_overwrite (fits : place + data.length ≤ buf.length) :
    (overwrite buf place data).length = buf.length := by
  simp only [overwrite, List.length_append, List.length_take, List.length_drop]
  omega

theorem getElem?_overwrite_of_written {i : Nat} (fits : place + data.length ≤ buf.length)
    (bound : i < data.length) : (overwrite buf place data)[place + i]? = data[i]? := by
  have front : (buf.take place).length = place := by
    rw [List.length_take, Nat.min_eq_left (by omega)]
  rw [overwrite, List.append_assoc, List.getElem?_append_right (by omega), front,
    Nat.add_sub_cancel_left, List.getElem?_append_left bound]

theorem getElem?_overwrite_of_kept {i : Nat} (fits : place + data.length ≤ buf.length)
    (kept : i < place ∨ place + data.length ≤ i) : (overwrite buf place data)[i]? = buf[i]? := by
  have front : (buf.take place).length = place := by
    rw [List.length_take, Nat.min_eq_left (by omega)]
  rcases kept with before | behind
  · rw [overwrite, List.append_assoc, List.getElem?_append_left (by omega),
      List.getElem?_take_of_lt before]
  · have long : (buf.take place ++ data).length = place + data.length := by
      rw [List.length_append, front]
    rw [overwrite, List.getElem?_append_right (by omega), long, List.getElem?_drop]
    congr 1
    omega

/-- A place is not wrapped again before the end of the storage. -/
private theorem mod_add {n d length : Nat} (bound : n % length + d < length) :
    (n + d) % length = n % length + d := by
  rw [← Nat.mod_add_mod, Nat.mod_eq_of_lt bound]

/-- What is written behind the elements in use is used with them. -/
theorem window_overwrite (room : size + data.length ≤ buf.length)
    (fits : (start + size) % buf.length + data.length ≤ buf.length) :
    window (overwrite buf ((start + size) % buf.length) data) start (size + data.length) =
      window buf start size ++ data := by
  have sameLength := length_overwrite fits
  have sizeEq : (window buf start size).length = size := length_window (by omega)
  apply List.ext_getElem?
  intro i
  by_cases inside : i < size + data.length
  · rw [getElem?_window (room.trans_eq sameLength.symm) inside, sameLength]
    by_cases old : i < size
    · -- an element in use is not where the others are written
      have kept : (start + i) % buf.length < (start + size) % buf.length ∨
          (start + size) % buf.length + data.length ≤ (start + i) % buf.length := by
        by_contra written
        have split : (start + i) % buf.length = (start + size) % buf.length +
            ((start + i) % buf.length - (start + size) % buf.length) := by omega
        have within : (start + i) % buf.length - (start + size) % buf.length < data.length := by
          omega
        generalize (start + i) % buf.length - (start + size) % buf.length = d at split within
        have same : start + i ≡ start + (size + d) [MOD buf.length] := by
          rw [Nat.ModEq, split, ← Nat.add_assoc]
          exact (mod_add (by omega)).symm
        have equal := (Nat.ModEq.add_left_cancel' start same).eq_of_lt_of_lt (by omega) (by omega)
        omega
      rw [getElem?_overwrite_of_kept fits kept, List.getElem?_append_left (by omega),
        getElem?_window (by omega) old]
    · rcases Nat.exists_eq_add_of_le (Nat.le_of_not_lt old) with ⟨d, rfl⟩
      have bound : d < data.length := by omega
      have place : (start + (size + d)) % buf.length = (start + size) % buf.length + d := by
        rw [← Nat.add_assoc, mod_add (by omega)]
      rw [place, getElem?_overwrite_of_written fits bound, List.getElem?_append_right (by omega),
        sizeEq, Nat.add_sub_cancel_left]
  · have longWindow : (window (overwrite buf ((start + size) % buf.length) data) start
        (size + data.length)).length = size + data.length :=
      length_window (room.trans_eq sameLength.symm)
    rw [List.getElem?_eq_none (by omega),
      List.getElem?_eq_none (by rw [List.length_append]; omega)]

/-- What is left at the end of the storage goes on at its front. -/
theorem window_overwrite_around {first rest : List α}
    (room : size + first.length + rest.length ≤ buf.length)
    (full : (start + size) % buf.length + first.length = buf.length) :
    window (overwrite (overwrite buf ((start + size) % buf.length) first) 0 rest) start
      (size + first.length + rest.length) = window buf start size ++ first ++ rest := by
  have sameLength : (overwrite buf ((start + size) % buf.length) first).length = buf.length :=
    length_overwrite (Nat.le_of_eq full)
  have front : (start + (size + first.length)) % buf.length = 0 := by
    rw [← Nat.add_assoc, ← Nat.mod_add_mod, full, Nat.mod_self]
  have enough : size + first.length ≤ buf.length := by omega
  have filled : window (overwrite buf ((start + size) % buf.length) first) start
      (size + first.length) = window buf start size ++ first :=
    window_overwrite enough (Nat.le_of_eq full)
  rw [← filled, ← front]
  generalize overwrite buf ((start + size) % buf.length) first = buf' at sameLength
  rw [← sameLength]
  apply window_overwrite
  · omega
  · rw [sameLength, front]
    omega

end GPush.Containers
