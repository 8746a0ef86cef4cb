import GPush.LoopBuf.Frame
import Mathlib.Algebra.Order.Group.Nat
import Mathlib.Data.Nat.Bits

/-!
# Numbers in base 128

Seven bits a byte, the least significant ones first; every byte but the last has its high
bit set.  A reader is given the most bytes that a number may take.
-/

namespace GPush.Protobuf

/-- The shortest code of a number. -/
def base128 (n : Nat) : Bytes :=
  if n < 128 then [UInt8.ofNat n] else UInt8.ofNat (n % 128 + 128) :: base128 (n / 128)
termination_by n
decreasing_by omega

/-- The number that starts the input, on at most `k` bytes, and what is behind it. -/
def readBase128 : Nat → Bytes → Option (Nat × Bytes)
  | 0, _ => none
  | _ + 1, [] => none
  | k + 1, b :: bs =>
      if b.toNat < 128 then
        some (b.toNat, bs)
      else
        (readBase128 k bs).map fun (n, rest) => (b.toNat % 128 + 128 * n, rest)

theorem base128_of_lt {n : Nat} (small : n < 128) : base128 n = [UInt8.ofNat n] := by
  rw [base128, if_pos small]

theorem base128_of_le {n : Nat} (large : 128 ≤ n) :
    base128 n = UInt8.ofNat (n % 128 + 128) :: base128 (n / 128) := by
  rw [base128, if_neg (by omega)]

theorem base128_ne_nil (n : Nat) : base128 n ≠ [] := by
  rw [base128]
  split <;> simp

theorem length_base128_pos (n : Nat) : 0 < (base128 n).length :=
  List.length_pos_iff.mpr (base128_ne_nil n)

theorem length_base128_of_lt {n : Nat} (small : n < 128) : (base128 n).length = 1 := by
  rw [base128_of_lt small]
  rfl

/-- A number below `128 ^ (k + 1)` takes at most `k + 1` bytes. -/
theorem length_base128_le {k n : Nat} (below : n < 128 ^ (k + 1)) : (base128 n).length ≤ k + 1 := by
  induction k generalizing n with
  | zero => exact Nat.le_of_eq (length_base128_of_lt (by omega))
  | succ k ih =>
      by_cases small : n < 128
      · rw [length_base128_of_lt small]
        omega
      · have below' : n / 128 < 128 ^ (k + 1) := by
          rw [Nat.div_lt_iff_lt_mul (by omega), ← Nat.pow_succ]
          exact below
        have short := ih below'
        rw [base128_of_le (by omega), List.length_cons]
        omega

/-- A number that is not below `128 ^ k` takes more than `k` bytes. -/
theorem lt_length_base128 {k n : Nat} (above : 128 ^ k ≤ n) : k < (base128 n).length := by
  induction k generalizing n with
  | zero => exact length_base128_pos n
  | succ k ih =>
      have positive : 0 < 128 ^ k := Nat.pow_pos (by omega)
      have above' : 128 ^ k ≤ n / 128 := by
        rw [Nat.le_div_iff_mul_le (by omega), ← Nat.pow_succ]
        exact above
      have long := ih above'
      rw [base128_of_le (by rw [Nat.pow_succ] at above; omega), List.length_cons]
      omega

/-! ## Reading -/

theorem readBase128_last {b : UInt8} (last : b.toNat < 128) (k : Nat) (bs : Bytes) :
    readBase128 (k + 1) (b :: bs) = some (b.toNat, bs) := by
  rw [readBase128, if_pos last]

theorem readBase128_more {b : UInt8} (more : 128 ≤ b.toNat) (k : Nat) (bs : Bytes) :
    readBase128 (k + 1) (b :: bs) =
      (readBase128 k bs).map fun (n, rest) => (b.toNat % 128 + 128 * n, rest) := by
  rw [readBase128, if_neg (by omega)]

/-- Reading a code gives the number back and leaves what is behind it. -/
theorem readBase128_base128 {k n : Nat} (below : n < 128 ^ (k + 1)) (rest : Bytes) :
    readBase128 (k + 1) (base128 n ++ rest) = some (n, rest) := by
  induction k generalizing n with
  | zero =>
      have small : n < 128 := by omega
      have byte : (UInt8.ofNat n).toNat = n := by
        simp
        omega
      rw [base128_of_lt small, List.singleton_append, readBase128_last (by omega), byte]
  | succ k ih =>
      by_cases small : n < 128
      · have byte : (UInt8.ofNat n).toNat = n := by
          simp
          omega
        rw [base128_of_lt small, List.singleton_append, readBase128_last (by omega), byte]
      · have byte : (UInt8.ofNat (n % 128 + 128)).toNat = n % 128 + 128 := by
          simp
          omega
        have below' : n / 128 < 128 ^ (k + 1) := by
          rw [Nat.div_lt_iff_lt_mul (by omega), ← Nat.pow_succ]
          exact below
        have value : (n % 128 + 128) % 128 + 128 * (n / 128) = n := by omega
        rw [base128_of_le (by omega), List.cons_append, readBase128_more (by omega), ih below',
          Option.map_some, byte]
        exact congrArg (fun value => some (value, rest)) value

/-- What has been read is the front of the input, and its last byte ends the number. -/
theorem readBase128_split {k n : Nat} {bs rest : Bytes} (read : readBase128 k bs = some (n, rest)) :
    ∃ used, bs = used ++ rest ∧ used ≠ [] ∧ used.length ≤ k ∧ n < 128 ^ used.length ∧
      ∀ more, readBase128 k (used ++ more) = some (n, more) := by
  induction k generalizing bs n with
  | zero => simp [readBase128] at read
  | succ k ih =>
      cases bs with
      | nil => simp [readBase128] at read
      | cons b bs =>
          by_cases last : b.toNat < 128
          · rw [readBase128_last last] at read
            simp only [Option.some.injEq, Prod.mk.injEq] at read
            obtain ⟨rfl, rfl⟩ := read
            refine ⟨[b], rfl, by simp, by simp, by simpa using last, fun more => ?_⟩
            rw [List.singleton_append, readBase128_last last]
          · rw [readBase128_more (by omega)] at read
            obtain ⟨⟨m, rest'⟩, later, value⟩ := Option.map_eq_some_iff.mp read
            simp only [Prod.mk.injEq] at value
            obtain ⟨rfl, rfl⟩ := value
            obtain ⟨used, rfl, -, short, below, again⟩ := ih later
            refine ⟨b :: used, rfl, by simp, by simpa using short, ?_, fun more => ?_⟩
            · rw [List.length_cons, Nat.pow_succ]
              omega
            · rw [List.cons_append, readBase128_more (by omega), again, Option.map_some]

/-- What is behind a number is shorter than the input. -/
theorem length_readBase128 {k n : Nat} {bs rest : Bytes}
    (read : readBase128 k bs = some (n, rest)) : rest.length < bs.length := by
  obtain ⟨used, rfl, nonempty, -⟩ := readBase128_split read
  have := List.length_pos_iff.mpr nonempty
  rw [List.length_append]
  omega

/-- More input leaves the number as it is. -/
theorem readBase128_append {k n : Nat} {bs rest : Bytes}
    (read : readBase128 k bs = some (n, rest)) (more : Bytes) :
    readBase128 k (bs ++ more) = some (n, rest ++ more) := by
  obtain ⟨used, rfl, -, -, -, again⟩ := readBase128_split read
  rw [List.append_assoc]
  exact again _

end GPush.Protobuf
