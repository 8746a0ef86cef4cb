import GPush.LoopBuf.Frame
import Mathlib.Algebra.Group.Int.Defs
import Mathlib.Algebra.Group.Nat.Defs
import Mathlib.Data.List.TakeWhile

/-!
# Decimal numbers

What `atoi` reads, and what a stream writes for an integer.
-/

namespace GPush.PushServer

open GPush.LoopBuf

/-- The characters of a string without other ones than ASCII. -/
def ascii (s : String) : Bytes := s.toList.map fun c => UInt8.ofNat c.toNat

/-- `isspace`. -/
def isSpace (b : UInt8) : Bool := b == 32 || (decide (9 ≤ b) && decide (b ≤ 13))

/-- `isdigit`. -/
def isDigit (b : UInt8) : Bool := decide (48 ≤ b) && decide (b ≤ 57)

/-- `atoi`, which reads a `long` and keeps its low bits. -/
def atoi (s : Bytes) : Int :=
  let s := s.dropWhile isSpace
  let negative := s.head? = some 45
  let s := if s.head? = some 45 ∨ s.head? = some 43 then s.tail else s
  let n := (s.takeWhile isDigit).foldl (fun (n : Int) d => 10 * n + (d.toNat - 48)) 0
  (max (-2 ^ 63) (min (2 ^ 63 - 1) (if negative then -n else n))).bmod (2 ^ 32)

/-- `operator<<` of a stream, for an integer. -/
def decimal (n : Int) : Bytes :=
  (if n < 0 then [45] else []) ++ (Nat.toDigits 10 n.natAbs).map fun c => UInt8.ofNat c.toNat

/-- The byte of a character. -/
theorem toNat_of_isDigit {c : Char} (digit : c.isDigit = true) :
    (UInt8.ofNat c.toNat).toNat = c.toNat ∧ 48 ≤ c.toNat ∧ c.toNat ≤ 57 := by
  have bounds : 48 ≤ c.toNat ∧ c.toNat ≤ 57 := by
    simp only [Char.isDigit, Bool.and_eq_true, decide_eq_true_eq] at digit
    exact digit
  refine ⟨?_, bounds⟩
  rw [UInt8.toNat_ofNat']
  omega

theorem isDigit_ofNat {c : Char} (digit : c.isDigit = true) :
    isDigit (UInt8.ofNat c.toNat) = true := by
  obtain ⟨same, lower, upper⟩ := toNat_of_isDigit digit
  simp only [isDigit, Bool.and_eq_true, decide_eq_true_eq, UInt8.le_iff_toNat_le, same]
  exact ⟨lower, upper⟩

/-- The digits of a number are read one after the other. -/
theorem foldl_digits (digits : List Char) (all : ∀ c ∈ digits, c.isDigit = true) (acc : Nat) :
    (digits.map fun c => UInt8.ofNat c.toNat).foldl (fun (n : Int) d => 10 * n + (d.toNat - 48))
      acc = Nat.ofDigitChars 10 digits acc := by
  induction digits generalizing acc with
  | nil => simp
  | cons c digits ih =>
      rw [List.forall_mem_cons] at all
      obtain ⟨same, lower, -⟩ := toNat_of_isDigit all.1
      have next : 10 * (acc : Int) + ((c.toNat : Int) - 48) = (10 * acc + (c.toNat - 48) : Nat) := by
        omega
      rw [List.map_cons, List.foldl_cons, Nat.ofDigitChars_cons, same, next]
      exact ih all.2 _

theorem decimal_ne_nil (n : Int) : decimal n ≠ [] := by
  simp [decimal]

/-- A number is written with digits and the sign. -/
theorem mem_decimal {n : Int} {p : UInt8} (member : p ∈ decimal n) :
    p = 45 ∨ isDigit p = true := by
  rw [decimal, List.mem_append, List.mem_map] at member
  rcases member with sign | ⟨c, digit, rfl⟩
  · split_ifs at sign
    · exact Or.inl (List.mem_singleton.mp sign)
    · simp at sign
  · exact Or.inr (isDigit_ofNat (Nat.isDigit_of_mem_toDigits (by decide) (by decide) digit))

/-- A `long` has at most nineteen digits. -/
theorem length_decimal_le {n : Int} (lower : -2 ^ 63 ≤ n) (upper : n < 2 ^ 63) :
    (decimal n).length ≤ 20 := by
  have digits : (Nat.toDigits 10 n.natAbs).length ≤ 19 := by
    rw [Nat.length_toDigits_le_iff (by decide) (by decide)]
    omega
  rw [decimal, List.length_append, List.length_map]
  split <;> simp only [List.length_cons, List.length_nil] <;> omega

theorem isDigit_bounds {p : UInt8} (digit : isDigit p = true) : 48 ≤ p.toNat ∧ p.toNat ≤ 57 := by
  simpa [isDigit, UInt8.le_iff_toNat_le] using digit

theorem isSpace_of_isDigit {p : UInt8} (digit : isDigit p = true) : isSpace p = false := by
  have bounds := isDigit_bounds digit
  rw [Bool.eq_false_iff]
  intro space
  simp only [isSpace, Bool.or_eq_true, Bool.and_eq_true, beq_iff_eq, decide_eq_true_eq,
    UInt8.le_iff_toNat_le] at space
  rcases space with rfl | ⟨-, upper⟩
  · exact absurd bounds.1 (by decide)
  · exact absurd (Nat.le_trans bounds.1 upper) (by decide)

theorem ne_of_isDigit {p q : UInt8} (digit : isDigit p = true) (other : isDigit q = false) :
    p ≠ q := by
  rintro rfl
  rw [digit] at other
  cases other

/-- A number of the type `long` is read, and its low bits are kept. -/
theorem atoi_decimal {n : Int} (lower : -2 ^ 63 ≤ n) (upper : n < 2 ^ 63) :
    atoi (decimal n) = n.bmod (2 ^ 32) := by
  have digits : ∀ c ∈ Nat.toDigits 10 n.natAbs, c.isDigit = true :=
    fun c => Nat.isDigit_of_mem_toDigits (by decide) (by decide)
  have read : ((Nat.toDigits 10 n.natAbs).map fun c => UInt8.ofNat c.toNat).foldl
      (fun (n : Int) d => 10 * n + (d.toNat - 48)) 0 = n.natAbs := by
    have folded := foldl_digits _ digits 0
    rwa [Nat.ofDigitChars_ten_toDigits] at folded
  have allDigits : ∀ p ∈ (Nat.toDigits 10 n.natAbs).map fun c => UInt8.ofNat c.toNat,
      isDigit p = true := by
    intro p member
    obtain ⟨c, digit, rfl⟩ := List.mem_map.mp member
    exact isDigit_ofNat (digits c digit)
  have someDigit : (Nat.toDigits 10 n.natAbs).map (fun c => UInt8.ofNat c.toNat) ≠ [] := by simp
  rw [decimal]
  generalize (Nat.toDigits 10 n.natAbs).map (fun c => UInt8.ofNat c.toNat) = ds at *
  have taken : ds.takeWhile isDigit = ds := List.takeWhile_eq_self_iff.mpr allDigits
  by_cases negative : n < 0
  · have skipped : (45 :: ds).dropWhile isSpace = 45 :: ds := rfl
    have valueEq : max (-2 ^ 63) (min (2 ^ 63 - 1) (-(n.natAbs : Int))) = n := by omega
    simp only [atoi, negative, if_true, List.singleton_append, skipped, List.head?_cons,
      true_or, List.tail_cons, taken, read, valueEq]
  · obtain ⟨d, rest, rfl⟩ := List.exists_cons_of_ne_nil someDigit
    have digit := allDigits d List.mem_cons_self
    have skipped : (d :: rest).dropWhile isSpace = d :: rest := by
      rw [List.dropWhile_cons, isSpace_of_isDigit digit]
      simp
    have notMinus : d ≠ 45 := ne_of_isDigit digit (by decide)
    have notPlus : d ≠ 43 := ne_of_isDigit digit (by decide)
    have valueEq : max (-2 ^ 63) (min (2 ^ 63 - 1) (n.natAbs : Int)) = n := by omega
    simp only [atoi, negative, if_false, List.nil_append, skipped, List.head?_cons,
      Option.some.injEq, notMinus, notPlus, or_self, taken, read, valueEq]

/-- An `int` is read back from its decimal form. -/
theorem atoi_decimal_int {n : Int} (lower : -2 ^ 31 ≤ n) (upper : n < 2 ^ 31) :
    atoi (decimal n) = n := by
  rw [atoi_decimal (by omega) (by omega)]
  apply Int.bmod_eq_of_le <;> omega

end GPush.PushServer
