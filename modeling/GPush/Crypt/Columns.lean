import GPush.Crypt.Gf256
import Mathlib.LinearAlgebra.Matrix.Notation
import Mathlib.Tactic.FinCases

/-!
# Words as columns of bytes

A word of 32 bits is a column of four bytes, the highest one first.
-/

namespace GPush.Crypt

/-- The bytes of a word. -/
def column (w : UInt32) : Fin 4 → Gf256 :=
  ![⟨(w >>> 24).toUInt8⟩, ⟨(w >>> 16).toUInt8⟩, ⟨(w >>> 8).toUInt8⟩, ⟨w.toUInt8⟩]

/-- The word of four bytes. -/
def wordOf (b0 b1 b2 b3 : UInt8) : UInt32 :=
  (b0.toUInt32 <<< 24) ^^^ (b1.toUInt32 <<< 16) ^^^ (b2.toUInt32 <<< 8) ^^^ b3.toUInt32

/-- The exclusive or of two words adds their columns. -/
theorem column_xor (a b : UInt32) : column (a ^^^ b) = column a + column b := by
  funext r
  fin_cases r <;> apply Gf256.ext <;>
    simp [column, UInt32.shiftRight_xor, UInt32.toUInt8_xor]

/-- A byte of a word, in numbers. -/
theorem toNat_byte (w : UInt32) {n : UInt32} (small : n.toNat < 32) :
    (w >>> n).toUInt8.toNat = w.toNat / 2 ^ n.toNat % 256 := by
  rw [UInt32.toNat_toUInt8, UInt32.toNat_shiftRight, Nat.mod_eq_of_lt small,
    Nat.shiftRight_eq_div_pow]

/-- A word is given by its column. -/
theorem column_injective : Function.Injective column := by
  intro a b same
  have at0 : (a >>> 24).toUInt8.toNat = (b >>> 24).toUInt8.toNat :=
    congrArg (fun c => c.byte.toNat) (congrFun same 0)
  have at1 : (a >>> 16).toUInt8.toNat = (b >>> 16).toUInt8.toNat :=
    congrArg (fun c => c.byte.toNat) (congrFun same 1)
  have at2 : (a >>> 8).toUInt8.toNat = (b >>> 8).toUInt8.toNat :=
    congrArg (fun c => c.byte.toNat) (congrFun same 2)
  have at3 : a.toUInt8.toNat = b.toUInt8.toNat :=
    congrArg (fun c => c.byte.toNat) (congrFun same 3)
  rw [toNat_byte _ (by decide), toNat_byte _ (by decide)] at at0 at1 at2
  rw [UInt32.toNat_toUInt8, UInt32.toNat_toUInt8] at at3
  apply UInt32.toNat_inj.mp
  have aBound := a.toNat_lt
  have bBound := b.toNat_lt
  simp at at0 at1 at2 at3
  omega

theorem column_shifted (b : UInt8) :
    column (b.toUInt32 <<< 24) = ![⟨b⟩, 0, 0, 0] ∧ column (b.toUInt32 <<< 16) = ![0, ⟨b⟩, 0, 0] ∧
      column (b.toUInt32 <<< 8) = ![0, 0, ⟨b⟩, 0] ∧ column b.toUInt32 = ![0, 0, 0, ⟨b⟩] := by
  have small := b.toNat_lt
  refine ⟨?_, ?_, ?_, ?_⟩ <;> funext r <;> fin_cases r <;> apply Gf256.ext <;>
    apply UInt8.toNat_inj.mp <;> simp [column, Nat.shiftLeft_eq, Nat.shiftRight_eq_div_pow] <;> omega

/-- The column of four bytes has them from top to bottom. -/
theorem column_wordOf (b0 b1 b2 b3 : UInt8) :
    column (wordOf b0 b1 b2 b3) = ![⟨b0⟩, ⟨b1⟩, ⟨b2⟩, ⟨b3⟩] := by
  obtain ⟨first, -⟩ := column_shifted b0
  obtain ⟨-, second, -⟩ := column_shifted b1
  obtain ⟨-, -, third, -⟩ := column_shifted b2
  obtain ⟨-, -, -, fourth⟩ := column_shifted b3
  rw [wordOf, column_xor, column_xor, column_xor, first, second, third, fourth]
  simp

end GPush.Crypt
