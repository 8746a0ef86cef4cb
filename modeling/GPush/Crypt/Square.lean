import GPush.Crypt.Alternating
import GPush.Crypt.Gf256
import Mathlib.Algebra.Group.Fin.Basic
import Mathlib.Algebra.GroupWithZero.Units.Basic
import Mathlib.LinearAlgebra.Matrix.Notation
import Mathlib.LinearAlgebra.Matrix.SemiringInverse

/-!
# Squares of bytes

The layers of the advanced encryption standard: every byte of a square is substituted, the rows are
shifted, and the columns are multiplied with a matrix.  The standard expands a key word by word.
-/

namespace GPush.Crypt

/-- Four columns of four bytes. -/
abbrev Square : Type := Fin 4 → Fin 4 → Gf256

/-- What a column is multiplied with. -/
def mixMatrix : Matrix (Fin 4) (Fin 4) Gf256 :=
  !![⟨0x02⟩, ⟨0x03⟩, ⟨0x01⟩, ⟨0x01⟩;
     ⟨0x01⟩, ⟨0x02⟩, ⟨0x03⟩, ⟨0x01⟩;
     ⟨0x01⟩, ⟨0x01⟩, ⟨0x02⟩, ⟨0x03⟩;
     ⟨0x03⟩, ⟨0x01⟩, ⟨0x01⟩, ⟨0x02⟩]

/-- The inverse matrix. -/
def unmixMatrix : Matrix (Fin 4) (Fin 4) Gf256 :=
  !![⟨0x0e⟩, ⟨0x0b⟩, ⟨0x0d⟩, ⟨0x09⟩;
     ⟨0x09⟩, ⟨0x0e⟩, ⟨0x0b⟩, ⟨0x0d⟩;
     ⟨0x0d⟩, ⟨0x09⟩, ⟨0x0e⟩, ⟨0x0b⟩;
     ⟨0x0b⟩, ⟨0x0d⟩, ⟨0x09⟩, ⟨0x0e⟩]

/-- The two matrices are inverse to each other, in all sixteen entries. -/
theorem unmixMatrix_mul_mixMatrix : unmixMatrix * mixMatrix = 1 := by
  decide +kernel

theorem mixMatrix_mul_unmixMatrix : mixMatrix * unmixMatrix = 1 :=
  mul_eq_one_comm.mp unmixMatrix_mul_mixMatrix

namespace Square

/-- `MixColumns`. -/
def mixColumns (s : Square) : Square := fun c => mixMatrix.mulVec (s c)

/-- `InvMixColumns`. -/
def unmixColumns (s : Square) : Square := fun c => unmixMatrix.mulVec (s c)

/-- `ShiftRows`. -/
def shiftRows (s : Square) : Square := fun c r => s (c + r) r

/-- `InvShiftRows`. -/
def unshiftRows (s : Square) : Square := fun c r => s (c - r) r

/-- `SubBytes`. -/
def subBytes (sub : Gf256 → Gf256) (s : Square) : Square := fun c r => sub (s c r)

/-- Mixing the columns can be undone. -/
theorem unmixColumns_mixColumns (s : Square) : s.mixColumns.unmixColumns = s := by
  funext c
  rw [unmixColumns, mixColumns, Matrix.mulVec_mulVec, unmixMatrix_mul_mixMatrix, Matrix.one_mulVec]

theorem mixColumns_unmixColumns (s : Square) : s.unmixColumns.mixColumns = s := by
  funext c
  rw [mixColumns, unmixColumns, Matrix.mulVec_mulVec, mixMatrix_mul_unmixMatrix, Matrix.one_mulVec]

/-- Mixing the columns is linear, so a mixed key can be added after it. -/
theorem mixColumns_add (s t : Square) : mixColumns (s + t) = s.mixColumns + t.mixColumns := by
  funext c
  exact Matrix.mulVec_add _ _ _

theorem unshiftRows_shiftRows (s : Square) : s.shiftRows.unshiftRows = s := by
  funext c r
  rw [unshiftRows, shiftRows, sub_add_cancel]

theorem shiftRows_unshiftRows (s : Square) : s.unshiftRows.shiftRows = s := by
  funext c r
  rw [shiftRows, unshiftRows, add_sub_cancel_right]

variable (sub : Equiv.Perm Gf256)

/-- The bytes may be substituted back after the rows are shifted back. -/
theorem unsubstitute_substitute (s : Square) :
    subBytes sub.symm (s.subBytes sub).shiftRows.unshiftRows = s := by
  rw [unshiftRows_shiftRows]
  funext c r
  exact sub.symm_apply_apply _

theorem substitute_unsubstitute (s : Square) :
    ((subBytes sub.symm s.unshiftRows).subBytes sub).shiftRows = s := by
  have bytes : (subBytes sub.symm s.unshiftRows).subBytes sub = s.unshiftRows := by
    funext c r
    exact sub.apply_symm_apply _
  rw [bytes, shiftRows_unshiftRows]

/-- The two layers for a substitution of bytes. -/
def layers : Layers Square where
  substitute :=
    { toFun := fun s => (s.subBytes sub).shiftRows
      invFun := fun s => subBytes sub.symm s.unshiftRows
      left_inv := unsubstitute_substitute sub
      right_inv := substitute_unsubstitute sub }
  mix :=
    { toFun := mixColumns
      invFun := unmixColumns
      left_inv := unmixColumns_mixColumns
      right_inv := mixColumns_unmixColumns
      map_add' := mixColumns_add }

/-- A round of the layers is the round of the standard. -/
theorem round_layers (s key : Square) :
    (layers sub).round s key = (s.subBytes sub).shiftRows.mixColumns + key := rfl

/-- A round of the inverse layers has the matrix at its end, too. -/
theorem round_symm_layers (s key : Square) :
    (layers sub).symm.round s key = (subBytes sub.symm s.unshiftRows).unmixColumns + key := rfl

/-! ## The standard -/

/-- The affine map of the bits of a byte. -/
def affine (a : Gf256) : Gf256 :=
  let b := a.byte
  ⟨b ^^^ (b <<< 1 ||| b >>> 7) ^^^ (b <<< 2 ||| b >>> 6) ^^^ (b <<< 3 ||| b >>> 5) ^^^
    (b <<< 4 ||| b >>> 4) ^^^ 0x63⟩

/-- The substitution of a byte: its inverse, or zero, and the affine map. -/
noncomputable def subByte (a : Gf256) : Gf256 := affine (Ring.inverse a)

/-- `Rcon[i]`. -/
def roundConstant (i : Nat) : Fin 4 → Gf256 := ![Gf256.xtime^[i - 1] 1, 0, 0, 0]

/-- The last word of the key expansion as it enters the next one. -/
noncomputable def entering (nk : Nat) (w : List (Fin 4 → Gf256)) : Fin 4 → Gf256 :=
  let temp := w.getD (w.length - 1) 0
  if w.length % nk = 0 then
    (fun r => subByte (temp (r + 1))) + roundConstant (w.length / nk)
  else if 6 < nk ∧ w.length % nk = 4 then
    fun r => subByte (temp r)
  else
    temp

/-- The key expansion with one word more. -/
noncomputable def expand (nk : Nat) (w : List (Fin 4 → Gf256)) : List (Fin 4 → Gf256) :=
  w ++ [w.getD (w.length - nk) 0 + entering nk w]

/-- The round key of four words. -/
def keyAt (w : List (Fin 4 → Gf256)) (i : Nat) : Square := fun c => w.getD (4 * i + c) 0

/-- The cipher for a key of `nk` words. -/
noncomputable def encrypted (nk : Nat) (key : List (Fin 4 → Gf256)) (s : Square) : Square :=
  let w := (expand nk)^[3 * nk + 28] key
  let rounds := nk + 6
  let inner := (List.range' 1 (rounds - 1)).foldl
    (fun s i => (s.subBytes subByte).shiftRows.mixColumns + keyAt w i) (s + keyAt w 0)
  (inner.subBytes subByte).shiftRows + keyAt w rounds

end Square

end GPush.Crypt
