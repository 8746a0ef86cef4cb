import Mathlib.Algebra.Ring.Defs
import Mathlib.Algebra.Group.Basic
import Mathlib.Logic.Function.Iterate

/-!
# Bytes as polynomials

A byte is the polynomial over the field of two elements that has its bits for coefficients,
modulo `x ^ 8 + x ^ 4 + x ^ 3 + x + 1`.
-/

namespace GPush.Crypt

/-- A byte as an element of the ring of these polynomials. -/
@[ext]
structure Gf256 where
  byte : UInt8
  deriving DecidableEq

namespace Gf256

/-! ## Sums -/

instance : Zero Gf256 := ⟨⟨0⟩⟩

instance : One Gf256 := ⟨⟨1⟩⟩

/-- Coefficients are added without carries. -/
instance : Add Gf256 := ⟨fun a b => ⟨a.byte ^^^ b.byte⟩⟩

instance : Neg Gf256 := ⟨id⟩

@[simp]
theorem byte_add (a b : Gf256) : (a + b).byte = a.byte ^^^ b.byte := rfl

@[simp]
theorem byte_zero : (0 : Gf256).byte = 0 := rfl

@[simp]
theorem byte_one : (1 : Gf256).byte = 1 := rfl

theorem sum_assoc (a b c : Gf256) : a + b + c = a + (b + c) := Gf256.ext (UInt8.xor_assoc _ _ _)

theorem sum_comm (a b : Gf256) : a + b = b + a := Gf256.ext (UInt8.xor_comm _ _)

theorem zero_sum (a : Gf256) : 0 + a = a := Gf256.ext UInt8.zero_xor

theorem sum_zero (a : Gf256) : a + 0 = a := Gf256.ext UInt8.xor_zero

/-- Every element is its own inverse for the sum. -/
theorem sum_self (a : Gf256) : a + a = 0 := Gf256.ext UInt8.xor_self

instance addCommGroup : AddCommGroup Gf256 where
  add_assoc := sum_assoc
  zero_add := zero_sum
  add_zero := sum_zero
  nsmul := nsmulRec
  zsmul := zsmulRec
  neg_add_cancel := sum_self
  add_comm := sum_comm

/-! ## Products -/

/-- The coefficient of `x ^ i`. -/
def bit (a : Gf256) (i : Nat) : Bool := a.byte.toNat.testBit i

/-- The product with `x`. -/
def xtime (a : Gf256) : Gf256 := ⟨a.byte <<< 1⟩ + if a.bit 7 then ⟨0x1b⟩ else 0

/-- The product with the polynomial of the lowest `n` bits of `c`. -/
def scale : Nat → Nat → Gf256 → Gf256
  | 0, _, _ => 0
  | n + 1, c, a => (if c.testBit 0 then a else 0) + scale n (c >>> 1) (xtime a)

instance : Mul Gf256 := ⟨fun a b => scale 8 a.byte.toNat b⟩

/-- A product is a sum of powers of `x`, by the bits of the first factor. -/
theorem mul_def (a b : Gf256) : a * b = scale 8 a.byte.toNat b := rfl

/-- A sum has the bits in which the two differ. -/
theorem bit_add (a b : Gf256) (i : Nat) : (a + b).bit i = (a.bit i ^^ b.bit i) := by
  rw [bit, byte_add, UInt8.toNat_xor, Nat.testBit_xor]
  rfl

theorem if_xor (p q : Bool) (a : Gf256) :
    (if (p ^^ q) then a else 0) = (if p then a else 0) + if q then a else 0 := by
  cases p <;> cases q <;> simp [sum_self]

theorem if_add (p : Bool) (a b : Gf256) :
    (if p then a + b else 0) = (if p then a else 0) + if p then b else 0 := by
  cases p <;> simp

/-- Multiplying by `x` is linear, also where it wraps round. -/
theorem xtime_add (a b : Gf256) : xtime (a + b) = xtime a + xtime b := by
  have shifted : (⟨(a + b).byte <<< 1⟩ : Gf256) = ⟨a.byte <<< 1⟩ + ⟨b.byte <<< 1⟩ :=
    Gf256.ext UInt8.shiftLeft_xor
  rw [xtime, bit_add, if_xor, shifted, xtime, xtime, add_add_add_comm]

theorem xtime_zero : xtime 0 = 0 := rfl

theorem xtime_iterate_add (a b : Gf256) (i : Nat) :
    xtime^[i] (a + b) = xtime^[i] a + xtime^[i] b := by
  induction i generalizing a b with
  | zero => rfl
  | succ i ih => rw [Function.iterate_succ_apply, xtime_add, ih]; rfl

/-- The multiples that `scale` adds up are linear in the element. -/
theorem scale_add (n c : Nat) (a b : Gf256) : scale n c (a + b) = scale n c a + scale n c b := by
  induction n generalizing c a b with
  | zero => exact (zero_sum 0).symm
  | succ n ih => rw [scale, xtime_add, ih, if_add, scale, scale, add_add_add_comm]

/-- They are linear in the bits that choose them, too. -/
theorem scale_xor (n c d : Nat) (a : Gf256) : scale n (c ^^^ d) a = scale n c a + scale n d a := by
  induction n generalizing c d a with
  | zero => exact (zero_sum 0).symm
  | succ n ih =>
      rw [scale, Nat.testBit_xor, Nat.shiftRight_xor_distrib, ih, if_xor, scale, scale,
        add_add_add_comm]

theorem product_add (a b c : Gf256) : a * (b + c) = a * b + a * c := scale_add _ _ _ _

theorem add_product (a b c : Gf256) : (a + b) * c = a * c + b * c := by
  rw [mul_def, byte_add, UInt8.toNat_xor, scale_xor]
  rfl

theorem zero_product (a : Gf256) : 0 * a = 0 := by
  have twice := add_product 0 0 a
  rw [zero_sum] at twice
  exact left_eq_add.mp twice

theorem product_zero (a : Gf256) : a * 0 = 0 := by
  have twice := product_add a 0 0
  rw [zero_sum] at twice
  exact left_eq_add.mp twice

/-- What holds for the numbers below 256 holds for all elements. -/
theorem forall_byte {p : UInt8 → Prop} (all : ∀ n < 256, p (UInt8.ofNat n)) (a : UInt8) : p a := by
  have holds := all a.toNat a.toNat_lt
  rwa [UInt8.ofNat_toNat] at holds

/-- What holds of 256 elements holds of all. -/
theorem of_bytes {p : Gf256 → Prop} (all : ∀ n < 256, p ⟨UInt8.ofNat n⟩) (a : Gf256) : p a := by
  have holds := all a.byte.toNat a.byte.toNat_lt
  rwa [UInt8.ofNat_toNat] at holds

theorem product_one (a : Gf256) : a * 1 = a := by
  revert a
  apply of_bytes
  decide +kernel

theorem one_product (a : Gf256) : 1 * a = a := by
  simp [mul_def, scale]

/-- Multiplying by `x` may be done before or after. -/
theorem scale_xtime (n c : Nat) (a : Gf256) : scale n c (xtime a) = xtime (scale n c a) := by
  induction n generalizing c a with
  | zero => exact xtime_zero.symm
  | succ n ih =>
      rw [scale, scale, ih, xtime_add]
      split
      · rfl
      · rw [xtime_zero]

/-- `x` can be taken out of a product. -/
theorem product_xtime (a b : Gf256) : a * xtime b = xtime (a * b) := scale_xtime 8 _ b

theorem product_xtime_iterate (a b : Gf256) (i : Nat) : a * xtime^[i] b = xtime^[i] (a * b) := by
  induction i generalizing b with
  | zero => rfl
  | succ i ih => rw [Function.iterate_succ_apply, Function.iterate_succ_apply, ih, product_xtime]

section Induction

variable {p : Gf256 → Prop} (zero : p 0) (add : ∀ a b, p a → p b → p (a + b))

include zero add

/-- What holds of `0` and of the powers, and is kept by sums, holds of a multiple. -/
theorem scale_induct (n c : Nat) (a : Gf256) (powers : ∀ i < n, p (xtime^[i] a)) :
    p (scale n c a) := by
  induction n generalizing c a with
  | zero => exact zero
  | succ n ih =>
      apply add
      · split
        · exact powers 0 (Nat.succ_pos n)
        · exact zero
      · exact ih (c >>> 1) (xtime a) fun i below => powers (i + 1) (Nat.succ_lt_succ below)

/-- What holds for the powers of `x` and for sums holds for all elements. -/
theorem induct (powers : ∀ i < 8, p (xtime^[i] 1)) (a : Gf256) : p a := by
  rw [← product_one a]
  exact scale_induct zero add 8 a.byte.toNat 1 powers

end Induction

/-- By linearity the products of powers of `x` are enough. -/
theorem product_comm (a b : Gf256) : a * b = b * a := by
  induction a using induct with
  | zero => rw [zero_product, product_zero]
  | add a c first second => rw [add_product, product_add, first, second]
  | powers i iBelow =>
      rw [product_xtime_iterate, product_one]
      induction b using induct with
      | zero => rw [product_zero, Function.iterate_fixed xtime_zero]
      | add b c first second => rw [product_add, xtime_iterate_add, first, second]
      | powers j jBelow =>
          rw [product_xtime_iterate, product_one, ← Function.iterate_add_apply,
            ← Function.iterate_add_apply, Nat.add_comm]

theorem xtime_iterate_product (a b : Gf256) (i : Nat) : xtime^[i] a * b = xtime^[i] (a * b) := by
  rw [product_comm, product_xtime_iterate, product_comm]

/-- By linearity in the first factor its powers of `x` are enough. -/
theorem product_assoc (a b c : Gf256) : a * b * c = a * (b * c) := by
  induction a using induct with
  | zero => simp only [zero_product]
  | add a d first second => simp only [add_product, first, second]
  | powers i iBelow => simp only [xtime_iterate_product, one_product]

instance commRing : CommRing Gf256 where
  __ := addCommGroup
  mul_assoc := product_assoc
  one_mul := one_product
  mul_one := product_one
  left_distrib := product_add
  right_distrib := add_product
  zero_mul := zero_product
  mul_zero := product_zero
  mul_comm := product_comm

/-! ## Products with small polynomials -/

theorem two_product (a : Gf256) : ⟨0x02⟩ * a = xtime a := by
  simp [mul_def, scale]

theorem three_product (a : Gf256) : ⟨0x03⟩ * a = a + xtime a := by
  simp [mul_def, scale]

theorem nine_product (a : Gf256) : ⟨0x09⟩ * a = a + xtime (xtime (xtime a)) := by
  simp [mul_def, scale]

theorem eleven_product (a : Gf256) : ⟨0x0b⟩ * a = a + (xtime a + xtime (xtime (xtime a))) := by
  simp [mul_def, scale]

theorem thirteen_product (a : Gf256) :
    ⟨0x0d⟩ * a = a + (xtime (xtime a) + xtime (xtime (xtime a))) := by
  simp [mul_def, scale]

theorem fourteen_product (a : Gf256) :
    ⟨0x0e⟩ * a = xtime a + (xtime (xtime a) + xtime (xtime (xtime a))) := by
  simp [mul_def, scale]

end Gf256

end GPush.Crypt
