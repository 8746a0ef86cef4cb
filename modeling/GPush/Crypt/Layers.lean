import GPush.Crypt.Cipher
import GPush.Crypt.Square

/-!
# The rounds are the layers

What a round that looks up the tables does to a state is what the layers do to its square of bytes.
-/

namespace GPush.Crypt

open GPush.Codec

/-- The square of a state, or of a round key. -/
def Words.square (s : Words) : Square := ![column s.s0, column s.s1, column s.s2, column s.s3]

/-- Four words are given by their sixteen bytes. -/
theorem Words.square_injective : Function.Injective Words.square := by
  intro s t same
  apply Words.ext
  · exact column_injective (congrFun same 0)
  · exact column_injective (congrFun same 1)
  · exact column_injective (congrFun same 2)
  · exact column_injective (congrFun same 3)

/-- Adding a key to the words is adding it to the square. -/
theorem Words.square_xor (s k : Words) : (s.xor k).square = s.square + k.square := by
  funext c
  fin_cases c <;> exact column_xor _ _

/-- The substitution of a byte. -/
def substitution : Equiv.Perm Gf256 where
  toFun a := ⟨sbox a.byte⟩
  invFun a := ⟨sboxInv a.byte⟩
  left_inv a := Gf256.ext (sboxInv_sbox a.byte)
  right_inv a := Gf256.ext (sbox_sboxInv a.byte)

/-- `unaffine` is the inverse of the affine map. -/
theorem affine_unaffine (y : UInt8) : Square.affine ⟨unaffine y⟩ = ⟨y⟩ := by
  revert y
  apply Gf256.forall_byte
  decide +kernel

theorem substitution_zero : substitution 0 = Square.affine 0 := by
  decide +kernel

/-- The table of substitutions is the one of the standard. -/
theorem substitution_eq (a : Gf256) : substitution a = Square.subByte a := by
  by_cases zero : a = 0
  · subst zero
    rw [Square.subByte, Ring.inverse_zero]
    exact substitution_zero
  · have product : a * ⟨unaffine (sbox a.byte)⟩ = 1 :=
      product_unaffine_sbox fun byteZero => zero (Gf256.ext byteZero)
    have inverse : Ring.inverse a = ⟨unaffine (sbox a.byte)⟩ := by
      calc
        Ring.inverse a = Ring.inverse a * (a * ⟨unaffine (sbox a.byte)⟩) := by
          rw [product, mul_one]
        _ = ⟨unaffine (sbox a.byte)⟩ := by
          rw [← mul_assoc, Ring.inverse_mul_cancel a (.of_mul_eq_one _ product), one_mul]
    rw [Square.subByte, inverse]
    exact (affine_unaffine _).symm

/-! ## Tables -/

/-- The words of `Te4` and `Td4` have one byte four times. -/
theorem column_repeated (w : UInt32) : column (repeated w) = fun _ => ⟨w.toUInt8⟩ := by
  rw [repeated, column_wordOf]
  funext r
  fin_cases r <;> rfl

/-- A word that is turned has its column turned. -/
theorem column_turned (w : UInt32) : column (turned w) = fun r => column w (r - 1) := by
  rw [turned, column_wordOf]
  funext r
  fin_cases r <;> rfl

/-- The words of `Te0` are multiples of the first column of the matrix. -/
theorem column_stirred (w : UInt32) :
    column (stirred w) = fun r => mixMatrix r 0 * ⟨w.toUInt8⟩ := by
  rw [stirred, column_wordOf]
  funext r
  fin_cases r
  · exact (Gf256.two_product _).symm
  · exact (Gf256.one_product _).symm
  · exact (Gf256.one_product _).symm
  · exact (Gf256.three_product _).symm

/-- Those of `Td0` are multiples of the first column of the inverse matrix. -/
theorem column_unstirred (w : UInt32) :
    column (unstirred w) = fun r => unmixMatrix r 0 * ⟨w.toUInt8⟩ := by
  rw [unstirred, column_wordOf]
  funext r
  fin_cases r
  · exact (Gf256.fourteen_product _).symm
  · exact (Gf256.nine_product _).symm
  · exact (Gf256.thirteen_product _).symm
  · exact (Gf256.eleven_product _).symm

/-- Each column of the matrix is the one before, turned. -/
theorem circulant_mixMatrix (r j : Fin 4) : mixMatrix (r - 1) j = mixMatrix r (j + 1) := by
  revert r j
  decide

theorem circulant_unmixMatrix (r j : Fin 4) : unmixMatrix (r - 1) j = unmixMatrix r (j + 1) := by
  revert r j
  decide

/-- A table whose entries are the products of what `f` makes of a byte with a column of a matrix. -/
def Holds (table : List UInt32) (m : Matrix (Fin 4) (Fin 4) Gf256) (j : Fin 4)
    (f : UInt8 → UInt8) : Prop :=
  table.length = 256 ∧ ∀ x, column (look table x) = fun r => m r j * ⟨f x⟩

/-- A table of turned words is for the next column of a circulant matrix. -/
theorem Holds.turned {table next : List UInt32} {m : Matrix (Fin 4) (Fin 4) Gf256} {j : Fin 4}
    {f : UInt8 → UInt8} (holds : Holds table m j f) (eq : next = table.map GPush.Crypt.turned)
    (circulant : ∀ r j, m (r - 1) j = m r (j + 1)) : Holds next m (j + 1) f := by
  refine ⟨by rw [eq, List.length_map, holds.1], fun x => ?_⟩
  rw [eq, look_map holds.1, column_turned, holds.2]
  funext r
  exact congrArg (· * _) (circulant r j)

/-- The four tables for encrypting have the four columns of the matrix. -/
theorem holds_te0 : Holds te0 mixMatrix 0 sbox := by
  refine ⟨by rw [te0_stirred, List.length_map, length_te4], fun x => ?_⟩
  rw [te0_stirred, look_map length_te4]
  exact column_stirred _

theorem holds_te1 : Holds te1 mixMatrix 1 sbox := holds_te0.turned te1_turned circulant_mixMatrix

theorem holds_te2 : Holds te2 mixMatrix 2 sbox := holds_te1.turned te2_turned circulant_mixMatrix

theorem holds_te3 : Holds te3 mixMatrix 3 sbox := holds_te2.turned te3_turned circulant_mixMatrix

/-- The four tables for decrypting have the four columns of its inverse. -/
theorem holds_td0 : Holds td0 unmixMatrix 0 sboxInv := by
  refine ⟨by rw [td0_unstirred, List.length_map, length_td4], fun x => ?_⟩
  rw [td0_unstirred, look_map length_td4]
  exact column_unstirred _

theorem holds_td1 : Holds td1 unmixMatrix 1 sboxInv :=
  holds_td0.turned td1_turned circulant_unmixMatrix

theorem holds_td2 : Holds td2 unmixMatrix 2 sboxInv :=
  holds_td1.turned td2_turned circulant_unmixMatrix

theorem holds_td3 : Holds td3 unmixMatrix 3 sboxInv :=
  holds_td2.turned td3_turned circulant_unmixMatrix

/-! ## Full rounds -/

/-- A sum of entries is a product with the matrix. -/
theorem column_fullWord {t0 t1 t2 t3 : List UInt32} {m : Matrix (Fin 4) (Fin 4) Gf256}
    {f : UInt8 → UInt8} (holds0 : Holds t0 m 0 f) (holds1 : Holds t1 m 1 f)
    (holds2 : Holds t2 m 2 f) (holds3 : Holds t3 m 3 f) (a b c d key : UInt32) :
    column (fullWord t0 t1 t2 t3 a b c d key) =
      m.mulVec ![⟨f (column a 0).byte⟩, ⟨f (column b 1).byte⟩, ⟨f (column c 2).byte⟩,
        ⟨f (column d 3).byte⟩] + column key := by
  rw [fullWord, column_xor, column_xor, column_xor, column_xor, holds0.2, holds1.2, holds2.2,
    holds3.2]
  funext r
  simp [Matrix.mulVec, dotProduct, Fin.sum_univ_four, column]

/-- A round of look-ups is a round of the standard. -/
theorem square_encryptRound (s k : Words) :
    (encryptRound s k).square = (Square.layers substitution).round s.square k.square := by
  funext c
  rw [Square.round_layers]
  fin_cases c <;>
    refine (column_fullWord holds_te0 holds_te1 holds_te2 holds_te3 _ _ _ _ _).trans
      (congrArg (mixMatrix.mulVec · + _) ?_) <;>
    funext r <;> fin_cases r <;> rfl

/-- A round of look-ups for decrypting is a round of the inverse layers. -/
theorem square_decryptRound (s k : Words) :
    (decryptRound s k).square = (Square.layers substitution).symm.round s.square k.square := by
  funext c
  rw [Square.round_symm_layers]
  fin_cases c <;>
    refine (column_fullWord holds_td0 holds_td1 holds_td2 holds_td3 _ _ _ _ _).trans
      (congrArg (unmixMatrix.mulVec · + _) ?_) <;>
    funext r <;> fin_cases r <;> rfl

/-! ## Last rounds -/

theorem byte_column_and (a b : UInt32) (r : Fin 4) :
    (column (a &&& b) r).byte = (column a r).byte &&& (column b r).byte := by
  fin_cases r <;> simp [column, UInt32.shiftRight_and, UInt32.toUInt8_and]

theorem and_full (x : UInt8) : x &&& 0xff = x := UInt8.and_neg_one

/-- A mask picks one of the four equal bytes. -/
theorem column_masked {table : List UInt32} (same : ∀ x, look table x = repeated (look table x))
    (x : UInt8) (mask : UInt32) (r : Fin 4) :
    (column (masked table x mask) r).byte =
      (look table x).toUInt8 &&& (column mask r).byte := by
  have entry := congrFun ((congrArg column (same x)).trans (column_repeated _)) r
  rw [masked, byte_column_and, entry]

theorem column_masks : column 0xff000000 = ![⟨0xff⟩, 0, 0, 0] ∧
    column 0x00ff0000 = ![0, ⟨0xff⟩, 0, 0] ∧ column 0x0000ff00 = ![0, 0, ⟨0xff⟩, 0] ∧
      column 0x000000ff = ![0, 0, 0, ⟨0xff⟩] := by
  decide +kernel

/-- Four bytes of entries at their places. -/
theorem column_maskedBytes {table : List UInt32}
    (same : ∀ x, look table x = repeated (look table x)) (x0 x1 x2 x3 : UInt8) :
    column (masked table x0 0xff000000 ^^^ masked table x1 0x00ff0000 ^^^
        masked table x2 0x0000ff00 ^^^ masked table x3 0x000000ff) =
      ![⟨(look table x0).toUInt8⟩, ⟨(look table x1).toUInt8⟩, ⟨(look table x2).toUInt8⟩,
        ⟨(look table x3).toUInt8⟩] := by
  obtain ⟨mask0, mask1, mask2, mask3⟩ := column_masks
  funext r
  apply Gf256.ext
  rw [column_xor, column_xor, column_xor]
  simp only [Pi.add_apply, Gf256.byte_add, column_masked same, mask0, mask1, mask2, mask3]
  fin_cases r <;> simp [and_full]

theorem te4_same (x : UInt8) : look te4 x = repeated (look te4 x) := by
  conv_lhs => rw [te4_repeated]
  exact look_map length_te4 repeated x

theorem td4_same (x : UInt8) : look td4 x = repeated (look td4 x) := by
  conv_lhs => rw [td4_repeated]
  exact look_map length_td4 repeated x

/-- The last round of look-ups does not mix the columns. -/
theorem square_encryptLast (t k : Words) :
    (encryptLast t k).square = (Square.layers substitution).substitute t.square + k.square := by
  funext c
  fin_cases c <;>
    refine (column_xor _ _).trans
      (congrArg (· + _) ((column_maskedBytes te4_same _ _ _ _).trans ?_)) <;>
    funext r <;> fin_cases r <;> rfl

/-- The last one for decrypting does not mix them either. -/
theorem square_decryptLast (t k : Words) :
    (decryptLast t k).square =
      (Square.layers substitution).symm.substitute t.square + k.square := by
  funext c
  fin_cases c <;>
    refine (column_xor _ _).trans
      (congrArg (· + _) ((column_maskedBytes td4_same _ _ _ _).trans ?_)) <;>
    funext r <;> fin_cases r <;> rfl

/-- The inverse `MixColumn` of a round key. -/
theorem column_unmixWord (w : UInt32) : column (unmixWord w) = unmixMatrix.mulVec (column w) := by
  have back : ∀ x, sboxInv (look te4 x).toUInt8 = x := sboxInv_sbox
  rw [unmixWord, column_xor, column_xor, column_xor, holds_td0.2, holds_td1.2, holds_td2.2,
    holds_td3.2]
  simp only [back]
  funext r
  simp [Matrix.mulVec, dotProduct, Fin.sum_univ_four, column]

/-! ## Blocks -/

/-- A word is put together from its bytes. -/
theorem wordOf_bytes (w : UInt32) :
    wordOf (w >>> 24).toUInt8 (w >>> 16).toUInt8 (w >>> 8).toUInt8 w.toUInt8 = w :=
  column_injective (column_wordOf _ _ _ _)

theorem putU32_wordOf (b0 b1 b2 b3 : UInt8) : putU32 (wordOf b0 b1 b2 b3) = [b0, b1, b2, b3] := by
  have bytes := column_wordOf b0 b1 b2 b3
  have byte0 := congrArg Gf256.byte (congrFun bytes 0)
  have byte1 := congrArg Gf256.byte (congrFun bytes 1)
  have byte2 := congrArg Gf256.byte (congrFun bytes 2)
  have byte3 := congrArg Gf256.byte (congrFun bytes 3)
  exact congrArg₂ List.cons byte0
    (congrArg₂ List.cons byte1 (congrArg₂ List.cons byte2 (congrArg (fun b => [b]) byte3)))

/-- `PUTU32` writes what `GETU32` has read. -/
theorem putU32_getU32 {pt : Bytes} {i : Nat} (inside : i + 4 ≤ pt.length) :
    putU32 (getU32 pt i) = (pt.drop i).take 4 := by
  have at0 : i < pt.length := by omega
  have at1 : i + 1 < pt.length := by omega
  have at2 : i + 2 < pt.length := by omega
  have at3 : i + 3 < pt.length := by omega
  rw [getU32, putU32_wordOf, List.drop_eq_getElem_cons at0, List.drop_eq_getElem_cons at1,
    List.drop_eq_getElem_cons at2, List.drop_eq_getElem_cons at3]
  simp only [List.getD_eq_getElem?_getD, List.getElem?_eq_getElem, at0, at1, at2, at3,
    Option.getD_some, List.take_succ_cons, List.take_zero]

/-- Reading the block of some words gives the words. -/
theorem Words.read_block (s : Words) : Words.read s.block.bytes = s := by
  apply Words.ext <;> exact wordOf_bytes _

theorem Words.block_read (block : Block) : (Words.read block.bytes).block = block := by
  obtain ⟨bytes, length⟩ := block
  have fourth : (bytes.drop 12).take 4 = bytes.drop 12 :=
    List.take_of_length_le (by rw [List.length_drop]; omega)
  have third : (bytes.drop 8).take 4 ++ bytes.drop 12 = bytes.drop 8 := by
    simpa using List.take_append_drop 4 (bytes.drop 8)
  have second : (bytes.drop 4).take 4 ++ bytes.drop 8 = bytes.drop 4 := by
    simpa using List.take_append_drop 4 (bytes.drop 4)
  simp only [Words.read, Words.block, @putU32_getU32 bytes 0 (by omega),
    @putU32_getU32 bytes 4 (by omega), @putU32_getU32 bytes 8 (by omega),
    @putU32_getU32 bytes 12 (by omega), List.append_assoc, fourth, third, second]
  simp

end GPush.Crypt
