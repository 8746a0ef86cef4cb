import GPush.Protobuf.ReadVarint

/-!
# The output stream of the message classes

`CodedOutputStream` over an array, which it gets as one block.  Numbers are written by an
unrolled walk where the block has room for the longest one, and are composed by a loop
before that; both write them in base 128, on as many bytes as the sizes say.
-/

namespace GPush.Protobuf

/-- `CodedOutputStream` over an `ArrayOutputStream`: what is in the array before `buffer_`,
and how much room is behind it. -/
structure CodedOutputStream where
  written : Bytes
  bufferSize : Nat
  hadError : Bool
  deriving DecidableEq, Repr

/-- A write; `none` is a check that fails and ends the program. -/
abbrev Writer : Type := CodedOutputStream → Option CodedOutputStream

namespace CodedOutputStream

open CodedInputStream (uInt8_and_127)

/-- `CodedOutputStream(output)` for an array of a size. -/
def ofArray (size : Nat) : CodedOutputStream := ⟨[], size, false⟩

/-- `Advance` over bytes that have been written. -/
def advance (bytes : Bytes) (output : CodedOutputStream) : CodedOutputStream :=
  { output with
    written := output.written ++ bytes
    bufferSize := output.bufferSize - bytes.length }

/-- `WriteRaw`; `Refresh` finds no other block. -/
def writeRaw (data : Bytes) (output : CodedOutputStream) : CodedOutputStream :=
  if output.bufferSize < data.length then
    { written := output.written ++ data.take output.bufferSize, bufferSize := 0, hadError := true }
  else
    output.advance data

/-- `WriteString`. -/
def writeString (data : Bytes) : CodedOutputStream → CodedOutputStream := writeRaw data

/-- `kMaxVarint32Bytes`. -/
def maxVarint32Bytes : Nat := 5

/-- The byte of a number from bit `shift` on, with its high bit set. -/
def moreByte (value shift : UInt32) : UInt8 := (value >>> shift ||| 0x80).toUInt8

/-- `WriteVarint32FallbackToArrayInline`: the bytes up to the pointer it returns. -/
def writeVarint32FallbackToArrayInline (value : UInt32) : Bytes :=
  if 2 ^ 7 ≤ value.toNat then
    if 2 ^ 14 ≤ value.toNat then
      if 2 ^ 21 ≤ value.toNat then
        if 2 ^ 28 ≤ value.toNat then
          [moreByte value 0, moreByte value 7, moreByte value 14, moreByte value 21,
            (value >>> 28).toUInt8]
        else
          [moreByte value 0, moreByte value 7, moreByte value 14, moreByte value 21 &&& 0x7F]
      else
        [moreByte value 0, moreByte value 7, moreByte value 14 &&& 0x7F]
    else
      [moreByte value 0, moreByte value 7 &&& 0x7F]
  else
    [moreByte value 0 &&& 0x7F]

/-- `WriteVarint64ToArrayInline`: the bytes up to the pointer it returns. -/
def writeVarint64ToArrayInline (value : UInt64) : Bytes :=
  let part0 := value.toUInt32
  let part1 := (value >>> 28).toUInt32
  let part2 := (value >>> 56).toUInt32
  let size :=
    if part2 = 0 then
      if part1 = 0 then
        if part0.toNat < 2 ^ 14 then
          if part0.toNat < 2 ^ 7 then 1 else 2
        else
          if part0.toNat < 2 ^ 21 then 3 else 4
      else
        if part1.toNat < 2 ^ 14 then
          if part1.toNat < 2 ^ 7 then 5 else 6
        else
          if part1.toNat < 2 ^ 21 then 7 else 8
    else
      if part2.toNat < 2 ^ 7 then 9 else 10
  let target := [moreByte part0 0, moreByte part0 7, moreByte part0 14, moreByte part0 21,
    moreByte part1 0, moreByte part1 7, moreByte part1 14, moreByte part1 21,
    moreByte part2 0, moreByte part2 7]
  (target.take size).modify (size - 1) (· &&& 0x7F)

/-- The loop that composes a number in an array with a room; `none` is a byte behind it. -/
def composeVarint : Nat → UInt64 → Option Bytes
  | 0, _ => none
  | room + 1, value =>
      if 0x7F < value then
        (composeVarint room (value >>> 7)).map ((value.toUInt8 &&& 0x7F ||| 0x80) :: ·)
      else
        some [value.toUInt8 &&& 0x7F]

/-- `WriteVarint32`. -/
def writeVarint32 (value : UInt32) : Writer := fun output =>
  if maxVarint32Bytes ≤ output.bufferSize then
    some (output.advance (writeVarint32FallbackToArrayInline value))
  else
    (composeVarint maxVarint32Bytes value.toUInt64).map fun bytes => output.writeRaw bytes

/-- `WriteVarint64`. -/
def writeVarint64 (value : UInt64) : Writer := fun output =>
  if maxVarintBytes ≤ output.bufferSize then
    some (output.advance (writeVarint64ToArrayInline value))
  else
    (composeVarint maxVarintBytes value).map fun bytes => output.writeRaw bytes

/-- A number with its sign as `uint64`. -/
def signExtend (value : Int32) : UInt64 := value.toInt64.toUInt64

/-- `WriteVarint32SignExtended`. -/
def writeVarint32SignExtended (value : Int32) : Writer :=
  if value < 0 then writeVarint64 (signExtend value) else writeVarint32 value.toUInt32

/-- `WriteTag`. -/
def writeTag (tag : UInt32) : Writer := writeVarint32 tag

/-- `VarintSize32Fallback`. -/
def varintSize32Fallback (value : UInt32) : Nat :=
  if value.toNat < 2 ^ 7 then 1
  else if value.toNat < 2 ^ 14 then 2
  else if value.toNat < 2 ^ 21 then 3
  else if value.toNat < 2 ^ 28 then 4
  else 5

/-- `VarintSize32`. -/
def varintSize32 (value : UInt32) : Nat :=
  if value.toNat < 2 ^ 7 then 1 else varintSize32Fallback value

/-- `VarintSize64`. -/
def varintSize64 (value : UInt64) : Nat :=
  if value.toNat < 2 ^ 35 then
    if value.toNat < 2 ^ 7 then 1
    else if value.toNat < 2 ^ 14 then 2
    else if value.toNat < 2 ^ 21 then 3
    else if value.toNat < 2 ^ 28 then 4
    else 5
  else
    if value.toNat < 2 ^ 42 then 6
    else if value.toNat < 2 ^ 49 then 7
    else if value.toNat < 2 ^ 56 then 8
    else if value.toNat < 2 ^ 63 then 9
    else 10

/-- `VarintSize32SignExtended`. -/
def varintSize32SignExtended (value : Int32) : Nat :=
  if value < 0 then 10 else varintSize32 value.toUInt32

@[simp]
theorem bufferSize_advance (output : CodedOutputStream) (bytes : Bytes) :
    (output.advance bytes).bufferSize = output.bufferSize - bytes.length := rfl

theorem advance_advance (output : CodedOutputStream) (front back : Bytes) :
    (output.advance front).advance back = output.advance (front ++ back) := by
  simp [advance, Nat.sub_sub]

/-! ## Bytes of a number -/

/-- The byte of a number with more behind it. -/
theorem ofNat_or_128 (n : Nat) : UInt8.ofNat (n ||| 128) = UInt8.ofNat (n % 128 + 128) := by
  have all : ∀ m : Fin 256, m.val ||| 128 = m.val % 128 + 128 := by decide +kernel
  have byte := all ⟨n % 2 ^ 8, Nat.mod_lt _ (by decide)⟩
  dsimp only at byte
  rw [← UInt8.toNat_inj, UInt8.toNat_ofNat', UInt8.toNat_ofNat', Nat.or_mod_two_pow]
  change n % 2 ^ 8 ||| 128 = _
  rw [byte]
  omega

theorem moreByte_eq {shift : Nat} (inside : shift < 32) (value : UInt32) :
    moreByte value (.ofNat shift) = UInt8.ofNat (value.toNat / 2 ^ shift % 128 + 128) := by
  have bits : (UInt32.ofNat shift).toNat % 32 = shift := by
    rw [UInt32.toNat_ofNat']
    omega
  rw [← ofNat_or_128, ← UInt8.toNat_inj, moreByte, UInt32.toNat_toUInt8, UInt32.toNat_or,
    UInt32.toNat_shiftRight, bits, Nat.shiftRight_eq_div_pow, UInt8.toNat_ofNat']
  rfl

/-- A byte before the last one of a number. -/
theorem base128_more {shift : Nat} {value : UInt32} (inside : shift < 32)
    (more : 2 ^ (shift + 7) ≤ value.toNat) :
    base128 (value.toNat / 2 ^ shift) =
      moreByte value (.ofNat shift) :: base128 (value.toNat / 2 ^ (shift + 7)) := by
  have large : 128 ≤ value.toNat / 2 ^ shift := by
    rw [Nat.le_div_iff_mul_le (Nat.two_pow_pos shift), Nat.mul_comm]
    rwa [pow_add] at more
  rw [base128_of_le large, moreByte_eq inside, Nat.div_div_eq_div_mul, pow_add]
  rfl

/-- The last byte of a number. -/
theorem base128_last {shift : Nat} {value : UInt32} (inside : shift < 32)
    (last : value.toNat < 2 ^ (shift + 7)) :
    base128 (value.toNat / 2 ^ shift) = [moreByte value (.ofNat shift) &&& 0x7F] := by
  have small : value.toNat / 2 ^ shift < 128 := by
    rw [Nat.div_lt_iff_lt_mul (Nat.two_pow_pos shift), Nat.mul_comm]
    rwa [pow_add] at last
  have byte : moreByte value (.ofNat shift) &&& 0x7F = UInt8.ofNat (value.toNat / 2 ^ shift) := by
    rw [moreByte_eq inside, ← UInt8.toNat_inj, uInt8_and_127, UInt8.toNat_ofNat',
      UInt8.toNat_ofNat']
    generalize value.toNat / 2 ^ shift = part at small ⊢
    omega
  rw [base128_of_lt small, byte]

/-! ## Numbers -/

/-- The unrolled walk writes a number in base 128. -/
theorem writeVarint32FallbackToArrayInline_eq (value : UInt32) :
    writeVarint32FallbackToArrayInline value = base128 value.toNat := by
  have start : base128 value.toNat = base128 (value.toNat / 2 ^ 0) := by simp
  have byte28 : (value >>> 28).toUInt8 = UInt8.ofNat (value.toNat / 2 ^ 28) := by
    rw [← UInt8.toNat_inj, UInt32.toNat_toUInt8, UInt32.toNat_shiftRight, UInt8.toNat_ofNat']
    exact congrArg (· % 2 ^ 8) (Nat.shiftRight_eq_div_pow _ _)
  rw [start]
  unfold writeVarint32FallbackToArrayInline
  split
  case isFalse short => exact (base128_last (by decide) (by rw [Nat.zero_add]; omega)).symm
  case isTrue more7 =>
    rw [base128_more (by decide) more7]
    split
    case isFalse short => rw [base128_last (by decide) (by omega)]; rfl
    case isTrue more14 =>
      rw [base128_more (by decide) more14]
      split
      case isFalse short => rw [base128_last (by decide) (by omega)]; rfl
      case isTrue more21 =>
        rw [base128_more (by decide) more21]
        split
        case isFalse short => rw [base128_last (by decide) (by omega)]; rfl
        case isTrue more28 =>
          have below := value.toNat_lt
          rw [base128_more (by decide) more28, base128_of_lt (by omega), byte28]
          rfl

/-- The first bytes of a number, each with its high bit set. -/
def moreBytes : Nat → Nat → Bytes
  | 0, _ => []
  | count + 1, n => UInt8.ofNat (n % 128 + 128) :: moreBytes count (n / 128)

/-- The high bit of the last byte is cleared at the end. -/
theorem modify_moreBytes {count size n : Nat} (inside : size < count) (fits : n < 128 ^ (size + 1))
    (needed : size = 0 ∨ 128 ^ size ≤ n) :
    ((moreBytes count n).take (size + 1)).modify size (· &&& 0x7F) = base128 n := by
  induction size generalizing count n with
  | zero =>
      obtain ⟨count, rfl⟩ := Nat.exists_eq_succ_of_ne_zero (Nat.ne_zero_of_lt inside)
      rw [base128_of_lt (by omega)]
      simp only [moreBytes, List.take_succ_cons, List.take_zero, List.modify_zero_cons,
        List.cons.injEq, and_true]
      rw [← UInt8.toNat_inj, uInt8_and_127, UInt8.toNat_ofNat', UInt8.toNat_ofNat']
      omega
  | succ size ih =>
      obtain ⟨count, rfl⟩ := Nat.exists_eq_succ_of_ne_zero (Nat.ne_zero_of_lt inside)
      have positive : 0 < 128 ^ size := Nat.pow_pos (by decide)
      have above : 128 ^ size * 128 ≤ n := by rw [← pow_succ]; omega
      have fits' : n / 128 < 128 ^ (size + 1) := by
        rw [Nat.div_lt_iff_lt_mul (by decide), ← pow_succ]
        exact fits
      have above' : 128 ^ size ≤ n / 128 := (Nat.le_div_iff_mul_le (by decide)).mpr above
      have large : 128 ≤ n := by omega
      rw [base128_of_le large, moreBytes, List.take_succ_cons, List.modify_succ_cons,
        ih (by omega) fits' (.inr above')]

/-- The tree finds the size of a number. -/
theorem writeVarint64ToArrayInline_eq (value : UInt64) :
    writeVarint64ToArrayInline value = base128 value.toNat := by
  have below := value.toNat_lt
  have part0 : value.toUInt32.toNat = value.toNat % 2 ^ 32 := UInt64.toNat_toUInt32 value
  have part1 : (value >>> 28).toUInt32.toNat = value.toNat / 2 ^ 28 % 2 ^ 32 := by
    rw [UInt64.toNat_toUInt32, UInt64.toNat_shiftRight]
    exact congrArg (· % 2 ^ 32) (Nat.shiftRight_eq_div_pow _ _)
  have part2 : (value >>> 56).toUInt32.toNat = value.toNat / 2 ^ 56 % 2 ^ 32 := by
    rw [UInt64.toNat_toUInt32, UInt64.toNat_shiftRight]
    exact congrArg (· % 2 ^ 32) (Nat.shiftRight_eq_div_pow _ _)
  have size : ∀ k, k < 10 → value.toNat < 128 ^ (k + 1) → (k = 0 ∨ 128 ^ k ≤ value.toNat) →
      ((moreBytes 10 value.toNat).take (k + 1)).modify k (· &&& 0x7F) = base128 value.toNat :=
    fun _ => modify_moreBytes
  have target : [moreByte value.toUInt32 0, moreByte value.toUInt32 7, moreByte value.toUInt32 14,
      moreByte value.toUInt32 21, moreByte (value >>> 28).toUInt32 0,
      moreByte (value >>> 28).toUInt32 7, moreByte (value >>> 28).toUInt32 14,
      moreByte (value >>> 28).toUInt32 21, moreByte (value >>> 56).toUInt32 0,
      moreByte (value >>> 56).toUInt32 7] = moreBytes 10 value.toNat := by
    simp only [moreBytes, Nat.div_div_eq_div_mul, List.cons.injEq, and_true]
    refine ⟨?_, ?_, ?_, ?_, ?_, ?_, ?_, ?_, ?_, ?_⟩
    · exact (moreByte_eq (by decide : 0 < 32) _).trans (by rw [part0]; congr 1; omega)
    · exact (moreByte_eq (by decide : 7 < 32) _).trans (by rw [part0]; congr 1; omega)
    · exact (moreByte_eq (by decide : 14 < 32) _).trans (by rw [part0]; congr 1; omega)
    · exact (moreByte_eq (by decide : 21 < 32) _).trans (by rw [part0]; congr 1; omega)
    · exact (moreByte_eq (by decide : 0 < 32) _).trans (by rw [part1]; congr 1; omega)
    · exact (moreByte_eq (by decide : 7 < 32) _).trans (by rw [part1]; congr 1; omega)
    · exact (moreByte_eq (by decide : 14 < 32) _).trans (by rw [part1]; congr 1; omega)
    · exact (moreByte_eq (by decide : 21 < 32) _).trans (by rw [part1]; congr 1; omega)
    · exact (moreByte_eq (by decide : 0 < 32) _).trans (by rw [part2]; congr 1; omega)
    · exact (moreByte_eq (by decide : 7 < 32) _).trans (by rw [part2]; congr 1; omega)
  simp only [writeVarint64ToArrayInline, target, ← UInt32.toNat_inj, part0, part1, part2,
    UInt32.toNat_zero]
  split_ifs
  · exact size 0 (by decide) (by omega) (.inl rfl)
  · exact size 1 (by decide) (by omega) (.inr (by omega))
  · exact size 2 (by decide) (by omega) (.inr (by omega))
  · exact size 3 (by decide) (by omega) (.inr (by omega))
  · exact size 4 (by decide) (by omega) (.inr (by omega))
  · exact size 5 (by decide) (by omega) (.inr (by omega))
  · exact size 6 (by decide) (by omega) (.inr (by omega))
  · exact size 7 (by decide) (by omega) (.inr (by omega))
  · exact size 8 (by decide) (by omega) (.inr (by omega))
  · exact size 9 (by decide) (by omega) (.inr (by omega))

theorem low_bits (value : UInt64) : (value.toUInt8 &&& 0x7F).toNat = value.toNat % 128 := by
  rw [uInt8_and_127, UInt64.toNat_toUInt8]
  omega

theorem composeVarint_last {value : UInt64} (last : value.toNat < 128) (room : Nat) :
    composeVarint (room + 1) value = some (base128 value.toNat) := by
  have byte : value.toUInt8 &&& 0x7F = UInt8.ofNat value.toNat := by
    rw [← UInt8.toNat_inj, low_bits, UInt8.toNat_ofNat']
    omega
  have done : ¬0x7F < value := fun more => by
    have := UInt64.lt_iff_toNat_lt.mp more
    change 127 < value.toNat at this
    omega
  rw [composeVarint, if_neg done, base128_of_lt last, byte]

theorem composeVarint_more {value : UInt64} (large : 128 ≤ value.toNat) (room : Nat) :
    composeVarint (room + 1) value =
      (composeVarint room (value >>> 7)).map (UInt8.ofNat (value.toNat % 128 + 128) :: ·) := by
  have byte : value.toUInt8 &&& 0x7F ||| 0x80 = UInt8.ofNat (value.toNat % 128 + 128) := by
    have high := ofNat_or_128 (value.toNat % 128)
    rw [Nat.mod_mod] at high
    rw [← high, ← UInt8.toNat_inj, UInt8.toNat_or, low_bits, UInt8.toNat_ofNat',
      Nat.or_mod_two_pow]
    change value.toNat % 128 ||| 128 = value.toNat % 128 % 256 ||| 128
    rw [Nat.mod_mod_of_dvd' (by decide)]
  have more : 0x7F < value := by
    rw [UInt64.lt_iff_toNat_lt]
    change 127 < value.toNat
    omega
  rw [composeVarint, if_pos more, byte]

/-- The loop composes a number in base 128. -/
theorem composeVarint_eq {room : Nat} {value : UInt64} (fits : value.toNat < 128 ^ (room + 1)) :
    composeVarint (room + 1) value = some (base128 value.toNat) := by
  induction room generalizing value with
  | zero => exact composeVarint_last (by omega) 0
  | succ room ih =>
      by_cases small : value.toNat < 128
      · exact composeVarint_last small (room + 1)
      · have large : 128 ≤ value.toNat := by omega
        have rest : (value >>> 7).toNat = value.toNat / 128 := by
          rw [UInt64.toNat_shiftRight]
          exact Nat.shiftRight_eq_div_pow _ _
        have fits' : (value >>> 7).toNat < 128 ^ (room + 1) := by
          rw [rest, Nat.div_lt_iff_lt_mul (by decide), ← pow_succ]
          exact fits
        rw [composeVarint_more large, ih fits', base128_of_le large, rest, Option.map_some]

/-! ## Writes into the block -/

/-- Bytes for which the block has room. -/
theorem writeRaw_fits {data : Bytes} {output : CodedOutputStream}
    (fits : data.length ≤ output.bufferSize) : output.writeRaw data = output.advance data :=
  if_neg (by omega)

/-- Both ways write a number in base 128. -/
theorem writeVarint32_eq {value : UInt32} {output : CodedOutputStream}
    (fits : (base128 value.toNat).length ≤ output.bufferSize) :
    writeVarint32 value output = some (output.advance (base128 value.toNat)) := by
  have below := value.toNat_lt
  have widened : value.toUInt64.toNat = value.toNat := UInt32.toNat_toUInt64 value
  have composed : composeVarint maxVarint32Bytes value.toUInt64 = some (base128 value.toNat) := by
    rw [← widened]
    exact composeVarint_eq (by rw [widened]; omega)
  rw [writeVarint32, writeVarint32FallbackToArrayInline_eq, composed, Option.map_some,
    writeRaw_fits fits]
  split <;> rfl

theorem writeVarint64_eq {value : UInt64} {output : CodedOutputStream}
    (fits : (base128 value.toNat).length ≤ output.bufferSize) :
    writeVarint64 value output = some (output.advance (base128 value.toNat)) := by
  have below := value.toNat_lt
  have composed : composeVarint maxVarintBytes value = some (base128 value.toNat) :=
    composeVarint_eq (by omega)
  rw [writeVarint64, writeVarint64ToArrayInline_eq, composed, Option.map_some, writeRaw_fits fits]
  split <;> rfl

/-- A number with its sign is the same number, up to `2 ^ 64`. -/
theorem toNat_signExtend (value : Int32) :
    (value < 0 ↔ 2 ^ 31 ≤ value.toUInt32.toNat) ∧
    (signExtend value).toNat =
      if 2 ^ 31 ≤ value.toUInt32.toNat then
        value.toUInt32.toNat + (2 ^ 64 - 2 ^ 32)
      else
        value.toUInt32.toNat := by
  have same : value.toInt64.toInt = value.toInt := Int32.toInt_toInt64 value
  have narrow : value.toInt = if 2 * value.toUInt32.toNat < 2 ^ 32 then
      (value.toUInt32.toNat : Int) else value.toUInt32.toNat - 4294967296 :=
    BitVec.toInt_eq_toNat_cond value.toBitVec
  have wide : value.toInt64.toInt = if 2 * (signExtend value).toNat < 2 ^ 64 then
      ((signExtend value).toNat : Int) else (signExtend value).toNat - 18446744073709551616 :=
    BitVec.toInt_eq_toNat_cond value.toInt64.toBitVec
  have below := value.toUInt32.toNat_lt
  have below' := (signExtend value).toNat_lt
  have sign : value < 0 ↔ value.toInt < 0 := Int32.lt_iff_toInt_lt
  rw [sign]
  split_ifs at narrow wide ⊢ <;> omega

theorem toNat_signExtend_of_nonneg {value : Int32} (positive : ¬value < 0) :
    (signExtend value).toNat = value.toUInt32.toNat := by
  obtain ⟨sign, same⟩ := toNat_signExtend value
  rw [same, if_neg (fun large => positive (sign.mpr large))]

theorem writeVarint32SignExtended_eq {value : Int32} {output : CodedOutputStream}
    (fits : (base128 (signExtend value).toNat).length ≤ output.bufferSize) :
    writeVarint32SignExtended value output =
      some (output.advance (base128 (signExtend value).toNat)) := by
  rw [writeVarint32SignExtended]
  split
  case isTrue => exact writeVarint64_eq fits
  case isFalse positive =>
    rw [toNat_signExtend_of_nonneg positive] at fits ⊢
    exact writeVarint32_eq fits

/-! ## Sizes -/

theorem length_base128 {k n : Nat} (fits : n < 128 ^ (k + 1)) (needed : k = 0 ∨ 128 ^ k ≤ n) :
    (base128 n).length = k + 1 := by
  have most := length_base128_le fits
  rcases needed with rfl | needed
  · have := length_base128_pos n
    omega
  · have := lt_length_base128 needed
    omega

theorem varintSize32_eq (value : UInt32) : varintSize32 value = (base128 value.toNat).length := by
  have below := value.toNat_lt
  have size : ∀ k, value.toNat < 128 ^ (k + 1) → (k = 0 ∨ 128 ^ k ≤ value.toNat) →
      k + 1 = (base128 value.toNat).length := fun _ fits needed => (length_base128 fits needed).symm
  unfold varintSize32 varintSize32Fallback
  split_ifs
  · exact size 0 (by omega) (.inl rfl)
  · exact size 1 (by omega) (.inr (by omega))
  · exact size 2 (by omega) (.inr (by omega))
  · exact size 3 (by omega) (.inr (by omega))
  · exact size 4 (by omega) (.inr (by omega))

theorem varintSize64_eq (value : UInt64) : varintSize64 value = (base128 value.toNat).length := by
  have below := value.toNat_lt
  have size : ∀ k, value.toNat < 128 ^ (k + 1) → (k = 0 ∨ 128 ^ k ≤ value.toNat) →
      k + 1 = (base128 value.toNat).length := fun _ fits needed => (length_base128 fits needed).symm
  unfold varintSize64
  split_ifs
  · exact size 0 (by omega) (.inl rfl)
  · exact size 1 (by omega) (.inr (by omega))
  · exact size 2 (by omega) (.inr (by omega))
  · exact size 3 (by omega) (.inr (by omega))
  · exact size 4 (by omega) (.inr (by omega))
  · exact size 5 (by omega) (.inr (by omega))
  · exact size 6 (by omega) (.inr (by omega))
  · exact size 7 (by omega) (.inr (by omega))
  · exact size 8 (by omega) (.inr (by omega))
  · exact size 9 (by omega) (.inr (by omega))

/-- The low bits of a number with its sign. -/
theorem toInt32_signExtend (value : Int32) :
    (UInt32.ofNat (signExtend value).toNat).toInt32 = value := by
  obtain ⟨-, same⟩ := toNat_signExtend value
  have below := value.toUInt32.toNat_lt
  have low : UInt32.ofNat (signExtend value).toNat = value.toUInt32 := by
    rw [← UInt32.toNat_inj, UInt32.toNat_ofNat', same]
    split <;> omega
  rw [low]
  rfl

/-- A negative number has its high bits set. -/
theorem le_toNat_signExtend_of_neg {value : Int32} (negative : value < 0) :
    2 ^ 63 ≤ (signExtend value).toNat := by
  obtain ⟨sign, same⟩ := toNat_signExtend value
  have large := sign.mp negative
  rw [same, if_pos large]
  omega

theorem varintSize32SignExtended_eq (value : Int32) :
    varintSize32SignExtended value = (base128 (signExtend value).toNat).length := by
  rw [varintSize32SignExtended]
  split
  case isTrue negative =>
    have below := (signExtend value).toNat_lt
    have above := le_toNat_signExtend_of_neg negative
    exact (length_base128 (by omega) (.inr (by omega)) : _ = 9 + 1).symm
  case isFalse positive => rw [toNat_signExtend_of_nonneg positive, varintSize32_eq]

/-! ## Read back -/

open CodedInputStream

/-- Wherever a number has been written, `VarintSize64` has counted its bytes, and it is read
back wherever these bytes are. -/
theorem readVarint64_writeVarint64 {value : UInt64} {output : CodedOutputStream}
    (room : varintSize64 value ≤ output.bufferSize) :
    ∃ bytes, bytes.length = varintSize64 value ∧
      writeVarint64 value output = some (output.advance bytes) ∧
      ∀ (input : CodedInputStream) (rest : Bytes), Sound input → input.buffer = bytes ++ rest →
        readVarint64 input = .ok value { input with buffer := rest } := by
  rw [varintSize64_eq] at room ⊢
  refine ⟨base128 value.toNat, rfl, writeVarint64_eq room, fun input rest sound bufferEq => ?_⟩
  have below : value.toNat < 128 ^ (9 + 1) := Nat.lt_trans value.toNat_lt (by decide)
  have read : readBase128 maxVarintBytes input.buffer = some (value.toNat, rest) := by
    rw [bufferEq]
    exact readBase128_base128 below rest
  have number := readVarint64_readsNumber sound.limited
  rw [read] at number
  simpa [ReadsNumber] using number

/-- A number of two bytes, in a block that they fill. -/
theorem readVarint64_writeVarint64_filled : ∃ bytes, bytes.length = 2 ∧
    writeVarint64 300 (.ofArray 2) = some ((ofArray 2).advance bytes) ∧
    ∀ (input : CodedInputStream) (rest : Bytes), Sound input → input.buffer = bytes ++ rest →
      readVarint64 input = .ok 300 { input with buffer := rest } :=
  @readVarint64_writeVarint64 300 (.ofArray 2) (by decide)

/-- A negative `int32` takes ten bytes, of which the reader of 32 bits keeps the low ones. -/
theorem readVarint32_writeVarint32SignExtended {value : Int32} {output : CodedOutputStream}
    (room : varintSize32SignExtended value ≤ output.bufferSize) :
    ∃ bytes, bytes.length = varintSize32SignExtended value ∧
      writeVarint32SignExtended value output = some (output.advance bytes) ∧
      ∀ (input : CodedInputStream) (rest : Bytes), Sound input → input.buffer = bytes ++ rest →
        readVarint32 input = .ok value.toUInt32 { input with buffer := rest } := by
  rw [varintSize32SignExtended_eq] at room ⊢
  refine ⟨base128 (signExtend value).toNat, rfl, writeVarint32SignExtended_eq room,
    fun input rest sound bufferEq => ?_⟩
  have below : (signExtend value).toNat < 128 ^ (9 + 1) :=
    Nat.lt_trans (signExtend value).toNat_lt (by decide)
  have read : readBase128 maxVarintBytes input.buffer = some ((signExtend value).toNat, rest) := by
    rw [bufferEq]
    exact readBase128_base128 below rest
  have number := readVarint32_readsNumber sound.limited
  rw [read] at number
  have low : UInt32.ofNat (signExtend value).toNat = value.toUInt32 :=
    congrArg Int32.toUInt32 (toInt32_signExtend value)
  rw [← low]
  exact number

/-- `-1`, in a block with one byte more. -/
theorem readVarint32_writeVarint32SignExtended_neg : ∃ bytes, bytes.length = 10 ∧
    writeVarint32SignExtended (-1) (.ofArray 11) = some ((ofArray 11).advance bytes) ∧
    ∀ (input : CodedInputStream) (rest : Bytes), Sound input → input.buffer = bytes ++ rest →
      readVarint32 input = .ok 0xFFFFFFFF { input with buffer := rest } :=
  @readVarint32_writeVarint32SignExtended (-1) (.ofArray 11) (by decide)

end CodedOutputStream

namespace Writer

/-- One write after the other. -/
def andThen (first second : Writer) : Writer := fun output => (first output).bind second

/-- No write. -/
def done : Writer := some

/-- A write of bytes for which the block has room. -/
def Writes (write : Writer) (bytes : Bytes) : Prop :=
  ∀ output : CodedOutputStream, bytes.length ≤ output.bufferSize →
    write output = some (output.advance bytes)

theorem writes_done : Writes done [] := by
  intro output _
  simp [done, CodedOutputStream.advance]

theorem Writes.andThen {first second : Writer} {front back : Bytes} (writes : Writes first front)
    (later : Writes second back) : Writes (Writer.andThen first second) (front ++ back) := by
  intro output fits
  rw [List.length_append] at fits
  have room : back.length ≤ (output.advance front).bufferSize := by
    rw [CodedOutputStream.bufferSize_advance]
    omega
  rw [Writer.andThen, writes output (by omega), Option.bind_some, later _ room,
    CodedOutputStream.advance_advance]

end Writer

end GPush.Protobuf
