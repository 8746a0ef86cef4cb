import GPush.LoopBuf.Frame

/-!
# Base64

The two functions of `ef_base64.cpp`.  Decoding stops at the first group with a
character outside the alphabet; a padded group does not stop it, but it fixes the
number of bytes cut off at the end.
-/

namespace GPush.Codec

/-- `ch64`. -/
def ch64 : List Char := [
    'A', 'B', 'C', 'D', 'E', 'F', 'G', 'H', 'I', 'J', 'K', 'L', 'M',
    'N', 'O', 'P', 'Q', 'R', 'S', 'T', 'U', 'V', 'W', 'X', 'Y', 'Z',
    'a', 'b', 'c', 'd', 'e', 'f', 'g', 'h', 'i', 'j', 'k', 'l', 'm',
    'n', 'o', 'p', 'q', 'r', 's', 't', 'u', 'v', 'w', 'x', 'y', 'z',
    '0', '1', '2', '3', '4', '5', '6', '7', '8', '9', '+', '/']

/-- The character for six bits. -/
def char64 (i : UInt8) : UInt8 := UInt8.ofNat (ch64.getD i.toNat 'A').toNat

/-- `'='`. -/
def pad : UInt8 := 61

/-- `base64Encode`. -/
def base64Encode : Bytes → Bytes
  | a :: b :: c :: rest =>
      char64 ((a &&& 0xFC) >>> 2) ::
      char64 (((a &&& 0x03) <<< 4) + ((b &&& 0xF0) >>> 4)) ::
      char64 (((b &&& 0x0F) <<< 2) + ((c &&& 0xC0) >>> 6)) ::
      char64 (c &&& 0x3F) :: base64Encode rest
  | [a, b] =>
      [char64 (a >>> 2), char64 (((a &&& 0x03) <<< 4) + (b >>> 4)),
        char64 ((b &&& 0x0F) <<< 2), pad]
  | [a] => [char64 (a >>> 2), char64 ((a &&& 0x03) <<< 4), pad, pad]
  | [] => []

/-- `b64_reverse_table`. -/
def b64ReverseTable : List Int := [
    -1, -1, -1, -1, -1, -1, -1, -1, -1, -1, -1, -1, -1, -1, -1, -1,
    -1, -1, -1, -1, -1, -1, -1, -1, -1, -1, -1, -1, -1, -1, -1, -1,
    -1, -1, -1, -1, -1, -1, -1, -1, -1, -1, -1, 62, -1, -1, -1, 63,
    52, 53, 54, 55, 56, 57, 58, 59, 60, 61, -1, -1, -1, -1, -1, -1,
    -1, 0, 1, 2, 3, 4, 5, 6, 7, 8, 9, 10, 11, 12, 13, 14,
    15, 16, 17, 18, 19, 20, 21, 22, 23, 24, 25, -1, -1, -1, -1, -1,
    -1, 26, 27, 28, 29, 30, 31, 32, 33, 34, 35, 36, 37, 38, 39, 40,
    41, 42, 43, 44, 45, 46, 47, 48, 49, 50, 51, -1, -1, -1, -1, -1,
    -1, -1, -1, -1, -1, -1, -1, -1, -1, -1, -1, -1, -1, -1, -1, -1,
    -1, -1, -1, -1, -1, -1, -1, -1, -1, -1, -1, -1, -1, -1, -1, -1,
    -1, -1, -1, -1, -1, -1, -1, -1, -1, -1, -1, -1, -1, -1, -1, -1,
    -1, -1, -1, -1, -1, -1, -1, -1, -1, -1, -1, -1, -1, -1, -1, -1,
    -1, -1, -1, -1, -1, -1, -1, -1, -1, -1, -1, -1, -1, -1, -1, -1,
    -1, -1, -1, -1, -1, -1, -1, -1, -1, -1, -1, -1, -1, -1, -1, -1,
    -1, -1, -1, -1, -1, -1, -1, -1, -1, -1, -1, -1, -1, -1, -1, -1,
    -1, -1, -1, -1, -1, -1, -1, -1, -1, -1, -1, -1, -1, -1, -1, -1]

/-- The entry of a character. -/
def reverse64 (c : UInt8) : Int := b64ReverseTable.getD c.toNat (-1)

/-- An `int` stored in an `unsigned char`. -/
def toByte (n : Nat) : UInt8 := UInt8.ofNat n

/-- The loop of `base64Decode`; `pandcnt` is the number of bytes to cut off, and
`out` is what has been decoded. -/
def decodeLoop : Nat → Bytes → Bytes → Bytes
  | pandcnt, out, p0 :: p1 :: p2 :: p3 :: rest =>
      let a := reverse64 p0
      let b := reverse64 p1
      let c := if p2 ≠ pad then reverse64 p2 else 0
      let pandcnt := if p2 ≠ pad then pandcnt else 2
      let d := if pandcnt = 0 then (if p3 ≠ pad then reverse64 p3 else 0) else 0
      let pandcnt := if pandcnt = 0 then (if p3 ≠ pad then 0 else 1) else pandcnt
      if a < 0 ∨ b < 0 ∨ c < 0 ∨ d < 0 then
        out
      else
        decodeLoop pandcnt
          (out ++ [toByte ((a.toNat <<< 2) + ((b.toNat &&& 0x30) >>> 4)),
            toByte (((b.toNat &&& 0x0F) <<< 4) + ((c.toNat &&& 0x3C) >>> 2)),
            toByte (((c.toNat &&& 0x03) <<< 6) + d.toNat)]) rest
  | pandcnt, out, _ => out.take (out.length - pandcnt)

/-- `base64Decode`. -/
def base64Decode (s : Bytes) : Bytes := decodeLoop 0 [] s

/-- Every three bytes, and what is left of three, become four characters. -/
theorem length_base64Encode : ∀ s : Bytes, (base64Encode s).length = (s.length + 2) / 3 * 4
  | a :: b :: c :: rest => by
      have ih := length_base64Encode rest
      simp only [base64Encode, List.length_cons, ih]
      omega
  | [a, b] => by simp [base64Encode]
  | [a] => by simp [base64Encode]
  | [] => by simp [base64Encode]

/-! ## A round of the decoding loop -/

theorem reverse64_pad : reverse64 pad = -1 := by
  decide

/-- The bytes to cut off after a group. -/
def cutAfter (pandcnt : Nat) (p2 p3 : UInt8) : Nat :=
  if p2 = pad then 2 else if pandcnt = 0 ∧ p3 = pad then 1 else pandcnt

/-- No character of a group ends the loop. -/
def Decodes (pandcnt : Nat) (p0 p1 p2 p3 : UInt8) : Prop :=
  0 ≤ reverse64 p0 ∧ 0 ≤ reverse64 p1 ∧ (p2 = pad ∨ 0 ≤ reverse64 p2) ∧
    (p2 = pad ∨ pandcnt ≠ 0 ∨ p3 = pad ∨ 0 ≤ reverse64 p3)

/-- The bytes that a round stores. -/
def stored (a b c d : Nat) : Bytes :=
  [toByte ((a <<< 2) + ((b &&& 0x30) >>> 4)), toByte (((b &&& 0x0F) <<< 4) + ((c &&& 0x3C) >>> 2)),
    toByte (((c &&& 0x03) <<< 6) + d)]

theorem length_stored (a b c d : Nat) : (stored a b c d).length = 3 := rfl

/-- A round of the loop. -/
theorem decodeLoop_of_decodes {pandcnt : Nat} {p0 p1 p2 p3 : UInt8}
    (decodes : Decodes pandcnt p0 p1 p2 p3) (out rest : Bytes) :
    decodeLoop pandcnt out (p0 :: p1 :: p2 :: p3 :: rest) =
      decodeLoop (cutAfter pandcnt p2 p3)
        (out ++ stored (reverse64 p0).toNat (reverse64 p1).toNat
          (if p2 = pad then 0 else (reverse64 p2).toNat)
          (if cutAfter pandcnt p2 p3 = 0 then (reverse64 p3).toNat else 0)) rest := by
  rcases decodes with ⟨first, second, third, fourth⟩
  rw [decodeLoop, cutAfter]
  by_cases thirdPad : p2 = pad
  · have twice : ¬(2 : Nat) = 0 := by decide
    simp only [thirdPad, ne_eq, not_true_eq_false, if_false, if_true, twice]
    rw [if_neg (by omega)]
    rfl
  · have thirdValid := third.resolve_left thirdPad
    simp only [thirdPad, ne_eq, not_false_eq_true, if_true, if_false]
    by_cases padded : pandcnt = 0
    · by_cases fourthPad : p3 = pad
      · simp only [padded, fourthPad, not_true_eq_false, if_true, if_false, and_self,
          Nat.one_ne_zero]
        rw [if_neg (by omega)]
        rfl
      · have fourthValid : 0 ≤ reverse64 p3 := by
          rcases fourth with h | h | h | h
          · exact absurd h thirdPad
          · exact absurd padded h
          · exact absurd h fourthPad
          · exact h
        simp only [padded, fourthPad, not_false_eq_true, if_true, if_false, and_false]
        rw [if_neg (by omega)]
        rfl
    · simp only [padded, if_false, false_and]
      rw [if_neg (by omega)]
      rfl

theorem decodeLoop_of_not_decodes {pandcnt : Nat} {out : Bytes} {p0 p1 p2 p3 : UInt8}
    {rest : Bytes} (ends : ¬Decodes pandcnt p0 p1 p2 p3) :
    decodeLoop pandcnt out (p0 :: p1 :: p2 :: p3 :: rest) = out := by
  rw [decodeLoop]
  apply if_pos
  by_contra valid
  apply ends
  simp only [not_or, Int.not_lt] at valid
  rcases valid with ⟨first, second, third, fourth⟩
  refine ⟨first, second, ?_, ?_⟩
  · by_cases thirdPad : p2 = pad
    · exact Or.inl thirdPad
    · exact Or.inr (by simpa [thirdPad] using third)
  · by_cases thirdPad : p2 = pad
    · exact Or.inl thirdPad
    · by_cases padded : pandcnt = 0
      · by_cases fourthPad : p3 = pad
        · exact Or.inr (Or.inr (Or.inl fourthPad))
        · exact Or.inr (Or.inr (Or.inr (by simpa [thirdPad, padded, fourthPad] using fourth)))
      · exact Or.inr (Or.inl padded)

theorem cutAfter_le {pandcnt : Nat} (cut : pandcnt ≤ 2) (p2 p3 : UInt8) :
    cutAfter pandcnt p2 p3 ≤ 2 := by
  rw [cutAfter]
  split_ifs <;> omega

theorem decodeLoop_of_length_lt {pandcnt : Nat} {out rest : Bytes} (short : rest.length < 4) :
    decodeLoop pandcnt out rest = out.take (out.length - pandcnt) := by
  match rest with
  | [] | [_] | [_, _] | [_, _, _] => rfl

/-! ## The round trip -/

/-- What holds for the numbers below 256 holds for all bytes. -/
theorem forall_uInt8 {p : UInt8 → Prop} (all : ∀ n < 256, p (UInt8.ofNat n)) (a : UInt8) :
    p a := by
  have holds := all a.toNat a.toNat_lt
  rwa [UInt8.ofNat_toNat] at holds

/-- A character stands for its six bits and is not the padding. -/
theorem reverse64_char64 {i : UInt8} (small : i.toNat < 64) :
    reverse64 (char64 i) = i.toNat ∧ char64 i ≠ pad := by
  have all : ∀ n < 64, reverse64 (char64 (UInt8.ofNat n)) = n ∧ char64 (UInt8.ofNat n) ≠ pad := by
    decide +kernel
  have holds := all i.toNat small
  rwa [UInt8.ofNat_toNat] at holds

theorem toNat_sextets (a : UInt8) :
    (a >>> 2).toNat = a.toNat / 4 ∧ ((a &&& 0xFC) >>> 2).toNat = a.toNat / 4 ∧
      ((a &&& 0x03) <<< 4).toNat = a.toNat % 4 * 16 ∧ (a >>> 4).toNat = a.toNat / 16 ∧
      ((a &&& 0xF0) >>> 4).toNat = a.toNat / 16 ∧ ((a &&& 0x0F) <<< 2).toNat = a.toNat % 16 * 4 ∧
      ((a &&& 0xC0) >>> 6).toNat = a.toNat / 64 ∧ (a &&& 0x3F).toNat = a.toNat % 64 := by
  revert a
  apply forall_uInt8
  decide +kernel

/-- Three bytes put together from four groups of six bits. -/
theorem toByte_sextets {p q r s : Nat} (second : q < 64) (third : r < 64) :
    toByte ((p <<< 2) + ((q &&& 0x30) >>> 4)) = UInt8.ofNat (p * 4 + q / 16) ∧
      toByte (((q &&& 0x0F) <<< 4) + ((r &&& 0x3C) >>> 2)) = UInt8.ofNat (q % 16 * 16 + r / 4) ∧
      toByte (((r &&& 0x03) <<< 6) + s) = UInt8.ofNat (r % 4 * 64 + s) := by
  have secondBits : ∀ q < 64, (q &&& 0x30) >>> 4 = q / 16 ∧ (q &&& 0x0F) <<< 4 = q % 16 * 16 := by
    decide
  have thirdBits : ∀ r < 64, (r &&& 0x3C) >>> 2 = r / 4 ∧ (r &&& 0x03) <<< 6 = r % 4 * 64 := by
    decide
  rw [toByte, toByte, toByte, (secondBits q second).1, (secondBits q second).2,
    (thirdBits r third).1, (thirdBits r third).2, Nat.shiftLeft_eq]
  exact ⟨rfl, rfl, rfl⟩

/-- Decoding the characters of a group. -/
theorem decodeLoop_group {p q r s : UInt8} (first : p.toNat < 64) (second : q.toNat < 64)
    (third : r.toNat < 64) (fourth : s.toNat < 64) (out rest : Bytes) :
    decodeLoop 0 out (char64 p :: char64 q :: char64 r :: char64 s :: rest) =
      decodeLoop 0 (out ++ [UInt8.ofNat (p.toNat * 4 + q.toNat / 16),
        UInt8.ofNat (q.toNat % 16 * 16 + r.toNat / 4),
        UInt8.ofNat (r.toNat % 4 * 64 + s.toNat)]) rest := by
  obtain ⟨firstEq, -⟩ := reverse64_char64 first
  obtain ⟨secondEq, -⟩ := reverse64_char64 second
  obtain ⟨thirdEq, thirdPad⟩ := reverse64_char64 third
  obtain ⟨fourthEq, fourthPad⟩ := reverse64_char64 fourth
  obtain ⟨byte0, byte1, byte2⟩ := toByte_sextets (p := p.toNat) (s := s.toNat) second third
  rw [decodeLoop]
  simp only [thirdPad, fourthPad, ne_eq, not_false_eq_true, if_true, firstEq, secondEq, thirdEq,
    fourthEq, Int.toNat_natCast, byte0, byte1, byte2]
  rw [if_neg (by omega)]

theorem ofNat_eq_of_toNat {a : UInt8} {n : Nat} (same : n % 256 = a.toNat) : UInt8.ofNat n = a :=
  UInt8.toNat.inj (by simpa using same)

theorem decodeLoop_base64Encode : ∀ s out : Bytes, decodeLoop 0 out (base64Encode s) = out ++ s
  | a :: b :: c :: rest, out => by
      obtain ⟨-, highA, lowA, -⟩ := toNat_sextets a
      obtain ⟨-, -, -, -, highB, lowB, -⟩ := toNat_sextets b
      obtain ⟨-, -, -, -, -, -, highC, lowC⟩ := toNat_sextets c
      have boundA := a.toNat_lt
      have boundB := b.toNat_lt
      have boundC := c.toNat_lt
      have secondEq : (((a &&& 0x03) <<< 4) + ((b &&& 0xF0) >>> 4)).toNat =
          a.toNat % 4 * 16 + b.toNat / 16 := by
        rw [UInt8.toNat_add, lowA, highB]
        omega
      have thirdEq : (((b &&& 0x0F) <<< 2) + ((c &&& 0xC0) >>> 6)).toNat =
          b.toNat % 16 * 4 + c.toNat / 64 := by
        rw [UInt8.toNat_add, lowB, highC]
        omega
      rw [base64Encode, decodeLoop_group (by omega) (by omega) (by omega) (by omega),
        decodeLoop_base64Encode rest, highA, secondEq, thirdEq, lowC,
        ofNat_eq_of_toNat (a := a) (by omega), ofNat_eq_of_toNat (a := b) (by omega),
        ofNat_eq_of_toNat (a := c) (by omega)]
      simp
  | [a, b], out => by
      obtain ⟨highA, -, lowA, -⟩ := toNat_sextets a
      obtain ⟨-, -, -, highB, -, lowB, -⟩ := toNat_sextets b
      have boundA := a.toNat_lt
      have boundB := b.toNat_lt
      have secondEq : (((a &&& 0x03) <<< 4) + (b >>> 4)).toNat =
          a.toNat % 4 * 16 + b.toNat / 16 := by
        rw [UInt8.toNat_add, lowA, highB]
        omega
      obtain ⟨firstChar, -⟩ := reverse64_char64 (i := a >>> 2) (by omega)
      obtain ⟨secondChar, -⟩ := reverse64_char64 (i := ((a &&& 0x03) <<< 4) + (b >>> 4)) (by omega)
      obtain ⟨thirdChar, thirdPad⟩ := reverse64_char64 (i := (b &&& 0x0F) <<< 2) (by omega)
      obtain ⟨byte0, byte1, byte2⟩ := toByte_sextets (p := (a >>> 2).toNat)
        (q := (((a &&& 0x03) <<< 4) + (b >>> 4)).toNat) (r := ((b &&& 0x0F) <<< 2).toNat) (s := 0)
        (by omega) (by omega)
      rw [base64Encode, decodeLoop]
      simp only [thirdPad, ne_eq, not_true_eq_false, not_false_eq_true, if_true, if_false,
        firstChar, secondChar, thirdChar, Int.toNat_natCast, Int.toNat_zero, byte0, byte1, byte2]
      rw [if_neg (by omega), decodeLoop, highA, secondEq, lowB,
        ofNat_eq_of_toNat (a := a) (by omega), ofNat_eq_of_toNat (a := b) (by omega)]
      · simp [List.take_length_add_append]
      · simp
  | [a], out => by
      obtain ⟨highA, -, lowA, -⟩ := toNat_sextets a
      have boundA := a.toNat_lt
      obtain ⟨firstChar, -⟩ := reverse64_char64 (i := a >>> 2) (by omega)
      obtain ⟨secondChar, -⟩ := reverse64_char64 (i := (a &&& 0x03) <<< 4) (by omega)
      obtain ⟨byte0, -⟩ := toByte_sextets (p := (a >>> 2).toNat)
        (q := ((a &&& 0x03) <<< 4).toNat) (r := 0) (s := 0) (by omega) (by omega)
      rw [base64Encode, decodeLoop]
      simp only [ne_eq, not_true_eq_false, if_false, firstChar, secondChar, Int.toNat_natCast,
        Int.toNat_zero, byte0]
      rw [if_neg (by omega), decodeLoop, highA, lowA, ofNat_eq_of_toNat (a := a) (by omega)]
      · simp [List.take_length_add_append]
      · simp
  | [], out => by simp [base64Encode, decodeLoop]

/-- Decoding undoes encoding. -/
theorem base64Decode_base64Encode (s : Bytes) : base64Decode (base64Encode s) = s :=
  decodeLoop_base64Encode s []

example : base64Decode (base64Encode [0, 255, 7, 9]) = [0, 255, 7, 9] := by decide

end GPush.Codec
