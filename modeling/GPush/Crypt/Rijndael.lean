import GPush.Codec.Buffer
import Mathlib.Data.List.Basic

/-!
# Rijndael in ECB mode

`rijndael-api-fst.cpp` over a cipher for blocks of sixteen bytes: whole blocks one after the
other, and a last block that is filled up with its number of missing bytes.
-/

namespace GPush.Crypt

open GPush.Codec

/-- Sixteen bytes. -/
structure Block where
  bytes : Bytes
  length_eq : bytes.length = 16
  deriving DecidableEq

/-- The sixteen bytes at the front of a buffer. -/
def Block.read (s : Bytes) : Block := ⟨(s ++ List.replicate 16 0).take 16, by simp⟩

/-- `rijndaelEncrypt` and `rijndaelDecrypt` with the key schedules for a key. -/
structure Rijndael where
  encrypt : Block → Block → Block
  decrypt : Block → Block → Block

/-- Under one key decrypting undoes encrypting. -/
def Rijndael.Inverts (cipher : Rijndael) : Prop := ∀ k b, cipher.decrypt k (cipher.encrypt k b) = b

/-- `BAD_KEY_MAT`. -/
def badKeyMat : Int := -2

/-- `BAD_CIPHER_INSTANCE`. -/
def badCipherInstance : Int := -7

/-- `BAD_DATA`. -/
def badData : Int := -8

/-! ## Keys -/

/-- `hex_char`. -/
def hexChar (i : Nat) : UInt8 :=
  if i ≤ 9 then UInt8.ofNat (48 + i) else if i ≤ 15 then UInt8.ofNat (97 + i - 10) else 0

/-- `byteToHex`. -/
def byteToHex (c : UInt8) : Bytes := [hexChar (c.toNat / 16), hexChar (c.toNat % 16)]

/-- `bytesToHexs`, with room for all characters. -/
def bytesToHexs (bytes : Bytes) : Bytes := bytes.flatMap byteToHex

/-- The value of a hexadecimal digit in `makeKey` and `cipherInit`. -/
def hexValue (t : UInt8) : Option Nat :=
  if 48 ≤ t ∧ t ≤ 57 then
    some (t.toNat - 48)
  else if 97 ≤ t ∧ t ≤ 102 then
    some (t.toNat - 97 + 10)
  else if 65 ≤ t ∧ t ≤ 70 then
    some (t.toNat - 65 + 10)
  else
    none

/-- The loop of `makeKey` and of `cipherInit`: `n` bytes from their hexadecimal digits. -/
def hexBytes : Nat → Bytes → Option Bytes
  | 0, _ => some []
  | n + 1, hi :: lo :: rest => do
      let hi ← hexValue hi
      let lo ← hexValue lo
      let later ← hexBytes n rest
      return UInt8.ofNat (hi * 16 + lo) :: later
  | _, _ => none

/-- `makeKey` for a key of 128 bits. -/
def makeKey (keyMaterial : Bytes) : Except Int Block :=
  match hexBytes 16 keyMaterial with
  | none => .error badKeyMat
  | some cipherKey => .ok (.read cipherKey)

/-- `cipherInit` for `MODE_ECB`, with an initialization vector that the mode does not use. -/
def cipherInit (iv : Bytes) : Except Int Block :=
  match hexBytes 16 iv with
  | none => .error badCipherInstance
  | some bytes => .ok (.read bytes)

/-! ## Blocks -/

/-- What a call leaves: its result and the bytes it has written to the front of its output. -/
structure Coded where
  ret : Int
  written : Bytes

/-- `f` applied to `n` blocks, one after the other. -/
def mapBlocks (f : Block → Block) : Nat → Bytes → Bytes
  | 0, _ => []
  | n + 1, input => (f (.read input)).bytes ++ mapBlocks f n (input.drop 16)

/-- `blockEncrypt` and `blockDecrypt`. -/
def codeBlocks (f : Block → Block) (input : Bytes) (inputLen : Int) : Coded :=
  if inputLen ≤ 0 then
    ⟨0, []⟩
  else
    let numBlocks := (inputLen / 16).toNat
    ⟨16 * numBlocks, mapBlocks f numBlocks input⟩

/-- `blockEncrypt`. -/
def Rijndael.blockEncrypt (cipher : Rijndael) (key : Block) (input : Bytes) (inputLen : Int) :
    Coded :=
  codeBlocks (cipher.encrypt key) input inputLen

/-- `blockDecrypt`. -/
def Rijndael.blockDecrypt (cipher : Rijndael) (key : Block) (input : Bytes) (inputLen : Int) :
    Coded :=
  codeBlocks (cipher.decrypt key) input inputLen

/-- `padEncrypt`. -/
def Rijndael.padEncrypt (cipher : Rijndael) (key : Block) (input : Bytes) (inputOctets : Int) :
    Coded :=
  if inputOctets ≤ 0 then
    ⟨0, []⟩
  else
    let numBlocks := (inputOctets / 16).toNat
    let padLen := 16 - (inputOctets - 16 * numBlocks).toNat
    let block := ((input.drop (16 * numBlocks)).take (16 - padLen)) ++
      List.replicate padLen (UInt8.ofNat padLen)
    ⟨16 * (numBlocks + 1), mapBlocks (cipher.encrypt key) numBlocks input ++
      (cipher.encrypt key (.read block)).bytes⟩

/-- `padLen` of the last block. -/
def Block.padLen (block : Block) : Nat := (block.bytes.getD 15 0).toNat

/-- The last block ends as `padEncrypt` has filled it up. -/
def Block.Padded (block : Block) : Prop :=
  block.padLen < 16 ∧ ∀ p ∈ block.bytes.drop (16 - block.padLen), p.toNat = block.padLen

instance (block : Block) : Decidable block.Padded := inferInstanceAs (Decidable (_ ∧ _))

/-- `padDecrypt`. -/
def Rijndael.padDecrypt (cipher : Rijndael) (key : Block) (input : Bytes) (inputOctets : Int) :
    Coded :=
  if inputOctets ≤ 0 then
    ⟨0, []⟩
  else if inputOctets % 16 ≠ 0 then
    ⟨badData, []⟩
  else
    let numBlocks := (inputOctets / 16).toNat
    let front := mapBlocks (cipher.decrypt key) (numBlocks - 1) input
    let block := cipher.decrypt key (.read (input.drop (16 * (numBlocks - 1))))
    if block.Padded then
      ⟨16 * numBlocks - block.padLen, front ++ block.bytes.take (16 - block.padLen)⟩
    else
      ⟨badData, front⟩

/-- `padDecrypt` finds `n` bytes that are no whole blocks, or a last block that is not filled
up. -/
def Rijndael.Refuses (cipher : Rijndael) (key : Block) (input : Bytes) (n : Int) : Prop :=
  0 < n ∧ (n % 16 ≠ 0 ∨
    ¬(cipher.decrypt key (.read (input.drop (16 * ((n / 16).toNat - 1))))).Padded)

instance (cipher : Rijndael) (key : Block) (input : Bytes) (n : Int) :
    Decidable (cipher.Refuses key input n) := inferInstanceAs (Decidable (_ ∧ _))

/-- `padDecrypt` fails exactly on what it refuses. -/
theorem Rijndael.ret_padDecrypt_neg_iff (cipher : Rijndael) (key : Block) (input : Bytes)
    (n : Int) : (cipher.padDecrypt key input n).ret < 0 ↔ cipher.Refuses key input n := by
  rw [padDecrypt, Refuses]
  by_cases nothing : n ≤ 0
  · rw [if_pos nothing]
    exact iff_of_false (Int.lt_irrefl 0) (by omega)
  · by_cases whole : n % 16 = 0
    · rw [if_neg nothing, if_neg (not_not_intro whole)]
      by_cases padded :
          (cipher.decrypt key (.read (input.drop (16 * ((n / 16).toNat - 1))))).Padded
      · have short := padded.1
        rw [if_pos padded]
        apply iff_of_false
        · simp only [Int.not_lt]
          omega
        · exact fun refuses => refuses.2.elim (absurd whole) (absurd padded)
      · simp only [padded, if_false, badData]
        exact iff_of_true (by decide) ⟨by omega, Or.inr not_false⟩
    · rw [if_neg nothing, if_pos whole]
      exact iff_of_true (by decide) ⟨by omega, Or.inl whole⟩

theorem ret_codeBlocks (f : Block → Block) (input : Bytes) (n : Int) :
    0 ≤ (codeBlocks f input n).ret := by
  rw [codeBlocks]
  split
  · exact Int.le_refl 0
  · exact Int.mul_nonneg (by decide) (Int.natCast_nonneg _)

/-! ## The keys are read back -/

theorem hexValue_byteToHex (c : UInt8) :
    hexValue (hexChar (c.toNat / 16)) = some (c.toNat / 16) ∧
      hexValue (hexChar (c.toNat % 16)) = some (c.toNat % 16) ∧
        UInt8.ofNat (c.toNat / 16 * 16 + c.toNat % 16) = c := by
  revert c
  apply forall_uInt8
  decide +kernel

/-- The digits that are written are read as the bytes they were written for. -/
theorem hexBytes_bytesToHexs (bytes : Bytes) :
    hexBytes bytes.length (bytesToHexs bytes) = some bytes := by
  induction bytes with
  | nil => rfl
  | cons c bytes ih =>
      obtain ⟨hi, lo, both⟩ := hexValue_byteToHex c
      have hexs : bytesToHexs (c :: bytes) =
          hexChar (c.toNat / 16) :: hexChar (c.toNat % 16) :: bytesToHexs bytes := rfl
      rw [hexs, List.length_cons, hexBytes, hi, lo, ih]
      simp only [Option.bind_eq_bind, Option.bind_some, Option.pure_def, both]

theorem Block.read_append (block : Block) (rest : Bytes) : .read (block.bytes ++ rest) = block := by
  obtain ⟨bytes, length_eq⟩ := block
  simp [Block.read, List.append_assoc, List.take_append_of_le_length (Nat.le_of_eq length_eq.symm),
    List.take_of_length_le (Nat.le_of_eq length_eq)]

theorem Block.bytes_read {s : Bytes} (long : 16 ≤ s.length) : (Block.read s).bytes = s.take 16 :=
  List.take_append_of_le_length long

theorem Block.read_bytes (block : Block) : .read block.bytes = block := by
  simpa using block.read_append []

/-- `makeKey` takes the key from its digits. -/
theorem makeKey_bytesToHexs (block : Block) : makeKey (bytesToHexs block.bytes) = .ok block := by
  have read := hexBytes_bytesToHexs block.bytes
  rw [block.length_eq] at read
  rw [makeKey, read]
  exact congrArg Except.ok block.read_bytes

theorem cipherInit_bytesToHexs (block : Block) :
    cipherInit (bytesToHexs block.bytes) = .ok block := by
  have read := hexBytes_bytesToHexs block.bytes
  rw [block.length_eq] at read
  rw [cipherInit, read]
  exact congrArg Except.ok block.read_bytes

/-! ## Blocks are read back -/

theorem length_mapBlocks (f : Block → Block) (n : Nat) (input : Bytes) :
    (mapBlocks f n input).length = 16 * n := by
  induction n generalizing input with
  | zero => rfl
  | succ n ih =>
      rw [mapBlocks, List.length_append, ih, (f (.read input)).length_eq]
      omega

/-- Undoing what was done to each block. -/
theorem mapBlocks_mapBlocks {f g : Block → Block} (undoes : ∀ b, g (f b) = b) (n : Nat)
    (input rest : Bytes) (long : 16 * n ≤ input.length) :
    mapBlocks g n (mapBlocks f n input ++ rest) = input.take (16 * n) := by
  induction n generalizing input with
  | zero => rfl
  | succ n ih =>
      have front : 16 ≤ input.length := by omega
      have later := ih (input.drop 16) (by rw [List.length_drop]; omega)
      have skipped : ((f (.read input)).bytes ++ (mapBlocks f n (input.drop 16) ++ rest)).drop 16 =
          mapBlocks f n (input.drop 16) ++ rest := by
        rw [List.drop_append_of_le_length (Nat.le_of_eq (f (.read input)).length_eq.symm)]
        simp [(f (.read input)).length_eq]
      rw [mapBlocks, mapBlocks, List.append_assoc, Block.read_append, undoes, skipped, later,
        Block.bytes_read front, Nat.mul_succ, Nat.add_comm, List.take_add]

/-- The last block that `padEncrypt` makes of `tail`. -/
def padded (tail : Bytes) : Bytes :=
  tail ++ List.replicate (16 - tail.length) (UInt8.ofNat (16 - tail.length))

/-- A padded end is a whole block. -/
theorem length_padded {tail : Bytes} (short : tail.length < 16) : (padded tail).length = 16 := by
  rw [padded, List.length_append, List.length_replicate]
  omega

theorem bytes_padded {tail : Bytes} (short : tail.length < 16) :
    (Block.read (padded tail)).bytes = padded tail := by
  have full := length_padded short
  rw [Block.bytes_read (Nat.le_of_eq full.symm), List.take_of_length_le (Nat.le_of_eq full)]

/-- The last byte of a padded end tells how many bytes are padding. -/
theorem padLen_padded {tail : Bytes} (some : tail ≠ []) (short : tail.length < 16) :
    (Block.read (padded tail)).padLen = 16 - tail.length := by
  have positive := List.length_pos_iff.mpr some
  rw [Block.padLen, bytes_padded short, padded, List.getD_eq_getElem?_getD,
    List.getElem?_append_right (by omega), List.getElem?_replicate_of_lt (by omega),
    Option.getD_some, UInt8.toNat_ofNat']
  omega

/-- `padDecrypt` takes a padded end for padded. -/
theorem padded_padded {tail : Bytes} (some : tail ≠ []) (short : tail.length < 16) :
    (Block.read (padded tail)).Padded := by
  have positive := List.length_pos_iff.mpr some
  rw [Block.Padded, padLen_padded some short, bytes_padded short]
  have keep : 16 - (16 - tail.length) = tail.length := by omega
  constructor
  · omega
  · intro p member
    rw [keep, padded, List.drop_left] at member
    rw [List.eq_of_mem_replicate member, UInt8.toNat_ofNat']
    omega

/-- Whole blocks are coded one after the other. -/
theorem codeBlocks_of_whole (f : Block → Block) {s : Bytes} {n : Nat} (whole : n % 16 = 0) :
    codeBlocks f s n = ⟨n, mapBlocks f (n / 16) s⟩ := by
  rw [codeBlocks]
  split
  · next none =>
      have zero : n = 0 := by omega
      subst zero
      rfl
  · have count : ((n : Int) / 16).toNat = n / 16 := by omega
    have all : (16 : Int) * (n / 16 : Nat) = n := by omega
    simp only [count, all]

section RoundTrip

variable {cipher : Rijndael} (inverts : cipher.Inverts) (key : Block)

include inverts

/-- Whole blocks. -/
theorem blockDecrypt_blockEncrypt {s : Bytes} (whole : s.length % 16 = 0) (rest : Bytes) :
    (cipher.blockEncrypt key s s.length).ret = s.length ∧
      (cipher.blockEncrypt key s s.length).written.length = s.length ∧
      cipher.blockDecrypt key ((cipher.blockEncrypt key s s.length).written ++ rest) s.length =
        ⟨s.length, s⟩ := by
  have all : 16 * (s.length / 16) = s.length := by omega
  rw [Rijndael.blockDecrypt, Rijndael.blockEncrypt, codeBlocks_of_whole _ whole,
    codeBlocks_of_whole _ whole, length_mapBlocks, all,
    mapBlocks_mapBlocks (inverts key) _ _ _ (Nat.le_of_eq all), all, List.take_length]
  exact ⟨rfl, rfl, rfl⟩

/-- Blocks of which the last one is filled up. -/
theorem padDecrypt_padEncrypt {s : Bytes} (partly : s.length % 16 ≠ 0) (rest : Bytes) :
    (cipher.padEncrypt key s s.length).ret = ((s.length / 16 + 1) * 16 : Nat) ∧
      (cipher.padEncrypt key s s.length).written.length = (s.length / 16 + 1) * 16 ∧
      cipher.padDecrypt key ((cipher.padEncrypt key s s.length).written ++ rest)
        ((s.length / 16 + 1) * 16 : Nat) = ⟨s.length, s⟩ := by
  have count : ((s.length : Int) / 16).toNat = s.length / 16 := by omega
  have tailLength : (s.drop (16 * (s.length / 16))).length = s.length % 16 := by
    rw [List.length_drop]
    omega
  have short : (s.drop (16 * (s.length / 16))).length < 16 := by omega
  have someTail : s.drop (16 * (s.length / 16)) ≠ [] := by
    rw [← List.length_pos_iff]
    omega
  have padLenEq : 16 - ((s.length : Int) - 16 * (s.length / 16 : Nat)).toNat =
      16 - s.length % 16 := by omega
  have blockEq : (s.drop (16 * (s.length / 16))).take (16 - (16 - s.length % 16)) ++
      List.replicate (16 - s.length % 16) (UInt8.ofNat (16 - s.length % 16)) =
        padded (s.drop (16 * (s.length / 16))) := by
    rw [padded, tailLength, List.take_of_length_le (by omega)]
  have encrypted : cipher.padEncrypt key s s.length =
      ⟨16 * ((s.length / 16 : Nat) + 1), mapBlocks (cipher.encrypt key) (s.length / 16) s ++
        (cipher.encrypt key (.read (padded (s.drop (16 * (s.length / 16)))))).bytes⟩ := by
    rw [Rijndael.padEncrypt, if_neg (by omega)]
    simp only [count, padLenEq, blockEq]
  rw [encrypted]
  refine ⟨by simp; omega, ?_, ?_⟩
  · rw [List.length_append, length_mapBlocks, Block.length_eq]
    omega
  · have count' : (((s.length / 16 + 1) * 16 : Nat) / 16 : Int).toNat = s.length / 16 + 1 := by omega
    have frontEq := mapBlocks_mapBlocks (inverts key) (s.length / 16) s
      ((cipher.encrypt key (.read (padded (s.drop (16 * (s.length / 16)))))).bytes ++ rest)
      (by omega)
    have skipped : (mapBlocks (cipher.encrypt key) (s.length / 16) s ++
        ((cipher.encrypt key (.read (padded (s.drop (16 * (s.length / 16)))))).bytes ++
          rest)).drop (mapBlocks (cipher.encrypt key) (s.length / 16) s).length = _ :=
      List.drop_left
    rw [length_mapBlocks] at skipped
    rw [Rijndael.padDecrypt, if_neg (by omega), if_neg (by omega)]
    simp only [count', Nat.add_sub_cancel, List.append_assoc, frontEq, skipped,
      Block.read_append, inverts key, padded_padded someTail short, if_true,
      padLen_padded someTail short, bytes_padded short]
    have keep : 16 - (16 - (s.drop (16 * (s.length / 16))).length) =
        (s.drop (16 * (s.length / 16))).length := by omega
    rw [keep, padded, List.take_left, List.take_append_drop]
    congr 1
    omega

end RoundTrip

end GPush.Crypt
