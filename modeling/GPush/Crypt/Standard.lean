import GPush.Crypt.Aes
import GPush.Crypt.Expansion

/-!
# The cipher of the standard

`rijndaelEncrypt` is the cipher of the standard for each length of the key, and `rijndaelDecrypt`
undoes it.
-/

namespace GPush.Crypt

open GPush.Codec

/-- The square of a block. -/
def Block.square (block : Block) : Square := fun c r => ⟨block.bytes.getD (4 * c + r) 0⟩

theorem square_read (block : Block) : (Words.read block.bytes).square = block.square := by
  funext c
  fin_cases c <;> refine (column_wordOf _ _ _ _).trans ?_ <;> funext r <;> fin_cases r <;> rfl

theorem Block.square_injective : Function.Injective Block.square := by
  intro a b same
  rw [← square_read, ← square_read] at same
  rw [← Words.block_read a, Words.square_injective same, Words.block_read b]

/-- The round keys of a schedule. -/
def keys (rk : List UInt32) (rounds : Nat) : RoundKeys Square :=
  ⟨(roundKey rk 0).square, (List.range' 1 (rounds - 1)).map fun i => (roundKey rk (4 * i)).square,
    (roundKey rk (4 * rounds)).square⟩

/-! ## The rounds -/

section Rounds

variable {layers : Layers Square} {round last : Words → Words → Words}

/-- The loop over two rounds at a time. -/
theorem fullRounds_eq (roundEq : ∀ s k, (round s k).square = layers.round s.square k.square)
    (rk : List UInt32) (n q : Nat) (s : Words) :
    (fullRounds round rk (n + 1) (4 * q) s).1.square =
        ((List.range' (q + 1) (2 * n + 1)).map fun i => (roundKey rk (4 * i)).square).foldl
          layers.round s.square ∧
      (fullRounds round rk (n + 1) (4 * q) s).2 = 4 * (q + 2 * (n + 1)) := by
  induction n generalizing q s with
  | zero => exact ⟨roundEq _ _, rfl⟩
  | succ n ih =>
      obtain ⟨state, place⟩ := ih (q + 2)
        (round (round s (roundKey rk (4 * q + 4))) (roundKey rk (4 * q + 8)))
      have two : 2 * (n + 1) + 1 = 2 * n + 1 + 1 + 1 := by omega
      rw [fullRounds, if_neg (Nat.succ_ne_zero n)]
      constructor
      · refine state.trans ?_
        rw [two, List.range'_succ, List.range'_succ, List.map_cons, List.map_cons, List.foldl_cons,
          List.foldl_cons, roundEq, roundEq]
        rfl
      · refine place.trans ?_
        omega

theorem square_cipherBlock (roundEq : ∀ s k, (round s k).square = layers.round s.square k.square)
    (lastEq : ∀ t k, (last t k).square = layers.substitute t.square + k.square)
    (rk : List UInt32) (n : Nat) (pt : Block) :
    (cipherBlock round last rk (2 * (n + 1)) pt).square =
      layers.run (keys rk (2 * (n + 1))) pt.square := by
  have half : 2 * (n + 1) / 2 = n + 1 := by omega
  have inner : 2 * (n + 1) - 1 = 2 * n + 1 := by omega
  obtain ⟨state, place⟩ := fullRounds_eq roundEq rk n 0 ((Words.read pt.bytes).xor (roundKey rk 0))
  rw [← square_read, cipherBlock, half]
  simp only [Words.read_block, lastEq, state, place]
  rw [Layers.run, keys, inner, Words.square_xor, square_read]
  simp only [Nat.zero_add]

end Rounds

/-- The layers of the cipher. -/
def aesLayers : Layers Square := Square.layers substitution

theorem square_rijndaelEncrypt (rk : List UInt32) (n : Nat) (pt : Block) :
    (rijndaelEncrypt rk (2 * (n + 1)) pt).square =
      aesLayers.run (keys rk (2 * (n + 1))) pt.square :=
  square_cipherBlock square_encryptRound square_encryptLast rk n pt

theorem square_rijndaelDecrypt (rk : List UInt32) (n : Nat) (ct : Block) :
    (rijndaelDecrypt rk (2 * (n + 1)) ct).square =
      aesLayers.symm.run (keys rk (2 * (n + 1))) ct.square :=
  square_cipherBlock square_decryptRound square_decryptLast rk n ct

/-! ## Decrypting undoes encrypting -/

/-- The numbers of the rounds, from the last one. -/
theorem reverse_range'_one (n : Nat) :
    (List.range' 1 (n - 1)).reverse = (List.range' 1 (n - 1)).map (n - ·) := by
  apply List.ext_getElem
  · simp
  · intro i inside _
    simp at inside
    simp
    omega

/-- The loops of `rijndaelKeySetupDec` make the keys that undo all rounds. -/
theorem keys_unmixed {rk : List UInt32} {n : Nat} (some : 0 < n) (length : rk.length = 4 * (n + 1)) :
    keys ((List.range' 1 (n - 1)).foldl unmixKey (invertOrder rk 0 (4 * n))) n =
      aesLayers.undo (keys rk n) := by
  have inverted := fun q => @roundKey_invertOrder rk 0 n (by omega) q
  have mixed := fun q => @roundKey_foldl_unmixKey (invertOrder rk 0 (4 * n)) (n - 1)
    (by rw [length_invertOrder]; omega) q
  have first : roundKey ((List.range' 1 (n - 1)).foldl unmixKey (invertOrder rk 0 (4 * n))) 0 =
      roundKey rk (4 * n) := by
    have place := inverted 0
    rw [if_pos (by omega), Nat.zero_add, Nat.sub_zero] at place
    exact (mixed 0).trans ((if_neg (by omega)).trans place)
  have last : roundKey ((List.range' 1 (n - 1)).foldl unmixKey (invertOrder rk 0 (4 * n)))
      (4 * n) = roundKey rk 0 := by
    have place := inverted n
    rw [if_pos (by omega), Nat.zero_add, Nat.sub_self] at place
    exact (mixed n).trans ((if_neg (by omega)).trans place)
  have inner : ∀ q ∈ List.range' 1 (n - 1),
      (roundKey ((List.range' 1 (n - 1)).foldl unmixKey (invertOrder rk 0 (4 * n)))
        (4 * q)).square = aesLayers.undoKey (roundKey rk (4 * (n - q))).square := by
    intro q member
    rw [List.mem_range'_1] at member
    have place := inverted q
    rw [if_pos (by omega), Nat.zero_add] at place
    rw [mixed q, if_pos (by omega), place, Words.square_unmix]
    rfl
  rw [keys, keys, Layers.undo, first, last]
  congr 1
  rw [List.map_congr_left inner, ← List.map_reverse, reverse_range'_one, List.map_map, List.map_map]
  rfl

/-- The number of rounds and the length of the schedule. -/
theorem length_rijndaelKeySetupEnc (cipherKey : Bytes) {nk : Nat}
    (valid : nk = 4 ∨ nk = 6 ∨ nk = 8) :
    (rijndaelKeySetupEnc cipherKey (32 * nk)).1.length = 4 * (nk + 6 + 1) := by
  rw [length_of_columns (columns_rijndaelKeySetupEnc cipherKey valid).1, length_keyWords]
  omega

theorem keys_rijndaelKeySetupDec (cipherKey : Bytes) {nk : Nat} (valid : nk = 4 ∨ nk = 6 ∨ nk = 8) :
    keys (rijndaelKeySetupDec cipherKey (32 * nk)).1 (nk + 6) =
        aesLayers.undo (keys (rijndaelKeySetupEnc cipherKey (32 * nk)).1 (nk + 6)) ∧
      (rijndaelKeySetupDec cipherKey (32 * nk)).2 = nk + 6 := by
  have rounds := (columns_rijndaelKeySetupEnc cipherKey valid).2
  have unmixed := keys_unmixed (Nat.succ_pos _) (length_rijndaelKeySetupEnc cipherKey valid)
  rw [rijndaelKeySetupDec]
  simp only [rounds]
  exact ⟨unmixed, trivial⟩

/-- Under the schedules of one key each of the two undoes the other. -/
theorem rijndaelDecrypt_rijndaelEncrypt (cipherKey : Bytes) {keyBits : Nat}
    (valid : keyBits = 128 ∨ keyBits = 192 ∨ keyBits = 256) (block : Block) :
    let enc := rijndaelKeySetupEnc cipherKey keyBits
    let dec := rijndaelKeySetupDec cipherKey keyBits
    rijndaelDecrypt dec.1 dec.2 (rijndaelEncrypt enc.1 enc.2 block) = block ∧
      rijndaelEncrypt enc.1 enc.2 (rijndaelDecrypt dec.1 dec.2 block) = block := by
  obtain ⟨nk, n, bits, keyWords, even⟩ : ∃ nk n, keyBits = 32 * nk ∧ (nk = 4 ∨ nk = 6 ∨ nk = 8) ∧
      nk + 6 = 2 * (n + 1) := ⟨keyBits / 32, keyBits / 64 + 2, by omega, by omega, by omega⟩
  have encRounds := (columns_rijndaelKeySetupEnc cipherKey keyWords).2
  obtain ⟨decKeys, decRounds⟩ := keys_rijndaelKeySetupDec cipherKey keyWords
  rw [even] at encRounds decKeys decRounds
  simp only [bits, encRounds, decRounds]
  constructor
  · apply Block.square_injective
    rw [square_rijndaelDecrypt, square_rijndaelEncrypt, decKeys]
    exact aesLayers.symm_run_undo _ _
  · apply Block.square_injective
    rw [square_rijndaelEncrypt, square_rijndaelDecrypt, decKeys]
    exact aesLayers.run_symm_run _ _

/-- The key of 192 bits with the bytes from 0 to 23. -/
theorem rijndaelDecrypt_rijndaelEncrypt_counting :
    let cipherKey := (List.range 24).map UInt8.ofNat
    let block : Block := ⟨List.replicate 16 0xff, rfl⟩
    let enc := rijndaelKeySetupEnc cipherKey 192
    let dec := rijndaelKeySetupDec cipherKey 192
    rijndaelDecrypt dec.1 dec.2 (rijndaelEncrypt enc.1 enc.2 block) = block ∧
      rijndaelEncrypt enc.1 enc.2 (rijndaelDecrypt dec.1 dec.2 block) = block :=
  rijndaelDecrypt_rijndaelEncrypt _ (Or.inr (Or.inl rfl)) _

/-! ## The standard -/

/-- The words of a key. -/
def keyColumns (cipherKey : Bytes) (nk : Nat) : List (Fin 4 → Gf256) :=
  (List.range nk).map fun i r => ⟨cipherKey.getD (4 * i + r) 0⟩

theorem columns_keyWords (cipherKey : Bytes) (nk : Nat) :
    columns (keyWords cipherKey nk) = keyColumns cipherKey nk := by
  rw [columns, keyWords, List.map_map, keyColumns]
  apply List.map_congr_left
  intro i _
  refine (column_wordOf _ _ _ _).trans ?_
  funext r
  fin_cases r <;> rfl

theorem square_roundKey (rk : List UInt32) (i : Nat) :
    (roundKey rk (4 * i)).square = Square.keyAt (columns rk) i := by
  funext c
  fin_cases c <;> exact (getD_columns rk _).symm

theorem round_aesLayers (s key : Square) :
    aesLayers.round s key = (s.subBytes Square.subByte).shiftRows.mixColumns + key := by
  rw [aesLayers, Square.round_layers, funext substitution_eq]

/-- `rijndaelEncrypt` with the schedule of a key is the cipher of the standard. -/
theorem rijndaelEncrypt_standard (cipherKey : Bytes) {nk : Nat} (valid : nk = 4 ∨ nk = 6 ∨ nk = 8)
    (pt : Block) :
    let enc := rijndaelKeySetupEnc cipherKey (32 * nk)
    (rijndaelEncrypt enc.1 enc.2 pt).square =
      Square.encrypted nk (keyColumns cipherKey nk) pt.square := by
  obtain ⟨n, even⟩ : ∃ n, nk + 6 = 2 * (n + 1) := ⟨nk / 2 + 2, by omega⟩
  obtain ⟨expanded, rounds⟩ := columns_rijndaelKeySetupEnc cipherKey valid
  rw [columns_keyWords] at expanded
  have last : ∀ s, aesLayers.substitute s = (s.subBytes Square.subByte).shiftRows := by
    intro s
    rw [← funext substitution_eq]
    rfl
  have first : (roundKey (rijndaelKeySetupEnc cipherKey (32 * nk)).1 0).square = _ :=
    square_roundKey _ 0
  simp only [rounds]
  rw [even, square_rijndaelEncrypt, Layers.run, last, Square.encrypted, ← expanded, even]
  simp only [keys, List.foldl_map, round_aesLayers, square_roundKey, first]

/-- The key of 256 bits with the bytes from 0 to 31. -/
theorem rijndaelEncrypt_standard_counting :
    let cipherKey := (List.range 32).map UInt8.ofNat
    let pt : Block := ⟨(List.range 16).map fun i => UInt8.ofNat (17 * i), rfl⟩
    let enc := rijndaelKeySetupEnc cipherKey 256
    (rijndaelEncrypt enc.1 enc.2 pt).square = Square.encrypted 8 (keyColumns cipherKey 8) pt.square :=
  @rijndaelEncrypt_standard _ 8 (Or.inr (Or.inr rfl)) _

/-- The block that the standard gives for this key. -/
example :
    let enc := rijndaelKeySetupEnc ((List.range 32).map UInt8.ofNat) 256
    (rijndaelEncrypt enc.1 enc.2 ⟨(List.range 16).map fun i => UInt8.ofNat (17 * i), rfl⟩).bytes =
      [0x8e, 0xa2, 0xb7, 0xca, 0x51, 0x67, 0x45, 0xbf, 0xea, 0xfc, 0x49, 0x90, 0x4b, 0x49, 0x60,
        0x89] := by
  decide +kernel

/-! ## `aesEncrypt` and `aesDecrypt` -/

/-- `rijndaelEncrypt` and `rijndaelDecrypt` with the key schedules that `makeKey` makes. -/
def aes : Rijndael where
  encrypt key pt :=
    let enc := rijndaelKeySetupEnc key.bytes 128
    rijndaelEncrypt enc.1 enc.2 pt
  decrypt key ct :=
    let dec := rijndaelKeySetupDec key.bytes 128
    rijndaelDecrypt dec.1 dec.2 ct

theorem aes_inverts : aes.Inverts := fun key block =>
  (rijndaelDecrypt_rijndaelEncrypt key.bytes (Or.inl rfl) block).1

end GPush.Crypt
