import GPush.Crypt.Digest
import GPush.Crypt.RoundTrip
import GPush.Crypt.Standard

/-!
# The hash and the cipher of the program

`aesEncrypt` with the code of `MD5` and `rijndaelEncrypt`.  Its blocks are those of the standard,
under a key that is the digest of the standard, and all that was encrypted comes back.
-/

namespace GPush.Crypt

open GPush.Codec GPush.ConnectServer GPush.PushServer

/-- `MD5` of a string, with a context that is as it was found. -/
def md5Of (ctx : Md5.Md5Ctx) (s : Bytes) : Block := Md5.md5 ctx s (UInt32.ofNat s.length)

theorem md5Of_eq (ctx : Md5.Md5Ctx) {s : Bytes} (small : s.length < 2 ^ 32) :
    md5Of ctx s = Md5.digest s := by
  rw [md5Of, Md5.md5_eq, Nat.mod_eq_of_lt small, List.take_length]

/-- What the context held before does not matter. -/
theorem md5Of_ctx (ctx ctx' : Md5.Md5Ctx) : md5Of ctx = md5Of ctx' := by
  funext s
  rw [md5Of, md5Of, Md5.md5_eq, Md5.md5_eq]

/-! ## What is written -/

/-- Whole blocks, of which the last one is filled up if it has to be. -/
def filled (s : Bytes) : Bytes :=
  if s.length % 16 = 0 then
    s
  else
    s ++ List.replicate (16 - s.length % 16) (UInt8.ofNat (16 - s.length % 16))

theorem length_filled (s : Bytes) : (filled s).length = (s.length + 15) / 16 * 16 := by
  rw [filled]
  split
  · omega
  · rw [List.length_append, List.length_replicate]
    omega

theorem mapBlocks_append (f : Block → Block) {n : Nat} {front : Bytes}
    (whole : front.length = 16 * n) (m : Nat) (back : Bytes) :
    mapBlocks f (n + m) (front ++ back) = mapBlocks f n front ++ mapBlocks f m back := by
  induction n generalizing front with
  | zero =>
      rw [Nat.mul_zero, List.length_eq_zero_iff] at whole
      rw [whole, Nat.zero_add]
      rfl
  | succ n ih =>
      have long : 16 ≤ front.length := by omega
      have later := @ih (front.drop 16) (by rw [List.length_drop]; omega)
      have same : Block.read (front ++ back) = Block.read front := by
        rw [Block.read, Block.read, Block.mk.injEq, List.append_assoc,
          List.take_append_of_le_length long, List.take_append_of_le_length long]
      rw [Nat.succ_add, mapBlocks, mapBlocks, List.drop_append_of_le_length long, later, same,
        List.append_assoc]

/-- A block of what was made of all blocks. -/
theorem read_drop_mapBlocks (f : Block → Block) {i n : Nat} (inside : i < n) (input : Bytes) :
    Block.read ((mapBlocks f n input).drop (16 * i)) = f (.read (input.drop (16 * i))) := by
  induction i generalizing n input with
  | zero =>
      obtain ⟨n, rfl⟩ : ∃ m, n = m + 1 := ⟨n - 1, by omega⟩
      rw [Nat.mul_zero, List.drop_zero, List.drop_zero, mapBlocks, Block.read_append]
  | succ i ih =>
      obtain ⟨n, rfl⟩ : ∃ m, n = m + 1 := ⟨n - 1, by omega⟩
      have first : (f (.read input)).bytes.length = 16 := (f (.read input)).length_eq
      have skipped : (mapBlocks f (n + 1) input).drop (16 * (i + 1)) =
          (mapBlocks f n (input.drop 16)).drop (16 * i) := by
        rw [mapBlocks, Nat.mul_succ, Nat.add_comm, ← List.drop_drop, List.drop_left' first]
      rw [skipped, ih (by omega), List.drop_drop, Nat.mul_succ, Nat.add_comm]

/-- Both paddings come to filling up. -/
theorem encoded_eq (cipher : Rijndael) (keyist : Block) (s : Bytes) :
    cipher.encoded keyist s s.length = ⟨(filled s).length,
      mapBlocks (cipher.encrypt keyist) ((filled s).length / 16) (filled s)⟩ := by
  have size := length_filled s
  by_cases whole : s.length % 16 = 0
  · have same : filled s = s := if_pos whole
    rw [Rijndael.encoded, if_neg (not_not_intro whole), same, Rijndael.blockEncrypt,
      codeBlocks_of_whole _ whole]
  · have count : ((s.length : Int) / 16).toNat = s.length / 16 := by omega
    have missing : 16 - ((s.length : Int) - 16 * (s.length / 16 : Nat)).toNat =
        16 - s.length % 16 := by omega
    have front : (s.take (16 * (s.length / 16))).length = 16 * (s.length / 16) := by
      rw [List.length_take]
      omega
    have tail : (s.drop (16 * (s.length / 16))).take (16 - (16 - s.length % 16)) =
        s.drop (16 * (s.length / 16)) := List.take_of_length_le (by rw [List.length_drop]; omega)
    have split : filled s = s.take (16 * (s.length / 16)) ++
        ((s.drop (16 * (s.length / 16))).take (16 - (16 - s.length % 16)) ++
          List.replicate (16 - s.length % 16) (UInt8.ofNat (16 - s.length % 16))) := by
      rw [filled, if_neg whole, tail, ← List.append_assoc, List.take_append_drop]
    have blocks : (filled s).length / 16 = s.length / 16 + 1 := by omega
    have same : mapBlocks (cipher.encrypt keyist) (s.length / 16) s =
        mapBlocks (cipher.encrypt keyist) (s.length / 16) (s.take (16 * (s.length / 16))) := by
      have both := mapBlocks_append (cipher.encrypt keyist) front 0 (s.drop (16 * (s.length / 16)))
      rw [List.take_append_drop] at both
      exact both.trans (List.append_nil _)
    have total : (16 : Int) * ((s.length / 16 : Nat) + 1) = (filled s).length := by omega
    rw [Rijndael.encoded, if_pos whole, Rijndael.padEncrypt, if_neg (by omega)]
    simp only [count, missing, total]
    rw [blocks, split, mapBlocks_append _ front, same, mapBlocks, mapBlocks, List.append_nil]

theorem length_encoded (cipher : Rijndael) (keyist : Block) (s : Bytes) :
    (mapBlocks (cipher.encrypt keyist) ((filled s).length / 16) (filled s)).length =
      (filled s).length := by
  rw [length_mapBlocks, length_filled]
  omega

/-- A block under the cipher of the standard. -/
theorem square_aes (keyist pt : Block) :
    (aes.encrypt keyist pt).square = Square.encrypted 4 (keyColumns keyist.bytes 4) pt.square :=
  @rijndaelEncrypt_standard keyist.bytes 4 (Or.inl rfl) pt

/-- What `aesEncrypt` writes: the blocks of the filled string, each under the cipher of the
standard, and the length of the string.  `aesDecrypt` reads it. -/
theorem aesEncrypt_aes (ctx ctx' : Md5.Md5Ctx) {s key : Bytes} (small : s.length < 2 ^ 27)
    (smallKey : key.length < 2 ^ 32) (dst : Bytes) :
    ∃ blocks, aesEncrypt aes (md5Of ctx) s key dst =
        .ok ((filled s).length, blocks ++ int32Bytes s.length) ∧
      blocks.length = (filled s).length ∧
      (∀ i < (filled s).length / 16, (Block.read (blocks.drop (16 * i))).square =
        Square.encrypted 4 (keyColumns (Md5.digest key).bytes 4)
          (Block.read ((filled s).drop (16 * i))).square) ∧
      ∀ dst', aesDecrypt aes (md5Of ctx') (blocks ++ int32Bytes s.length) key dst' =
        .ok (s.length, s) := by
  have fits : wrapInt s.length = s.length := wrapInt_eq (by omega) (by omega)
  have encoded := encoded_eq aes (md5Of ctx key) s
  have written : aesEncrypt aes (md5Of ctx) s key dst = _ :=
    @aesEncrypt_of_encoded aes (md5Of ctx) s key dst (filled s).length (by rw [fits, encoded])
      (by rw [fits, encoded]; exact length_encoded aes _ s)
  rw [fits, encoded] at written
  refine ⟨_, written, length_encoded aes _ s, ?_, ?_⟩
  · intro i inside
    rw [read_drop_mapBlocks _ inside, square_aes, md5Of_eq ctx smallKey]
  · intro dst'
    obtain ⟨ret, body, encrypted, -, -, decrypted⟩ :=
      aesDecrypt_aesEncrypt aes_inverts (md5Of ctx) small key dst
    rw [written] at encrypted
    cases encrypted
    rw [md5Of_ctx ctx' ctx]
    exact decrypted dst'

/-- Seventeen bytes under the key `1000`. -/
theorem aesEncrypt_aes_seventeen :
    ∃ blocks, aesEncrypt aes (md5Of ⟨Md5.initial, 0, 0, List.replicate 64 0, rfl⟩)
        (List.replicate 17 71) [49, 48, 48, 48] [] =
          .ok ((filled (List.replicate 17 71)).length, blocks ++ int32Bytes 17) ∧
      blocks.length = (filled (List.replicate 17 71)).length ∧
      (∀ i < (filled (List.replicate 17 71)).length / 16,
        (Block.read (blocks.drop (16 * i))).square =
          Square.encrypted 4 (keyColumns (Md5.digest [49, 48, 48, 48]).bytes 4)
            (Block.read ((filled (List.replicate 17 71)).drop (16 * i))).square) ∧
      ∀ dst', aesDecrypt aes (md5Of ⟨Md5.initial, 3, 5, List.replicate 64 9, rfl⟩)
        (blocks ++ int32Bytes 17) [49, 48, 48, 48] dst' = .ok (17, List.replicate 17 71) :=
  aesEncrypt_aes _ _ (by decide) (by decide) _

/-! ## Texts and tokens -/

section Texts

variable (sending receiving : Md5.Md5Ctx)

/-- What `encrypt` has made of a string is read back by `decrypt` in another process. -/
theorem decrypt_encrypt_aes {s : Bytes} (small : s.length < 2 ^ 27) {stamp number : Int}
    (isLong : -2 ^ 63 ≤ stamp ∧ stamp < 2 ^ 63) (isRandom : 0 ≤ number ∧ number < 2 ^ 31)
    (timeout now : Int) (enctext text : Bytes) :
    ∃ sent, encrypt aes (md5Of sending) stamp number s enctext = .ok (autherrOk, sent) ∧
      decrypt aes (md5Of receiving) timeout now sent text =
        .ok (if timeout < age now (decimal stamp) then (autherrTimeout, text)
          else (autherrOk, s)) := by
  rw [md5Of_ctx receiving sending]
  exact decrypt_encrypt aes_inverts small isLong isRandom timeout now enctext text

/-- What `generateToken` has made of a map is read back by `checkToken` in another process. -/
theorem checkToken_generateToken_aes {m : List (Bytes × Bytes)}
    (small : (flatten m).length < 2 ^ 27) {stamp timeout now : Int}
    (isLong : -2 ^ 63 ≤ stamp ∧ stamp < 2 ^ 63) (inTime : age now (decimal stamp) ≤ timeout)
    (before : Bytes) :
    ∃ token, generateToken aes (md5Of sending) stamp m before = .ok (autherrOk, token) ∧
      checkToken aes (md5Of receiving) timeout now token [] =
        .ok (autherrOk, readBody (flatten m)) := by
  rw [md5Of_ctx receiving sending]
  exact checkToken_generateToken (undone_of_length_lt aes_inverts _ small isLong) inTime before

end Texts

end GPush.Crypt
