import GPush.ConnectServer.Common
import GPush.Crypt.Rijndael

/-!
# Strings under a key

`ef_aes.cpp`: the blocks of a string, and behind them the string's length in four bytes.
Which of the two paddings is used follows from the length when the string is encrypted, and
from the four bytes when it is decrypted.
-/

namespace GPush.Crypt

open GPush.Codec GPush.ConnectServer

/-- How a call can end without a result. -/
inductive Fault where
  /-- A read from before the start of the input. -/
  | readsBefore
  /-- `std::length_error`, from a negative size for a string. -/
  | lengthError
  /-- A call of `base64Encode` or `base64Decode` that has no result. -/
  | base64
  deriving DecidableEq, Repr

theorem ok_bind {α β : Type} (a : α) (next : α → Except Fault β) : .ok a >>= next = next a := rfl

/-- A size for a string. -/
def resized (dst : Bytes) (n : Int) : Except Fault Bytes :=
  match resize dst n with
  | none => .error .lengthError
  | some dst => .ok dst

/-- The front of a buffer after a call that writes there. -/
def overwrite (dst written : Bytes) : Bytes := written ++ dst.drop written.length

section Functions

/-! `md5` stands for `MD5`. -/

variable (cipher : Rijndael) (md5 : Bytes → Block)

/-- The key and the initialization vector, both from the hexadecimal digits of the hash. -/
def cipherKey (key : Bytes) : Except Int Block := do
  let keymat := bytesToHexs (md5 key).bytes
  let keyist ← makeKey keymat
  let _ ← cipherInit keymat
  return keyist

/-- The blocks of `src` in `aesEncrypt`, whose length as an `int` is `n`. -/
def Rijndael.encoded (keyist : Block) (src : Bytes) (n : Int) : Coded :=
  if src.length % 16 ≠ 0 then cipher.padEncrypt keyist src n else cipher.blockEncrypt keyist src n

/-- `aesEncrypt`. -/
def aesEncrypt (src key dst : Bytes) : Except Fault (Int × Bytes) :=
  match cipherKey md5 key with
  | .error ret => .ok (ret, dst)
  | .ok keyist => do
      let dst ← resized dst (src.length + 16 - src.length % 16 : Nat)
      let coded := cipher.encoded keyist src (wrapInt src.length)
      if coded.ret < 0 then
        return (coded.ret, overwrite dst coded.written)
      else
        let dst ← resized (overwrite dst coded.written) coded.ret
        return (coded.ret, dst ++ int32Bytes src.length)

/-- `orglen` of `aesDecrypt`, which is read from the last four bytes. -/
def orglen (src : Bytes) : Int := readInt32 (src.drop (src.length - 4))

/-- The largest `orglen` that `aesDecrypt` lets pass. -/
def maxOrglen (src : Bytes) : Int := wrapInt (wrapInt src.length - 4)

/-- The blocks of `src` in `aesDecrypt`, of whose bytes `n` are blocks. -/
def Rijndael.decoded (keyist : Block) (src : Bytes) (n : Int) : Coded :=
  if (orglen src).tmod 16 ≠ 0 then
    cipher.padDecrypt keyist src n
  else
    cipher.blockDecrypt keyist src n

/-- `aesDecrypt`. -/
def aesDecrypt (src key dst : Bytes) : Except Fault (Int × Bytes) :=
  match cipherKey md5 key with
  | .error ret => .ok (ret, dst)
  | .ok keyist =>
      if src.length < 4 then
        .error .readsBefore
      else if orglen src > maxOrglen src then
        .ok (-10, dst)
      else do
        let dst ← resized dst (src.length + 16 - src.length % 16 : Nat)
        let coded := cipher.decoded keyist src (wrapInt (src.length - 4 : Nat))
        if coded.ret < 0 then
          return (coded.ret, overwrite dst coded.written)
        else
          let dst ← resized (overwrite dst coded.written) (orglen src)
          return (coded.ret, dst)

end Functions

/-- The key of the cipher is the digest, through hexadecimal digits and back. -/
theorem cipherKey_eq (md5 : Bytes → Block) (key : Bytes) : cipherKey md5 key = .ok (md5 key) := by
  rw [cipherKey, makeKey_bytesToHexs, cipherInit_bytesToHexs]
  rfl

/-- `resize` cuts a string or fills it with zeros. -/
theorem resized_nat (dst : Bytes) (n : Nat) :
    resized dst n = .ok (dst.take n ++ List.replicate (n - dst.length) 0) := by
  rw [resized, resize, if_neg (by omega), Int.toNat_natCast]

/-- A resize to what was written leaves nothing of the old string. -/
theorem resized_overwrite (dst written : Bytes) :
    resized (overwrite dst written) written.length = .ok written := by
  rw [resized, overwrite, resize_length_append]

theorem length_resized {dst dst' : Bytes} {n : Int} (done : resized dst n = .ok dst') :
    dst'.length = n.toNat := by
  rw [resized, resize] at done
  split_ifs at done
  cases done
  simp
  omega

/-! ## The round trip -/

variable {cipher : Rijndael} {md5 : Bytes → Block}

/-- When all blocks are encrypted the length is appended to them. -/
theorem aesEncrypt_of_encoded {src : Bytes} {key dst : Bytes} {ret : Nat}
    (result : (cipher.encoded (md5 key) src (wrapInt src.length)).ret = ret)
    (all : (cipher.encoded (md5 key) src (wrapInt src.length)).written.length = ret) :
    aesEncrypt cipher md5 src key dst =
      .ok (ret, (cipher.encoded (md5 key) src (wrapInt src.length)).written ++
        int32Bytes src.length) := by
  have cut := resized_overwrite (dst.take (src.length + 16 - src.length % 16) ++
    List.replicate (src.length + 16 - src.length % 16 - dst.length) 0)
    (cipher.encoded (md5 key) src (wrapInt src.length)).written
  rw [all] at cut
  rw [aesEncrypt, cipherKey_eq]
  simp only [resized_nat dst, ok_bind, result]
  rw [if_neg (by omega), cut]
  rfl

/-- When the blocks are decrypted to a string of the length at the end, that is the result. -/
theorem aesDecrypt_of_decoded {src s : Bytes} {key dst : Bytes} (long : 4 ≤ src.length)
    (length : orglen src = s.length) (fits : orglen src ≤ maxOrglen src)
    (result : cipher.decoded (md5 key) src (wrapInt (src.length - 4 : Nat)) = ⟨s.length, s⟩) :
    aesDecrypt cipher md5 src key dst = .ok (s.length, s) := by
  rw [aesDecrypt, cipherKey_eq]
  simp only
  rw [if_neg (by omega), if_neg (by omega)]
  simp only [resized_nat dst, ok_bind, result]
  rw [if_neg (by omega), length, resized_overwrite]
  rfl

/-- The length is appended. -/
theorem length_aesEncrypt {src key dst body : Bytes} {ret : Int} (succeeds : 0 ≤ ret)
    (run : aesEncrypt cipher md5 src key dst = .ok (ret, body)) : 4 ≤ body.length := by
  rw [aesEncrypt, cipherKey_eq] at run
  simp only [resized_nat dst, ok_bind] at run
  split at run
  · next negative =>
      cases run
      omega
  · cases cut : resized (overwrite _ _) _ with
    | error fault =>
        rw [cut] at run
        cases run
    | ok dst' =>
        rw [cut] at run
        cases run
        rw [List.length_append]
        exact Nat.le_add_left _ _

/-- What is encrypted is decrypted, and is not much longer meanwhile. -/
theorem aesDecrypt_aesEncrypt (inverts : cipher.Inverts) (md5 : Bytes → Block) {s : Bytes}
    (small : s.length < 2 ^ 27) (key dst : Bytes) :
    ∃ (ret : Nat) (body : Bytes), aesEncrypt cipher md5 s key dst = .ok (ret, body) ∧
      4 ≤ body.length ∧ body.length ≤ s.length + 20 ∧
      ∀ dst', aesDecrypt cipher md5 body key dst' = .ok (s.length, s) := by
  have fits : wrapInt s.length = s.length := wrapInt_eq (by omega) (by omega)
  obtain ⟨n, least, most, coded, all, decoded⟩ : ∃ n : Nat, s.length ≤ n ∧ n ≤ s.length + 16 ∧
      (cipher.encoded (md5 key) s s.length).ret = n ∧
      (cipher.encoded (md5 key) s s.length).written.length = n ∧
      (if s.length % 16 ≠ 0 then
        cipher.padDecrypt (md5 key)
          ((cipher.encoded (md5 key) s s.length).written ++ int32Bytes s.length) n
      else
        cipher.blockDecrypt (md5 key)
          ((cipher.encoded (md5 key) s s.length).written ++ int32Bytes s.length) n) =
            ⟨s.length, s⟩ := by
    by_cases whole : s.length % 16 = 0
    · obtain ⟨ret, length, back⟩ :=
        blockDecrypt_blockEncrypt inverts (md5 key) whole (int32Bytes s.length)
      have encoded : cipher.encoded (md5 key) s s.length =
        cipher.blockEncrypt (md5 key) s s.length := if_neg (not_not_intro whole)
      simp only [encoded, ne_eq, whole, not_true_eq_false, if_false]
      exact ⟨s.length, Nat.le_refl _, Nat.le_add_right _ _, ret, length, back⟩
    · obtain ⟨ret, length, back⟩ :=
        padDecrypt_padEncrypt inverts (md5 key) whole (int32Bytes s.length)
      have encoded : cipher.encoded (md5 key) s s.length =
        cipher.padEncrypt (md5 key) s s.length := if_pos whole
      simp only [encoded, ne_eq, whole, not_false_eq_true, if_true]
      exact ⟨_, by omega, by omega, ret, length, back⟩
  rw [← fits] at coded all
  have body : aesEncrypt cipher md5 s key dst = _ := aesEncrypt_of_encoded coded all
  rw [fits] at body all
  refine ⟨n, _, body, ?_, ?_, ?_⟩
  · simp [int32Bytes]
  · rw [List.length_append, all]
    simp only [int32Bytes, List.length_cons, List.length_nil]
    omega
  · intro dst'
    have four : (int32Bytes s.length).length = 4 := rfl
    have size : ((cipher.encoded (md5 key) s s.length).written ++ int32Bytes s.length).length =
        n + 4 := by rw [List.length_append, all, four]
    have word : orglen ((cipher.encoded (md5 key) s s.length).written ++ int32Bytes s.length) =
        s.length := by
      rw [orglen, size, Nat.add_sub_cancel, List.drop_left' all]
      simpa using readInt32_int32Bytes (n := s.length) (by omega) (by omega) []
    have least' : orglen ((cipher.encoded (md5 key) s s.length).written ++ int32Bytes s.length) ≤
        maxOrglen ((cipher.encoded (md5 key) s s.length).written ++ int32Bytes s.length) := by
      rw [word, maxOrglen, size, wrapInt_eq (n := (n + 4 : Nat)) (by omega) (by omega),
        wrapInt_eq (by omega) (by omega)]
      omega
    apply aesDecrypt_of_decoded (by omega) word least'
    rw [Rijndael.decoded, word, size, Nat.add_sub_cancel, wrapInt_eq (by omega) (by omega)]
    have residue : (s.length : Int).tmod 16 ≠ 0 ↔ s.length % 16 ≠ 0 := by
      rw [Int.tmod_eq_emod_of_nonneg (by omega)]
      omega
    simp only [residue]
    exact decoded

/-! ## Any input -/

/-- The two reasons for which `aesDecrypt` returns a negative number. -/
def Rijndael.Rejects (cipher : Rijndael) (keyist : Block) (src : Bytes) : Prop :=
  maxOrglen src < orglen src ∨
    (orglen src).tmod 16 ≠ 0 ∧ cipher.Refuses keyist src (wrapInt (src.length - 4 : Nat))

instance (cipher : Rijndael) (keyist : Block) (src : Bytes) :
    Decidable (cipher.Rejects keyist src) := inferInstanceAs (Decidable (_ ∨ _))

/-- Only a decryption with padding can fail, on what it refuses. -/
theorem ret_decoded_neg_iff (keyist : Block) (src : Bytes) :
    (cipher.decoded keyist src (wrapInt (src.length - 4 : Nat))).ret < 0 ↔
      (orglen src).tmod 16 ≠ 0 ∧ cipher.Refuses keyist src (wrapInt (src.length - 4 : Nat)) := by
  rw [Rijndael.decoded]
  split
  · next padded =>
      rw [Rijndael.ret_padDecrypt_neg_iff]
      exact (and_iff_right padded).symm
  · next whole =>
      have positive := ret_codeBlocks (cipher.decrypt keyist) src (wrapInt (src.length - 4 : Nat))
      exact iff_of_false (by rw [Rijndael.blockDecrypt]; omega) fun padded => whole padded.1

theorem maxOrglen_le {src : Bytes} (long : 4 ≤ src.length) : maxOrglen src ≤ src.length := by
  have same : maxOrglen src = wrapInt (src.length - 4 : Nat) := by
    rw [maxOrglen, wrapInt, wrapInt, wrapInt, Int.bmod_sub_bmod]
    congr 1
    omega
  rw [same]
  exact Int.le_trans (wrapInt_natCast_le _) (by omega)

/-- A string without a length at its end is read in front of its start. -/
theorem aesDecrypt_of_short {src : Bytes} (short : src.length < 4) (key dst : Bytes) :
    aesDecrypt cipher md5 src key dst = .error .readsBefore := by
  rw [aesDecrypt, cipherKey_eq]
  exact if_pos short

/-- What is rejected gives a negative result. -/
theorem aesDecrypt_of_rejects {src key : Bytes} (long : 4 ≤ src.length)
    (rejects : cipher.Rejects (md5 key) src) (dst : Bytes) :
    ∃ ret dst', aesDecrypt cipher md5 src key dst = .ok (ret, dst') ∧ ret < 0 := by
  rw [aesDecrypt, cipherKey_eq]
  simp only
  rw [if_neg (by omega)]
  by_cases claimsMore : maxOrglen src < orglen src
  · rw [if_pos claimsMore]
    exact ⟨-10, dst, rfl, by decide⟩
  · have refused := (ret_decoded_neg_iff _ _).mpr (rejects.resolve_left claimsMore)
    rw [if_neg claimsMore]
    simp only [resized_nat dst, ok_bind]
    rw [if_pos refused]
    exact ⟨_, _, rfl, refused⟩

theorem aesDecrypt_of_not_rejects {src key : Bytes} (long : 4 ≤ src.length)
    (passes : ¬cipher.Rejects (md5 key) src) (dst : Bytes) :
    ∃ ret dst', 0 ≤ ret ∧
      aesDecrypt cipher md5 src key dst = (resized dst' (orglen src)).map fun dst => (ret, dst) := by
  have claims : ¬maxOrglen src < orglen src := fun more => passes (Or.inl more)
  have decodes : ¬(cipher.decoded (md5 key) src (wrapInt (src.length - 4 : Nat))).ret < 0 :=
    fun refused => passes (Or.inr ((ret_decoded_neg_iff _ _).mp refused))
  rw [aesDecrypt, cipherKey_eq]
  simp only
  rw [if_neg (by omega), if_neg claims]
  simp only [resized_nat dst, ok_bind]
  rw [if_neg decodes]
  exact ⟨_, _, Int.not_lt.mp decodes, rfl⟩

/-- What is accepted gives a string of the length at the end. -/
theorem aesDecrypt_of_accepts {src key : Bytes} (long : 4 ≤ src.length)
    (passes : ¬cipher.Rejects (md5 key) src) (positive : 0 ≤ orglen src) (dst : Bytes) :
    ∃ ret dst', aesDecrypt cipher md5 src key dst = .ok (ret, dst') ∧ 0 ≤ ret ∧
      (dst'.length : Int) = orglen src ∧ dst'.length ≤ src.length := by
  obtain ⟨ret, before, notNegative, run⟩ := aesDecrypt_of_not_rejects long passes dst
  have claims : ¬maxOrglen src < orglen src := fun more => passes (Or.inl more)
  have most := maxOrglen_le long
  obtain ⟨n, isNat⟩ := Int.eq_ofNat_of_zero_le positive
  rw [isNat, resized_nat] at run
  have length := length_resized (resized_nat before n)
  rw [Int.toNat_natCast] at length
  exact ⟨ret, _, run, notNegative, by rw [isNat, length], by omega⟩

/-- A negative length at the end throws. -/
theorem aesDecrypt_of_negative {src key : Bytes} (long : 4 ≤ src.length)
    (passes : ¬cipher.Rejects (md5 key) src) (negative : orglen src < 0) (dst : Bytes) :
    aesDecrypt cipher md5 src key dst = .error .lengthError := by
  obtain ⟨ret, before, -, run⟩ := aesDecrypt_of_not_rejects long passes dst
  rw [run, resized, resize_of_neg negative]
  rfl

/-- A negative result, or no more bytes than there were. -/
def Safe (src : Bytes) : Except Fault (Int × Bytes) → Prop
  | .error _ => False
  | .ok (ret, dst) => ret < 0 ∨ dst.length ≤ src.length

/-- The length is there and fits, and what it says of the padding is true. -/
def Rijndael.Accepts (cipher : Rijndael) (keyist : Block) (src : Bytes) : Prop :=
  4 ≤ src.length ∧ 0 ≤ orglen src ∧ ¬cipher.Rejects keyist src

/-- The length is there, and is not negative where anything is done with it. -/
def Rijndael.Tame (cipher : Rijndael) (keyist : Block) (src : Bytes) : Prop :=
  4 ≤ src.length ∧ (0 ≤ orglen src ∨ cipher.Rejects keyist src)

/-- `aesDecrypt` is safe exactly for the strings that are tame. -/
theorem safe_aesDecrypt_iff (src key dst : Bytes) :
    Safe src (aesDecrypt cipher md5 src key dst) ↔ cipher.Tame (md5 key) src := by
  by_cases long : 4 ≤ src.length
  · by_cases rejects : cipher.Rejects (md5 key) src
    · obtain ⟨ret, dst', run, negative⟩ := aesDecrypt_of_rejects long rejects dst
      rw [run]
      exact iff_of_true (Or.inl negative) ⟨long, Or.inr rejects⟩
    · by_cases positive : 0 ≤ orglen src
      · obtain ⟨ret, dst', run, -, -, fits⟩ := aesDecrypt_of_accepts long rejects positive dst
        rw [run]
        exact iff_of_true (Or.inr fits) ⟨long, Or.inl positive⟩
      · rw [aesDecrypt_of_negative long rejects (Int.not_le.mp positive)]
        exact iff_of_false id fun tame => tame.2.elim positive rejects
  · rw [aesDecrypt_of_short (Nat.not_le.mp long)]
    exact iff_of_false id fun tame => long tame.1

end GPush.Crypt
