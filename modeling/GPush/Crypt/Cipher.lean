import GPush.Crypt.Rijndael
import GPush.Crypt.Tables

/-!
# Rijndael for a block

`rijndael-alg-fst.cpp`: the expansion of a key to the key schedules of encryption and decryption,
and the rounds, in which the tables are looked up for each byte of the state.
-/

namespace GPush.Crypt

open GPush.Codec

/-- `s0` to `s3`, or four words of a key schedule. -/
@[ext]
structure Words where
  s0 : UInt32
  s1 : UInt32
  s2 : UInt32
  s3 : UInt32
  deriving DecidableEq

/-- `GETU32`. -/
def getU32 (pt : Bytes) (i : Nat) : UInt32 :=
  wordOf (pt.getD i 0) (pt.getD (i + 1) 0) (pt.getD (i + 2) 0) (pt.getD (i + 3) 0)

/-- `PUTU32`. -/
def putU32 (st : UInt32) : Bytes :=
  [(st >>> 24).toUInt8, (st >>> 16).toUInt8, (st >>> 8).toUInt8, st.toUInt8]

/-- The words of a block. -/
def Words.read (pt : Bytes) : Words := ⟨getU32 pt 0, getU32 pt 4, getU32 pt 8, getU32 pt 12⟩

/-- A block of words. -/
def Words.block (s : Words) : Block :=
  ⟨putU32 s.s0 ++ putU32 s.s1 ++ putU32 s.s2 ++ putU32 s.s3, rfl⟩

/-- Adding a round key. -/
def Words.xor (s k : Words) : Words :=
  ⟨s.s0 ^^^ k.s0, s.s1 ^^^ k.s1, s.s2 ^^^ k.s2, s.s3 ^^^ k.s3⟩

/-- `rk[i]`. -/
def wordAt (rk : List UInt32) (i : Nat) : UInt32 := rk.getD i 0

/-- `rk[i]` to `rk[i + 3]`. -/
def roundKey (rk : List UInt32) (i : Nat) : Words :=
  ⟨wordAt rk i, wordAt rk (i + 1), wordAt rk (i + 2), wordAt rk (i + 3)⟩

/-! ## Key schedules -/

/-- A byte of an entry. -/
def masked (table : List UInt32) (x : UInt8) (mask : UInt32) : UInt32 := look table x &&& mask

/-- The substituted bytes of a word, for bytes that stand in four words. -/
def substituted (table : List UInt32) (a b c d : UInt32) : UInt32 :=
  masked table (a >>> 24).toUInt8 0xff000000 ^^^
    masked table (b >>> 16).toUInt8 0x00ff0000 ^^^
    masked table (c >>> 8).toUInt8 0x0000ff00 ^^^
    masked table d.toUInt8 0x000000ff

/-- The substituted bytes of `temp`, turned by one. -/
def turnedSubstituted (temp : UInt32) : UInt32 :=
  masked te4 (temp >>> 16).toUInt8 0xff000000 ^^^
    masked te4 (temp >>> 8).toUInt8 0x00ff0000 ^^^
    masked te4 temp.toUInt8 0x0000ff00 ^^^
    masked te4 (temp >>> 24).toUInt8 0x000000ff

/-- A round of the loop for 128 bits, with `rk` at `p`. -/
def expand128 (rk : List UInt32) (i : Nat) : List UInt32 :=
  let p := 4 * i
  let w4 := wordAt rk p ^^^ turnedSubstituted (wordAt rk (p + 3)) ^^^ wordAt rcon i
  let w5 := wordAt rk (p + 1) ^^^ w4
  let w6 := wordAt rk (p + 2) ^^^ w5
  let w7 := wordAt rk (p + 3) ^^^ w6
  rk ++ [w4, w5, w6, w7]

/-- A round of the loop for 192 bits, which ends before the last two words of the last round. -/
def expand192 (rk : List UInt32) (i : Nat) : List UInt32 :=
  let p := 6 * i
  let w6 := wordAt rk p ^^^ turnedSubstituted (wordAt rk (p + 5)) ^^^ wordAt rcon i
  let w7 := wordAt rk (p + 1) ^^^ w6
  let w8 := wordAt rk (p + 2) ^^^ w7
  let w9 := wordAt rk (p + 3) ^^^ w8
  if i + 1 = 8 then
    rk ++ [w6, w7, w8, w9]
  else
    let w10 := wordAt rk (p + 4) ^^^ w9
    let w11 := wordAt rk (p + 5) ^^^ w10
    rk ++ [w6, w7, w8, w9, w10, w11]

/-- A round of the loop for 256 bits, which ends in the middle of the last round. -/
def expand256 (rk : List UInt32) (i : Nat) : List UInt32 :=
  let p := 8 * i
  let w8 := wordAt rk p ^^^ turnedSubstituted (wordAt rk (p + 7)) ^^^ wordAt rcon i
  let w9 := wordAt rk (p + 1) ^^^ w8
  let w10 := wordAt rk (p + 2) ^^^ w9
  let w11 := wordAt rk (p + 3) ^^^ w10
  if i + 1 = 7 then
    rk ++ [w8, w9, w10, w11]
  else
    let w12 := wordAt rk (p + 4) ^^^ substituted te4 w11 w11 w11 w11
    let w13 := wordAt rk (p + 5) ^^^ w12
    let w14 := wordAt rk (p + 6) ^^^ w13
    let w15 := wordAt rk (p + 7) ^^^ w14
    rk ++ [w8, w9, w10, w11, w12, w13, w14, w15]

/-- The first `n` words of a key. -/
def keyWords (cipherKey : Bytes) (n : Nat) : List UInt32 :=
  (List.range n).map fun i => getU32 cipherKey (4 * i)

/-- `rijndaelKeySetupEnc`: the key schedule and the number of rounds. -/
def rijndaelKeySetupEnc (cipherKey : Bytes) (keyBits : Nat) : List UInt32 × Nat :=
  if keyBits = 128 then
    ((List.range 10).foldl expand128 (keyWords cipherKey 4), 10)
  else if keyBits = 192 then
    ((List.range 8).foldl expand192 (keyWords cipherKey 6), 12)
  else if keyBits = 256 then
    ((List.range 7).foldl expand256 (keyWords cipherKey 8), 14)
  else
    (keyWords cipherKey 8, 0)

/-- Two words change places. -/
def swapWords (rk : List UInt32) (i j : Nat) : List UInt32 :=
  let temp := wordAt rk i
  (rk.set i (wordAt rk j)).set j temp

/-- Two round keys change places. -/
def swapKeys (rk : List UInt32) (i j : Nat) : List UInt32 :=
  swapWords (swapWords (swapWords (swapWords rk i j) (i + 1) (j + 1)) (i + 2) (j + 2)) (i + 3)
    (j + 3)

/-- The loop that inverts the order of the round keys. -/
def invertOrder (rk : List UInt32) (i j : Nat) : List UInt32 :=
  if i < j then invertOrder (swapKeys rk i j) (i + 4) (j - 4) else rk
  termination_by j - i

/-- The inverse `MixColumn` of a word of a round key. -/
def unmixWord (w : UInt32) : UInt32 :=
  look td0 (look te4 (w >>> 24).toUInt8).toUInt8 ^^^
    look td1 (look te4 (w >>> 16).toUInt8).toUInt8 ^^^
    look td2 (look te4 (w >>> 8).toUInt8).toUInt8 ^^^
    look td3 (look te4 w.toUInt8).toUInt8

/-- A round of the loop over the round keys, with `rk` at `4 * i`. -/
def unmixKey (rk : List UInt32) (i : Nat) : List UInt32 :=
  (((rk.modify (4 * i) unmixWord).modify (4 * i + 1) unmixWord).modify (4 * i + 2)
    unmixWord).modify (4 * i + 3) unmixWord

/-- `rijndaelKeySetupDec`. -/
def rijndaelKeySetupDec (cipherKey : Bytes) (keyBits : Nat) : List UInt32 × Nat :=
  let (rk, rounds) := rijndaelKeySetupEnc cipherKey keyBits
  ((List.range' 1 (rounds - 1)).foldl unmixKey (invertOrder rk 0 (4 * rounds)), rounds)

/-! ## Rounds -/

/-- A word of the state after a full round. -/
def fullWord (t0 t1 t2 t3 : List UInt32) (a b c d key : UInt32) : UInt32 :=
  look t0 (a >>> 24).toUInt8 ^^^ look t1 (b >>> 16).toUInt8 ^^^ look t2 (c >>> 8).toUInt8 ^^^
    look t3 d.toUInt8 ^^^ key

/-- A full round of `rijndaelEncrypt`. -/
def encryptRound (s k : Words) : Words :=
  ⟨fullWord te0 te1 te2 te3 s.s0 s.s1 s.s2 s.s3 k.s0,
    fullWord te0 te1 te2 te3 s.s1 s.s2 s.s3 s.s0 k.s1,
    fullWord te0 te1 te2 te3 s.s2 s.s3 s.s0 s.s1 k.s2,
    fullWord te0 te1 te2 te3 s.s3 s.s0 s.s1 s.s2 k.s3⟩

/-- The last round of `rijndaelEncrypt`. -/
def encryptLast (t k : Words) : Words :=
  ⟨substituted te4 t.s0 t.s1 t.s2 t.s3 ^^^ k.s0, substituted te4 t.s1 t.s2 t.s3 t.s0 ^^^ k.s1,
    substituted te4 t.s2 t.s3 t.s0 t.s1 ^^^ k.s2, substituted te4 t.s3 t.s0 t.s1 t.s2 ^^^ k.s3⟩

/-- A full round of `rijndaelDecrypt`. -/
def decryptRound (s k : Words) : Words :=
  ⟨fullWord td0 td1 td2 td3 s.s0 s.s3 s.s2 s.s1 k.s0,
    fullWord td0 td1 td2 td3 s.s1 s.s0 s.s3 s.s2 k.s1,
    fullWord td0 td1 td2 td3 s.s2 s.s1 s.s0 s.s3 k.s2,
    fullWord td0 td1 td2 td3 s.s3 s.s2 s.s1 s.s0 k.s3⟩

/-- The last round of `rijndaelDecrypt`. -/
def decryptLast (t k : Words) : Words :=
  ⟨substituted td4 t.s0 t.s3 t.s2 t.s1 ^^^ k.s0, substituted td4 t.s1 t.s0 t.s3 t.s2 ^^^ k.s1,
    substituted td4 t.s2 t.s1 t.s0 t.s3 ^^^ k.s2, substituted td4 t.s3 t.s2 t.s1 t.s0 ^^^ k.s3⟩

section Rounds

variable (round last : Words → Words → Words) (rk : List UInt32)

/-- The loop over the full rounds, two at a time, with `rk` at `p`.  It ends between the two, and
leaves `rk` at the last round key. -/
def fullRounds : Nat → Nat → Words → Words × Nat
  | 0, p, s => (s, p)
  | r + 1, p, s =>
      let t := round s (roundKey rk (p + 4))
      if r = 0 then (t, p + 8) else fullRounds r (p + 8) (round t (roundKey rk (p + 8)))

/-- All rounds for a block. -/
def cipherBlock (rounds : Nat) (pt : Block) : Block :=
  let (t, p) := fullRounds round rk (rounds / 2) 0 ((Words.read pt.bytes).xor (roundKey rk 0))
  (last t (roundKey rk p)).block

end Rounds

/-- `rijndaelEncrypt`. -/
def rijndaelEncrypt (rk : List UInt32) (rounds : Nat) (pt : Block) : Block :=
  cipherBlock encryptRound encryptLast rk rounds pt

/-- `rijndaelDecrypt`. -/
def rijndaelDecrypt (rk : List UInt32) (rounds : Nat) (ct : Block) : Block :=
  cipherBlock decryptRound decryptLast rk rounds ct

end GPush.Crypt
