import GPush.Crypt.Rijndael

/-!
# MD5

`ef_md5.cpp` on a machine whose words have the lowest byte first, where `byteReverse` does nothing.
-/

namespace GPush.Crypt.Md5

open GPush.Codec

/-- `buf` of `MD5_CTX`. -/
@[ext]
structure Registers where
  a : UInt32
  b : UInt32
  c : UInt32
  d : UInt32
  deriving DecidableEq

/-- `MD5_CTX`. -/
structure Md5Ctx where
  buf : Registers
  bits0 : UInt32
  bits1 : UInt32
  /-- `in`. -/
  block : Bytes
  full : block.length = 64

/-! ## `MD5Transform` -/

/-- `F1` to `F4`. -/
inductive CoreFunction where
  | f1
  | f2
  | f3
  | f4
  deriving DecidableEq

/-- The values of `F1` to `F4`. -/
def CoreFunction.apply : CoreFunction → UInt32 → UInt32 → UInt32 → UInt32
  | f1, x, y, z => z ^^^ (x &&& (y ^^^ z))
  | f2, x, y, z => y ^^^ (z &&& (x ^^^ y))
  | f3, x, y, z => x ^^^ y ^^^ z
  | f4, x, y, z => y ^^^ (x ||| ~~~z)

/-- `MD5STEP`, the new value of `w`. -/
def md5Step (f : CoreFunction) (w x y z data s : UInt32) : UInt32 :=
  let w := w + (f.apply x y z + data)
  let w := (w <<< s) ||| (w >>> (32 - s))
  w + x

/-- The words, constants and shifts of the steps with `F1`. -/
def round1 : List (Nat × UInt32 × UInt32) := [
  (0, 0xd76aa478, 7), (1, 0xe8c7b756, 12), (2, 0x242070db, 17), (3, 0xc1bdceee, 22),
  (4, 0xf57c0faf, 7), (5, 0x4787c62a, 12), (6, 0xa8304613, 17), (7, 0xfd469501, 22),
  (8, 0x698098d8, 7), (9, 0x8b44f7af, 12), (10, 0xffff5bb1, 17), (11, 0x895cd7be, 22),
  (12, 0x6b901122, 7), (13, 0xfd987193, 12), (14, 0xa679438e, 17), (15, 0x49b40821, 22)]

/-- The words, constants and shifts of the steps with `F2`. -/
def round2 : List (Nat × UInt32 × UInt32) := [
  (1, 0xf61e2562, 5), (6, 0xc040b340, 9), (11, 0x265e5a51, 14), (0, 0xe9b6c7aa, 20),
  (5, 0xd62f105d, 5), (10, 0x02441453, 9), (15, 0xd8a1e681, 14), (4, 0xe7d3fbc8, 20),
  (9, 0x21e1cde6, 5), (14, 0xc33707d6, 9), (3, 0xf4d50d87, 14), (8, 0x455a14ed, 20),
  (13, 0xa9e3e905, 5), (2, 0xfcefa3f8, 9), (7, 0x676f02d9, 14), (12, 0x8d2a4c8a, 20)]

/-- The words, constants and shifts of the steps with `F3`. -/
def round3 : List (Nat × UInt32 × UInt32) := [
  (5, 0xfffa3942, 4), (8, 0x8771f681, 11), (11, 0x6d9d6122, 16), (14, 0xfde5380c, 23),
  (1, 0xa4beea44, 4), (4, 0x4bdecfa9, 11), (7, 0xf6bb4b60, 16), (10, 0xbebfbc70, 23),
  (13, 0x289b7ec6, 4), (0, 0xeaa127fa, 11), (3, 0xd4ef3085, 16), (6, 0x04881d05, 23),
  (9, 0xd9d4d039, 4), (12, 0xe6db99e5, 11), (15, 0x1fa27cf8, 16), (2, 0xc4ac5665, 23)]

/-- The words, constants and shifts of the steps with `F4`. -/
def round4 : List (Nat × UInt32 × UInt32) := [
  (0, 0xf4292244, 6), (7, 0x432aff97, 10), (14, 0xab9423a7, 15), (5, 0xfc93a039, 21),
  (12, 0x655b59c3, 6), (3, 0x8f0ccc92, 10), (10, 0xffeff47d, 15), (1, 0x85845dd1, 21),
  (8, 0x6fa87e4f, 6), (15, 0xfe2ce6e0, 10), (6, 0xa3014314, 15), (13, 0x4e0811a1, 21),
  (4, 0xf7537e82, 6), (11, 0xbd3af235, 10), (2, 0x2ad7d2bb, 15), (9, 0xeb86d391, 21)]

/-- The steps of `MD5Transform`. -/
def md5Steps : List (CoreFunction × Nat × UInt32 × UInt32) :=
  round1.map (CoreFunction.f1, ·) ++ round2.map (CoreFunction.f2, ·) ++
    round3.map (CoreFunction.f3, ·) ++ round4.map (CoreFunction.f4, ·)

/-- A word of a block. -/
def wordOfBlock (block : Bytes) (i : Nat) : UInt32 :=
  (block.getD (4 * i) 0).toUInt32 ||| ((block.getD (4 * i + 1) 0).toUInt32 <<< 8) |||
    ((block.getD (4 * i + 2) 0).toUInt32 <<< 16) ||| ((block.getD (4 * i + 3) 0).toUInt32 <<< 24)

/-- The bytes of a word. -/
def bytesOfWord (w : UInt32) : Bytes :=
  [w.toUInt8, (w >>> 8).toUInt8, (w >>> 16).toUInt8, (w >>> 24).toUInt8]

/-- A step, after which the registers change their roles: the next one alters the register that was
the last argument. -/
def takeStep (block : Bytes) (r : Registers) (step : CoreFunction × Nat × UInt32 × UInt32) :
    Registers :=
  let (f, i, constant, s) := step
  ⟨r.d, md5Step f r.a r.b r.c r.d (wordOfBlock block i + constant) s, r.b, r.c⟩

/-- `MD5Transform`. -/
def md5Transform (buf : Registers) (block : Bytes) : Registers :=
  let r := md5Steps.foldl (takeStep block) buf
  ⟨buf.a + r.a, buf.b + r.b, buf.c + r.c, buf.d + r.d⟩

/-! ## The context -/

/-- `memcpy` or `memset` into a block at `p`. -/
def place (block : Bytes) (p : Nat) (bytes : Bytes) : Bytes :=
  block.take p ++ bytes ++ block.drop (p + bytes.length)

/-- Writing inside a block keeps its length. -/
theorem length_place {block bytes : Bytes} {p : Nat} (inside : p + bytes.length ≤ block.length) :
    (place block p bytes).length = block.length := by
  simp only [place, List.length_append, List.length_take, List.length_drop]
  omega

/-- The `Registers` at the start. -/
def initial : Registers := ⟨0x67452301, 0xefcdab89, 0x98badcfe, 0x10325476⟩

/-- `MD5Init`. -/
def md5Init (ctx : Md5Ctx) : Md5Ctx := { ctx with buf := initial, bits0 := 0, bits1 := 0 }

/-- The loop of `MD5Update` over whole blocks, and the `memcpy` after it. -/
def updateBlocks (buf : Registers) (block input : Bytes) (len : Nat) : Registers × Bytes :=
  if 64 ≤ len then
    let block := place block 0 (input.take 64)
    updateBlocks (md5Transform buf block) block (input.drop 64) (len - 64)
  else
    (buf, place block 0 (input.take len))
  termination_by len

theorem length_updateBlocks {block : Bytes} (full : block.length = 64) (buf : Registers)
    (input : Bytes) (len : Nat) : (updateBlocks buf block input len).2.length = 64 := by
  induction buf, block, input, len using updateBlocks.induct with
  | case1 buf block input len long placed ih =>
      rw [updateBlocks, if_pos long]
      apply ih
      refine (length_place ?_).trans full
      rw [List.length_take]
      omega
  | case2 buf block input len short =>
      rw [updateBlocks, if_neg short]
      refine (length_place ?_).trans full
      rw [List.length_take]
      omega

/-- `MD5Update` after the bit count, with `t` bytes already in the block. -/
def updateFrom (buf : Registers) (block : Bytes) (t : Nat) (input : Bytes) (len : Nat) :
    Registers × Bytes :=
  if t ≠ 0 then
    let missing := 64 - t
    if len < missing then
      (buf, place block t (input.take len))
    else
      let block := place block t (input.take missing)
      updateBlocks (md5Transform buf block) block (input.drop missing) (len - missing)
  else
    updateBlocks buf block input len

theorem length_updateFrom {block : Bytes} (full : block.length = 64) {t : Nat} (small : t < 64)
    (buf : Registers) (input : Bytes) (len : Nat) :
    (updateFrom buf block t input len).2.length = 64 := by
  rw [updateFrom]
  split
  · simp only
    split
    · refine (length_place ?_).trans full
      rw [List.length_take]
      omega
    · apply length_updateBlocks
      refine (length_place ?_).trans full
      rw [List.length_take]
      omega
  · exact length_updateBlocks full _ _ _

/-- The number of bytes in the block, from the low word of the bit count. -/
def buffered (bits0 : UInt32) : Nat := ((bits0 >>> 3) &&& 0x3f).toNat

/-- The bytes in the block are counted modulo its length. -/
theorem buffered_eq (bits0 : UInt32) : buffered bits0 = bits0.toNat / 8 % 64 := by
  rw [buffered, UInt32.toNat_and, UInt32.toNat_shiftRight]
  exact (Nat.and_two_pow_sub_one_eq_mod _ 6).trans (by rw [Nat.shiftRight_eq_div_pow]; rfl)

theorem buffered_lt (bits0 : UInt32) : buffered bits0 < 64 := by
  rw [buffered_eq]
  exact Nat.mod_lt _ (by decide)

/-- `MD5Update`. -/
def md5Update (ctx : Md5Ctx) (input : Bytes) (len : UInt32) : Md5Ctx :=
  let t := ctx.bits0
  let bits0 := t + (len <<< 3)
  let bits1 := if bits0 < t then ctx.bits1 + 1 else ctx.bits1
  let updated := updateFrom ctx.buf ctx.block (buffered t) input len.toNat
  { buf := updated.1
    bits0 := bits0
    bits1 := bits1 + (len >>> 29)
    block := updated.2
    full := length_updateFrom ctx.full (buffered_lt t) _ _ _ }

/-- `MD5Final` before the length is appended, with `count` bytes in the block. -/
def padFrom (buf : Registers) (block : Bytes) (count : Nat) : Registers × Bytes :=
  let block := place block count [0x80]
  let missing := 64 - 1 - count
  if missing < 8 then
    let block := place block (count + 1) (List.replicate missing 0)
    (md5Transform buf block, place block 0 (List.replicate 56 0))
  else
    (buf, place block (count + 1) (List.replicate (missing - 8) 0))

/-- The bytes of the registers. -/
def digestOf (buf : Registers) : Block :=
  ⟨bytesOfWord buf.a ++ bytesOfWord buf.b ++ bytesOfWord buf.c ++ bytesOfWord buf.d, rfl⟩

/-- `MD5Final`. -/
def md5Final (ctx : Md5Ctx) : Block :=
  let padded := padFrom ctx.buf ctx.block (buffered ctx.bits0)
  let block := place padded.2 56 (bytesOfWord ctx.bits0 ++ bytesOfWord ctx.bits1)
  digestOf (md5Transform padded.1 block)

/-- `MD5`, with a context that is as it was found. -/
def md5 (ctx : Md5Ctx) (input : Bytes) (len : UInt32) : Block :=
  md5Final (md5Update (md5Init ctx) input len)

/-- The loop of `fileMD5` over what `fread` returns. -/
def updateAll (ctx : Md5Ctx) (chunks : List Bytes) : Md5Ctx :=
  chunks.foldl (fun ctx buf => md5Update ctx buf (UInt32.ofNat buf.length)) ctx

/-- `fileMD5`, of a file that cannot be opened, or of the bytes that each `fread` returns and
whether the end of the file was met. -/
def fileMD5 (ctx : Md5Ctx) : Option (List Bytes × Bool) → Int × Option Block
  | none => (-1, none)
  | some (chunks, eof) =>
      let ctx := updateAll (md5Init ctx) chunks
      if eof then (0, some (md5Final ctx)) else (-1, none)

end GPush.Crypt.Md5
