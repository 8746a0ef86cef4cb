import GPush.Containers.Absorb
import GPush.Crypt.Md5
import GPush.Crypt.Sine

/-!
# The digest of all that was given

A context knows of the bytes that were given to `MD5Update`, in whatever pieces, all that
`MD5Final` needs: the digest is the one of the standard for the bytes of all pieces.
-/

namespace GPush.Crypt.Md5

open GPush.Codec GPush.Containers

/-! ## The standard -/

/-- The functions of the four rounds. -/
def core : Nat → UInt32 → UInt32 → UInt32 → UInt32
  | 0, x, y, z => (x &&& y) ||| (~~~x &&& z)
  | 1, x, y, z => (x &&& z) ||| (y &&& ~~~z)
  | 2, x, y, z => x ^^^ y ^^^ z
  | _, x, y, z => y ^^^ (x ||| ~~~z)

/-- The word that step `i` takes. -/
def wordIndex (i : Nat) : Nat :=
  match i / 16 with
  | 0 => i
  | 1 => (5 * i + 1) % 16
  | 2 => (3 * i + 5) % 16
  | _ => 7 * i % 16

/-- By how much step `i` turns. -/
def shift (i : Nat) : UInt32 :=
  match i / 16 with
  | 0 => [7, 12, 17, 22].getD (i % 4) 0
  | 1 => [5, 9, 14, 20].getD (i % 4) 0
  | 2 => [4, 11, 16, 23].getD (i % 4) 0
  | _ => [6, 10, 15, 21].getD (i % 4) 0

/-- The constant of step `i`: the first 32 bits of the fraction of a sine. -/
noncomputable def constant (i : Nat) : UInt32 := UInt32.ofNat ⌊2 ^ 32 * |Real.sin (i + 1)|⌋₊

/-- A step. -/
noncomputable def standardStep (block : Bytes) (r : Registers) (i : Nat) : Registers :=
  let sum := r.a + core (i / 16) r.b r.c r.d + wordOfBlock block (wordIndex i) + constant i
  ⟨r.d, r.b + ((sum <<< shift i) ||| (sum >>> (32 - shift i))), r.b, r.c⟩

/-- The registers after a block. -/
noncomputable def compress (buf : Registers) (block : Bytes) : Registers :=
  let r := (List.range 64).foldl (standardStep block) buf
  ⟨buf.a + r.a, buf.b + r.b, buf.c + r.c, buf.d + r.d⟩

/-- What is appended to `n` bytes: a bit, zeros, and the number of bits in two words. -/
def padding (n : Nat) : Bytes :=
  0x80 :: List.replicate ((119 - n % 64) % 64) 0 ++ bytesOfWord (UInt32.ofNat (8 * n)) ++
    bytesOfWord (UInt32.ofNat (8 * n / 2 ^ 32))

/-- The digest of some bytes. -/
noncomputable def digest (m : Bytes) : Block :=
  digestOf (absorb 64 compress initial (m ++ padding m.length))

/-! ## `MD5Transform` -/

/-- The function of a round. -/
def functionAt : Nat → CoreFunction
  | 0 => .f1
  | 1 => .f2
  | 2 => .f3
  | _ => .f4

theorem apply_f1 (x y z : UInt32) : z ^^^ (x &&& (y ^^^ z)) = (x &&& y) ||| (~~~x &&& z) := by
  apply UInt32.toBitVec_inj.mp
  apply BitVec.eq_of_getLsbD_eq
  intro i inside
  simp only [UInt32.toBitVec_xor, UInt32.toBitVec_and, UInt32.toBitVec_or, UInt32.toBitVec_not,
    BitVec.getLsbD_xor, BitVec.getLsbD_and, BitVec.getLsbD_or, BitVec.getLsbD_not]
  cases x.toBitVec.getLsbD i <;> cases y.toBitVec.getLsbD i <;> cases z.toBitVec.getLsbD i <;>
    simp [inside]

theorem apply_functionAt (k : Nat) (x y z : UInt32) :
    (functionAt k).apply x y z = core k x y z := by
  match k with
  | 0 => exact apply_f1 x y z
  | 1 =>
      refine (apply_f1 z x y).trans ?_
      rw [UInt32.and_comm z x, UInt32.and_comm (~~~z) y]
      rfl
  | 2 => rfl
  | _ + 3 => rfl

/-- The constant that is written out for step `i`. -/
def writtenConstant (i : Nat) : UInt32 :=
  ((round1 ++ round2 ++ round3 ++ round4).getD i (0, 0, 0)).2.1

theorem determines_writtenConstant :
    ∀ i < 64, Sine.Determines 58 (2 ^ 32) (i + 1) (writtenConstant i).toNat := by
  decide +kernel

/-- The constants are those of the standard. -/
theorem writtenConstant_eq {i : Nat} (inside : i < 64) : writtenConstant i = constant i := by
  have floorEq := Sine.floor_eq (by omega) (determines_writtenConstant i inside)
  rw [Nat.cast_pow, Nat.cast_ofNat, Nat.cast_succ] at floorEq
  rw [constant, floorEq, UInt32.ofNat_toNat]

theorem md5Steps_eq : md5Steps =
    (List.range 64).map fun i => (functionAt (i / 16), wordIndex i, constant i, shift i) := by
  have written : md5Steps =
      (List.range 64).map fun i => (functionAt (i / 16), wordIndex i, writtenConstant i, shift i) := by
    decide +kernel
  rw [written]
  refine List.map_congr_left fun i member => ?_
  rw [writtenConstant_eq (List.mem_range.mp member)]

theorem takeStep_eq (block : Bytes) (r : Registers) (i : Nat) :
    takeStep block r (functionAt (i / 16), wordIndex i, constant i, shift i) =
      standardStep block r i := by
  simp only [takeStep, standardStep, md5Step, apply_functionAt]
  rw [← UInt32.add_assoc, ← UInt32.add_assoc, UInt32.add_comm r.b]

/-- The steps that are written out are those of the standard. -/
theorem md5Transform_eq : md5Transform = compress := by
  funext buf block
  rw [md5Transform, md5Steps_eq, List.foldl_map]
  simp only [takeStep_eq]
  rfl

/-! ## Blocks -/

theorem place_of_full {block bytes : Bytes} (full : block.length ≤ bytes.length) :
    place block 0 bytes = bytes := by
  rw [place, Nat.zero_add, List.drop_of_length_le full, List.take_zero, List.nil_append,
    List.append_nil]

theorem take_place {block : Bytes} {p : Nat} (inside : p ≤ block.length) (bytes : Bytes) :
    (place block p bytes).take (p + bytes.length) = block.take p ++ bytes := by
  have length : (block.take p ++ bytes).length = p + bytes.length := by
    rw [List.length_append, List.length_take, Nat.min_eq_left inside]
  rw [place, List.take_append_of_le_length (Nat.le_of_eq length.symm),
    List.take_of_length_le (Nat.le_of_eq length)]

/-- Bytes up to the end of a block. -/
theorem place_to_end {block : Bytes} {p : Nat} (bytes : Bytes)
    (toEnd : p + bytes.length = block.length) : place block p bytes = block.take p ++ bytes := by
  rw [place, List.drop_of_length_le (Nat.le_of_eq toEnd.symm), List.append_nil]

/-- The loop over whole blocks. -/
theorem updateBlocks_eq {block : Bytes} (full : block.length = 64) (buf : Registers)
    {input : Bytes} {len : Nat} (enough : len ≤ input.length) :
    (updateBlocks buf block input len).1 = absorb 64 md5Transform buf (input.take len) ∧
      (updateBlocks buf block input len).2.take (len % 64) = leftOver 64 (input.take len) := by
  induction buf, block, input, len using updateBlocks.induct with
  | case1 buf block input len long placed ih =>
      have blockLength : (input.take 64).length = 64 := by
        rw [List.length_take]
        omega
      have isBlock : place block 0 (input.take 64) = input.take 64 :=
        place_of_full (Nat.le_of_eq (full.trans blockLength.symm))
      have whole : 64 ∣ (input.take 64).length := ⟨1, blockLength⟩
      have split : input.take len = input.take 64 ++ (input.drop 64).take (len - 64) := by
        rw [← List.take_add, Nat.add_sub_cancel' long]
      have rest : len % 64 = (len - 64) % 64 := by omega
      simp only [placed, isBlock] at ih
      rw [updateBlocks, if_pos long, split, absorb_cons_block md5Transform (by decide) blockLength,
        leftOver_append_of_whole (by decide) whole, rest]
      simp only [isBlock]
      exact ih blockLength (by rw [List.length_drop]; omega)
  | case2 buf block input len short =>
      have length : (input.take len).length = len := by
        rw [List.length_take, Nat.min_eq_left enough]
      have left := take_place (Nat.zero_le block.length) (input.take len)
      rw [length, Nat.zero_add, List.take_zero, List.nil_append] at left
      rw [updateBlocks, if_neg short, absorb_of_short _ _ (by omega), leftOver_of_short (by omega),
        Nat.mod_eq_of_lt (by omega)]
      exact ⟨rfl, left⟩

/-- What `MD5Update` does with the bytes that were left. -/
theorem updateFrom_eq {block pending : Bytes} (full : block.length = 64)
    (short : pending.length < 64) (front : block.take pending.length = pending) (buf : Registers)
    {input : Bytes} {len : Nat} (enough : len ≤ input.length) :
    (updateFrom buf block pending.length input len).1 =
        absorb 64 md5Transform buf (pending ++ input.take len) ∧
      (updateFrom buf block pending.length input len).2.take ((pending.length + len) % 64) =
        leftOver 64 (pending ++ input.take len) := by
  have length : (input.take len).length = len := by
    rw [List.length_take, Nat.min_eq_left enough]
  rw [updateFrom]
  by_cases some : pending.length ≠ 0
  · rw [if_pos some]
    simp only
    by_cases few : len < 64 - pending.length
    · have left := take_place (by omega : pending.length ≤ block.length) (input.take len)
      rw [length, front] at left
      have together : (pending ++ input.take len).length < 64 := by
        rw [List.length_append, length]
        omega
      rw [if_pos few, absorb_of_short _ _ together, leftOver_of_short together,
        Nat.mod_eq_of_lt (by omega)]
      exact ⟨rfl, left⟩
    · have missing : (input.take (64 - pending.length)).length = 64 - pending.length := by
        rw [List.length_take]
        omega
      have placed : place block pending.length (input.take (64 - pending.length)) =
          pending ++ input.take (64 - pending.length) := by
        rw [place_to_end _ (by omega), front]
      have filled : (pending ++ input.take (64 - pending.length)).length = 64 := by
        rw [List.length_append]
        omega
      have whole : 64 ∣ (pending ++ input.take (64 - pending.length)).length := ⟨1, filled⟩
      have split : pending ++ input.take len = (pending ++ input.take (64 - pending.length)) ++
          (input.drop (64 - pending.length)).take (len - (64 - pending.length)) := by
        rw [List.append_assoc, ← List.take_add, Nat.add_sub_cancel' (Nat.le_of_not_lt few)]
      have rest : (pending.length + len) % 64 = (len - (64 - pending.length)) % 64 := by omega
      rw [if_neg few, placed, split, absorb_cons_block md5Transform (by decide) filled,
        leftOver_append_of_whole (by decide) whole, rest]
      exact updateBlocks_eq filled _ (by rw [List.length_drop]; omega)
  · have none : pending = [] := List.length_eq_zero_iff.mp (not_not.mp some)
    rw [if_neg some, none, List.nil_append, List.length_nil, Nat.zero_add]
    exact updateBlocks_eq full buf enough

/-! ## Updates -/

/-- The context knows that `m` was given. -/
structure Md5Ctx.Holds (ctx : Md5Ctx) (m : Bytes) : Prop where
  state : ctx.buf = absorb 64 md5Transform initial m
  low : ctx.bits0.toNat = 8 * m.length % 2 ^ 32
  high : ctx.bits1.toNat = 8 * m.length / 2 ^ 32 % 2 ^ 32
  left : ctx.block.take (m.length % 64) = leftOver 64 m

theorem holds_md5Init (ctx : Md5Ctx) : (md5Init ctx).Holds [] where
  state := rfl
  low := rfl
  high := rfl
  left := rfl

theorem Md5Ctx.Holds.buffered {ctx : Md5Ctx} {m : Bytes} (holds : ctx.Holds m) :
    Md5.buffered ctx.bits0 = m.length % 64 := by
  rw [buffered_eq, holds.low]
  omega

/-- The low word of the bit count. -/
theorem toNat_low {t len : UInt32} {n : Nat} (before : t.toNat = 8 * n % 2 ^ 32) :
    (t + (len <<< 3)).toNat = 8 * (n + len.toNat) % 2 ^ 32 := by
  have shifted : (len <<< 3).toNat = 8 * len.toNat % 2 ^ 32 := by
    rw [UInt32.toNat_shiftLeft, Nat.shiftLeft_eq, Nat.mul_comm]
    rfl
  rw [UInt32.toNat_add, shifted, before]
  omega

/-- The high word, with the carry. -/
theorem toNat_high {t high len : UInt32} {n : Nat} (before : t.toNat = 8 * n % 2 ^ 32)
    (highBefore : high.toNat = 8 * n / 2 ^ 32 % 2 ^ 32) :
    ((if t + (len <<< 3) < t then high + 1 else high) + (len >>> 29)).toNat =
      8 * (n + len.toNat) / 2 ^ 32 % 2 ^ 32 := by
  have low := @toNat_low t len n before
  have small := len.toNat_lt
  have shifted : (len >>> 29).toNat = len.toNat / 2 ^ 29 := by
    rw [UInt32.toNat_shiftRight, Nat.shiftRight_eq_div_pow]
    rfl
  rw [UInt32.toNat_add, shifted]
  by_cases carry : t + (len <<< 3) < t
  · rw [if_pos carry, UInt32.toNat_add, highBefore]
    rw [UInt32.lt_iff_toNat_lt, low, before] at carry
    simp only [UInt32.reduceToNat]
    omega
  · rw [if_neg carry, highBefore]
    rw [UInt32.lt_iff_toNat_lt, low, before] at carry
    omega

theorem holds_md5Update {ctx : Md5Ctx} {m : Bytes} (holds : ctx.Holds m) {input : Bytes}
    {len : UInt32} (enough : len.toNat ≤ input.length) :
    (md5Update ctx input len).Holds (m ++ input.take len.toNat) := by
  have length : (m ++ input.take len.toNat).length = m.length + len.toNat := by
    rw [List.length_append, List.length_take, Nat.min_eq_left enough]
  have pendingLength : (leftOver 64 m).length = m.length % 64 := length_leftOver 64 m
  obtain ⟨state, left⟩ := updateFrom_eq ctx.full (by rw [pendingLength]; omega)
    (by rw [pendingLength]; exact holds.left) ctx.buf enough
  rw [pendingLength] at state left
  refine ⟨?_, ?_, ?_, ?_⟩
  · rw [absorb_append md5Transform (by decide), ← holds.state, ← state, ← holds.buffered]
    rfl
  · rw [length, ← toNat_low holds.low]
    rfl
  · rw [length, ← toNat_high holds.low holds.high]
    rfl
  · have total : (m.length + len.toNat) % 64 = (m.length % 64 + len.toNat) % 64 := by omega
    rw [leftOver_append (by decide), ← left, length, total, ← holds.buffered]
    rfl

/-- Any number of updates. -/
theorem holds_updateAll {ctx : Md5Ctx} {m : Bytes} (holds : ctx.Holds m) {chunks : List Bytes}
    (small : ∀ chunk ∈ chunks, chunk.length < 2 ^ 32) :
    (updateAll ctx chunks).Holds (m ++ chunks.flatten) := by
  induction chunks generalizing ctx m with
  | nil => rwa [List.flatten_nil, List.append_nil]
  | cons chunk chunks ih =>
      have size : (UInt32.ofNat chunk.length).toNat = chunk.length :=
        Nat.mod_eq_of_lt (small chunk List.mem_cons_self)
      have first :=
        @holds_md5Update ctx m holds chunk (UInt32.ofNat chunk.length) (Nat.le_of_eq size)
      rw [size, List.take_length] at first
      rw [List.flatten_cons, ← List.append_assoc]
      exact ih first fun later member => small later (List.mem_cons_of_mem _ member)

/-! ## `MD5Final` -/

theorem ofNat_low {w : UInt32} {n : Nat} (value : w.toNat = n % 2 ^ 32) : w = UInt32.ofNat n := by
  apply UInt32.toNat_inj.mp
  rw [value, UInt32.toNat_ofNat']

theorem length_padFrom {block : Bytes} (full : block.length = 64) {count : Nat} (small : count < 64)
    (buf : Registers) : (padFrom buf block count).2.length = 64 := by
  have first : (place block count [0x80]).length = 64 :=
    (length_place (by rw [full]; exact small)).trans full
  rw [padFrom]
  simp only
  split
  · have second : (place (place block count [0x80]) (count + 1)
        (List.replicate (64 - 1 - count) 0)).length = 64 :=
      (length_place (by rw [first, List.length_replicate]; omega)).trans first
    exact (length_place (by rw [second, List.length_replicate]; decide)).trans second
  · exact (length_place (by rw [first, List.length_replicate]; omega)).trans first

/-- The bytes that were left with the bit and the zeros behind them. -/
theorem padFrom_eq {block pending : Bytes} (full : block.length = 64) (short : pending.length < 64)
    (front : block.take pending.length = pending) (buf : Registers) {padded : Bytes}
    (isPadded : padded = pending ++ 0x80 :: List.replicate ((119 - pending.length) % 64) 0) :
    (padFrom buf block pending.length).1 = absorb 64 md5Transform buf padded ∧
      (padFrom buf block pending.length).2.take 56 = leftOver 64 padded := by
  have first : (place block pending.length [0x80]).length = 64 :=
    (length_place (by rw [full]; exact short)).trans full
  have bit := take_place (by omega : pending.length ≤ block.length) [0x80]
  rw [front] at bit
  rw [padFrom]
  simp only
  split
  · next two =>
      have filled : place (place block pending.length [0x80]) (pending.length + 1)
          (List.replicate (64 - 1 - pending.length) 0) =
            (place block pending.length [0x80]).take (pending.length + 1) ++
              List.replicate (64 - 1 - pending.length) 0 :=
        place_to_end _ (by rw [first, List.length_replicate]; omega)
      rw [show (place block pending.length [0x80]).take (pending.length + 1) = _ from bit] at filled
      have blockLength : (pending ++ [0x80] ++ List.replicate (64 - 1 - pending.length) 0).length =
          64 := by
        simp only [List.length_append, List.length_replicate, List.length_singleton]
        omega
      have whole : 64 ∣ (pending ++ [0x80] ++ List.replicate (64 - 1 - pending.length) 0).length :=
        ⟨1, blockLength⟩
      have zeros : (119 - pending.length) % 64 = (64 - 1 - pending.length) + 56 := by omega
      have split : padded = pending ++ [0x80] ++ List.replicate (64 - 1 - pending.length) 0 ++
          List.replicate 56 0 := by
        rw [isPadded, zeros, List.replicate_add]
        simp only [List.append_assoc, List.cons_append, List.nil_append]
      have rest : (List.replicate 56 (0 : UInt8)).length < 64 := by decide
      rw [filled, split, absorb_cons_block md5Transform (by decide) blockLength,
        leftOver_append_of_whole (by decide) whole, absorb_of_short _ _ rest,
        leftOver_of_short rest]
      exact ⟨rfl, take_place (Nat.zero_le _) (List.replicate 56 0)⟩
  · next one =>
      have left := take_place (by omega : pending.length + 1 ≤
        (place block pending.length [0x80]).length) (List.replicate (64 - 1 - pending.length - 8) 0)
      rw [show (place block pending.length [0x80]).take (pending.length + 1) = _ from bit,
        List.length_replicate] at left
      have zeros : (119 - pending.length) % 64 = 64 - 1 - pending.length - 8 := by omega
      have size : pending.length + 1 + (64 - 1 - pending.length - 8) = 56 := by omega
      have together : padded = pending ++ [0x80] ++
          List.replicate (64 - 1 - pending.length - 8) 0 := by
        rw [isPadded, zeros, List.append_assoc, List.singleton_append]
      have few : padded.length < 64 := by
        rw [together]
        simp only [List.length_append, List.length_replicate, List.length_singleton]
        omega
      rw [size, ← together] at left
      rw [absorb_of_short _ _ few, leftOver_of_short few]
      exact ⟨rfl, left⟩

/-- The padding and the length make the last one or two blocks. -/
theorem md5Final_eq {ctx : Md5Ctx} {m : Bytes} (holds : ctx.Holds m) : md5Final ctx = digest m := by
  have pendingLength : (leftOver 64 m).length = m.length % 64 := length_leftOver 64 m
  obtain ⟨state, left⟩ := padFrom_eq ctx.full (by rw [pendingLength]; omega)
    (by rw [pendingLength]; exact holds.left) ctx.buf rfl
  have size := length_padFrom ctx.full (buffered_lt ctx.bits0) ctx.buf
  rw [pendingLength] at state left
  rw [holds.buffered] at size
  have words : bytesOfWord ctx.bits0 ++ bytesOfWord ctx.bits1 =
      bytesOfWord (UInt32.ofNat (8 * m.length)) ++
        bytesOfWord (UInt32.ofNat (8 * m.length / 2 ^ 32)) := by
    rw [ofNat_low holds.low, ofNat_low holds.high]
  have placed := place_to_end (bytesOfWord ctx.bits0 ++ bytesOfWord ctx.bits1)
    (by rw [size]; rfl : 56 + (bytesOfWord ctx.bits0 ++ bytesOfWord ctx.bits1).length =
      (padFrom ctx.buf ctx.block (m.length % 64)).2.length)
  have filled : (leftOver 64 (leftOver 64 m ++
      0x80 :: List.replicate ((119 - m.length % 64) % 64) 0) ++
        (bytesOfWord ctx.bits0 ++ bytesOfWord ctx.bits1)).length = 64 := by
    rw [← left, List.length_append, List.length_take, size]
    rfl
  have split : leftOver 64 m ++ padding m.length = leftOver 64 m ++
      0x80 :: List.replicate ((119 - m.length % 64) % 64) 0 ++
        (bytesOfWord ctx.bits0 ++ bytesOfWord ctx.bits1) := by
    rw [words, padding]
    simp only [List.append_assoc, List.cons_append]
  have one : ∀ (buf : Registers) (block : Bytes), block.length = 64 →
      absorb 64 md5Transform buf block = md5Transform buf block := by
    intro buf block full
    have alone := absorb_cons_block md5Transform (by decide) full buf []
    rwa [List.append_nil] at alone
  rw [md5Final, holds.buffered, digest, ← md5Transform_eq, absorb_append md5Transform (by decide),
    ← holds.state, split, absorb_append md5Transform (by decide), one _ _ filled, ← state, ← left]
  simp only [placed]

/-! ## Digests -/

/-- The digest does not depend on how the bytes are cut into pieces, nor on what the context held
before. -/
theorem md5Final_updateAll (ctx : Md5Ctx) {chunks : List Bytes}
    (small : ∀ chunk ∈ chunks, chunk.length < 2 ^ 32) :
    md5Final (updateAll (md5Init ctx) chunks) = digest chunks.flatten :=
  md5Final_eq (holds_updateAll (holds_md5Init ctx) small)

/-- The letters of `GPush` in three pieces. -/
theorem md5Final_updateAll_pieces :
    md5Final (updateAll (md5Init ⟨initial, 7, 9, List.replicate 64 1, rfl⟩)
      [[71, 80], [], [117, 115, 104]]) = digest [71, 80, 117, 115, 104] :=
  md5Final_updateAll _ (by decide)

/-- `MD5` of a string, whose length is cut to 32 bits. -/
theorem md5_eq (ctx : Md5Ctx) (s : Bytes) :
    md5 ctx s (UInt32.ofNat s.length) = digest (s.take (s.length % 2 ^ 32)) := by
  have size : (UInt32.ofNat s.length).toNat = s.length % 2 ^ 32 := rfl
  have updated := @holds_md5Update _ _ (holds_md5Init ctx) s (UInt32.ofNat s.length)
    (size ▸ Nat.mod_le _ _)
  rw [md5, md5Final_eq updated, size, List.nil_append]

/-- `fileMD5` of a file that is read to its end. -/
theorem fileMD5_eq (ctx : Md5Ctx) {chunks : List Bytes}
    (small : ∀ chunk ∈ chunks, chunk.length ≤ 1024) :
    fileMD5 ctx (some (chunks, true)) = (0, some (digest chunks.flatten)) := by
  have below : ∀ chunk ∈ chunks, chunk.length < 2 ^ 32 := fun chunk member =>
    Nat.lt_of_le_of_lt (small chunk member) (by decide)
  rw [fileMD5]
  simp only [if_true, md5Final_updateAll ctx below]

end GPush.Crypt.Md5
