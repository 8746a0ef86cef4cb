import GPush.Protobuf.CodedInputStream
import Mathlib.Data.Nat.Bitwise

/-!
# Reading variable-length numbers

The first byte alone, the unrolled walks over an array and the loop that looks at the end
before each byte all read the number in base 128 that starts the buffer, on at most ten
bytes, and keep its low bits.
-/

namespace GPush.Protobuf.CodedInputStream

/-! ## Bits -/

theorem uInt32_and_127 (b : UInt32) : (b &&& 0x7F).toNat = b.toNat % 128 := by
  rw [UInt32.toNat_and]
  exact Nat.and_two_pow_sub_one_eq_mod b.toNat 7

theorem uInt8_and_127 (b : UInt8) : (b &&& 0x7F).toNat = b.toNat % 128 := by
  rw [UInt8.toNat_and]
  exact Nat.and_two_pow_sub_one_eq_mod b.toNat 7

/-- The high bit of a byte. -/
theorem and_128_eq_zero_iff {n : Nat} (byte : n < 256) : n &&& 128 = 0 ↔ n < 128 := by
  have all : ∀ m : Fin 256, m.val &&& 128 = 0 ↔ m.val < 128 := by decide +kernel
  exact all ⟨n, byte⟩

theorem uInt32_last_iff {b : UInt32} (byte : b.toNat < 256) : b &&& 0x80 = 0 ↔ b.toNat < 128 := by
  rw [← UInt32.toNat_inj, UInt32.toNat_and]
  exact and_128_eq_zero_iff byte

theorem uInt8_last_iff (b : UInt8) : b &&& 0x80 = 0 ↔ b.toNat < 128 := by
  rw [← UInt8.toNat_inj, UInt8.toNat_and]
  exact and_128_eq_zero_iff b.toNat_lt

/-- Bits put above a number are added to it. -/
theorem uInt32_or_shift {acc i : Nat} (small : acc < 2 ^ i) (inside : i < 32) (b : UInt32) :
    UInt32.ofNat acc ||| b <<< UInt32.ofNat i = UInt32.ofNat (acc + 2 ^ i * b.toNat) := by
  have shift : (UInt32.ofNat i).toNat % 32 = i := by
    rw [UInt32.toNat_ofNat']
    omega
  rw [← UInt32.toNat_inj, UInt32.toNat_or, UInt32.toNat_shiftLeft, shift, UInt32.toNat_ofNat',
    UInt32.toNat_ofNat', ← Nat.or_mod_two_pow, Nat.or_comm,
    ← Nat.shiftLeft_add_eq_or_of_lt small, Nat.shiftLeft_eq, Nat.add_comm, Nat.mul_comm]

theorem uInt64_or_shift {acc i : Nat} (small : acc < 2 ^ i) (inside : i < 64) (b : UInt64) :
    UInt64.ofNat acc ||| b <<< UInt64.ofNat i = UInt64.ofNat (acc + 2 ^ i * b.toNat) := by
  have shift : (UInt64.ofNat i).toNat % 64 = i := by
    rw [UInt64.toNat_ofNat']
    omega
  rw [← UInt64.toNat_inj, UInt64.toNat_or, UInt64.toNat_shiftLeft, shift, UInt64.toNat_ofNat',
    UInt64.toNat_ofNat', ← Nat.or_mod_two_pow, Nat.or_comm,
    ← Nat.shiftLeft_add_eq_or_of_lt small, Nat.shiftLeft_eq, Nat.add_comm, Nat.mul_comm]

/-- Seven more bits of a number. -/
theorem uInt32_or_seven {acc i : Nat} (small : acc < 2 ^ i) (inside : i < 32) (b : UInt32) :
    UInt32.ofNat acc ||| (b &&& 0x7F) <<< UInt32.ofNat i =
      UInt32.ofNat (acc + 2 ^ i * (b.toNat % 128)) := by
  rw [uInt32_or_shift small inside, uInt32_and_127]

/-- The last bits that a 32-bit number takes; the rest of the byte is shifted out. -/
theorem uInt32_or_last {acc : Nat} (small : acc < 2 ^ 28) (b : UInt32) :
    UInt32.ofNat acc ||| b <<< 28 = UInt32.ofNat (acc + 2 ^ 28 * (b.toNat % 128)) := by
  have shifted := uInt32_or_shift small (by decide) b
  rw [show (28 : UInt32) = UInt32.ofNat 28 from rfl, shifted, ← UInt32.toNat_inj,
    UInt32.toNat_ofNat', UInt32.toNat_ofNat']
  omega

/-- The parts of a number of 64 bits. -/
theorem joinParts_ofNat {part0 part1 part2 : Nat} (small0 : part0 < 2 ^ 28)
    (small1 : part1 < 2 ^ 28) (small2 : part2 < 2 ^ 28) :
    joinParts (.ofNat part0) (.ofNat part1) (.ofNat part2) =
      .ofNat (part0 + 2 ^ 28 * part1 + 2 ^ 56 * part2) := by
  have wide {part : Nat} (small : part < 2 ^ 28) :
      (UInt32.ofNat part).toUInt64 = UInt64.ofNat part := by
    rw [← UInt64.toNat_inj, UInt32.toNat_toUInt64, UInt32.toNat_ofNat', UInt64.toNat_ofNat']
    omega
  have same {part : Nat} (small : part < 2 ^ 28) : (UInt64.ofNat part).toNat = part := by
    rw [UInt64.toNat_ofNat']
    omega
  have low := uInt64_or_shift small0 (by decide) (UInt64.ofNat part1)
  have sum : part0 + 2 ^ 28 * part1 < 2 ^ 56 := by omega
  have high := uInt64_or_shift sum (by decide) (UInt64.ofNat part2)
  rw [same small1] at low
  rw [same small2, ← low] at high
  rw [joinParts, wide small0, wide small1, wide small2]
  exact high

/-! ## Walks over an array -/

/-- A walk for a number of at most `k` bytes stays inside the buffer. -/
def Terminates (k : Nat) (ptr : Bytes) : Prop :=
  k ≤ ptr.length ∨ ∃ b ∈ ptr.getLast?, b.toNat < 128

theorem Terminates.next {k : Nat} {b : UInt8} {ptr : Bytes}
    (terminates : Terminates (k + 1) (b :: ptr))
    (more : 128 ≤ b.toNat) : Terminates k ptr := by
  rcases terminates with long | ⟨c, last, ends⟩
  · left
    simpa using long
  · cases ptr with
    | nil =>
        simp only [List.getLast?_singleton, Option.mem_some_iff] at last
        subst last
        omega
    | cons d ptr =>
        right
        exact ⟨c, by simpa using last, ends⟩

/-- A walk finds `acc` and, from the bit of weight `scale` on, the number that comes next. -/
def Finds {α : Type} (ofNat : Nat → α) (k scale acc : Nat)
    (scan : Bytes → Except Overrun (Scanned α)) : Prop :=
  ∀ ptr, Terminates k ptr →
    scan ptr = .ok ((readBase128 k ptr).map fun (n, rest) => (ofNat (acc + scale * n), rest))

/-- One byte of a walk. -/
theorem Finds.step {α : Type} {ofNat : Nat → α} {k scale acc : Nat} {put : UInt32 → UInt32}
    {done : UInt32 → α} {next : UInt32 → Bytes → Except Overrun (Scanned α)}
    (doneEq : ∀ b : UInt32, done (put b) = ofNat (acc + scale * (b.toNat % 128)))
    (nextFinds : ∀ b : UInt32,
      Finds ofNat k (scale * 128) (acc + scale * (b.toNat % 128)) (next (put b))) :
    Finds ofNat (k + 1) scale acc (scanByte put done next) := by
  intro ptr terminates
  cases ptr with
  | nil => simp [Terminates] at terminates
  | cons b ptr =>
      change (if b.toUInt32 &&& 0x80 = 0 then .ok (some (done (put b.toUInt32), ptr))
        else next (put b.toUInt32) ptr) = _
      have byte : b.toUInt32.toNat = b.toNat := UInt8.toNat_toUInt32 b
      have lastIff := uInt32_last_iff (b := b.toUInt32) (by rw [byte]; exact b.toNat_lt)
      rw [byte] at lastIff
      by_cases last : b.toNat < 128
      · have value : b.toNat % 128 = b.toNat := by omega
        rw [if_pos (lastIff.mpr last), readBase128_last last, Option.map_some, doneEq, byte, value]
      · rw [if_neg (fun zero => last (lastIff.mp zero)), readBase128_more (by omega),
          nextFinds b.toUInt32 ptr (terminates.next (by omega)), byte, Option.map_map]
        refine congrArg (fun f => Except.ok (Option.map f _)) (funext fun (n, rest) => ?_)
        simp only [Function.comp_apply]
        rw [Nat.mul_add, ← Nat.mul_assoc, Nat.add_assoc]

/-- A line that puts seven bits above the `i` bits of `part`, whose unit in the number is
`u`. -/
theorem Finds.part {α : Type} {ofNat : Nat → α} {k : Nat} {done : UInt32 → α}
    {next : UInt32 → Bytes → Except Overrun (Scanned α)} (u base part i : Nat)
    (small : part < 2 ^ i) (inside : i < 32)
    (doneEq : ∀ part < 2 ^ (i + 7), done (.ofNat part) = ofNat (base + u * part))
    (nextFinds : ∀ part < 2 ^ (i + 7),
      Finds ofNat k (u * 2 ^ (i + 7)) (base + u * part) (next (.ofNat part))) :
    Finds ofNat (k + 1) (u * 2 ^ i) (base + u * part)
      (scanByte (fun b => .ofNat part ||| (b &&& 0x7F) <<< .ofNat i) done next) := by
  have value (b : UInt32) :
      base + u * part + u * 2 ^ i * (b.toNat % 128) =
        base + u * (part + 2 ^ i * (b.toNat % 128)) := by
    rw [Nat.mul_add, ← Nat.mul_assoc, Nat.add_assoc]
  have below (b : UInt32) : part + 2 ^ i * (b.toNat % 128) < 2 ^ (i + 7) := by
    have : b.toNat % 128 ≤ 127 := by omega
    calc part + 2 ^ i * (b.toNat % 128)
      _ < 2 ^ i + 2 ^ i * 127 := Nat.add_lt_add_of_lt_of_le small (Nat.mul_le_mul_left _ this)
      _ = 2 ^ (i + 7) := by rw [Nat.pow_add]; omega
  have scale : u * 2 ^ i * 128 = u * 2 ^ (i + 7) := by
    rw [Nat.mul_assoc, Nat.pow_add]
  refine Finds.step (fun b => ?_) fun b => ?_
  · rw [uInt32_or_seven small inside, value]
    exact doneEq _ (below b)
  · rw [uInt32_or_seven small inside, value, scale]
    exact nextFinds _ (below b)

/-- The line that starts a part. -/
theorem Finds.first {α : Type} {ofNat : Nat → α} {k : Nat} {done : UInt32 → α}
    {next : UInt32 → Bytes → Except Overrun (Scanned α)} (u base : Nat)
    (doneEq : ∀ part < 2 ^ 7, done (.ofNat part) = ofNat (base + u * part))
    (nextFinds : ∀ part < 2 ^ 7,
      Finds ofNat k (u * 2 ^ 7) (base + u * part) (next (.ofNat part))) :
    Finds ofNat (k + 1) u base (scanByte (fun b => b &&& 0x7F) done next) := by
  have found := Finds.part u base 0 0 (by decide) (by decide) doneEq nextFinds
  simpa using found

theorem discardHighBits_finds {scale : Nat} (high : 2 ^ 32 ∣ scale) (acc k : Nat) :
    Finds UInt32.ofNat k scale acc (discardHighBits (.ofNat acc) k) := by
  induction k generalizing scale acc with
  | zero => exact fun _ _ => rfl
  | succ k ih =>
      have same (m : Nat) : UInt32.ofNat acc = UInt32.ofNat (acc + scale * m) := by
        obtain ⟨c, rfl⟩ := high
        rw [← UInt32.toNat_inj, UInt32.toNat_ofNat', UInt32.toNat_ofNat', Nat.mul_assoc,
          Nat.add_mul_mod_self_left]
      refine Finds.step (fun b => same _) fun b => ?_
      rw [same (b.toNat % 128)]
      exact ih (Dvd.dvd.mul_right high 128) _

/-- `ReadVarint32FromArray` finds the low bits of the number at the pointer. -/
theorem readVarint32FromArray_finds :
    Finds UInt32.ofNat maxVarintBytes 1 0 readVarint32FromArray := by
  have doneEq (part : Nat) : id (UInt32.ofNat part) = UInt32.ofNat (0 + 1 * part) := by simp
  refine Finds.first 1 0 (fun part _ => doneEq part) fun part small => ?_
  refine Finds.part 1 0 part 7 small (by decide) (fun part _ => doneEq part) fun part small => ?_
  refine Finds.part 1 0 part 14 small (by decide) (fun part _ => doneEq part) fun part small => ?_
  refine Finds.part 1 0 part 21 small (by decide) (fun part _ => doneEq part) fun part small => ?_
  refine Finds.step (fun b => ?_) fun b => ?_
  · rw [uInt32_or_last small, Nat.zero_add, Nat.one_mul, Nat.one_mul]
    rfl
  · rw [uInt32_or_last small, Nat.zero_add, Nat.one_mul, Nat.one_mul]
    exact discardHighBits_finds (by decide) _ 5

/-- The walk of `ReadVarint64Fallback` finds the low bits of the number at the pointer. -/
theorem readVarint64FromArray_finds :
    Finds UInt64.ofNat maxVarintBytes 1 0 readVarint64FromArray := by
  have join0 (p : Nat) (small : p < 2 ^ 28) :
      joinParts (.ofNat p) 0 0 = UInt64.ofNat (0 + 1 * p) := by
    have joined := joinParts_ofNat small (by decide : 0 < 2 ^ 28) (by decide : 0 < 2 ^ 28)
    simpa using joined
  have join1 {p0 : Nat} (small0 : p0 < 2 ^ 28) (p : Nat) (small : p < 2 ^ 28) :
      joinParts (.ofNat p0) (.ofNat p) 0 = UInt64.ofNat (p0 + 2 ^ 28 * p) := by
    have joined := joinParts_ofNat small0 small (by decide : 0 < 2 ^ 28)
    simpa using joined
  have join2 {p0 p1 : Nat} (small0 : p0 < 2 ^ 28) (small1 : p1 < 2 ^ 28) (p : Nat)
      (small : p < 2 ^ 28) :
      joinParts (.ofNat p0) (.ofNat p1) (.ofNat p) = UInt64.ofNat (p0 + 2 ^ 28 * p1 + 2 ^ 56 * p) :=
    joinParts_ofNat small0 small1 small
  refine Finds.first 1 0 (fun p small => join0 p (by omega)) fun p small => ?_
  refine Finds.part 1 0 p 7 small (by decide) (fun p small => join0 p (by omega)) fun p small => ?_
  refine Finds.part 1 0 p 14 small (by decide) (fun p small => join0 p (by omega)) fun p small => ?_
  refine Finds.part 1 0 p 21 small (by decide) (fun p small => join0 p (by omega))
    fun p0 small0 => ?_
  rw [Nat.zero_add, Nat.one_mul, Nat.one_mul]
  refine Finds.first (2 ^ 28) p0 (fun p small => join1 small0 p (by omega)) fun p small => ?_
  refine Finds.part (2 ^ 28) p0 p 7 small (by decide) (fun p small => join1 small0 p (by omega))
    fun p small => ?_
  refine Finds.part (2 ^ 28) p0 p 14 small (by decide) (fun p small => join1 small0 p (by omega))
    fun p small => ?_
  refine Finds.part (2 ^ 28) p0 p 21 small (by decide) (fun p small => join1 small0 p (by omega))
    fun p1 small1 => ?_
  rw [show 2 ^ 28 * 2 ^ (21 + 7) = 2 ^ 56 from rfl]
  refine Finds.first (2 ^ 56) (p0 + 2 ^ 28 * p1) (fun p small => join2 small0 small1 p (by omega))
    fun p small => ?_
  refine Finds.part (2 ^ 56) (p0 + 2 ^ 28 * p1) p 7 small (by decide)
    (fun p small => join2 small0 small1 p (by omega)) fun p small => ?_
  exact fun _ _ => rfl

/-! ## The stream -/

/-- What a stream is between two fields: inside its limits, and not at the end of a message. -/
structure Sound (input : CodedInputStream) : Prop where
  limit_le : input.currentLimit ≤ input.totalBytesRead
  total_lt : input.totalBytesRead < input.totalBytesLimit
  total_le : input.totalBytesLimit ≤ intMax
  after : input.afterLimit.length = input.totalBytesRead - input.currentLimit
  inside : input.buffer.length ≤ input.currentLimit
  open_ : input.legitimateMessageEnd = false

theorem sound_ofArray {data : Bytes} (small : data.length < defaultTotalBytesLimit) :
    Sound (ofArray data) where
  limit_le := Nat.le_refl _
  total_lt := small
  total_le := by
    change defaultTotalBytesLimit ≤ intMax
    decide
  after := by simp [ofArray]
  inside := Nat.le_refl _
  open_ := rfl

/-- The stream with less in its buffer. -/
theorem Sound.read {input : CodedInputStream} (sound : Sound input) {rest : Bytes}
    (shorter : rest.length ≤ input.buffer.length) (tag : UInt32) :
    Sound { input with buffer := rest, lastTag := tag } :=
  { sound with inside := Nat.le_trans shorter sound.inside }

/-- No more input, wherever the stream looks for it. -/
theorem Sound.limited {input : CodedInputStream} (sound : Sound input) :
    0 < input.afterLimit.length ∨ input.totalBytesRead = input.currentLimit := by
  have := sound.limit_le
  have := sound.after
  omega

theorem refresh_eq {α : Type} {input : CodedInputStream}
    (limited : 0 < input.afterLimit.length ∨ input.totalBytesRead = input.currentLimit) :
    refresh (α := α) input = .failed input :=
  if_pos limited

/-- A read answers what parsing the buffer answers, and touches nothing but the buffer. -/
def ReadsNumber {α : Type} (outcome : Outcome α) (input : CodedInputStream) :
    Option (α × Bytes) → Prop
  | some (value, rest) => outcome = .ok value { input with buffer := rest }
  | none => ∃ buffer, outcome = .failed { input with buffer := buffer }

theorem terminates_of_fastPath {input : CodedInputStream} (fast : input.fastPath = true) :
    Terminates maxVarintBytes input.buffer := by
  simp only [fastPath, bufferSize, Bool.or_eq_true] at fast
  rcases fast with long | ends
  · exact .inl (of_decide_eq_true long)
  · rw [Option.any_eq_true] at ends
    obtain ⟨b, last, zero⟩ := ends
    exact .inr ⟨b, last, (uInt8_last_iff b).mp (by simpa using zero)⟩

theorem walk_readsNumber {α : Type} {ofNat : Nat → α} {scan : Bytes → Except Overrun (Scanned α)}
    (finds : Finds ofNat maxVarintBytes 1 0 scan) {input : CodedInputStream}
    (fast : input.fastPath = true) :
    ReadsNumber (walk scan input) input
      ((readBase128 maxVarintBytes input.buffer).map fun (n, rest) => (ofNat n, rest)) := by
  have found := finds input.buffer (terminates_of_fastPath fast)
  rw [walk, found]
  cases readBase128 maxVarintBytes input.buffer with
  | none => exact ⟨input.buffer, rfl⟩
  | some found =>
      obtain ⟨n, rest⟩ := found
      simp [ReadsNumber]

/-- The loop of `ReadVarint64Slow`. -/
theorem readVarint64Loop_readsNumber {rounds count acc : Nat}
    (all : count + rounds = maxVarintBytes)
    (small : acc < 2 ^ (7 * count)) {input : CodedInputStream}
    (limited : 0 < input.afterLimit.length ∨ input.totalBytesRead = input.currentLimit) :
    ReadsNumber (readVarint64Loop rounds count (.ofNat acc) input) input
      ((readBase128 rounds input.buffer).map fun (n, rest) =>
        (UInt64.ofNat (acc + 2 ^ (7 * count) * n), rest)) := by
  induction rounds generalizing count acc input with
  | zero => exact ⟨input.buffer, rfl⟩
  | succ rounds ih =>
      rw [readVarint64Loop]
      have ten : maxVarintBytes = 10 := rfl
      cases bufferEq : input.buffer with
      | nil => exact ⟨input.buffer, refresh_eq limited⟩
      | cons b ptr =>
          have put : UInt64.ofNat acc ||| (b &&& 0x7F).toUInt64 <<< UInt64.ofNat (7 * count) =
              UInt64.ofNat (acc + 2 ^ (7 * count) * (b.toNat % 128)) := by
            rw [uInt64_or_shift small (by omega), UInt8.toNat_toUInt64, uInt8_and_127]
          dsimp only
          rw [put]
          by_cases last : b.toNat < 128
          · have value : b.toNat % 128 = b.toNat := by omega
            rw [if_pos ((uInt8_last_iff b).mpr last), readBase128_last last, value]
            rfl
          · have below : acc + 2 ^ (7 * count) * (b.toNat % 128) < 2 ^ (7 * (count + 1)) := by
              have : b.toNat % 128 ≤ 127 := by omega
              calc acc + 2 ^ (7 * count) * (b.toNat % 128)
                _ < 2 ^ (7 * count) + 2 ^ (7 * count) * 127 :=
                  Nat.add_lt_add_of_lt_of_le small (Nat.mul_le_mul_left _ this)
                _ = 2 ^ (7 * (count + 1)) := by rw [Nat.mul_add, Nat.pow_add]; omega
            have limited' : 0 < { input with buffer := ptr }.afterLimit.length ∨
                { input with buffer := ptr }.totalBytesRead =
                  { input with buffer := ptr }.currentLimit := limited
            have later := ih (by omega) below limited'
            rw [if_neg (fun zero => last ((uInt8_last_iff b).mp zero)),
              readBase128_more (by omega), Option.map_map]
            have same (n : Nat) :
                acc + 2 ^ (7 * count) * (b.toNat % 128) + 2 ^ (7 * (count + 1)) * n =
                acc + 2 ^ (7 * count) * (b.toNat % 128 + 128 * n) := by
              rw [Nat.mul_add, Nat.mul_add, Nat.pow_add, Nat.mul_assoc, Nat.add_assoc]
            simp only [same] at later
            exact later

/-- A byte below `0x80` at the front is the number. -/
theorem readBase128_front {input : CodedInputStream} {b : UInt8} {ptr : Bytes}
    (bufferEq : input.buffer = b :: ptr) (last : b.toNat < 128) :
    readBase128 maxVarintBytes input.buffer = some (b.toNat, ptr) := by
  rw [bufferEq]
  exact readBase128_last last 9 ptr

theorem readVarint64Fallback_readsNumber {input : CodedInputStream}
    (limited : 0 < input.afterLimit.length ∨ input.totalBytesRead = input.currentLimit) :
    ReadsNumber (readVarint64Fallback input) input
      ((readBase128 maxVarintBytes input.buffer).map fun (n, rest) => (UInt64.ofNat n, rest)) := by
  rw [readVarint64Fallback]
  by_cases fast : input.fastPath = true
  · rw [if_pos fast]
    exact walk_readsNumber readVarint64FromArray_finds fast
  · rw [if_neg fast, readVarint64Slow]
    have slow := readVarint64Loop_readsNumber (Nat.zero_add maxVarintBytes) Nat.zero_lt_one limited
    simpa using slow

/-- `ReadVarint64` reads the number at the front of the buffer. -/
theorem readVarint64_readsNumber {input : CodedInputStream}
    (limited : 0 < input.afterLimit.length ∨ input.totalBytesRead = input.currentLimit) :
    ReadsNumber (readVarint64 input) input
      ((readBase128 maxVarintBytes input.buffer).map fun (n, rest) => (UInt64.ofNat n, rest)) := by
  rw [readVarint64]
  split
  case h_1 b ptr bufferEq =>
    split
    case isTrue last =>
      rw [readBase128_front bufferEq last]
      simp [ReadsNumber]
    case isFalse => exact readVarint64Fallback_readsNumber limited
  case h_2 => exact readVarint64Fallback_readsNumber limited

theorem readVarint32Slow_readsNumber {input : CodedInputStream}
    (limited : 0 < input.afterLimit.length ∨ input.totalBytesRead = input.currentLimit) :
    ReadsNumber (readVarint32Slow input) input
      ((readBase128 maxVarintBytes input.buffer).map fun (n, rest) => (UInt32.ofNat n, rest)) := by
  have slow := readVarint64Fallback_readsNumber limited
  rw [readVarint32Slow]
  cases foundEq : readBase128 maxVarintBytes input.buffer with
  | none =>
      rw [foundEq] at slow
      obtain ⟨buffer, failedEq⟩ := slow
      exact ⟨buffer, Reader.bind_failed failedEq _⟩
  | some found =>
      rw [foundEq] at slow
      refine (Reader.bind_ok slow _).trans ?_
      simp [Reader.pure_apply]

/-- `ReadVarint32` reads the low bits of the number at the front of the buffer. -/
theorem readVarint32_readsNumber {input : CodedInputStream}
    (limited : 0 < input.afterLimit.length ∨ input.totalBytesRead = input.currentLimit) :
    ReadsNumber (readVarint32 input) input
      ((readBase128 maxVarintBytes input.buffer).map fun (n, rest) => (UInt32.ofNat n, rest)) := by
  have fallback : ReadsNumber (readVarint32Fallback input) input
      ((readBase128 maxVarintBytes input.buffer).map fun (n, rest) => (UInt32.ofNat n, rest)) := by
    rw [readVarint32Fallback]
    split
    case isTrue fast => exact walk_readsNumber readVarint32FromArray_finds fast
    case isFalse => exact readVarint32Slow_readsNumber limited
  rw [readVarint32]
  split
  case h_1 b ptr bufferEq =>
    split
    case isTrue last =>
      rw [readBase128_front bufferEq last]
      simp [ReadsNumber]
    case isFalse => exact fallback
  case h_2 => exact fallback

end GPush.Protobuf.CodedInputStream
