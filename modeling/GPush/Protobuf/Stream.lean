import GPush.Protobuf.ReadVarint
import GPush.Protobuf.Wire

/-!
# Tags, raw bytes and limits

What each operation of the input stream does with the bytes up to the limit, for an array
below the limit of 64 MB.
-/

namespace GPush.Protobuf.CodedInputStream

open Wire

/-- A length on the wire as the `int` that takes it. -/
def asInt (length : UInt32) : Int := length.toInt32.toInt

theorem asInt_of_lt {length : UInt32} (small : length.toNat < 2 ^ 31) :
    asInt length = length.toNat := by
  change length.toBitVec.toInt = length.toNat
  rw [BitVec.toInt_eq_toNat_cond, if_pos (by change 2 * length.toNat < 2 ^ 32; omega)]
  rfl

theorem asInt_neg {length : UInt32} (large : 2 ^ 31 ≤ length.toNat) : asInt length < 0 := by
  change length.toBitVec.toInt < 0
  have := length.toNat_lt
  rw [BitVec.toInt_eq_toNat_cond, if_neg (by change ¬2 * length.toNat < 2 ^ 32; omega)]
  change (length.toNat : Int) - (2 ^ 32 : Nat) < 0
  omega

/-- A read answers what parsing the buffer answers; apart from the last tag it leaves the
rest of the stream as it is. -/
def Reads {α : Type} (outcome : Outcome α) (input : CodedInputStream) :
    Option (α × Bytes) → Prop
  | some (value, rest) => ∃ tag, outcome = .ok value { input with buffer := rest, lastTag := tag }
  | none => ∃ input', outcome = .failed input'

theorem ReadsNumber.reads {α : Type} {outcome : Outcome α} {input : CodedInputStream}
    {found : Option (α × Bytes)} (reads : ReadsNumber outcome input found) :
    Reads outcome input found := by
  cases found with
  | none =>
      obtain ⟨buffer, failedEq⟩ := reads
      exact ⟨_, failedEq⟩
  | some found => exact ⟨input.lastTag, reads⟩

/-- One read after the other. -/
theorem Reads.bind {α β : Type} {read : Reader α} {input : CodedInputStream}
    {found : Option (α × Bytes)} (reads : Reads (read input) input found) (next : α → Reader β)
    (parse : α → Bytes → Option (β × Bytes))
    (later : ∀ value rest tag, found = some (value, rest) →
      Reads (next value { input with buffer := rest, lastTag := tag })
        { input with buffer := rest, lastTag := tag } (parse value rest)) :
    Reads ((read >>= next) input) input (found.bind fun (value, rest) => parse value rest) := by
  cases found with
  | none =>
      obtain ⟨input', failedEq⟩ := reads
      exact ⟨input', Reader.bind_failed failedEq _⟩
  | some found =>
      obtain ⟨value, rest⟩ := found
      obtain ⟨tag, okEq⟩ := reads
      have nextReads := later value rest tag rfl
      rw [Option.bind_some, Reader.bind_ok okEq]
      change Reads _ input (parse value rest)
      cases parseEq : parse value rest with
      | none =>
          rw [parseEq] at nextReads
          exact nextReads
      | some parsed =>
          rw [parseEq] at nextReads
          exact nextReads

/-- A read whose value is converted. -/
theorem Reads.map {α β : Type} {read : Reader α} {input : CodedInputStream}
    {found : Option (α × Bytes)} (reads : Reads (read input) input found) (f : α → β) :
    Reads ((read >>= fun value => pure (f value)) input) input
      (found.map fun (value, rest) => (f value, rest)) := by
  cases found with
  | none =>
      obtain ⟨input', failedEq⟩ := reads
      exact ⟨input', Reader.bind_failed failedEq _⟩
  | some found =>
      obtain ⟨tag, okEq⟩ := reads
      exact ⟨tag, Reader.bind_ok okEq _⟩

/-- A length and what it is for. -/
theorem readVarint32_bind {β : Type} {input : CodedInputStream} (sound : Sound input)
    (next : UInt32 → Reader β) (parse : Nat → Bytes → Option (β × Bytes))
    (later : ∀ length rest tag, rest.length ≤ input.buffer.length →
      Reads (next length { input with buffer := rest, lastTag := tag })
        { input with buffer := rest, lastTag := tag } (parse length.toNat rest)) :
    Reads ((readVarint32 >>= next) input) input
      ((readBase128 mostBytes input.buffer).bind fun (n, rest) => parse (n % 2 ^ 32) rest) := by
  have number := (readVarint32_readsNumber sound.limited).reads
  have both := number.bind next (fun length rest => parse length.toNat rest)
    fun length rest tag found => by
      obtain ⟨⟨n, rest'⟩, read, same⟩ := Option.map_eq_some_iff.mp found
      simp only [Prod.mk.injEq] at same
      obtain ⟨-, rfl⟩ := same
      exact later length rest' tag (Nat.le_of_lt (length_readBase128 read))
  rw [Option.bind_map] at both
  refine (congrArg (Reads _ input) (Option.bind_congr fun ⟨n, rest⟩ _ => ?_)).mp both
  change parse (UInt32.ofNat n).toNat rest = parse (n % 2 ^ 32) rest
  rw [UInt32.toNat_ofNat']

/-! ## Tags -/

/-- At a limit `ReadTag` finds the end of the message. -/
theorem readTag_end {input : CodedInputStream} (sound : Sound input) (empty : input.buffer = []) :
    readTag input = .ok 0 { input with lastTag := 0, legitimateMessageEnd := true } := by
  have slow : input.fastPath = false := by simp [fastPath, bufferSize, empty, maxVarintBytes]
  have atLimit : input.bufferSize = 0 ∧
      (0 < input.afterLimit.length ∨ input.totalBytesRead = input.currentLimit) ∧
      input.totalBytesRead - input.afterLimit.length < input.totalBytesLimit :=
    ⟨by simp [bufferSize, empty], sound.limited, by have := sound.total_lt; omega⟩
  have fallback : readTagFallback input = .ok 0 { input with legitimateMessageEnd := true } := by
    rw [readTagFallback, slow, if_neg (by simp), if_pos atLimit]
  have setLast := Reader.bind_ok fallback fun tag => do
    Reader.modify fun input => { input with lastTag := tag }
    return tag
  rw [readTag]
  split
  case h_1 bufferEq => simp [empty] at bufferEq
  case h_2 => exact setLast

/-- What `ReadTag` makes of a number: the low bits of it, and `0` when there is none. -/
def TagOf (outcome : Outcome UInt32) (input : CodedInputStream) : Option (Nat × Bytes) → Prop
  | some (n, rest) => outcome = .ok (.ofNat n) { input with buffer := rest, lastTag := .ofNat n }
  | none => ∃ buffer, outcome = .ok 0 { input with buffer := buffer, lastTag := 0 }

theorem readTagFallback_eq {input : CodedInputStream} (sound : Sound input)
    (nonempty : input.buffer ≠ []) :
    match readBase128 maxVarintBytes input.buffer with
    | some (n, rest) => readTagFallback input = .ok (.ofNat n) { input with buffer := rest }
    | none => ∃ buffer, readTagFallback input = .ok 0 { input with buffer := buffer } := by
  have positive : input.bufferSize ≠ 0 := by
    simpa [bufferSize] using nonempty
  rw [readTagFallback]
  by_cases fast : input.fastPath = true
  · have walked := walk_readsNumber readVarint32FromArray_finds fast
    rw [if_pos fast]
    cases foundEq : readBase128 maxVarintBytes input.buffer with
    | none =>
        rw [foundEq] at walked
        obtain ⟨buffer, failedEq⟩ := walked
        rw [failedEq]
        exact ⟨buffer, rfl⟩
    | some found =>
        rw [foundEq] at walked
        change walk readVarint32FromArray input = _ at walked
        rw [walked]
  · have number := readVarint64_readsNumber sound.limited
    rw [if_neg fast, if_neg (fun atLimit => positive atLimit.1), readTagSlow, if_neg nonempty,
      orZero]
    cases foundEq : readBase128 maxVarintBytes input.buffer with
    | none =>
        rw [foundEq] at number
        obtain ⟨buffer, failedEq⟩ := number
        rw [failedEq]
        exact ⟨buffer, rfl⟩
    | some found =>
        rw [foundEq] at number
        change readVarint64 input = _ at number
        rw [number]
        simp

/-- Before a limit `ReadTag` reads the number at the front of the buffer. -/
theorem readTag_tagOf {input : CodedInputStream} (sound : Sound input)
    (nonempty : input.buffer ≠ []) :
    TagOf (readTag input) input (readBase128 maxVarintBytes input.buffer) := by
  have setLast : TagOf (readTag.setLast input) input (readBase128 maxVarintBytes input.buffer) := by
    have fallback := readTagFallback_eq sound nonempty
    cases foundEq : readBase128 maxVarintBytes input.buffer with
    | none =>
        rw [foundEq] at fallback
        obtain ⟨buffer, zeroEq⟩ := fallback
        exact ⟨buffer, Reader.bind_ok zeroEq _⟩
    | some found =>
        rw [foundEq] at fallback
        exact Reader.bind_ok fallback _
  rw [readTag]
  split
  case h_1 b ptr bufferEq =>
    split
    case isTrue last =>
      rw [readBase128_front bufferEq last]
      simp [TagOf]
    case isFalse => exact setLast
  case h_2 => exact setLast

/-- What `ReadTag` makes of what a message has in front: the tag of a field, and `0` when
there is none. -/
def ReadsTag (outcome : Outcome UInt32) (input : CodedInputStream) : Option (Nat × Bytes) → Prop
  | some (n, rest) => ∃ tag : UInt32, tag.toNat = n ∧ tag ≠ 0 ∧
      outcome = .ok tag { input with buffer := rest, lastTag := tag }
  | none => ∃ buffer, outcome = .ok 0 { input with buffer := buffer, lastTag := 0 }

theorem readTag_readsTag {input : CodedInputStream} (sound : Sound input)
    (nonempty : input.buffer ≠ []) : ReadsTag (readTag input) input (tagAt input.buffer) := by
  have tagOf := readTag_tagOf sound nonempty
  change TagOf _ input (readBase128 mostBytes input.buffer) at tagOf
  cases foundEq : readBase128 mostBytes input.buffer with
  | none =>
      rw [foundEq] at tagOf
      rw [tagAt_of_none foundEq]
      exact tagOf
  | some found =>
      obtain ⟨n, rest⟩ := found
      rw [foundEq] at tagOf
      change readTag input = _ at tagOf
      have tagEq : (UInt32.ofNat n).toNat = n % 2 ^ 32 := UInt32.toNat_ofNat'
      by_cases zero : n % 2 ^ 32 = 0
      · have tagZero : UInt32.ofNat n = 0 := UInt32.toNat_inj.mp (tagEq.trans zero)
        rw [tagAt_of_zero foundEq zero]
        rw [tagZero] at tagOf
        exact ⟨rest, tagOf⟩
      · rw [tagAt_of_ne_zero foundEq zero]
        refine ⟨.ofNat n, tagEq, fun tagZero => zero ?_, tagOf⟩
        exact tagEq.symm.trans (congrArg UInt32.toNat tagZero)

/-- The high bit of a byte, set. -/
theorem or_128 : ∀ m : Fin 256, (m.val ||| 128) % 128 = m.val % 128 ∧ 128 ≤ m.val ||| 128 := by
  decide +kernel

/-- A tag that `ExpectTag` takes is the one that `ReadTag` would read. -/
theorem readBase128_of_expectTag {tag : UInt32} {input input' : CodedInputStream}
    (expected : expectTag tag input = some input') :
    ∃ rest, readBase128 maxVarintBytes input.buffer = some (tag.toNat, rest) ∧
      input' = { input with buffer := rest } := by
  have limit1 : (0x80 : UInt32).toNat = 128 := rfl
  have limit2 : (0x4000 : UInt32).toNat = 16384 := rfl
  rw [expectTag] at expected
  split at expected
  case isTrue one =>
    split at expected
    case h_1 b ptr bufferEq =>
      split at expected
      case isTrue same =>
        have byte : b.toNat = tag.toNat := by rw [← same, UInt8.toNat_toUInt32]
        rw [UInt32.lt_iff_toNat_lt, limit1] at one
        rw [Option.some.injEq] at expected
        exact ⟨ptr, byte ▸ readBase128_front bufferEq (by omega), expected.symm⟩
      case isFalse => cases expected
    case h_2 => cases expected
  case isFalse one =>
    split at expected
    case isTrue two =>
      split at expected
      case h_1 b c ptr bufferEq =>
        split at expected
        case isTrue same =>
          rw [UInt32.lt_iff_toNat_lt, limit1] at one
          rw [UInt32.lt_iff_toNat_lt, limit2] at two
          obtain ⟨rfl, rfl⟩ := same
          have low : (tag ||| 0x80).toUInt8.toNat % 128 = tag.toNat % 128 ∧
              128 ≤ (tag ||| 0x80).toUInt8.toNat := by
            rw [UInt32.toNat_toUInt8, UInt32.toNat_or, Nat.or_mod_two_pow]
            have bits := or_128 ⟨tag.toNat % 2 ^ 8, Nat.mod_lt _ (by decide)⟩
            have same : tag.toNat % 2 ^ 8 % 128 = tag.toNat % 128 := by omega
            exact ⟨bits.1.trans same, bits.2⟩
          have high : (tag >>> 7).toUInt8.toNat = tag.toNat / 128 := by
            rw [UInt32.toNat_toUInt8, UInt32.toNat_shiftRight]
            change tag.toNat >>> 7 % 2 ^ 8 = tag.toNat / 128
            rw [Nat.shiftRight_eq_div_pow]
            omega
          have value : (tag ||| 0x80).toUInt8.toNat % 128 + 128 * (tag >>> 7).toUInt8.toNat =
              tag.toNat := by omega
          rw [Option.some.injEq] at expected
          refine ⟨ptr, ?_, expected.symm⟩
          rw [bufferEq, maxVarintBytes, readBase128_more low.2, readBase128_last (by omega),
            Option.map_some]
          exact congrArg (fun n => some (n, ptr)) value
        case isFalse => cases expected
      case h_2 => cases expected
    case isFalse => cases expected

theorem expectAtEnd_eq {input : CodedInputStream} (sound : Sound input) :
    expectAtEnd input =
      if input.buffer = [] then some { input with lastTag := 0, legitimateMessageEnd := true }
      else none := by
  have limited : input.afterLimit.length ≠ 0 ∨ input.totalBytesRead = input.currentLimit := by
    have := sound.limited
    omega
  rw [expectAtEnd]
  by_cases empty : input.buffer = []
  · rw [if_pos ⟨empty, limited⟩, if_pos empty]
  · rw [if_neg (fun atEnd => empty atEnd.1), if_neg empty]

/-! ## Raw bytes -/

theorem takeBytes_of_le {length : Nat} {buffer : Bytes} (there : length ≤ buffer.length) :
    takeBytes length buffer = some (buffer.take length, buffer.drop length) := if_pos there

theorem takeBytes_of_lt {length : Nat} {buffer : Bytes} (short : buffer.length < length) :
    takeBytes length buffer = none := if_neg (by omega)

/-- The buffer is shorter than any length that is negative as an `int`. -/
theorem Sound.length_lt {input : CodedInputStream} (sound : Sound input) :
    input.buffer.length < 2 ^ 31 := by
  have := sound.inside
  have := sound.limit_le
  have := sound.total_lt
  have := sound.total_le
  have intMaxEq : intMax = 2 ^ 31 - 1 := rfl
  omega

theorem readRaw_reads {input : CodedInputStream} (sound : Sound input) (size : Nat) :
    Reads (readRaw size input) input (takeBytes size input.buffer) := by
  rw [readRaw, bufferSize]
  by_cases short : input.buffer.length < size
  · rw [takeBytes_of_lt short, if_pos short]
    exact ⟨_, refresh_eq sound.limited⟩
  · rw [takeBytes_of_le (by omega), if_neg short]
    exact ⟨input.lastTag, rfl⟩

theorem internalReadStringInline_reads {input : CodedInputStream} (sound : Sound input)
    (length : UInt32) :
    Reads (internalReadStringInline (asInt length) input) input
      (takeBytes length.toNat input.buffer) := by
  have inside := sound.length_lt
  rw [internalReadStringInline, bufferSize]
  by_cases small : length.toNat < 2 ^ 31
  · rw [asInt_of_lt small, if_neg (by omega)]
    by_cases short : input.buffer.length < length.toNat
    · rw [if_neg (by omega), readStringFallback]
      exact readRaw_reads sound _
    · rw [takeBytes_of_le (by omega), if_pos (by omega)]
      exact ⟨input.lastTag, rfl⟩
  · rw [takeBytes_of_lt (by omega), if_pos (asInt_neg (by omega))]
    exact ⟨input, rfl⟩

theorem skip_reads {input : CodedInputStream} (sound : Sound input) (length : UInt32) :
    Reads (skip (asInt length) input) input
      ((takeBytes length.toNat input.buffer).map fun (_, rest) => ((), rest)) := by
  have inside := sound.length_lt
  have limit := sound.limit_le
  rw [skip, bufferSize]
  by_cases small : length.toNat < 2 ^ 31
  · rw [asInt_of_lt small, if_neg (by omega)]
    by_cases short : input.buffer.length < length.toNat
    · rw [takeBytes_of_lt short, if_neg (by omega)]
      split
      · exact ⟨_, rfl⟩
      · dsimp only
        rw [if_pos (by omega)]
        exact ⟨_, rfl⟩
    · rw [takeBytes_of_le (by omega), if_pos (by omega)]
      exact ⟨input.lastTag, rfl⟩
  · rw [takeBytes_of_lt (by omega), if_pos (asInt_neg (by omega))]
    exact ⟨input, rfl⟩

/-! ## Limits -/

/-- The stream with a limit behind the next `n` bytes, as far as there are so many. -/
def limitedTo (n : Nat) (input : CodedInputStream) : CodedInputStream :=
  { input with
    buffer := input.buffer.take n
    afterLimit := input.buffer.drop n ++ input.afterLimit
    currentLimit := input.currentLimit - (input.buffer.drop n).length }

theorem Sound.limitedTo {input : CodedInputStream} (sound : Sound input) (n : Nat) :
    Sound (input.limitedTo n) where
  limit_le := by
    have := sound.limit_le
    simp only [CodedInputStream.limitedTo]
    omega
  total_lt := sound.total_lt
  total_le := sound.total_le
  after := by
    have := sound.limit_le
    have := sound.after
    have := sound.inside
    simp only [CodedInputStream.limitedTo, List.length_append, List.length_drop]
    omega
  inside := by
    have := sound.inside
    simp only [CodedInputStream.limitedTo, List.length_take, List.length_drop]
    omega
  open_ := sound.open_

/-- The limits recomputed: the buffer ends where the closest one is. -/
theorem recomputeBufferLimits_eq {input : CodedInputStream} {buffer afterLimit : Bytes}
    (limit_le : input.currentLimit ≤ input.totalBytesRead)
    (total_lt : input.totalBytesRead < input.totalBytesLimit)
    (whole : input.buffer ++ input.afterLimit = buffer ++ afterLimit)
    (after : afterLimit.length = input.totalBytesRead - input.currentLimit) :
    recomputeBufferLimits input =
      .ok () { input with buffer := buffer, afterLimit := afterLimit } := by
  have closest : min input.currentLimit input.totalBytesLimit = input.currentLimit := by omega
  rw [recomputeBufferLimits, closest, whole]
  by_cases before : input.currentLimit < input.totalBytesRead
  · have rest : (buffer ++ afterLimit).length - (input.totalBytesRead - input.currentLimit) =
        buffer.length := by
      rw [List.length_append]
      omega
    rw [if_pos before, if_neg (by rw [List.length_append]; omega), rest, List.take_left,
      List.drop_left]
  · have none : afterLimit = [] := List.eq_nil_of_length_eq_zero (by omega)
    rw [if_neg before, none, List.append_nil]

/-- `PushLimit` keeps the limit that there is, when the new one would be behind it. -/
theorem pushLimit_eq {input : CodedInputStream} (sound : Sound input) (length : UInt32) :
    pushLimit (asInt length) input = .ok input.currentLimit (input.limitedTo length.toNat) := by
  have inside := sound.inside
  have shorter := sound.length_lt
  have limit := sound.limit_le
  have total := sound.total_lt
  have most := sound.total_le
  have after := sound.after
  have intMaxEq : intMax = 2 ^ 31 - 1 := rfl
  have position : input.currentPosition = input.currentLimit - input.buffer.length := by
    rw [currentPosition]
    omega
  have newLimit : min (if 0 ≤ asInt length ∧ asInt length ≤ intMax - input.currentPosition then
      input.currentPosition + (asInt length).toNat else intMax) input.currentLimit =
        input.currentLimit - (input.buffer.drop length.toNat).length := by
    rw [List.length_drop]
    by_cases small : length.toNat < 2 ^ 31
    · rw [asInt_of_lt small]
      split <;> omega
    · have negative : asInt length < 0 := asInt_neg (by omega)
      rw [if_neg (by omega)]
      omega
  refine (Reader.bind_ok (by rfl : Reader.get input = .ok input input) _).trans ?_
  refine (Reader.bind_ok (by rfl) _).trans ?_
  dsimp only
  rw [newLimit]
  have limited := sound.limitedTo length.toNat
  have whole : input.buffer ++ input.afterLimit =
      (input.limitedTo length.toNat).buffer ++ (input.limitedTo length.toNat).afterLimit := by
    rw [limitedTo, ← List.append_assoc, List.take_append_drop]
  have recomputed : recomputeBufferLimits { input with
      currentLimit := input.currentLimit - (input.buffer.drop length.toNat).length } =
      .ok () (input.limitedTo length.toNat) :=
    recomputeBufferLimits_eq limited.limit_le limited.total_lt whole limited.after
  exact Reader.bind_ok recomputed _

/-- `PopLimit` after the bytes up to the limit have been read. -/
theorem popLimit_eq {input : CodedInputStream} (sound : Sound input) (n : Nat) (tag : UInt32)
    (atEnd : Bool) :
    popLimit input.currentLimit { input.limitedTo n with
      buffer := [], lastTag := tag, legitimateMessageEnd := atEnd } =
    .ok () { input with buffer := input.buffer.drop n, lastTag := tag } := by
  refine (Reader.bind_ok (by rfl) _).trans ?_
  have whole : [] ++ (input.limitedTo n).afterLimit = input.buffer.drop n ++ input.afterLimit := rfl
  have recomputed : recomputeBufferLimits { input.limitedTo n with
      buffer := [], lastTag := tag, legitimateMessageEnd := atEnd,
      currentLimit := input.currentLimit } = .ok () { input with
      buffer := input.buffer.drop n, lastTag := tag, legitimateMessageEnd := atEnd } :=
    recomputeBufferLimits_eq sound.limit_le sound.total_lt whole sound.after
  refine (Reader.bind_ok recomputed _).trans ?_
  have closed : false = input.legitimateMessageEnd := sound.open_.symm
  simp [Reader.modify, closed]

end GPush.Protobuf.CodedInputStream
