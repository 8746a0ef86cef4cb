import GPush.Protobuf.Base128

/-!
# The input stream of the message classes

`CodedInputStream` over an array, so that `input_` is null: the bytes up to `buffer_end_`,
those behind the limit, and the counters of the limits.  A read returns a value, returns
`false`, or has no defined behaviour: it uses a byte at or behind `buffer_end_`, puts
`buffer_end_` before `buffer_`, or uses `input_`.
-/

namespace GPush.Protobuf

/-- `CodedInputStream` over an array. -/
structure CodedInputStream where
  /-- From `buffer_` to `buffer_end_`. -/
  buffer : Bytes
  /-- The `buffer_size_after_limit_` bytes behind `buffer_end_`. -/
  afterLimit : Bytes
  totalBytesRead : Nat
  lastTag : UInt32
  legitimateMessageEnd : Bool
  currentLimit : Nat
  totalBytesLimit : Nat
  recursionDepth : Nat
  recursionLimit : Nat
  deriving DecidableEq, Repr

/-- `kDefaultTotalBytesLimit`. -/
def defaultTotalBytesLimit : Nat := 64 * 2 ^ 20

/-- `default_recursion_limit_`. -/
def defaultRecursionLimit : Nat := 100

/-- `kMaxVarintBytes`. -/
def maxVarintBytes : Nat := 10

/-- `INT_MAX`. -/
def intMax : Nat := 2 ^ 31 - 1

/-- `CodedInputStream(buffer, size)`. -/
def CodedInputStream.ofArray (buffer : Bytes) : CodedInputStream where
  buffer := buffer
  afterLimit := []
  totalBytesRead := buffer.length
  lastTag := 0
  legitimateMessageEnd := false
  currentLimit := buffer.length
  totalBytesLimit := defaultTotalBytesLimit
  recursionDepth := 0
  recursionLimit := defaultRecursionLimit

/-- How a read ends. -/
inductive Outcome (α : Type)
  | ok (value : α) (input : CodedInputStream)
  | failed (input : CodedInputStream)
  | faulted
  deriving DecidableEq, Repr

/-- A read; `DO_` makes a sequence of them. -/
def Reader (α : Type) : Type := CodedInputStream → Outcome α

namespace Reader

variable {α β : Type}

/-- A read that returns a value at once. -/
def done (value : α) : Reader α := fun input => .ok value input

/-- One read after the other. -/
def andThen (read : Reader α) (next : α → Reader β) : Reader β := fun input =>
  match read input with
  | .ok value input => next value input
  | .failed input => .failed input
  | .faulted => .faulted

instance : Monad Reader where
  pure := done
  bind := andThen

/-- `return false`. -/
def fail : Reader α := fun input => .failed input

/-- No defined behaviour. -/
def fault : Reader α := fun _ => .faulted

/-- The stream. -/
def get : Reader CodedInputStream := fun input => .ok input input

/-- `if (!condition) return false`. -/
def ensure (condition : CodedInputStream → Bool) : Reader Unit := fun input =>
  if condition input then .ok () input else .failed input

/-- A change of the stream. -/
def modify (f : CodedInputStream → CodedInputStream) : Reader Unit := fun input => .ok () (f input)

theorem pure_apply (value : α) (input : CodedInputStream) :
    (pure value : Reader α) input = .ok value input := rfl

theorem bind_ok {read : Reader α} {input input' : CodedInputStream} {value : α}
    (readEq : read input = .ok value input') (next : α → Reader β) :
    (read >>= next) input = next value input' := by
  simp [bind, andThen, readEq]

theorem bind_failed {read : Reader α} {input input' : CodedInputStream}
    (readEq : read input = .failed input') (next : α → Reader β) :
    (read >>= next) input = .failed input' := by
  simp [bind, andThen, readEq]

end Reader

namespace CodedInputStream

/-! ## Positions and limits -/

/-- `BufferSize`. -/
def bufferSize (input : CodedInputStream) : Nat := input.buffer.length

/-- `Advance`, inside the buffer. -/
def advance (amount : Nat) (input : CodedInputStream) : CodedInputStream :=
  { input with buffer := input.buffer.drop amount }

/-- `CurrentPosition`. -/
def currentPosition (input : CodedInputStream) : Nat :=
  input.totalBytesRead - (input.buffer.length + input.afterLimit.length)

/-- `RecomputeBufferLimits`. -/
def recomputeBufferLimits : Reader Unit := fun input =>
  let whole := input.buffer ++ input.afterLimit
  let closest := min input.currentLimit input.totalBytesLimit
  if closest < input.totalBytesRead then
    let beyond := input.totalBytesRead - closest
    if whole.length < beyond then
      .faulted
    else
      .ok () { input with
        buffer := whole.take (whole.length - beyond)
        afterLimit := whole.drop (whole.length - beyond) }
  else
    .ok () { input with buffer := whole, afterLimit := [] }

/-- `PushLimit`; it returns the old limit. -/
def pushLimit (byteLimit : Int) : Reader Nat := do
  let input ← Reader.get
  let currentPosition := input.currentPosition
  let oldLimit := input.currentLimit
  let limit :=
    if 0 ≤ byteLimit ∧ byteLimit ≤ intMax - currentPosition then
      currentPosition + byteLimit.toNat
    else
      intMax
  Reader.modify fun input => { input with currentLimit := min limit oldLimit }
  recomputeBufferLimits
  return oldLimit

/-- `PopLimit`. -/
def popLimit (limit : Nat) : Reader Unit := do
  Reader.modify fun input => { input with currentLimit := limit }
  recomputeBufferLimits
  Reader.modify fun input => { input with legitimateMessageEnd := false }

/-- `Refresh`, which finds more input nowhere. -/
def refresh {α : Type} : Reader α := fun input =>
  if 0 < input.afterLimit.length ∨ input.totalBytesRead = input.currentLimit then
    .failed input
  else
    .faulted

/-- `IncrementRecursionDepth`. -/
def incrementRecursionDepth : Reader Unit := fun input =>
  let input := { input with recursionDepth := input.recursionDepth + 1 }
  if input.recursionDepth ≤ input.recursionLimit then .ok () input else .failed input

/-- `DecrementRecursionDepth`. -/
def decrementRecursionDepth : Reader Unit :=
  Reader.modify fun input => { input with recursionDepth := input.recursionDepth - 1 }

/-! ## Raw bytes -/

/-- `Skip`. -/
def skip (count : Int) : Reader Unit := fun input =>
  if count < 0 then
    .failed input
  else if count ≤ input.bufferSize then
    .ok () (input.advance count.toNat)
  else if 0 < input.afterLimit.length then
    .failed (input.advance input.bufferSize)
  else
    let count := count - input.bufferSize
    let closest := min input.currentLimit input.totalBytesLimit
    let bytesUntilLimit : Int := closest - input.totalBytesRead
    if bytesUntilLimit < count ∧ bytesUntilLimit ≤ 0 then
      .failed (input.advance input.bufferSize)
    else
      .faulted

/-- `ReadRaw`. -/
def readRaw (size : Nat) : Reader Bytes := fun input =>
  if input.bufferSize < size then
    refresh (input.advance input.bufferSize)
  else
    .ok (input.buffer.take size) (input.advance size)

/-- `ReadLittleEndian32` as far as its callers use it. -/
def readLittleEndian32 : Reader Bytes := readRaw 4

/-- `ReadLittleEndian64` as far as its callers use it. -/
def readLittleEndian64 : Reader Bytes := readRaw 8

/-- `ReadStringFallback`. -/
def readStringFallback (size : Nat) : Reader Bytes := readRaw size

/-- `InternalReadStringInline`. -/
def internalReadStringInline (size : Int) : Reader Bytes := fun input =>
  if size < 0 then
    .failed input
  else if size ≤ input.bufferSize then
    .ok (input.buffer.take size.toNat) (input.advance size.toNat)
  else
    readStringFallback size.toNat input

/-! ## Variable-length numbers

Reading from an array walks on without looking at its end; `none` is `NULL`. -/

/-- A walk has left the buffer. -/
inductive Overrun
  | overrun
  deriving DecidableEq, Repr

/-- What a walk over an array finds: a value and the pointer behind it. -/
abbrev Scanned (α : Type) := Option (α × Bytes)

/-- `b = *(ptr++)`. -/
def fetch : Bytes → Except Overrun (UInt32 × Bytes)
  | [] => .error .overrun
  | b :: ptr => .ok (b.toUInt32, ptr)

/-- A line `b = *(ptr++); result = ..; if (!(b & 0x80)) goto done;` of a walk. -/
def scanByte {α : Type} (put : UInt32 → UInt32) (done : UInt32 → α)
    (next : UInt32 → Bytes → Except Overrun (Scanned α)) (ptr : Bytes) :
    Except Overrun (Scanned α) := do
  let (b, ptr) ← fetch ptr
  let result := put b
  if b &&& 0x80 = 0 then return some (done result, ptr)
  next result ptr

/-- The loop of `ReadVarint32FromArray` that discards the high-order bits. -/
def discardHighBits (result : UInt32) : Nat → Bytes → Except Overrun (Scanned UInt32)
  | 0 => fun _ => return none
  | rounds + 1 => scanByte (fun _ => result) id fun result => discardHighBits result rounds

/-- `ReadVarint32FromArray`. -/
def readVarint32FromArray : Bytes → Except Overrun (Scanned UInt32) :=
  scanByte (fun b => b &&& 0x7F) id fun result =>
  scanByte (fun b => result ||| (b &&& 0x7F) <<< 7) id fun result =>
  scanByte (fun b => result ||| (b &&& 0x7F) <<< 14) id fun result =>
  scanByte (fun b => result ||| (b &&& 0x7F) <<< 21) id fun result =>
  scanByte (fun b => result ||| b <<< 28) id fun result =>
  discardHighBits result 5

/-- `part0`, `part1` and `part2` put together. -/
def joinParts (part0 part1 part2 : UInt32) : UInt64 :=
  part0.toUInt64 ||| part1.toUInt64 <<< 28 ||| part2.toUInt64 <<< 56

/-- The fast path of `ReadVarint64Fallback`. -/
def readVarint64FromArray : Bytes → Except Overrun (Scanned UInt64) :=
  scanByte (fun b => b &&& 0x7F) (joinParts · 0 0) fun part0 =>
  scanByte (fun b => part0 ||| (b &&& 0x7F) <<< 7) (joinParts · 0 0) fun part0 =>
  scanByte (fun b => part0 ||| (b &&& 0x7F) <<< 14) (joinParts · 0 0) fun part0 =>
  scanByte (fun b => part0 ||| (b &&& 0x7F) <<< 21) (joinParts · 0 0) fun part0 =>
  scanByte (fun b => b &&& 0x7F) (joinParts part0 · 0) fun part1 =>
  scanByte (fun b => part1 ||| (b &&& 0x7F) <<< 7) (joinParts part0 · 0) fun part1 =>
  scanByte (fun b => part1 ||| (b &&& 0x7F) <<< 14) (joinParts part0 · 0) fun part1 =>
  scanByte (fun b => part1 ||| (b &&& 0x7F) <<< 21) (joinParts part0 · 0) fun part1 =>
  scanByte (fun b => b &&& 0x7F) (joinParts part0 part1 ·) fun part2 =>
  scanByte (fun b => part2 ||| (b &&& 0x7F) <<< 7) (joinParts part0 part1 ·) fun _ =>
  fun _ => return none

/-- A walk from `buffer_`, whose end becomes `buffer_`. -/
def walk {α : Type} (scan : Bytes → Except Overrun (Scanned α)) : Reader α := fun input =>
  match scan input.buffer with
  | .error _ => .faulted
  | .ok none => .failed input
  | .ok (some (value, ptr)) => .ok value { input with buffer := ptr }

/-- The test for the fast path: enough bytes, or a number that ends with the buffer. -/
def fastPath (input : CodedInputStream) : Bool :=
  maxVarintBytes ≤ input.bufferSize || input.buffer.getLast?.any fun b => b &&& 0x80 == 0

/-- The loop of `ReadVarint64Slow` with `count` bytes read. -/
def readVarint64Loop : Nat → Nat → UInt64 → CodedInputStream → Outcome UInt64
  | 0, _, _, input => .failed input
  | rounds + 1, count, result, input =>
      match input.buffer with
      | [] => refresh input
      | b :: ptr =>
          let result := result ||| (b &&& 0x7F).toUInt64 <<< UInt64.ofNat (7 * count)
          let input := { input with buffer := ptr }
          if b &&& 0x80 = 0 then
            .ok result input
          else
            readVarint64Loop rounds (count + 1) result input

/-- `ReadVarint64Slow`. -/
def readVarint64Slow : Reader UInt64 := readVarint64Loop maxVarintBytes 0 0

/-- `ReadVarint64Fallback`. -/
def readVarint64Fallback : Reader UInt64 := fun input =>
  if input.fastPath then walk readVarint64FromArray input else readVarint64Slow input

/-- `ReadVarint64`. -/
def readVarint64 : Reader UInt64 := fun input =>
  match input.buffer with
  | b :: ptr =>
      if b < 0x80 then .ok b.toUInt64 { input with buffer := ptr } else readVarint64Fallback input
  | [] => readVarint64Fallback input

/-- `ReadVarint32Slow`. -/
def readVarint32Slow : Reader UInt32 := do
  let result ← readVarint64Fallback
  return result.toUInt32

/-- `ReadVarint32Fallback`. -/
def readVarint32Fallback : Reader UInt32 := fun input =>
  if input.fastPath then walk readVarint32FromArray input else readVarint32Slow input

/-- `ReadVarint32`. -/
def readVarint32 : Reader UInt32 := fun input =>
  match input.buffer with
  | b :: ptr =>
      if b < 0x80 then .ok b.toUInt32 { input with buffer := ptr } else readVarint32Fallback input
  | [] => readVarint32Fallback input

/-! ## Tags -/

/-- A read whose failure is the value `0`. -/
def orZero (read : Reader UInt64) : Reader UInt32 := fun input =>
  match read input with
  | .ok value input => .ok value.toUInt32 input
  | .failed input => .ok 0 input
  | .faulted => .faulted

/-- `ReadTagSlow`. -/
def readTagSlow : Reader UInt32 := fun input =>
  if input.buffer = [] then
    match refresh (α := Unit) input with
    | .ok _ input => orZero readVarint64 input
    | .failed input =>
        let currentPosition := input.totalBytesRead - input.afterLimit.length
        if input.totalBytesLimit ≤ currentPosition then
          .ok 0 { input with
            legitimateMessageEnd := decide (input.currentLimit = input.totalBytesLimit) }
        else
          .ok 0 { input with legitimateMessageEnd := true }
    | .faulted => .faulted
  else
    orZero readVarint64 input

/-- `ReadTagFallback`. -/
def readTagFallback : Reader UInt32 := fun input =>
  if input.fastPath then
    match walk readVarint32FromArray input with
    | .ok tag input => .ok tag input
    | .failed input => .ok 0 input
    | .faulted => .faulted
  else if input.bufferSize = 0 ∧
      (0 < input.afterLimit.length ∨ input.totalBytesRead = input.currentLimit) ∧
      input.totalBytesRead - input.afterLimit.length < input.totalBytesLimit then
    .ok 0 { input with legitimateMessageEnd := true }
  else
    readTagSlow input

/-- `ReadTag`; `0` is the end of the input or a tag that cannot be read. -/
def readTag : Reader UInt32 := fun input =>
  match input.buffer with
  | b :: ptr =>
      if b < 0x80 then
        .ok b.toUInt32 { input with buffer := ptr, lastTag := b.toUInt32 }
      else
        setLast input
  | [] => setLast input
where
  setLast : Reader UInt32 := do
    let tag ← readTagFallback
    Reader.modify fun input => { input with lastTag := tag }
    return tag

/-- `ExpectTag`: whether the tag comes next, and the stream behind it if so. -/
def expectTag (expected : UInt32) (input : CodedInputStream) : Option CodedInputStream :=
  if expected < 0x80 then
    match input.buffer with
    | b :: ptr => if b.toUInt32 = expected then some { input with buffer := ptr } else none
    | [] => none
  else if expected < 0x4000 then
    match input.buffer with
    | b :: c :: ptr =>
        if b = (expected ||| 0x80).toUInt8 ∧ c = (expected >>> 7).toUInt8 then
          some { input with buffer := ptr }
        else
          none
    | _ => none
  else
    none

/-- `ExpectAtEnd`: whether the stream is at a limit, and the stream after the answer yes. -/
def expectAtEnd (input : CodedInputStream) : Option CodedInputStream :=
  if input.buffer = [] ∧
      (input.afterLimit.length ≠ 0 ∨ input.totalBytesRead = input.currentLimit) then
    some { input with lastTag := 0, legitimateMessageEnd := true }
  else
    none

/-- `LastTagWas`. -/
def lastTagWas (expected : UInt32) (input : CodedInputStream) : Bool := input.lastTag = expected

/-- `ConsumedEntireMessage`. -/
def consumedEntireMessage (input : CodedInputStream) : Bool := input.legitimateMessageEnd

end CodedInputStream

end GPush.Protobuf
