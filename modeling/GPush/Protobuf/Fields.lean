import GPush.Protobuf.CodedOutputStream
import GPush.Protobuf.Message

/-!
# Fields that are read and written

The functions of `WireFormatLite` that write a field, and the kinds of values that the
messages have: how a value is read, written and measured, and which payload it is on the
wire.  A field holds at most one value of a kind, or any number of them.
-/

namespace GPush.Protobuf

open CodedInputStream Wire WireFormatLite

open Writer

namespace WireFormatLite

/-- `WriteTag`. -/
def writeTag (fieldNumber : Nat) (type : WireType) : Writer :=
  CodedOutputStream.writeTag (makeTag fieldNumber type)

/-- The length and the bytes that `WriteString` and `WriteBytes` write behind the tag. -/
def writeLengthAndBytes (value : Bytes) : Writer := fun output =>
  if value.length ≤ intMax then
    (CodedOutputStream.writeVarint32 (.ofNat value.length) output).map
      (CodedOutputStream.writeString value)
  else
    none

/-- `WriteString` and `WriteBytes`. -/
def writeString (fieldNumber : Nat) (value : Bytes) : Writer :=
  (writeTag fieldNumber .lengthDelimited).andThen (writeLengthAndBytes value)

/-- `WriteInt32`. -/
def writeInt32 (fieldNumber : Nat) (value : Int32) : Writer :=
  (writeTag fieldNumber .varint).andThen (CodedOutputStream.writeVarint32SignExtended value)

/-- `WriteInt64`. -/
def writeInt64 (fieldNumber : Nat) (value : Int64) : Writer :=
  (writeTag fieldNumber .varint).andThen (CodedOutputStream.writeVarint64 value.toUInt64)

/-- `WriteMessage`, with the cached size of the message and its
`SerializeWithCachedSizes`. -/
def writeMessage (fieldNumber cachedSize : Nat) (serializeWithCachedSizes : Writer) : Writer :=
  (writeTag fieldNumber .lengthDelimited).andThen
    ((CodedOutputStream.writeVarint32 (.ofNat cachedSize)).andThen serializeWithCachedSizes)

/-- `StringSize`, `BytesSize` and `LengthDelimitedSize`. -/
def lengthDelimitedSize (length : Nat) : Nat :=
  CodedOutputStream.varintSize32 (.ofNat length) + length

/-! ## What is written -/

theorem toNat_ofNat_of_le {length : Nat} (small : length ≤ intMax) :
    (UInt32.ofNat length).toNat = length := by
  rw [intMax] at small
  rw [UInt32.toNat_ofNat']
  omega

theorem writeTag_writes {fieldNumber : Nat} (small : fieldNumber < 2 ^ 29) (type : WireType) :
    Writes (writeTag fieldNumber type) (encodeTag fieldNumber type) := by
  intro output fits
  rw [encodeTag, ← toNat_makeTag small] at fits ⊢
  exact CodedOutputStream.writeVarint32_eq fits

theorem writeVarint32_writes {length : Nat} (small : length ≤ intMax) :
    Writes (CodedOutputStream.writeVarint32 (.ofNat length)) (base128 length) := by
  intro output fits
  have written := @CodedOutputStream.writeVarint32_eq (.ofNat length) output
  rw [toNat_ofNat_of_le small] at written
  exact written fits

theorem writeLengthAndBytes_writes {value : Bytes} (small : value.length ≤ intMax) :
    Writes (writeLengthAndBytes value) (base128 value.length ++ value) := by
  intro output fits
  rw [List.length_append] at fits
  have room : value.length ≤ (output.advance (base128 value.length)).bufferSize := by
    rw [CodedOutputStream.bufferSize_advance]
    omega
  rw [writeLengthAndBytes, if_pos small, writeVarint32_writes small output (by omega),
    Option.map_some, CodedOutputStream.writeString, CodedOutputStream.writeRaw_fits room,
    CodedOutputStream.advance_advance]

theorem lengthDelimitedSize_eq {length : Nat} (small : length ≤ intMax) :
    lengthDelimitedSize length = (base128 length).length + length := by
  rw [lengthDelimitedSize, CodedOutputStream.varintSize32_eq, toNat_ofNat_of_le small]

end WireFormatLite

/-! ## Kinds of values -/

/-- A kind of values: how a value is read, written and measured, and which payload it is on
the wire, with so many levels of messages inside. -/
structure Kind (α : Type) where
  type : WireType
  read : Reader α
  take : Nat → Payload → Option α
  write : Nat → α → Writer
  size : α → Nat
  payload : α → Payload
  levels : Nat
  scalar : type ≠ .startGroup ∧ type ≠ .endGroup
  reads : ∀ {depth : Nat} {input : CodedInputStream}, Sound input → Nests input depth →
    Reads (read input) input ((scalarAt type input.buffer).bind fun (payload, rest) =>
      (take depth payload).map fun value => (value, rest))
  writes : ∀ {number : Nat} {value : α}, number < 16 → size value ≤ intMax →
    Writes (write number value) (Record.encode ⟨number, payload value⟩)
  size_eq : ∀ {value : α}, size value ≤ intMax → size value = (payload value).encode.length
  type_eq : ∀ value : α, (payload value).type = type
  valid : ∀ {value : α}, size value ≤ intMax → (payload value).Valid
  takes : ∀ {depth : Nat} {value : α}, size value ≤ intMax → levels ≤ depth →
    take depth (payload value) = some value

namespace Kind

theorem scalar_lengthDelimited :
    WireType.lengthDelimited ≠ .startGroup ∧ WireType.lengthDelimited ≠ .endGroup := by
  decide

theorem scalar_varint : WireType.varint ≠ .startGroup ∧ WireType.varint ≠ .endGroup := by
  decide

/-- Bytes that are all there. -/
def takeString : Payload → Option Bytes
  | .delimited length content => if content.length = length then some content else none
  | _ => none

theorem le_of_lengthDelimitedSize {length : Nat} (fits : lengthDelimitedSize length ≤ intMax) :
    length ≤ intMax := Nat.le_trans (Nat.le_add_left _ _) fits

theorem readString_takeString {input : CodedInputStream} (sound : Sound input) :
    Reads (readString input) input
      ((scalarAt .lengthDelimited input.buffer).bind fun (payload, rest) =>
        (takeString payload).map fun value => (value, rest)) := by
  have reads := readString_reads sound
  rw [scalarAt, Option.bind_map]
  refine (congrArg (Reads _ input) (Option.bind_congr fun found _ => ?_)).mp reads
  obtain ⟨n, rest⟩ := found
  simp only [Function.comp_apply, takeString, takeBytes, List.length_take]
  by_cases there : n % 2 ^ 32 ≤ rest.length
  · rw [if_pos there, if_pos (by omega)]
    rfl
  · rw [if_neg there, if_neg (by omega)]
    rfl

theorem writeString_writes {number : Nat} {value : Bytes} (small : number < 16)
    (fits : lengthDelimitedSize value.length ≤ intMax) :
    Writes (writeString number value) (Record.encode ⟨number, .delimited value.length value⟩) :=
  (writeTag_writes (by omega) _).andThen
    (writeLengthAndBytes_writes (le_of_lengthDelimitedSize fits))

/-- Bytes with a length that fits in an `int`. -/
theorem delimited_size {content : Bytes}
    (fits : lengthDelimitedSize content.length ≤ intMax) :
    lengthDelimitedSize content.length = (Payload.delimited content.length content).encode.length ∧
      (Payload.delimited content.length content).Valid := by
  have below := le_of_lengthDelimitedSize fits
  constructor
  · rw [lengthDelimitedSize_eq below, Payload.encode, List.length_append]
  · rw [intMax] at below
    exact ⟨rfl, by omega⟩

theorem takeString_delimited (value : Bytes) :
    takeString (.delimited value.length value) = some value := if_pos rfl

/-- `string` and `bytes`. -/
def string : Kind Bytes where
  type := .lengthDelimited
  read := WireFormatLite.readString
  take _ payload := takeString payload
  write := writeString
  size value := lengthDelimitedSize value.length
  payload value := .delimited value.length value
  levels := 0
  scalar := scalar_lengthDelimited
  reads sound _ := readString_takeString sound
  writes := writeString_writes
  size_eq fits := (delimited_size fits).1
  type_eq _ := rfl
  valid fits := (delimited_size fits).2
  takes _ _ := takeString_delimited _

/-- A number, as its type takes the bits. -/
def takeVarint {α : Type} (ofNat : Nat → α) : Payload → Option α
  | .varint n => some (ofNat n)
  | _ => none

theorem reads_takeVarint {α : Type} {read : Reader α} {ofNat : Nat → α} {input : CodedInputStream}
    (reads : Reads (read input) input
      ((readBase128 mostBytes input.buffer).map fun (n, rest) => (ofNat n, rest))) :
    Reads (read input) input ((scalarAt .varint input.buffer).bind fun (payload, rest) =>
      (takeVarint ofNat payload).map fun value => (value, rest)) := by
  rw [scalarAt]
  cases foundEq : readBase128 mostBytes input.buffer with
  | none => rwa [foundEq] at reads
  | some found => rwa [foundEq] at reads

/-- `int32`. -/
def int32 : Kind Int32 where
  type := .varint
  read := readInt32
  take _ payload := takeVarint (fun n => (UInt32.ofNat n).toInt32) payload
  write := writeInt32
  size := CodedOutputStream.varintSize32SignExtended
  payload value := .varint (CodedOutputStream.signExtend value).toNat
  levels := 0
  scalar := scalar_varint
  reads sound _ := reads_takeVarint (readInt32_reads sound)
  writes small _ := (writeTag_writes (by omega) _).andThen
    fun _ fits => CodedOutputStream.writeVarint32SignExtended_eq fits
  size_eq _ := CodedOutputStream.varintSize32SignExtended_eq _
  type_eq _ := rfl
  valid _ := UInt64.toNat_lt _
  takes _ _ := congrArg some (CodedOutputStream.toInt32_signExtend _)

/-- `int64`. -/
def int64 : Kind Int64 where
  type := .varint
  read := readInt64
  take _ payload := takeVarint (fun n => (UInt64.ofNat n).toInt64) payload
  write := writeInt64
  size value := CodedOutputStream.varintSize64 value.toUInt64
  payload value := .varint value.toUInt64.toNat
  levels := 0
  scalar := scalar_varint
  reads sound _ := reads_takeVarint (readInt64_reads sound)
  writes small _ := (writeTag_writes (by omega) _).andThen
    fun _ fits => CodedOutputStream.writeVarint64_eq fits
  size_eq _ := CodedOutputStream.varintSize64_eq _
  type_eq _ := rfl
  valid _ := UInt64.toNat_lt _
  takes _ _ := congrArg some (congrArg UInt64.toInt64 UInt64.ofNat_toNat)

end Kind

end GPush.Protobuf
