import GPush.Protobuf.Fields
import Mathlib.Algebra.Order.BigOperators.Group.List

/-!
# Message classes

The functions of a generated class and of `MessageLite` for a list of fields: parsing an
array, the size, writing, and merging one message into another.  Parsing what has been written
merges the message.
-/

namespace GPush.Protobuf

open CodedInputStream Wire WireFormatLite Writer

/-- Payloads, taken one after the other. -/
def takeAll {M : Type} (take : Payload → M → Option M) : List Payload → M → Option M
  | [], m => some m
  | payload :: later, m => (take payload m).bind (takeAll take later)

/-- A field that is also written. -/
structure WrittenField (M : Type) extends Field M where
  write : M → Writer
  byteSize : M → Nat
  payloads : M → List Payload
  mergeFrom : M → M → M
  levels : Nat
  writes : ∀ {m : M}, byteSize m ≤ intMax →
    Writes (write m) (((payloads m).map (Record.mk number)).flatMap Record.encode)
  size_eq : ∀ {m : M}, byteSize m ≤ intMax →
    byteSize m = (((payloads m).map (Record.mk number)).flatMap Record.encode).length
  type_eq : ∀ {m : M}, ∀ payload ∈ payloads m, payload.type = type
  valid : ∀ {m : M}, byteSize m ≤ intMax → ∀ payload ∈ payloads m, payload.Valid
  takes : ∀ {depth : Nat} {source : M} (m : M), byteSize source ≤ intMax → levels ≤ depth →
    takeAll (take depth) (payloads source) m = some (mergeFrom source m)

namespace WrittenField

variable {M α : Type}

/-- The reads of a field with a value of a kind. -/
theorem reads_kind (kind : Kind α) (put : α → M → M) {depth : Nat} {input : CodedInputStream}
    (m : M) (sound : Sound input) (nests : Nests input depth) :
    Reads ((do return put (← kind.read) m : Reader M) input) input
      ((scalarAt kind.type input.buffer).bind fun (payload, rest) =>
        ((kind.take depth payload).map fun value => put value m).map fun m => (m, rest)) := by
  have reads := (kind.reads sound nests).map fun value => put value m
  rw [Option.map_bind] at reads
  refine (congrArg (Reads _ input) (Option.bind_congr fun ⟨payload, rest⟩ _ => ?_)).mp reads
  simp only [Function.comp_apply, Option.map_map]
  rfl

/-- The tag of a field takes one byte. -/
theorem length_encode {number : Nat} (small : number < 16) (payload : Payload) :
    (Record.encode ⟨number, payload⟩).length = 1 + payload.encode.length := by
  have code := payload.type.code_lt
  have tag : (encodeTag number payload.type).length = 1 := length_base128_of_lt (by omega)
  rw [Record.encode, List.length_append, tag]

section Value

variable {number : Nat} {kind : Kind α}

/-- What a field with at most one value writes. -/
def writeValue (number : Nat) (kind : Kind α) : Option α → Writer
  | some value => kind.write number value
  | none => Writer.done

/-- The size of a field with at most one value. -/
def sizeOfValue (kind : Kind α) : Option α → Nat
  | some value => 1 + kind.size value
  | none => 0

/-- `if (from.has_..()) set_..(from...)`. -/
def mergeValue (set : α → M → M) : Option α → M → M
  | some value, m => set value m
  | none, m => m

theorem size_le_of_sizeOfValue {held : Option α} (fits : sizeOfValue kind held ≤ intMax)
    {value : α} (mem : held = some value) : kind.size value ≤ intMax := by
  rw [mem, sizeOfValue] at fits
  omega

theorem writes_value (small : number < 16) {held : Option α}
    (fits : sizeOfValue kind held ≤ intMax) :
    Writes (writeValue number kind held)
      (((held.toList.map kind.payload).map (Record.mk number)).flatMap Record.encode) := by
  cases heldEq : held with
  | none => exact writes_done
  | some value => simpa [writeValue] using kind.writes small (size_le_of_sizeOfValue fits heldEq)

theorem length_value (small : number < 16) {held : Option α}
    (fits : sizeOfValue kind held ≤ intMax) :
    sizeOfValue kind held =
      (((held.toList.map kind.payload).map (Record.mk number)).flatMap Record.encode).length := by
  cases heldEq : held with
  | none => rfl
  | some value =>
      simpa [sizeOfValue, length_encode small] using
        kind.size_eq (size_le_of_sizeOfValue fits heldEq)

theorem valid_value {held : Option α} (fits : sizeOfValue kind held ≤ intMax) :
    ∀ payload ∈ held.toList.map kind.payload, payload.Valid := by
  intro payload mem
  obtain ⟨value, among, rfl⟩ := List.mem_map.mp mem
  exact kind.valid (size_le_of_sizeOfValue fits (Option.mem_toList.mp among))

theorem takes_value (set : α → M → M) {depth : Nat} (deep : kind.levels ≤ depth)
    {held : Option α} (m : M) (fits : sizeOfValue kind held ≤ intMax) :
    takeAll (fun payload m => (kind.take depth payload).map fun value => set value m)
      (held.toList.map kind.payload) m = some (mergeValue set held m) := by
  cases heldEq : held with
  | none => rfl
  | some value =>
      simp [takeAll, mergeValue, kind.takes (size_le_of_sizeOfValue fits heldEq) deep]

end Value

theorem type_of_mem {kind : Kind α} {values : List α} :
    ∀ payload ∈ values.map kind.payload, payload.type = kind.type := by
  intro payload mem
  obtain ⟨value, -, rfl⟩ := List.mem_map.mp mem
  exact kind.type_eq value

theorem number_lt_of_lt {number : Nat} (small : number < 16) : number < 2 ^ 29 :=
  Nat.lt_trans small (by decide)

/-- `optional` and `required`. -/
def single (number : Nat) (kind : Kind α) (get : M → Option α) (set : α → M → M)
    (bounds : 0 < number ∧ number < 16 := by decide) : WrittenField M where
  number := number
  type := kind.type
  repeated := false
  read m := do return set (← kind.read) m
  take depth payload m := (kind.take depth payload).map fun value => set value m
  number_pos := bounds.1
  number_lt := number_lt_of_lt bounds.2
  scalar := kind.scalar
  reads := reads_kind kind set
  write m := writeValue number kind (get m)
  byteSize m := sizeOfValue kind (get m)
  payloads m := (get m).toList.map kind.payload
  mergeFrom source m := mergeValue set (get source) m
  levels := kind.levels
  writes := writes_value bounds.2
  size_eq := length_value bounds.2
  type_eq := type_of_mem
  valid := valid_value
  takes m fits deep := takes_value set deep m fits

section Values

variable {number : Nat} {kind : Kind α}

/-- Every value of a list fits when all of them do. -/
theorem size_le_of_mem {values : List α} (fits : (values.map kind.size).sum ≤ intMax) {value : α}
    (mem : value ∈ values) : kind.size value ≤ intMax :=
  Nat.le_trans (List.le_sum_of_mem (List.mem_map_of_mem mem)) fits

theorem writes_values (small : number < 16) {values : List α}
    (fits : (values.map kind.size).sum ≤ intMax) :
    Writes (values.foldr (fun value => (kind.write number value).andThen) Writer.done)
      (((values.map kind.payload).map (Record.mk number)).flatMap Record.encode) := by
  induction values with
  | nil => exact writes_done
  | cons value later ih =>
      rw [List.map_cons, List.sum_cons] at fits
      rw [List.foldr_cons, List.map_cons, List.map_cons, List.flatMap_cons]
      exact (kind.writes small (by omega)).andThen (ih (by omega))

theorem length_values (small : number < 16) {values : List α}
    (fits : (values.map kind.size).sum ≤ intMax) :
    (((values.map kind.payload).map (Record.mk number)).flatMap Record.encode).length =
      1 * values.length + (values.map kind.size).sum := by
  induction values with
  | nil => rfl
  | cons value later ih =>
      rw [List.map_cons, List.sum_cons] at fits
      have here := kind.size_eq (by omega : kind.size value ≤ intMax)
      rw [List.map_cons, List.map_cons, List.flatMap_cons, List.length_append,
        length_encode small, ih (by omega), List.length_cons, List.map_cons, List.sum_cons]
      omega

theorem valid_values {values : List α} (fits : (values.map kind.size).sum ≤ intMax) :
    ∀ payload ∈ values.map kind.payload, payload.Valid := by
  intro payload mem
  obtain ⟨value, held, rfl⟩ := List.mem_map.mp mem
  exact kind.valid (size_le_of_mem fits held)

theorem takes_values (add : α → M → M) {depth : Nat} (deep : kind.levels ≤ depth)
    {values : List α} (m : M) (fits : (values.map kind.size).sum ≤ intMax) :
    takeAll (fun payload m => (kind.take depth payload).map fun value => add value m)
      (values.map kind.payload) m = some (values.foldl (fun m value => add value m) m) := by
  induction values generalizing m with
  | nil => rfl
  | cons value later ih =>
      rw [List.map_cons, List.sum_cons] at fits
      rw [List.map_cons, takeAll, kind.takes (by omega) deep, Option.map_some, Option.bind_some,
        ih _ (by omega), List.foldl_cons]

end Values

/-- `repeated`. -/
def many (number : Nat) (kind : Kind α) (get : M → List α) (add : α → M → M)
    (bounds : 0 < number ∧ number < 16 := by decide) : WrittenField M where
  number := number
  type := kind.type
  repeated := true
  read m := do return add (← kind.read) m
  take depth payload m := (kind.take depth payload).map fun value => add value m
  number_pos := bounds.1
  number_lt := number_lt_of_lt bounds.2
  scalar := kind.scalar
  reads := reads_kind kind add
  write m := (get m).foldr (fun value => (kind.write number value).andThen) Writer.done
  byteSize m := 1 * (get m).length + ((get m).map kind.size).sum
  payloads m := (get m).map kind.payload
  mergeFrom source m := (get source).foldl (fun m value => add value m) m
  levels := kind.levels
  writes fits := writes_values bounds.2 (Nat.le_of_add_left_le fits)
  size_eq fits := (length_values bounds.2 (Nat.le_of_add_left_le fits)).symm
  type_eq := type_of_mem
  valid fits := valid_values (Nat.le_of_add_left_le fits)
  takes m fits deep := takes_values add deep m (Nat.le_of_add_left_le fits)

end WrittenField

/-- A generated class: its fields in the order of their numbers, a message after `Clear`, and
`IsInitialized`. -/
structure MessageType (M : Type) where
  fields : List (WrittenField M)
  new : M
  isInitialized : M → Bool
  distinct : Field.Distinct (fields.map (·.toField))
  merge_new : ∀ m, fields.foldl (fun into field => field.mergeFrom m into) new = m

namespace MessageType

variable {M : Type} (type : MessageType M)

/-- The fields as far as they are read. -/
def readFields : List (Field M) := type.fields.map (·.toField)

/-- `MergePartialFromCodedStream`. -/
def mergePartialFromCodedStream (m : M) : Reader M :=
  Field.mergePartialFromCodedStream type.readFields m

/-- `ParseFromArray` and `ParseFromString`: `Clear`, `MergePartialFromCodedStream`,
`IsInitialized` and `ConsumedEntireMessage`. -/
def parseFromArray (data : Bytes) : Outcome M := parse (ofArray data)
where
  parse : Reader M := do
    let m ← type.mergePartialFromCodedStream type.new
    Reader.ensure fun _ => type.isInitialized m
    Reader.ensure consumedEntireMessage
    return m

/-- `MergeFrom`. -/
def mergeFrom (source into : M) : M :=
  type.fields.foldl (fun into field => field.mergeFrom source into) into

/-- `ByteSize`, which is also the cached size. -/
def byteSize (m : M) : Nat := (type.fields.map (·.byteSize m)).sum

/-- `SerializeWithCachedSizes`. -/
def serializeWithCachedSizes (m : M) : Writer :=
  type.fields.foldr (fun field => (field.write m).andThen) Writer.done

/-- `AppendToString`, and `SerializeToString` for an empty string: the string behind the one
given grows by `ByteSize`, and all of it must be written. -/
def appendToString (output : Bytes) (m : M) : Option Bytes :=
  (type.serializeWithCachedSizes m (.ofArray (type.byteSize m))).bind fun codedOut =>
    if codedOut.hadError ∨ codedOut.bufferSize ≠ 0 then none else some (output ++ codedOut.written)

/-! ## What a message is on the wire -/

/-- The fields of a message. -/
def toRecords (m : M) : List Record :=
  type.fields.flatMap fun field => (field.payloads m).map (Record.mk field.number)

/-- A message on the wire. -/
def encode (m : M) : Bytes := (type.toRecords m).flatMap Record.encode

/-- The levels of messages inside. -/
def levels : Nat := type.fields.foldr (fun field => max field.levels) 0

/-- The message that the fields on the wire make. -/
def parse (data : Bytes) : Option M :=
  (Field.parseInto defaultRecursionLimit type.readFields data type.new).filter type.isInitialized

/-! ## Writing -/

variable {type}

theorem field_fits {m : M} (fits : type.byteSize m ≤ intMax) {field : WrittenField M}
    (mem : field ∈ type.fields) : field.byteSize m ≤ intMax := by
  have measured : field.byteSize m ∈ type.fields.map (·.byteSize m) := List.mem_map.mpr
    ⟨field, mem, rfl⟩
  exact Nat.le_trans (List.le_sum_of_mem measured) fits

theorem writes_fields {m : M} {fields : List (WrittenField M)}
    (fits : ∀ field ∈ fields, field.byteSize m ≤ intMax) :
    Writes (fields.foldr (fun field => (field.write m).andThen) Writer.done)
      ((fields.flatMap fun field => (field.payloads m).map (Record.mk field.number)).flatMap
        Record.encode) := by
  induction fields with
  | nil => exact writes_done
  | cons field later ih =>
      rw [List.foldr_cons, List.flatMap_cons, List.flatMap_append]
      exact (field.writes (fits field (by simp))).andThen
        (ih fun other mem => fits other (by simp [mem]))

theorem length_fields {m : M} {fields : List (WrittenField M)}
    (fits : ∀ field ∈ fields, field.byteSize m ≤ intMax) :
    ((fields.flatMap fun field => (field.payloads m).map (Record.mk field.number)).flatMap
      Record.encode).length = (fields.map (·.byteSize m)).sum := by
  induction fields with
  | nil => rfl
  | cons field later ih =>
      rw [List.flatMap_cons, List.flatMap_append, List.length_append,
        ← field.size_eq (fits field (by simp)), ih fun other mem => fits other (by simp [mem]),
        List.map_cons, List.sum_cons]

/-- `ByteSize` is the number of bytes that a message takes. -/
theorem length_encode {m : M} (fits : type.byteSize m ≤ intMax) :
    (type.encode m).length = type.byteSize m :=
  length_fields fun _ mem => field_fits fits mem

theorem serializeWithCachedSizes_writes {m : M} (fits : type.byteSize m ≤ intMax) :
    Writes (type.serializeWithCachedSizes m) (type.encode m) :=
  writes_fields fun _ mem => field_fits fits mem

/-- The fields fill the block that `ByteSize` has asked for, and no more. -/
theorem appendToString_eq {m : M} (fits : type.byteSize m ≤ intMax) (output : Bytes) :
    type.appendToString output m = some (output ++ type.encode m) := by
  have length := length_encode fits
  have written := serializeWithCachedSizes_writes fits (.ofArray (type.byteSize m))
    (Nat.le_of_eq length)
  rw [appendToString, written, Option.bind_some]
  simp [CodedOutputStream.ofArray, CodedOutputStream.advance, length]

/-! ## Merging -/

theorem toRecords_valid {m : M} (fits : type.byteSize m ≤ intMax) :
    ∀ record ∈ type.toRecords m, record.Valid := by
  intro record mem
  obtain ⟨field, fieldMem, mem⟩ := List.mem_flatMap.mp mem
  obtain ⟨payload, payloadMem, rfl⟩ := List.mem_map.mp mem
  exact ⟨field.number_pos, field.number_lt,
    field.valid (field_fits fits fieldMem) payload payloadMem⟩

/-- The payloads of a field of the message are taken by it. -/
theorem applyAll_payloads {fields : List (Field M)} (distinct : Field.Distinct fields)
    {field : Field M} (mem : field ∈ fields) (depth : Nat) {payloads : List Payload}
    (types : ∀ payload ∈ payloads, payload.type = field.type) (m : M) :
    Field.applyAll depth fields (payloads.map (Record.mk field.number)) m =
      takeAll (field.take depth) payloads m := by
  induction payloads generalizing m with
  | nil => rfl
  | cons payload later ih =>
      have here : Field.apply depth fields ⟨field.number, payload⟩ m =
          field.take depth payload m := by
        rw [Field.apply, distinct.find mem]
        exact if_pos (types payload (by simp)).symm
      rw [List.map_cons, Field.applyAll, here, takeAll]
      exact Option.bind_congr fun m' _ => ih (fun other mem => types other (by simp [mem])) m'

/-- What has been written of a message is merged into another one. -/
theorem parseInto_encode {source : M} {depth : Nat} (fits : type.byteSize source ≤ intMax)
    (deep : type.levels ≤ depth) (into : M) :
    Field.parseInto depth type.readFields (type.encode source) into =
      some (type.mergeFrom source into) := by
  have merged : ∀ fields : List (WrittenField M), (∀ field ∈ fields, field ∈ type.fields) →
      fields.foldr (fun field => max field.levels) 0 ≤ depth → ∀ into,
      Field.applyAll depth type.readFields
        (fields.flatMap fun field => (field.payloads source).map (Record.mk field.number)) into =
      some (fields.foldl (fun into field => field.mergeFrom source into) into) := by
    intro fields
    induction fields with
    | nil => exact fun _ _ _ => rfl
    | cons field later ih =>
        intro among deep into
        rw [List.foldr_cons] at deep
        have fieldMem : field.toField ∈ type.readFields :=
          List.mem_map_of_mem (among field (by simp))
        have distinct : Field.Distinct type.readFields := type.distinct
        rw [List.flatMap_cons, Field.applyAll_append,
          applyAll_payloads distinct fieldMem depth field.type_eq,
          field.takes into (field_fits fits (among field (by simp))) (by omega), Option.bind_some,
          ih (fun other mem => among other (by simp [mem])) (by omega), List.foldl_cons]
  rw [Field.parseInto, encode, records_encode (toRecords_valid fits), Option.bind_some]
  exact merged type.fields (fun _ mem => mem) deep into

end MessageType

/-! ## Messages inside a message -/

/-- A message that has been read for a length; the length may be longer than what there is. -/
def Kind.takeMessage {α : Type} (type : MessageType α) : Nat → Payload → Option α
  | depth + 1, .delimited _ content =>
      Field.parseInto depth type.readFields content type.new
  | _, _ => none

section Message

variable {α : Type} {type : MessageType α}

theorem Kind.readMessage_reads {depth : Nat} {input : CodedInputStream} (sound : Sound input)
    (nests : Nests input depth) :
    Reads (readMessageNoVirtual (type.mergePartialFromCodedStream type.new) input) input
      ((scalarAt .lengthDelimited input.buffer).bind fun (payload, rest) =>
        (takeMessage type depth payload).map fun value => (value, rest)) := by
  rw [scalarAt, Option.bind_map]
  cases depth with
  | zero =>
      refine (congrArg (Reads _ input) ?_).mp
        (readMessageNoVirtual_deep (type.mergePartialFromCodedStream type.new) sound nests)
      exact (Option.bind_fun_none _).symm
  | succ depth =>
      exact readMessageNoVirtual_reads
        (fun content => Field.parseInto depth type.readFields content type.new) sound nests
        fun sound nests =>
          Field.mergePartialFromCodedStream_mergesTo type.distinct type.new sound nests

theorem Kind.writeMessage_writes {number : Nat} {value : α} (small : number < 16)
    (fits : lengthDelimitedSize (type.byteSize value) ≤ intMax) :
    Writes (writeMessage number (type.byteSize value) (type.serializeWithCachedSizes value))
      (Record.encode ⟨number, .delimited (type.encode value).length (type.encode value)⟩) := by
  have below := le_of_lengthDelimitedSize fits
  have length := MessageType.length_encode below
  rw [Record.encode, Payload.encode, length]
  exact (writeTag_writes (by omega) _).andThen ((writeVarint32_writes below).andThen
    (MessageType.serializeWithCachedSizes_writes below))

theorem Kind.message_size {value : α}
    (fits : lengthDelimitedSize (type.byteSize value) ≤ intMax) :
    lengthDelimitedSize (type.byteSize value) =
        (Payload.delimited (type.encode value).length (type.encode value)).encode.length ∧
      (Payload.delimited (type.encode value).length (type.encode value)).Valid := by
  have length := MessageType.length_encode (le_of_lengthDelimitedSize fits)
  rw [← length] at fits ⊢
  exact delimited_size fits

theorem Kind.takeMessage_encode {depth : Nat} {value : α}
    (fits : lengthDelimitedSize (type.byteSize value) ≤ intMax) (deep : type.levels + 1 ≤ depth) :
    takeMessage type depth (.delimited (type.encode value).length (type.encode value)) =
      some value := by
  obtain ⟨depth, rfl⟩ := Nat.exists_eq_succ_of_ne_zero (Nat.ne_zero_of_lt deep)
  rw [takeMessage, MessageType.parseInto_encode (le_of_lengthDelimitedSize fits) (by omega)]
  exact congrArg some (type.merge_new value)

end Message

/-- A message as the value of a field. -/
def Kind.message {α : Type} (type : MessageType α) : Kind α where
  type := .lengthDelimited
  read := readMessageNoVirtual (type.mergePartialFromCodedStream type.new)
  take := takeMessage type
  write number value :=
    writeMessage number (type.byteSize value) (type.serializeWithCachedSizes value)
  size value := lengthDelimitedSize (type.byteSize value)
  payload value := .delimited (type.encode value).length (type.encode value)
  levels := type.levels + 1
  scalar := scalar_lengthDelimited
  reads := readMessage_reads
  writes := writeMessage_writes
  size_eq fits := (message_size fits).1
  type_eq _ := rfl
  valid fits := (message_size fits).2
  takes := takeMessage_encode

end GPush.Protobuf
