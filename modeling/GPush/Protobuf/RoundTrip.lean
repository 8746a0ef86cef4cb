import GPush.Protobuf.Messages
import Mathlib.Data.List.Flatten

/-!
# What arrives of a message

A message that has been written is parsed again; messages written one behind the other are
merged; fields that a class does not know are skipped; and a message inside another one may
be cut off at its end, between two fields.
-/

namespace GPush.Protobuf

open CodedInputStream Wire WireFormatLite GPush.Protobuf.Field

namespace Field

variable {M : Type} {depth : Nat} {fields : List (Field M)}

theorem parseInto_encode {written : List Record} (valid : ∀ record ∈ written, record.Valid)
    (m : M) :
    parseInto depth fields (written.flatMap Record.encode) m = applyAll depth fields written m := by
  rw [parseInto, records_encode valid, Option.bind_some]

/-- Bytes behind complete fields are parsed into what the fields have made. -/
theorem parseInto_append {written : List Record} (valid : ∀ record ∈ written, record.Valid)
    (bs : Bytes) (m : M) :
    parseInto depth fields (written.flatMap Record.encode ++ bs) m =
      (applyAll depth fields written m).bind (parseInto depth fields bs) := by
  have split := records_append (records_encode valid depth)
    (fun record mem => (valid record mem).payload.complete) bs
  rw [parseInto, split, Option.bind_map]
  simp only [Function.comp_def, applyAll_append, parseInto]
  cases applyAll depth fields written m with
  | none => exact Option.bind_fun_none _
  | some m' => rfl

/-- A field of the class is on the wire. -/
def Known (fields : List (Field M)) (record : Record) : Prop :=
  ∃ field ∈ fields, field.number = record.number ∧ field.type = record.payload.type

instance (fields : List (Field M)) : DecidablePred (Known fields) := fun _ =>
  inferInstanceAs (Decidable (∃ field ∈ fields, _))

/-- Another field does nothing. -/
theorem apply_unknown {record : Record} (complete : record.payload.Complete)
    (unknown : ¬Known fields record) (m : M) :
    apply depth fields record m = some m := by
  rw [apply]
  cases found : fields.find? fun field => field.number = record.number with
  | none => exact if_pos complete
  | some field =>
      have number : field.number = record.number := by
        simpa using List.find?_some found
      have other : field.type ≠ record.payload.type := fun same =>
        unknown ⟨field, List.mem_of_find?_eq_some found, number, same⟩
      dsimp only
      rw [if_neg other, if_pos complete]

theorem applyAll_known {written : List Record} (valid : ∀ record ∈ written, record.Valid)
    (m : M) :
    applyAll depth fields written m = applyAll depth fields (written.filter (Known fields ·)) m := by
  induction written generalizing m with
  | nil => rfl
  | cons record later ih =>
      have validLater : ∀ other ∈ later, other.Valid := fun other mem => valid other (by simp [mem])
      by_cases known : Known fields record
      · rw [List.filter_cons_of_pos (by simpa using known), applyAll, applyAll]
        exact Option.bind_congr fun m' _ => ih validLater m'
      · rw [List.filter_cons_of_neg (by simpa using known), applyAll,
          apply_unknown (valid record (by simp)).payload.complete known, Option.bind_some,
          ih validLater]

end Field

namespace MessageType

variable {M : Type} {type : MessageType M}

/-! ## The plain reader -/

/-- The generated parser accepts what makes an initialized message, and it never leaves the
array. -/
theorem parseFromArray_eq {data : Bytes} (small : data.length < defaultTotalBytesLimit) :
    match type.parse data with
    | some m => ∃ input, type.parseFromArray data = .ok m input
    | none => ∃ input, type.parseFromArray data = .failed input := by
  have nests : Nests (ofArray data) defaultRecursionLimit := Nat.zero_add _
  have merged := Field.mergePartialFromCodedStream_mergesTo type.distinct type.new
    (sound_ofArray small) nests
  change MergesTo (type.mergePartialFromCodedStream type.new (ofArray data)) (ofArray data)
    (Field.parseInto defaultRecursionLimit type.readFields data type.new) at merged
  rw [parseFromArray, parseFromArray.parse, MessageType.parse]
  cases parsedEq : Field.parseInto defaultRecursionLimit type.readFields data type.new with
  | none =>
      rw [parsedEq] at merged
      rcases merged with ⟨input, failedEq⟩ | ⟨m, input, okEq, unended⟩
      · exact ⟨input, Reader.bind_failed failedEq _⟩
      · rw [Option.filter_none, Reader.bind_ok okEq]
        refine ⟨input, ?_⟩
        have refused : Reader.ensure consumedEntireMessage input = .failed input :=
          if_neg (by simp [consumedEntireMessage, unended])
        by_cases initialized : type.isInitialized m = true
        · exact (Reader.bind_ok (if_pos initialized) _).trans (Reader.bind_failed refused _)
        · exact Reader.bind_failed (if_neg initialized) _
  | some m =>
      rw [parsedEq] at merged
      rw [Reader.bind_ok merged]
      by_cases initialized : type.isInitialized m = true
      · rw [Option.filter_some, if_pos initialized]
        exact ⟨_, (Reader.bind_ok (if_pos initialized) _).trans (Reader.bind_ok (if_pos rfl) _)⟩
      · rw [Option.filter_some, if_neg initialized]
        exact ⟨_, Reader.bind_failed (if_neg initialized) _⟩

/-- A pair with its key, and a field that the class does not know. -/
theorem parseFromArray_eq_pair : ∃ input,
    Gim.Pair.messageType.parseFromArray [10, 1, 107, 24, 5] = .ok ⟨some [107], none⟩ input :=
  @parseFromArray_eq _ Gim.Pair.messageType [10, 1, 107, 24, 5] (by decide)

/-- The array is parsed into the message. -/
def Parses (type : MessageType M) (data : Bytes) (m : M) : Prop :=
  ∃ input, type.parseFromArray data = .ok m input

theorem parses_iff {data : Bytes} (small : data.length < defaultTotalBytesLimit) (m : M) :
    type.Parses data m ↔ type.parse data = some m := by
  have agrees := @parseFromArray_eq _ type _ small
  rw [Parses]
  cases parsedEq : type.parse data with
  | none =>
      rw [parsedEq] at agrees
      obtain ⟨input, failedEq⟩ := agrees
      simp [failedEq]
  | some m' =>
      rw [parsedEq] at agrees
      obtain ⟨input, okEq⟩ := agrees
      simp [okEq]

theorem parse_eq_some {data : Bytes} {m : M}
    (parsed : parseInto defaultRecursionLimit type.readFields data type.new = some m)
    (initialized : type.isInitialized m = true) : type.parse data = some m := by
  rw [MessageType.parse, parsed, Option.filter_some, if_pos initialized]

theorem le_intMax {n : Nat} (small : n < defaultTotalBytesLimit) : n ≤ intMax :=
  Nat.le_trans (Nat.le_of_lt small) (by decide)

theorem applyAll_toRecords {m : M} {depth : Nat} (fits : type.byteSize m ≤ intMax)
    (deep : type.levels ≤ depth) :
    applyAll depth type.readFields (type.toRecords m) type.new = some m := by
  rw [← Field.parseInto_encode (toRecords_valid fits)]
  exact (parseInto_encode fits deep type.new).trans (congrArg some (type.merge_new m))

/-- A message that is complete arrives as it has been sent. -/
theorem parses_serialized {m : M} (small : type.byteSize m < defaultTotalBytesLimit)
    (deep : type.levels ≤ defaultRecursionLimit) (initialized : type.isInitialized m = true) :
    ∃ data, type.appendToString [] m = some data ∧ data.length = type.byteSize m ∧
      type.Parses data m := by
  have fits := le_intMax small
  have length := length_encode fits
  refine ⟨type.encode m, appendToString_eq fits [], length, (parses_iff (by omega) m).mpr ?_⟩
  refine parse_eq_some ((parseInto_encode fits deep type.new).trans ?_) initialized
  exact congrArg some (type.merge_new m)

/-- A login with a negative type and one pair. -/
def someLogin : Gim.LoginRequest := ⟨some [99], some (-1), none, some [118], [⟨some [107], none⟩]⟩

theorem parses_serialized_login : ∃ data, Gim.LoginRequest.messageType.appendToString [] someLogin =
      some data ∧ data.length = Gim.LoginRequest.messageType.byteSize someLogin ∧
    Gim.LoginRequest.messageType.Parses data someLogin :=
  parses_serialized (by decide +kernel) (by decide) (by decide)

/-- A message behind another one is merged into it. -/
theorem parses_both {a b : M}
    (small : type.byteSize a + type.byteSize b < defaultTotalBytesLimit)
    (deep : type.levels ≤ defaultRecursionLimit)
    (initialized : type.isInitialized (type.mergeFrom b a) = true) :
    ∃ front data, type.appendToString [] a = some front ∧
      type.appendToString front b = some data ∧ type.Parses data (type.mergeFrom b a) := by
  have fitsA : type.byteSize a ≤ intMax := le_intMax (by omega)
  have fitsB : type.byteSize b ≤ intMax := le_intMax (by omega)
  have lengthA := length_encode fitsA
  have lengthB := length_encode fitsB
  refine ⟨type.encode a, type.encode a ++ type.encode b, appendToString_eq fitsA [],
    appendToString_eq fitsB _, (parses_iff (by rw [List.length_append]; omega) _).mpr ?_⟩
  refine parse_eq_some ?_ initialized
  rw [encode, parseInto_append (toRecords_valid fitsA), applyAll_toRecords fitsA deep,
    Option.bind_some, parseInto_encode fitsB deep]

/-- A login without an id, behind one with an id and another version. -/
theorem parses_both_login : ∃ front data,
    Gim.LoginRequest.messageType.appendToString [] someLogin = some front ∧
      Gim.LoginRequest.messageType.appendToString front
        ⟨none, none, none, some [119], [⟨some [108], none⟩]⟩ = some data ∧
      Gim.LoginRequest.messageType.Parses data
        ⟨some [99], some (-1), none, some [119], [⟨some [107], none⟩, ⟨some [108], none⟩]⟩ :=
  parses_both (by decide +kernel) (by decide) (by decide)

/-- Fields that the class does not know, or that have another wire type, are skipped wherever
they are. -/
theorem parses_known {written : List Record} (valid : ∀ record ∈ written, record.Valid)
    (small : (written.flatMap Record.encode).length < defaultTotalBytesLimit) (m : M) :
    type.Parses (written.flatMap Record.encode) m ↔
      type.Parses ((written.filter (Known type.readFields ·)).flatMap Record.encode) m := by
  have shorter : ((written.filter (Known type.readFields ·)).flatMap Record.encode).length ≤
      (written.flatMap Record.encode).length :=
    (List.filter_sublist.flatMap Record.encode).length_le
  have validKnown : ∀ record ∈ written.filter (Known type.readFields ·), record.Valid :=
    fun record mem => valid record (List.mem_of_mem_filter mem)
  rw [parses_iff small, parses_iff (Nat.lt_of_le_of_lt shorter small), MessageType.parse,
    MessageType.parse, Field.parseInto_encode valid, Field.parseInto_encode validKnown,
    applyAll_known valid]

/-- The key of a pair, between a number with its tag and bytes that are no field of it. -/
def amongOthers : List Record := [⟨1, .varint 5⟩, ⟨1, .delimited 1 [107]⟩, ⟨3, .delimited 0 []⟩]

theorem parses_known_pair :
    Gim.Pair.messageType.Parses (amongOthers.flatMap Record.encode) ⟨some [107], none⟩ ↔
      Gim.Pair.messageType.Parses (Record.encode ⟨1, .delimited 1 [107]⟩ ++ [])
        ⟨some [107], none⟩ := by
  have valid : ∀ record ∈ amongOthers, record.Valid := by
    intro record mem
    simp only [amongOthers, List.mem_cons, List.not_mem_nil, or_false] at mem
    rcases mem with rfl | rfl | rfl
    · exact ⟨by decide, by decide, show 5 < 2 ^ 64 by decide⟩
    · exact ⟨by decide, by decide, rfl, by decide⟩
    · exact ⟨by decide, by decide, rfl, by decide⟩
  exact @parses_known _ Gim.Pair.messageType amongOthers valid (by decide +kernel) _

end MessageType

/-! ## A message that is cut off -/

namespace Gim

open MessageType

/-- The last pair of a login with another length than it has. -/
def cutPair (length : Nat) (pair : Pair) : Bytes :=
  encodeTag 5 .lengthDelimited ++ (base128 length ++ Pair.messageType.encode pair)

/-- The field of the pairs takes a pair with whatever length it has. -/
theorem parseInto_cutPair {pair : Pair} {length : Nat}
    (fits : Pair.messageType.byteSize pair ≤ intMax)
    (longer : (Pair.messageType.encode pair).length ≤ length) (below : length < 2 ^ 32)
    (m : LoginRequest) :
    parseInto defaultRecursionLimit LoginRequest.messageType.readFields (cutPair length pair) m =
      some { m with kvs := m.kvs ++ [pair] } := by
  have tagFound : tagAt (cutPair length pair) =
      some (8 * 5 + 2, base128 length ++ Pair.messageType.encode pair) :=
    tagAt_encodeTag (by decide) (by decide) .lengthDelimited _
  have fits' : length < 128 ^ (9 + 1) := by omega
  have scalar : scalarAt .lengthDelimited (base128 length ++ Pair.messageType.encode pair) =
      some (.delimited length (Pair.messageType.encode pair), []) := by
    rw [scalarAt, mostBytes, readBase128_base128 fits', Option.map_some]
    dsimp only
    rw [Nat.mod_eq_of_lt below, List.take_of_length_le longer, List.drop_of_length_le longer]
  have inner : parseInto 99 Pair.messageType.readFields (Pair.messageType.encode pair)
      Pair.messageType.new = some pair :=
    (MessageType.parseInto_encode fits (by decide) _).trans
      (congrArg some (Pair.messageType.merge_new pair))
  have taken : Kind.takeMessage Pair.messageType defaultRecursionLimit
      (.delimited length (Pair.messageType.encode pair)) = some pair := inner
  have known : (LoginRequest.messageType.readFields.find? fun field => field.number =
      (8 * 5 + 2) / 8) = some (WrittenField.many 5 (.message Pair.messageType) LoginRequest.kvs
        fun pair m => { m with kvs := m.kvs ++ [pair] }).toField := rfl
  rw [parseInto_known tagFound known rfl]
  change (scalarAt .lengthDelimited _).bind _ = _
  rw [scalar, Option.bind_some]
  change ((Kind.takeMessage Pair.messageType defaultRecursionLimit
    (.delimited length (Pair.messageType.encode pair))).map
      fun pair => { m with kvs := m.kvs ++ [pair] }).bind
        (parseInto defaultRecursionLimit LoginRequest.messageType.readFields []) = _
  rw [taken]
  rfl

/-- A pair at the end of a login is accepted with any length that is not shorter: what has
been cut off behind it is not missed. -/
theorem LoginRequest.parses_cutPair {m : LoginRequest} {pair : Pair} {length : Nat}
    (small : (LoginRequest.messageType.encode m ++ cutPair length pair).length <
      defaultTotalBytesLimit)
    (longer : (Pair.messageType.encode pair).length ≤ length) (below : length < 2 ^ 32)
    (fits : LoginRequest.messageType.byteSize m ≤ intMax)
    (fitsPair : Pair.messageType.byteSize pair ≤ intMax)
    (initialized : LoginRequest.isInitialized m = true) (hasKey : Pair.isInitialized pair = true) :
    LoginRequest.messageType.Parses (LoginRequest.messageType.encode m ++ cutPair length pair)
      { m with kvs := m.kvs ++ [pair] } := by
  refine (parses_iff small _).mpr (parse_eq_some ?_ ?_)
  · rw [encode, parseInto_append (toRecords_valid fits), applyAll_toRecords fits (by decide),
      Option.bind_some, parseInto_cutPair fitsPair longer below]
  · change (m.id.isSome && (m.kvs ++ [pair]).all Pair.isInitialized) = true
    rw [LoginRequest.isInitialized, Bool.and_eq_true] at initialized
    simp [initialized, hasKey]

/-- A login that ends inside its only pair, behind the key; the value is lost. -/
theorem LoginRequest.parses_cutPair_key :
    LoginRequest.messageType.Parses
      (LoginRequest.messageType.encode ⟨some [99], none, none, none, []⟩ ++
        cutPair 8 ⟨some [107], none⟩)
      ⟨some [99], none, none, none, [⟨some [107], none⟩]⟩ :=
  parses_cutPair (by decide +kernel) (by decide +kernel) (by decide) (by decide +kernel)
    (by decide +kernel) rfl rfl

end Gim

end GPush.Protobuf
