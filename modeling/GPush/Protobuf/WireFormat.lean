import GPush.Protobuf.Stream

/-!
# Reading fields

`WireFormatLite` as far as the messages use it: the parts of a tag, the fields that are
skipped, and the lengths of strings and of messages inside a message.
-/

namespace GPush.Protobuf

open CodedInputStream Wire

namespace WireFormatLite

/-- `GetTagWireType`; `none` for what is no wire type. -/
def getTagWireType (tag : UInt32) : Option WireType := WireType.ofCode (tag &&& 7).toNat

/-- `GetTagFieldNumber`. -/
def getTagFieldNumber (tag : UInt32) : Nat := (tag >>> 3).toNat

/-- `MakeTag`. -/
def makeTag (fieldNumber : Nat) (type : WireType) : UInt32 :=
  UInt32.ofNat fieldNumber <<< 3 ||| UInt32.ofNat type.code

mutual

/-- `SkipField`, within a number of calls. -/
def skipField : Nat → UInt32 → Reader Unit
  | 0, _ => Reader.fault
  | calls + 1, tag =>
      match getTagWireType tag with
      | some .varint => do
          let _ ← readVarint64
      | some .fixed64 => do
          let _ ← readLittleEndian64
      | some .lengthDelimited => do
          let length ← readVarint32
          skip (asInt length)
      | some .startGroup => do
          incrementRecursionDepth
          skipMessage calls
          decrementRecursionDepth
          Reader.ensure (lastTagWas (makeTag (getTagFieldNumber tag) .endGroup))
      | some .endGroup => Reader.fail
      | some .fixed32 => do
          let _ ← readLittleEndian32
      | none => Reader.fail

/-- `SkipMessage`, within a number of calls. -/
def skipMessage : Nat → Reader Unit
  | 0 => Reader.fault
  | calls + 1 => do
      let tag ← readTag
      if tag = 0 then
        return ()
      else if getTagWireType tag = some .endGroup then
        return ()
      else do
        skipField calls tag
        skipMessage calls

end

/-- `ReadString` and `ReadBytes`. -/
def readString : Reader Bytes := do
  let length ← readVarint32
  internalReadStringInline (asInt length)

/-- `ReadPrimitive` for `TYPE_INT32`. -/
def readInt32 : Reader Int32 := do
  let temp ← readVarint32
  return temp.toInt32

/-- `ReadPrimitive` for `TYPE_INT64`. -/
def readInt64 : Reader Int64 := do
  let temp ← readVarint64
  return temp.toInt64

/-- `ReadMessageNoVirtual` with the `MergePartialFromCodedStream` of the message. -/
def readMessageNoVirtual {α : Type} (mergePartialFromCodedStream : Reader α) : Reader α := do
  let length ← readVarint32
  incrementRecursionDepth
  let limit ← pushLimit (asInt length)
  let value ← mergePartialFromCodedStream
  Reader.ensure consumedEntireMessage
  popLimit limit
  decrementRecursionDepth
  return value

/-! ## Tags -/

theorem getTagWireType_eq (tag : UInt32) :
    getTagWireType tag = WireType.ofCode (tag.toNat % 8) := by
  rw [getTagWireType, UInt32.toNat_and]
  exact congrArg WireType.ofCode (Nat.and_two_pow_sub_one_eq_mod tag.toNat 3)

theorem getTagFieldNumber_eq (tag : UInt32) : getTagFieldNumber tag = tag.toNat / 8 := by
  rw [getTagFieldNumber, UInt32.toNat_shiftRight]
  exact Nat.shiftRight_eq_div_pow tag.toNat 3

theorem toNat_makeTag {fieldNumber : Nat} (small : fieldNumber < 2 ^ 29) (type : WireType) :
    (makeTag fieldNumber type).toNat = 8 * fieldNumber + type.code := by
  have code := type.code_lt
  have number : (UInt32.ofNat fieldNumber).toNat = fieldNumber := by
    rw [UInt32.toNat_ofNat']
    omega
  have typeCode : (UInt32.ofNat type.code).toNat = type.code := by
    rw [UInt32.toNat_ofNat']
    omega
  have shifted : fieldNumber <<< 3 % 2 ^ 32 = fieldNumber <<< 3 := by
    rw [Nat.shiftLeft_eq]
    omega
  rw [makeTag, UInt32.toNat_or, UInt32.toNat_shiftLeft, number, typeCode]
  change fieldNumber <<< 3 % 2 ^ 32 ||| type.code = 8 * fieldNumber + type.code
  rw [shifted, ← Nat.shiftLeft_add_eq_or_of_lt (by omega : type.code < 2 ^ 3), Nat.shiftLeft_eq]
  omega

/-! ## Skipping -/

/-- `SkipMessage` in a group: it has read the tag that ends it, or what it has read does not. -/
def SkipsGroup (outcome : Outcome Unit) (input : CodedInputStream) (number : Nat) :
    Option Bytes → Prop
  | some rest =>
      outcome = .ok () { input with buffer := rest, lastTag := makeTag number .endGroup }
  | none => (∃ input', outcome = .failed input') ∨
      ∃ input', outcome = .ok () input' ∧ input'.lastTag ≠ makeTag number .endGroup

/-- The field that a call of `SkipField` is for, as a read. -/
def skipFound (depth tag : Nat) (bs : Bytes) : Option (Unit × Bytes) :=
  (skipAt depth tag bs).map fun rest => ((), rest)

theorem skipFound_scalar {depth tag : Nat} {type : WireType}
    (typeEq : WireType.ofCode (tag % 8) = some type) (notStart : type ≠ .startGroup)
    (notEnd : type ≠ .endGroup) (bs : Bytes) :
    skipFound depth tag bs = (scalarAt type bs).bind fun (payload, rest) =>
      if payload.Complete then some ((), rest) else none := by
  rw [skipFound, skipAt, payloadAt_scalar typeEq notStart notEnd, Option.map_bind]
  refine Option.bind_congr fun ⟨payload, rest⟩ _ => ?_
  simp only [Function.comp_apply]
  split <;> rfl

/-- The fields that are no groups. -/
theorem skipField_scalar {calls depth : Nat} {tag : UInt32} {type : WireType}
    {input : CodedInputStream} (sound : Sound input)
    (typeEq : getTagWireType tag = some type) (notStart : type ≠ .startGroup)
    (notEnd : type ≠ .endGroup) :
    Reads (skipField (calls + 1) tag input) input (skipFound depth tag.toNat input.buffer) := by
  rw [skipFound_scalar (by rw [← getTagWireType_eq, typeEq]) notStart notEnd, skipField, typeEq]
  cases type with
  | varint =>
      have dropped := (readVarint64_readsNumber sound.limited).reads.map fun _ => ()
      change Reads _ input (((readBase128 mostBytes input.buffer).map _).map _) at dropped
      rw [scalarAt]
      cases foundEq : readBase128 mostBytes input.buffer with
      | none => rwa [foundEq] at dropped
      | some found => rwa [foundEq] at dropped
  | fixed64 =>
      have dropped := (readRaw_reads sound 8).map fun _ => ()
      rw [scalarAt]
      cases foundEq : takeBytes 8 input.buffer with
      | none => rwa [foundEq] at dropped
      | some found => rwa [foundEq] at dropped
  | lengthDelimited =>
      have skipped := readVarint32_bind sound (fun length => skip (asInt length))
        (fun length rest => (takeBytes length rest).map fun taken => ((), taken.2))
        fun length rest tag shorter => skip_reads (sound.read shorter tag) length
      rw [scalarAt, Option.bind_map]
      refine (congrArg (Reads _ input) (Option.bind_congr fun found _ => ?_)).mp skipped
      obtain ⟨n, rest⟩ := found
      simp only [Function.comp_apply, takeBytes, Payload.Complete, List.length_take]
      by_cases there : n % 2 ^ 32 ≤ rest.length
      · rw [if_pos there, if_pos (by omega)]
        rfl
      · rw [if_neg there, if_neg (by omega)]
        rfl
  | fixed32 =>
      have dropped := (readRaw_reads sound 4).map fun _ => ()
      rw [scalarAt]
      cases foundEq : takeBytes 4 input.buffer with
      | none => rwa [foundEq] at dropped
      | some found => rwa [foundEq] at dropped
  | startGroup => contradiction
  | endGroup => contradiction

/-- What is no field: the end of a group, or no wire type. -/
theorem skipField_none {calls depth : Nat} {tag : UInt32} {input : CodedInputStream}
    (typeEq : getTagWireType tag = none ∨ getTagWireType tag = some .endGroup) :
    Reads (skipField (calls + 1) tag input) input (skipFound depth tag.toNat input.buffer) := by
  have wireEq := getTagWireType_eq tag
  have payloadEq : payloadAt depth tag.toNat input.buffer = none := by
    unfold payloadAt
    rcases typeEq with typeEq | typeEq <;> rw [← wireEq, typeEq]
  rw [skipFound, skipAt, payloadEq, skipField]
  rcases typeEq with typeEq | typeEq <;> exact ⟨input, by rw [typeEq]; rfl⟩

/-- The groups that may still nest in what is read. -/
def Nests (input : CodedInputStream) (depth : Nat) : Prop :=
  input.recursionDepth + depth = input.recursionLimit

/-- A group, from what `SkipMessage` does in it. -/
theorem skipField_group {calls depth : Nat} {tag : UInt32} {input : CodedInputStream}
    (sound : Sound input) (nests : Nests input depth)
    (typeEq : getTagWireType tag = some .startGroup)
    (skips : ∀ {input' : CodedInputStream} {inner : Nat}, Sound input' → Nests input' inner →
      input'.buffer = input.buffer →
      SkipsGroup (skipMessage calls input') input' (getTagFieldNumber tag)
        (groupAt inner (getTagFieldNumber tag) input.buffer)) :
    Reads (skipField (calls + 1) tag input) input (skipFound depth tag.toNat input.buffer) := by
  have wireEq : WireType.ofCode (tag.toNat % 8) = some .startGroup := by
    rw [← getTagWireType_eq, typeEq]
  rw [skipFound, skipAt, skipField, typeEq]
  dsimp only
  cases depth with
  | zero =>
      have deep : incrementRecursionDepth input =
          .failed { input with recursionDepth := input.recursionDepth + 1 } := by
        rw [Nests] at nests
        exact if_neg (by dsimp only; omega)
      have payloadEq : payloadAt 0 tag.toNat input.buffer = none := by
        unfold payloadAt
        rw [wireEq]
      rw [payloadEq]
      exact ⟨_, Reader.bind_failed deep _⟩
  | succ inner =>
      have deeper : incrementRecursionDepth input =
          .ok () { input with recursionDepth := input.recursionDepth + 1 } := by
        rw [Nests] at nests
        exact if_pos (by dsimp only; omega)
      have payloadEq : payloadAt (inner + 1) tag.toNat input.buffer =
          (groupAt inner (getTagFieldNumber tag) input.buffer).map fun rest => (.group, rest) := by
        unfold payloadAt
        rw [wireEq, getTagFieldNumber_eq]
      have nests' : Nests { input with recursionDepth := input.recursionDepth + 1 } inner := by
        rw [Nests] at nests ⊢
        dsimp only
        omega
      have sound' : Sound { input with recursionDepth := input.recursionDepth + 1 } :=
        { sound with }
      have inGroup := skips sound' nests' rfl
      rw [Reader.bind_ok deeper, payloadEq]
      cases groupEq : groupAt inner (getTagFieldNumber tag) input.buffer with
      | none =>
          rw [groupEq] at inGroup
          rcases inGroup with ⟨input', failedEq⟩ | ⟨input', okEq, other⟩
          · exact ⟨input', Reader.bind_failed failedEq _⟩
          · rw [Reader.bind_ok okEq]
            refine ⟨{ input' with recursionDepth := input'.recursionDepth - 1 }, ?_⟩
            exact (Reader.bind_ok (by rfl) _).trans (if_neg (by simpa [lastTagWas] using other))
      | some rest =>
          rw [groupEq] at inGroup
          rw [Reader.bind_ok inGroup]
          refine ⟨makeTag (getTagFieldNumber tag) .endGroup, ?_⟩
          exact (Reader.bind_ok (by rfl) _).trans (if_pos (by simp [lastTagWas]))

theorem getTagFieldNumber_lt (tag : UInt32) : getTagFieldNumber tag < 2 ^ 29 := by
  have := tag.toNat_lt
  rw [getTagFieldNumber_eq]
  omega

theorem makeTag_ne_zero {number : Nat} (small : number < 2 ^ 29) :
    0 ≠ makeTag number .endGroup := by
  intro zero
  have value := toNat_makeTag small .endGroup
  rw [← zero] at value
  change 0 = 8 * number + 4 at value
  omega

/-- The tag that ends a group: of this group, or of another one. -/
theorem skipsGroup_ends {number : Nat} {tag : UInt32} {input : CodedInputStream} {rest : Bytes}
    (small : number < 2 ^ 29) (ends : WireType.ofCode (tag.toNat % 8) = some .endGroup) :
    SkipsGroup (.ok () { input with buffer := rest, lastTag := tag }) input number
      (if tag.toNat / 8 = number then some rest else none) := by
  have code := WireType.code_of_ofCode ends
  change tag.toNat % 8 = 4 at code
  have makeEq := toNat_makeTag small .endGroup
  by_cases same : tag.toNat / 8 = number
  · have tagSame : tag = makeTag number .endGroup := by
      rw [← UInt32.toNat_inj, makeEq]
      change tag.toNat = 8 * number + 4
      omega
    rw [if_pos same, tagSame]
    rfl
  · rw [if_neg same]
    refine .inr ⟨_, rfl, fun tagSame => same ?_⟩
    rw [show tag = makeTag number .endGroup from tagSame, makeEq]
    change (8 * number + 4) / 8 = number
    omega

/-- A field in a group, and the loop behind it. -/
theorem skipsGroup_field {calls depth number : Nat} {tag : UInt32} {input : CodedInputStream}
    {rest : Bytes}
    (field : Reads (skipField calls tag { input with buffer := rest, lastTag := tag })
      { input with buffer := rest, lastTag := tag } (skipFound depth tag.toNat rest))
    (skipsLater : ∀ {last : UInt32} {later : Bytes}, later.length ≤ rest.length →
      SkipsGroup (skipMessage calls { input with buffer := later, lastTag := last })
        { input with buffer := later, lastTag := last } number (groupAt depth number later)) :
    SkipsGroup ((skipField calls tag >>= fun _ => skipMessage calls)
        { input with buffer := rest, lastTag := tag }) input number
      ((skipAt depth tag.toNat rest).bind fun later => groupAt depth number later) := by
  rw [skipFound] at field
  cases skippedEq : skipAt depth tag.toNat rest with
  | none =>
      rw [skippedEq] at field
      obtain ⟨input', failedEq⟩ := field
      exact .inl ⟨input', Reader.bind_failed failedEq _⟩
  | some later =>
      rw [skippedEq] at field
      obtain ⟨last, okEq⟩ := field
      have later' : SkipsGroup (skipMessage calls { input with buffer := later, lastTag := last })
          _ _ _ := skipsLater (length_skipAt skippedEq)
      rw [Reader.bind_ok okEq, Option.bind_some]
      cases groupEq : groupAt depth number later with
      | none => rwa [groupEq] at later'
      | some behind => rwa [groupEq] at later'

/-- The loop in a group, from what `SkipField` does with a field. -/
theorem skipMessage_group {calls depth number : Nat} {input : CodedInputStream}
    (small : number < 2 ^ 29) (sound : Sound input)
    (skipsField : ∀ {tag : UInt32} {rest : Bytes}, rest.length < input.buffer.length →
      Reads (skipField calls tag { input with buffer := rest, lastTag := tag })
        { input with buffer := rest, lastTag := tag } (skipFound depth tag.toNat rest))
    (skipsLater : ∀ {tag : UInt32} {rest : Bytes}, rest.length < input.buffer.length →
      SkipsGroup (skipMessage calls { input with buffer := rest, lastTag := tag })
        { input with buffer := rest, lastTag := tag } number (groupAt depth number rest)) :
    SkipsGroup (skipMessage (calls + 1) input) input number
      (groupAt depth number input.buffer) := by
  rw [skipMessage, groupAt_eq]
  by_cases empty : input.buffer = []
  · rw [Reader.bind_ok (readTag_end sound empty), empty]
    exact .inr ⟨_, rfl, makeTag_ne_zero small⟩
  have tagRead := readTag_readsTag sound empty
  cases foundEq : tagAt input.buffer with
  | none =>
      rw [foundEq] at tagRead
      obtain ⟨buffer, zeroEq⟩ := tagRead
      rw [Reader.bind_ok zeroEq]
      exact .inr ⟨_, rfl, makeTag_ne_zero small⟩
  | some found =>
      obtain ⟨n, rest⟩ := found
      have shorter := length_tagAt foundEq
      rw [foundEq] at tagRead
      obtain ⟨tag, rfl, nonzero, readEq⟩ := tagRead
      rw [Reader.bind_ok readEq, if_neg nonzero, Option.bind_some, getTagWireType_eq]
      dsimp only
      by_cases ends : WireType.ofCode (tag.toNat % 8) = some .endGroup
      · rw [if_pos ends, if_pos ends]
        exact skipsGroup_ends small ends
      · rw [if_neg ends, if_neg ends]
        refine skipsGroup_field (skipsField shorter) fun atMost => ?_
        exact skipsLater (Nat.lt_of_le_of_lt atMost shorter)

/-- With enough calls `SkipField` skips the field, and `SkipMessage` the group. -/
theorem skips (calls : Nat) :
    (∀ {depth : Nat} {tag : UInt32} {input : CodedInputStream}, Sound input → Nests input depth →
      2 * input.buffer.length + 2 ≤ calls →
      Reads (skipField calls tag input) input (skipFound depth tag.toNat input.buffer)) ∧
    ∀ {depth number : Nat} {input : CodedInputStream}, number < 2 ^ 29 → Sound input →
      Nests input depth → 2 * input.buffer.length + 1 ≤ calls →
      SkipsGroup (skipMessage calls input) input number (groupAt depth number input.buffer) := by
  induction calls with
  | zero => exact ⟨fun _ _ enough => by omega, fun _ _ _ enough => by omega⟩
  | succ calls ih =>
      obtain ⟨fieldIh, groupIh⟩ := ih
      constructor
      · intro depth tag input sound nests enough
        cases typeEq : getTagWireType tag with
        | none => exact skipField_none (.inl typeEq)
        | some type =>
            by_cases starts : type = .startGroup
            · subst starts
              refine skipField_group sound nests typeEq fun sound' nests' bufferEq => ?_
              have inGroup := groupIh (getTagFieldNumber_lt tag) sound' nests' (by
                rw [bufferEq]
                omega)
              rwa [bufferEq] at inGroup
            · by_cases ends : type = .endGroup
              · exact skipField_none (.inr (ends ▸ typeEq))
              · exact skipField_scalar sound typeEq starts ends
      · intro depth number input small sound nests enough
        refine skipMessage_group small sound (fun shorter => ?_) fun shorter => ?_
        · exact fieldIh (sound.read (Nat.le_of_lt shorter) _) nests (by dsimp only; omega)
        · exact groupIh small (sound.read (Nat.le_of_lt shorter) _) nests (by dsimp only; omega)

/-! ## Values -/

theorem readString_reads {input : CodedInputStream} (sound : Sound input) :
    Reads (readString input) input ((readBase128 mostBytes input.buffer).bind fun (n, rest) =>
      takeBytes (n % 2 ^ 32) rest) :=
  readVarint32_bind sound (fun length => internalReadStringInline (asInt length)) takeBytes
    fun length _ tag shorter => internalReadStringInline_reads (sound.read shorter tag) length

theorem readInt32_reads {input : CodedInputStream} (sound : Sound input) :
    Reads (readInt32 input) input ((readBase128 mostBytes input.buffer).map fun (n, rest) =>
      ((UInt32.ofNat n).toInt32, rest)) := by
  have number := (readVarint32_readsNumber sound.limited).reads.map UInt32.toInt32
  rwa [Option.map_map] at number

theorem readInt64_reads {input : CodedInputStream} (sound : Sound input) :
    Reads (readInt64 input) input ((readBase128 mostBytes input.buffer).map fun (n, rest) =>
      ((UInt64.ofNat n).toInt64, rest)) := by
  have number := (readVarint64_readsNumber sound.limited).reads.map UInt64.toInt64
  rwa [Option.map_map] at number

/-- `MergePartialFromCodedStream` up to the limit: it stops there with a value, or it fails,
or it stops before the end of the message. -/
def MergesTo {α : Type} (outcome : Outcome α) (input : CodedInputStream) : Option α → Prop
  | some value => outcome =
      .ok value { input with buffer := [], lastTag := 0, legitimateMessageEnd := true }
  | none => (∃ input', outcome = .failed input') ∨
      ∃ value input', outcome = .ok value input' ∧ input'.legitimateMessageEnd = false

/-- A message inside a message takes as many bytes as its length says, or all that there
are. -/
theorem readMessageNoVirtual_reads {α : Type} {merge : Reader α} (parse : Bytes → Option α)
    {input : CodedInputStream} {depth : Nat} (sound : Sound input) (nests : Nests input (depth + 1))
    (merges : ∀ {input' : CodedInputStream}, Sound input' → Nests input' depth →
      MergesTo (merge input') input' (parse input'.buffer)) :
    Reads (readMessageNoVirtual merge input) input
      ((readBase128 mostBytes input.buffer).bind fun (n, rest) =>
        (parse (rest.take (n % 2 ^ 32))).map fun value => (value, rest.drop (n % 2 ^ 32))) := by
  refine readVarint32_bind sound _ (fun length rest =>
    (parse (rest.take length)).map fun value => (value, rest.drop length))
    fun length rest tag shorter => ?_
  have soundRest := sound.read shorter tag
  have deeper : incrementRecursionDepth { input with buffer := rest, lastTag := tag } = .ok ()
      { input with buffer := rest, lastTag := tag, recursionDepth := input.recursionDepth + 1 } := by
    rw [Nests] at nests
    exact if_pos (by dsimp only; omega)
  refine (congrArg (Reads · _ _) (Reader.bind_ok deeper _)).mpr ?_
  have soundInner : Sound
      { input with buffer := rest, lastTag := tag, recursionDepth := input.recursionDepth + 1 } :=
    { soundRest with }
  refine (congrArg (Reads · _ _) (Reader.bind_ok (pushLimit_eq soundInner length) _)).mpr ?_
  have nestsInner : Nests
      { input with buffer := rest, lastTag := tag, recursionDepth := input.recursionDepth + 1 }
      depth := by
    rw [Nests] at nests ⊢
    dsimp only
    omega
  have merged := merges (soundInner.limitedTo length.toNat) nestsInner
  dsimp only [limitedTo] at merged
  cases parsedEq : parse (rest.take length.toNat) with
  | none =>
      rw [parsedEq] at merged
      rcases merged with ⟨input', failedEq⟩ | ⟨value, input', okEq, notEnded⟩
      · exact ⟨input', Reader.bind_failed failedEq _⟩
      · have unended : Reader.ensure consumedEntireMessage input' = .failed input' :=
          if_neg (by simp [consumedEntireMessage, notEnded])
        exact ⟨input', (Reader.bind_ok okEq _).trans (Reader.bind_failed unended _)⟩
  | some value =>
      rw [parsedEq] at merged
      refine ⟨0, (Reader.bind_ok merged _).trans ((Reader.bind_ok (if_pos rfl) _).trans ?_)⟩
      refine (Reader.bind_ok (popLimit_eq soundInner length.toNat 0 true) _).trans ?_
      exact (Reader.bind_ok (by rfl) _).trans rfl

/-- No message is read below the last level. -/
theorem readMessageNoVirtual_deep {α : Type} (merge : Reader α) {input : CodedInputStream}
    (sound : Sound input) (nests : Nests input 0) :
    Reads (readMessageNoVirtual merge input) input none := by
  have reads := readVarint32_bind sound (β := α)
    (fun length => do
      incrementRecursionDepth
      let limit ← pushLimit (asInt length)
      let value ← merge
      Reader.ensure consumedEntireMessage
      popLimit limit
      decrementRecursionDepth
      return value)
    (fun _ _ => none) fun length rest tag _ => by
      rw [Nests] at nests
      exact ⟨_, Reader.bind_failed (if_neg (by dsimp only; omega)) _⟩
  rwa [show (readBase128 mostBytes input.buffer).bind (fun _ => (none : Option (α × Bytes))) = none
    from Option.bind_fun_none _] at reads

end WireFormatLite

end GPush.Protobuf
