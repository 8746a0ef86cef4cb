import GPush.Protobuf.WireFormat
import Mathlib.Data.List.TakeWhile

/-!
# Parsing a message

The generated `MergePartialFromCodedStream` for a list of fields, with its jumps from the
value of a field to that of the next one.  It parses what a plain reader of the wire format
parses: all fields one after the other, each for itself.
-/

namespace GPush.Protobuf

open CodedInputStream Wire WireFormatLite

/-- A field of the messages of type `M`: how its value is read into a message, and what a
payload means for the message. -/
structure Field (M : Type) where
  number : Nat
  type : WireType
  repeated : Bool
  read : M → Reader M
  take : Nat → Payload → M → Option M
  number_pos : 0 < number
  number_lt : number < 2 ^ 29
  scalar : type ≠ .startGroup ∧ type ≠ .endGroup
  reads : ∀ {depth : Nat} {input : CodedInputStream} (m : M), Sound input →
    Nests input depth →
    Reads (read m input) input ((scalarAt type input.buffer).bind fun (payload, rest) =>
      (take depth payload m).map fun m => (m, rest))

namespace Field

variable {M : Type}

/-- The tag of a field. -/
def tag (f : Field M) : UInt32 := makeTag f.number f.type

/-- `handle_uninterpreted`, and what comes after it. -/
def handleUninterpreted (tag : UInt32) (m : M) (next : M → Reader M) : Reader M :=
  if getTagWireType tag = some .endGroup then
    return m
  else do
    let input ← Reader.get
    skipField (2 * input.bufferSize + 2) tag
    next m

/-- What comes after a value: the label of the field itself, when it is repeated, or of the
next one, if its tag is expected and there, the end of the input, or the head of the loop. -/
def afterValue (f : Field M) (later : List (Field M)) (jump : List (Field M) → M → Reader M)
    (m : M) : Reader M := fun input =>
  match if f.repeated then expectTag f.tag input else none with
  | some input => jump (f :: later) m input
  | none =>
      match later with
      | g :: _ =>
          match expectTag g.tag input with
          | some input => jump later m input
          | none => jump [] m input
      | [] =>
          match expectAtEnd input with
          | some input => .ok m input
          | none => jump [] m input

/-- The switch of the loop: `0` ends it, and the number of a field leads to its label. -/
def onTag (fields : List (Field M)) (jump : List (Field M) → M → Reader M) (m : M)
    (tag : UInt32) : Reader M :=
  if tag = 0 then
    return m
  else
    match fields.dropWhile fun f => f.number ≠ getTagFieldNumber tag with
    | f :: later =>
        if getTagWireType tag = some f.type then
          jump (f :: later) m
        else
          handleUninterpreted tag m (jump [])
    | [] => handleUninterpreted tag m (jump [])

/-- `MergePartialFromCodedStream`, within a number of rounds: at the head of its loop, or at
the label of the first of the fields given, whose tag has been read. -/
def mergePartial (fields : List (Field M)) : Nat → List (Field M) → M → Reader M
  | 0, _, _ => Reader.fault
  | rounds + 1, [], m => do
      let tag ← readTag
      onTag fields (mergePartial fields rounds) m tag
  | rounds + 1, f :: later, m => do
      let m ← f.read m
      afterValue f later (mergePartial fields rounds) m

/-- `MergePartialFromCodedStream`; every round takes a byte. -/
def mergePartialFromCodedStream (fields : List (Field M)) (m : M) : Reader M := fun input =>
  mergePartial fields (input.bufferSize + 1) [] m input

/-! ## The plain reader -/

/-- What a field on the wire does to a message; unknown fields and those with another wire
type do nothing. -/
def apply (depth : Nat) (fields : List (Field M)) (record : Record) (m : M) : Option M :=
  match fields.find? fun f => f.number = record.number with
  | some f =>
      if f.type = record.payload.type then
        f.take depth record.payload m
      else if record.payload.Complete then
        some m
      else
        none
  | none => if record.payload.Complete then some m else none

/-- The fields on the wire, one after the other. -/
def applyAll (depth : Nat) (fields : List (Field M)) : List Record → M → Option M
  | [], m => some m
  | record :: later, m => (apply depth fields record m).bind (applyAll depth fields later)

/-- Parsing into a message: all fields on the wire, applied one after the other. -/
def parseInto (depth : Nat) (fields : List (Field M)) (bs : Bytes) (m : M) : Option M :=
  (records depth bs).bind fun parsed => applyAll depth fields parsed m

theorem applyAll_append (depth : Nat) (fields : List (Field M)) (front back : List Record)
    (m : M) : applyAll depth fields (front ++ back) m =
      (applyAll depth fields front m).bind (applyAll depth fields back) := by
  induction front generalizing m with
  | nil => rfl
  | cons record later ih =>
      rw [List.cons_append, applyAll, applyAll, Option.bind_assoc]
      exact Option.bind_congr fun m' _ => ih m'

theorem parseInto_nil (depth : Nat) (fields : List (Field M)) (m : M) :
    parseInto depth fields [] m = some m := rfl

/-- One field on the wire after the other. -/
theorem parseInto_recordAt {depth : Nat} {bs : Bytes} (nonempty : bs ≠ [])
    (fields : List (Field M)) (m : M) :
    parseInto depth fields bs m = (recordAt depth bs).bind fun (record, rest) =>
      (apply depth fields record m).bind (parseInto depth fields rest) := by
  rw [parseInto, records_of_ne_nil nonempty, Option.bind_assoc]
  refine Option.bind_congr fun ⟨record, rest⟩ _ => ?_
  rw [Option.bind_map]
  dsimp only [Function.comp_def, applyAll]
  cases apply depth fields record m with
  | none => cases records depth rest <;> rfl
  | some m' => rfl

/-- No two fields have one number. -/
def Distinct (fields : List (Field M)) : Prop := fields.Pairwise fun f g => f.number ≠ g.number

instance (fields : List (Field M)) : Decidable (Distinct fields) :=
  inferInstanceAs (Decidable (fields.Pairwise fun f g => f.number ≠ g.number))

theorem Distinct.find {fields : List (Field M)} (distinct : Distinct fields) {f : Field M}
    (mem : f ∈ fields) : (fields.find? fun g => g.number = f.number) = some f := by
  induction fields with
  | nil => simp at mem
  | cons g later ih =>
      obtain ⟨others, distinct⟩ := List.pairwise_cons.mp distinct
      rcases List.mem_cons.mp mem with rfl | mem
      · simp
      · rw [List.find?_cons_of_neg (by simpa using others f mem)]
        exact ih distinct mem

/-- A field whose tag is there. -/
theorem parseInto_known {depth tag : Nat} {bs rest : Bytes} {fields : List (Field M)}
    {f : Field M} (tagFound : tagAt bs = some (tag, rest))
    (known : (fields.find? fun g => g.number = tag / 8) = some f)
    (typeEq : WireType.ofCode (tag % 8) = some f.type) (m : M) :
    parseInto depth fields bs m = (scalarAt f.type rest).bind fun (payload, rest) =>
      (f.take depth payload m).bind (parseInto depth fields rest) := by
  have nonempty : bs ≠ [] := by
    intro empty
    have := length_tagAt tagFound
    rw [empty, List.length_nil] at this
    omega
  rw [parseInto_recordAt nonempty, recordAt, tagFound, Option.bind_some]
  dsimp only
  rw [payloadAt_scalar typeEq f.scalar.1 f.scalar.2, Option.bind_map]
  refine Option.bind_congr fun found scalarFound => ?_
  obtain ⟨payload, behind⟩ := found
  dsimp only [Function.comp_apply, apply]
  rw [known]
  dsimp only
  rw [if_pos (type_of_scalarAt scalarFound).symm]

/-- A field that is skipped: its number is unknown, or its wire type is another one. -/
theorem parseInto_unknown {depth tag : Nat} {bs rest : Bytes} {fields : List (Field M)}
    (tagFound : tagAt bs = some (tag, rest))
    (unknown : ∀ f, (fields.find? fun g => g.number = tag / 8) = some f →
      WireType.ofCode (tag % 8) ≠ some f.type) (m : M) :
    parseInto depth fields bs m =
      (skipAt depth tag rest).bind fun rest => parseInto depth fields rest m := by
  have nonempty : bs ≠ [] := by
    intro empty
    have := length_tagAt tagFound
    rw [empty, List.length_nil] at this
    omega
  rw [parseInto_recordAt nonempty, recordAt, tagFound, Option.bind_some, skipAt]
  dsimp only
  rw [Option.bind_map, Option.bind_assoc]
  refine Option.bind_congr fun found payloadFound => ?_
  obtain ⟨payload, behind⟩ := found
  dsimp only [Function.comp_apply, apply]
  have typeEq := type_of_payloadAt payloadFound
  split
  case h_1 f known =>
    rw [if_neg (fun same => unknown f known (by rw [typeEq, same]))]
    split <;> rfl
  case h_2 => split <;> rfl

/-! ## Both agree -/

theorem toNat_tag (f : Field M) : f.tag.toNat = 8 * f.number + f.type.code :=
  toNat_makeTag f.number_lt f.type

/-- The tag that `ExpectTag` has found leads to its field. -/
theorem parseInto_tag {depth : Nat} {bs rest : Bytes} {fields : List (Field M)}
    (distinct : Distinct fields) {f : Field M} (mem : f ∈ fields)
    (read : readBase128 mostBytes bs = some (f.tag.toNat, rest)) (m : M) :
    parseInto depth fields bs m = (scalarAt f.type rest).bind fun (payload, rest) =>
      (f.take depth payload m).bind (parseInto depth fields rest) := by
  obtain ⟨numberEq, typeEq⟩ := tag_parts f.number f.type
  have positive := f.number_pos
  have bits : f.tag.toNat % 2 ^ 32 = f.tag.toNat := Nat.mod_eq_of_lt f.tag.toNat_lt
  have tagFound := tagAt_of_ne_zero read (by rw [bits, toNat_tag]; omega)
  rw [bits, toNat_tag] at tagFound
  exact parseInto_known tagFound (by rw [numberEq]; exact distinct.find mem) typeEq m

/-- From the head of the loop and from every label, the fields that are left are parsed; for
streams with less than `bound` bytes. -/
structure Merges (fields : List (Field M)) (depth bound : Nat)
    (jump : List (Field M) → M → Reader M) : Prop where
  head : ∀ {input : CodedInputStream} (m : M), Sound input → Nests input depth →
    input.buffer.length < bound →
    MergesTo (jump [] m input) input (parseInto depth fields input.buffer m)
  label : ∀ {f : Field M} {later : List (Field M)} {input : CodedInputStream} (m : M),
    (∀ g ∈ f :: later, g ∈ fields) → Sound input → Nests input depth →
    input.buffer.length < bound →
    MergesTo (jump (f :: later) m input) input
      ((scalarAt f.type input.buffer).bind fun (payload, rest) =>
        (f.take depth payload m).bind (parseInto depth fields rest))

/-- What has been read before does not matter. -/
theorem mergesTo_read {outcome : Outcome M} {input : CodedInputStream} {rest : Bytes}
    {tag : UInt32} {parsed : Option M}
    (merges : MergesTo outcome { input with buffer := rest, lastTag := tag } parsed) :
    MergesTo outcome input parsed := by
  cases parsed <;> exact merges

section Jumps

variable {fields : List (Field M)} {depth bound : Nat} {jump : List (Field M) → M → Reader M}
  {input : CodedInputStream}

/-- A tag that is expected and there. -/
theorem expectTag_mergesTo (distinct : Distinct fields) (merges : Merges fields depth bound jump)
    {f : Field M} {later : List (Field M)} (among : ∀ g ∈ f :: later, g ∈ fields)
    (sound : Sound input) (nests : Nests input depth) (fewer : input.buffer.length < bound)
    {input' : CodedInputStream} (expected : expectTag f.tag input = some input') (m : M) :
    MergesTo (jump (f :: later) m input') input (parseInto depth fields input.buffer m) := by
  obtain ⟨rest, read, rfl⟩ := readBase128_of_expectTag expected
  have shorter := length_readBase128 read
  rw [parseInto_tag distinct (among f (by simp)) read]
  exact mergesTo_read (merges.label m among (sound.read (Nat.le_of_lt shorter) input.lastTag) nests
    (Nat.lt_trans shorter fewer))

/-- After a value, whichever way is taken. -/
theorem afterValue_mergesTo (distinct : Distinct fields) (merges : Merges fields depth bound jump)
    {f : Field M} {later : List (Field M)} (among : ∀ g ∈ f :: later, g ∈ fields)
    (sound : Sound input) (nests : Nests input depth) (fewer : input.buffer.length < bound)
    (m : M) :
    MergesTo (afterValue f later jump m input) input (parseInto depth fields input.buffer m) := by
  have head := merges.head m sound nests fewer
  unfold afterValue
  split
  case h_1 input' again =>
    have expected := (Option.ite_none_right_eq_some.mp again).2
    exact expectTag_mergesTo distinct merges among sound nests fewer expected m
  case h_2 =>
    split
    case h_1 g behind =>
      have amongBehind : ∀ h ∈ g :: behind, h ∈ fields := fun h mem =>
        among h (List.mem_cons_of_mem f mem)
      split
      case h_1 input' expected =>
        exact expectTag_mergesTo distinct merges amongBehind sound nests fewer expected m
      case h_2 => exact head
    case h_2 =>
      rw [expectAtEnd_eq sound]
      by_cases empty : input.buffer = []
      · rw [if_pos empty, empty]
        exact congrArg (Outcome.ok m) (by rw [← empty])
      · rw [if_neg empty]
        exact head

/-- A field that is skipped; the end of a group ends the message as well. -/
theorem handleUninterpreted_mergesTo (merges : Merges fields depth bound jump) (sound : Sound input)
    (nests : Nests input depth) (fewer : input.buffer.length < bound) (tag : UInt32) (m : M) :
    MergesTo (handleUninterpreted tag m (jump []) input) input
      ((skipAt depth tag.toNat input.buffer).bind fun rest => parseInto depth fields rest m) := by
  unfold handleUninterpreted
  by_cases ends : getTagWireType tag = some .endGroup
  · have nothing : payloadAt depth tag.toNat input.buffer = none := by
      rw [getTagWireType_eq] at ends
      unfold payloadAt
      rw [ends]
    rw [if_pos ends, skipAt, nothing]
    exact .inr ⟨m, input, rfl, sound.open_⟩
  · rw [if_neg ends]
    refine (congrArg (MergesTo · input _) (Reader.bind_ok (by rfl) _)).mpr ?_
    have skipped : Reads (skipField (2 * input.bufferSize + 2) tag input) input _ :=
      (skips _).1 sound nests (Nat.le_refl _)
    rw [skipFound] at skipped
    cases skippedEq : skipAt depth tag.toNat input.buffer with
    | none =>
        rw [skippedEq] at skipped
        obtain ⟨input', failedEq⟩ := skipped
        exact .inl ⟨input', Reader.bind_failed failedEq _⟩
    | some rest =>
        rw [skippedEq] at skipped
        obtain ⟨last, okEq⟩ := skipped
        have shorter := length_skipAt skippedEq
        refine (congrArg (MergesTo · input _) (Reader.bind_ok okEq _)).mpr ?_
        exact mergesTo_read (merges.head m (sound.read shorter last) nests
          (Nat.lt_of_le_of_lt shorter fewer))

/-- The label of a field: its value, and what comes after it. -/
theorem label_mergesTo (distinct : Distinct fields) (merges : Merges fields depth bound jump)
    {f : Field M} {later : List (Field M)} (among : ∀ g ∈ f :: later, g ∈ fields)
    (sound : Sound input) (nests : Nests input depth) (fewer : input.buffer.length < bound + 1)
    (m : M) :
    MergesTo ((f.read m >>= afterValue f later jump) input) input
      ((scalarAt f.type input.buffer).bind fun (payload, rest) =>
        (f.take depth payload m).bind (parseInto depth fields rest)) := by
  have value := f.reads m sound nests
  cases scalarEq : scalarAt f.type input.buffer with
  | none =>
      rw [scalarEq] at value
      obtain ⟨input', failedEq⟩ := value
      exact .inl ⟨input', Reader.bind_failed failedEq _⟩
  | some found =>
      obtain ⟨payload, rest⟩ := found
      have shorter := length_scalarAt scalarEq
      rw [scalarEq, Option.bind_some] at value
      rw [Option.bind_some]
      dsimp only at value ⊢
      cases takenEq : f.take depth payload m with
      | none =>
          rw [takenEq] at value
          obtain ⟨input', failedEq⟩ := value
          exact .inl ⟨input', Reader.bind_failed failedEq _⟩
      | some m' =>
          rw [takenEq] at value
          obtain ⟨last, okEq⟩ := value
          refine (congrArg (MergesTo · input _) (Reader.bind_ok okEq _)).mpr ?_
          exact mergesTo_read (afterValue_mergesTo distinct merges among
            (sound.read (Nat.le_of_lt shorter) last) nests (by dsimp only; omega) m')

/-- The switch leads to the label of the field, or to `handle_uninterpreted`. -/
theorem onTag_mergesTo (merges : Merges fields depth bound jump) (sound : Sound input)
    (nests : Nests input depth) (fewer : input.buffer.length < bound) {tag : UInt32}
    (nonzero : tag ≠ 0) {bs : Bytes} (tagFound : tagAt bs = some (tag.toNat, input.buffer))
    (m : M) :
    MergesTo (onTag fields jump m tag input) input (parseInto depth fields bs m) := by
  have first := fields.find?_eq_head?_dropWhile_not fun f => f.number = getTagFieldNumber tag
  have uninterpreted := handleUninterpreted_mergesTo merges sound nests fewer tag m
  rw [getTagFieldNumber_eq] at first
  simp only [onTag, if_neg nonzero, getTagFieldNumber_eq, decide_not]
  cases dropped : fields.dropWhile fun f => !decide (f.number = tag.toNat / 8) with
  | nil =>
      rw [dropped, List.head?_nil] at first
      rw [parseInto_unknown tagFound fun g known => by rw [first] at known; cases known]
      exact uninterpreted
  | cons f later =>
      have among : ∀ g ∈ f :: later, g ∈ fields := fun g mem =>
        List.dropWhile_subset _ (dropped ▸ mem)
      rw [dropped, List.head?_cons] at first
      by_cases same : getTagWireType tag = some f.type
      · rw [parseInto_known tagFound first (by rw [← getTagWireType_eq, same])]
        simp only [if_pos same]
        exact merges.label m among sound nests fewer
      · rw [parseInto_unknown tagFound fun g known => ?_]
        · simp only [if_neg same]
          exact uninterpreted
        · rw [first, Option.some.injEq] at known
          rwa [← known, ← getTagWireType_eq]

/-- The head of the loop: the end of the message, or the next tag. -/
theorem head_mergesTo (merges : Merges fields depth bound jump) (sound : Sound input)
    (nests : Nests input depth) (fewer : input.buffer.length < bound + 1) (m : M) :
    MergesTo ((readTag >>= onTag fields jump m) input) input
      (parseInto depth fields input.buffer m) := by
  by_cases empty : input.buffer = []
  · refine (congrArg (MergesTo · input _) (Reader.bind_ok (readTag_end sound empty) _)).mpr ?_
    rw [onTag, if_pos rfl, empty, parseInto_nil]
    exact congrArg (Outcome.ok m) (by rw [← empty])
  have tagRead := readTag_readsTag sound empty
  cases foundEq : tagAt input.buffer with
  | none =>
      rw [foundEq] at tagRead
      obtain ⟨buffer, zeroEq⟩ := tagRead
      refine (congrArg (MergesTo · input _) (Reader.bind_ok zeroEq _)).mpr ?_
      rw [onTag, if_pos rfl, parseInto_recordAt empty, recordAt, foundEq]
      exact .inr ⟨m, _, rfl, sound.open_⟩
  | some found =>
      obtain ⟨n, rest⟩ := found
      have shorter := length_tagAt foundEq
      rw [foundEq] at tagRead
      obtain ⟨tag, rfl, nonzero, readEq⟩ := tagRead
      have soundRest := sound.read (Nat.le_of_lt shorter) tag
      refine (congrArg (MergesTo · input _) (Reader.bind_ok readEq _)).mpr ?_
      exact mergesTo_read
        (onTag_mergesTo merges soundRest nests (by dsimp only; omega) nonzero foundEq m)

end Jumps

/-- With more rounds than bytes every jump merges what is left. -/
theorem mergePartial_merges {fields : List (Field M)} (distinct : Distinct fields)
    (depth rounds : Nat) : Merges fields depth rounds (mergePartial fields rounds) := by
  induction rounds with
  | zero => exact ⟨fun _ _ _ fewer => by omega, fun _ _ _ _ fewer => by omega⟩
  | succ rounds ih =>
      constructor
      · intro input m sound nests fewer
        exact head_mergesTo ih sound nests fewer m
      · intro f later input m among sound nests fewer
        exact label_mergesTo distinct ih among sound nests fewer m

/-- The generated parser, with all its jumps, parses the fields one after the other. -/
theorem mergePartialFromCodedStream_mergesTo {fields : List (Field M)}
    (distinct : Distinct fields) {depth : Nat} {input : CodedInputStream} (m : M)
    (sound : Sound input) (nests : Nests input depth) :
    MergesTo (mergePartialFromCodedStream fields m input) input
      (parseInto depth fields input.buffer m) :=
  (mergePartial_merges distinct depth _).head m sound nests (Nat.lt_succ_self _)

end Field

end GPush.Protobuf
