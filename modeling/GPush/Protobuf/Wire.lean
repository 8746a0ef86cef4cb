import GPush.Protobuf.Base128

/-!
# The wire format

A message on the wire is a sequence of fields, each behind a tag with its number and its wire
type.  A field that is delimited by a length may be cut off by the end of the input; whether
that is an error is left to the reader of the field.  Fields of the type of a group are
skipped.
-/

namespace GPush.Protobuf

/-- `WireType`. -/
inductive WireType
  | varint
  | fixed64
  | lengthDelimited
  | startGroup
  | endGroup
  | fixed32
  deriving DecidableEq, Repr

namespace WireType

/-- The number of a wire type. -/
def code : WireType → Nat
  | varint => 0
  | fixed64 => 1
  | lengthDelimited => 2
  | startGroup => 3
  | endGroup => 4
  | fixed32 => 5

/-- The wire type with a number. -/
def ofCode : Nat → Option WireType
  | 0 => some varint
  | 1 => some fixed64
  | 2 => some lengthDelimited
  | 3 => some startGroup
  | 4 => some endGroup
  | 5 => some fixed32
  | _ => none

theorem ofCode_code (type : WireType) : ofCode type.code = some type := by
  cases type <;> rfl

theorem code_of_ofCode {code : Nat} {type : WireType} (found : ofCode code = some type) :
    code = type.code := by
  unfold ofCode at found
  split at found <;> cases found <;> rfl

theorem code_lt (type : WireType) : type.code < 8 := by
  cases type <;> decide

end WireType

namespace Wire

/-- What a field holds. -/
inductive Payload
  | varint (n : Nat)
  | fixed64 (bytes : Bytes)
  | delimited (length : Nat) (content : Bytes)
  | group
  | fixed32 (bytes : Bytes)
  deriving DecidableEq, Repr

/-- The content of a delimited field is all there. -/
def Payload.Complete : Payload → Prop
  | delimited length content => content.length = length
  | _ => True

instance (payload : Payload) : Decidable payload.Complete := by
  cases payload <;> unfold Payload.Complete <;> infer_instance

/-- The wire type that a payload is read for. -/
def Payload.type : Payload → WireType
  | varint _ => .varint
  | fixed64 _ => .fixed64
  | delimited _ _ => .lengthDelimited
  | group => .startGroup
  | fixed32 _ => .fixed32

/-- A field. -/
structure Record where
  number : Nat
  payload : Payload
  deriving DecidableEq, Repr

/-- The bytes that a length counts, when they are there. -/
def takeBytes (length : Nat) (bs : Bytes) : Option (Bytes × Bytes) :=
  if length ≤ bs.length then some (bs.take length, bs.drop length) else none

/-- The most bytes of a number. -/
def mostBytes : Nat := 10

/-- The tag at the front; tags have 32 bits, and none is `0`. -/
def tagAt (bs : Bytes) : Option (Nat × Bytes) :=
  (readBase128 mostBytes bs).bind fun (n, rest) =>
    if n % 2 ^ 32 = 0 then none else some (n % 2 ^ 32, rest)

/-- What is behind a tag, unless it opens or closes a group. -/
def scalarAt : WireType → Bytes → Option (Payload × Bytes)
  | .varint, bs => (readBase128 mostBytes bs).map fun (n, rest) => (.varint n, rest)
  | .fixed64, bs => (takeBytes 8 bs).map fun (content, rest) => (.fixed64 content, rest)
  | .lengthDelimited, bs => (readBase128 mostBytes bs).map fun (n, rest) =>
      (.delimited (n % 2 ^ 32) (rest.take (n % 2 ^ 32)), rest.drop (n % 2 ^ 32))
  | .fixed32, bs => (takeBytes 4 bs).map fun (content, rest) => (.fixed32 content, rest)
  | .startGroup, _ => none
  | .endGroup, _ => none

/-- What is behind the group with a number, within a number of fields. -/
def groupWithin : Nat → Nat → Nat → Bytes → Option Bytes
  | 0, _, _, _ => none
  | rounds + 1, depth, number, bs =>
      (tagAt bs).bind fun (tag, bs) =>
        match WireType.ofCode (tag % 8) with
        | some .endGroup => if tag / 8 = number then some bs else none
        | some .startGroup =>
            match depth with
            | 0 => none
            | inner + 1 =>
                (groupWithin rounds inner (tag / 8) bs).bind fun bs =>
                  groupWithin rounds (inner + 1) number bs
        | some type =>
            (scalarAt type bs).bind fun (payload, bs) =>
              if payload.Complete then groupWithin rounds depth number bs else none
        | none => none

/-- What is behind a group, which nests at most `depth` others. -/
def groupAt (depth number : Nat) (bs : Bytes) : Option Bytes :=
  groupWithin (bs.length + 1) depth number bs

/-- What is behind a tag; groups nest at most `depth` deep. -/
def payloadAt (depth tag : Nat) (bs : Bytes) : Option (Payload × Bytes) :=
  match WireType.ofCode (tag % 8) with
  | some .endGroup => none
  | some .startGroup =>
      match depth with
      | 0 => none
      | inner + 1 => (groupAt inner (tag / 8) bs).map fun rest => (.group, rest)
  | some type => scalarAt type bs
  | none => none

/-- What is behind a field that is skipped. -/
def skipAt (depth tag : Nat) (bs : Bytes) : Option Bytes :=
  (payloadAt depth tag bs).bind fun (payload, rest) => if payload.Complete then some rest else none

/-- The field at the front. -/
def recordAt (depth : Nat) (bs : Bytes) : Option (Record × Bytes) :=
  (tagAt bs).bind fun (tag, bs) =>
    (payloadAt depth tag bs).map fun (payload, rest) => (⟨tag / 8, payload⟩, rest)

/-- The fields of a message, within a number of them. -/
def recordsWithin : Nat → Nat → Bytes → Option (List Record)
  | _, _, [] => some []
  | 0, _, _ :: _ => none
  | rounds + 1, depth, b :: bs =>
      (recordAt depth (b :: bs)).bind fun (record, rest) =>
        (recordsWithin rounds depth rest).map (record :: ·)

/-- The fields of a message. -/
def records (depth : Nat) (bs : Bytes) : Option (List Record) := recordsWithin bs.length depth bs

/-! ## Wire types -/

theorem type_of_scalarAt {type : WireType} {bs rest : Bytes} {payload : Payload}
    (found : scalarAt type bs = some (payload, rest)) : payload.type = type := by
  cases type with
  | startGroup => cases found
  | endGroup => cases found
  | varint | fixed64 | lengthDelimited | fixed32 =>
      obtain ⟨_, -, same⟩ := Option.map_eq_some_iff.mp found
      simp only [Prod.mk.injEq] at same
      rw [← same.1]
      rfl

theorem payloadAt_scalar {depth tag : Nat} {type : WireType}
    (typeEq : WireType.ofCode (tag % 8) = some type) (notStart : type ≠ .startGroup)
    (notEnd : type ≠ .endGroup) (bs : Bytes) : payloadAt depth tag bs = scalarAt type bs := by
  unfold payloadAt
  rw [typeEq]
  cases type <;> first | rfl | contradiction

/-- A payload has the wire type of its tag. -/
theorem type_of_payloadAt {depth tag : Nat} {bs rest : Bytes} {payload : Payload}
    (found : payloadAt depth tag bs = some (payload, rest)) :
    WireType.ofCode (tag % 8) = some payload.type := by
  unfold payloadAt at found
  split at found
  case h_1 => cases found
  case h_2 typeEq =>
    split at found
    case h_1 => cases found
    case h_2 =>
      obtain ⟨_, -, same⟩ := Option.map_eq_some_iff.mp found
      simp only [Prod.mk.injEq] at same
      rw [typeEq, ← same.1]
      rfl
  case h_3 typeEq => rw [typeEq, type_of_scalarAt found]
  case h_4 => cases found

/-! ## Every field takes a byte -/

theorem length_takeBytes {length : Nat} {bs content rest : Bytes}
    (taken : takeBytes length bs = some (content, rest)) :
    rest.length + length = bs.length := by
  rw [takeBytes, Option.ite_none_right_eq_some] at taken
  obtain ⟨there, same⟩ := taken
  simp only [Option.some.injEq, Prod.mk.injEq] at same
  rw [← same.2, List.length_drop]
  omega

theorem tagAt_eq_some {bs rest : Bytes} {tag : Nat} (found : tagAt bs = some (tag, rest)) :
    ∃ n, readBase128 mostBytes bs = some (n, rest) ∧ n % 2 ^ 32 ≠ 0 ∧ tag = n % 2 ^ 32 := by
  obtain ⟨⟨n, rest'⟩, read, found⟩ := Option.bind_eq_some_iff.mp found
  dsimp only at found
  split at found
  case isTrue => cases found
  case isFalse nonzero =>
    simp only [Option.some.injEq, Prod.mk.injEq] at found
    obtain ⟨rfl, rfl⟩ := found
    exact ⟨n, read, nonzero, rfl⟩

theorem tagAt_of_none {bs : Bytes} (read : readBase128 mostBytes bs = none) : tagAt bs = none := by
  rw [tagAt, read, Option.bind_none]

theorem tagAt_of_zero {bs rest : Bytes} {n : Nat} (read : readBase128 mostBytes bs = some (n, rest))
    (zero : n % 2 ^ 32 = 0) : tagAt bs = none := by
  rw [tagAt, read, Option.bind_some]
  exact if_pos zero

theorem tagAt_of_ne_zero {bs rest : Bytes} {n : Nat}
    (read : readBase128 mostBytes bs = some (n, rest)) (nonzero : n % 2 ^ 32 ≠ 0) :
    tagAt bs = some (n % 2 ^ 32, rest) := by
  rw [tagAt, read, Option.bind_some]
  exact if_neg nonzero

theorem length_tagAt {bs rest : Bytes} {tag : Nat} (found : tagAt bs = some (tag, rest)) :
    rest.length < bs.length := by
  obtain ⟨n, read, -, -⟩ := tagAt_eq_some found
  exact length_readBase128 read

theorem length_scalarAt {type : WireType} {bs rest : Bytes} {payload : Payload}
    (found : scalarAt type bs = some (payload, rest)) : rest.length < bs.length := by
  cases type with
  | varint =>
      obtain ⟨⟨n, rest'⟩, read, same⟩ := Option.map_eq_some_iff.mp found
      simp only [Prod.mk.injEq] at same
      obtain ⟨-, rfl⟩ := same
      exact length_readBase128 read
  | fixed64 =>
      obtain ⟨⟨content, rest'⟩, taken, same⟩ := Option.map_eq_some_iff.mp found
      simp only [Prod.mk.injEq] at same
      obtain ⟨-, rfl⟩ := same
      have := length_takeBytes taken
      omega
  | lengthDelimited =>
      obtain ⟨⟨n, rest'⟩, read, same⟩ := Option.map_eq_some_iff.mp found
      simp only [Prod.mk.injEq] at same
      obtain ⟨-, rfl⟩ := same
      have := length_readBase128 read
      rw [List.length_drop]
      omega
  | fixed32 =>
      obtain ⟨⟨content, rest'⟩, taken, same⟩ := Option.map_eq_some_iff.mp found
      simp only [Prod.mk.injEq] at same
      obtain ⟨-, rfl⟩ := same
      have := length_takeBytes taken
      omega
  | startGroup => cases found
  | endGroup => cases found

theorem length_groupWithin {rounds depth number : Nat} {bs rest : Bytes}
    (found : groupWithin rounds depth number bs = some rest) : rest.length < bs.length := by
  induction rounds generalizing depth number bs rest with
  | zero => cases found
  | succ rounds ih =>
      rw [groupWithin] at found
      obtain ⟨⟨tag, behind⟩, tagFound, found⟩ := Option.bind_eq_some_iff.mp found
      have shorter := length_tagAt tagFound
      dsimp only at found
      split at found
      case h_1 =>
        split at found
        case isTrue =>
          cases found
          exact shorter
        case isFalse => cases found
      case h_2 =>
        split at found
        case h_1 => cases found
        case h_2 inner =>
          obtain ⟨later, innerFound, found⟩ := Option.bind_eq_some_iff.mp found
          have := ih innerFound
          have := ih found
          omega
      case h_3 =>
        obtain ⟨⟨payload, later⟩, scalarFound, found⟩ := Option.bind_eq_some_iff.mp found
        have := length_scalarAt scalarFound
        dsimp only at found
        split at found
        case isTrue =>
          have := ih found
          omega
        case isFalse => cases found
      case h_4 => cases found

theorem length_payloadAt {depth tag : Nat} {bs rest : Bytes} {payload : Payload}
    (found : payloadAt depth tag bs = some (payload, rest)) : rest.length ≤ bs.length := by
  unfold payloadAt at found
  split at found
  case h_1 => cases found
  case h_2 =>
    split at found
    case h_1 => cases found
    case h_2 inner =>
      obtain ⟨later, groupFound, same⟩ := Option.map_eq_some_iff.mp found
      simp only [Prod.mk.injEq] at same
      obtain ⟨-, rfl⟩ := same
      exact Nat.le_of_lt (length_groupWithin groupFound)
  case h_3 => exact Nat.le_of_lt (length_scalarAt found)
  case h_4 => cases found

theorem length_skipAt {depth tag : Nat} {bs rest : Bytes}
    (found : skipAt depth tag bs = some rest) : rest.length ≤ bs.length := by
  obtain ⟨⟨payload, later⟩, payloadFound, found⟩ := Option.bind_eq_some_iff.mp found
  dsimp only at found
  split at found
  case isTrue =>
    cases found
    exact length_payloadAt payloadFound
  case isFalse => cases found

theorem length_recordAt {depth : Nat} {bs rest : Bytes} {record : Record}
    (found : recordAt depth bs = some (record, rest)) : rest.length < bs.length := by
  obtain ⟨⟨tag, behind⟩, tagFound, found⟩ := Option.bind_eq_some_iff.mp found
  obtain ⟨⟨payload, later⟩, payloadFound, same⟩ := Option.map_eq_some_iff.mp found
  simp only [Prod.mk.injEq] at same
  obtain ⟨-, rfl⟩ := same
  have := length_tagAt tagFound
  have := length_payloadAt payloadFound
  omega

/-! ## Rounds that suffice -/

theorem groupWithin_congr {m n depth number : Nat} (bs : Bytes) (enoughM : bs.length < m)
    (enoughN : bs.length < n) : groupWithin m depth number bs = groupWithin n depth number bs := by
  induction m generalizing n depth number bs with
  | zero => omega
  | succ m ih =>
      obtain ⟨n, rfl⟩ := Nat.exists_eq_succ_of_ne_zero (Nat.ne_zero_of_lt enoughN)
      rw [groupWithin, groupWithin]
      refine Option.bind_congr fun ⟨tag, behind⟩ tagFound => ?_
      have shorter := length_tagAt tagFound
      dsimp only
      split
      case h_1 => rfl
      case h_2 =>
        split
        case h_1 => rfl
        case h_2 inner =>
          rw [ih behind (by omega) (by omega : behind.length < n)]
          refine Option.bind_congr fun later innerFound => ?_
          have := length_groupWithin innerFound
          exact ih later (by omega) (by omega)
      case h_3 =>
        refine Option.bind_congr fun ⟨payload, later⟩ scalarFound => ?_
        have := length_scalarAt scalarFound
        dsimp only
        rw [ih later (by omega) (by omega : later.length < n)]
      case h_4 => rfl

theorem groupWithin_eq {rounds depth number : Nat} {bs : Bytes} (enough : bs.length < rounds) :
    groupWithin rounds depth number bs = groupAt depth number bs :=
  groupWithin_congr bs enough (Nat.lt_succ_self _)

/-- A group ends with its tag; what is before that is skipped. -/
theorem groupAt_eq (depth number : Nat) (bs : Bytes) :
    groupAt depth number bs = (tagAt bs).bind fun (tag, bs) =>
      if WireType.ofCode (tag % 8) = some .endGroup then
        if tag / 8 = number then some bs else none
      else
        (skipAt depth tag bs).bind fun bs => groupAt depth number bs := by
  rw [groupAt, groupWithin]
  refine Option.bind_congr fun ⟨tag, behind⟩ tagFound => ?_
  have shorter := length_tagAt tagFound
  dsimp only
  unfold skipAt payloadAt
  split
  case h_1 typeEq => rw [if_pos typeEq]
  case h_2 typeEq =>
    rw [if_neg (by rw [typeEq]; simp)]
    cases depth with
    | zero => rfl
    | succ inner =>
        dsimp only
        rw [groupWithin_eq shorter, Option.bind_map, Option.bind_assoc]
        refine Option.bind_congr fun later innerFound => ?_
        have := length_groupWithin innerFound
        change groupWithin bs.length (inner + 1) number later = groupAt (inner + 1) number later
        exact groupWithin_eq (by omega)
  case h_3 type notEnd notStart typeEq =>
    rw [if_neg (by rw [typeEq]; simpa using notEnd), Option.bind_assoc]
    refine Option.bind_congr fun ⟨payload, later⟩ scalarFound => ?_
    have := length_scalarAt scalarFound
    dsimp only
    split
    case isTrue => exact groupWithin_eq (by omega)
    case isFalse => rfl
  case h_4 typeEq =>
    rw [if_neg (by rw [typeEq]; simp)]
    rfl

theorem recordsWithin_congr {m n depth : Nat} (bs : Bytes) (enoughM : bs.length ≤ m)
    (enoughN : bs.length ≤ n) : recordsWithin m depth bs = recordsWithin n depth bs := by
  induction m generalizing n bs with
  | zero =>
      rw [List.eq_nil_of_length_eq_zero (Nat.le_zero.mp enoughM)]
      cases n <;> rfl
  | succ m ih =>
      cases bs with
      | nil => cases n <;> rfl
      | cons b bs =>
          obtain ⟨n, rfl⟩ := Nat.exists_eq_succ_of_ne_zero
            (Nat.ne_zero_of_lt (Nat.lt_of_lt_of_le (Nat.succ_pos bs.length) enoughN))
          rw [recordsWithin, recordsWithin]
          refine Option.bind_congr fun ⟨record, rest⟩ found => ?_
          have := length_recordAt found
          dsimp only
          rw [ih rest (by omega) (by omega : rest.length ≤ n)]

@[simp]
theorem records_nil (depth : Nat) : records depth [] = some [] := rfl

/-- One field after the other. -/
theorem records_of_ne_nil {bs : Bytes} (nonempty : bs ≠ []) (depth : Nat) :
    records depth bs = (recordAt depth bs).bind fun (record, rest) =>
      (records depth rest).map (record :: ·) := by
  cases bs with
  | nil => exact absurd rfl nonempty
  | cons b bs =>
      rw [records, List.length_cons, recordsWithin]
      refine Option.bind_congr fun ⟨record, rest⟩ found => ?_
      have := length_recordAt found
      rw [List.length_cons] at this
      dsimp only
      rw [recordsWithin_congr rest (by omega : rest.length ≤ bs.length) (Nat.le_refl _), records]

/-! ## More input -/

theorem takeBytes_append {length : Nat} {bs content rest : Bytes}
    (taken : takeBytes length bs = some (content, rest)) (more : Bytes) :
    takeBytes length (bs ++ more) = some (content, rest ++ more) := by
  rw [takeBytes, Option.ite_none_right_eq_some] at taken
  obtain ⟨there, same⟩ := taken
  simp only [Option.some.injEq, Prod.mk.injEq] at same
  rw [takeBytes, if_pos (by rw [List.length_append]; omega), List.take_append_of_le_length there,
    List.drop_append_of_le_length there, same.1, same.2]

theorem tagAt_append {bs rest : Bytes} {tag : Nat} (found : tagAt bs = some (tag, rest))
    (more : Bytes) : tagAt (bs ++ more) = some (tag, rest ++ more) := by
  obtain ⟨n, read, nonzero, rfl⟩ := tagAt_eq_some found
  exact tagAt_of_ne_zero (readBase128_append read more) nonzero

theorem scalarAt_append {type : WireType} {bs rest : Bytes} {payload : Payload}
    (found : scalarAt type bs = some (payload, rest)) (complete : payload.Complete) (more : Bytes) :
    scalarAt type (bs ++ more) = some (payload, rest ++ more) := by
  cases type with
  | varint =>
      obtain ⟨⟨n, rest'⟩, read, same⟩ := Option.map_eq_some_iff.mp found
      simp only [Prod.mk.injEq] at same
      obtain ⟨rfl, rfl⟩ := same
      rw [scalarAt, readBase128_append read, Option.map_some]
  | fixed64 =>
      obtain ⟨⟨content, rest'⟩, taken, same⟩ := Option.map_eq_some_iff.mp found
      simp only [Prod.mk.injEq] at same
      obtain ⟨rfl, rfl⟩ := same
      rw [scalarAt, takeBytes_append taken, Option.map_some]
  | lengthDelimited =>
      obtain ⟨⟨n, rest'⟩, read, same⟩ := Option.map_eq_some_iff.mp found
      simp only [Prod.mk.injEq] at same
      obtain ⟨rfl, rfl⟩ := same
      have there : n % 2 ^ 32 ≤ rest'.length := by
        have := complete
        simp only [Payload.Complete, List.length_take] at this
        omega
      rw [scalarAt, readBase128_append read, Option.map_some]
      simp only [List.take_append_of_le_length there, List.drop_append_of_le_length there]
  | fixed32 =>
      obtain ⟨⟨content, rest'⟩, taken, same⟩ := Option.map_eq_some_iff.mp found
      simp only [Prod.mk.injEq] at same
      obtain ⟨rfl, rfl⟩ := same
      rw [scalarAt, takeBytes_append taken, Option.map_some]
  | startGroup => cases found
  | endGroup => cases found

theorem groupWithin_append {rounds depth number : Nat} {bs rest : Bytes}
    (found : groupWithin rounds depth number bs = some rest) (more : Bytes) :
    groupWithin rounds depth number (bs ++ more) = some (rest ++ more) := by
  induction rounds generalizing depth number bs rest with
  | zero => cases found
  | succ rounds ih =>
      rw [groupWithin] at found ⊢
      obtain ⟨⟨tag, behind⟩, tagFound, found⟩ := Option.bind_eq_some_iff.mp found
      rw [tagAt_append tagFound, Option.bind_some]
      dsimp only at found ⊢
      split at found
      case h_1 =>
        split at found
        case isTrue same =>
          cases found
          exact if_pos same
        case isFalse => cases found
      case h_2 =>
        split at found
        case h_1 => cases found
        case h_2 inner =>
          obtain ⟨later, innerFound, found⟩ := Option.bind_eq_some_iff.mp found
          rw [ih innerFound, Option.bind_some]
          exact ih found
      case h_3 type _ _ _ =>
        obtain ⟨⟨payload, later⟩, scalarFound, found⟩ := Option.bind_eq_some_iff.mp found
        dsimp only at found ⊢
        split at found
        case isTrue complete =>
          rw [scalarAt_append scalarFound complete, Option.bind_some]
          dsimp only
          rw [if_pos complete]
          exact ih found
        case isFalse => cases found
      case h_4 => cases found

theorem payloadAt_append {depth tag : Nat} {bs rest : Bytes} {payload : Payload}
    (found : payloadAt depth tag bs = some (payload, rest)) (complete : payload.Complete)
    (more : Bytes) : payloadAt depth tag (bs ++ more) = some (payload, rest ++ more) := by
  unfold payloadAt at found ⊢
  split at found
  case h_1 => cases found
  case h_2 =>
    split at found
    case h_1 => cases found
    case h_2 _ inner =>
      obtain ⟨later, groupFound, same⟩ := Option.map_eq_some_iff.mp found
      simp only [Prod.mk.injEq] at same
      obtain ⟨rfl, rfl⟩ := same
      have raised : groupWithin ((bs ++ more).length + 1) inner (tag / 8) bs = some later :=
        (groupWithin_eq (by rw [List.length_append]; omega)).trans groupFound
      rw [groupAt, groupWithin_append raised more, Option.map_some]
  case h_3 => exact scalarAt_append found complete more
  case h_4 => cases found

theorem recordAt_append {depth : Nat} {bs rest : Bytes} {record : Record}
    (found : recordAt depth bs = some (record, rest)) (complete : record.payload.Complete)
    (more : Bytes) : recordAt depth (bs ++ more) = some (record, rest ++ more) := by
  obtain ⟨⟨tag, behind⟩, tagFound, found⟩ := Option.bind_eq_some_iff.mp found
  obtain ⟨⟨payload, later⟩, payloadFound, same⟩ := Option.map_eq_some_iff.mp found
  simp only [Prod.mk.injEq] at same
  obtain ⟨rfl, rfl⟩ := same
  rw [recordAt, tagAt_append tagFound, Option.bind_some]
  dsimp only
  rw [payloadAt_append payloadFound complete, Option.map_some]

theorem recordAt_ne_nil {depth : Nat} {bs rest : Bytes} {record : Record}
    (found : recordAt depth bs = some (record, rest)) : bs ≠ [] := by
  intro empty
  have := length_recordAt found
  rw [empty, List.length_nil] at this
  omega

/-- A field and the fields behind it. -/
theorem records_recordAt {depth : Nat} {bs rest : Bytes} {record : Record}
    (found : recordAt depth bs = some (record, rest)) :
    records depth bs = (records depth rest).map (record :: ·) := by
  rw [records_of_ne_nil (recordAt_ne_nil found), found, Option.bind_some]

/-- Complete fields and what is behind them are parsed one after the other. -/
theorem records_append {depth : Nat} {bs : Bytes} {parsed : List Record}
    (found : records depth bs = some parsed) (complete : ∀ record ∈ parsed, record.payload.Complete)
    (more : Bytes) : records depth (bs ++ more) = (records depth more).map (parsed ++ ·) := by
  induction parsed generalizing bs with
  | nil =>
      cases bs with
      | nil => simp
      | cons b bs =>
          rw [records_of_ne_nil (by simp), Option.bind_eq_some_iff] at found
          obtain ⟨⟨record, rest⟩, -, found⟩ := found
          simp at found
  | cons record parsed ih =>
      cases bs with
      | nil => simp at found
      | cons b bs =>
          rw [records_of_ne_nil (by simp), Option.bind_eq_some_iff] at found
          obtain ⟨⟨record', rest⟩, recordFound, found⟩ := found
          obtain ⟨parsed', restFound, same⟩ := Option.map_eq_some_iff.mp found
          rw [List.cons.injEq] at same
          obtain ⟨rfl, rfl⟩ := same
          have here := recordAt_append recordFound (complete record' (by simp)) more
          rw [records_recordAt here, ih restFound fun record mem => complete record (by simp [mem]),
            Option.map_map]
          rfl

/-! ## Writing fields -/

/-- The tag of a field. -/
def encodeTag (number : Nat) (type : WireType) : Bytes := base128 (8 * number + type.code)

/-- A payload. -/
def Payload.encode : Payload → Bytes
  | varint n => base128 n
  | fixed64 bytes => bytes
  | delimited _ content => base128 content.length ++ content
  | group => []
  | fixed32 bytes => bytes

/-- A payload that can be written: a number with 64 bits, bytes with their length, but no
group. -/
def Payload.Valid : Payload → Prop
  | varint n => n < 2 ^ 64
  | fixed64 bytes => bytes.length = 8
  | delimited length content => content.length = length ∧ length < 2 ^ 32
  | group => False
  | fixed32 bytes => bytes.length = 4

/-- A field, behind its tag. -/
def Record.encode (record : Record) : Bytes :=
  encodeTag record.number record.payload.type ++ record.payload.encode

/-- A field that can be written. -/
structure Record.Valid (record : Record) : Prop where
  number_pos : 0 < record.number
  number_lt : record.number < 2 ^ 29
  payload : record.payload.Valid

theorem Payload.Valid.complete {payload : Payload} (valid : payload.Valid) : payload.Complete := by
  cases payload with
  | delimited length content => exact valid.1
  | varint | fixed64 | group | fixed32 => exact trivial

theorem tagAt_encodeTag {number : Nat} (positive : 0 < number) (small : number < 2 ^ 29)
    (type : WireType) (rest : Bytes) :
    tagAt (encodeTag number type ++ rest) = some (8 * number + type.code, rest) := by
  have code := type.code_lt
  have below : 8 * number + type.code < 128 ^ (9 + 1) := by omega
  have bits : (8 * number + type.code) % 2 ^ 32 = 8 * number + type.code := by omega
  have read : readBase128 mostBytes (encodeTag number type ++ rest) =
      some (8 * number + type.code, rest) := readBase128_base128 below rest
  rw [tagAt_of_ne_zero read (by omega), bits]

/-- The tag of a field, taken apart. -/
theorem tag_parts (number : Nat) (type : WireType) :
    (8 * number + type.code) / 8 = number ∧
      WireType.ofCode ((8 * number + type.code) % 8) = some type := by
  have code := type.code_lt
  have low : (8 * number + type.code) % 8 = type.code := by omega
  exact ⟨by omega, by rw [low, type.ofCode_code]⟩

theorem takeBytes_length (content rest : Bytes) :
    takeBytes content.length (content ++ rest) = some (content, rest) := by
  rw [takeBytes, if_pos (by rw [List.length_append]; omega), List.take_left, List.drop_left]

/-- A payload is read back. -/
theorem scalarAt_encode {payload : Payload} (valid : payload.Valid) (rest : Bytes) :
    scalarAt payload.type (payload.encode ++ rest) = some (payload, rest) := by
  cases payload with
  | varint n =>
      have fits : n < 128 ^ (9 + 1) := Nat.lt_trans valid (by decide)
      rw [Payload.type, Payload.encode, scalarAt, mostBytes, readBase128_base128 fits]
      rfl
  | fixed64 bytes =>
      rw [Payload.type, Payload.encode, scalarAt, ← show bytes.length = 8 from valid,
        takeBytes_length]
      rfl
  | delimited length content =>
      obtain ⟨rfl, below⟩ := valid
      have fits : content.length < 128 ^ (9 + 1) := by omega
      rw [Payload.type, Payload.encode, scalarAt, mostBytes, List.append_assoc,
        readBase128_base128 fits, Option.map_some]
      dsimp only
      rw [Nat.mod_eq_of_lt below, List.take_left, List.drop_left]
  | group => exact valid.elim
  | fixed32 bytes =>
      rw [Payload.type, Payload.encode, scalarAt, ← show bytes.length = 4 from valid,
        takeBytes_length]
      rfl

/-- A field is read back. -/
theorem recordAt_encode {record : Record} (valid : record.Valid) (depth : Nat) (rest : Bytes) :
    recordAt depth (record.encode ++ rest) = some (record, rest) := by
  obtain ⟨numberEq, typeEq⟩ := tag_parts record.number record.payload.type
  have scalar : record.payload.type ≠ .startGroup ∧ record.payload.type ≠ .endGroup := by
    have payload := valid.payload
    cases payloadEq : record.payload with
    | group =>
        rw [payloadEq] at payload
        exact payload.elim
    | varint | fixed64 | delimited | fixed32 => simp [Payload.type]
  rw [recordAt, Record.encode, List.append_assoc, tagAt_encodeTag valid.number_pos valid.number_lt,
    Option.bind_some]
  dsimp only
  rw [payloadAt_scalar typeEq scalar.1 scalar.2, scalarAt_encode valid.payload, numberEq]
  rfl

/-- Fields are read back, one after the other. -/
theorem records_encode {written : List Record} (valid : ∀ record ∈ written, record.Valid)
    (depth : Nat) : records depth (written.flatMap Record.encode) = some written := by
  induction written with
  | nil => rfl
  | cons record later ih =>
      rw [List.flatMap_cons, records_recordAt (recordAt_encode (valid record (by simp)) depth _),
        ih fun other mem => valid other (by simp [mem])]
      rfl

end Wire

end GPush.Protobuf
