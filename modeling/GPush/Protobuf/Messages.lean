import GPush.Protobuf.MessageType

/-!
# The messages of the package `gim`

The classes of `pair.proto`, `gpush.proto`, `session.proto` and `message.proto`.  A field
that has not been set is `none`.
-/

namespace GPush.Protobuf.Gim

open WrittenField

/-- `Pair`. -/
structure Pair where
  key : Option Bytes
  value : Option Bytes
  deriving DecidableEq, Repr

namespace Pair

/-- `IsInitialized`. -/
def isInitialized (m : Pair) : Bool := m.key.isSome

/-- The class. -/
def messageType : MessageType Pair where
  fields := [
    single 1 .string Pair.key fun key m => { m with key := some key },
    single 2 .string Pair.value fun value m => { m with value := some value }]
  new := ⟨none, none⟩
  isInitialized := isInitialized
  distinct := by decide
  merge_new m := by rcases m with ⟨_ | _, _ | _⟩ <;> rfl

end Pair

/-- Values added one after the other to a list of a message. -/
theorem foldl_add {M α : Type} {add : α → M → M} (set : List α → M)
    (addEq : ∀ value values, add value (set values) = set (values ++ [value]))
    (front back : List α) :
    back.foldl (fun m value => add value m) (set front) = set (front ++ back) := by
  induction back generalizing front with
  | nil => rw [List.append_nil, List.foldl_nil]
  | cons value back ih => rw [List.foldl_cons, addEq, ih, List.append_assoc, List.singleton_append]

/-- `LoginRequest`. -/
structure LoginRequest where
  id : Option Bytes
  type : Option Int32
  token : Option Bytes
  version : Option Bytes
  kvs : List Pair
  deriving DecidableEq, Repr

namespace LoginRequest

/-- `IsInitialized`. -/
def isInitialized (m : LoginRequest) : Bool := m.id.isSome && m.kvs.all Pair.isInitialized

/-- The class. -/
def messageType : MessageType LoginRequest where
  fields := [
    single 1 .string LoginRequest.id fun id m => { m with id := some id },
    single 2 .int32 LoginRequest.type fun type m => { m with type := some type },
    single 3 .string LoginRequest.token fun token m => { m with token := some token },
    single 4 .string LoginRequest.version fun version m => { m with version := some version },
    many 5 (.message Pair.messageType) LoginRequest.kvs
      fun pair m => { m with kvs := m.kvs ++ [pair] }]
  new := ⟨none, none, none, none, []⟩
  isInitialized := isInitialized
  distinct := by decide
  merge_new m := by
    rcases m with ⟨_ | _, _ | _, _ | _, _ | _, kvs⟩ <;>
      exact foldl_add (LoginRequest.mk _ _ _ _) (fun _ _ => rfl) [] kvs

end LoginRequest

/-- `LoginResponse`. -/
structure LoginResponse where
  status : Option Int32
  sessid : Option Bytes
  deriving DecidableEq, Repr

namespace LoginResponse

/-- `IsInitialized`. -/
def isInitialized (m : LoginResponse) : Bool := m.status.isSome

/-- The class. -/
def messageType : MessageType LoginResponse where
  fields := [
    single 1 .int32 LoginResponse.status fun status m => { m with status := some status },
    single 2 .string LoginResponse.sessid fun sessid m => { m with sessid := some sessid }]
  new := ⟨none, none⟩
  isInitialized := isInitialized
  distinct := by decide
  merge_new m := by rcases m with ⟨_ | _, _ | _⟩ <;> rfl

end LoginResponse

/-- `PushRequest`. -/
structure PushRequest where
  fromSessid : Option Bytes
  toSessid : Option Bytes
  sn : Option Bytes
  type : Option Int32
  payload : Option Bytes
  deriving DecidableEq, Repr

namespace PushRequest

/-- `IsInitialized`. -/
def isInitialized (m : PushRequest) : Bool := m.sn.isSome && m.type.isSome

/-- The class. -/
def messageType : MessageType PushRequest where
  fields := [
    single 1 .string PushRequest.fromSessid fun sessid m => { m with fromSessid := some sessid },
    single 2 .string PushRequest.toSessid fun sessid m => { m with toSessid := some sessid },
    single 3 .string PushRequest.sn fun sn m => { m with sn := some sn },
    single 4 .int32 PushRequest.type fun type m => { m with type := some type },
    single 5 .string PushRequest.payload fun payload m => { m with payload := some payload }]
  new := ⟨none, none, none, none, none⟩
  isInitialized := isInitialized
  distinct := by decide
  merge_new m := by rcases m with ⟨_ | _, _ | _, _ | _, _ | _, _ | _⟩ <;> rfl

end PushRequest

/-- `PushResponse`. -/
structure PushResponse where
  fromSessid : Option Bytes
  toSessid : Option Bytes
  sn : Option Bytes
  status : Option Int32
  deriving DecidableEq, Repr

namespace PushResponse

/-- `IsInitialized`. -/
def isInitialized (m : PushResponse) : Bool := m.sn.isSome && m.status.isSome

/-- The class. -/
def messageType : MessageType PushResponse where
  fields := [
    single 1 .string PushResponse.fromSessid fun sessid m => { m with fromSessid := some sessid },
    single 2 .string PushResponse.toSessid fun sessid m => { m with toSessid := some sessid },
    single 3 .string PushResponse.sn fun sn m => { m with sn := some sn },
    single 4 .int32 PushResponse.status fun status m => { m with status := some status }]
  new := ⟨none, none, none, none⟩
  isInitialized := isInitialized
  distinct := by decide
  merge_new m := by rcases m with ⟨_ | _, _ | _, _ | _, _ | _⟩ <;> rfl

end PushResponse

/-- `Sess`. -/
structure Sess where
  id : Option Bytes
  type : Option Int32
  lasttime : Option Int64
  sessid : Option Bytes
  consvid : Option Int32
  version : Option Bytes
  kvs : List Pair
  deriving DecidableEq, Repr

namespace Sess

/-- `IsInitialized`. -/
def isInitialized (m : Sess) : Bool := m.kvs.all Pair.isInitialized

/-- The class. -/
def messageType : MessageType Sess where
  fields := [
    single 1 .string Sess.id fun id m => { m with id := some id },
    single 2 .int32 Sess.type fun type m => { m with type := some type },
    single 3 .int64 Sess.lasttime fun lasttime m => { m with lasttime := some lasttime },
    single 4 .string Sess.sessid fun sessid m => { m with sessid := some sessid },
    single 5 .int32 Sess.consvid fun consvid m => { m with consvid := some consvid },
    single 6 .string Sess.version fun version m => { m with version := some version },
    many 7 (.message Pair.messageType) Sess.kvs fun pair m => { m with kvs := m.kvs ++ [pair] }]
  new := ⟨none, none, none, none, none, none, []⟩
  isInitialized := isInitialized
  distinct := by decide
  merge_new m := by
    rcases m with ⟨_ | _, _ | _, _ | _, _ | _, _ | _, _ | _, kvs⟩ <;>
      exact foldl_add (Sess.mk _ _ _ _ _ _) (fun _ _ => rfl) [] kvs

end Sess

/-- `Message`. -/
structure Message where
  receiver : Option Bytes
  id : Option Int64
  time : Option Int64
  sender : Option Bytes
  type : Option Int32
  sn : Option Bytes
  data : Option Bytes
  expire : Option Int64
  deriving DecidableEq, Repr

namespace Message

/-- The class; its fields `to` and `from` are `receiver` and `sender` here. -/
def messageType : MessageType Message where
  fields := [
    single 1 .string Message.receiver fun receiver m => { m with receiver := some receiver },
    single 2 .int64 Message.id fun id m => { m with id := some id },
    single 3 .int64 Message.time fun time m => { m with time := some time },
    single 4 .string Message.sender fun sender m => { m with sender := some sender },
    single 5 .int32 Message.type fun type m => { m with type := some type },
    single 6 .string Message.sn fun sn m => { m with sn := some sn },
    single 7 .string Message.data fun data m => { m with data := some data },
    single 8 .int64 Message.expire fun expire m => { m with expire := some expire }]
  new := ⟨none, none, none, none, none, none, none, none⟩
  isInitialized _ := true
  distinct := by decide
  merge_new m := by
    rcases m with ⟨_ | _, _ | _, _ | _, _ | _, _ | _, _ | _, _ | _, _ | _⟩ <;> rfl

end Message

end GPush.Protobuf.Gim
