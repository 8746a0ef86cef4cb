import GPush.ConnectServer.Peer
import GPush.Protobuf.RoundTrip

/-!
# The message classes of the servers

The generated classes for the messages of the servers and of the client SDK.  What one side
has written of a message, the other side parses.
-/

namespace GPush.ConnectServer

open GPush.Protobuf GPush.Protobuf.Wire

section Classes

variable {M α : Type}

/-- `ParseFromArray` and the accessors. -/
def parsed (type : MessageType M) (accessors : M → α) (bytes : Bytes) : Option α :=
  match type.parseFromArray bytes with
  | .ok m _ => some (accessors m)
  | _ => none

/-- `SerializeToString`. -/
def serialized (type : MessageType M) (m : M) : Bytes := (type.appendToString [] m).getD []

theorem parsed_serialized {type : MessageType M} {m : M}
    (small : type.byteSize m < defaultTotalBytesLimit)
    (deep : type.levels ≤ defaultRecursionLimit) (initialized : type.isInitialized m = true)
    (accessors : M → α) : parsed type accessors (serialized type m) = some (accessors m) := by
  obtain ⟨data, written, -, input, okEq⟩ := MessageType.parses_serialized small deep initialized
  rw [serialized, written, Option.getD_some, parsed, okEq]

end Classes

/-! ## Accessors and setters -/

theorem toInt_ofInt {n : Int} (bounds : -2 ^ 31 ≤ n ∧ n < 2 ^ 31) : (Int32.ofInt n).toInt = n := by
  rw [Int32.toInt_ofInt]
  exact Int.bmod_eq_of_le (by change -2147483648 ≤ n; omega) (by change n < 2147483648; omega)

/-- What the accessors of a `Pair` return. -/
def Pair.ofGim (m : Gim.Pair) : Pair := ⟨m.key.getD [], m.value.getD []⟩

/-- What the accessors of a `LoginRequest` return. -/
def LoginRequest.ofGim (m : Gim.LoginRequest) : LoginRequest where
  id := m.id.getD []
  type := (m.type.getD 0).toInt
  token := m.token.getD []
  version := m.version.getD []
  kvs := m.kvs.map Pair.ofGim

/-- A `LoginRequest` as a peer sets it. -/
def LoginFields.toGim (fields : LoginFields) : Gim.LoginRequest where
  id := some fields.id
  type := some (.ofInt fields.type)
  token := none
  version := fields.version
  kvs := []

/-- The login that arrives. -/
def LoginFields.received (fields : LoginFields) : LoginRequest :=
  ⟨fields.id, fields.type, [], fields.version.getD [], []⟩

/-- What the accessors of a `LoginResponse` return. -/
def LoginResponse.ofGim (m : Gim.LoginResponse) : LoginResponse :=
  ⟨(m.status.getD 0).toInt, m.sessid.getD []⟩

/-- A `LoginResponse` with both fields set. -/
def LoginResponse.toGim (lgresp : LoginResponse) : Gim.LoginResponse :=
  ⟨some (.ofInt lgresp.status), some lgresp.sessid⟩

/-- What the accessors of a `PushRequest` return. -/
def PushRequest.ofGim (m : Gim.PushRequest) : PushRequest where
  fromSessid := m.fromSessid.getD []
  toSessid := m.toSessid.getD []
  sn := m.sn.getD []
  type := (m.type.getD 0).toInt
  payload := m.payload.getD []

/-- A `PushRequest` with all fields set. -/
def PushRequest.toGim (svreq : PushRequest) : Gim.PushRequest where
  fromSessid := some svreq.fromSessid
  toSessid := some svreq.toSessid
  sn := some svreq.sn
  type := some (.ofInt svreq.type)
  payload := some svreq.payload

/-- What the accessors of a `PushResponse` return, and `has_to_sessid()`. -/
def PushResponse.ofGim (m : Gim.PushResponse) : PushResponse where
  fromSessid := m.fromSessid.getD []
  toSessid := m.toSessid
  sn := m.sn.getD []
  status := (m.status.getD 0).toInt

/-- A `PushResponse` with its fields set. -/
def PushResponse.toGim (svresp : PushResponse) : Gim.PushResponse where
  fromSessid := some svresp.fromSessid
  toSessid := svresp.toSessid
  sn := some svresp.sn
  status := some (.ofInt svresp.status)

/-- The generated message classes. -/
def gimCodec : PeerCodec where
  parseLoginRequest := parsed Gim.LoginRequest.messageType LoginRequest.ofGim
  parseLoginResponse := parsed Gim.LoginResponse.messageType LoginResponse.ofGim
  parsePushRequest := parsed Gim.PushRequest.messageType PushRequest.ofGim
  parsePushResponse := parsed Gim.PushResponse.messageType PushResponse.ofGim
  serializeLoginRequest fields := serialized Gim.LoginRequest.messageType fields.toGim
  serializeLoginResponse lgresp := serialized Gim.LoginResponse.messageType lgresp.toGim
  serializePushRequest svreq := serialized Gim.PushRequest.messageType svreq.toGim
  serializePushResponse svresp := serialized Gim.PushResponse.messageType svresp.toGim

/-- The classes without the limit that `SerializeToString` has: requests and responses of any
size are written. -/
def wireCodec : PeerCodec :=
  { gimCodec with
    serializePushRequest := fun svreq => Gim.PushRequest.messageType.encode svreq.toGim
    serializePushResponse := fun svresp => Gim.PushResponse.messageType.encode svresp.toGim }

/-! ## What arrives -/

theorem parseLoginRequest_serialize {fields : LoginFields}
    (typed : -2 ^ 31 ≤ fields.type ∧ fields.type < 2 ^ 31)
    (small : Gim.LoginRequest.messageType.byteSize fields.toGim < defaultTotalBytesLimit) :
    gimCodec.parseLoginRequest (gimCodec.serializeLoginRequest fields) = some fields.received := by
  have back := parsed_serialized small (by decide) rfl LoginRequest.ofGim
  rwa [LoginFields.toGim, LoginRequest.ofGim, Option.getD_some, Option.getD_some,
    toInt_ofInt typed] at back

theorem parseLoginResponse_serialize {lgresp : LoginResponse}
    (typed : -2 ^ 31 ≤ lgresp.status ∧ lgresp.status < 2 ^ 31)
    (small : Gim.LoginResponse.messageType.byteSize lgresp.toGim < defaultTotalBytesLimit) :
    gimCodec.parseLoginResponse (gimCodec.serializeLoginResponse lgresp) = some lgresp := by
  have back := parsed_serialized small (by decide) rfl LoginResponse.ofGim
  rwa [LoginResponse.toGim, LoginResponse.ofGim, Option.getD_some, Option.getD_some,
    toInt_ofInt typed] at back

theorem parsePushRequest_serialize {svreq : PushRequest}
    (typed : -2 ^ 31 ≤ svreq.type ∧ svreq.type < 2 ^ 31)
    (small : Gim.PushRequest.messageType.byteSize svreq.toGim < defaultTotalBytesLimit) :
    gimCodec.parsePushRequest (gimCodec.serializePushRequest svreq) = some svreq := by
  have back := parsed_serialized small (by decide) rfl PushRequest.ofGim
  rwa [PushRequest.toGim, PushRequest.ofGim, Option.getD_some, Option.getD_some, Option.getD_some,
    Option.getD_some, Option.getD_some, toInt_ofInt typed] at back

theorem parsePushResponse_serialize {svresp : PushResponse}
    (typed : -2 ^ 31 ≤ svresp.status ∧ svresp.status < 2 ^ 31)
    (small : Gim.PushResponse.messageType.byteSize svresp.toGim < defaultTotalBytesLimit) :
    gimCodec.parsePushResponse (gimCodec.serializePushResponse svresp) = some svresp := by
  have back := parsed_serialized small (by decide) rfl PushResponse.ofGim
  rwa [PushResponse.toGim, PushResponse.ofGim, Option.getD_some, Option.getD_some,
    Option.getD_some, toInt_ofInt typed] at back

/-- The bytes of a request with all its fields. -/
theorem serializePushRequest_eq (svreq : PushRequest) :
    wireCodec.serializePushRequest svreq =
      encodeTag 1 .lengthDelimited ++ (base128 svreq.fromSessid.length ++ svreq.fromSessid) ++
      (encodeTag 2 .lengthDelimited ++ (base128 svreq.toSessid.length ++ svreq.toSessid) ++
      (encodeTag 3 .lengthDelimited ++ (base128 svreq.sn.length ++ svreq.sn) ++
      (encodeTag 4 .varint ++ base128 (CodedOutputStream.signExtend (.ofInt svreq.type)).toNat ++
      (encodeTag 5 .lengthDelimited ++ (base128 svreq.payload.length ++ svreq.payload) ++ [])))) :=
  rfl

theorem serializePushResponse_ne_nil (svresp : PushResponse) :
    wireCodec.serializePushResponse svresp ≠ [] := by
  have front : ∃ rest, wireCodec.serializePushResponse svresp = encodeTag 1 .lengthDelimited ++
      (base128 svresp.fromSessid.length ++ svresp.fromSessid) ++ rest := by
    rcases svresp with ⟨fromSessid, _ | toSessid, sn, status⟩
    · exact ⟨_, rfl⟩
    · exact ⟨_, rfl⟩
  rcases front with ⟨rest, front⟩
  rw [front, List.append_assoc]
  exact List.append_ne_nil_of_left_ne_nil (base128_ne_nil _) _

/-- Within the limit both write the same. -/
theorem serializePushRequest_wireCodec {svreq : PushRequest}
    (fits : Gim.PushRequest.messageType.byteSize svreq.toGim ≤ intMax) :
    wireCodec.serializePushRequest svreq = gimCodec.serializePushRequest svreq := by
  change _ = serialized _ _
  rw [serialized, MessageType.appendToString_eq fits, List.nil_append, Option.getD_some]
  rfl

theorem serializePushResponse_wireCodec {svresp : PushResponse}
    (fits : Gim.PushResponse.messageType.byteSize svresp.toGim ≤ intMax) :
    wireCodec.serializePushResponse svresp = gimCodec.serializePushResponse svresp := by
  change _ = serialized _ _
  rw [serialized, MessageType.appendToString_eq fits, List.nil_append, Option.getD_some]
  rfl

/-! ## Messages of the runs on fixed inputs -/

/-- A login with an id and a type. -/
def loginBytes (user : Bytes) (type : Int) : Bytes :=
  gimCodec.serializeLoginRequest ⟨user, type, none⟩

/-- A push with a target, a serial number and a type. -/
def pushBytes (toSessid sn : Bytes) (type : Int) : Bytes :=
  gimCodec.serializePushRequest ⟨[], toSessid, sn, type, []⟩

end GPush.ConnectServer
