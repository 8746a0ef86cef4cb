import GPush.Connection.Framing
import GPush.ConnectServer.MessageClasses
import GPush.PushServer.Acknowledge
import GPush.PushServer.Decimal

/-!
# Relaying a push

`ListenCon` reads a push from JSON and sends it to the connect server of every session of the
user, as a protobuf message with the two session ids.  Whether that fits in a packet depends
on more than on the length of the request.
-/

namespace GPush.PushServer

open GPush.Connection GPush.ConnectServer GPush.Framing GPush.Json GPush.Protobuf

/-! ## The handler -/

/-- What `handlePushReqeust` finds: `Json::Reader::parse`, the conversion of a `double`, the
lookup of the session cache if there is one, the connections of `Svlist::getServer`, and the
results of its calls of `SvCon::sendMessage`. -/
structure Services where
  parse : Bytes → Option Value
  realToInt : UInt64 → Option Int
  cache : Option (Bytes → List Sess)
  servers : Int → Option SvCon
  sendMessage : Nat → Int

/-- What a call of `handlePushReqeust` answers, and the packets it sends to connect
servers. -/
structure Handled where
  ret : Int
  resp : Value
  sent : List Bytes

/-- A response without success. -/
def errorResp (front : List (String × Value)) (status : Int) (message : String) : Value :=
  .object (putMember "message" (.string (ascii message)) (putMember "status" (.int status) front))

namespace Services

variable (codec : PeerCodec) (svc : Services)

/-- The request, with what `v["sn"]` is. -/
def readRequest (v : Value) : Option (PushRequest × Value) := do
  let sn ← v.get "sn"
  let type ← (← v.get "type").asInt svc.realToInt
  let payload ← (← v.get "payload").asString
  let snText ← sn.asString
  return (⟨[], [], snText, type, payload⟩, sn)

/-- `ListenCon::sendToServer`, the `n`th time: its result, and what it sends. -/
def sendToServer (n : Nat) (svid : Int) (preq : PushRequest) : Int × List Bytes :=
  match svc.servers svid with
  | none => (-1, [])
  | some s => (svc.sendMessage n, [s.sendPushRequest codec preq])

/-- The loop over the sessions, from the `n`th on. -/
def relayLoop (preq : PushRequest) : Nat → List Sess → Int × List Bytes
  | _, [] => (0, [])
  | n, ss :: sv =>
      let (ret, msgs) := svc.sendToServer codec n ss.consvid { preq with toSessid := ss.sessid }
      let (count, later) := relayLoop preq (n + 1) sv
      (if 0 ≤ ret then count + 1 else count, msgs ++ later)

/-- `ListenCon::handlePushReqeust`; `none` is an assertion of a `Json::Value`. -/
def handlePushReqeust (req : Bytes) : Option Handled :=
  match svc.parse req with
  | none => some ⟨-1, errorResp [("status", .int 0)] (-1) "parse req fail", []⟩
  | some v =>
      (svc.readRequest v).bind fun (preq, sn) =>
        let respv := [("status", .int 0), ("sn", sn)]
        match svc.cache with
        | none => some ⟨-2, errorResp respv (-2) "get sess cache fail", []⟩
        | some getSession =>
            (v.get "to_id").bind fun toId =>
              if toId.isString = false then
                some ⟨-4, errorResp respv (-4) "to_id is empty", []⟩
              else
                toId.asString.bind fun id =>
                  if getSession id = [] then
                    some ⟨-3, errorResp respv (-3) "user offline", []⟩
                  else
                    let (count, sent) := svc.relayLoop codec preq 0 (getSession id)
                    some ⟨count, .object (putMember "count" (.int count) respv), sent⟩

end Services

/-! ## Sizes -/

/-- The size of a string field whose number is less than 16. -/
def stringFieldSize (s : Bytes) : Nat := 1 + (base128 s.length).length + s.length

/-- The size of an `int32` field. -/
def int32FieldSize (n : Int) : Nat :=
  1 + (base128 (CodedOutputStream.signExtend (.ofInt n)).toNat).length

/-- The size of a `PushRequest` that has all its fields. -/
def pushRequestSize (preq : PushRequest) : Nat :=
  stringFieldSize preq.fromSessid + stringFieldSize preq.toSessid + stringFieldSize preq.sn +
    int32FieldSize preq.type + stringFieldSize preq.payload

/-- What `SerializeToString` makes of a request with all its fields has this size. -/
def Sized (codec : PeerCodec) : Prop :=
  ∀ preq, (codec.serializePushRequest preq).length = pushRequestSize preq

/-- The connect server reads the packet as a frame. -/
def Fits (msg : Bytes) : Prop := msg.length ≤ maxLen ∧ packetHeader msg = .frame msg.length

/-- No packet breaks the link to a connect server. -/
def Handled.KeepsLinks (handled : Handled) : Prop := ∀ msg ∈ handled.sent, Fits msg

/-- A push for a session, and the connection to its connect server. -/
structure Services.Pushes (svc : Services) (req : Bytes) (preq : PushRequest) (ss : Sess)
    (s : SvCon) : Prop where
  request : ∃ v sn getSession id, svc.parse req = some v ∧ svc.readRequest v = some (preq, sn) ∧
    svc.cache = some getSession ∧ v.get "to_id" = some (.string id) ∧ ss ∈ getSession id
  server : svc.servers ss.consvid = some s

/-- The strings of the request, the session ids and the encoded type leave room for the
header, for every session of the user whose connect server is connected. -/
def Services.LeavesRoom (svc : Services) (req : Bytes) : Prop :=
  ∀ preq ss s, svc.Pushes req preq ss s →
    stringFieldSize s.sessid + stringFieldSize ss.sessid + stringFieldSize preq.sn +
      int32FieldSize preq.type + stringFieldSize preq.payload ≤ maxLen - sizeofHead

theorem headLen_peerBytes {cmd : Int} {body : Bytes} (short : sizeofHead + body.length < 2 ^ 31) :
    headLen (peerBytes cmd body) = ((peerBytes cmd body).length : Int) := by
  have inRange := beInt32_htonl (n := sizeofHead + body.length) (by omega) (by exact_mod_cast short)
  rw [headLen, length_peerBytes, peerBytes, List.append_assoc, List.append_assoc,
    List.drop_left' (length_htonl magicNumber), List.take_left' (length_htonl _), inRange]
  rfl

/-- A packet fits exactly when its length does. -/
theorem fits_peerBytes_iff {cmd : Int} {body : Bytes} :
    Fits (peerBytes cmd body) ↔ body.length ≤ maxLen - sizeofHead := by
  have lengthEq := length_peerBytes cmd body
  constructor
  · rintro ⟨short, -⟩
    rw [lengthEq] at short
    simp only [sizeofHead, maxLen] at short ⊢
    omega
  · intro short
    have upper : (peerBytes cmd body).length ≤ maxLen := by
      simp only [sizeofHead, maxLen] at short lengthEq ⊢
      omega
    have inRange : sizeofHead + body.length < 2 ^ 31 := by
      simp only [sizeofHead, maxLen] at short ⊢
      omega
    refine ⟨upper, ?_⟩
    rw [packetHeader, if_neg (by omega), headLen_peerBytes inRange, if_neg (by omega),
      if_pos (Int.le_refl _)]
    rfl

/-- A longer one is answered with -1. -/
theorem packetHeader_peerBytes_of_long {cmd : Int} {body : Bytes}
    (long : maxLen < sizeofHead + body.length) (inRange : sizeofHead + body.length < 2 ^ 31) :
    packetHeader (peerBytes cmd body) = .invalid := by
  have lengthEq := length_peerBytes cmd body
  rw [packetHeader, if_neg (by omega), headLen_peerBytes inRange, if_pos (Or.inr (by omega))]

theorem mem_relayLoop {codec : PeerCodec} {svc : Services} {preq : PushRequest} {n : Nat}
    {sv : List Sess} {msg : Bytes} :
    msg ∈ (svc.relayLoop codec preq n sv).2 ↔ ∃ ss ∈ sv, ∃ s, svc.servers ss.consvid = some s ∧
      msg = s.sendPushRequest codec { preq with toSessid := ss.sessid } := by
  induction sv generalizing n with
  | nil => simp [Services.relayLoop]
  | cons ss sv ih =>
      rw [Services.relayLoop]
      simp only [List.mem_append, ih, List.exists_mem_cons_iff, Services.sendToServer]
      cases svc.servers ss.consvid with
      | none => simp
      | some s => simp

/-- What is sent is a push for a session of the user. -/
theorem pushes_of_sent {codec : PeerCodec} {svc : Services} {req msg : Bytes} {handled : Handled}
    (handledEq : svc.handlePushReqeust codec req = some handled) (sent : msg ∈ handled.sent) :
    ∃ preq ss s, svc.Pushes req preq ss s ∧
      msg = s.sendPushRequest codec { preq with toSessid := ss.sessid } := by
  rw [Services.handlePushReqeust] at handledEq
  cases parsed : svc.parse req with
  | none =>
      rw [parsed] at handledEq
      rw [← Option.some.inj handledEq] at sent
      cases sent
  | some v =>
      rw [parsed] at handledEq
      rcases Option.bind_eq_some_iff.mp handledEq with ⟨⟨preq, sn⟩, readEq, answered⟩
      cases cacheEq : svc.cache with
      | none =>
          simp only [cacheEq] at answered
          rw [← Option.some.inj answered] at sent
          cases sent
      | some getSession =>
          simp only [cacheEq] at answered
          rcases Option.bind_eq_some_iff.mp answered with ⟨toId, toIdEq, answered⟩
          split_ifs at answered with noString
          · rw [← Option.some.inj answered] at sent
            cases sent
          · rcases Option.bind_eq_some_iff.mp answered with ⟨id, idEq, answered⟩
            split_ifs at answered with offline
            · rw [← Option.some.inj answered] at sent
              cases sent
            · rw [← Option.some.inj answered] at sent
              rcases mem_relayLoop.mp sent with ⟨ss, found, s, server, msgEq⟩
              obtain rfl : toId = .string id := by
                cases toId <;> simp_all [Value.isString, Value.asString]
              exact ⟨preq, ss, s, ⟨⟨v, sn, getSession, id, parsed, readEq, cacheEq, toIdEq, found⟩,
                server⟩, msgEq⟩

/-- Every such push is sent. -/
theorem sent_of_pushes {svc : Services} {req : Bytes} {preq : PushRequest} {ss : Sess} {s : SvCon}
    (pushes : svc.Pushes req preq ss s) (codec : PeerCodec) :
    ∃ handled, svc.handlePushReqeust codec req = some handled ∧
      s.sendPushRequest codec { preq with toSessid := ss.sessid } ∈ handled.sent := by
  rcases pushes.request with ⟨v, sn, getSession, id, parsed, readEq, cacheEq, toIdEq, found⟩
  have online : getSession id ≠ [] := List.ne_nil_of_mem found
  have handledEq : svc.handlePushReqeust codec req =
      some ⟨(svc.relayLoop codec preq 0 (getSession id)).1,
        .object (putMember "count" (.int (svc.relayLoop codec preq 0 (getSession id)).1)
          [("status", .int 0), ("sn", sn)]), (svc.relayLoop codec preq 0 (getSession id)).2⟩ := by
    simp [Services.handlePushReqeust, parsed, readEq, cacheEq, toIdEq, Value.isString,
      Value.asString, online]
  exact ⟨_, handledEq, mem_relayLoop.mpr ⟨ss, found, s, pushes.server, rfl⟩⟩

/-- A packet fits when there is room for its strings. -/
theorem fits_sendPushRequest_iff {codec : PeerCodec} (sized : Sized codec) (s : SvCon)
    (preq : PushRequest) (toSessid : Bytes) :
    Fits (s.sendPushRequest codec { preq with toSessid := toSessid }) ↔
      stringFieldSize s.sessid + stringFieldSize toSessid + stringFieldSize preq.sn +
        int32FieldSize preq.type + stringFieldSize preq.payload ≤ maxLen - sizeofHead := by
  rw [SvCon.sendPushRequest, fits_peerBytes_iff, sized, pushRequestSize, SvCon.stamped]

theorem leavesRoom_of_keepsLinks {codec : PeerCodec} (sized : Sized codec) {svc : Services}
    {req : Bytes} (keeps : ∀ handled, svc.handlePushReqeust codec req = some handled →
      handled.KeepsLinks) : svc.LeavesRoom req := by
  intro preq ss s pushes
  rcases sent_of_pushes pushes codec with ⟨handled, handledEq, sent⟩
  exact (fits_sendPushRequest_iff sized s preq ss.sessid).mp (keeps handled handledEq _ sent)

theorem keepsLinks_of_leavesRoom {codec : PeerCodec} (sized : Sized codec) {svc : Services}
    {req : Bytes} (room : svc.LeavesRoom req) {handled : Handled}
    (handledEq : svc.handlePushReqeust codec req = some handled) : handled.KeepsLinks := by
  intro msg sent
  rcases pushes_of_sent handledEq sent with ⟨preq, ss, s, pushes, rfl⟩
  exact (fits_sendPushRequest_iff sized s preq ss.sessid).mpr (room preq ss s pushes)

/-- No push breaks a link exactly when its strings leave room for the header. -/
theorem keepsLinks_iff_leavesRoom {codec : PeerCodec} (sized : Sized codec) (svc : Services)
    (req : Bytes) :
    (∀ handled, svc.handlePushReqeust codec req = some handled → handled.KeepsLinks) ↔
      svc.LeavesRoom req :=
  ⟨leavesRoom_of_keepsLinks sized, fun room _ => keepsLinks_of_leavesRoom sized room⟩

/-! ## A request near the limit -/

/-- `JSON_PUSH_REQ`. -/
def jsonPushReq : Int := 600

theorem sized_wireCodec : Sized wireCodec := by
  intro preq
  have tag {number : Nat} {type : WireType} (small : 8 * number + type.code < 128) :
      (Wire.encodeTag number type).length = 1 := length_base128_of_lt small
  have tags : ∀ number < 15, (Wire.encodeTag number .lengthDelimited).length = 1 :=
    fun number small => tag (by simp only [WireType.code]; omega)
  simp only [serializePushRequest_eq, pushRequestSize, stringFieldSize, int32FieldSize,
    List.length_append, List.length_nil, tags 1 (by decide), tags 2 (by decide),
    tags 3 (by decide), tags 5 (by decide), tag (by decide : 8 * 4 + WireType.varint.code < 128)]
  omega

/-- The generated classes write this many bytes, up to their limit. -/
theorem length_serializePushRequest {preq : PushRequest}
    (fits : Gim.PushRequest.messageType.byteSize preq.toGim ≤ intMax) :
    (gimCodec.serializePushRequest preq).length = pushRequestSize preq := by
  rw [← serializePushRequest_wireCodec fits, sized_wireCodec]

/-- A payload of `n` characters. -/
def payloadOf (n : Nat) : Bytes := List.replicate n 97

/-- The push of it to the user `u`. -/
def jsonText (n : Nat) : Bytes :=
  ascii "\x7b\"sn\":\"1\",\"to_id\":\"u\",\"payload\":\"" ++ payloadOf n ++ ascii "\"\x7d"

/-- The session of `u` at the connect server 1. -/
def sessOfU : Sess := ⟨[117], -1, 0, ConnectServer.decorationName 1 5 [117], 1, [], []⟩

/-- The connection to it of the push server 1. -/
def linkTo1 : SvCon := ⟨1, .connected, .login, ConnectServer.decorationName 1 6 [49], true⟩

/-- A push server with this connection, which finds this session. -/
def servicesOf (n : Nat) : Services where
  parse req :=
    if req = jsonText n then
      some (.object [("payload", .string (payloadOf n)), ("sn", .string [49]),
        ("to_id", .string [117])])
    else
      none
  realToInt _ := none
  cache := some fun id => if id = [117] then [sessOfU] else []
  servers svid := if svid = 1 then some linkTo1 else none
  sendMessage _ := 0

/-- The request that is sent on. -/
def pushOf (n : Nat) : PushRequest := ⟨[], [], [49], 0, payloadOf n⟩

theorem readRequest_sample (n : Nat) :
    (servicesOf n).readRequest (.object [("payload", .string (payloadOf n)), ("sn", .string [49]),
      ("to_id", .string [117])]) = some (pushOf n, .string [49]) := by
  simp [Services.readRequest, Value.get, Value.asInt, Value.asString, List.lookup_cons, pushOf]

theorem pushes_sample {n : Nat} {preq : PushRequest} {ss : Sess} {s : SvCon} :
    (servicesOf n).Pushes (jsonText n) preq ss s ↔
      preq = pushOf n ∧ ss = sessOfU ∧ s = linkTo1 := by
  constructor
  · rintro ⟨⟨v, sn, getSession, id, parsed, readEq, cacheEq, toIdEq, found⟩, server⟩
    obtain rfl := Option.some.inj ((if_pos rfl).symm.trans parsed)
    rw [readRequest_sample] at readEq
    obtain rfl := (Prod.mk.inj (Option.some.inj readEq)).1
    obtain rfl := Option.some.inj cacheEq
    have idEq : id = [117] := by
      simpa [Value.get, List.lookup_cons] using toIdEq.symm
    subst idEq
    obtain rfl : ss = sessOfU := by simpa using found
    exact ⟨rfl, rfl, (Option.some.inj server).symm⟩
  · rintro ⟨rfl, rfl, rfl⟩
    refine ⟨⟨_, _, _, [117], if_pos rfl, readRequest_sample n, rfl, ?_, ?_⟩, rfl⟩
    · simp [Value.get, List.lookup_cons]
    · simp

/-- All but the payload takes 36 bytes with the tags. -/
theorem room_sample (n : Nat) :
    stringFieldSize linkTo1.sessid + stringFieldSize sessOfU.sessid +
      stringFieldSize (pushOf n).sn + int32FieldSize (pushOf n).type +
      stringFieldSize (pushOf n).payload = 36 + (base128 n).length + n := by
  have fixed : stringFieldSize linkTo1.sessid + stringFieldSize sessOfU.sessid +
      stringFieldSize [49] + int32FieldSize 0 = 35 := by
    have small {s : Bytes} (short : s.length < 128) : stringFieldSize s = 2 + s.length := by
      rw [stringFieldSize, length_base128_of_lt short]
    have type : int32FieldSize 0 = 2 := by
      rw [int32FieldSize, length_base128_of_lt (by decide)]
    rw [small (by decide), small (by decide), small (by decide), type]
    decide
  have snEq : (pushOf n).sn = [49] := rfl
  have typeEq : (pushOf n).type = 0 := rfl
  have payload : stringFieldSize (pushOf n).payload = 1 + (base128 n).length + n := by
    simp only [pushOf, payloadOf, stringFieldSize, List.length_replicate]
  rw [snEq, typeEq, fixed, payload]
  omega

theorem leavesRoom_sample {n : Nat} (short : 36 + (base128 n).length + n ≤ maxLen - sizeofHead) :
    (servicesOf n).LeavesRoom (jsonText n) := by
  intro preq ss s pushes
  obtain ⟨rfl, rfl, rfl⟩ := pushes_sample.mp pushes
  rw [room_sample]
  exact short

theorem keepsLinks_iff_leavesRoom_sample :
    ∃ handled, (servicesOf 3).handlePushReqeust wireCodec (jsonText 3) = some handled ∧
      handled.sent ≠ [] ∧ handled.KeepsLinks := by
  rcases sent_of_pushes (pushes_sample.mpr ⟨rfl, rfl, rfl⟩) wireCodec with
    ⟨handled, handledEq, sent⟩
  have room : (servicesOf 3).LeavesRoom (jsonText 3) := leavesRoom_sample (by
    rw [length_base128_of_lt (by decide)]
    decide)
  refine ⟨handled, handledEq, List.ne_nil_of_mem sent, ?_⟩
  exact (keepsLinks_iff_leavesRoom sized_wireCodec _ _).mpr room handled handledEq

theorem length_jsonText (n : Nat) : (jsonText n).length = 35 + n := by
  have front : (ascii "\x7b\"sn\":\"1\",\"to_id\":\"u\",\"payload\":\"").length = 33 := by
    decide
  have back : (ascii "\"\x7d").length = 2 := by decide
  simp only [jsonText, payloadOf, List.length_append, front, back, List.length_replicate]
  omega

theorem invalid_of_noRoom {n : Nat} (long : maxLen < sizeofHead + (36 + (base128 n).length + n))
    (inRange : sizeofHead + (36 + (base128 n).length + n) < 2 ^ 31) :
    packetHeader (linkTo1.sendPushRequest wireCodec
      { pushOf n with toSessid := sessOfU.sessid }) = .invalid := by
  have lengthEq := sized_wireCodec
    (linkTo1.stamped { pushOf n with toSessid := sessOfU.sessid })
  rw [pushRequestSize, SvCon.stamped, room_sample] at lengthEq
  apply packetHeader_peerBytes_of_long
  · rw [SvCon.stamped, lengthEq]
    exact long
  · rw [SvCon.stamped, lengthEq]
    exact inRange

/-- The request with 1048529 characters has the largest length that a packet may have.  The
push that is sent on is four bytes too long, and `checkLen` answers -1 to it. -/
theorem push_breaks_link :
    Fits (peerBytes jsonPushReq (jsonText 1048529)) ∧
      ∃ handled, (servicesOf 1048529).handlePushReqeust wireCodec (jsonText 1048529) =
        some handled ∧ (∃ msg ∈ handled.sent, packetHeader msg = .invalid) ∧
          ¬handled.KeepsLinks := by
  rcases sent_of_pushes (pushes_sample.mpr ⟨rfl, rfl, rfl⟩) wireCodec with
    ⟨handled, handledEq, sent⟩
  have lengthEq : (base128 1048529).length = 3 := Nat.le_antisymm
    (length_base128_le (by decide)) (lt_length_base128 (by decide))
  have invalid := @invalid_of_noRoom 1048529 (by rw [lengthEq]; decide) (by rw [lengthEq]; decide)
  constructor
  · rw [fits_peerBytes_iff, length_jsonText]
    decide
  · refine ⟨handled, handledEq, ⟨_, sent, invalid⟩, ?_⟩
    intro keeps
    have frame := (keeps _ sent).2
    rw [invalid] at frame
    cases frame

end GPush.PushServer
