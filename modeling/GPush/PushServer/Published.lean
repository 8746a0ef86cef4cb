import GPush.ConnectServer.MessageClasses
import GPush.PushServer.Acknowledge

/-!
# Publishing a push

With the generated message classes, a push that a push server sends is published at the
client with its serial number and its payload, and the answer of the client is parsed as the
response to it.
-/

namespace GPush.PushServer

open GPush.ClientSdk GPush.Connection GPush.ConnectServer GPush.Protobuf GPush.Transition

/-- The response to a request takes no more bytes than the request. -/
theorem byteSize_responseTo (svreq : PushRequest) :
    Gim.PushResponse.messageType.byteSize (responseTo svreq).toGim ≤
      Gim.PushRequest.messageType.byteSize svreq.toGim := by
  let string (s : Bytes) : Nat := 1 + WireFormatLite.lengthDelimitedSize s.length
  let int32 (n : Int) : Nat := 1 + CodedOutputStream.varintSize32SignExtended (.ofInt n)
  have request : Gim.PushRequest.messageType.byteSize svreq.toGim =
      string svreq.fromSessid + (string svreq.toSessid + (string svreq.sn +
        (int32 svreq.type + (string svreq.payload + 0)))) := rfl
  have response : Gim.PushResponse.messageType.byteSize (responseTo svreq).toGim =
      string svreq.toSessid + (string svreq.fromSessid + (string svreq.sn + (int32 0 + 0))) := rfl
  have status : int32 0 = 2 := by decide
  have type : 2 ≤ int32 svreq.type := by
    have positive := length_base128_pos (CodedOutputStream.signExtend (.ofInt svreq.type)).toNat
    rw [← CodedOutputStream.varintSize32SignExtended_eq] at positive
    exact Nat.add_le_add_left positive 1
  omega

/-- What the client does with a request that it parses. -/
theorem acts_handleServiceRequest {codec : PeerCodec} {c : CliConn} {net : Net} {reqbody : Bytes}
    {svreq : PushRequest} (parsed : codec.parsePushRequest reqbody = some svreq) :
    ∃ later, (c.handleServiceRequest codec net reqbody).acts =
      .publish (.push c.cid svreq.sn svreq.payload) :: later := by
  rw [CliConn.handleServiceRequest, parsed]
  exact ⟨_, rfl⟩

/-- The server has answered the registration of a push server at `h` and the login of a client
at `h'`.  A push to the client whose packet has at most 1 MiB is queued for its connection; with
the generated classes the client publishes the serial number and the payload of the push, and a
packet that it sends is the response with that serial number, addressed to the session of the
push server. -/
theorem push_published {serv : ServerConfig} {s s' : Server} {h h' : Handle} {con : SvCon}
    {req : PushRequest} {v : Visit} (idLower : -2 ^ 31 ≤ serv.ID) (idUpper : serv.ID < 2 ^ 31)
    (typed : -2 ^ 31 ≤ req.type ∧ req.type < 2 ^ 31)
    (small : sizeofHead + Gim.PushRequest.messageType.byteSize (con.stamped req).toGim ≤ maxLen)
    (registered : Server.Granted gimCodec.toCodec serv h con.sessid s)
    (loggedIn : Server.Granted gimCodec.toCodec serv h' req.toSessid s)
    (isServer : ∀ e, s.table.conns h = some e → 0 ≤ e.data.sess.type)
    (sent : v.packet.bytes = con.sendPushRequest gimCodec req)
    (taken : Server.Step gimCodec.toCodec serv s (.packet h v) s') :
    ∃ e' l' body, s.table.conns h' = some e' ∧ e'.place = .added l' ∧
      Queues s s' l' ⟨e'.id, pushReq, body⟩ ∧
      ∀ (client : CliConn) (net : Net),
        (∃ later, (client.handleServiceRequest gimCodec net body).acts =
          .publish (.push client.cid req.sn req.payload) :: later) ∧
        ∀ packet, .tcpSend packet ∈ (client.handleServiceRequest gimCodec net body).acts →
          ∃ answer, packet = peerBytes pushResp answer ∧
            gimCodec.parsePushResponse answer =
              some ⟨req.toSessid, some con.sessid, req.sn, 0⟩ := by
  have below : Gim.PushRequest.messageType.byteSize (con.stamped req).toGim <
      defaultTotalBytesLimit :=
    Nat.lt_of_le_of_lt (Nat.le_trans (Nat.le_add_left _ _) small) (by decide)
  have requestBack : gimCodec.parsePushRequest (gimCodec.serializePushRequest (con.stamped req)) =
      some (con.stamped req) := parsePushRequest_serialize typed below
  have accepted : (-2 ^ 31 : Int) ≤ 0 ∧ (0 : Int) < 2 ^ 31 := by decide
  have responseBack : gimCodec.parsePushResponse
      (gimCodec.serializePushResponse (responseTo (con.stamped req))) =
        some (responseTo (con.stamped req)) := parsePushResponse_serialize accepted
    (Nat.lt_of_le_of_lt (byteSize_responseTo _) below)
  rcases registered.connection with ⟨e, l, found, added, -⟩
  rcases loggedIn.connection with ⟨e', l', found', added', session'⟩
  refine ⟨e', l', gimCodec.serializePushRequest (con.stamped req), found', added', ?_, ?_⟩
  · have addressed : Server.HasSession e'.data (con.stamped req).toSessid := session'
    exact queues_push registered.reachable idLower idUpper found found' added' taken
      (isServer e found) addressed sent requestBack
  · intro client net
    have published : ∃ later, (client.handleServiceRequest gimCodec net _).acts =
        .publish (.push client.cid (con.stamped req).sn (con.stamped req).payload) :: later :=
      acts_handleServiceRequest requestBack
    refine ⟨published, fun packet packetSent => ?_⟩
    exact ⟨_, tcpSend_handleServiceRequest requestBack packetSent, responseBack⟩

/-- A push server registers, a client logs in, and the client publishes a push. -/
theorem push_published_client : ∃ s s' e' l' body,
    Server.Granted gimCodec.toCodec twoLoops 0 serverSessid s ∧
      Server.Granted gimCodec.toCodec twoLoops 1 clientSessid s ∧
      s.table.conns 1 = some e' ∧ Queues s s' l' ⟨e'.id, pushReq, body⟩ ∧
      ∀ (client : CliConn) (net : Net), ∃ later,
        (client.handleServiceRequest gimCodec net body).acts =
          .publish (.push client.cid [49] []) :: later := by
  let opened : Server := ⟨bothOpened, fun _ => []⟩
  let registers := arrives loginReq (gimCodec.serializeLoginRequest ⟨[55], 12, none⟩)
    (by decide +kernel)
  let logsIn := arrives loginReq (gimCodec.serializeLoginRequest ⟨[99], -1, some [118]⟩)
    (by decide +kernel)
  let registered := opened.handle gimCodec.toCodec twoLoops 0 serverEntry registers
  have granted : Server.Granted gimCodec.toCodec twoLoops 0 serverSessid registered :=
    .answer reachable_bothOpened rfl rfl (by decide +kernel) (by decide +kernel)
  let both := registered.handle gimCodec.toCodec twoLoops 1 clientEntry logsIn
  have step : Server.Step gimCodec.toCodec twoLoops registered (.packet 1 logsIn) both :=
    .packet (l := 0) rfl rfl
  have grantedServer : Server.Granted gimCodec.toCodec twoLoops 0 serverSessid both :=
    .later granted (by simp) step
  have grantedClient : Server.Granted gimCodec.toCodec twoLoops 1 clientSessid both :=
    .answer (l := 0) granted.reachable rfl rfl (by decide +kernel) (by decide +kernel)
  let pushes := arrives pushReq (gimCodec.serializePushRequest (registeredCon.stamped pushToClient))
    (by decide +kernel)
  let serverCon :=
    (turn gimCodec.toCodec twoLoops 1000001 (.init serverPort) registers).handled.con
  let pushed := both.handle gimCodec.toCodec twoLoops 0 ⟨1000001, .added 1, serverCon⟩ pushes
  have pushStep : Server.Step gimCodec.toCodec twoLoops both (.packet 0 pushes) pushed :=
    .packet (l := 1) rfl rfl
  have isServer : ∀ e, both.table.conns 0 = some e → 0 ≤ e.data.sess.type := by
    intro e found
    have foundCon : both.table.conns 0 = some ⟨1000001, .added 1, serverCon⟩ := rfl
    rw [Option.some.inj (found.symm.trans foundCon)]
    decide +kernel
  rcases push_published (by decide) (by decide) (by decide) (by decide +kernel) grantedServer
    grantedClient isServer rfl pushStep with ⟨e', l', body, found', -, request, published⟩
  exact ⟨both, pushed, e', l', body, grantedServer, grantedClient, found', request,
    fun client net => (published client net).1⟩

end GPush.PushServer
