import GPush.ClientSdk.CliConn
import GPush.ConnectServer.MessageClasses
import GPush.ConnectServer.Routing
import GPush.PushServer.Svlist

/-!
# Acknowledging a push

A push goes from a push server through the connect server to a client of the SDK, and the
response of the client comes back the same way.  The push server writes its own session id
into the request, the client turns the two session ids around, and the connect server finds
the loop and the connection of either in the session id that the packet is addressed to.
-/

namespace GPush.PushServer

open GPush.ClientSdk GPush.Connection GPush.ConnectServer GPush.Transition

namespace SvCon

/-- The request that `SvCon::sendPushRequest` makes. -/
def stamped (c : SvCon) (req : PushRequest) : PushRequest := { req with fromSessid := c.sessid }

/-- The message of `SvCon::sendPushRequest`. -/
def sendPushRequest (codec : PeerCodec) (c : SvCon) (req : PushRequest) : Bytes :=
  peerBytes pushReq (codec.serializePushRequest (c.stamped req))

end SvCon

/-- The response of `CliConn::handleServiceRequest`. -/
def responseTo (svreq : PushRequest) : PushResponse :=
  ⟨svreq.toSessid, some svreq.fromSessid, svreq.sn, 0⟩

/-- The one packet that `handleServiceRequest` tries to send. -/
theorem tcpSend_handleServiceRequest {codec : PeerCodec} {c : CliConn} {net : Net}
    {reqbody bytes : Bytes} {svreq : PushRequest}
    (parsed : codec.parsePushRequest reqbody = some svreq)
    (sent : .tcpSend bytes ∈ (c.handleServiceRequest codec net reqbody).acts) :
    bytes = peerBytes pushResp (codec.serializePushResponse (responseTo svreq)) := by
  have actsEq : (c.handleServiceRequest codec net reqbody).acts =
      publish net (.push c.cid svreq.sn svreq.payload) ++
        (c.sendPacket net pushResp (codec.serializePushResponse (responseTo svreq))).acts := by
    rw [CliConn.handleServiceRequest, parsed]
    rfl
  rw [actsEq] at sent
  rcases List.mem_append.mp sent with published | packet
  · rcases List.mem_cons.mp published with isEvent | isCall
    · cases isEvent
    · rcases List.mem_map.mp isCall with ⟨call, -, other⟩
      cases other
  · rw [CliConn.sendPacket, CliConn.send] at packet
    split_ifs at packet
    · cases packet
    · exact Act.tcpSend.inj (List.mem_singleton.mp packet)
    · exact Act.tcpSend.inj (List.mem_singleton.mp packet)

/-- The packet that arrives has the command and the body that were sent. -/
theorem packet_of_bytes {p : Packet} {cmd : Int} {body : Bytes} (lower : -2 ^ 31 ≤ cmd)
    (upper : cmd < 2 ^ 31) (bytesEq : p.bytes = peerBytes cmd body) : p.cmd = cmd ∧ p.body = body := by
  rw [Packet.cmd, Packet.body, bytesEq]
  exact ⟨cmd_peerBytes lower upper body, body_peerBytes cmd body⟩

section Exchange

variable {codec : Codec} {serv : ServerConfig} {s s' : Server} {h : Handle} {e : Entry CliCon}

/-- One operation is queued at the loop `l`. -/
def Queues (s s' : Server) (l : Nat) (op : SendMsgOp) : Prop :=
  s'.ops = Function.update s.ops l (s.ops l ++ [op])

/-- A session id is never empty. -/
theorem sessid_ne_nil {sessid : Bytes} (reachable : Reachable (Server.Step codec serv) .init s)
    (found : s.table.conns h = some e) (session : Server.HasSession e.data sessid) :
    sessid ≠ [] := by
  rintro rfl
  have named := ((Server.sound_of_reachable reachable).named h e found session.1).2
  have lengthEq := congrArg List.length (named.symm.trans session.2)
  simp [ConnectServer.decorationName, length_sessPrefix] at lengthEq

/-- A packet that queues one operation. -/
theorem queues_of_queued {v : Visit} {l : Nat} {op : SendMsgOp}
    (found : s.table.conns h = some e)
    (queuedEq : queued (e.data.handlePacket codec serv e.id v.env v.packet).effects = [(↑l, op)])
    (taken : Server.Step codec serv s (.packet h v) s') : Queues s s' l op := by
  cases taken with
  | packet foundHere added =>
      obtain rfl := Option.some.inj (foundHere.symm.trans found)
      have opsEq : queued (turn codec serv _ _ v).handled.effects = [(↑l, op)] := queuedEq
      rw [Queues, Server.handle]
      simp only [opsEq, Server.enqueue, List.foldl_cons, List.foldl_nil, Int.toNat_natCast]

section Routed

variable {h' : Handle} {e' : Entry CliCon} {l' : Nat} {v : Visit} {body : Bytes}
  (reachable : Reachable (Server.Step codec serv) .init s)
  (idLower : -2 ^ 31 ≤ serv.ID) (idUpper : serv.ID < 2 ^ 31)
  (found : s.table.conns h = some e) (found' : s.table.conns h' = some e')
  (added' : e'.place = .added l') (taken : Server.Step codec serv s (.packet h v) s')

include reachable idLower idUpper found found' added' taken

/-- A push to a session id is queued for its connection. -/
theorem queues_push {svreq : PushRequest} (isServer : 0 ≤ e.data.sess.type)
    (session : Server.HasSession e'.data svreq.toSessid)
    (sent : v.packet.bytes = peerBytes pushReq body)
    (parsed : codec.parsePushRequest body = some svreq) :
    Queues s s' l' ⟨e'.id, pushReq, body⟩ := by
  obtain ⟨isPush, bodyEq⟩ := packet_of_bytes (by decide) (by decide) sent
  have routed := Server.route_of_session reachable idLower idUpper found'
    (by rw [added', Place.loop]) session v.env.beyond
  apply queues_of_queued found _ taken
  rw [CliCon.queued_push isPush isServer (bodyEq.symm ▸ parsed) routed, bodyEq]

/-- So is the response to one. -/
theorem queues_response {svresp : PushResponse} {sessid : Bytes}
    (session : Server.HasSession e'.data sessid) (addressed : svresp.toSessid = some sessid)
    (sent : v.packet.bytes = peerBytes pushResp body)
    (parsed : codec.parsePushResponse body = some svresp) :
    Queues s s' l' ⟨e'.id, pushResp, body⟩ := by
  obtain ⟨isResp, bodyEq⟩ := packet_of_bytes (by decide) (by decide) sent
  have routed := Server.route_of_session reachable idLower idUpper found'
    (by rw [added', Place.loop]) session v.env.beyond
  have named := sessid_ne_nil reachable found' session
  apply queues_of_queued found _ taken
  rw [CliCon.queued_response isResp (bodyEq.symm ▸ parsed) addressed named routed, bodyEq]

end Routed

/-- The server has answered the registration of a push server at `h` and the login of a
client at `h'` with session ids, and both connections stay.  A request that the push server
sends to the client is queued once, for the connection of the client, and the response of
the client is queued once, for the connection of the push server, with the serial number of
the request and the two session ids turned around. -/
theorem push_acknowledged {codec : PeerCodec} {h' : Handle} {con : SvCon} {req : PushRequest}
    {client : CliConn} {net : Net} {v v' : Visit} {t t' : Server} {events : List Server.Event}
    (idLower : -2 ^ 31 ≤ serv.ID) (idUpper : serv.ID < 2 ^ 31)
    (requestBack : codec.parsePushRequest (codec.serializePushRequest (con.stamped req)) =
      some (con.stamped req))
    (responseBack : codec.parsePushResponse
      (codec.serializePushResponse (responseTo (con.stamped req))) =
        some (responseTo (con.stamped req)))
    (registered : Server.Granted codec.toCodec serv h con.sessid s)
    (loggedIn : Server.Granted codec.toCodec serv h' req.toSessid s)
    (isServer : ∀ e, s.table.conns h = some e → 0 ≤ e.data.sess.type)
    (sent : v.packet.bytes = con.sendPushRequest codec req)
    (taken : Server.Step codec.toCodec serv s (.packet h v) s')
    (traffic : Run (Server.Step codec.toCodec serv) (Server.StayOpen h h') s' events t)
    (answered : .tcpSend v'.packet.bytes ∈
      (client.handleServiceRequest codec net (codec.serializePushRequest (con.stamped req))).acts)
    (taken' : Server.Step codec.toCodec serv t (.packet h' v') t') :
    ∃ e l e' l' body, s.table.conns h = some e ∧ e.place = .added l ∧
      s.table.conns h' = some e' ∧ e'.place = .added l' ∧
      Queues s s' l' ⟨e'.id, pushReq, codec.serializePushRequest (con.stamped req)⟩ ∧
      Queues t t' l ⟨e.id, pushResp, body⟩ ∧
      codec.parsePushResponse body = some ⟨req.toSessid, some con.sessid, req.sn, 0⟩ := by
  rcases registered.connection with ⟨e, l, found, added, session⟩
  rcases loggedIn.connection with ⟨e', l', found', added', session'⟩
  have addressed : Server.HasSession e'.data (con.stamped req).toSessid := session'
  have whole : Run (Server.Step codec.toCodec serv) (Server.StayOpen h h') s
      (.packet h v :: events) t := by
    apply Run.cons _ taken traffic
    constructor
    · exact fun closes => by cases closes
    · exact fun closes => by cases closes
  have reached : Reachable (Server.Step codec.toCodec serv) .init t := by
    rcases registered.reachable with ⟨before, run⟩
    exact ⟨_, run.trans (whole.mono fun _ _ _ => trivial)⟩
  rcases Server.continues_of_run whole (fun _ _ stay => stay.1) found added session.1 with
    ⟨later, foundLater, continues⟩
  rcases Server.continues_of_run whole (fun _ _ stay => stay.2) found' added' session'.1 with
    ⟨later', foundLater', -⟩
  have sessionLater : Server.HasSession later.data con.sessid :=
    ⟨continues.status.trans session.1, continues.sessid.trans session.2⟩
  have answerEq := tcpSend_handleServiceRequest requestBack answered
  refine ⟨e, l, e', l', codec.serializePushResponse (responseTo (con.stamped req)), found, added,
    found', added', ?_, ?_, responseBack⟩
  · exact queues_push registered.reachable idLower idUpper found found' added' taken
      (isServer e found) addressed sent requestBack
  · rw [← continues.id]
    exact queues_response reached idLower idUpper foundLater' foundLater
      (continues.place.trans added) taken' sessionLater rfl answerEq responseBack

end Exchange

/-! ## An exchange -/

/-- The server of the run below, with two event loops. -/
def twoLoops : ServerConfig := ⟨1035, 2⟩

/-- Its port for push servers. -/
def serverPort : CliConfig := ⟨1, 1, 1, 1000⟩

/-- Its port for clients. -/
def clientPort : CliConfig := ⟨0, 1, -1000, 1⟩

/-- The session id of the push server 7. -/
def serverSessid : Bytes := ConnectServer.decorationName 1035 1000001 [55]

/-- The session id of the client 99. -/
def clientSessid : Bytes := ConnectServer.decorationName 1035 2 [99]

/-- A push to the client. -/
def pushToClient : PushRequest := ⟨[], clientSessid, [49], 0, []⟩

/-- The connection of the push server. -/
def registeredCon : SvCon := ⟨1035, .connected, .login, serverSessid, true⟩

/-- Both connections, before they log in. -/
def bothOpened : Table CliCon :=
  (Table.init.opened 0 (.init serverPort) serverPort).opened 1 (.init clientPort) clientPort

/-- The connection of the push server at the connect server. -/
def serverEntry : Entry CliCon := ⟨1000001, .added 1, .init serverPort⟩

/-- The connection of the client. -/
def clientEntry : Entry CliCon := ⟨2, .added 0, .init clientPort⟩

/-- A packet of a peer arrives. -/
def arrives (cmd : Int) (body : Bytes) (small : sizeofHead + body.length ≤ maxLen) : Visit :=
  ⟨sampleEnv 1, peerPacket cmd body small⟩

theorem reachable_bothOpened :
    Reachable (Server.Step gimCodec.toCodec twoLoops) .init ⟨bothOpened, fun _ => []⟩ := by
  have first : Run (Table.Step 2) Server.Fitting Table.init
      [.construct 0 (.init serverPort), .dispatch 0 serverPort, .add 0]
      (Table.init.opened 0 (.init serverPort) serverPort) := by
    apply Table.run_opened rfl ⟨by decide, by decide, by decide, by decide⟩ ⟨serverPort, rfl⟩ _
      fun _ => trivial
    intro e found
    rw [← Option.some.inj found]
    rfl
  have second : Run (Table.Step 2) Server.Fitting
      (Table.init.opened 0 (.init serverPort) serverPort)
      [.construct 1 (.init clientPort), .dispatch 1 clientPort, .add 1] bothOpened := by
    apply Table.run_opened rfl ⟨by decide, by decide, by decide, by decide⟩ ⟨clientPort, rfl⟩ _
      fun _ => trivial
    intro e found
    rw [← Option.some.inj found]
    rfl
  have run := Server.run_life gimCodec.toCodec twoLoops (first.trans second) fun _ => []
  exact run.reachable

/-- A push server registers, a client logs in, and a push is acknowledged. -/
theorem push_acknowledged_client : ∃ s s' t t' e l e' l' body,
    Server.Granted gimCodec.toCodec twoLoops 0 serverSessid s ∧
      Server.Granted gimCodec.toCodec twoLoops 1 clientSessid s ∧
      s.table.conns 0 = some e ∧ s.table.conns 1 = some e' ∧
      Queues s s' l'
        ⟨e'.id, pushReq, gimCodec.serializePushRequest (registeredCon.stamped pushToClient)⟩ ∧
      Queues t t' l ⟨e.id, pushResp, body⟩ ∧
      gimCodec.parsePushResponse body = some ⟨clientSessid, some serverSessid, [49], 0⟩ := by
  let opened : Server := ⟨bothOpened, fun _ => []⟩
  let registers := arrives loginReq (gimCodec.serializeLoginRequest ⟨[55], 12, none⟩)
    (by decide +kernel)
  let logsIn := arrives loginReq (gimCodec.serializeLoginRequest ⟨[99], -1, some [118]⟩)
    (by decide +kernel)
  let registered := opened.handle gimCodec.toCodec twoLoops 0 serverEntry registers
  have granted : Server.Granted gimCodec.toCodec twoLoops 0 serverSessid registered :=
    .answer reachable_bothOpened rfl rfl (by decide +kernel) (by decide +kernel)
  let both := registered.handle gimCodec.toCodec twoLoops 1 clientEntry logsIn
  have step : Server.Step gimCodec.toCodec twoLoops registered (.packet 1 logsIn) both :=
    .packet (l := 0) rfl rfl
  have grantedServer : Server.Granted gimCodec.toCodec twoLoops 0 serverSessid both :=
    .later granted (by simp) step
  have grantedClient : Server.Granted gimCodec.toCodec twoLoops 1 clientSessid both :=
    .answer (l := 0) granted.reachable rfl rfl (by decide +kernel) (by decide +kernel)
  let pushes := arrives pushReq (gimCodec.serializePushRequest (registeredCon.stamped pushToClient))
    (by decide +kernel)
  let waits := arrives keepaliveReq [] (by decide)
  let answers := arrives pushResp
    (gimCodec.serializePushResponse (responseTo (registeredCon.stamped pushToClient)))
    (by decide +kernel)
  let serverCon :=
    (turn gimCodec.toCodec twoLoops 1000001 (.init serverPort) registers).handled.con
  let clientCon := (turn gimCodec.toCodec twoLoops 2 (.init clientPort) logsIn).handled.con
  let pushed := both.handle gimCodec.toCodec twoLoops 0 ⟨1000001, .added 1, serverCon⟩ pushes
  have pushStep : Server.Step gimCodec.toCodec twoLoops both (.packet 0 pushes) pushed :=
    .packet (l := 1) rfl rfl
  have foundClient : pushed.table.conns 1 = some ⟨2, .added 0, clientCon⟩ := rfl
  rcases Server.exists_step gimCodec.toCodec twoLoops foundClient rfl waits with
    ⟨later, waiting, waitStep, foundLater, placeLater⟩
  have traffic : Run (Server.Step gimCodec.toCodec twoLoops) (Server.StayOpen 0 1) pushed
      [.packet 1 waits] later := by
    apply Run.single
    · exact ⟨by simp, by simp⟩
    · exact waitStep
  rcases Server.exists_step gimCodec.toCodec twoLoops foundLater placeLater answers with
    ⟨answered, -, answerStep, -, -⟩
  let net : Net := ⟨0, fun _ => true, 1, []⟩
  let client : CliConn := { CliConn.init net ⟨[99], [49], 9000, [118], 300⟩ with fd := true }
  have isServer : ∀ e, both.table.conns 0 = some e → 0 ≤ e.data.sess.type := by
    intro e found
    have foundCon : both.table.conns 0 = some ⟨1000001, .added 1, serverCon⟩ := rfl
    rw [Option.some.inj (found.symm.trans foundCon)]
    decide +kernel
  have requestBack : gimCodec.parsePushRequest
      (gimCodec.serializePushRequest (registeredCon.stamped pushToClient)) =
        some (registeredCon.stamped pushToClient) := by decide +kernel
  have responseBack : gimCodec.parsePushResponse
      (gimCodec.serializePushResponse (responseTo (registeredCon.stamped pushToClient))) =
        some (responseTo (registeredCon.stamped pushToClient)) := by decide +kernel
  have sent : pushes.packet.bytes = registeredCon.sendPushRequest gimCodec pushToClient := rfl
  have responds : .tcpSend answers.packet.bytes ∈ (client.handleServiceRequest gimCodec net
      (gimCodec.serializePushRequest (registeredCon.stamped pushToClient))).acts := by
    decide +kernel
  rcases push_acknowledged (by decide) (by decide) requestBack responseBack grantedServer
    grantedClient isServer sent pushStep traffic responds answerStep with
    ⟨e, l, e', l', body, found, -, found', -, request, response, parsed⟩
  exact ⟨both, pushed, later, answered, e, l, e', l', body, grantedServer, grantedClient, found,
    found', request, response, parsed⟩

end GPush.PushServer
