import GPush.ConnectServer.Peer

/-!
# A connection of the client SDK

`CliConn` from the login to the end.  A call answers its result, the new connection, and
what it does on the way: the statuses it enters, the events it publishes, the operations
it queues at the event loop, and the packets it tries to send.  The socket is a `Bool`,
and the addresses are listed last first.
-/

namespace GPush.ClientSdk

open GPush.ConnectServer GPush.Connection

/-- `LoginStatus`. -/
inductive LoginStatus
  | doLogin
  | login
  | loginFail
  | disconnect
  deriving DecidableEq, Repr

/-- `GIM_NETWORK_ERROR`. -/
def networkError : Int := -9999

/-- `GIM_PROBUF_FORMAT_ERROR`. -/
def probufFormatError : Int := -9998

/-- `GIM_TIMEOUT`. -/
def timeoutError : Int := -9992

/-- `OP_DEFAULT_TIMEOUT`, in seconds. -/
def opDefaultTimeout : Int := 10

/-- An event for the user, with the id of the connection. -/
inductive Published
  | loginOk (cid : Bytes)
  | loginFail (cid : Bytes) (code : Int)
  | logout (cid : Bytes) (code : Int)
  | push (cid sn payload : Bytes)
  deriving DecidableEq, Repr

/-- `LoginOp`. -/
structure LoginOp where
  cid : Bytes
  srvip : Bytes
  srvport : Int
  cliver : Bytes
  keepaliveTimeout : Int
  deriving DecidableEq, Repr

/-- What a user calls: `Client::login` or `Client::disconnect`. -/
inductive Call
  | login (op : LoginOp)
  | disconnect (cid : Bytes)
  deriving DecidableEq, Repr

/-- An operation of the event loop: one of a user's, or a `DelConnOp`. -/
inductive Op
  | call (c : Call)
  | delConn (cid : Bytes)
  deriving DecidableEq, Repr

/-- The operations that wait in a connection for a time. -/
inductive TimerOp
  | login
  | keepalive
  deriving DecidableEq, Repr

/-- What a call does. -/
inductive Act
  | enter (status : LoginStatus)
  | publish (event : Published)
  | asynAddOp (op : Op)
  | tcpSend (packet : Bytes)
  deriving DecidableEq, Repr

/-- What a call finds: the clock in microseconds, the outcomes of its `tcp_connect`s, the
result of its `tcp_send`, and the calls that the user makes on an event. -/
structure Net where
  now : Int
  connects : Nat → Bool
  sent : Int
  reaction : List Call

/-- `gettime_ms`. -/
def Net.ms (net : Net) : Int := net.now / 1000

/-- `AddrItem`. -/
structure AddrItem where
  ip : Bytes
  port : Int
  deriving DecidableEq, Repr

/-- The fields of `CliConn`.  A timer is its deadline and its operation. -/
structure CliConn where
  fd : Bool
  cid : Bytes
  cliVer : Bytes
  sessid : Bytes
  keepaliveTimeout : Int
  loginStatus : LoginStatus
  loginStatusCode : Int
  loginTime : Int
  activeTime : Int
  svrlist : List AddrItem
  timers : List (Int × TimerOp)
  deriving DecidableEq, Repr

/-- What a call leaves. -/
structure Out where
  ret : Int
  con : CliConn
  acts : List Act
  deriving DecidableEq, Repr

/-- A call followed by another one. -/
def Out.andThen (out : Out) (next : CliConn → Out) : Out :=
  { next out.con with acts := out.acts ++ (next out.con).acts }

/-- A packet that has arrived, and what its handler finds. -/
structure Received where
  cmd : Int
  body : Bytes
  net : Net

/-- `EventLoop::publish`, and the user's message handler. -/
def publish (net : Net) (event : Published) : List Act :=
  .publish event :: net.reaction.map fun c => .asynAddOp (.call c)

/-- An entry put into a map of timers, which are ordered by their deadlines.  A deadline
that is there already keeps its operation. -/
def insertTimer (deadline : Int) (op : TimerOp) : List (Int × TimerOp) → List (Int × TimerOp)
  | [] => [(deadline, op)]
  | timer :: timers =>
      if deadline < timer.1 then
        (deadline, op) :: timer :: timers
      else if deadline = timer.1 then
        timer :: timers
      else
        timer :: insertTimer deadline op timers

/-- A timer of the new map is the new one or an old one. -/
theorem mem_insertTimer {deadline : Int} {op : TimerOp} {timers : List (Int × TimerOp)}
    {timer : Int × TimerOp} (member : timer ∈ insertTimer deadline op timers) :
    timer = (deadline, op) ∨ timer ∈ timers := by
  induction timers with
  | nil => exact Or.inl (List.mem_singleton.mp member)
  | cons first timers ih =>
      rw [insertTimer] at member
      split_ifs at member
      · exact List.mem_cons.mp member
      · exact Or.inr member
      · rcases List.mem_cons.mp member with rfl | member
        · exact Or.inr List.mem_cons_self
        · exact (ih member).imp_right (List.mem_cons_of_mem _)

/-- The addresses left by the `tcp_connect`s, from the `n`th on. -/
def connectLoop (connects : Nat → Bool) : Nat → List AddrItem → List AddrItem
  | _, [] => []
  | n, item :: rest => if connects n then item :: rest else connectLoop connects (n + 1) rest

namespace CliConn

/-- `CliConn::CliConn`, and what `LoginOp::process` sets. -/
def init (net : Net) (op : LoginOp) : CliConn where
  fd := false
  cid := op.cid
  cliVer := op.cliver
  sessid := []
  keepaliveTimeout := op.keepaliveTimeout
  loginStatus := .disconnect
  loginStatusCode := 0
  loginTime := 0
  activeTime := net.ms
  svrlist := [⟨op.srvip, op.srvport⟩]
  timers := []

/-- `CliConn::closefd`. -/
def closefd (c : CliConn) : CliConn := { c with fd := false }

/-- `CliConn::asynDestroy`. -/
def asynDestroy (c : CliConn) : Out := ⟨0, c, [.asynAddOp (.delConn c.cid)]⟩

/-- The event of the status. -/
def statusEvent (c : CliConn) : Option Published :=
  match c.loginStatus with
  | .login => some (.loginOk c.cid)
  | .loginFail => some (.loginFail c.cid c.loginStatusCode)
  | .disconnect => some (.logout c.cid c.loginStatusCode)
  | .doLogin => none

/-- `CliConn::setStatus`. -/
def setStatus (c : CliConn) (net : Net) (status : LoginStatus) (code : Int) (notify : Bool) : Out :=
  if status ≠ c.loginStatus then
    let c := { c with loginStatus := status, loginStatusCode := code }
    let event := if notify then c.statusEvent else none
    ⟨0, c, .enter status :: (event.map (publish net)).getD []⟩
  else
    ⟨0, c, []⟩

/-- The socket is closed with a status, which is notified. -/
def shut (c : CliConn) (net : Net) (status : LoginStatus) (code : Int) : Out :=
  (c.closefd.setStatus net status code true).andThen asynDestroy

/-- `CliConn::OnLoginFail`. -/
def onLoginFail (c : CliConn) (net : Net) (code : Int) : Out := c.shut net .loginFail code

/-- `CliConn::onDisconnect`.  Cancelling a timer does nothing. -/
def onDisconnect (c : CliConn) (net : Net) (code : Int) : Out := c.shut net .disconnect code

/-- `CliConn::send_`. -/
def send (c : CliConn) (net : Net) (m : Bytes) : Out :=
  if m = [] ∨ c.fd = false then
    ⟨-1, c, []⟩
  else if net.sent ≤ 0 then
    ⟨-1, c.closefd, [.tcpSend m]⟩
  else
    ⟨net.sent, c, [.tcpSend m]⟩

/-- `CliConn::constructPacket`. -/
def constructPacket (srvcmd : Int) (body : Bytes) : Bytes := peerBytes srvcmd body

/-- `CliConn::sendPacket`. -/
def sendPacket (c : CliConn) (net : Net) (cmd : Int) (body : Bytes) : Out :=
  c.send net (constructPacket cmd body)

/-- `CliConn::connectServer`. -/
def connectServer (c : CliConn) (net : Net) : Out :=
  let left := connectLoop net.connects 0 c.svrlist
  let c := { c with svrlist := left, fd := if c.svrlist = [] then c.fd else !left.isEmpty }
  if c.fd then
    ⟨0, c, []⟩
  else
    { c.onLoginFail net networkError with ret := -1 }

/-- `CliConn::addTimer`. -/
def addTimer (c : CliConn) (net : Net) (op : TimerOp) (seconds : Int) : CliConn :=
  { c with timers := insertTimer (net.now + seconds * 1000000) op c.timers }

/-- `CliConn::popTimer`: the last timer with the operation. -/
def popTimer (c : CliConn) (op : TimerOp) : CliConn :=
  { c with timers := (c.timers.reverse.eraseP fun timer => timer.2 = op).reverse }

/-- `CliConn::addKeepaliveTimer`. -/
def addKeepaliveTimer (c : CliConn) (net : Net) : CliConn :=
  c.addTimer net .keepalive c.keepaliveTimeout

/-- `m_keepalive_timeout * 2 * 1000`, which is an `int32`. -/
def keepaliveLimit (c : CliConn) : Int := (c.keepaliveTimeout * 2 * 1000).bmod 4294967296

/-- `CliConn::keepalive`. -/
def keepalive (c : CliConn) (net : Net) : Out :=
  if c.keepaliveLimit < net.ms - c.activeTime then
    c.shut net .disconnect timeoutError
  else
    (c.addKeepaliveTimer net).sendPacket net keepaliveReq []

/-- `OnTimeout` of an operation. -/
def onTimeout (c : CliConn) (net : Net) : TimerOp → Out
  | .login => c.onLoginFail net timeoutError
  | .keepalive => c.keepalive net

/-- The timers that are due, one after the other, from the `n`th on. -/
def runTimers (nets : Nat → Net) : Nat → CliConn → List (Int × TimerOp) → Out
  | _, c, [] => ⟨0, c, []⟩
  | n, c, timer :: timers =>
      (c.onTimeout (nets n) timer.2).andThen fun c => runTimers nets (n + 1) c timers

/-- `CliConn::processTimers`. -/
def processTimers (c : CliConn) (now : Int) (nets : Nat → Net) : Out :=
  let due := c.timers.takeWhile fun timer => timer.1 ≤ now
  runTimers nets 0 { c with timers := c.timers.dropWhile fun timer => timer.1 ≤ now } due

section Messages

variable (codec : PeerCodec)

/-- `CliConn::login`. -/
def login (c : CliConn) (net : Net) : Out :=
  (c.setStatus net .doLogin 0 false).andThen fun c =>
    let body := codec.serializeLoginRequest ⟨c.cid, -1, some c.cliVer⟩
    let sent := { c with loginTime := net.ms }.sendPacket net loginReq body
    { sent with ret := if 0 ≤ sent.ret then 0 else -1 }

/-- `CliConn::connectAndLogin`. -/
def connectAndLogin (c : CliConn) (net : Net) : Out :=
  if c.loginStatus ≠ .doLogin ∧ c.loginStatus ≠ .login then
    let connected := c.connectServer net
    if connected.ret = 0 then connected.andThen fun c => c.login codec net
    else { connected with ret := -1 }
  else
    ⟨-1, c, []⟩

/-- `CliConn::handleLoginResponse`; `none` is the `pop_back` of an empty vector. -/
def handleLoginResponse (c : CliConn) (net : Net) (resp : Bytes) : Option Out :=
  let c := c.popTimer .login
  match codec.parseLoginResponse resp with
  | none => some ⟨probufFormatError, c, []⟩
  | some lgresp =>
      if 0 ≤ lgresp.status then
        let out := { c with sessid := lgresp.sessid }.setStatus net .login lgresp.status true
        some { out with con := out.con.addKeepaliveTimer net }
      else
        match c.svrlist with
        | [] => none
        | _ :: svrlist =>
            let c := { c with svrlist := svrlist }
            if svrlist = [] then
              some (c.onLoginFail net lgresp.status)
            else
              let out := (c.setStatus net .disconnect 0 false).andThen fun c =>
                c.connectAndLogin codec net
              some { out with ret := 0 }

/-- `CliConn::handleServiceRequest`. -/
def handleServiceRequest (c : CliConn) (net : Net) (reqbody : Bytes) : Out :=
  match codec.parsePushRequest reqbody with
  | none => ⟨probufFormatError, c, []⟩
  | some svreq =>
      let resp : PushResponse :=
        { sn := svreq.sn
          status := 0
          toSessid := some svreq.fromSessid
          fromSessid := svreq.toSessid }
      let sent := c.sendPacket net pushResp (codec.serializePushResponse resp)
      ⟨0, sent.con, publish net (.push c.cid svreq.sn svreq.payload) ++ sent.acts⟩

/-- `CliConn::handlePacket`.  Its result is not used. -/
def handlePacket (c : CliConn) (r : Received) : Option Out :=
  if r.cmd = loginResp then
    c.handleLoginResponse codec r.net r.body
  else if r.cmd = pushReq then
    some (c.handleServiceRequest codec r.net r.body)
  else
    some ⟨0, c, []⟩

/-- The packets of the buffer, one after the other. -/
def handlePackets : CliConn → List Received → Option Out
  | c, [] => some ⟨0, c, []⟩
  | c, r :: rest =>
      (c.handlePacket codec r).bind fun out =>
        (handlePackets out.con rest).map fun later => out.andThen fun _ => later

/-- `CliConn::handleRead`, of the packets that are complete after `tcp_nb_receive`, or of
its failure. -/
def handleRead (c : CliConn) (net : Net) (received : Option (List Received)) : Option Out :=
  if c.fd = false then
    some ⟨-1, c, []⟩
  else
    let c := { c with activeTime := net.ms }
    match received with
    | none => some ⟨-1, c, []⟩
    | some packets => c.handlePackets codec packets

end Messages

end CliConn

end GPush.ClientSdk
