import GPush.ConnectServer.TypeMap
import GPush.Connection.Client
import GPush.PushServer.ListenCon

/-!
# The devices of an event loop

An event loop reaches its devices through pointers: those that `epoll` hands back, those in
`m_con_map`, and on a push server those in `Svlist::m_svcons`.  A call through a pointer to a
device that has been destroyed is a fault of the model, and so is a second `delete`.  What
the rest of the world answers is an input, one answer for each time that it is asked.
-/

namespace GPush.EventLoop

open GPush.Connection GPush.ConnectServer GPush.Json GPush.LoopBuf GPush.PushServer

/-! ## Devices -/

/-- The fields of `Device` and of `Connection`; an acceptor has no more than the socket. -/
structure Con where
  fd : Option Nat
  id : Int
  buf : LoopBuf
  sender : Sender

/-- The connection factories. -/
inductive Factory
  | cliConFactory (conf : CliConfig)
  | lConFactory

/-- The connection dispatchers; `GDispatcher` has the number of the event loops. -/
inductive Dispatcher
  | cDispatcher (conf : CliConfig)
  | gDispatcher (eventLoopCount : Int)

/-- The classes, each with the fields that it adds.  `m_reconnect_span` is a field of
`Client`. -/
inductive Kind
  | acceptor (confac : Option Factory) (condispatch : Option Dispatcher)
  | cliCon (c : CliCon)
  | listenCon
  | svCon (reconnectSpan : Int) (c : SvCon)

/-- A device. -/
structure Device where
  base : Con
  kind : Kind

namespace Kind

/-- The server that a connection to a connect server is for. -/
def server : Kind → Option Int
  | .svCon _ c => some c.conServId
  | _ => none

/-- A client whose status is `STATUS_INIT`. -/
def Idle : Kind → Prop
  | .svCon _ c => c.client = .init
  | _ => False

/-- The classes derived from `Connection`. -/
def IsConnection : Kind → Prop
  | .acceptor _ _ => False
  | _ => True

/-- The fields of `CliCon` replaced. -/
def setCliCon (c : CliCon) : Kind → Kind
  | .cliCon _ => .cliCon c
  | kind => kind

/-- The fields of `SvCon` changed. -/
def mapSvCon (f : SvCon → SvCon) : Kind → Kind
  | .svCon span c => .svCon span (f c)
  | kind => kind

end Kind

namespace Device

/-- The device with another receive buffer. -/
def setBuf (d : Device) (buf : LoopBuf) : Device := { d with base := { d.base with buf := buf } }

/-- The device with another send buffer, other events and another flag. -/
def setSender (d : Device) (sender : Sender) : Device :=
  { d with base := { d.base with sender := sender } }

/-- The device with another socket. -/
def setFd (d : Device) (fd : Option Nat) : Device := { d with base := { d.base with fd := fd } }

/-- The device with other fields of its class. -/
def mapKind (d : Device) (f : Kind → Kind) : Device := { d with kind := f d.kind }

end Device

/-- `ConnectionFactory::createConnection`, with the socket that `acceptConnect` sets. -/
def Factory.createConnection (confac : Factory) (fd : Nat) (id : Int) : Device where
  base := ⟨some fd, id, LoopBuf.init, ⟨LoopBuf.init, 0, .null⟩⟩
  kind :=
    match confac with
    | .cliConFactory conf => .cliCon (CliCon.init conf)
    | .lConFactory => .listenCon

/-- `dispatchConnection`: the index of the event loop that is asked to add the connection;
`i` is the counter of `GDispatcher`, and `none` is a division by zero. -/
def Dispatcher.dispatchConnection (con : Device) (i : Int) : Dispatcher → Option (Int × Device)
  | .cDispatcher conf =>
      if conf.threadCnt = 0 then
        none
      else
        let idx := Table.dispatchIdx conf con.base.id
        some (idx, { con with base := { con.base with id := getConnectionId idx con.base.id } })
  | .gDispatcher count => if count = 0 then none else some (i.tmod count, con)

/-! ## The state -/

/-- What ends a run: a call through a pointer to a device that has been destroyed, an
exception or a signal that ends the process, or answers that the system does not give. -/
inductive Fault
  | dangling (h : Handle)
  | uncaught
  | impossible
  deriving DecidableEq, Repr

/-- One return of `accept`: the socket, the id that the counter gives to the new
connection, and the counter of `GDispatcher`. -/
inductive SysAccept
  | client (fd : Nat) (id i : Int)
  | fail

/-- What the rest of the world answers: the results of the system calls, the rounds that the
loop over the packets makes, the socket of `tcpNbConnect`, and what handlers find. -/
structure Answer where
  recv : List SysRecv
  rounds : Nat
  accept : List SysAccept
  sockopt : SockOpt
  send : List SysSend
  epollCtl : Bool
  connect : Option Nat
  env : Env
  cache : Option (Bytes → List Sess)

/-- What stays the same: the message classes and `Json`, the configurations of the connect
server and of the push server, and what a `LoginResponse` holds after `ParseFromString`. -/
structure Program where
  lib : ListenCon.Library
  serv : ServerConfig
  svID : Int
  svType : Int
  loginResponse : Bytes → LoginResponse

/-- The devices of an event loop by their addresses, the pointers to them in `epoll`, in
`m_con_map` and in `m_svcons`, the calls to the session caches, the list of servers and the
queues of other loops, the connections given to other loops, how many times the world has
been asked, and what has ended the run. -/
structure Devices where
  devices : Handle → Option Device
  epoll : Nat → Option Handle
  conMap : Int → Option Handle
  svcons : Int → Option Handle
  effects : List (Handle × Effect)
  dispatched : List (Int × Device)
  asked : Nat
  fault : Option Fault

namespace Devices

/-- A loop that has just started. -/
def init : Devices := ⟨fun _ => none, fun _ => none, fun _ => none, fun _ => none, [], [], 0, none⟩

/-- The device at `h` has not been destroyed. -/
def Alive (s : Devices) (h : Handle) : Prop := (s.devices h).isSome

/-- The device at `h` changed, if it is there. -/
def modify (s : Devices) (h : Handle) (f : Device → Device) : Devices :=
  { s with devices := Function.update s.devices h ((s.devices h).map f) }

/-- The world has been asked. -/
def ask (s : Devices) : Devices := { s with asked := s.asked + 1 }

/-- A run that has ended; the first fault stays. -/
def fail (s : Devices) (fault : Fault) : Devices := { s with fault := s.fault.or (some fault) }

/-- The calls of the connection at `h`. -/
def record (s : Devices) (h : Handle) (effects : List Effect) : Devices :=
  { s with effects := s.effects ++ effects.map fun e => (h, e) }

/-! ## Tables -/

/-- `Svlist::addServer`. -/
def addServer (s : Devices) (id : Int) (con : Handle) : Devices :=
  { s with svcons := Function.update s.svcons id (some con) }

/-- `Svlist::delServer`. -/
def delServer (s : Devices) (id : Int) : Devices :=
  { s with svcons := Function.update s.svcons id none }

/-- `EventLoop::delConnection`. -/
def delConnection (s : Devices) (id : Int) : Devices :=
  { s with conMap := Function.update s.conMap id none }

/-- The socket of the device at `h` closed, and with it what `epoll` knows of it. -/
def closeFd (s : Devices) (h : Handle) : Devices :=
  match (s.devices h).bind fun d => d.base.fd with
  | none => s
  | some fd => { s.modify h fun d => d.setFd none with epoll := Function.update s.epoll fd none }

section Calls

variable (prog : Program) (world : Nat → Answer)

/-- `Device::addNotify`. -/
def addNotify (s : Devices) (h : Handle) (noti : Nat) : Devices :=
  match (s.devices h).bind fun d => d.base.fd with
  | none => s.ask
  | some fd =>
      if (world s.asked).epollCtl then
        { s.ask.modify h fun d => d.setSender { d.base.sender with noti := noti } with
          epoll := Function.update s.epoll fd (some h) }
      else
        s.ask

/-- `Device::modifyNotify`. -/
def modifyNotify (s : Devices) (h : Handle) (noti : Nat) : Devices :=
  s.ask.modify h fun d =>
    d.setSender (d.base.sender.modifyNotify noti (world s.asked).epollCtl)

/-- `Device::clearNotify`. -/
def clearNotify (s : Devices) (h : Handle) : Devices :=
  match (s.devices h).bind fun d => d.base.fd with
  | none => s.ask
  | some fd =>
      if (world s.asked).epollCtl then
        { s.ask.modify h fun d => d.setSender { d.base.sender with noti := 0 } with
          epoll := Function.update s.epoll fd none }
      else
        s.ask

/-- The destructors of the classes, and `Connection::clear`. -/
def clear (s : Devices) (h : Handle) (d : Device) : Devices :=
  match d.kind with
  | .acceptor _ _ => s
  | .cliCon c => ((s.record h c.delSession).clearNotify world h).delConnection d.base.id
  | .listenCon => (s.clearNotify world h).delConnection d.base.id
  | .svCon _ c => ((s.delServer c.conServId).clearNotify world h).delConnection d.base.id

/-- `delete this`, with `Device::clear`. -/
def destroy (s : Devices) (h : Handle) : Devices :=
  match s.devices h with
  | none => s.fail (.dangling h)
  | some d =>
      let s := (s.clear world h d).closeFd h
      { s with devices := Function.update s.devices h none }

/-- The `clear` of a buffer; it fails only on a broken one. -/
def clearBufs (s : Devices) (h : Handle) : Devices :=
  match s.devices h with
  | none => s
  | some d =>
      match d.base.buf.clear, d.base.sender.sendBuf.clear with
      | some (buf, _), some (sendBuf, _) =>
          s.modify h fun d => (d.setBuf buf).setSender { d.base.sender with sendBuf := sendBuf }
      | _, _ => s.fail .impossible

/-- `Client::disconnect`, with `SvCon::onDisconnected`. -/
def disconnect (s : Devices) (h : Handle) : Devices :=
  match s.devices h with
  | none => s.fail (.dangling h)
  | some d =>
      let s := (d.kind.server.map s.delServer).getD s
      (((s.clearNotify world h).closeFd h).clearBufs h).modify h fun d =>
        d.mapKind (.mapSvCon fun c => { c with client := .init })

/-- `Device::onFail`, and `Client::onFail` of a connection to a connect server. -/
def onFail (s : Devices) (h : Handle) : Devices :=
  match s.devices h with
  | none => s.fail (.dangling h)
  | some d =>
      match d.kind with
      | .svCon span _ =>
          let s := s.disconnect world h
          if s.fault.isSome then s
          else if span = 0 then s.destroy world h
          else s
      | _ => s.destroy world h

/-- `Connection::sendMessage`. -/
def sendMessage (s : Devices) (h : Handle) (msg : Bytes) : Int × Devices :=
  match s.devices h with
  | none => (-1, s.fail (.dangling h))
  | some d =>
      let a := world s.asked
      match d.base.sender.sendMessage msg a.send a.epollCtl with
      | none => (-1, s.ask.fail .impossible)
      | some (sender, outcome) => (outcome.ret, s.ask.modify h fun d => d.setSender sender)

/-! ## The packet handlers -/

/-- `CliCon::handlePacket`, with `sendCmd`. -/
def handleCliPacket (s : Devices) (h : Handle) (id : Int) (c : CliCon) (p : Packet) :
    Int × Devices :=
  let reply := c.handleCmd prog.lib.codec.toCodec prog.serv id (world s.asked).env p
  let s := (s.ask.modify h fun d => d.mapKind (.setCliCon reply.con)).record h reply.effects
  match reply.ret with
  | none => (-1, s)
  | some ret =>
      if reply.resp ≠ [] ∨ p.cmd = keepaliveReq then
        s.sendMessage world h (constructPacket (p.cmd + 1) reply.resp)
      else
        (ret, s)

/-- `SvCon::sendPushRequest` through the pointer `con`. -/
def sendPushRequest (s : Devices) (con : Handle) (preq : PushRequest) : Int × Devices :=
  match (s.devices con).map Device.kind with
  | some (.svCon _ c) => s.sendMessage world con (c.sendPushRequest prog.lib.codec preq)
  | _ => (-1, s.fail (.dangling con))

/-- `ListenCon::sendToServer`. -/
def sendToServer (s : Devices) (svid : Int) (preq : PushRequest) : Int × Devices :=
  match s.svcons svid with
  | none => (-1, s)
  | some con => s.sendPushRequest prog world con preq

/-- The loop over the sessions in `ListenCon::handlePushReqeust`. -/
def relayLoop (preq : PushRequest) : List Sess → Devices → Int × Devices
  | [], s => (0, s)
  | ss :: sv, s =>
      let (ret, s) := s.sendToServer prog world ss.consvid { preq with toSessid := ss.sessid }
      if s.fault.isSome then
        (-1, s)
      else
        let (count, s) := relayLoop preq sv s
        (if 0 ≤ ret then count + 1 else count, s)

/-- `ListenCon::sendJsonResponse`, whose result is dropped, and the result `ret` of the
handler. -/
def sendJsonResponse (s : Devices) (h : Handle) (ret : Int) (v : Value) : Int × Devices :=
  (ret, (s.sendMessage world h (peerBytes ListenCon.jsonPushResp (prog.lib.toStyledString v))).2)

/-- `ListenCon::handlePushReqeust`.  An assertion of a `Json::Value` ends the process. -/
def handlePushReqeust (s : Devices) (h : Handle) (req : Bytes) : Int × Devices :=
  match prog.lib.parse req with
  | none =>
      s.sendJsonResponse prog world h (-1) (errorResp [("status", .int 0)] (-1) "parse req fail")
  | some v =>
      match prog.lib.readRequest v with
      | none => (-1, s.fail .uncaught)
      | some (preq, sn) =>
          let respv := [("status", .int 0), ("sn", sn)]
          let cache := (world s.asked).cache
          let s := s.ask
          match cache with
          | none =>
              s.sendJsonResponse prog world h (-2) (errorResp respv (-2) "get sess cache fail")
          | some getSession =>
              match v.get "to_id" with
              | none => (-1, s.fail .uncaught)
              | some toId =>
                  if toId.isString = false then
                    s.sendJsonResponse prog world h (-4) (errorResp respv (-4) "to_id is empty")
                  else
                    match toId.asString with
                    | none => (-1, s.fail .uncaught)
                    | some id =>
                        if getSession id = [] then
                          s.sendJsonResponse prog world h (-3)
                            (errorResp respv (-3) "user offline")
                        else
                          let (count, s) := relayLoop prog world preq (getSession id) s
                          if s.fault.isSome then
                            (-1, s)
                          else
                            s.sendJsonResponse prog world h count
                              (.object (putMember "count" (.int count) respv))

/-- `ListenCon::handlePacket`. -/
def handleListenPacket (s : Devices) (h : Handle) (p : Packet) : Int × Devices :=
  if p.cmd = jsonPushReq then s.handlePushReqeust prog world h p.body else (0, s)

/-- `SvCon::handleRegisterResponse`. -/
def handleRegisterResponse (s : Devices) (h : Handle) (c : SvCon) (resp : Bytes) :
    Int × Devices :=
  let lgresp := prog.loginResponse resp
  if lgresp.status < 0 then
    (0, s.disconnect world h)
  else
    let s := s.modify h fun d =>
      d.mapKind (.mapSvCon fun c => { c with status := .login, sessid := lgresp.sessid })
    (0, s.addServer c.conServId h)

/-- `SvCon::handlePacket`, with `handlePushResponse`. -/
def handleSvPacket (s : Devices) (h : Handle) (c : SvCon) (p : Packet) : Int × Devices :=
  if p.cmd = loginResp then
    s.handleRegisterResponse prog world h c p.body
  else if p.cmd = pushResp then
    (if (prog.lib.codec.parsePushResponse p.body).isSome then 0 else -1, s)
  else
    (0, s)

/-- The virtual `handlePacket` of the connection at `h`. -/
def handlePacket (s : Devices) (h : Handle) (p : Packet) : Int × Devices :=
  match s.devices h with
  | none => (-1, s.fail (.dangling h))
  | some d =>
      match d.kind with
      | .acceptor _ _ => (-1, s.fail .impossible)
      | .cliCon c => s.handleCliPacket prog world h d.base.id c p
      | .listenCon => s.handleListenPacket prog world h p
      | .svCon _ c => s.handleSvPacket prog world h c p

/-! ## The event handlers -/

/-- The inner loop of `Connection::handleRead`, in as many rounds as it makes.  It comes
back to the buffer of the connection after each packet. -/
def packLoop (h : Handle) : Nat → Int → Devices → Int × Devices
  | rounds, ret, s =>
      match s.devices h with
      | none => (-1, s.fail (.dangling h))
      | some d =>
          match checkLen d.base.buf with
          | none => (-1, s.fail .impossible)
          | some len =>
              if len < 0 then
                (len, s)
              else if len = 0 then
                (ret, s)
              else
                match rounds, d.base.buf.read len.toNat with
                | rounds + 1, some (buf, out) =>
                    let req := out ++ List.replicate (len.toNat - out.length) 0
                    let s := s.modify h fun d => d.setBuf buf
                    if whole : sizeofHead ≤ req.length ∧ req.length ≤ maxLen then
                      let (ret, s) := s.handlePacket prog world h ⟨req, whole.1, whole.2⟩
                      if s.fault.isSome then (-1, s)
                      else if ret < 0 then (ret, s)
                      else packLoop h rounds ret s
                    else
                      (-1, s.fail .impossible)
                | _, _ => (-1, s.fail .impossible)

/-- `Connection::handleRead` without `READ_ALL`. -/
def readCon (s : Devices) (h : Handle) : Int × Devices :=
  match s.devices h with
  | none => (-1, s.fail (.dangling h))
  | some d =>
      let a := world s.asked
      match tcpNbReceive (offer d.base.buf).freeFrameLen a.recv with
      | none => (-1, s.ask.fail .impossible)
      | some (ret, data, _) =>
          let filled := (offer d.base.buf).fillFreeFrame data
          if ret < 0 ∨ data.length = 0 then
            (-1, s.ask.modify h fun d => d.setBuf filled)
          else
            let written := (filled.write (.null data.length)).1
            packLoop prog world h a.rounds ret (s.ask.modify h fun d => d.setBuf written)

/-- `Connection::handleWrite`. -/
def writeCon (s : Devices) (h : Handle) : Int × Devices :=
  match s.devices h with
  | none => (-1, s.fail (.dangling h))
  | some d =>
      let a := world s.asked
      match d.base.sender.handleWrite a.send a.epollCtl with
      | none => (-1, s.ask.fail .impossible)
      | some (sender, outcome) => (outcome.ret, s.ask.modify h fun d => d.setSender sender)

/-- `SvCon::doRegister`. -/
def doRegister (s : Devices) (h : Handle) : Int × Devices :=
  s.sendMessage world h (peerBytes loginReq
    (prog.lib.codec.serializeLoginRequest ⟨decimal prog.svID, prog.svType, none⟩))

/-- `Client::handleConnected`, with `SvCon::onConnected`. -/
def handleConnected (s : Devices) (h : Handle) : Int × Devices :=
  let opt := (world s.asked).sockopt
  let s := s.ask
  if opt.ret < 0 then
    (opt.ret, s.disconnect world h)
  else
    let s := s.modify h fun d => d.mapKind (.mapSvCon fun c => { c with client := .connected })
    (s.modifyNotify world h readEvent).doRegister prog world h

/-- The loop of `Acceptor::acceptConnect`. -/
def acceptConnect (confac : Option Factory) (condispatch : Option Dispatcher) :
    List SysAccept → Devices → Devices
  | [], s => s.fail .impossible
  | .fail :: _, s => s
  | .client fd id i :: rest, s =>
      match confac, condispatch with
      | some factory, some dispatcher =>
          match dispatcher.dispatchConnection (factory.createConnection fd id) i with
          | none => s.fail .uncaught
          | some given =>
              acceptConnect confac condispatch rest
                { s with dispatched := s.dispatched ++ [given] }
      | _, _ => s

/-- The virtual `handleRead` of the device at `h`. -/
def handleRead (s : Devices) (h : Handle) : Int × Devices :=
  match s.devices h with
  | none => (-1, s.fail (.dangling h))
  | some d =>
      match d.kind with
      | .acceptor confac condispatch =>
          (0, acceptConnect confac condispatch (world s.asked).accept s.ask)
      | .cliCon _ | .listenCon => s.readCon prog world h
      | .svCon _ c =>
          match c.client with
          | .init => (0, s)
          | .connecting => s.handleConnected prog world h
          | .connected => s.readCon prog world h

/-- The virtual `handleWrite` of the device at `h`. -/
def handleWrite (s : Devices) (h : Handle) : Int × Devices :=
  match s.devices h with
  | none => (-1, s.fail (.dangling h))
  | some d =>
      match d.kind with
      | .acceptor _ _ => (0, s)
      | .cliCon _ | .listenCon => s.writeCon world h
      | .svCon _ c =>
          match c.client with
          | .init => (0, s)
          | .connecting => s.handleConnected prog world h
          | .connected => s.writeCon world h

end Calls

end Devices

end GPush.EventLoop
