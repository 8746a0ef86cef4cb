import GPush.ConnectServer.Common
import GPush.Connection.Receive

/-!
# The connection of a client

`CliCon::handlePacket` with its three handlers, and the destructor.  A call
answers the new connection and the calls it makes on the rest of the server.  The
generated message classes are the parameter `codec`; a field of a message is what
its accessor returns.
-/

namespace GPush.ConnectServer

open GPush.Connection

/-! ## Messages -/

/-- `Pair`. -/
structure Pair where
  key : Bytes
  value : Bytes
  deriving DecidableEq, Repr

/-- `LoginRequest`. -/
structure LoginRequest where
  id : Bytes
  type : Int
  token : Bytes
  version : Bytes
  kvs : List Pair
  deriving DecidableEq, Repr

/-- `LoginResponse`. -/
structure LoginResponse where
  status : Int
  sessid : Bytes
  deriving DecidableEq, Repr

/-- `PushRequest`. -/
structure PushRequest where
  fromSessid : Bytes
  toSessid : Bytes
  sn : Bytes
  type : Int
  payload : Bytes
  deriving DecidableEq, Repr

/-- `PushResponse`; `none` says that `has_to_sessid()` is false. -/
structure PushResponse where
  fromSessid : Bytes
  toSessid : Option Bytes
  sn : Bytes
  status : Int
  deriving DecidableEq, Repr

/-- `Sess`. -/
structure Sess where
  id : Bytes
  type : Int
  lasttime : Int
  sessid : Bytes
  consvid : Int
  version : Bytes
  kvs : List Pair
  deriving DecidableEq, Repr

/-- A session with no field set. -/
def Sess.init : Sess := ⟨[], 0, 0, [], 0, [], []⟩

/-- `ParseFromArray` and `SerializeToString` of the messages. -/
structure Codec where
  parseLoginRequest : Bytes → Option LoginRequest
  parsePushRequest : Bytes → Option PushRequest
  parsePushResponse : Bytes → Option PushResponse
  serializeLoginResponse : LoginResponse → Bytes
  serializePushResponse : PushResponse → Bytes

/-! ## Packets -/

/-- `KEEPALIVE_REQ`. -/
def keepaliveReq : Int := 0

/-- `LOGIN_REQ`. -/
def loginReq : Int := 100

/-- `PUSH_REQ`. -/
def pushReq : Int := 200

/-- `PUSH_RESP`. -/
def pushResp : Int := 201

/-- `MAGIC_NUMBER`. -/
def magicNumber : Int := 0x20141228

/-- `INPUT_FORMAT_ERROR`. -/
def inputFormatError : Int := -1

/-- `CREATE_SESSION_FAIL`. -/
def createSessionFail : Int := -10

/-- `INVALID_SESSION_ID`. -/
def invalidSessionId : Int := -20

/-- `MISS_TO_SESSION_ID`. -/
def missToSessionId : Int := -22

/-- `INVALID_TYPE`. -/
def invalidType : Int := -60

/-- What `checkLen` lets through to `handlePacket`: a packet has its header, and at most
`MAX_LEN` bytes. -/
structure Packet where
  bytes : Bytes
  long : sizeofHead ≤ bytes.length
  short : bytes.length ≤ maxLen

/-- `head::cmd` in host order. -/
def Packet.cmd (p : Packet) : Int := beInt32 ((p.bytes.drop 8).take 4)

/-- `req.substr(sizeof(h))`. -/
def Packet.body (p : Packet) : Bytes := p.bytes.drop sizeofHead

/-- The commands that refresh the session. -/
def Packet.Refreshes (p : Packet) : Prop :=
  p.cmd = pushReq ∨ p.cmd = pushResp ∨ p.cmd = keepaliveReq

/-- The bytes of `htonl` of an `int32`. -/
def htonl (n : Int) : Bytes := (int32Bytes n).reverse

/-- `constructPacket` as `CliCon::sendCmd` calls it; the magic number stays in host
order. -/
def constructPacket (cmd : Int) (body : Bytes) : Bytes :=
  int32Bytes magicNumber ++ htonl (sizeofHead + body.length) ++ htonl cmd ++ body

theorem length_constructPacket (cmd : Int) (body : Bytes) :
    (constructPacket cmd body).length = sizeofHead + body.length := by
  simp [constructPacket, htonl, int32Bytes, sizeofHead]
  omega

theorem small_nil : sizeofHead + ([] : Bytes).length ≤ maxLen := by
  decide +kernel

/-- The packet that `constructPacket` builds. -/
def packetOf (cmd : Int) (body : Bytes) (small : sizeofHead + body.length ≤ maxLen) : Packet where
  bytes := constructPacket cmd body
  long := by
    rw [length_constructPacket]
    exact Nat.le_add_right _ _
  short := by
    rw [length_constructPacket]
    exact small

/-! ## The connection -/

/-- `m_status`. -/
inductive Status
  | init
  | login
  deriving DecidableEq, Repr

/-- The fields of `CliCon` that the handlers use. -/
structure CliCon where
  conf : CliConfig
  status : Status
  loginTime : Int
  sess : Sess
  deriving DecidableEq, Repr

/-- `SendMsgOp`. -/
structure SendMsgOp where
  conid : Int
  cmd : Int
  body : Bytes
  deriving DecidableEq, Repr

/-- The calls a handler makes. -/
inductive Effect
  | setSession (s : Sess)
  | delSession (s : Sess)
  | addServer
  | delServer
  | addAsynOperator (loop : Int) (op : SendMsgOp)
  | sendMessage (msg : Bytes)
  deriving DecidableEq, Repr

/-- What a handler finds: the clock, the memory behind a decoded session id, the
caches that answer, and the results of `addAsynOperator` and `sendMessage`. -/
structure Env where
  now : Int
  beyond : Bytes
  answers : Nat → Bool
  queued : Int
  sent : Int

/-- What a handler leaves: `ret` is `none` after an exception. -/
structure Reply where
  ret : Option Int
  con : CliCon
  resp : Bytes
  effects : List Effect

/-- What `handlePacket` leaves. -/
structure Handled where
  ret : Int
  con : CliCon
  effects : List Effect
  deriving DecidableEq, Repr

/-- The sessions that `SessCache::setSession` is called with. -/
def writes (effects : List Effect) : List Sess :=
  effects.filterMap fun
    | .setSession s => some s
    | _ => none

/-- The operations queued, each with its event loop. -/
def queued (effects : List Effect) : List (Int × SendMsgOp) :=
  effects.filterMap fun
    | .addAsynOperator l op => some (l, op)
    | _ => none

theorem writes_append (first second : List Effect) :
    writes (first ++ second) = writes first ++ writes second :=
  List.filterMap_append

theorem queued_append (first second : List Effect) :
    queued (first ++ second) = queued first ++ queued second :=
  List.filterMap_append

/-- The loop, the connection id and the user that a session id names. -/
structure Route where
  loop : Int
  conid : Int
  orgdata : Bytes
  deriving DecidableEq, Repr

/-- `CliCon::getConFromSessid`; `none` is an exception. -/
def getConFromSessid (serv : ServerConfig) (beyond sessid : Bytes) : Option (Except Int Route) :=
  (getDecorationInfo beyond sessid).map fun info =>
    if info.svid ≠ serv.ID then
      .error invalidSessionId
    else
      let evlpid := getEventLoopId info.conid
      if evlpid < 0 ∨ serv.threadCount ≤ evlpid then
        .error invalidSessionId
      else
        .ok ⟨evlpid, info.conid, info.n⟩

namespace CliCon

/-- `CliCon::CliCon` of a port. -/
def init (conf : CliConfig) : CliCon := ⟨conf, .init, 0, Sess.init⟩

/-- `CliCon::delSession`, which the destructor calls. -/
def delSession (c : CliCon) : List Effect :=
  if c.sess.type = 0 then
    []
  else if c.status ≠ .login then
    []
  else if 0 < c.sess.type then
    [.delServer]
  else
    [.delSession c.sess]

/-- The connection with `lasttime` set. -/
def touch (c : CliCon) (now : Int) : CliCon := { c with sess := { c.sess with lasttime := now } }

/-- `CliCon::updateSession`.  `SessCacheGrp::setSession` answers `0` whatever its
caches answer. -/
def updateSession (c : CliCon) (now : Int) : Int × CliCon × List Effect :=
  let c := c.touch now
  if 0 ≤ c.sess.type then (0, c, []) else (0, c, [.setSession c.sess])

/-- `CliCon::checkType`. -/
def checkType (c : CliCon) (type : Int) : Int :=
  if type = 0 then
    0
  else if type < c.conf.minType ∨ c.conf.maxType ≤ type then
    -1
  else
    0

section Handlers

variable (codec : Codec) (serv : ServerConfig) (id : Int)

/-- The end of `CliCon::handleLoginRequest`, from the label `exit` on. -/
def exitLogin (c : CliCon) (ret : Int) (effects : List Effect) : Reply :=
  if ret < 0 then
    ⟨some ret, c, codec.serializeLoginResponse ⟨ret, c.sess.sessid⟩, effects⟩
  else
    ⟨some ret, { c with status := .login }, codec.serializeLoginResponse ⟨0, c.sess.sessid⟩,
      effects⟩

/-- The fields that a login sets before its type is checked. -/
def recordLogin (c : CliCon) (now : Int) (lgreq : LoginRequest) : CliCon :=
  { c with
    loginTime := now
    sess := { c.sess with
      id := lgreq.id
      type := lgreq.type
      consvid := serv.ID
      version := lgreq.version } }

/-- The fields that it sets afterwards. -/
def recordSession (c : CliCon) (lgreq : LoginRequest) : CliCon :=
  { c with
    sess := { c.sess with
      sessid := decorationName serv.ID id lgreq.id
      kvs := c.sess.kvs ++ lgreq.kvs } }

/-- `CliCon::handleLoginRequest`. -/
def handleLoginRequest (c : CliCon) (env : Env) (req : Bytes) : Reply :=
  match codec.parseLoginRequest req with
  | none => exitLogin codec c inputFormatError []
  | some lgreq =>
      if c.status = .login then
        exitLogin codec c 0 []
      else
        let recorded := c.recordLogin serv env.now lgreq
        if recorded.checkType lgreq.type < 0 then
          exitLogin codec recorded invalidType []
        else
          let added : List Effect := if 0 < lgreq.type then [.addServer] else []
          let (ret, updated, refreshed) :=
            (recorded.recordSession serv id lgreq).updateSession env.now
          exitLogin codec updated (if ret < 0 then createSessionFail else ret) (added ++ refreshed)

/-- `"NULL"`. -/
def upperNull : Bytes := [78, 85, 76, 76]

/-- `"null"`. -/
def lowerNull : Bytes := [110, 117, 108, 108]

/-- The end of `CliCon::handlePushRequest`, from the label `exit` on. -/
def exitPush (c : CliCon) (ret : Int) (svresp : PushResponse) (effects : List Effect) : Reply :=
  let svresp := if ret < 0 then { svresp with status := ret } else svresp
  ⟨some ret, c, if svresp.status ≠ 0 then codec.serializePushResponse svresp else [], effects⟩

/-- `CliCon::handlePushRequest`. -/
def handlePushRequest (c : CliCon) (env : Env) (req : Bytes) : Reply :=
  match codec.parsePushRequest req with
  | none => exitPush codec c inputFormatError ⟨upperNull, some upperNull, lowerNull, 0⟩ []
  | some svreq =>
      let svresp : PushResponse := ⟨upperNull, some upperNull, svreq.sn, 0⟩
      if c.sess.type < 0 then
        exitPush codec c invalidType svresp []
      else
        let svresp := { svresp with toSessid := some svreq.fromSessid }
        match getConFromSessid serv env.beyond svreq.toSessid with
        | none => ⟨none, c, [], []⟩
        | some (.error _) => exitPush codec c invalidSessionId svresp []
        | some (.ok route) =>
            -- the operation is in the queue also when the control byte cannot be sent
            let effects := [.addAsynOperator route.loop ⟨route.conid, pushReq, req⟩]
            if env.queued < 0 then
              exitPush codec c 0 { svresp with status := env.queued } effects
            else
              exitPush codec c env.queued svresp effects

/-- The end of `CliCon::handlePushResponse`, from the label `exit` on. -/
def exitPushResponse (c : CliCon) (ret : Int) (effects : List Effect) : Reply :=
  ⟨some (if ret ≠ inputFormatError then 0 else ret), c, [], effects⟩

/-- `CliCon::handlePushResponse`. -/
def handlePushResponse (c : CliCon) (env : Env) (req : Bytes) : Reply :=
  match codec.parsePushResponse req with
  | none => exitPushResponse c inputFormatError []
  | some svresp =>
      match svresp.toSessid with
      | none | some [] => exitPushResponse c missToSessionId []
      | some sessid =>
          match getConFromSessid serv env.beyond sessid with
          | none => ⟨none, c, [], []⟩
          | some (.error ret) => exitPushResponse c ret []
          | some (.ok route) =>
              exitPushResponse c (if env.queued < 0 then 0 else env.queued)
                [.addAsynOperator route.loop ⟨route.conid, pushResp, req⟩]

/-- A handler that runs after `updateSession`, whose result is dropped. -/
def refreshing (c : CliCon) (env : Env) (handler : CliCon → Reply) : Reply :=
  let (_, updated, refreshed) := c.updateSession env.now
  let reply := handler updated
  { reply with effects := refreshed ++ reply.effects }

/-- The `switch` of `CliCon::handlePacket`. -/
def handleCmd (c : CliCon) (env : Env) (p : Packet) : Reply :=
  if p.cmd = loginReq then
    c.handleLoginRequest codec serv id env p.body
  else if p.cmd = pushReq then
    c.refreshing env fun c => c.handlePushRequest codec serv env p.body
  else if p.cmd = pushResp then
    c.refreshing env fun c => c.handlePushResponse codec serv env p.body
  else if p.cmd = keepaliveReq then
    c.refreshing env fun c => ⟨some 0, c, [], []⟩
  else
    ⟨some (-1), c, [], []⟩

/-- `CliCon::handlePacket` of the connection with the id `id`. -/
def handlePacket (c : CliCon) (env : Env) (p : Packet) : Handled :=
  let reply := c.handleCmd codec serv id env p
  match reply.ret with
  | none => ⟨-1, reply.con, reply.effects⟩
  | some ret =>
      if reply.resp ≠ [] ∨ p.cmd = keepaliveReq then
        ⟨env.sent, reply.con,
          reply.effects ++ [.sendMessage (constructPacket (p.cmd + 1) reply.resp)]⟩
      else
        ⟨ret, reply.con, reply.effects⟩

end Handlers

/-! ## What a packet does -/

/-- The sessions that `updateSession` writes, read off the connection it leaves. -/
def refreshedSessions (c : CliCon) : List Sess := if 0 ≤ c.sess.type then [] else [c.sess]

/-- The connection after an accepted login. -/
def loggedIn (serv : ServerConfig) (id : Int) (c : CliCon) (now : Int) (lgreq : LoginRequest) :
    CliCon :=
  { ((c.recordLogin serv now lgreq).recordSession serv id lgreq).touch now with status := .login }

section Spec

variable (codec : Codec) (serv : ServerConfig) (id : Int)

/-- The connection `c` queues `op` at the loop `l`, to relay the push in `p`. -/
def Relays (c : CliCon) (env : Env) (p : Packet) (l : Int) (op : SendMsgOp) : Prop :=
  p.cmd = pushReq ∧ 0 ≤ c.sess.type ∧
    ∃ svreq route, codec.parsePushRequest p.body = some svreq ∧
      getConFromSessid serv env.beyond svreq.toSessid = some (.ok route) ∧
      route.loop = l ∧ op = ⟨route.conid, pushReq, p.body⟩

/-- What a packet can do: the connection it leaves, the sessions it writes to the
caches, and the operations it queues. -/
inductive Visited (c : CliCon) (env : Env) (p : Packet) :
    CliCon → List Sess → List (Int × SendMsgOp) → Prop
  | unchanged : ¬p.Refreshes →
      (p.cmd = loginReq → (codec.parseLoginRequest p.body).isSome → c.status = .login) →
      Visited c env p c [] []
  | refused {lgreq : LoginRequest} : p.cmd = loginReq → c.status = .init →
      codec.parseLoginRequest p.body = some lgreq → c.checkType lgreq.type < 0 →
      Visited c env p (c.recordLogin serv env.now lgreq) [] []
  | accepted {lgreq : LoginRequest} : p.cmd = loginReq → c.status = .init →
      codec.parseLoginRequest p.body = some lgreq → c.checkType lgreq.type = 0 →
      Visited c env p (c.loggedIn serv id env.now lgreq)
        (c.loggedIn serv id env.now lgreq).refreshedSessions []
  | refreshed {ops : List (Int × SendMsgOp)} : p.Refreshes →
      (∀ l op, (l, op) ∈ ops ∧ op.cmd = pushReq ↔ Relays codec serv c env p l op) →
      Visited c env p (c.touch env.now) (c.touch env.now).refreshedSessions ops

variable {codec serv id} {c : CliCon} {env : Env} {p : Packet}

theorem checkType_eq_zero_iff {type : Int} : c.checkType type = 0 ↔ ¬c.checkType type < 0 := by
  rw [checkType]
  split_ifs <;> decide

theorem exitLogin_fields (ret : Int) (effects : List Effect) :
    (exitLogin codec c ret effects).con = (if ret < 0 then c else { c with status := .login }) ∧
      (exitLogin codec c ret effects).effects = effects := by
  rw [exitLogin]
  split_ifs <;> exact ⟨rfl, rfl⟩

theorem updateSession_spec (c : CliCon) (now : Int) :
    (c.updateSession now).1 = 0 ∧ (c.updateSession now).2.1 = c.touch now ∧
      writes (c.updateSession now).2.2 = (c.touch now).refreshedSessions ∧
      queued (c.updateSession now).2.2 = [] := by
  rw [updateSession, refreshedSessions]
  split_ifs <;> exact ⟨rfl, rfl, rfl, rfl⟩

theorem not_refreshes_of_login (isLogin : p.cmd = loginReq) : ¬p.Refreshes := by
  rw [Packet.Refreshes, isLogin]
  decide

theorem mem_refreshedSessions {s : Sess} :
    s ∈ c.refreshedSessions ↔ c.sess.type < 0 ∧ s = c.sess := by
  rw [refreshedSessions]
  split_ifs with nonneg
  · simp [Int.not_lt.mpr nonneg]
  · simp [Int.not_le.mp nonneg]

theorem handleLoginRequest_visited (isLogin : p.cmd = loginReq) :
    Visited codec serv id c env p (c.handleLoginRequest codec serv id env p.body).con
      (writes (c.handleLoginRequest codec serv id env p.body).effects)
      (queued (c.handleLoginRequest codec serv id env p.body).effects) := by
  have notRefreshing := not_refreshes_of_login isLogin
  rw [handleLoginRequest]
  cases parsed : codec.parseLoginRequest p.body with
  | none =>
      simp only [exitLogin_fields]
      exact .unchanged notRefreshing fun _ parses => by simp [parsed] at parses
  | some lgreq =>
      cases statusEq : c.status with
      | login =>
          have same : { c with status := .login } = c := by rw [← statusEq]
          simp only [if_true, exitLogin_fields, same]
          exact .unchanged notRefreshing fun _ _ => statusEq
      | init =>
          by_cases refused : c.checkType lgreq.type < 0
          · have recordedRefused : (c.recordLogin serv env.now lgreq).checkType lgreq.type < 0 :=
              refused
            simp only [reduceCtorEq, if_false, if_pos recordedRefused, exitLogin_fields]
            exact .refused isLogin statusEq parsed refused
          · have recordedAccepted : ¬(c.recordLogin serv env.now lgreq).checkType lgreq.type < 0 :=
              refused
            simp only [reduceCtorEq, if_false, if_neg recordedAccepted, exitLogin_fields]
            obtain ⟨retEq, conEq, writesEq, queuedEq⟩ :=
              updateSession_spec ((c.recordLogin serv env.now lgreq).recordSession serv id lgreq)
                env.now
            have addedEq : writes (if 0 < lgreq.type then [.addServer] else []) = [] ∧
                queued (if 0 < lgreq.type then [.addServer] else []) = [] := by
              split_ifs <;> exact ⟨rfl, rfl⟩
            rw [retEq, conEq, if_neg (Int.lt_irrefl 0), writes_append, queued_append, writesEq,
              queuedEq, addedEq.1, addedEq.2]
            exact .accepted isLogin statusEq parsed (checkType_eq_zero_iff.mpr refused)

theorem handlePushRequest_spec (codec : Codec) (serv : ServerConfig) (c : CliCon) (env : Env)
    (req : Bytes) :
    (c.handlePushRequest codec serv env req).con = c ∧
      writes (c.handlePushRequest codec serv env req).effects = [] ∧
      ∀ l op, (l, op) ∈ queued (c.handlePushRequest codec serv env req).effects ↔
        0 ≤ c.sess.type ∧ ∃ svreq route, codec.parsePushRequest req = some svreq ∧
          getConFromSessid serv env.beyond svreq.toSessid = some (.ok route) ∧
          route.loop = l ∧ op = ⟨route.conid, pushReq, req⟩ := by
  rw [handlePushRequest]
  cases parsed : codec.parsePushRequest req with
  | none => simp [exitPush, writes, queued]
  | some svreq =>
      by_cases negative : c.sess.type < 0
      · have notNonneg : ¬0 ≤ c.sess.type := Int.not_le.mpr negative
        simp [negative, notNonneg, exitPush, writes, queued]
      · have nonneg : 0 ≤ c.sess.type := Int.not_lt.mp negative
        simp only [if_neg negative, nonneg, true_and, Option.some.injEq]
        cases routed : getConFromSessid serv env.beyond svreq.toSessid with
        | none => simp [routed, writes, queued]
        | some result =>
            cases result with
            | error ret => simp [routed, exitPush, writes, queued]
            | ok route =>
                by_cases failed : env.queued < 0 <;>
                  simp [failed, routed, exitPush, writes, queued, eq_comm]

theorem handlePushResponse_spec (codec : Codec) (serv : ServerConfig) (c : CliCon) (env : Env)
    (req : Bytes) :
    (c.handlePushResponse codec serv env req).con = c ∧
      writes (c.handlePushResponse codec serv env req).effects = [] ∧
      ∀ l op, (l, op) ∈ queued (c.handlePushResponse codec serv env req).effects →
        op.cmd = pushResp := by
  rw [handlePushResponse]
  split
  · simp [exitPushResponse, writes, queued]
  · split
    · simp [exitPushResponse, writes, queued]
    · simp [exitPushResponse, writes, queued]
    · split <;> simp +contextual [exitPushResponse, writes, queued]

/-- A handler that runs after `updateSession` and itself leaves the connection and the
caches alone. -/
theorem refreshing_visited {handler : CliCon → Reply} (refreshes : p.Refreshes)
    (conEq : (handler (c.touch env.now)).con = c.touch env.now)
    (writesEq : writes (handler (c.touch env.now)).effects = [])
    (queuedIff : ∀ l op, (l, op) ∈ queued (handler (c.touch env.now)).effects ∧ op.cmd = pushReq ↔
      Relays codec serv c env p l op) :
    Visited codec serv id c env p (c.refreshing env handler).con
      (writes (c.refreshing env handler).effects) (queued (c.refreshing env handler).effects) := by
  obtain ⟨-, touchEq, refreshedEq, queuedEq⟩ := updateSession_spec c env.now
  simp only [refreshing, touchEq, conEq, writes_append, queued_append, refreshedEq, queuedEq,
    writesEq, List.append_nil, List.nil_append]
  exact .refreshed refreshes queuedIff

theorem handleCmd_visited :
    Visited codec serv id c env p (c.handleCmd codec serv id env p).con
      (writes (c.handleCmd codec serv id env p).effects)
      (queued (c.handleCmd codec serv id env p).effects) := by
  rw [handleCmd]
  by_cases isLogin : p.cmd = loginReq
  · rw [if_pos isLogin]
    exact handleLoginRequest_visited isLogin
  rw [if_neg isLogin]
  by_cases isPush : p.cmd = pushReq
  · rw [if_pos isPush]
    obtain ⟨conEq, writesEq, queuedIff⟩ :=
      handlePushRequest_spec codec serv (c.touch env.now) env p.body
    refine refreshing_visited (Or.inl isPush) conEq writesEq fun l op => ?_
    rw [queuedIff, Relays]
    constructor
    · rintro ⟨⟨nonneg, svreq, route, parsed, routed, loopEq, opEq⟩, -⟩
      exact ⟨isPush, nonneg, svreq, route, parsed, routed, loopEq, opEq⟩
    · rintro ⟨-, nonneg, svreq, route, parsed, routed, loopEq, rfl⟩
      exact ⟨⟨nonneg, svreq, route, parsed, routed, loopEq, rfl⟩, rfl⟩
  rw [if_neg isPush]
  by_cases isResp : p.cmd = pushResp
  · rw [if_pos isResp]
    obtain ⟨conEq, writesEq, ofQueued⟩ :=
      handlePushResponse_spec codec serv (c.touch env.now) env p.body
    refine refreshing_visited (Or.inr (Or.inl isResp)) conEq writesEq fun l op => ⟨?_, ?_⟩
    · rintro ⟨isQueued, opEq⟩
      exact absurd ((ofQueued l op isQueued).symm.trans opEq) (by decide)
    · rintro ⟨cmdEq, -⟩
      exact absurd cmdEq isPush
  rw [if_neg isResp]
  by_cases isKeepalive : p.cmd = keepaliveReq
  · rw [if_pos isKeepalive]
    refine refreshing_visited (Or.inr (Or.inr isKeepalive)) rfl rfl fun l op => ⟨?_, ?_⟩
    · rintro ⟨isQueued, -⟩
      exact absurd isQueued List.not_mem_nil
    · rintro ⟨cmdEq, -⟩
      exact absurd cmdEq isPush
  · rw [if_neg isKeepalive]
    refine .unchanged ?_ fun login => absurd login isLogin
    simp only [Packet.Refreshes, isPush, isResp, isKeepalive, or_self, not_false_eq_true]

/-- Every packet is one of the four cases. -/
theorem handlePacket_visited (codec : Codec) (serv : ServerConfig) (id : Int) (c : CliCon)
    (env : Env) (p : Packet) :
    Visited codec serv id c env p (c.handlePacket codec serv id env p).con
      (writes (c.handlePacket codec serv id env p).effects)
      (queued (c.handlePacket codec serv id env p).effects) := by
  have visited : Visited codec serv id c env p _ _ _ := handleCmd_visited
  rw [handlePacket]
  cases (c.handleCmd codec serv id env p).ret with
  | none => exact visited
  | some ret =>
      simp only
      by_cases answers : (c.handleCmd codec serv id env p).resp ≠ [] ∨ p.cmd = keepaliveReq
      · rw [if_pos answers]
        simp only [writes_append, queued_append]
        simpa [writes, queued] using visited
      · rw [if_neg answers]
        exact visited

end Spec

end CliCon

/-! ## Runs on fixed inputs -/

/-- A clock, caches that answer, and a socket that takes `sent` bytes. -/
def sampleEnv (sent : Int) : Env := ⟨1700000000, [], fun _ => true, 1, sent⟩

/-- A port for clients, whose types are negative, and servers below 100. -/
def samplePort : CliConfig := ⟨0, 1, -1, 100⟩

end GPush.ConnectServer
