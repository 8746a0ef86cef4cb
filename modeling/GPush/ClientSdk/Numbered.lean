import GPush.ClientSdk.EventLoop

/-!
# Numbered connections

A user has several connections in turn, all under one id.  Here the connections have numbers,
and a `DelConnOp` the number of the one that has queued it.  The application may call from
other threads at any place in a step.
-/

namespace GPush.ClientSdk

open GPush.ConnectServer GPush.Transition

/-! ## What a connection asks for -/

/-- A call of the connection `c` keeps its id, and asks for no other one to be destroyed. -/
structure Own (c : CliConn) (out : Out) : Prop where
  cid : out.con.cid = c.cid
  destroys : ∀ cid, .asynAddOp (.delConn cid) ∈ out.acts → cid = c.cid

section Own

variable {c : CliConn} {net : Net} {codec : PeerCodec}

theorem own_nil {c' : CliConn} {ret : Int} (cid : c'.cid = c.cid) : Own c ⟨ret, c', []⟩ := by
  constructor
  · exact cid
  · intro cid member
    cases member

theorem Own.andThen {out : Out} {next : CliConn → Out} (own : Own c out)
    (later : Own out.con (next out.con)) : Own c (out.andThen next) := by
  constructor
  · exact later.cid.trans own.cid
  · intro cid member
    rcases List.mem_append.mp member with first | second
    · exact own.destroys cid first
    · exact (later.destroys cid second).trans own.cid

/-- The other fields do not matter, nor does the result. -/
theorem Own.congr {c' : CliConn} {out out' : Out} (own : Own c' out) (cid : c'.cid = c.cid)
    (conEq : out'.con.cid = out.con.cid) (actsEq : out'.acts = out.acts) : Own c out' := by
  constructor
  · exact conEq.trans (own.cid.trans cid)
  · intro cid' member
    rw [actsEq] at member
    exact (own.destroys cid' member).trans cid

theorem delConn_notMem_publish (net : Net) (event : Published) (cid : Bytes) :
    .asynAddOp (.delConn cid) ∉ publish net event := by
  simp [publish]

theorem own_setStatus (c : CliConn) (net : Net) (status : LoginStatus) (code : Int)
    (notify : Bool) : Own c (c.setStatus net status code notify) := by
  by_cases same : status = c.loginStatus
  · have outEq : c.setStatus net status code notify = ⟨0, c, []⟩ := by
      simp [CliConn.setStatus, same]
    rw [outEq]
    exact own_nil rfl
  · rw [CliConn.setStatus, if_pos same]
    dsimp only
    generalize (if notify = true then _ else _ : Option Published) = event
    constructor
    · rfl
    · intro cid member
      rcases List.mem_cons.mp member with isEnter | published
      · cases isEnter
      · cases event with
        | none => cases published
        | some event => exact absurd published (delConn_notMem_publish net event cid)

theorem own_shut (c : CliConn) (net : Net) (status : LoginStatus) (code : Int) :
    Own c (c.shut net status code) := by
  have entered : Own c (c.closefd.setStatus net status code true) :=
    (own_setStatus c.closefd net status code true).congr rfl rfl rfl
  apply entered.andThen
  constructor
  · rfl
  · intro cid member
    obtain ⟨rfl⟩ : cid = _ := by simpa [CliConn.asynDestroy] using member
    rfl

theorem own_sendPacket (c : CliConn) (net : Net) (cmd : Int) (body : Bytes) :
    Own c (c.sendPacket net cmd body) := by
  rw [CliConn.sendPacket, CliConn.send]
  split_ifs
  · exact own_nil rfl
  · exact ⟨rfl, by simp⟩
  · exact ⟨rfl, by simp⟩

theorem own_login (c : CliConn) (net : Net) : Own c (c.login codec net) := by
  apply (own_setStatus c net .doLogin 0 false).andThen
  generalize (c.setStatus net .doLogin 0 false).con = c'
  exact (own_sendPacket { c' with loginTime := net.ms } net loginReq _).congr rfl rfl rfl

variable (codec) in
theorem own_connectAndLogin (c : CliConn) (net : Net) : Own c (c.connectAndLogin codec net) := by
  rw [CliConn.connectAndLogin]
  split_ifs with idle
  · rcases connectServer_spec c net with ⟨c', cidEq, -, ⟨-, outEq⟩ | outEq⟩
    · rw [outEq, if_pos rfl]
      exact Own.andThen (own_nil cidEq) (own_login c' net)
    · rw [outEq, if_neg (by simp)]
      exact (own_shut c' net .loginFail networkError).congr cidEq rfl rfl
  · exact own_nil rfl

/-- The next address is tried. -/
theorem own_retry (c : CliConn) (net : Net) :
    Own c ((c.setStatus net .disconnect 0 false).andThen fun c => c.connectAndLogin codec net) := by
  apply (own_setStatus c net .disconnect 0 false).andThen
  exact own_connectAndLogin codec _ net

theorem own_onTimeout (c : CliConn) (net : Net) (op : TimerOp) : Own c (c.onTimeout net op) := by
  cases op with
  | login => exact own_shut c net .loginFail timeoutError
  | keepalive =>
      rw [CliConn.onTimeout, CliConn.keepalive]
      split_ifs
      · exact own_shut c net .disconnect timeoutError
      · exact (own_sendPacket (c.addKeepaliveTimer net) net keepaliveReq []).congr rfl rfl rfl

theorem own_runTimers (nets : Nat → Net) (timers : List (Int × TimerOp)) (n : Nat) (c : CliConn) :
    Own c (CliConn.runTimers nets n c timers) := by
  induction timers generalizing n c with
  | nil => exact own_nil rfl
  | cons timer timers ih => exact (own_onTimeout c (nets n) timer.2).andThen (ih (n + 1) _)

theorem own_processTimers (c : CliConn) (now : Int) (nets : Nat → Net) :
    Own c (c.processTimers now nets) := by
  have ran := own_runTimers nets (c.timers.takeWhile fun timer => timer.1 ≤ now) 0
    { c with timers := c.timers.dropWhile fun timer => timer.1 ≤ now }
  exact ran.congr rfl rfl rfl

theorem own_handleLoginResponse {resp : Bytes} {out : Out}
    (handled : c.handleLoginResponse codec net resp = some out) : Own c out := by
  have cidEq : (c.popTimer .login).cid = c.cid := rfl
  rw [CliConn.handleLoginResponse] at handled
  generalize c.popTimer .login = c' at handled cidEq
  cases parsed : codec.parseLoginResponse resp with
  | none =>
      simp only [parsed] at handled
      rw [← Option.some.inj handled]
      exact own_nil cidEq
  | some lgresp =>
      simp only [parsed] at handled
      split_ifs at handled with accepted
      · rw [← Option.some.inj handled]
        have own := own_setStatus { c' with sessid := lgresp.sessid } net .login lgresp.status true
        exact own.congr cidEq rfl rfl
      · cases listed : c'.svrlist with
        | nil => simp [listed] at handled
        | cons item svrlist =>
            simp only [listed] at handled
            split_ifs at handled with last
            · rw [← Option.some.inj handled]
              exact (own_shut { c' with svrlist := svrlist } net .loginFail lgresp.status).congr
                cidEq rfl rfl
            · rw [← Option.some.inj handled]
              exact (own_retry { c' with svrlist := svrlist } net).congr cidEq rfl rfl

theorem own_handleServiceRequest (c : CliConn) (net : Net) (reqbody : Bytes) :
    Own c (c.handleServiceRequest codec net reqbody) := by
  rw [CliConn.handleServiceRequest]
  cases codec.parsePushRequest reqbody with
  | none => exact own_nil rfl
  | some svreq =>
      have sent := own_sendPacket c net pushResp (codec.serializePushResponse
        ⟨svreq.toSessid, some svreq.fromSessid, svreq.sn, 0⟩)
      constructor
      · exact sent.cid
      · intro cid member
        rcases List.mem_append.mp member with published | later
        · exact absurd published (delConn_notMem_publish _ _ cid)
        · exact sent.destroys cid later

theorem own_handlePackets {packets : List Received} {out : Out}
    (handled : c.handlePackets codec packets = some out) : Own c out := by
  induction packets generalizing c out with
  | nil =>
      rw [← Option.some.inj handled]
      exact own_nil rfl
  | cons r rest ih =>
      rcases Option.bind_eq_some_iff.mp handled with ⟨first, firstEq, restEq⟩
      rcases Option.map_eq_some_iff.mp restEq with ⟨later, laterEq, rfl⟩
      have own : Own c first := by
        rw [CliConn.handlePacket] at firstEq
        split_ifs at firstEq
        · exact own_handleLoginResponse firstEq
        · rw [← Option.some.inj firstEq]
          exact own_handleServiceRequest c r.net r.body
        · rw [← Option.some.inj firstEq]
          exact own_nil rfl
      exact own.andThen (ih laterEq)

theorem own_handleRead {received : Option (List Received)} {out : Out}
    (handled : c.handleRead codec net received = some out) : Own c out := by
  rw [CliConn.handleRead] at handled
  split_ifs at handled with closed
  · rw [← Option.some.inj handled]
    exact own_nil rfl
  · cases received with
    | none =>
        rw [← Option.some.inj handled]
        exact own_nil rfl
    | some packets => exact (own_handlePackets handled).congr rfl rfl rfl

end Own

/-! ## The loop with numbered connections -/

/-- An operation that waits, a `DelConnOp` with the number of the connection whose
`asynDestroy` has queued it. -/
inductive Pending
  | call (c : Call)
  | delConn (cid : Bytes) (owner : Nat)
  deriving DecidableEq, Repr

/-- The operation. -/
def Pending.op : Pending → Op
  | .call c => .call c
  | .delConn cid _ => .delConn cid

/-- An operation that the connection with a number has queued. -/
def Pending.ofOp (owner : Nat) : Op → Pending
  | .call c => .call c
  | .delConn cid => .delConn cid owner

/-- `m_conns` with the numbers of the connections, the operations, and the connections that
have been destroyed; the number of connections made, and for each `DelConnOp` that has
destroyed a connection the number of the one that queued it and of the one destroyed. -/
structure Numbered where
  conns : Bytes → Option (Nat × Obj)
  ops : List Pending
  dead : List Obj
  made : Nat
  kills : List (Nat × Nat)

/-- What happens, and the calls that other threads make before each of the operations that
the step queues, and behind them. -/
structure Happening where
  event : EventLoop.Event
  others : Nat → List Call

/-- Operations with the calls of other threads. -/
def mix (others : Nat → List Call) : Nat → List Pending → List Pending
  | n, [] => (others n).map .call
  | n, p :: rest => (others n).map .call ++ p :: mix others (n + 1) rest

namespace Numbered

/-- A loop that has just started. -/
def init : Numbered := ⟨fun _ => none, [], [], 0, []⟩

/-- The loop without the numbers. -/
def erase (el : Numbered) : EventLoop :=
  ⟨fun cid => (el.conns cid).map Prod.snd, el.ops.map Pending.op, el.dead⟩

/-- The loop after a call of the connection `o`. -/
def call (el : Numbered) (others : Nat → List Call) (cid : Bytes) (id : Nat) (o : Obj)
    (out : Out) : Numbered :=
  { el with
    conns := Function.update el.conns cid (some (id, o.after out))
    ops := el.ops ++ mix others 0 ((EventLoop.queued out.acts).map (Pending.ofOp id)) }

/-- The connection with an id is destroyed. -/
def destroy (el : Numbered) (cid : Bytes) (o : Obj) : Numbered :=
  { el with conns := Function.update el.conns cid none, dead := el.dead ++ [o] }

/-- `EventLoop::delConn`. -/
def delConn (el : Numbered) (cid : Bytes) : Numbered :=
  match el.conns cid with
  | some found => el.destroy cid found.2
  | none => el

section Steps

variable (codec : PeerCodec)

/-- `LoginOp::process`, and the timer of an operation that waits. -/
def processLogin (el : Numbered) (others : Nat → List Call) (op : LoginOp) (net : Net) :
    Numbered :=
  match el.conns op.cid with
  | some _ => el
  | none =>
      let c := CliConn.init net op
      let out := c.connectAndLogin codec net
      let con := if out.ret = 0 then out.con.addTimer net .login opDefaultTimeout else out.con
      { el with made := el.made + 1 }.call others op.cid el.made ⟨c, []⟩ { out with con := con }

/-- `process` of an operation. -/
def processOp (el : Numbered) (others : Nat → List Call) (net : Net) : Pending → Numbered
  | .call (.login op) => el.processLogin codec others op net
  | .call (.disconnect cid) =>
      match el.conns cid with
      | some (id, o) => el.call others cid id o (o.con.onDisconnect net 0)
      | none => el
  | .delConn cid owner =>
      { el.delConn cid with
        kills := el.kills ++ ((el.conns cid).map fun found => (owner, found.1)).toList }

/-- What `EventLoop::processTimers` does with a connection. -/
def visit (el : Numbered) (others : Nat → List Call) (cid : Bytes) (id : Nat) (o : Obj)
    (now : Int) (nets : Nat → Net) : Numbered :=
  if o.con.fd = false then
    el.destroy cid o
  else
    el.call others cid id o (o.con.processTimers now nets)

/-- What `EventLoop::run` does with a connection that can be read. -/
def read (el : Numbered) (others : Nat → List Call) (cid : Bytes) (id : Nat) (o : Obj) (net : Net)
    (received : Option (List Received)) : Option Numbered :=
  (o.con.handleRead codec net received).map fun out =>
    if out.ret < 0 then
      let out := out.andThen fun c => c.onDisconnect net networkError
      (el.call others cid id o out).delConn out.con.cid
    else
      el.call others cid id o out

/-- The step of an event, where it can happen. -/
def next (el : Numbered) (happening : Happening) : Option Numbered :=
  match happening.event with
  | .call c => some { el with ops := el.ops ++ [.call c] }
  | .process net =>
      match el.ops with
      | [] => none
      | op :: rest => some ({ el with ops := rest }.processOp codec happening.others net op)
  | .timers cid now nets =>
      (el.conns cid).map fun found => el.visit happening.others cid found.1 found.2 now nets
  | .read cid net received =>
      (el.conns cid).bind fun found =>
        el.read codec happening.others cid found.1 found.2 net received

/-- The step relation. -/
def Step : LTS Numbered Happening := fun el happening el' => el.next codec happening = some el'

end Steps

/-- The oldest operation is processed. -/
theorem step_process {codec : PeerCodec} {el el' : Numbered} {net : Net}
    {others : Nat → List Call} (taken : Step codec el ⟨.process net, others⟩ el') :
    ∃ op rest, el.ops = op :: rest ∧
      el' = { el with ops := rest }.processOp codec others net op := by
  rw [Step, next] at taken
  cases waiting : el.ops with
  | nil => simp [waiting] at taken
  | cons op rest =>
      simp only [waiting] at taken
      exact ⟨op, rest, rfl, (Option.some.inj taken).symm⟩

/-! ## The loop without the numbers

When no other thread calls in the middle of a step, the steps are those of the event loop. -/

theorem mix_nil (n : Nat) (ops : List Pending) : mix (fun _ => []) n ops = ops := by
  induction ops generalizing n with
  | nil => rfl
  | cons op rest ih => rw [mix, ih, List.map_nil, List.nil_append]

theorem op_ofOp (id : Nat) (op : Op) : (Pending.ofOp id op).op = op := by
  cases op <;> rfl

theorem erase_update (conns : Bytes → Option (Nat × Obj)) (cid : Bytes)
    (found : Option (Nat × Obj)) :
    (fun cid' => (Function.update conns cid found cid').map Prod.snd) =
      Function.update (fun cid' => (conns cid').map Prod.snd) cid (found.map Prod.snd) := by
  funext cid'
  by_cases same : cid' = cid
  · subst same
    simp
  · simp [same]

theorem erase_call (el : Numbered) (cid : Bytes) (id : Nat) (o : Obj) (out : Out) :
    (el.call (fun _ => []) cid id o out).erase = el.erase.call cid o out := by
  have opsEq : ((EventLoop.queued out.acts).map (Pending.ofOp id)).map Pending.op =
      EventLoop.queued out.acts := by
    rw [List.map_map]
    exact (List.map_congr_left fun op _ => op_ofOp id op).trans (List.map_id _)
  rw [Numbered.call, erase, EventLoop.call, erase]
  simp only [erase_update, mix_nil, List.map_append, opsEq, Option.map_some]

theorem erase_destroy (el : Numbered) (cid : Bytes) (o : Obj) :
    (el.destroy cid o).erase = { el.erase with
      conns := Function.update el.erase.conns cid none, dead := el.erase.dead ++ [o] } := by
  rw [destroy, erase, erase]
  simp only [erase_update, Option.map_none]

theorem erase_delConn (el : Numbered) (cid : Bytes) :
    (el.delConn cid).erase = el.erase.delConn cid := by
  have connsEq : el.erase.conns cid = (el.conns cid).map Prod.snd := rfl
  rw [delConn, EventLoop.delConn, connsEq]
  cases el.conns cid with
  | none => rfl
  | some found => exact erase_destroy el cid found.2

section Steps

variable {codec : PeerCodec}

theorem erase_processOp (el : Numbered) (net : Net) (op : Pending) :
    (el.processOp codec (fun _ => []) net op).erase = el.erase.processOp codec net op.op := by
  cases op with
  | delConn cid owner => exact erase_delConn el cid
  | call c =>
      cases c with
      | login op =>
          have connsEq : el.erase.conns op.cid = (el.conns op.cid).map Prod.snd := rfl
          rw [processOp, processLogin, Pending.op, EventLoop.processOp, EventLoop.processLogin,
            connsEq]
          cases el.conns op.cid with
          | some found => rfl
          | none => exact erase_call { el with made := el.made + 1 } _ _ _ _
      | disconnect cid =>
          have connsEq : el.erase.conns cid = (el.conns cid).map Prod.snd := rfl
          rw [processOp, Pending.op, EventLoop.processOp, connsEq]
          cases el.conns cid with
          | none => rfl
          | some found => exact erase_call el cid _ _ _

/-- The numbers change nothing. -/
theorem step_erase {el el' : Numbered} {event : EventLoop.Event}
    (taken : Step codec el ⟨event, fun _ => []⟩ el') :
    EventLoop.Step codec el.erase event el'.erase := by
  rw [EventLoop.Step]
  cases event with
  | call c =>
      rw [← Option.some.inj taken]
      simp [EventLoop.next, erase, Pending.op]
  | process net =>
      rcases step_process taken with ⟨op, rest, waiting, rfl⟩
      have opsEq : el.erase.ops = op.op :: rest.map Pending.op := by simp [erase, waiting]
      rw [EventLoop.next, opsEq, erase_processOp]
      rfl
  | timers cid now nets =>
      rcases Option.map_eq_some_iff.mp taken with ⟨⟨id, o⟩, found, rfl⟩
      have connsEq : el.erase.conns cid = some o := by simp [erase, found]
      rw [EventLoop.next, connsEq, Option.map_some, visit, EventLoop.visit]
      split_ifs with closed
      · rw [erase_destroy]
      · rw [erase_call]
  | read cid net received =>
      rcases Option.bind_eq_some_iff.mp taken with ⟨⟨id, o⟩, found, readEq⟩
      rcases Option.map_eq_some_iff.mp readEq with ⟨out, handled, rfl⟩
      have connsEq : el.erase.conns cid = some o := by simp [erase, found]
      rw [EventLoop.next, connsEq, Option.bind_some, EventLoop.read, handled, Option.map_some]
      split_ifs with failed
      · rw [erase_delConn, erase_call]
      · rw [erase_call]

end Steps

end Numbered

end GPush.ClientSdk
