import GPush.ClientSdk.Accounted
import GPush.ConnectServer.Lookup
import GPush.ConnectServer.MessageClasses

/-!
# The event loop of the client SDK

The loop owns the connections.  It destroys one that has no socket when it processes the
timers, one that a `DelConnOp` names, and one whose read fails.
-/

namespace GPush.ClientSdk

open GPush.ConnectServer GPush.Transition

/-! ## The loop -/

/-- A connection object, with what it has done. -/
structure Obj where
  con : CliConn
  past : List Act
  deriving DecidableEq, Repr

/-- The object after a call. -/
def Obj.after (o : Obj) (out : Out) : Obj := ⟨out.con, o.past ++ out.acts⟩

/-- `m_conns`, the operations of the loop, oldest first, and the connections that have
been destroyed. -/
structure EventLoop where
  conns : Bytes → Option Obj
  ops : List Op
  dead : List Obj

namespace EventLoop

/-- A loop that has just started. -/
def init : EventLoop := ⟨fun _ => none, [], []⟩

/-- The operations that are queued. -/
def queued (acts : List Act) : List Op :=
  acts.filterMap fun
    | .asynAddOp op => some op
    | _ => none

/-- The loop after a call of the connection `o`. -/
def call (el : EventLoop) (cid : Bytes) (o : Obj) (out : Out) : EventLoop :=
  { el with
    conns := Function.update el.conns cid (some (o.after out))
    ops := el.ops ++ queued out.acts }

/-- `EventLoop::delConn`. -/
def delConn (el : EventLoop) (cid : Bytes) : EventLoop :=
  match el.conns cid with
  | some o => { el with conns := Function.update el.conns cid none, dead := el.dead ++ [o] }
  | none => el

section Steps

variable (codec : PeerCodec)

/-- `LoginOp::process`, and the timer of an operation that waits. -/
def processLogin (el : EventLoop) (op : LoginOp) (net : Net) : EventLoop :=
  match el.conns op.cid with
  | some _ => el
  | none =>
      let c := CliConn.init net op
      let out := c.connectAndLogin codec net
      let con := if out.ret = 0 then out.con.addTimer net .login opDefaultTimeout else out.con
      el.call op.cid ⟨c, []⟩ { out with con := con }

/-- `process` of an operation. -/
def processOp (el : EventLoop) (net : Net) : Op → EventLoop
  | .call (.login op) => el.processLogin codec op net
  | .call (.disconnect cid) =>
      match el.conns cid with
      | some o => el.call cid o (o.con.onDisconnect net 0)
      | none => el
  | .delConn cid => el.delConn cid

/-- What `EventLoop::processTimers` does with a connection. -/
def visit (el : EventLoop) (cid : Bytes) (o : Obj) (now : Int) (nets : Nat → Net) : EventLoop :=
  if o.con.fd = false then
    { el with conns := Function.update el.conns cid none, dead := el.dead ++ [o] }
  else
    el.call cid o (o.con.processTimers now nets)

/-- What `EventLoop::run` does with a connection that can be read. -/
def read (el : EventLoop) (cid : Bytes) (o : Obj) (net : Net)
    (received : Option (List Received)) : Option EventLoop :=
  (o.con.handleRead codec net received).map fun out =>
    if out.ret < 0 then
      let out := out.andThen fun c => c.onDisconnect net networkError
      (el.call cid o out).delConn out.con.cid
    else
      el.call cid o out

/-- What happens: a user calls, an operation is processed, the timers of a connection are
processed, or a connection is read. -/
inductive Event
  | call (c : Call)
  | process (net : Net)
  | timers (cid : Bytes) (now : Int) (nets : Nat → Net)
  | read (cid : Bytes) (net : Net) (received : Option (List Received))

/-- The step of an event, where it can happen. -/
def next (el : EventLoop) : Event → Option EventLoop
  | .call c => some { el with ops := el.ops ++ [.call c] }
  | .process net =>
      match el.ops with
      | [] => none
      | op :: rest => some ({ el with ops := rest }.processOp codec net op)
  | .timers cid now nets => (el.conns cid).map fun o => el.visit cid o now nets
  | .read cid net received => (el.conns cid).bind fun o => el.read codec cid o net received

/-- The step relation. -/
def Step : LTS EventLoop Event := fun el event el' => el.next codec event = some el'

end Steps

/-- The oldest operation is processed. -/
theorem step_process {codec : PeerCodec} {el el' : EventLoop} {net : Net}
    (taken : Step codec el (.process net) el') :
    ∃ op rest, el.ops = op :: rest ∧ el' = { el with ops := rest }.processOp codec net op := by
  rw [Step, next] at taken
  cases waiting : el.ops with
  | nil => simp [waiting] at taken
  | cons op rest =>
      simp only [waiting] at taken
      exact ⟨op, rest, rfl, (Option.some.inj taken).symm⟩

/-- A connection is destroyed accounted for. -/
def Notified (el : EventLoop) : Prop := ∀ o ∈ el.dead, Accounted o.past

/-- Every packet can be sent, and a `DelConnOp` finds no connection with a socket. -/
def Guard (el : EventLoop) : Event → Prop
  | .call _ => True
  | .process net =>
      0 < net.sent ∧ ∀ cid rest, el.ops = .delConn cid :: rest →
        ∀ o, el.conns cid = some o → o.con.fd = false
  | .timers _ _ nets => ∀ n, 0 < (nets n).sent
  | .read _ _ received => ∀ packets, received = some packets → ∀ r ∈ packets, 0 < r.net.sent

/-- The invariant. -/
structure Kept (el : EventLoop) : Prop where
  conns : ∀ cid o, el.conns cid = some o → o.con.cid = cid ∧ Sound o.con o.past
  notified : el.Notified

theorem kept_init : Kept init := by
  constructor
  · intro cid o found
    cases found
  · intro o member
    cases member

namespace Kept

variable {codec : PeerCodec} {el : EventLoop} {cid : Bytes} {o : Obj}

/-- The operations do not matter. -/
theorem ops (kept : Kept el) (ops : List Op) : Kept { el with ops := ops } :=
  ⟨kept.conns, kept.notified⟩

theorem call {out : Out} (kept : Kept el) (named : out.con.cid = cid)
    (sound : Sound out.con (o.past ++ out.acts)) : Kept (el.call cid o out) := by
  constructor
  · intro cid' o' found
    rcases Table.update_eq_some.mp found with ⟨rfl, new⟩ | ⟨-, old⟩
    · rw [← Option.some.inj new]
      exact ⟨named, sound⟩
    · exact kept.conns cid' o' old
  · exact kept.notified

/-- A connection that is destroyed has to be accounted for. -/
theorem destroy (kept : Kept el) (accounted : Accounted o.past) :
    Kept { el with conns := Function.update el.conns cid none, dead := el.dead ++ [o] } := by
  constructor
  · intro cid' o' found
    rcases Table.update_eq_some.mp found with ⟨-, gone⟩ | ⟨-, old⟩
    · cases gone
    · exact kept.conns cid' o' old
  · intro o' member
    rcases List.mem_append.mp member with earlier | new
    · exact kept.notified o' earlier
    · rw [List.mem_singleton.mp new]
      exact accounted

theorem delConn (kept : Kept el) (accounted : ∀ o, el.conns cid = some o → Accounted o.past) :
    Kept (el.delConn cid) := by
  rw [EventLoop.delConn]
  cases found : el.conns cid with
  | none => exact kept
  | some o => exact kept.destroy (accounted o found)

theorem processLogin (kept : Kept el) (op : LoginOp) {net : Net} (works : 0 < net.sent) :
    Kept (el.processLogin codec op net) := by
  rw [EventLoop.processLogin]
  cases el.conns op.cid with
  | some o => exact kept
  | none =>
      have loggedIn : Keeps (CliConn.init net op) []
          ((CliConn.init net op).connectAndLogin codec net) := connectAndLogin_keeps rfl works
      apply kept.call
      · split_ifs
        · exact loggedIn.cid
        · exact loggedIn.cid
      · split_ifs
        · exact loggedIn.sound.congr rfl rfl
        · exact loggedIn.sound

theorem processOp (kept : Kept el) {net : Net} (works : 0 < net.sent) (op : Op)
    (stale : ∀ cid, op = .delConn cid → ∀ o, el.conns cid = some o → o.con.fd = false) :
    Kept (el.processOp codec net op) := by
  cases op with
  | delConn cid =>
      apply kept.delConn
      intro o found
      exact (kept.conns cid o found).2.closed (stale cid rfl o found)
  | call c =>
      cases c with
      | login op => exact kept.processLogin op works
      | disconnect cid =>
          rw [EventLoop.processOp]
          cases found : el.conns cid with
          | none => exact kept
          | some o =>
              rcases kept.conns cid o found with ⟨named, sound⟩
              rcases sound.onDisconnect net 0 with ⟨cidEq, sound'⟩
              exact kept.call (cidEq.trans named) sound'

theorem visit (kept : Kept el) (found : el.conns cid = some o) (now : Int) {nets : Nat → Net}
    (works : ∀ n, 0 < (nets n).sent) : Kept (el.visit cid o now nets) := by
  rcases kept.conns cid o found with ⟨named, sound⟩
  rw [EventLoop.visit]
  split_ifs with closed
  · exact kept.destroy (sound.closed closed)
  · rcases sound.processTimers works now with ⟨cidEq, sound'⟩
    exact kept.call (cidEq.trans named) sound'

theorem read {net : Net} {received : Option (List Received)} {el' : EventLoop} (kept : Kept el)
    (found : el.conns cid = some o) (works : Guard el (.read cid net received))
    (taken : el.read codec cid o net received = some el') : Kept el' := by
  rcases kept.conns cid o found with ⟨named, sound⟩
  rcases Option.map_eq_some_iff.mp taken with ⟨out, handled, rfl⟩
  rcases sound.handleRead works handled with ⟨cidEq, sound'⟩
  split_ifs with failed
  · have ended := sound'.onDisconnect net networkError
    have shut : Keeps o.con o.past (out.andThen fun c => c.onDisconnect net networkError) :=
      Keeps.andThen cidEq ended
    have cidEq' := shut.cid.trans named
    apply (kept.call cidEq' shut.sound).delConn
    intro o' found'
    rw [cidEq'] at found'
    rcases Table.update_eq_some.mp found' with ⟨-, new⟩ | ⟨other, -⟩
    · rw [← Option.some.inj new]
      exact shut.sound.closed (shut_closed _ _ _ _)
    · exact absurd rfl other
  · exact kept.call (cidEq.trans named) sound'

/-- The step lemma. -/
theorem step {event : Event} {el' : EventLoop} (kept : Kept el) (guarded : Guard el event)
    (taken : Step codec el event el') : Kept el' := by
  cases event with
  | call c =>
      rw [← Option.some.inj taken]
      exact kept.ops _
  | process net =>
      rcases step_process taken with ⟨op, rest, waiting, rfl⟩
      apply (kept.ops rest).processOp guarded.1
      rintro cid rfl
      exact guarded.2 cid rest waiting
  | timers cid now nets =>
      rcases Option.map_eq_some_iff.mp taken with ⟨o, found, rfl⟩
      exact kept.visit found now guarded
  | read cid net received =>
      rcases Option.bind_eq_some_iff.mp taken with ⟨o, found, readEq⟩
      exact kept.read found guarded readEq

end Kept

/-- In every run in which every packet can be sent and no `DelConnOp` meets a connection
with a socket, no connection is destroyed silently. -/
theorem notified_of_guarded {codec : PeerCodec} {events : List Event} {el : EventLoop}
    (run : Run (Step codec) Guard init events el) : el.Notified := by
  have kept : Kept el := run.invariant kept_init fun _ _ _ kept guarded taken =>
    kept.step guarded taken
  exact kept.notified

/-- The login of the connection 99. -/
def ownLogin : LoginOp := ⟨[99], [49], 9000, [118], 300⟩

/-- A network that works. -/
def working : Net := ⟨0, fun _ => true, 26, []⟩

/-- A push to it. -/
def ownPush : PushRequest := ⟨[112], [115], [49], 0, []⟩

/-- The connection 99 after its login has been sent. -/
def loggingIn : Obj where
  con := { CliConn.init working ownLogin with
    fd := true
    loginStatus := .doLogin
    timers := [(10000000, .login)] }
  past := [.enter .doLogin,
    .tcpSend (peerBytes loginReq (gimCodec.serializeLoginRequest ⟨[99], -1, some [118]⟩))]

/-- The connection after that has taken too long. -/
def timedOut : Obj where
  con := { CliConn.init working ownLogin with
    loginStatus := .loginFail
    loginStatusCode := timeoutError }
  past := loggingIn.past ++ [.enter .loginFail, .publish (.loginFail [99] timeoutError),
    .asynAddOp (.delConn [99])]

/-- The login is sent and not answered: its timer ends it, and the connection is destroyed
the next time. -/
theorem notified_of_guarded_timeout :
    ∃ el, Run (Step gimCodec) Guard init
        [.call (.login ownLogin), .process working, .timers [99] 10000000 fun _ => working,
          .timers [99] 10000000 fun _ => working] el ∧
      el.dead = [timedOut] ∧ el.Notified := by
  let only (o : Option Obj) (conns : Bytes → Option Obj) := Function.update conns [99] o
  let queued : EventLoop := ⟨init.conns, [.call (.login ownLogin)], []⟩
  let waiting : EventLoop := ⟨only (some loggingIn) init.conns, [], []⟩
  let closed : EventLoop := ⟨only (some timedOut) waiting.conns, [.delConn [99]], []⟩
  let ended : EventLoop := ⟨only none closed.conns, [.delConn [99]], [timedOut]⟩
  have called : Step gimCodec init (.call (.login ownLogin)) queued := rfl
  have processed : Step gimCodec queued (.process working) waiting := rfl
  have fired : Step gimCodec waiting (.timers [99] 10000000 fun _ => working) closed := rfl
  have reaped : Step gimCodec closed (.timers [99] 10000000 fun _ => working) ended := rfl
  have guarded : Guard queued (.process working) := by
    constructor
    · decide
    · intro cid rest waits
      cases waits
  have works : 0 < working.sent := by decide
  have run : Run (Step gimCodec) Guard init
      [.call (.login ownLogin), .process working, .timers [99] 10000000 fun _ => working,
        .timers [99] 10000000 fun _ => working] ended := by
    apply Run.cons trivial called
    apply Run.cons guarded processed
    apply Run.cons (fun _ => works) fired
    exact Run.single (fun _ => works) reaped
  exact ⟨ended, run, rfl, notified_of_guarded run⟩

/-- A run that destroys a connection silently, found by executing it. -/
theorem silent_of_played {codec : PeerCodec} {events : List Event}
    (played : (events.foldlM (next codec) init).any
      (fun el => el.dead.any fun o => !decide (Accounted o.past)) = true) :
    ∃ el, Run (Step codec) anyStep init events el ∧ ¬el.Notified := by
  rcases (Option.any_eq_true _ _).mp played with ⟨el, executed, silent⟩
  rcases List.any_eq_true.mp silent with ⟨o, member, unaccounted⟩
  have run : Run (Step codec) anyStep init events el :=
    Run.of_foldlM (fun _ _ _ taken => ⟨trivial, taken⟩) executed
  refine ⟨el, run, ?_⟩
  intro notified
  simp [notified o member] at unaccounted

/-- The login is accepted. -/
def acceptLogin : List Event :=
  [.call (.login ownLogin), .process working,
    .read [99] working (some [⟨loginResp, gimCodec.serializeLoginResponse ⟨0, [115]⟩, working⟩])]

/-- A push arrives that cannot be answered: the socket is closed, and the connection is
destroyed without an event. -/
theorem silent_after_send_failure :
    ∃ el, Run (Step gimCodec) anyStep init (acceptLogin ++
        [.read [99] working
            (some [⟨pushReq, gimCodec.serializePushRequest ownPush, { working with sent := 0 }⟩]),
          .timers [99] 0 fun _ => working]) el ∧ ¬el.Notified :=
  silent_of_played (by decide +kernel)

/-- The user logs in again when the connection is lost.  The `DelConnOp` of the lost
connection finds the new one. -/
theorem silent_after_login_again :
    ∃ el, Run (Step gimCodec) anyStep init (acceptLogin ++
        [.read [99] { working with reaction := [.login ownLogin] } none,
          .process working, .process working]) el ∧ ¬el.Notified :=
  silent_of_played (by decide +kernel)

end EventLoop
end GPush.ClientSdk
