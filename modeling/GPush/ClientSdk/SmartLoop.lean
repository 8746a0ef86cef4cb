import GPush.ClientSdk.SmartOp
import GPush.Transition.Program
import Mathlib.Data.List.Sort

/-!
# The loop of the client SDK and its operations

The functions of the loop and of its connections as programs, whose actions are the member
functions of `SmartOp`, the uses of an operation and the changes of the containers.  Users queue
operations at any time.
-/

namespace GPush.ClientSdk

open GPush.ConnectServer GPush.Transition

/-- A timer of a connection: its `TimerKey`, and the address of its `SmartOp`. -/
structure TimerNode where
  deadline : Int
  id : Bytes
  smart : Nat
  deriving DecidableEq, Repr

/-- A connection with its `m_timers`.  The timers of `con` are not used. -/
structure SmartConn where
  con : CliConn
  timers : List TimerNode
  deriving DecidableEq, Repr

/-- The operations, `m_ops` from the oldest on, and `m_conns` in no order. -/
structure SmartLoop where
  mem : OpMemory
  ops : List Nat
  conns : List (Bytes × SmartConn)
  deriving DecidableEq, Repr

namespace SmartLoop

/-- A loop that has just started. -/
def init : SmartLoop := ⟨⟨[], []⟩, [], []⟩

/-- `EventLoop::findConn`. -/
def findConn (el : SmartLoop) (cid : Bytes) : Option SmartConn :=
  (el.conns.find? fun entry => entry.1 = cid).map Prod.snd

/-- `m_conns` without a connection. -/
def removeConn (el : SmartLoop) (cid : Bytes) : SmartLoop :=
  { el with conns := el.conns.eraseP fun entry => entry.1 = cid }

/-- A connection is changed. -/
def setConn (el : SmartLoop) (cid : Bytes) (conn : SmartConn) : SmartLoop :=
  { el with conns := (cid, conn) :: (el.removeConn cid).conns }

/-- `EventLoop::asynAddOp` of a new operation. -/
def asynAddOp (el : SmartLoop) (data : OpData) : SmartLoop :=
  { el with mem := el.mem.new data, ops := el.ops ++ [el.mem.ops.length] }

/-- The operations that a call queues. -/
def queued (acts : List Act) : List OpData :=
  acts.filterMap fun
    | .asynAddOp (.call (.login op)) => some (.login op)
    | .asynAddOp (.call (.disconnect cid)) => some (.disconnect cid)
    | .asynAddOp (.delConn cid) => some (.delConn cid)
    | _ => none

/-- Users queue any operations. -/
def Users (el el' : SmartLoop) : Prop := ∃ data, el' = el.asynAddOp data

/-- A function of the loop. -/
abbrev Code := Program SmartLoop

/-! ## Actions -/

section Actions

/-- An action on the operations. -/
def onMemory {β : Type} (f : OpMemory → Option (β × OpMemory)) : Code β :=
  .action fun el => (f el.mem).map fun (b, mem) => (b, { el with mem := mem })

/-- `SmartOp::SmartOp` of a pointer. -/
def smartOp (op : Option Nat) : Code Nat := onMemory fun m => m.construct op

/-- `SmartOp::SmartOp` of another one. -/
def copyOf (oth : Nat) : Code Nat := onMemory fun m => m.copy oth

/-- `SmartOp::~SmartOp`. -/
def destroy (i : Nat) : Code Unit := onMemory fun m => (m.destroy i).map fun m => ((), m)

/-- `SmartOp::release`. -/
def release (i : Nat) : Code Int := onMemory fun m => m.release i

/-- `SmartOp::reset`. -/
def reset (i : Nat) (op : Option Nat) : Code Unit :=
  onMemory fun m => (m.reset i op).map fun m => ((), m)

/-- `SmartOp::get`. -/
def get (i : Nat) : Code (Option Nat) := onMemory fun m => (m.get i).map fun op => (op, m)

/-- A use of an operation. -/
def use (a : Nat) : Code OpData := onMemory fun m => (m.deref a).map fun o => (o.data, m)

/-- `SmartOp::get`, and a use of what it answers, if that is not `NULL`. -/
def useOf (i : Nat) : Code (Option OpData) :=
  onMemory fun m => (m.get i).bind fun
    | none => some (none, m)
    | some a => (m.deref a).map fun o => (some o.data, m)

/-- `SmartOp::operator ->`, and a use of the operation. -/
def useThrough (i : Nat) : Code OpData :=
  onMemory fun m => (m.get i).join.bind fun a => (m.deref a).map fun o => (o.data, m)

/-- `Op::increase_`. -/
def increase (a : Nat) : Code Unit := onMemory fun m => (m.increase a).map fun (_, m) => ((), m)

/-- `new` of an operation. -/
def new (data : OpData) : Code Nat := onMemory fun m => some (m.ops.length, m.new data)

/-- The oldest operation is taken from `m_ops`. -/
def take : Code (Option Nat) :=
  .action fun el =>
    match el.ops with
    | [] => some (none, el)
    | a :: rest => some (some a, { el with ops := rest })

/-- `EventLoop::findConn`. -/
def find (cid : Bytes) : Code (Option SmartConn) := .look fun el => el.findConn cid

/-- The fields of a connection that is there. -/
def fields (cid : Bytes) : Code SmartConn :=
  .action fun el => (el.findConn cid).map fun conn => (conn, el)

/-- A member function of a connection that does not touch its timers. -/
def call (cid : Bytes) (f : CliConn → Out) : Code Int :=
  .action fun el => (el.findConn cid).map fun conn =>
    let out := f conn.con
    let el := el.setConn cid { conn with con := out.con }
    (out.ret, (queued out.acts).foldl asynAddOp el)

/-- `insert` of a timer, which copies the `SmartOp` into the map unless the deadline is there. -/
def insertTimer (cid : Bytes) (deadline : Int) (id : Bytes) (entry : Nat) : Code Unit :=
  .action fun el => (el.findConn cid).bind fun conn =>
    if conn.timers.any fun node => node.deadline = deadline then
      some ((), el)
    else
      (el.mem.copy entry).map fun (i, mem) =>
        let timers := conn.timers.orderedInsert (fun node node' => node.deadline ≤ node'.deadline)
          ⟨deadline, id, i⟩
        ((), { el with mem := mem }.setConn cid { conn with timers := timers })

/-- `erase` of a timer, which destroys its `SmartOp`. -/
def eraseTimer (cid : Bytes) (i : Nat) : Code Unit :=
  .action fun el => (el.findConn cid).bind fun conn =>
    (el.mem.destroy i).map fun mem =>
      let timers := conn.timers.eraseP fun node => node.smart = i
      ((), { el with mem := mem }.setConn cid { conn with timers := timers })

/-- A connection is put into `m_conns`. -/
def addConn (cid : Bytes) (con : CliConn) : Code Unit :=
  .action fun el => some ((), { el with conns := (cid, ⟨con, []⟩) :: el.conns })

/-- A connection is taken out of `m_conns`. -/
def eraseConn (cid : Bytes) : Code Unit :=
  .action fun el => some ((), el.removeConn cid)

end Actions

/-! ## The functions -/

/-- The elements of a vector are destroyed. -/
def destroyAll : List Nat → Code Unit
  | [] => pure ()
  | i :: rest => do
      destroy i
      destroyAll rest

/-- The elements of a vector are copied. -/
def copyAll : List Nat → Code (List Nat)
  | [] => pure []
  | i :: rest => do
      let copied ← copyOf i
      let copies ← copyAll rest
      pure (copied :: copies)

/-- `push_back` of a copy.  A vector that is full moves to new storage. -/
def pushBack (isFull : Nat → Bool) (ops : List Nat) (oth : Nat) : Code (List Nat) := do
  let i ← copyOf oth
  if isFull ops.length then
    let copies ← copyAll ops
    destroyAll ops
    pure (copies ++ [i])
  else
    pure (ops ++ [i])

/-- The timers of a connection are destroyed. -/
def destroyTimers (cid : Bytes) : List TimerNode → Code Unit
  | [] => pure ()
  | node :: rest => do
      eraseTimer cid node.smart
      destroyTimers cid rest

/-- `EventLoop::delConn`. -/
def delConn (cid : Bytes) : Code Int := do
  match ← find cid with
  | some conn =>
      destroyTimers cid conn.timers
      eraseConn cid
      pure 0
  | none => pure (-1)

/-- `OnCancel` of the operations of some timers. -/
def cancelTimers : List TimerNode → Code Unit
  | [] => pure ()
  | node :: rest => do
      discard (useOf node.smart)
      cancelTimers rest

/-- `CliConn::onDisconnect`. -/
def onDisconnect (cid : Bytes) (net : Net) (code : Int) : Code Int := do
  let conn ← fields cid
  cancelTimers conn.timers.reverse
  call cid fun c => c.onDisconnect net code

/-- `CliConn::addTimer`, with the temporary objects of its expression. -/
def addTimer (cid : Bytes) (net : Net) (id : Bytes) (sp : Nat) : Code Unit := do
  let data ← use sp
  let smart ← smartOp (some sp)
  let entry ← copyOf smart
  insertTimer cid (net.now + data.getTimeout * 1000000) id entry
  destroy entry
  destroy smart

/-- `CliConn::popTimer`. -/
def popTimer (cid : Bytes) (id : Bytes) (sp : Nat) : Code Int := do
  let conn ← fields cid
  match conn.timers.reverse.find? fun node => node.id = id with
  | some node =>
      let op ← get node.smart
      reset sp op
      eraseTimer cid node.smart
      pure 0
  | none => pure (-1)

/-- `CliConn::addKeepaliveTimer`. -/
def addKeepaliveTimer (cid : Bytes) (net : Net) : Code Unit := do
  let conn ← fields cid
  let keepalive ← new (.keepalive conn.con.cid conn.con.keepaliveTimeout)
  let op ← smartOp (some keepalive)
  let data ← use keepalive
  addTimer cid net data.getSN keepalive
  destroy op

/-- `CliConn::keepalive`. -/
def keepalive (cid : Bytes) (net : Net) : Code Int := do
  let conn ← fields cid
  if conn.con.keepaliveLimit < net.ms - conn.con.activeTime then
    discard (call cid fun c => c.shut net .disconnect timeoutError)
    pure 0
  else
    addKeepaliveTimer cid net
    call cid fun c => c.sendPacket net keepaliveReq []

/-- `OnTimeout` of an operation. -/
def onTimeout (cid : Bytes) (net : Net) : OpData → Code Unit
  | .login _ => discard (call cid fun c => c.onLoginFail net timeoutError)
  | .keepalive _ _ => discard (keepalive cid net)
  | _ => pure ()

/-- `OnTimeout` of what a `SmartOp` holds. -/
def onTimeoutOf (cid : Bytes) (net : Net) (i : Nat) : Code Unit := do
  match ← useOf i with
  | some data => onTimeout cid net data
  | none => pure ()

/-- The second loop of `CliConn::processTimers`, from the `n`th operation on. -/
def onTimeouts (cid : Bytes) (nets : Nat → Net) : Nat → List Nat → Code Unit
  | _, [] => pure ()
  | n, i :: rest => do
      onTimeoutOf cid (nets n) i
      onTimeouts cid nets (n + 1) rest

/-- The first loop of `CliConn::processTimers`, over the timers that are due. -/
def collect (cid : Bytes) (isFull : Nat → Bool) : List TimerNode → List Nat → Code (List Nat)
  | [], ops => pure ops
  | node :: rest, ops => do
      let ops ← pushBack isFull ops node.smart
      eraseTimer cid node.smart
      collect cid isFull rest ops

/-- `CliConn::processTimers`. -/
def processConn (cid : Bytes) (now : Int) (isFull : Nat → Bool) (nets : Nat → Net) :
    Code Unit := do
  let conn ← fields cid
  let ops ← collect cid isFull (conn.timers.takeWhile fun node => node.deadline ≤ now) []
  onTimeouts cid nets 0 ops
  destroyAll ops

/-- What `EventLoop::processTimers` does with a connection. -/
def processTimers (cid : Bytes) (now : Int) (isFull : Nat → Bool) (nets : Nat → Net) :
    Code Unit := do
  match ← find cid with
  | some conn =>
      if conn.con.fd = false then
        eraseConn cid
        destroyAll (conn.timers.map TimerNode.smart)
      else
        processConn cid now isFull nets
  | none => pure ()

section Messages

variable (codec : PeerCodec)

/-- A refused login.  A `pop_back` of an empty vector leaves it empty here. -/
def refused (net : Net) (status : Int) (c : CliConn) : Out :=
  let c := { c with svrlist := c.svrlist.tail }
  if c.svrlist = [] then
    c.onLoginFail net status
  else
    (c.setStatus net .disconnect 0 false).andThen fun c => c.connectAndLogin codec net

/-- The answer to a login. -/
def answered (cid : Bytes) (net : Net) : Option LoginResponse → Code Unit
  | none => pure ()
  | some lgresp =>
      if 0 ≤ lgresp.status then do
        discard (call cid fun c =>
          { c with sessid := lgresp.sessid }.setStatus net .login lgresp.status true)
        addKeepaliveTimer cid net
      else
        discard (call cid (refused codec net lgresp.status))

/-- `CliConn::handleLoginResponse`. -/
def handleLoginResponse (cid : Bytes) (net : Net) (resp : Bytes) : Code Unit := do
  let op ← smartOp none
  discard (popTimer cid loginSn op)
  answered codec cid net (codec.parseLoginResponse resp)
  destroy op

/-- `CliConn::handlePacket`. -/
def handlePacket (cid : Bytes) (r : Received) : Code Unit :=
  if r.cmd = loginResp then
    handleLoginResponse codec cid r.net r.body
  else if r.cmd = pushReq then
    discard (call cid fun c => c.handleServiceRequest codec r.net r.body)
  else
    pure ()

/-- The packets of the buffer, one after the other. -/
def handlePackets (cid : Bytes) : List Received → Code Unit
  | [] => pure ()
  | r :: rest => do
      handlePacket codec cid r
      handlePackets cid rest

/-- `CliConn::handleRead`. -/
def handleRead (cid : Bytes) (net : Net) (received : Option (List Received)) : Code Int := do
  let conn ← fields cid
  if conn.con.fd = false then
    pure (-1)
  else
    discard (call cid fun c => ⟨0, { c with activeTime := net.ms }, []⟩)
    match received with
    | none => pure (-1)
    | some packets =>
        handlePackets codec cid packets
        pure 0

/-- What `EventLoop::run` does with a connection that can be read. -/
def readConn (cid : Bytes) (net : Net) (received : Option (List Received)) : Code Unit := do
  match ← find cid with
  | some _ =>
      let ret ← handleRead codec cid net received
      if ret < 0 then
        discard (onDisconnect cid net networkError)
  | none => pure ()

/-- `Op::process`, `LoginOp::process` and the others. -/
def process (net : Net) (op : Nat) : OpData → Code Int
  | .base _ _ _ => pure 0
  | .login login => do
      match ← find login.cid with
      | some _ => pure (-1)
      | none =>
          addConn login.cid (.init net login)
          let ret ← call login.cid fun c => c.connectAndLogin codec net
          if ret = 0 then do
            increase op
            pure ret
          else
            pure ret
  | .keepalive cid _ => do
      match ← find cid with
      | some _ =>
          increase op
          pure 0
      | none => pure (-1)
  | .delConn cid => delConn cid
  | .disconnect cid => do
      match ← find cid with
      | some _ =>
          discard (onDisconnect cid net 0)
          pure 0
      | none => pure (-1)

/-- What `EventLoop::processOps` does with an operation that waits. -/
def addWaiting (net : Net) (op : Nat) (cid : Bytes) : Code Unit := do
  match ← find cid with
  | some _ =>
      let data ← use op
      addTimer cid net data.getSN op
  | none => pure ()

/-- What `EventLoop::processOps` does when the operation has been processed and released. -/
def released (net : Net) (op sp : Nat) (count : Int) : Code Unit := do
  let held ← get sp
  if 0 < count ∧ held.isSome then
    let data ← useThrough sp
    addWaiting net op data.getCid
  else
    pure ()

/-- What `EventLoop::processOps` does with an operation. -/
def processOp (net : Net) : Code Unit := do
  match ← take with
  | none => pure ()
  | some op =>
      let sp ← smartOp (some op)
      let data ← useThrough sp
      discard (process codec net op data)
      let count ← release sp
      released net op sp count
      destroy sp

/-- What the loop does, in any order. -/
inductive Task
  | op (net : Net)
  | timers (cid : Bytes) (now : Int) (isFull : Nat → Bool) (nets : Nat → Net)
  | read (cid : Bytes) (net : Net) (received : Option (List Received))
  | delConn (cid : Bytes)

/-- The program of a task. -/
def programs : Task → Code Unit
  | .op net => processOp codec net
  | .timers cid now isFull nets => processTimers cid now isFull nets
  | .read cid net received => readConn codec cid net received
  | .delConn cid => discard (delConn cid)

/-- The step relation. -/
def Step : LTS (Machine SmartLoop) (Happens Task) := Machine.Step Users (programs codec)

end Messages

/-- The loop before its first task. -/
def start : Machine SmartLoop := ⟨init, .ret (), false⟩

/-- No `SmartOp` holds an operation that has been deleted, none holds more than an operation
counts, no operation has been used after it was deleted, and the next step deletes those that it
takes the last holder from, and no others. -/
structure Right (codec : PeerCodec) (m : Machine SmartLoop) : Prop where
  works : m.faulted = false
  exact : m.shared.mem.Exact
  deletes : ∀ e m', Step codec m e m' → m.shared.mem.DeletesLast m'.shared.mem

end SmartLoop

end GPush.ClientSdk
