import GPush.LoopBuf.Append

/-!
# The sending side of a connection

`sendMessage` hands a message to the socket and queues what the socket does not
take; `doSend` flushes the queue frame by frame.  The results of the system call
`send` are an input of the model: a script with one entry for each call made.
-/

namespace GPush.Connection

open GPush.LoopBuf GPush.Transition

/-- The values of `errno` that `send_` tells apart; `eagain` stands for
`SOCK_EWOULDBLOCK` as well. -/
inductive Errno
  | eintr
  | eagain
  | other
  deriving DecidableEq, Repr

/-- One return of `send`: the number of bytes it took, or `none` for `-1`, and the
value of `errno` afterwards.  A call that does not fail leaves `errno` alone, so
any value may come with any number. -/
structure SysSend where
  taken : Option Nat
  errno : Errno
  deriving Repr

/-- The value `send` returns. -/
def SysSend.ret (call : SysSend) : Int :=
  match call.taken with
  | some n => n
  | none => -1

/-- The bytes the socket takes over a script. -/
def accepted (script : List SysSend) : Nat := (script.map fun call => call.taken.getD 0).sum

@[simp]
theorem accepted_append (first second : List SysSend) :
    accepted (first ++ second) = accepted first + accepted second := by
  simp [accepted]

/-- `Connection::send_` of `len` bytes: its result and the calls left.  A script
that ends too early, or lets the socket take more than it is offered, is no
behaviour of the socket. -/
def send_ (len : Nat) : List SysSend → Option (Int × List SysSend)
  | [] => none
  | call :: script =>
      if (len : Int) < call.ret then
        none
      else if 0 < call.ret then
        some (call.ret, script)
      else
        match call.errno with
        | .eintr => send_ len script
        | .eagain => some (0, script)
        | .other => some (-1, script)

/-- What a call answers: its result, the bytes handed to the socket, and the
system calls left. -/
structure Outcome where
  ret : Int
  out : Bytes
  rest : List SysSend
  deriving Repr

/-- The loop of `Connection::doSend`.  Every round makes a system call, so as many
rounds as there are calls are enough. -/
def doSendLoop : Nat → Int → Int → LoopBuf → List SysSend → Option (LoopBuf × Outcome)
  | rounds, ret, sendlen, b, script =>
      if 0 < ret then
        match rounds with
        | 0 => none
        | rounds + 1 =>
            (send_ b.firstFrameLen script).bind fun (ret, script) =>
              if ret < 0 then
                some (b, ⟨ret, [], script⟩)
              else
                (b.read ret.toNat).bind fun (drained, _) =>
                  let out := b.firstFrameData ret.toNat
                  if ret < b.firstFrameLen then
                    some (drained, ⟨sendlen + ret, out, script⟩)
                  else
                    (doSendLoop rounds ret (sendlen + ret) drained script).map fun (b', rest) =>
                      (b', { rest with out := out ++ rest.out })
      else
        some (b, ⟨sendlen, [], script⟩)

/-- `Connection::doSend`. -/
def doSend (b : LoopBuf) (script : List SysSend) : Option (LoopBuf × Outcome) :=
  doSendLoop script.length b.firstFrameLen 0 b script

/-- `READ_EVENT`. -/
def readEvent : Nat := 1

/-- `WRITE_EVENT`. -/
def writeEvent : Nat := 2

/-- `m_flag`. -/
inductive Flag
  | null
  | safeClose
  deriving DecidableEq, Repr

/-- The fields of `Connection` and `Device` that sending uses. -/
structure Sender where
  sendBuf : LoopBuf
  noti : Nat
  flag : Flag

namespace Sender

/-- A connection that has been added to its loop. -/
def init : Sender where
  sendBuf := LoopBuf.init
  noti := readEvent
  flag := .null

/-- `Device::modifyNotify`; `epollCtl` tells whether `epoll_ctl` succeeds. -/
def modifyNotify (s : Sender) (noti : Nat) (epollCtl : Bool) : Sender :=
  if epollCtl then { s with noti := noti } else s

/-- `Connection::sendMessage`. -/
def sendMessage (s : Sender) (msg : Bytes) (script : List SysSend) (epollCtl : Bool) :
    Option (Sender × Outcome) :=
  if s.noti &&& writeEvent ≠ 0 then
    some ({ s with sendBuf := s.sendBuf.autoResizeWrite msg }, ⟨0, [], script⟩)
  else
    (send_ msg.length script).map fun (ret, script) =>
      let out := msg.take ret.toNat
      if ret < 0 then
        (s, ⟨ret, out, script⟩)
      else if (msg.length : Int) ≤ ret then
        (s, ⟨ret, out, script⟩)
      else
        let queued := { s with sendBuf := s.sendBuf.autoResizeWrite (msg.drop ret.toNat) }
        (queued.modifyNotify (readEvent ||| writeEvent) epollCtl, ⟨ret, out, script⟩)

/-- `Connection::handleWrite`. -/
def handleWrite (s : Sender) (script : List SysSend) (epollCtl : Bool) :
    Option (Sender × Outcome) :=
  (doSend s.sendBuf script).map fun (b, outcome) =>
    let flushed := { s with sendBuf := b }
    if outcome.ret < 0 then
      (flushed, outcome)
    else if b.size = 0 then
      if s.flag = .safeClose then
        (flushed, { outcome with ret := -2 })
      else
        (flushed.modifyNotify readEvent epollCtl, outcome)
    else
      (flushed, outcome)

/-- `Connection::safeClose` with data to send; without, the connection is deleted
at once. -/
def safeClose (s : Sender) (script : List SysSend) (epollCtl : Bool) : Option (Sender × Outcome) :=
  if s.sendBuf.size = 0 then
    none
  else
    let closing := { s.modifyNotify writeEvent epollCtl with flag := .safeClose }
    (doSend closing.sendBuf script).map fun (b, outcome) =>
      ({ closing with sendBuf := b }, outcome)

end Sender

/-- The calls that change the send buffer, each with the results of the system
calls it makes. -/
inductive Call
  | sendMessage (msg : Bytes) (script : List SysSend) (epollCtl : Bool)
  | handleWrite (script : List SysSend) (epollCtl : Bool)
  | safeClose (script : List SysSend) (epollCtl : Bool)

/-- One call. -/
def Sender.exec (s : Sender) : Call → Option (Sender × Outcome)
  | .sendMessage msg script epollCtl => s.sendMessage msg script epollCtl
  | .handleWrite script epollCtl => s.handleWrite script epollCtl
  | .safeClose script epollCtl => s.safeClose script epollCtl

/-- The steps of the sending side: a call returns, and its script holds exactly the
results of the system calls it has made. -/
def step : LTS Sender Call := fun s call s' =>
  ∃ outcome, s.exec call = some (s', outcome) ∧ outcome.rest = []

end GPush.Connection
