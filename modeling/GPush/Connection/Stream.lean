import GPush.Connection.Send

/-!
# The outgoing stream

The sending side over an ideal queue of bytes.  A message passes by the queue only while
`WRITE_EVENT` is not armed, and the queue is empty then, so what the socket takes and what is
queued behind it are the messages one after the other.
-/

namespace GPush.Connection

open GPush.LoopBuf GPush.Transition

/-- A message.  Its length fits in the `int32` that `send_` is given. -/
structure Message where
  bytes : Bytes
  fits : bytes.length < 2 ^ 31

/-- `Sender` with a queue in the place of its buffer. -/
structure QueueSender where
  sendBuf : Bytes
  noti : Nat
  flag : Flag
  deriving DecidableEq, Repr

/-- The loop of `Connection::doSend`.  In round `i` the queue offers its first `front i`
bytes in one piece. -/
def flushLoop (front : Nat → Nat) :
    Nat → Nat → Int → Int → Bytes → List SysSend → Option (Bytes × Outcome)
  | rounds, i, ret, sendlen, q, script =>
      if 0 < ret then
        match rounds with
        | 0 => none
        | rounds + 1 =>
            (send_ (min (front i) q.length) script).bind fun (ret, script) =>
              if ret < 0 then
                some (q, ⟨ret, [], script⟩)
              else
                let out := q.take ret.toNat
                let rest := q.drop ret.toNat
                if ret < (min (front i) q.length : Nat) then
                  some (rest, ⟨sendlen + ret, out, script⟩)
                else
                  (flushLoop front rounds (i + 1) ret (sendlen + ret) rest script).map
                    fun (q', later) => (q', { later with out := out ++ later.out })
      else
        some (q, ⟨sendlen, [], script⟩)

/-- `Connection::doSend`. -/
def flush (front : Nat → Nat) (q : Bytes) (script : List SysSend) : Option (Bytes × Outcome) :=
  flushLoop front script.length 0 (min (front 0) q.length : Nat) 0 q script

namespace QueueSender

/-- A connection that has been added to its loop. -/
def init : QueueSender := ⟨[], readEvent, .null⟩

/-- `Connection::sendMessage`. -/
def sendMessage (s : QueueSender) (msg : Message) (script : List SysSend) :
    Option (QueueSender × Outcome) :=
  if s.noti &&& writeEvent ≠ 0 then
    some ({ s with sendBuf := s.sendBuf ++ msg.bytes }, ⟨0, [], script⟩)
  else
    (send_ msg.bytes.length script).map fun (ret, script) =>
      let out := msg.bytes.take ret.toNat
      if ret < 0 then
        (s, ⟨ret, out, script⟩)
      else if (msg.bytes.length : Int) ≤ ret then
        (s, ⟨ret, out, script⟩)
      else
        ({ s with
          sendBuf := s.sendBuf ++ msg.bytes.drop ret.toNat
          noti := readEvent ||| writeEvent }, ⟨ret, out, script⟩)

/-- `Connection::handleWrite`. -/
def handleWrite (s : QueueSender) (front : Nat → Nat) (script : List SysSend) :
    Option (QueueSender × Outcome) :=
  (flush front s.sendBuf script).map fun (q, outcome) =>
    let flushed := { s with sendBuf := q }
    if outcome.ret < 0 then
      (flushed, outcome)
    else if q = [] then
      if s.flag = .safeClose then
        (flushed, { outcome with ret := -2 })
      else
        ({ flushed with noti := readEvent }, outcome)
    else
      (flushed, outcome)

/-- `Connection::safeClose`.  Without data to send the connection is recycled. -/
def safeClose (s : QueueSender) (front : Nat → Nat) (script : List SysSend) :
    Option (QueueSender × Outcome) :=
  if s.sendBuf = [] then
    some (s, ⟨0, [], script⟩)
  else
    (flush front s.sendBuf script).map fun (q, outcome) =>
      ({ sendBuf := q, noti := writeEvent, flag := .safeClose }, outcome)

end QueueSender

/-- The calls, each with the results of the system calls it makes. -/
inductive StreamCall
  | sendMessage (msg : Message) (script : List SysSend)
  | handleWrite (front : Nat → Nat) (script : List SysSend)
  | safeClose (front : Nat → Nat) (script : List SysSend)

/-- The message that a call is given. -/
def StreamCall.given : StreamCall → Bytes
  | .sendMessage msg _ => msg.bytes
  | _ => []

/-- One call. -/
def QueueSender.exec (s : QueueSender) : StreamCall → Option (QueueSender × Outcome)
  | .sendMessage msg script => s.sendMessage msg script
  | .handleWrite front script => s.handleWrite front script
  | .safeClose front script => s.safeClose front script

/-- A connection with its past: the messages it has been given, the bytes the socket has
taken, and whether a `send` has failed, which the calls answer with -1. -/
structure Stream where
  sender : QueueSender
  given : Bytes
  out : Bytes
  failed : Bool
  deriving DecidableEq, Repr

namespace Stream

/-- A connection that has not sent anything. -/
def init : Stream := ⟨.init, [], [], false⟩

/-- The connection after a call. -/
def after (s : Stream) (call : StreamCall) (sender : QueueSender) (outcome : Outcome) : Stream where
  sender := sender
  given := s.given ++ call.given
  out := s.out ++ outcome.out
  failed := s.failed || outcome.ret == -1

/-- A call returns, and its script holds exactly the results of its system calls. -/
def Step : LTS Stream StreamCall := fun s call s' =>
  ∃ sender outcome, s.sender.exec call = some (sender, outcome) ∧ outcome.rest = [] ∧
    s' = s.after call sender outcome

/-- Nothing is reordered, duplicated or torn, and what is queued will be written. -/
structure Whole (s : Stream) : Prop where
  stream : s.out ++ s.sender.sendBuf = s.given
  armed : s.sender.sendBuf ≠ [] → s.sender.noti &&& writeEvent ≠ 0

theorem whole_init : Whole init := ⟨rfl, fun nonempty => absurd rfl nonempty⟩

/-- `send_` answers -1 when `send` fails. -/
theorem send_failed {len : Nat} {script rest : List SysSend} {ret : Int}
    (answered : send_ len script = some (ret, rest)) (fails : ret < 0) : ret = -1 := by
  induction script with
  | nil => cases answered
  | cons call script ih =>
      rw [send_] at answered
      split_ifs at answered with tooMuch took
      · rcases Prod.mk.inj (Option.some.inj answered) with ⟨rfl, -⟩
        exact absurd took (Int.not_lt.mpr (Int.le_of_lt fails))
      · cases errnoEq : call.errno with
        | eintr =>
            rw [errnoEq] at answered
            exact ih answered
        | eagain =>
            rw [errnoEq] at answered
            rcases Prod.mk.inj (Option.some.inj answered) with ⟨rfl, -⟩
            cases fails
        | other =>
            rw [errnoEq] at answered
            exact (Prod.mk.inj (Option.some.inj answered)).1.symm

/-- A flush moves bytes from the front of the queue to the socket. -/
theorem flushLoop_spec {front : Nat → Nat} {rounds i : Nat} {ret sendlen : Int} {q q' : Bytes}
    {script : List SysSend} {outcome : Outcome}
    (flushed : flushLoop front rounds i ret sendlen q script = some (q', outcome)) :
    outcome.out ++ q' = q := by
  induction rounds generalizing i ret sendlen q q' script outcome with
  | zero =>
      rw [flushLoop] at flushed
      split_ifs at flushed
      rcases Prod.mk.inj (Option.some.inj flushed) with ⟨rfl, rfl⟩
      rfl
  | succ rounds ih =>
      rw [flushLoop] at flushed
      split_ifs at flushed with enters
      · rcases Option.bind_eq_some_iff.mp flushed with ⟨⟨ret', script'⟩, -, handled⟩
        dsimp only at handled
        split_ifs at handled with fails short
        · rcases Prod.mk.inj (Option.some.inj handled) with ⟨rfl, rfl⟩
          rfl
        · rcases Prod.mk.inj (Option.some.inj handled) with ⟨rfl, rfl⟩
          exact List.take_append_drop _ _
        · rcases Option.map_eq_some_iff.mp handled with ⟨⟨q'', later⟩, laterEq, pairEq⟩
          rcases Prod.mk.inj pairEq with ⟨rfl, rfl⟩
          rw [List.append_assoc, ih laterEq, List.take_append_drop]
      · rcases Prod.mk.inj (Option.some.inj flushed) with ⟨rfl, rfl⟩
        rfl

theorem armed_alone : writeEvent &&& writeEvent ≠ 0 := by decide

theorem armed_both : (readEvent ||| writeEvent) &&& writeEvent ≠ 0 := by decide

namespace Whole

variable {s : Stream} {sender : QueueSender} {outcome : Outcome}

theorem sendMessage (whole : Whole s) {msg : Message} {script : List SysSend}
    (sent : s.sender.sendMessage msg script = some (sender, outcome)) (works : outcome.ret ≠ -1) :
    Whole (s.after (.sendMessage msg script) sender outcome) := by
  rw [QueueSender.sendMessage] at sent
  split_ifs at sent with armed
  · rcases Prod.mk.inj (Option.some.inj sent) with ⟨rfl, rfl⟩
    constructor
    · simp only [after, StreamCall.given, List.append_nil]
      rw [← List.append_assoc, whole.stream]
    · exact fun _ => armed
  · -- the message goes to the socket, since the queue is empty
    have empty : s.sender.sendBuf = [] := not_imp_comm.mp whole.armed armed
    have stream := whole.stream
    rw [empty, List.append_nil] at stream
    rcases Option.map_eq_some_iff.mp sent with ⟨⟨ret, rest⟩, sendEq, handled⟩
    dsimp only at handled
    split_ifs at handled with fails all
    · rcases Prod.mk.inj handled with ⟨rfl, rfl⟩
      exact absurd (send_failed sendEq fails) works
    · rcases Prod.mk.inj handled with ⟨rfl, rfl⟩
      have taken : msg.bytes.take ret.toNat = msg.bytes := List.take_of_length_le (by omega)
      constructor
      · simp only [after, StreamCall.given, empty, List.append_nil, taken, stream]
      · exact whole.armed
    · rcases Prod.mk.inj handled with ⟨rfl, rfl⟩
      constructor
      · simp only [after, StreamCall.given, empty, List.nil_append, List.append_assoc,
          List.take_append_drop, stream]
      · exact fun _ => armed_both

/-- A call without a message moves bytes from the queue to the socket. -/
theorem flushed (whole : Whole s) {call : StreamCall} (nothing : call.given = [])
    (moved : outcome.out ++ sender.sendBuf = s.sender.sendBuf)
    (armed : sender.sendBuf ≠ [] → sender.noti &&& writeEvent ≠ 0) :
    Whole (s.after call sender outcome) := by
  constructor
  · rw [after, nothing, List.append_nil]
    dsimp only
    rw [List.append_assoc, moved, whole.stream]
  · exact armed

theorem handleWrite (whole : Whole s) {front : Nat → Nat} {script : List SysSend}
    (written : s.sender.handleWrite front script = some (sender, outcome)) :
    Whole (s.after (.handleWrite front script) sender outcome) := by
  rcases Option.map_eq_some_iff.mp written with ⟨⟨q, sent⟩, flushEq, handled⟩
  have moved : sent.out ++ q = s.sender.sendBuf := flushLoop_spec flushEq
  have armed : q ≠ [] → s.sender.noti &&& writeEvent ≠ 0 := by
    intro nonempty
    apply whole.armed
    rw [← moved]
    exact List.append_ne_nil_of_right_ne_nil _ nonempty
  dsimp only at handled
  split_ifs at handled with fails empty closing
  · rcases Prod.mk.inj handled with ⟨rfl, rfl⟩
    exact whole.flushed rfl moved armed
  · rcases Prod.mk.inj handled with ⟨rfl, rfl⟩
    exact whole.flushed rfl moved armed
  · rcases Prod.mk.inj handled with ⟨rfl, rfl⟩
    exact whole.flushed rfl moved fun nonempty => absurd empty nonempty
  · rcases Prod.mk.inj handled with ⟨rfl, rfl⟩
    exact whole.flushed rfl moved armed

theorem safeClose (whole : Whole s) {front : Nat → Nat} {script : List SysSend}
    (closed : s.sender.safeClose front script = some (sender, outcome)) :
    Whole (s.after (.safeClose front script) sender outcome) := by
  rw [QueueSender.safeClose] at closed
  split_ifs at closed with empty
  · rcases Prod.mk.inj (Option.some.inj closed) with ⟨rfl, rfl⟩
    exact whole.flushed rfl (List.nil_append _) whole.armed
  · rcases Option.map_eq_some_iff.mp closed with ⟨⟨q, sent⟩, flushEq, handled⟩
    rcases Prod.mk.inj handled with ⟨rfl, rfl⟩
    exact whole.flushed rfl (flushLoop_spec flushEq) fun _ => armed_alone

/-- The step lemma. -/
theorem step {s' : Stream} {call : StreamCall} (whole : s.failed = false → Whole s)
    (taken : Step s call s') (works : s'.failed = false) : Whole s' := by
  rcases taken with ⟨sender, outcome, execEq, -, rfl⟩
  rcases Bool.or_eq_false_iff.mp works with ⟨before, here⟩
  cases call with
  | sendMessage msg script =>
      exact (whole before).sendMessage execEq (by simpa using here)
  | handleWrite front script => exact (whole before).handleWrite execEq
  | safeClose front script => exact (whole before).safeClose execEq

end Whole

/-- Until a `send` fails, what the socket has taken and what is queued are the messages given,
in their order, and there is nothing in the queue without `WRITE_EVENT`. -/
theorem stream_whole {calls : List StreamCall} {s : Stream} (run : Run Step anyStep init calls s)
    (works : s.failed = false) : Whole s := by
  have kept : ∀ s call t, (s.failed = false → Whole s) → anyStep s call → Step s call t →
      t.failed = false → Whole t :=
    fun _ _ _ whole _ taken works => Whole.step whole taken works
  have always : s.failed = false → Whole s := run.invariant (fun _ => whole_init) kept
  exact always works

/-- A message of which the socket takes two bytes, one that is queued behind it, and a flush
of one byte before the connection is closed. -/
def queuedCalls : List StreamCall :=
  [.sendMessage ⟨[1, 2, 3, 4], by decide⟩ [⟨some 2, .other⟩], .sendMessage ⟨[5, 6], by decide⟩ [],
    .handleWrite (fun _ => 2) [⟨some 1, .eagain⟩], .safeClose (fun _ => 3) [⟨none, .eagain⟩]]

theorem stream_whole_queued :
    ∃ s, Run Step anyStep init queuedCalls s ∧ s.out = [1, 2, 3] ∧
      s.sender.sendBuf = [4, 5, 6] ∧ Whole s := by
  have run : ∃ s, Run Step anyStep init queuedCalls s ∧ s.out = [1, 2, 3] ∧
      s.sender.sendBuf = [4, 5, 6] ∧ s.failed = false :=
    ⟨_, Run.cons trivial ⟨_, _, rfl, rfl, rfl⟩ <| Run.cons trivial ⟨_, _, rfl, rfl, rfl⟩ <|
      Run.cons trivial ⟨_, _, rfl, rfl, rfl⟩ <| Run.single trivial ⟨_, _, rfl, rfl, rfl⟩,
      rfl, rfl, rfl⟩
  rcases run with ⟨s, run, outEq, queueEq, works⟩
  exact ⟨s, run, outEq, queueEq, stream_whole run works⟩

end Stream

end GPush.Connection
