import GPush.Transition.Run
import Mathlib.Algebra.Group.Int.Defs
import Mathlib.Data.List.Nodup
import Mathlib.Logic.Function.Iterate
import Mathlib.Tactic.SplitIfs

/-!
# The life cycle of a client

A client connects, tells the application so, and after a failure disconnects and tries
again from a timer.  What it shows to the outside is kept as a trace.  The application is
an input: what its functions answer, and whether they call `disconnect` themselves.
-/

namespace GPush.Connection

open GPush.Transition

/-- The statuses of a client. -/
inductive ClientStatus
  | init
  | connecting
  | connected
  deriving DecidableEq, Repr

/-- What a client does. -/
inductive Act
  /-- `tcpNbConnect` has given a socket -/
  | connect (fd : Nat)
  /-- `onConnected`, where `SO_ERROR` was `errorValue` -/
  | onConnected (errorValue : Int)
  /-- `onDisconnected` -/
  | onDisconnected
  /-- `closesocket`; `none` is `EF_INVALID_SOCKET` -/
  | closesocket (fd : Option Nat)
  deriving DecidableEq, Repr

/-- `Client`, with its trace.  No two sockets have the same number, which is what the
process has given out so far. -/
structure Client where
  status : ClientStatus
  fd : Option Nat
  reconnectSpan : Int
  sockets : Nat
  recycled : Bool
  trace : List Act
  deriving DecidableEq, Repr

/-- What `getsockopt` answers for `SO_ERROR`. -/
structure SockOpt where
  ret : Int
  errorValue : Int
  deriving DecidableEq, Repr

/-- What a function of the application or of `Connection` does to the client: it calls
`disconnect` some times, and answers. -/
structure Handler where
  disconnects : Nat
  ret : Int
  deriving DecidableEq, Repr

namespace Client

/-- `Client::Client`, with the reconnect span. -/
def init (reconnectSpan : Int) : Client := ⟨.init, none, reconnectSpan, 0, false, []⟩

/-- `Client::doConnect`, where `ok` tells whether `tcpNbConnect` gives a socket. -/
def doConnect (c : Client) (ok : Bool) : Int × Client :=
  if ok then
    (0, { c with
      fd := some c.sockets
      status := .connecting
      sockets := c.sockets + 1
      trace := c.trace ++ [.connect c.sockets] })
  else
    (-1, c)

/-- `Client::reconnect`. -/
def reconnect (c : Client) (ok : Bool) : Int × Client :=
  if c.status = .init then c.doConnect ok else (0, c)

/-- `Client::disconnect`. -/
def disconnect (c : Client) : Client :=
  { c with
    fd := none
    status := .init
    trace := c.trace ++ [.onDisconnected, .closesocket c.fd] }

/-- `Client::onFail`. -/
def onFail (c : Client) : Client :=
  if c.reconnectSpan = 0 then { c.disconnect with recycled := true } else c.disconnect

/-- A call of a function that may call `disconnect`. -/
def call (c : Client) (handler : Handler) : Int × Client :=
  (handler.ret, disconnect^[handler.disconnects] c)

/-- The client that calls `onConnected`. -/
def connect (c : Client) (errorValue : Int) : Client :=
  { c with status := .connected, trace := c.trace ++ [.onConnected errorValue] }

/-- `Client::handleConnected`. -/
def handleConnected (c : Client) (opt : SockOpt) (onConnected : Handler) : Int × Client :=
  if opt.ret < 0 then (opt.ret, c.disconnect) else (c.connect opt.errorValue).call onConnected

/-- `Client::handleWrite`, where `handler` is what `onConnected` or
`Connection::handleWrite` does. -/
def handleWrite (c : Client) (opt : SockOpt) (handler : Handler) : Int × Client :=
  match c.status with
  | .connecting => c.handleConnected opt handler
  | .connected => c.call handler
  | .init => (0, c)

/-- `Client::handleRead`, where `handler` is what `onConnected` or
`Connection::handleRead` does. -/
def handleRead (c : Client) (opt : SockOpt) (handler : Handler) : Int × Client :=
  match c.status with
  | .connecting => c.handleConnected opt handler
  | .connected => c.call handler
  | .init => (0, c)

/-- What `epoll_wait` reports: `EPOLLIN`, `EPOLLOUT` without it, or neither. -/
inductive Ready
  | epollin
  | epollout
  | neither
  deriving DecidableEq, Repr

/-- What `EventLoop::run` does with the result of an event. -/
def settle (result : Int × Client) : Client :=
  if result.1 < 0 then result.2.onFail else result.2

/-- The client in the loop over the events in `EventLoop::run`. -/
def handleEvent (c : Client) (ready : Ready) (opt : SockOpt) (handler : Handler) : Client :=
  settle <|
    match ready with
    | .epollin => c.handleRead opt handler
    | .epollout => c.handleWrite opt handler
    | .neither => (-1, c)

/-- What happens to a client. -/
inductive Event
  /-- the first `connectTo` -/
  | connectTo (ok : Bool)
  | ready (ready : Ready) (opt : SockOpt) (handler : Handler)
  | reconnectTimer (ok : Bool)
  | keepAliveTimer (keepAlive : Handler)
  | disconnect
  deriving DecidableEq, Repr

/-- The client after an event.  Nobody looks at what a timer answers. -/
def next (c : Client) : Event → Client
  | .connectTo ok => (c.doConnect ok).2
  | .ready ready opt handler => c.handleEvent ready opt handler
  | .reconnectTimer ok => (c.reconnect ok).2
  | .keepAliveTimer keepAlive => if c.status = .connected then (c.call keepAlive).2 else c
  | .disconnect => c.disconnect

/-- `connectTo` is called on a client that has no socket, and the reconnect timer is
started for a span other than zero. -/
def Allowed (c : Client) : Event → Prop
  | .connectTo _ => c.status = .init
  | .reconnectTimer _ => c.reconnectSpan ≠ 0
  | _ => True

/-- An event of a client that has not been recycled. -/
def Step : LTS Client Event := fun c event c' =>
  c.recycled = false ∧ c.Allowed event ∧ c' = c.next event

/-! ## The property -/

/-- The callbacks, `true` for `onConnected`. -/
def callbacks (trace : List Act) : List Bool :=
  trace.filterMap fun
    | .onConnected _ => some true
    | .onDisconnected => some false
    | _ => none

/-- The callbacks alternate, and `expected` comes first. -/
def Alternates (expected : Bool) : List Bool → Prop
  | [] => True
  | b :: bs => b = expected ∧ Alternates (!expected) bs

/-- The sockets that were opened. -/
def opened (trace : List Act) : List Nat :=
  trace.filterMap fun
    | .connect fd => some fd
    | _ => none

/-- What was passed to `closesocket`. -/
def closed (trace : List Act) : List (Option Nat) :=
  trace.filterMap fun
    | .closesocket fd => some fd
    | _ => none

/-- The callbacks come in the right order: `onConnected` only for a connect that
succeeded, and the two in turn. -/
structure Spoken (trace : List Act) : Prop where
  succeeded : ∀ errorValue, .onConnected errorValue ∈ trace → errorValue = 0
  alternates : Alternates true (callbacks trace)

/-- The callbacks are right, and every socket but the present one has been closed, once. -/
structure Lawful (c : Client) : Prop where
  spoken : Spoken c.trace
  closes : (opened c.trace).map some = closed c.trace ++ c.fd.toList.map some
  distinct : (opened c.trace).Nodup

/-! ## When it holds -/

/-- The function does not disconnect the client and then fail, nor disconnect it twice. -/
def Once (handler : Handler) : Prop :=
  handler.disconnects = 0 ∨ handler.disconnects = 1 ∧ 0 ≤ handler.ret

/-- The client is only disconnected while it is connected, and a connect that is looked
at has succeeded. -/
def Proper (c : Client) : Event → Prop
  | .ready ready opt handler =>
      match c.status with
      | .init => ready ≠ .neither
      | .connecting =>
          ready ≠ .neither ∧ 0 ≤ opt.ret ∧ opt.errorValue = 0 ∧ Once handler
      | .connected => ready = .neither ∨ Once handler
  | .keepAliveTimer keepAlive => c.status = .connected → keepAlive.disconnects ≤ 1
  | .disconnect => c.status = .connected
  | _ => True

/-! ## Traces -/

section Traces

variable {first second : List Act} {expected : Bool} {bs bs' : List Bool}

/-- The callback to be expected after some callbacks. -/
def expectedAfter (expected : Bool) (bs : List Bool) : Bool := bs.foldl (fun b _ => !b) expected

theorem alternates_append :
    Alternates expected (bs ++ bs') ↔
      Alternates expected bs ∧ Alternates (expectedAfter expected bs) bs' := by
  induction bs generalizing expected with
  | nil => simp [Alternates, expectedAfter]
  | cons b bs ih => simp [Alternates, ih, expectedAfter, and_assoc]

theorem expectedAfter_concat (b : Bool) :
    expectedAfter expected (bs ++ [b]) = !expectedAfter expected bs :=
  List.foldl_append

theorem callbacks_append : callbacks (first ++ second) = callbacks first ++ callbacks second :=
  List.filterMap_append

theorem opened_append : opened (first ++ second) = opened first ++ opened second :=
  List.filterMap_append

theorem closed_append : closed (first ++ second) = closed first ++ closed second :=
  List.filterMap_append

/-- What was wrong stays wrong. -/
theorem Spoken.of_append (spoken : Spoken (first ++ second)) : Spoken first := by
  constructor
  · intro errorValue member
    exact spoken.succeeded errorValue (List.mem_append_left _ member)
  · have alternates := spoken.alternates
    rw [callbacks_append, alternates_append] at alternates
    exact alternates.1

end Traces

/-! ## The invariant -/

/-- The callback that the outside expects next is the one that the status allows. -/
structure Consistent (c : Client) : Prop where
  lawful : Lawful c
  expects : expectedAfter true (callbacks c.trace) = decide (c.status ≠ .connected)
  socket : c.fd.isSome = decide (c.status ≠ .init)
  fresh : ∀ fd ∈ opened c.trace, fd < c.sockets

theorem consistent_init (reconnectSpan : Int) : Consistent (init reconnectSpan) where
  lawful := by
    refine ⟨⟨?_, trivial⟩, rfl, List.nodup_nil⟩
    intro errorValue member
    cases member
  expects := rfl
  socket := rfl
  fresh _ member := by cases member

section Operations

variable {c : Client} {handler : Handler}

theorem Consistent.doConnect (consistent : Consistent c) (idle : c.status = .init) (ok : Bool) :
    Consistent (c.doConnect ok).2 := by
  rw [Client.doConnect]
  split_ifs
  · have noSocket : c.fd = none := by
      have socket := consistent.socket
      rw [idle] at socket
      simpa using socket
    have closes := consistent.lawful.closes
    have spoken := consistent.lawful.spoken
    have calls : callbacks (c.trace ++ [.connect c.sockets]) = callbacks c.trace ++ [] :=
      callbacks_append
    have opens : opened (c.trace ++ [.connect c.sockets]) = opened c.trace ++ [c.sockets] :=
      opened_append
    have shuts : closed (c.trace ++ [.connect c.sockets]) = closed c.trace ++ [] :=
      closed_append
    rw [List.append_nil] at calls shuts
    rw [noSocket, Option.toList_none, List.map_nil, List.append_nil] at closes
    refine ⟨⟨⟨?_, ?_⟩, ?_, ?_⟩, ?_, rfl, ?_⟩
    · intro errorValue member
      apply spoken.succeeded errorValue
      simpa using member
    · rw [calls]
      exact spoken.alternates
    · rw [opens, shuts, List.map_append, closes]
      rfl
    · rw [opens, List.nodup_append]
      refine ⟨consistent.lawful.distinct, List.nodup_singleton _, ?_⟩
      intro fd member fd' isNew
      have before := consistent.fresh fd member
      rw [List.mem_singleton] at isNew
      omega
    · rw [calls, consistent.expects, idle]
      rfl
    · intro fd member
      rw [opens, List.mem_append, List.mem_singleton] at member
      rcases member with old | rfl
      · exact Nat.lt_succ_of_lt (consistent.fresh fd old)
      · exact Nat.lt_succ_self _
  · exact consistent

theorem Consistent.connect (consistent : Consistent c) (connecting : c.status = .connecting) :
    Consistent (c.connect 0) := by
  have closes := consistent.lawful.closes
  have spoken := consistent.lawful.spoken
  have expects := consistent.expects
  have socket := consistent.socket
  have calls : callbacks (c.connect 0).trace = callbacks c.trace ++ [true] := callbacks_append
  have opens : opened (c.connect 0).trace = opened c.trace ++ [] := opened_append
  have shuts : closed (c.connect 0).trace = closed c.trace ++ [] := closed_append
  rw [List.append_nil] at opens shuts
  rw [connecting] at expects socket
  refine ⟨⟨⟨?_, ?_⟩, ?_, ?_⟩, ?_, ?_, ?_⟩
  · intro errorValue member
    rcases List.mem_append.mp member with old | new
    · exact spoken.succeeded errorValue old
    · cases List.mem_singleton.mp new
      rfl
  · rw [calls, alternates_append, expects]
    exact ⟨spoken.alternates, rfl, trivial⟩
  · rw [opens, shuts]
    exact closes
  · rw [opens]
    exact consistent.lawful.distinct
  · rw [calls, expectedAfter_concat, expects]
    rfl
  · exact socket
  · rw [opens]
    exact consistent.fresh

theorem Consistent.disconnect (consistent : Consistent c) (connected : c.status = .connected) :
    Consistent c.disconnect := by
  have closes := consistent.lawful.closes
  have spoken := consistent.lawful.spoken
  have expects := consistent.expects
  have socket := consistent.socket
  rw [connected] at expects socket
  obtain ⟨fd, fdEq⟩ := Option.isSome_iff_exists.mp socket
  have calls : callbacks c.disconnect.trace = callbacks c.trace ++ [false] := callbacks_append
  have opens : opened c.disconnect.trace = opened c.trace ++ [] := opened_append
  have shuts : closed c.disconnect.trace = closed c.trace ++ [c.fd] := closed_append
  rw [List.append_nil] at opens
  refine ⟨⟨⟨?_, ?_⟩, ?_, ?_⟩, ?_, rfl, ?_⟩
  · intro errorValue member
    apply spoken.succeeded errorValue
    simpa [Client.disconnect] using member
  · rw [calls, alternates_append, expects]
    exact ⟨spoken.alternates, rfl, trivial⟩
  · rw [opens, shuts, closes, fdEq]
    simp [Client.disconnect]
  · rw [opens]
    exact consistent.lawful.distinct
  · rw [calls, expectedAfter_concat, expects]
    rfl
  · rw [opens]
    exact consistent.fresh

/-- Disconnecting a client that is not connected is a callback out of turn. -/
theorem not_spoken_disconnect (consistent : Consistent c) (other : c.status ≠ .connected) :
    ¬Spoken c.disconnect.trace := by
  intro spoken
  have calls : callbacks c.disconnect.trace = callbacks c.trace ++ [false] := callbacks_append
  have alternates := spoken.alternates
  rw [calls, alternates_append, consistent.expects] at alternates
  have expected : false = decide (c.status ≠ .connected) := alternates.2.1
  rw [decide_eq_true other] at expected
  contradiction

theorem Consistent.recycle (consistent : Consistent c) :
    Consistent { c with recycled := true } :=
  ⟨⟨consistent.lawful.spoken, consistent.lawful.closes, consistent.lawful.distinct⟩,
    consistent.expects, consistent.socket, consistent.fresh⟩

theorem onFail_trace (c : Client) : c.onFail.trace = c.disconnect.trace := by
  rw [onFail]
  split_ifs <;> rfl

theorem Consistent.onFail (consistent : Consistent c) (connected : c.status = .connected) :
    Consistent c.onFail := by
  rw [Client.onFail]
  split_ifs
  · exact (consistent.disconnect connected).recycle
  · exact consistent.disconnect connected

theorem iterate_disconnect_trace (n : Nat) (c : Client) :
    ∃ more, (disconnect^[n] c).trace = c.trace ++ more := by
  induction n generalizing c with
  | zero => exact ⟨[], (List.append_nil _).symm⟩
  | succ n ih =>
      obtain ⟨more, traceEq⟩ := ih c.disconnect
      exact ⟨[.onDisconnected, .closesocket c.fd] ++ more,
        traceEq.trans (List.append_assoc _ _ _)⟩

theorem settle_trace (result : Int × Client) :
    ∃ more, (settle result).trace = result.2.trace ++ more := by
  rw [settle]
  split_ifs
  · exact ⟨[.onDisconnected, .closesocket result.2.fd], onFail_trace _⟩
  · exact ⟨[], (List.append_nil _).symm⟩

/-- A function that disconnects at most once keeps the client consistent. -/
theorem Consistent.call (consistent : Consistent c) (connected : c.status = .connected)
    (few : handler.disconnects ≤ 1) : Consistent (c.call handler).2 := by
  obtain none | once : handler.disconnects = 0 ∨ handler.disconnects = 1 := by omega
  · rw [Client.call, none]
    exact consistent
  · rw [Client.call, once]
    exact consistent.disconnect connected

theorem Consistent.settle_call (consistent : Consistent c) (connected : c.status = .connected)
    (once : Once handler) : Consistent (settle (c.call handler)) := by
  rcases once with none | ⟨one, nonneg⟩
  · rw [settle, Client.call, none]
    split_ifs
    · exact consistent.onFail connected
    · exact consistent
  · rw [settle, Client.call, one, if_neg (Int.not_lt.mpr nonneg)]
    exact consistent.disconnect connected

theorem not_spoken_second (consistent : Consistent c) (connected : c.status = .connected) :
    ¬Spoken c.disconnect.disconnect.trace := by
  apply not_spoken_disconnect (consistent.disconnect connected)
  simp [Client.disconnect]

theorem not_spoken_iterate (consistent : Consistent c) (connected : c.status = .connected)
    {n : Nat} (several : 1 < n) : ¬Spoken (disconnect^[n] c).trace := by
  obtain ⟨k, rfl⟩ : ∃ k, n = k + 2 := ⟨n - 2, by omega⟩
  obtain ⟨more, traceEq⟩ := iterate_disconnect_trace k c.disconnect.disconnect
  intro spoken
  rw [Function.iterate_add_apply] at spoken
  exact not_spoken_second consistent connected (traceEq ▸ spoken).of_append

theorem not_spoken_settle_call (consistent : Consistent c) (connected : c.status = .connected)
    (other : ¬Once handler) : ¬Spoken (settle (c.call handler)).trace := by
  by_cases several : 1 < handler.disconnects
  · obtain ⟨more, traceEq⟩ := settle_trace (c.call handler)
    intro spoken
    rw [traceEq] at spoken
    exact not_spoken_iterate consistent connected several spoken.of_append
  · obtain ⟨one, negative⟩ : handler.disconnects = 1 ∧ handler.ret < 0 := by
      simp only [Once] at other
      omega
    rw [settle, Client.call, one, if_pos negative, onFail_trace]
    exact not_spoken_second consistent connected

end Operations

/-! ## Steps -/

section Steps

variable {c : Client} {ready : Ready} {opt : SockOpt} {handler : Handler}

theorem handleEvent_neither : c.handleEvent .neither opt handler = c.onFail := by
  rw [handleEvent, settle, if_pos (show (-1 : Int) < 0 by decide)]

theorem handleEvent_init (some : ready ≠ .neither) (idle : c.status = .init) :
    c.handleEvent ready opt handler = c := by
  cases ready with
  | neither => contradiction
  | _ => simp [handleEvent, settle, handleRead, handleWrite, idle]

theorem handleEvent_connecting (some : ready ≠ .neither) (connecting : c.status = .connecting) :
    c.handleEvent ready opt handler = settle (c.handleConnected opt handler) := by
  cases ready with
  | neither => contradiction
  | _ => simp only [handleEvent, handleRead, handleWrite, connecting]

theorem handleEvent_connected (some : ready ≠ .neither) (connected : c.status = .connected) :
    c.handleEvent ready opt handler = settle (c.call handler) := by
  cases ready with
  | neither => contradiction
  | _ => simp only [handleEvent, handleRead, handleWrite, connected]

theorem Consistent.handleEvent (consistent : Consistent c)
    (proper : c.Proper (.ready ready opt handler)) :
    Consistent (c.handleEvent ready opt handler) := by
  cases statusEq : c.status with
  | init =>
      rw [Proper, statusEq] at proper
      rw [handleEvent_init proper statusEq]
      exact consistent
  | connecting =>
      rw [Proper, statusEq] at proper
      obtain ⟨some, answered, succeeded, once⟩ := proper
      rw [handleEvent_connecting some statusEq, handleConnected, if_neg (Int.not_lt.mpr answered),
        succeeded]
      exact (consistent.connect statusEq).settle_call rfl once
  | connected =>
      rw [Proper, statusEq] at proper
      by_cases isNeither : ready = .neither
      · rw [isNeither, handleEvent_neither]
        exact consistent.onFail statusEq
      · rw [handleEvent_connected isNeither statusEq]
        exact consistent.settle_call statusEq (proper.resolve_left isNeither)

theorem not_spoken_handleEvent (consistent : Consistent c)
    (improper : ¬c.Proper (.ready ready opt handler)) :
    ¬Spoken (c.handleEvent ready opt handler).trace := by
  by_cases isNeither : ready = .neither
  · rw [isNeither, handleEvent_neither, onFail_trace]
    apply not_spoken_disconnect consistent
    intro connected
    rw [Proper, connected] at improper
    exact improper (Or.inl isNeither)
  · cases statusEq : c.status with
    | init =>
        rw [Proper, statusEq] at improper
        exact absurd isNeither improper
    | connecting =>
        rw [Proper, statusEq] at improper
        obtain ⟨more, traceEq⟩ := settle_trace (c.handleConnected opt handler)
        rw [handleEvent_connecting isNeither statusEq]
        intro spoken
        by_cases failed : opt.ret < 0
        · rw [traceEq, handleConnected, if_pos failed] at spoken
          apply not_spoken_disconnect consistent _ spoken.of_append
          simp [statusEq]
        · have answered := Int.not_lt.mp failed
          obtain ⟨later, callEq⟩ := iterate_disconnect_trace handler.disconnects
            (c.connect opt.errorValue)
          have called := spoken
          rw [traceEq, handleConnected, if_neg failed] at called
          have succeeded : opt.errorValue = 0 := by
            apply called.of_append.succeeded
            change _ ∈ (disconnect^[handler.disconnects] (c.connect opt.errorValue)).trace
            rw [callEq]
            simp [connect]
          rw [handleConnected, if_neg failed, succeeded] at spoken
          apply not_spoken_settle_call (consistent.connect statusEq) rfl _ spoken
          intro once
          exact improper ⟨isNeither, answered, succeeded, once⟩
    | connected =>
        rw [Proper, statusEq] at improper
        rw [handleEvent_connected isNeither statusEq]
        apply not_spoken_settle_call consistent statusEq
        intro once
        exact improper (Or.inr once)

theorem Consistent.next (consistent : Consistent c) {event : Event} (allowed : c.Allowed event)
    (proper : c.Proper event) : Consistent (c.next event) := by
  cases event with
  | connectTo ok => exact consistent.doConnect allowed ok
  | ready ready opt handler => exact consistent.handleEvent proper
  | reconnectTimer ok =>
      rw [Client.next, reconnect]
      split_ifs with idle
      · exact consistent.doConnect idle ok
      · exact consistent
  | keepAliveTimer keepAlive =>
      rw [Client.next]
      split_ifs with connected
      · exact consistent.call connected (proper connected)
      · exact consistent
  | disconnect => exact consistent.disconnect proper

theorem not_spoken_next (consistent : Consistent c) {event : Event} (improper : ¬c.Proper event) :
    ¬Spoken (c.next event).trace := by
  cases event with
  | connectTo ok => exact absurd trivial improper
  | ready ready opt handler => exact not_spoken_handleEvent consistent improper
  | reconnectTimer ok => exact absurd trivial improper
  | keepAliveTimer keepAlive =>
      simp only [Proper, Classical.not_imp] at improper
      rw [next, if_pos improper.1]
      exact not_spoken_iterate consistent improper.1 (Nat.lt_of_not_le improper.2)
  | disconnect => exact not_spoken_disconnect consistent improper

theorem handleConnected_trace :
    ∃ more, (c.handleConnected opt handler).2.trace = c.trace ++ more := by
  rw [handleConnected]
  split_ifs
  · exact ⟨_, rfl⟩
  · obtain ⟨more, traceEq⟩ := iterate_disconnect_trace handler.disconnects
      (c.connect opt.errorValue)
    exact ⟨[.onConnected opt.errorValue] ++ more, traceEq.trans (List.append_assoc _ _ _)⟩

/-- Nothing is taken out of the trace. -/
theorem next_trace (c : Client) (event : Event) :
    ∃ more, (c.next event).trace = c.trace ++ more := by
  have connects : ∀ ok, ∃ more, (c.doConnect ok).2.trace = c.trace ++ more := by
    intro ok
    rw [doConnect]
    split_ifs
    · exact ⟨_, rfl⟩
    · exact ⟨[], (List.append_nil _).symm⟩
  have settles : ∀ {result : Int × Client}, (∃ more, result.2.trace = c.trace ++ more) →
      ∃ more, (settle result).trace = c.trace ++ more := by
    rintro result ⟨more, traceEq⟩
    obtain ⟨later, settleEq⟩ := settle_trace result
    exact ⟨more ++ later, by rw [settleEq, traceEq, List.append_assoc]⟩
  have same : ∃ more, c.trace = c.trace ++ more := ⟨[], (List.append_nil _).symm⟩
  cases event with
  | connectTo ok => exact connects ok
  | ready ready opt handler =>
      apply settles
      cases ready <;> cases statusEq : c.status <;>
        simp only [handleRead, handleWrite, statusEq]
      all_goals first
        | exact same
        | exact handleConnected_trace
        | exact iterate_disconnect_trace handler.disconnects c
  | reconnectTimer ok =>
      rw [next, reconnect]
      split_ifs
      · exact connects ok
      · exact same
  | keepAliveTimer keepAlive =>
      rw [next]
      split_ifs
      · exact iterate_disconnect_trace keepAlive.disconnects c
      · exact same
  | disconnect => exact ⟨_, rfl⟩

end Steps

/-! ## Runs -/

section Runs

variable {reconnectSpan : Int} {events : List Event} {c : Client}

theorem consistent_of_run (run : Run Step Proper (init reconnectSpan) events c) :
    Consistent c := by
  apply run.invariant (consistent_init reconnectSpan)
  rintro c event _ consistent proper ⟨_, allowed, rfl⟩
  exact consistent.next allowed proper

/-- A run whose callbacks are in order has disconnected properly at every step. -/
theorem proper_of_spoken (run : Run Step anyStep (init reconnectSpan) events c)
    (spoken : Spoken c.trace) : Run Step Proper (init reconnectSpan) events c := by
  induction run with
  | refl => exact Run.refl
  | @snoc events middle target event _ _ taken ih =>
      obtain ⟨_, _, rfl⟩ := id taken
      obtain ⟨more, traceEq⟩ := next_trace middle event
      have before := ih (traceEq ▸ spoken).of_append
      refine before.snoc ?_ taken
      by_contra improper
      exact not_spoken_next (consistent_of_run before) improper spoken

end Runs

/-- Take any run of a client.  Its callbacks come in order, `onConnected` for connects that
succeeded only, and every socket but the present one is closed once, exactly when every
step has found the client connected if it disconnects it, and has found the connect
successful if it takes it for one. -/
theorem lawful_iff_proper {reconnectSpan : Int} {events : List Event} {c : Client}
    (run : Run Step anyStep (init reconnectSpan) events c) :
    Lawful c ↔ Run Step Proper (init reconnectSpan) events c := by
  constructor
  · intro lawful
    exact proper_of_spoken run lawful.spoken
  · intro proper
    exact (consistent_of_run proper).lawful

/-- A client connects, is told that it is connected, and is disconnected. -/
def oneLife : List Event :=
  [.connectTo true, .ready .epollout ⟨0, 0⟩ ⟨0, 0⟩, .disconnect]

theorem lawful_iff_proper_oneLife :
    Lawful (oneLife.foldl next (init 1000)) := by
  have run : Run Step Proper (init 1000) oneLife (oneLife.foldl next (init 1000)) := by
    apply Run.cons trivial ⟨rfl, rfl, rfl⟩
    apply Run.cons ⟨by decide, by decide, rfl, Or.inl rfl⟩ ⟨rfl, trivial, rfl⟩
    exact Run.single rfl ⟨rfl, trivial, rfl⟩
  exact (lawful_iff_proper (run.mono fun _ _ _ => trivial)).mpr run

/-- A connect that is refused, so that `SO_ERROR` is `111`, is taken for a success. -/
theorem failed_connect_is_onConnected :
    ∃ events c, Run Step anyStep (init 1000) events c ∧ .onConnected 111 ∈ c.trace ∧
      ¬Lawful c := by
  have run : Run Step anyStep (init 1000)
      [.connectTo true, .ready .epollin ⟨0, 111⟩ ⟨0, 0⟩] _ :=
    Run.cons trivial ⟨rfl, rfl, rfl⟩ (Run.single trivial ⟨rfl, trivial, rfl⟩)
  refine ⟨_, _, run, by decide, ?_⟩
  intro lawful
  exact absurd (lawful.spoken.succeeded 111 (by decide)) (by decide)

end Client

end GPush.Connection
