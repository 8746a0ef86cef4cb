import GPush.Containers.Ordered
import GPush.Containers.PointerSet
import GPush.EventLoop.Timers
import GPush.Transition.Run

/-!
# The timers of connections

A `ConnectionTimer` is owned by its connection and, while it is armed, stands in the
timer set of the connection's loop as a pointer.  The set is ordered by the deadlines
behind its pointers.  The calls that arm, stop, fire and destroy timers are given as
the statements they execute, so that the states inside a call can be looked at too.
-/

namespace GPush.EventLoop.TimerSet

open GPush.Containers

/-! ## Objects -/

/-- The statuses of a `ConnectionTimer`. -/
inductive Status
  | init
  | start
  | stop
  deriving DecidableEq, Repr

/-- `ConnectionTimer`, with the address of its connection. -/
structure ConnectionTimer where
  timeoutTime : TimeTv
  con : Nat
  id : Int
  status : Status
  deriving DecidableEq, Repr

/-- `Connection`: its loop, and its timers by id with their addresses. -/
structure Connection where
  evlp : Option Nat
  timers : List (Int × Nat)
  deriving DecidableEq, Repr

/-- `Connection::getTimer`. -/
def Connection.getTimer (con : Connection) (id : Int) : Option Nat :=
  (con.timers.find? fun entry => entry.1 = id).map Prod.snd

/-- The connection after `m_timers[id] = tm`, in the order of the ids. -/
def Connection.put (con : Connection) (id : Int) (a : Nat) : Connection :=
  { con with timers := assign (fun i j => decide (i < j)) id a con.timers }

/-- The connections and timers at their addresses, and `m_timer_map` of each loop. -/
structure State where
  cons : Nat → Option Connection
  heap : Nat → Option ConnectionTimer
  timerMap : Nat → List Nat

namespace State

/-- No connection has been constructed. -/
def initial : State := ⟨fun _ => none, fun _ => none, fun _ => []⟩

/-- The deadline of the timer at `a`. -/
def timeoutTime (s : State) (a : Nat) : Option TimeTv := (s.heap a).map (·.timeoutTime)

/-- What the set compares for the pointer `a`: the deadline there and the address. -/
def key (s : State) (a : Nat) : Timer := ⟨(s.timeoutTime a).getD ⟨0, 0⟩, a⟩

/-- Whether the timer at `a` is started. -/
def started (s : State) (a : Nat) : Bool := (s.heap a).any (·.status = .start)

/-- The connection at `c` is alive, runs on the loop `l` and owns the timer at `a` under
the id `id`. -/
def Owns (s : State) (l c : Nat) (id : Int) (a : Nat) : Prop :=
  ∃ con, s.cons c = some con ∧ con.evlp = some l ∧ (id, a) ∈ con.timers

/-- The timer at `a` is started, and its connection is alive, runs on the loop `l` and
still owns it. -/
def Armed (s : State) (l a : Nat) : Prop :=
  ∃ tm, s.heap a = some tm ∧ tm.status = .start ∧ s.Owns l tm.con tm.id a

end State

instance : IsStrictTotalOrder Timer Timer.Less where
  trichotomous a b notBefore notAfter := by
    rcases a with ⟨⟨sec, usec⟩, addr⟩
    rcases b with ⟨⟨sec', usec'⟩, addr'⟩
    simp only [Timer.Less, TimeTv.Less, TimeTv.mk.injEq, Timer.mk.injEq] at *
    omega
  irrefl a less := by
    simp [Timer.Less, TimeTv.Less] at less
  trans _ _ _ := Timer.Less.trans

theorem State.key_injective (s : State) : Function.Injective s.key :=
  fun _ _ same => congrArg Timer.addr same

/-! ## Statements -/

/-- The statements by which the calls change connections, timers and sets. -/
inductive Statement
  /-- `new` of a connection at `c` -/
  | newConnection (c : Nat)
  /-- `con->setEventLoop(l)` -/
  | setEventLoop (c l : Nat)
  /-- `delete con` -/
  | deleteConnection (c : Nat)
  /-- `new ConnectionTimer(this, id)`, at `a` -/
  | newTimer (a c : Nat) (id : Int)
  /-- `m_timers[id] = tm` -/
  | putTimer (c : Nat) (id : Int) (a : Nat)
  /-- `m_timers.clear()` -/
  | clearTimers (c : Nat)
  /-- `delete itor->second` -/
  | deleteTimer (a : Nat)
  /-- `Timer::setTimeoutTime` -/
  | setTimeoutTime (a : Nat) (t : TimeTv)
  /-- `ConnectionTimer::setStatus` -/
  | setStatus (a : Nat) (status : Status)
  /-- `EventLoop::addTimer` -/
  | addTimer (l a : Nat)
  /-- `EventLoop::delTimer` -/
  | delTimer (l a : Nat)
  /-- `m_timer_map.erase(itor)` where `itor` is the beginning -/
  | eraseFirst (l : Nat)
  deriving DecidableEq, Repr

/-- What a statement does. -/
def exec (s : State) : Statement → State
  | .newConnection c => { s with cons := Function.update s.cons c (some ⟨none, []⟩) }
  | .setEventLoop c l =>
      { s with
        cons := Function.update s.cons c ((s.cons c).map fun con => { con with evlp := some l }) }
  | .deleteConnection c => { s with cons := Function.update s.cons c none }
  | .newTimer a c id => { s with heap := Function.update s.heap a (some ⟨⟨0, 0⟩, c, id, .init⟩) }
  | .putTimer c id a =>
      { s with cons := Function.update s.cons c ((s.cons c).map (·.put id a)) }
  | .clearTimers c =>
      { s with
        cons := Function.update s.cons c ((s.cons c).map fun con => { con with timers := [] }) }
  | .deleteTimer a => { s with heap := Function.update s.heap a none }
  | .setTimeoutTime a t =>
      { s with
        heap := Function.update s.heap a ((s.heap a).map fun tm => { tm with timeoutTime := t }) }
  | .setStatus a status =>
      { s with
        heap := Function.update s.heap a ((s.heap a).map fun tm => { tm with status := status }) }
  | .addTimer l a =>
      { s with
        timerMap := Function.update s.timerMap l
          (PointerSet.insert Timer.Less s.key a (s.timerMap l)) }
  | .delTimer l a =>
      { s with
        timerMap := Function.update s.timerMap l
          (PointerSet.erase Timer.Less s.key a (s.timerMap l)) }
  | .eraseFirst l => { s with timerMap := Function.update s.timerMap l (s.timerMap l).tail }

/-- What a sequence of statements does. -/
def execAll (s : State) (code : List Statement) : State := code.foldl exec s

/-! ## Calls -/

/-- The deadline of `Timer::setTimeOutAfter` at the time `now`. -/
def setTimeOutAfter (now : TimeTv) (ms : Int) : TimeTv :=
  let sec := now.sec + ms.tdiv 1000
  let usec := now.usec + ms.tmod 1000 * 1000
  ⟨sec + usec.tdiv 1000000, usec.tmod 1000000⟩

/-- `Connection::startTimer` at the time `now`; a new timer is put at `fresh`. -/
def startTimer (s : State) (c : Nat) (con : Connection) (id timeout : Int) (now : TimeTv)
    (fresh : Nat) : List Statement :=
  match con.evlp with
  | none => []
  | some l =>
      let tm := (con.getTimer id).getD fresh
      (if (con.getTimer id).isSome then
        if s.started tm then [.delTimer l tm] else []
      else
        [.newTimer tm c id, .putTimer c id tm]) ++
      [.setTimeoutTime tm (setTimeOutAfter now timeout), .setStatus tm .start, .addTimer l tm]

/-- `Connection::stopTimer`. -/
def stopTimer (s : State) (con : Connection) (id : Int) : List Statement :=
  match con.evlp with
  | none => []
  | some l =>
      match con.getTimer id with
      | none => []
      | some tm => (if s.started tm then [.delTimer l tm] else []) ++ [.setStatus tm .stop]

/-- `Connection::clearTimer`. -/
def clearTimer (c : Nat) (con : Connection) : List Statement :=
  match con.evlp with
  | none => []
  | some l =>
      con.timers.flatMap (fun entry => [.delTimer l entry.2, .deleteTimer entry.2]) ++
        [.clearTimers c]

/-- The destructor `Connection::~Connection`, by way of `Connection::clear`. -/
def destroy (c : Nat) (con : Connection) : List Statement :=
  clearTimer c con ++ [.deleteConnection c]

/-- `Connection::safeClose`, where `unsent` tells whether the send buffer has bytes. -/
def safeClose (c : Nat) (con : Connection) (unsent : Bool) : List Statement :=
  if unsent then clearTimer c con else destroy c con

/-- The calls.  `startTimer` names the address of the timer it arms, and `fire` is one
round of the loop in `EventLoop::processTimers` up to the callback, whose own calls
follow it. -/
inductive Event
  | construct (c : Nat)
  | addConnection (c l : Nat)
  | startTimer (c : Nat) (id timeout : Int) (now : TimeTv) (a : Nat)
  | stopTimer (c : Nat) (id : Int)
  | safeClose (c : Nat) (unsent : Bool)
  | destroy (c : Nat)
  | fire (l : Nat) (now : TimeTv) (a : Nat)
  deriving DecidableEq, Repr

/-- The statements of a call. -/
def code (s : State) : Event → List Statement
  | .construct c => [.newConnection c]
  | .addConnection c l => [.setEventLoop c l]
  | .startTimer c id timeout now a =>
      (s.cons c).elim [] fun con => startTimer s c con id timeout now a
  | .stopTimer c id => (s.cons c).elim [] fun con => stopTimer s con id
  | .safeClose c unsent => (s.cons c).elim [] fun con => safeClose c con unsent
  | .destroy c => (s.cons c).elim [] fun con => destroy c con
  | .fire l _ a => [.eraseFirst l, .setStatus a .stop]

/-- When a call is made: methods are called on connections that are alive, objects are
constructed where there is none, a connection is added to one loop, and a timer fires
when it is the first of its set and due. -/
def Allowed (s : State) : Event → Prop
  | .construct c => s.cons c = none
  | .addConnection c l => ∃ con, s.cons c = some con ∧ (con.evlp = none ∨ con.evlp = some l)
  | .startTimer c id _ _ a =>
      ∃ con, s.cons c = some con ∧
        (con.getTimer id = some a ∨ con.getTimer id = none ∧ s.heap a = none)
  | .stopTimer c _ => ∃ con, s.cons c = some con
  | .safeClose c _ => ∃ con, s.cons c = some con
  | .destroy c => ∃ con, s.cons c = some con
  | .fire l now a =>
      (s.timerMap l).head? = some a ∧ ¬0 < tvDiffMs (s.key a).timeoutTime now

/-- A call and the state after it. -/
def Step : Transition.LTS State Event :=
  fun s event t => Allowed s event ∧ t = execAll s (code s event)

end GPush.EventLoop.TimerSet
