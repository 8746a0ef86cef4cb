import GPush.Transition.Run
import Mathlib.Data.List.Basic

/-!
# Stopping an event loop

`stop` turns a running loop into a closing one and queues an operator that closes the
connections there are.  A closing loop ends when it has no connection left.  The status
is also written by `run`, and connections are added by operators of their own.
-/

namespace GPush.EventLoop

open GPush.Transition

/-- `m_status`. -/
inductive Status
  | running
  | closing
  | closed
  deriving DecidableEq, Repr

/-- Where the thread of the loop is in `run`: before its first line, in `processOps`, in
`processTimers`, before the test of the status, in `epoll_wait`, at the events, or out. -/
inductive Thread
  | created
  | ops
  | timers
  | deciding
  | waiting
  | events
  | exited
  deriving DecidableEq, Repr

/-- The operators; `checkConnectServer` adds the connections that `checkServers` makes, and
the other ones neither add nor close any. -/
inductive NetOperator (ι : Type*)
  | addConnection (con : ι)
  | closeConnection (con : ι)
  | closeAllConnections
  | checkConnectServer
  | other
  deriving DecidableEq, Repr

/-- What an operator finds: whether `onCreate` succeeds, the connections that have nothing
to send, and those that `checkServers` makes. -/
structure Outcome (ι : Type*) where
  created : Bool
  flushed : ι → Bool
  made : List ι

/-- An event loop that may be stopped.  A connection in `m_con_map` comes with whether
`safeClose` has been called on it since the stop; `pending` counts the calls of `stop`
between their exchange and their operator, `queued` tells whether that operator has been
queued, and `called` whether a call of `stop` has returned. -/
structure Stoppable (ι : Type*) where
  status : Status
  thread : Thread
  ops : List (NetOperator ι)
  cons : List (ι × Bool)
  pending : Nat
  queued : Bool
  called : Bool

namespace Stoppable

variable {ι : Type*} [DecidableEq ι]

/-- An event loop after `init`, whose thread has been created. -/
def init : Stoppable ι := ⟨.closed, .created, [], [], 0, false, false⟩

/-- `EventLoop::addConnection`; `m_con_map` keeps the connection that it has. -/
def addConnection (s : Stoppable ι) (con : ι) (created : Bool) : Stoppable ι :=
  if created = false then s
  else if con ∈ s.cons.map Prod.fst then s
  else { s with cons := s.cons ++ [(con, false)] }

/-- `Connection::safeClose`: a connection without anything to send is recycled. -/
def safeClose (flushed : ι → Bool) (entry : ι × Bool) : Option (ι × Bool) :=
  if flushed entry.1 then none else some (entry.1, true)

/-- `EventLoop::closeAllConnections`. -/
def closeAllConnections (s : Stoppable ι) (flushed : ι → Bool) : Stoppable ι :=
  { s with cons := s.cons.filterMap (safeClose flushed) }

/-- `EventLoop::closeConnection`. -/
def closeConnection (s : Stoppable ι) (con : ι) (flushed : ι → Bool) : Stoppable ι :=
  { s with cons := s.cons.filterMap fun entry =>
      if entry.1 = con then safeClose flushed entry else some entry }

/-- `NetOperator::process`.  `checkServers` queues an operator for each connection. -/
def process (s : Stoppable ι) (found : Outcome ι) : NetOperator ι → Stoppable ι
  | .addConnection con => s.addConnection con found.created
  | .closeConnection con => s.closeConnection con found.flushed
  | .closeAllConnections => s.closeAllConnections found.flushed
  | .checkConnectServer => { s with ops := s.ops ++ found.made.map .addConnection }
  | .other => s

/-- The exchange in `EventLoop::stop`. -/
def exchange (s : Stoppable ι) : Stoppable ι :=
  if s.status = .running then
    { s with
      status := .closing
      cons := s.cons.map fun entry => (entry.1, false)
      pending := s.pending + 1 }
  else
    { s with called := true }

/-- The test in `run`. -/
def decideExit (s : Stoppable ι) : Stoppable ι :=
  if s.status ≠ .running ∧ s.cons = [] then
    { s with status := .closed, thread := .exited }
  else
    { s with thread := .waiting }

/-- The atomic steps of the loop, of the threads that stop it and of those that queue
operators. -/
inductive Event (ι : Type*)
  | start
  | push (op : NetOperator ι)
  | exchange
  | closeAll
  | pop (found : Outcome ι)
  | seeEmpty
  | timersDone
  | test
  | wake
  | epollFails
  | eventsDone
  | recycle (con : ι)

/-- The step relation.  Nobody but `stop` queues the operator that closes all connections.
The loop may recycle a connection whenever it is at work, and `epoll_wait` may return at
any time. -/
inductive Step : LTS (Stoppable ι) (Event ι)
  | start {s : Stoppable ι} : s.thread = .created →
      Step s .start { s with status := .running, thread := .ops }
  | push {s : Stoppable ι} {op : NetOperator ι} : op ≠ .closeAllConnections →
      Step s (.push op) { s with ops := s.ops ++ [op] }
  | exchange {s : Stoppable ι} : Step s .exchange s.exchange
  | closeAll {s : Stoppable ι} {n : Nat} : s.pending = n + 1 →
      Step s .closeAll { s with
        ops := s.ops ++ [.closeAllConnections], pending := n, queued := true, called := true }
  | pop {s : Stoppable ι} {op : NetOperator ι} {rest : List (NetOperator ι)}
      {found : Outcome ι} : s.thread = .ops → s.ops = op :: rest →
      Step s (.pop found) ({ s with ops := rest }.process found op)
  | seeEmpty {s : Stoppable ι} : s.thread = .ops → s.ops = [] →
      Step s .seeEmpty { s with thread := .timers }
  | timersDone {s : Stoppable ι} : s.thread = .timers →
      Step s .timersDone { s with thread := .deciding }
  | test {s : Stoppable ι} : s.thread = .deciding → Step s .test s.decideExit
  | wake {s : Stoppable ι} : s.thread = .waiting → Step s .wake { s with thread := .events }
  | epollFails {s : Stoppable ι} : s.thread = .waiting →
      Step s .epollFails { s with thread := .exited }
  | eventsDone {s : Stoppable ι} : s.thread = .events →
      Step s .eventsDone { s with thread := .ops }
  | recycle {s : Stoppable ι} {con : ι} :
      s.thread = .ops ∨ s.thread = .timers ∨ s.thread = .events →
      Step s (.recycle con) { s with cons := s.cons.filter fun entry => entry.1 ≠ con }

/-- The loop has nothing to do. -/
def Idle (s : Stoppable ι) : Prop := s.thread = .waiting ∧ s.ops = []

/-- A stop is not lost: once `stop` has been called, the loop does not run, and it is not
idle with a connection on which `safeClose` has not been called since. -/
def NotLost (s : Stoppable ι) : Prop :=
  s.called = true → s.status ≠ .running ∧ ∀ con, (con, false) ∈ s.cons → ¬s.Idle

/-! ## When it holds -/

/-- `stop` finds that `run` has stored its status, and no other call of `stop` half way.
Nobody hands a connection to the loop after the operator of `stop` has been queued, and
`checkServers` makes none then. -/
def Guard (s : Stoppable ι) : Event ι → Prop
  | .exchange => s.thread ≠ .created ∧ s.pending = 0
  | .push (.addConnection _) => s.queued = false
  | .pop found => s.queued = true → s.ops.head? = some .checkConnectServer → found.made = []
  | _ => True

/-- No operator adds a connection. -/
def NoAdd (ops : List (NetOperator ι)) : Prop := ∀ con, .addConnection con ∉ ops

/-- The operator of `stop` is still to come, with no connection added after it, or it has
been processed, and `safeClose` has been called on all connections. -/
def Closes (ops : List (NetOperator ι)) (cons : List (ι × Bool)) : Prop :=
  (∃ before after, ops = before ++ .closeAllConnections :: after ∧ NoAdd after) ∨
    NoAdd ops ∧ ∀ con, (con, false) ∉ cons

/-- The invariant. -/
structure Kept (s : Stoppable ι) : Prop where
  created : s.thread = .created → s.status = .closed ∧ s.pending = 0
  running : s.status = .running → s.pending = 0 ∧ s.queued = false ∧ s.called = false
  closing : s.status = .closing → s.queued = true ∨ 0 < s.pending
  closed : s.status = .closed → s.thread = .created ∧ s.queued = false ∧ s.called = false ∨
    s.thread = .exited
  stopped : s.called = true → s.queued = true ∨ s.thread = .exited
  closes : s.queued = true → Closes s.ops s.cons

variable {s t : Stoppable ι} {op : NetOperator ι} {ops rest : List (NetOperator ι)}
  {cons : List (ι × Bool)} {found : Outcome ι} {flushed : ι → Bool} {con : ι}

omit [DecidableEq ι] in
theorem Kept.notLost (kept : s.Kept) : s.NotLost := by
  intro called
  constructor
  · intro running
    exact absurd (called.symm.trans (kept.running running).2.2) Bool.noConfusion
  · rintro con member ⟨waiting, empty⟩
    have queued : s.queued = true := by
      apply (kept.stopped called).resolve_right
      simp [waiting]
    rcases kept.closes queued with ⟨before, after, opsEq, -⟩ | ⟨-, allClosed⟩
    · simp [empty] at opsEq
    · exact allClosed con member

omit [DecidableEq ι] in
theorem kept_init : Kept (init : Stoppable ι) := by
  constructor
  · intro _
    exact ⟨rfl, rfl⟩
  · intro running
    exact absurd running (by simp [init])
  · intro closing
    exact absurd closing (by simp [init])
  · intro _
    exact Or.inl ⟨rfl, rfl, rfl⟩
  · intro called
    exact absurd called Bool.noConfusion
  · intro queued
    exact absurd queued Bool.noConfusion

/-! ## Processing an operator -/

omit [DecidableEq ι] in
theorem noAdd_append {before after : List (NetOperator ι)} :
    NoAdd (before ++ after) ↔ NoAdd before ∧ NoAdd after := by
  simp [NoAdd, forall_and]

omit [DecidableEq ι] in
theorem noAdd_cons : NoAdd (op :: rest) ↔ (∀ con, op ≠ .addConnection con) ∧ NoAdd rest := by
  simp [NoAdd, forall_and, eq_comm (a := op)]

/-- An operator changes the queue and the connections. -/
theorem process_eq :
    s.process found op = { s with
      ops := s.ops ++ if op = .checkConnectServer then found.made.map .addConnection else []
      cons := (s.process found op).cons } := by
  cases op with
  | addConnection con =>
      simp only [process, addConnection, reduceCtorEq, if_false, List.append_nil]
      split_ifs <;> rfl
  | closeConnection con => simp [process, closeConnection]
  | closeAllConnections => simp [process, closeAllConnections]
  | checkConnectServer => simp [process]
  | other => simp [process]

omit [DecidableEq ι] in
theorem not_mem_safeClose : (con, false) ∉ cons.filterMap (safeClose flushed) := by
  intro member
  obtain ⟨entry, -, entryEq⟩ := List.mem_filterMap.mp member
  rw [safeClose] at entryEq
  split_ifs at entryEq
  simp at entryEq

/-- Only the operator of a connection brings one on which `safeClose` has not been called. -/
theorem process_closed (notAdd : ∀ con, op ≠ .addConnection con)
    (allClosed : ∀ con, (con, false) ∉ s.cons) (con : ι) :
    (con, false) ∉ (s.process found op).cons := by
  cases op with
  | addConnection con => exact absurd rfl (notAdd con)
  | closeConnection con' =>
      intro member
      obtain ⟨entry, old, entryEq⟩ := List.mem_filterMap.mp member
      split_ifs at entryEq
      · have closed : (con, false) ∈ [entry].filterMap (safeClose found.flushed) := by
          simp [entryEq]
        exact not_mem_safeClose closed
      · obtain rfl := Option.some.inj entryEq
        exact allClosed con old
  | closeAllConnections => exact not_mem_safeClose
  | checkConnectServer => exact allClosed con
  | other => exact allClosed con

/-- What is left to close after an operator. -/
theorem Closes.process (closes : Closes (op :: rest) s.cons)
    (made : op = .checkConnectServer → found.made = []) :
    Closes (({ s with ops := rest }.process found op).ops)
      ({ s with ops := rest }.process found op).cons := by
  have opsEq : ({ s with ops := rest }.process found op).ops = rest := by
    rw [process_eq]
    split_ifs with checks
    · simp [made checks]
    · simp
  rw [opsEq]
  rcases closes with ⟨before, after, split, noAdd⟩ | ⟨noAdd, allClosed⟩
  · rcases before with _ | ⟨first, before⟩
    · obtain ⟨rfl, rfl⟩ := List.cons.inj split
      exact Or.inr ⟨noAdd, fun _ => not_mem_safeClose⟩
    · obtain ⟨rfl, rfl⟩ := List.cons.inj split
      exact Or.inl ⟨before, after, rfl, noAdd⟩
  · rw [noAdd_cons] at noAdd
    exact Or.inr ⟨noAdd.2, process_closed noAdd.1 allClosed⟩

omit [DecidableEq ι] in
theorem Closes.push (closes : Closes ops cons) (notAdd : ∀ con, op ≠ .addConnection con) :
    Closes (ops ++ [op]) cons := by
  have single : NoAdd [op] := noAdd_cons.mpr ⟨notAdd, fun _ => List.not_mem_nil⟩
  rcases closes with ⟨before, after, rfl, noAdd⟩ | ⟨noAdd, allClosed⟩
  · exact Or.inl ⟨before, after ++ [op], by simp, noAdd_append.mpr ⟨noAdd, single⟩⟩
  · exact Or.inr ⟨noAdd_append.mpr ⟨noAdd, single⟩, allClosed⟩

namespace Kept

omit [DecidableEq ι] in
/-- The loop moves on. -/
theorem move (kept : s.Kept) {thread : Thread} (here : s.thread ≠ .created)
    (there : thread ≠ .created) (stays : s.thread ≠ .exited) :
    Kept { s with thread := thread } := by
  constructor
  · intro created
    exact absurd created there
  · exact kept.running
  · exact kept.closing
  · intro closed
    rcases kept.closed closed with ⟨created, -⟩ | exited
    · exact absurd created here
    · exact absurd exited stays
  · intro called
    exact Or.inl ((kept.stopped called).resolve_right stays)
  · exact kept.closes

omit [DecidableEq ι] in
theorem exchange (kept : s.Kept) (started : s.thread ≠ .created) (alone : s.pending = 0) :
    s.exchange.Kept := by
  rw [Stoppable.exchange]
  split_ifs with running
  · obtain ⟨-, queued, called⟩ := kept.running running
    constructor
    · intro created
      exact absurd created started
    · intro running
      exact absurd running (by simp)
    · intro _
      exact Or.inr (Nat.succ_pos _)
    · intro closed
      exact absurd closed (by simp)
    · intro called'
      exact absurd (called'.symm.trans called) Bool.noConfusion
    · intro queued'
      exact absurd (queued'.symm.trans queued) Bool.noConfusion
  · constructor
    · exact kept.created
    · intro running'
      exact absurd running' running
    · exact kept.closing
    · intro closed
      exact Or.inr ((kept.closed closed).resolve_left fun ⟨created, _⟩ => started created)
    · intro _
      rcases statusEq : s.status with _ | _ | _
      · exact absurd statusEq running
      · refine Or.inl ((kept.closing statusEq).resolve_right ?_)
        simp [alone]
      · exact Or.inr ((kept.closed statusEq).resolve_left fun ⟨created, _⟩ => started created)
    · exact kept.closes

omit [DecidableEq ι] in
theorem decideExit (kept : s.Kept) (deciding : s.thread = .deciding) : s.decideExit.Kept := by
  rw [Stoppable.decideExit]
  split_ifs with done
  · constructor
    · intro created
      exact absurd created (by simp)
    · intro running
      exact absurd running (by simp)
    · intro closing
      exact absurd closing (by simp)
    · intro _
      exact Or.inr rfl
    · intro _
      exact Or.inr rfl
    · exact kept.closes
  · exact kept.move (by simp [deciding]) (by simp) (by simp [deciding])

omit [DecidableEq ι] in
/-- `run` stores its status. -/
theorem start (kept : s.Kept) (created : s.thread = .created) :
    Kept { s with status := .running, thread := .ops } := by
  obtain ⟨closed, alone⟩ := kept.created created
  obtain ⟨-, queued, called⟩ := (kept.closed closed).resolve_right (by simp [created])
  constructor
  · intro created
    exact absurd created (by simp)
  · intro _
    exact ⟨alone, queued, called⟩
  · intro closing
    exact absurd closing (by simp)
  · intro closed
    exact absurd closed (by simp)
  · intro called'
    exact absurd (called'.symm.trans called) Bool.noConfusion
  · intro queued'
    exact absurd (queued'.symm.trans queued) Bool.noConfusion

omit [DecidableEq ι] in
/-- A call of `stop` queues its operator and returns. -/
theorem closeAll (kept : s.Kept) {n : Nat} (pending : s.pending = n + 1) :
    Kept { s with
      ops := s.ops ++ [.closeAllConnections], pending := n, queued := true, called := true } := by
  constructor
  · intro created
    exact absurd (pending.symm.trans (kept.created created).2) (by simp)
  · intro running
    exact absurd (pending.symm.trans (kept.running running).1) (by simp)
  · intro _
    exact Or.inl rfl
  · intro closed
    refine Or.inr ((kept.closed closed).resolve_left ?_)
    rintro ⟨created, -⟩
    exact absurd (pending.symm.trans (kept.created created).2) (by simp)
  · intro _
    exact Or.inl rfl
  · intro _
    exact Or.inl ⟨s.ops, [], rfl, fun _ => List.not_mem_nil⟩

/-- What closes the connections is all that an operator may change of the invariant. -/
theorem process (kept : s.Kept) (queue : s.ops = op :: rest)
    (made : s.queued = true → op = .checkConnectServer → found.made = []) :
    Kept ({ s with ops := rest }.process found op) := by
  have closes : s.queued = true →
      Closes (({ s with ops := rest }.process found op).ops)
        ({ s with ops := rest }.process found op).cons := by
    intro queued
    exact Closes.process (queue ▸ kept.closes queued) (made queued)
  rw [process_eq] at closes ⊢
  exact ⟨kept.created, kept.running, kept.closing, kept.closed, kept.stopped, closes⟩

/-- The step lemma. -/
theorem step {event : Event ι} (kept : s.Kept) (guarded : s.Guard event)
    (taken : Step s event t) : t.Kept := by
  cases taken with
  | start created => exact kept.start created
  | @push _ op =>
      refine ⟨kept.created, kept.running, kept.closing, kept.closed, kept.stopped, ?_⟩
      intro queued
      apply (kept.closes queued).push
      rintro con rfl
      exact absurd (queued.symm.trans guarded) Bool.noConfusion
  | exchange => exact kept.exchange guarded.1 guarded.2
  | closeAll pending => exact kept.closeAll pending
  | pop _ queue =>
      apply kept.process queue
      rintro queued rfl
      exact guarded queued (by rw [queue]; rfl)
  | seeEmpty here => exact kept.move (by simp [here]) (by simp) (by simp [here])
  | timersDone here => exact kept.move (by simp [here]) (by simp) (by simp [here])
  | test here => exact kept.decideExit here
  | wake here => exact kept.move (by simp [here]) (by simp) (by simp [here])
  | epollFails here => exact kept.move (by simp [here]) (by simp) (by simp [here])
  | eventsDone here => exact kept.move (by simp [here]) (by simp) (by simp [here])
  | recycle =>
      refine ⟨kept.created, kept.running, kept.closing, kept.closed, kept.stopped, ?_⟩
      intro queued
      apply (kept.closes queued).imp_right
      rintro ⟨noAdd, allClosed⟩
      exact ⟨noAdd, fun con member => allClosed con (List.mem_filter.mp member).1⟩

end Kept

/-- In every run in which `stop` comes after `run` has stored its status, and no connection
is handed to the loop after the operator of `stop`, no stop is lost in the state reached. -/
theorem notLost_of_guarded {events : List (Event ι)} (run : Run Step Guard init events s) :
    s.NotLost := by
  have kept : s.Kept := run.invariant kept_init fun _ _ _ kept guarded taken =>
    kept.step guarded taken
  exact kept.notLost

/-! ## Runs with one connection -/

/-- What an operator finds that adds the connection, or finds it with nothing to send. -/
def fine (made : List Unit) : Outcome Unit := ⟨true, fun _ => true, made⟩

/-- A connection is added and closed by a stop. -/
def stops : List (Event Unit) :=
  [.start, .push (.addConnection ()), .pop (fine []), .exchange, .closeAll, .pop (fine []),
    .seeEmpty, .timersDone, .test]

theorem notLost_of_guarded_stops :
    ∃ s : Stoppable Unit, Run Step Guard init stops s ∧ s.called = true ∧ s.status = .closed ∧
      s.NotLost := by
  have run : ∃ s : Stoppable Unit, Run Step Guard init stops s ∧ s.called = true ∧
      s.status = .closed :=
    ⟨_, Run.cons trivial (.start rfl) <| Run.cons rfl (.push (by simp)) <|
      Run.cons (fun _ _ => rfl) (.pop rfl rfl) <| Run.cons ⟨by decide, rfl⟩ .exchange <|
      Run.cons trivial (.closeAll (n := 0) rfl) <| Run.cons (fun _ _ => rfl) (.pop rfl rfl) <|
      Run.cons trivial (.seeEmpty rfl rfl) <| Run.cons trivial (.timersDone rfl) <|
      Run.single trivial (.test rfl), rfl, rfl⟩
  obtain ⟨s, run, called, closed⟩ := run
  exact ⟨s, run, called, closed, notLost_of_guarded run⟩

/-- The thread of the loop gets to run after the stop. -/
def early : List (Event Unit) := [.exchange, .start]

/-- The list of the servers is checked before the stop, and the connection that it makes is
added after the operator of the stop. -/
def checks : List (Event Unit) :=
  [.start, .push .checkConnectServer, .exchange, .closeAll, .pop (fine [()]), .pop (fine []),
    .pop (fine []), .seeEmpty, .timersDone, .test]

/-- Both stops are lost: the loop runs, or waits with a connection that nobody closes. -/
theorem stops_are_lost :
    (∃ s : Stoppable Unit, Run Step anyStep init early s ∧ s.called = true ∧
      s.status = .running ∧ ¬s.NotLost) ∧
    ∃ s : Stoppable Unit, Run Step anyStep init checks s ∧ s.called = true ∧ s.Idle ∧
      s.cons = [((), false)] ∧ ¬s.NotLost := by
  constructor
  · have run : ∃ s : Stoppable Unit, Run Step anyStep init early s ∧ s.called = true ∧
        s.status = .running :=
      ⟨_, Run.cons trivial .exchange <| Run.single trivial (.start rfl), rfl, rfl⟩
    obtain ⟨s, run, called, running⟩ := run
    exact ⟨s, run, called, running, fun notLost => (notLost called).1 running⟩
  · have run : ∃ s : Stoppable Unit, Run Step anyStep init checks s ∧ s.called = true ∧
        s.Idle ∧ s.cons = [((), false)] :=
      ⟨_, Run.cons trivial (.start rfl) <| Run.cons trivial (.push (by simp)) <|
        Run.cons trivial .exchange <| Run.cons trivial (.closeAll (n := 0) rfl) <|
        Run.cons trivial (.pop rfl rfl) <| Run.cons trivial (.pop rfl rfl) <|
        Run.cons trivial (.pop rfl rfl) <| Run.cons trivial (.seeEmpty rfl rfl) <|
        Run.cons trivial (.timersDone rfl) <| Run.single trivial (.test rfl),
        rfl, ⟨rfl, rfl⟩, rfl⟩
    obtain ⟨s, run, called, idle, consEq⟩ := run
    refine ⟨s, run, called, idle, consEq, fun notLost => ?_⟩
    exact (notLost called).2 () (by simp [consEq]) idle

end Stoppable

end GPush.EventLoop
