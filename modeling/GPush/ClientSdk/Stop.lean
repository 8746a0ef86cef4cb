import GPush.Transition.Run

/-!
# Stopping the loop of the client SDK

`asynStop` clears `m_run` to tell the worker to leave, and `onStopAndWait` asks `m_run`
whether there is a worker to wait for.  The control sockets are closed and the mutex of the
operations is destroyed right after that.
-/

namespace GPush.ClientSdk

open GPush.Transition

/-- Where the worker is in `run`: at the test of `m_run`, before its `select`, in it, in
`processOps` without and with the mutex, at the sockets that can be read, or out. -/
inductive Worker
  | testing
  | timers
  | selecting
  | ops
  | holding
  | reading
  | left
  deriving DecidableEq, Repr

/-- Where the application is in `asynStop`: not in it, past the test of `m_run`, past the
assignment, past the control byte, at the `threadJoin` of `onStopAndWait`, before `stopCtl`,
before `mutexDestroy`, behind it, or back. -/
inductive Stopper
  | idle
  | entered
  | cleared
  | notified
  | joining
  | closing
  | closed
  | destroyed
  | returned
  deriving DecidableEq, Repr

/-- `m_run`, the control sockets and the mutex, which are there or not, and the two
threads. -/
structure Shutdown where
  run : Bool
  sockets : Bool
  mutex : Bool
  worker : Worker
  app : Stopper
  deriving DecidableEq, Repr

namespace Shutdown

/-- The loop after `startLoop`. -/
def init : Shutdown := ⟨true, true, true, .testing, .idle⟩

/-- The atomic steps of the worker and of the application. -/
inductive Event
  | testRun
  | timersDone
  | selectReturns (ctl : Bool)
  | selectTimesOut
  | selectFails
  | take
  | give
  | opsDone
  | readDone
  | enter
  | clear
  | notify
  | testJoin
  | join
  | closeCtl
  | destroyMutex
  | finish
  deriving DecidableEq, Repr

/-- The step relation.  `select` may end at any time, for the control socket, another one or
a timer. -/
inductive Step : LTS Shutdown Event
  | testRun {s : Shutdown} : s.worker = .testing →
      Step s .testRun { s with worker := if s.run then .timers else .left }
  | timersDone {s : Shutdown} : s.worker = .timers →
      Step s .timersDone { s with worker := .selecting }
  | selectReturns {s : Shutdown} {ctl : Bool} : s.worker = .selecting →
      Step s (.selectReturns ctl) { s with worker := if ctl then .ops else .reading }
  | selectTimesOut {s : Shutdown} : s.worker = .selecting →
      Step s .selectTimesOut { s with worker := .testing }
  | selectFails {s : Shutdown} : s.worker = .selecting →
      Step s .selectFails { s with worker := .left }
  | take {s : Shutdown} : s.worker = .ops → Step s .take { s with worker := .holding }
  | give {s : Shutdown} : s.worker = .holding → Step s .give { s with worker := .ops }
  | opsDone {s : Shutdown} : s.worker = .ops → Step s .opsDone { s with worker := .reading }
  | readDone {s : Shutdown} : s.worker = .reading →
      Step s .readDone { s with worker := .testing }
  | enter {s : Shutdown} : s.app = .idle →
      Step s .enter { s with app := if s.run then .entered else .returned }
  | clear {s : Shutdown} : s.app = .entered →
      Step s .clear { s with run := false, app := .cleared }
  | notify {s : Shutdown} : s.app = .cleared → Step s .notify { s with app := .notified }
  | testJoin {s : Shutdown} : s.app = .notified →
      Step s .testJoin { s with app := if s.run then .joining else .closing }
  | join {s : Shutdown} : s.app = .joining → s.worker = .left →
      Step s .join { s with app := .closing }
  | closeCtl {s : Shutdown} : s.app = .closing →
      Step s .closeCtl { s with sockets := false, app := .closed }
  | destroyMutex {s : Shutdown} : s.app = .closed →
      Step s .destroyMutex { s with mutex := false, app := .destroyed }
  | finish {s : Shutdown} : s.app = .destroyed → Step s .finish { s with app := .returned }

/-- The stop has waited for the worker: the sockets are closed, the mutex is destroyed and
`asynStop` has returned only where the worker has left `run`. -/
structure Waited (s : Shutdown) : Prop where
  sockets : s.sockets = false → s.worker = .left
  mutex : s.mutex = false → s.worker = .left
  returned : s.app = .returned → s.worker = .left

variable {s t : Shutdown}

/-! ## The flag -/

/-- What holds whatever happens: only the application writes the flag, and it gets beyond
its first two steps only with the flag down. -/
structure Sound (s : Shutdown) : Prop where
  early : s.app = .idle ∨ s.app = .entered → s.run = true
  late : s.app ≠ .idle → s.app ≠ .entered → s.run = false
  skips : s.app ≠ .joining

theorem sound_init : init.Sound := by
  constructor <;> simp [init]

/-- The worker does not touch what `asynStop` works with. -/
theorem Sound.worker (sound : s.Sound) (worker : Worker) : Sound { s with worker := worker } :=
  ⟨sound.early, sound.late, sound.skips⟩

theorem Sound.step {event : Event} (sound : s.Sound) (taken : Step s event t) : t.Sound := by
  rcases sound with ⟨early, late, skips⟩
  cases taken with
  | enter idle => constructor <;> simp_all
  | clear entered => constructor <;> simp_all
  | notify cleared => constructor <;> simp_all
  | testJoin notified => constructor <;> simp_all
  | join joining => exact absurd joining skips
  | closeCtl closing => constructor <;> simp_all
  | destroyMutex closedNow => constructor <;> simp_all
  | finish destroyedNow => constructor <;> simp_all
  | _ => exact Sound.worker ⟨early, late, skips⟩ _

theorem sound_of_reachable (reached : Reachable Step init s) : s.Sound :=
  reached.invariant sound_init fun _ _ _ sound taken => sound.step taken

/-- `threadJoin` is never called. -/
theorem never_joins (reached : Reachable Step init s) : s.app ≠ .joining :=
  (sound_of_reachable reached).skips

/-! ## The call of `asynStop` -/

/-- The steps of an `asynStop` during which the worker does nothing. -/
def stopsAtOnce : List Event := [.enter, .clear, .notify, .testJoin, .closeCtl]

theorem run_stopsAtOnce (idle : s.app = .idle) (running : s.run = true) :
    Run Step anyStep s stopsAtOnce { s with run := false, sockets := false, app := .closed } := by
  rcases s with ⟨run, sockets, mutex, worker, app⟩
  obtain rfl : app = .idle := idle
  obtain rfl : run = true := running
  exact Run.cons trivial (.enter rfl) <| Run.cons trivial (.clear rfl) <|
    Run.cons trivial (.notify rfl) <| Run.cons trivial (.testJoin rfl) <|
    Run.single trivial (.closeCtl rfl)

/-- A worker that has left stays out. -/
theorem left_of_run {events : List Event} (run : Run Step anyStep s events t)
    (left : s.worker = .left) : t.worker = .left := by
  refine @Run.invariant _ _ _ _ (fun s => s.worker = .left) _ _ _ left ?_ run
  intro s event t left _ taken
  cases taken <;> simp_all

/-- All that may follow a call of `asynStop` waits for the worker exactly when the worker
has left before the call. -/
theorem waits_iff_left (reached : Reachable Step init s) (idle : s.app = .idle) :
    (∀ events t, Run Step anyStep s events t → t.Waited) ↔ s.worker = .left := by
  constructor
  · intro waits
    have running := (sound_of_reachable reached).early (Or.inl idle)
    exact (waits _ _ (run_stopsAtOnce idle running)).sockets rfl
  · intro left events t run
    have leftNow := left_of_run run left
    exact ⟨fun _ => leftNow, fun _ => leftNow, fun _ => leftNow⟩

/-- A `select` that fails ends `run`: an `asynStop` after that waits for the worker, in every
order of the steps that are left. -/
theorem waits_after_failure :
    ∃ s, Reachable Step init s ∧ s.app = .idle ∧
      ∀ events t, Run Step anyStep s events t → t.Waited := by
  have fails : Run Step anyStep init [.testRun, .timersDone, .selectFails]
      ⟨true, true, true, .left, .idle⟩ :=
    Run.cons trivial (.testRun rfl) <| Run.cons trivial (.timersDone rfl) <|
      Run.single trivial (.selectFails rfl)
  exact ⟨_, ⟨_, fails⟩, rfl, (waits_iff_left ⟨_, fails⟩ rfl).mpr rfl⟩

/-- The worker waits in `select`, or is about to read an operation, when the sockets are
closed and the mutex is destroyed. -/
theorem stop_does_not_wait :
    (∃ s, Run Step anyStep init ([.testRun, .timersDone] ++ stopsAtOnce) s ∧
      s.sockets = false ∧ s.worker = .selecting ∧ ¬s.Waited) ∧
    ∃ s, Run Step anyStep init ([.testRun, .timersDone, .selectReturns true, .take] ++
        stopsAtOnce ++ [.destroyMutex, .finish]) s ∧
      s.app = .returned ∧ s.mutex = false ∧ s.worker = .holding ∧ ¬s.Waited := by
  have selects : Run Step anyStep init [.testRun, .timersDone]
      ⟨true, true, true, .selecting, .idle⟩ :=
    Run.cons trivial (.testRun rfl) <| Run.single trivial (.timersDone rfl)
  have takes : Run Step anyStep init [.testRun, .timersDone, .selectReturns true, .take]
      ⟨true, true, true, .holding, .idle⟩ :=
    (selects.snoc trivial (@Step.selectReturns _ true rfl)).snoc trivial (.take rfl)
  constructor
  · refine ⟨_, selects.trans (run_stopsAtOnce rfl rfl), rfl, rfl, fun waited => ?_⟩
    exact absurd (waited.sockets rfl) (by simp)
  · have ends := ((takes.trans (run_stopsAtOnce rfl rfl)).snoc trivial (.destroyMutex rfl)).snoc
      trivial (.finish rfl)
    rw [List.append_assoc _ [_] [_]] at ends
    refine ⟨_, ends, rfl, rfl, rfl, fun waited => ?_⟩
    exact absurd (waited.mutex rfl) (by simp)

end Shutdown

end GPush.ClientSdk
