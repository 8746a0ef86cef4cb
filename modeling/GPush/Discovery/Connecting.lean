import GPush.Transition.Run

/-!
# Waiting for the connection to ZooKeeper

`init` raises a flag and waits for a condition variable, and the watcher signals it when the
flag is up.  The flag is written and tested outside of the mutex, and nothing records that
the connection has been made, so the signal must find `init` already waiting.
-/

namespace GPush.Discovery

open GPush.Transition

/-- Where `ZKClient::init` is: before `zookeeper_init`, behind it, past `m_waiting = true`,
past the lock, in `pthread_cond_wait` without and with a wake-up, behind it, past the
unlock, or past `m_waiting = false`. -/
inductive Init
  | start
  | connecting
  | flagged
  | locked
  | waiting
  | woken
  | relocked
  | unlocked
  | done
  deriving DecidableEq, Repr

/-- Where the thread of the watcher is: before the event, at the test of `m_waiting`, past
it, past the lock, past the signal, or through. -/
inductive Watcher
  | idle
  | delivered
  | passed
  | locked
  | signalled
  | handled
  deriving DecidableEq, Repr

/-- Who holds `m_cs`. -/
inductive Holder
  | nobody
  | init
  | watcher
  deriving DecidableEq, Repr

/-- `m_waiting`, `m_cs` and the two threads. -/
structure Connecting where
  waiting : Bool
  holder : Holder
  init : Init
  watcher : Watcher
  deriving DecidableEq, Repr

namespace Connecting

/-- A client whose `init` has just been called. -/
def start : Connecting := ⟨false, .nobody, .start, .idle⟩

/-- The atomic steps of `init` and of the watcher. -/
inductive Event
  | zookeeperInit
  | setWaiting
  | lock
  | condWait
  | relock
  | unlock
  | clearWaiting
  | deliver
  | test
  | watcherLock
  | signal
  | watcherUnlock
  deriving DecidableEq, Repr

/-- The step relation.  A signal that finds nobody waiting is forgotten. -/
inductive Step : LTS Connecting Event
  | zookeeperInit {s : Connecting} : s.init = .start →
      Step s .zookeeperInit { s with init := .connecting }
  | setWaiting {s : Connecting} : s.init = .connecting →
      Step s .setWaiting { s with waiting := true, init := .flagged }
  | lock {s : Connecting} : s.init = .flagged → s.holder = .nobody →
      Step s .lock { s with holder := .init, init := .locked }
  | condWait {s : Connecting} : s.init = .locked →
      Step s .condWait { s with holder := .nobody, init := .waiting }
  | relock {s : Connecting} : s.init = .woken → s.holder = .nobody →
      Step s .relock { s with holder := .init, init := .relocked }
  | unlock {s : Connecting} : s.init = .relocked →
      Step s .unlock { s with holder := .nobody, init := .unlocked }
  | clearWaiting {s : Connecting} : s.init = .unlocked →
      Step s .clearWaiting { s with waiting := false, init := .done }
  | deliver {s : Connecting} : s.watcher = .idle → s.init ≠ .start →
      Step s .deliver { s with watcher := .delivered }
  | testUp {s : Connecting} : s.watcher = .delivered → s.waiting = true →
      Step s .test { s with watcher := .passed }
  | testDown {s : Connecting} : s.watcher = .delivered → s.waiting = false →
      Step s .test { s with watcher := .handled }
  | watcherLock {s : Connecting} : s.watcher = .passed → s.holder = .nobody →
      Step s .watcherLock { s with holder := .watcher, watcher := .locked }
  | signalWakes {s : Connecting} : s.watcher = .locked → s.init = .waiting →
      Step s .signal { s with init := .woken, watcher := .signalled }
  | signalLost {s : Connecting} : s.watcher = .locked → s.init ≠ .waiting →
      Step s .signal { s with watcher := .signalled }
  | watcherUnlock {s : Connecting} : s.watcher = .signalled →
      Step s .watcherUnlock { s with holder := .nobody, watcher := .handled }

/-- The connection is not missed: `init` does not wait, without a wake-up, for an event that
has been handled. -/
def NotMissed (s : Connecting) : Prop := ¬(s.init = .waiting ∧ s.watcher = .handled)

/-- The watcher tests the flag when `init` has raised it, and takes the mutex when `init`
has taken it before. -/
def Guard (s : Connecting) : Event → Prop
  | .test => s.init ≠ .connecting
  | .watcherLock => s.init ≠ .flagged
  | _ => True

/-! ## The flag and the mutex -/

/-- What holds whatever happens: the flag and the mutex follow the two threads. -/
structure Sound (s : Connecting) : Prop where
  flag : s.waiting = true ↔ s.init ≠ .start ∧ s.init ≠ .connecting ∧ s.init ≠ .done
  byInit : s.holder = .init ↔ s.init = .locked ∨ s.init = .relocked
  byWatcher : s.holder = .watcher ↔ s.watcher = .locked ∨ s.watcher = .signalled
  delivered : s.watcher ≠ .idle → s.init ≠ .start
  passed : s.watcher = .passed ∨ s.watcher = .locked → s.init ≠ .connecting

variable {s t : Connecting}

theorem sound_start : start.Sound := by
  constructor <;> simp [start]

theorem Sound.step {event : Event} (sound : s.Sound) (taken : Step s event t) : t.Sound := by
  rcases sound with ⟨flag, byInit, byWatcher, delivered, passed⟩
  cases taken <;> constructor <;> simp_all

/-! ## The signal -/

/-- `init` has still to be woken, or to come to wait. -/
def Unwoken (s : Connecting) : Prop :=
  s.init = .start ∨ s.init = .connecting ∨ s.init = .flagged ∨ s.init = .locked ∨
    s.init = .waiting

/-- The signal has been sent, or never will be. -/
def Through (s : Connecting) : Prop := s.watcher = .signalled ∨ s.watcher = .handled

/-- The invariant: the watcher takes the mutex when `init` has had it, so its signal finds
`init` waiting. -/
structure Heard (s : Connecting) : Prop where
  locked : s.watcher = .locked → s.init ≠ .flagged
  through : s.Through → ¬s.Unwoken

theorem Heard.notMissed (heard : s.Heard) : s.NotMissed := by
  rintro ⟨waiting, handled⟩
  exact heard.through (Or.inr handled) (by simp [Unwoken, waiting])

theorem heard_start : start.Heard := by
  constructor
  · simp [start]
  · simp [start, Through]

/-- The step lemma. -/
theorem Heard.step {event : Event} (heard : s.Heard) (sound : s.Sound) (guarded : s.Guard event)
    (taken : Step s event t) : t.Heard := by
  rcases heard with ⟨locked, through⟩
  simp only [Through, Unwoken] at through
  cases taken with
  | setWaiting connecting =>
      constructor
      · intro here
        exact absurd connecting (sound.passed (Or.inr here))
      · simp_all [Through, Unwoken]
  | testDown delivered down =>
      -- the flag is down before `init` has raised it, and when `init` is done
      have done : s.init = .done := by
        by_contra notDone
        have raised := sound.flag.mpr ⟨sound.delivered (by simp [delivered]), guarded, notDone⟩
        exact absurd (down.symm.trans raised) Bool.false_ne_true
      constructor
      · simp
      · simp [Through, Unwoken, done]
  | watcherLock passed free =>
      constructor
      · intro _
        exact guarded
      · simp [Through]
  | signalLost here notWaiting =>
      have held : s.holder = .watcher := sound.byWatcher.mpr (Or.inl here)
      have notLocked : s.init ≠ .locked := by
        intro initLocked
        exact absurd (held.symm.trans (sound.byInit.mpr (Or.inl initLocked))) (by simp)
      constructor
      · simp
      · simp [Through, Unwoken, sound.delivered, sound.passed, here, locked, notLocked, notWaiting]
  | _ => constructor <;> simp_all [Through, Unwoken]

/-- In every run in which the watcher tests the flag when `init` has raised it, and takes
the mutex when `init` has taken it before, the connection is not missed. -/
theorem notMissed_of_guarded {events : List Event} (run : Run Step Guard start events s) :
    s.NotMissed := by
  have both : s.Sound ∧ s.Heard := by
    refine @Run.invariant _ _ _ _ (fun s => s.Sound ∧ s.Heard) _ _ _
      ⟨sound_start, heard_start⟩ ?_ run
    rintro s event t ⟨sound, heard⟩ guarded taken
    exact ⟨sound.step taken, heard.step sound guarded taken⟩
  exact both.2.notMissed

/-! ## The signal that comes too early -/

/-- The signal has been sent to nobody, or will be. -/
def Lost (s : Connecting) : Prop :=
  s.Through ∧ s.Unwoken ∨ s.watcher = .locked ∧ s.init = .flagged ∧ s.holder = .watcher

theorem Lost.step {event : Event} (lost : s.Lost) (taken : Step s event t) : t.Lost := by
  rcases lost with ⟨through, unwoken⟩ | ⟨locked, flagged, held⟩
  · simp only [Through, Unwoken] at through unwoken
    cases taken <;> simp_all [Lost, Through, Unwoken]
  · cases taken <;> simp_all [Lost, Through, Unwoken]

/-- A step that does not meet the guard loses the signal. -/
theorem lost_of_not_guarded {event : Event} (sound : s.Sound) (notGuarded : ¬s.Guard event)
    (taken : Step s event t) : t.Lost := by
  cases taken with
  | testUp delivered up =>
      have connecting : s.init = .connecting := Classical.not_not.mp notGuarded
      exact absurd connecting (sound.flag.mp up).2.1
  | testDown delivered down =>
      have connecting : s.init = .connecting := Classical.not_not.mp notGuarded
      exact Or.inl ⟨Or.inr rfl, Or.inr (Or.inl connecting)⟩
  | watcherLock passed free =>
      have flagged : s.init = .flagged := Classical.not_not.mp notGuarded
      exact Or.inr ⟨rfl, flagged, rfl⟩
  | _ => exact absurd trivial notGuarded

/-- When the signal is lost, `init` never returns. -/
theorem never_done_of_lost {events : List Event} (run : Run Step anyStep s events t)
    (lost : s.Lost) : t.init ≠ .done := by
  have lostNow : t.Lost := by
    refine @Run.invariant _ _ _ _ Lost _ _ _ lost ?_ run
    intro _ _ _ lost _ taken
    exact lost.step taken
  rcases lostNow with ⟨-, unwoken⟩ | ⟨-, flagged, -⟩
  · rintro done
    simp [Unwoken, done] at unwoken
  · simp [flagged]

/-! ## Two orders of the steps -/

/-- `init` waits when the event comes. -/
def waits : List Event :=
  [.zookeeperInit, .setWaiting, .lock, .condWait, .deliver, .test, .watcherLock, .signal,
    .watcherUnlock, .relock, .unlock, .clearWaiting]

theorem notMissed_of_guarded_waits :
    ∃ s, Run Step Guard start waits s ∧ s.init = .done ∧ s.watcher = .handled ∧
      s.NotMissed := by
  have run : Run Step Guard start waits ⟨false, .nobody, .done, .handled⟩ :=
    Run.cons trivial (.zookeeperInit rfl) <| Run.cons trivial (.setWaiting rfl) <|
    Run.cons trivial (.lock rfl rfl) <| Run.cons trivial (.condWait rfl) <|
    Run.cons trivial (.deliver rfl (by decide)) <|
    Run.cons (by simp [Guard]) (.testUp rfl rfl) <|
    Run.cons (by simp [Guard]) (.watcherLock rfl rfl) <|
    Run.cons trivial (.signalWakes rfl rfl) <| Run.cons trivial (.watcherUnlock rfl) <|
    Run.cons trivial (.relock rfl rfl) <| Run.cons trivial (.unlock rfl) <|
    Run.single trivial (.clearWaiting rfl)
  exact ⟨_, run, rfl, rfl, notMissed_of_guarded run⟩

/-- The event comes before `init` has raised the flag. -/
def comesFirst : List Event :=
  [.zookeeperInit, .deliver, .test, .setWaiting, .lock, .condWait]

/-- The watcher sends its signal between the flag and the lock of `init`. -/
def comesBetween : List Event :=
  [.zookeeperInit, .setWaiting, .deliver, .test, .watcherLock, .signal, .watcherUnlock, .lock,
    .condWait]

/-- In both orders `init` waits for a connection that has been made. -/
theorem connection_is_missed :
    (∃ s, Run Step anyStep start comesFirst s ∧ ¬s.NotMissed) ∧
      ∃ s, Run Step anyStep start comesBetween s ∧ ¬s.NotMissed := by
  constructor
  · have run : Run Step anyStep start comesFirst ⟨true, .nobody, .waiting, .handled⟩ :=
      Run.cons trivial (.zookeeperInit rfl) <| Run.cons trivial (.deliver rfl (by decide)) <|
      Run.cons trivial (.testDown rfl rfl) <| Run.cons trivial (.setWaiting rfl) <|
      Run.cons trivial (.lock rfl rfl) <| Run.single trivial (.condWait rfl)
    exact ⟨_, run, fun notMissed => notMissed ⟨rfl, rfl⟩⟩
  · have run : Run Step anyStep start comesBetween ⟨true, .nobody, .waiting, .handled⟩ :=
      Run.cons trivial (.zookeeperInit rfl) <| Run.cons trivial (.setWaiting rfl) <|
      Run.cons trivial (.deliver rfl (by decide)) <| Run.cons trivial (.testUp rfl rfl) <|
      Run.cons trivial (.watcherLock rfl rfl) <|
      Run.cons trivial (.signalLost rfl (by decide)) <|
      Run.cons trivial (.watcherUnlock rfl) <| Run.cons trivial (.lock rfl rfl) <|
      Run.single trivial (.condWait rfl)
    exact ⟨_, run, fun notMissed => notMissed ⟨rfl, rfl⟩⟩

end Connecting

end GPush.Discovery
