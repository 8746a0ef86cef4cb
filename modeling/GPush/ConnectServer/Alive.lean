import GPush.ConnectServer.TypeMap
import GPush.EventLoop.Firing

/-!
# Clients that keep in touch

`CHECK_TIMER` fires every `AliveMs` milliseconds and closes a connection whose session has
not been refreshed for more than `AliveMs/1000` seconds.  Both instants are truncated to
seconds, so the seconds between them may be one more than the seconds in the gap, and the
division leaves room for that only when it has no remainder.
-/

namespace GPush.ConnectServer

open GPush.Transition
open GPush.EventLoop (TimeTv)
open GPush.EventLoop.TimerSet (micros setTimeOutAfter)

instance (p : Packet) : Decidable p.Refreshes := inferInstanceAs (Decidable (_ ∨ _))

/-- What has become of a connection: it is open, it has been recycled after a packet that
failed, or its timer has closed it. -/
inductive Fate
  | alive
  | recycled
  | timedOut
  deriving DecidableEq, Repr

/-- A connection with its `CHECK_TIMER`, on a clock.  `last` is the time of the login, or of
the last packet since that has refreshed the session. -/
structure Watched where
  now : TimeTv
  con : CliCon
  deadline : TimeTv
  last : Option TimeTv
  fate : Fate

namespace Watched

/-- The connection after `CliCon::onCreate` at the time `start`. -/
def init (conf : CliConfig) (start : TimeTv) (aliveMs : Int) : Watched :=
  ⟨start, .init conf, setTimeOutAfter start aliveMs, none, .alive⟩

/-- Time passes, a packet is handled, or the timer fires. -/
inductive Event
  | wait (now : TimeTv)
  | packet (env : Env) (p : Packet)
  | fire

section Steps

variable (codec : Codec) (serv : ServerConfig) (id aliveMs : Int)

/-- The time that counts for the next gap, after a packet that leaves `c`. -/
def lastAfter (s : Watched) (c : CliCon) (p : Packet) : Option TimeTv :=
  if s.con.status ≠ .login ∧ c.status = .login then some s.now
  else if p.Refreshes then s.last.map fun _ => s.now
  else s.last

/-- `CliCon::handlePacket`; the loop recycles a connection that answers a negative value. -/
def receive (s : Watched) (env : Env) (p : Packet) : Watched :=
  let handled := s.con.handlePacket codec serv id env p
  { s with
    con := handled.con
    last := s.lastAfter handled.con p
    fate := if handled.ret < 0 then .recycled else .alive }

/-- `CliCon::handleTimer`. -/
def expire (s : Watched) : Watched :=
  if s.con.handleTimer aliveMs s.now.sec then
    { s with fate := .timedOut }
  else
    { s with deadline := setTimeOutAfter s.now aliveMs }

/-- The step relation.  `time()` is the second of the clock, and a timer fires at most a
millisecond before its deadline, or at any later time. -/
inductive Step : LTS Watched Event
  | wait {s : Watched} {now : TimeTv} : EventLoop.TimerSet.Normal now → micros s.now ≤ micros now →
      Step s (.wait now) { s with now := now }
  | packet {s : Watched} {env : Env} {p : Packet} : s.fate = .alive → env.now = s.now.sec →
      Step s (.packet env p) (s.receive codec serv id env p)
  | fire {s : Watched} : s.fate = .alive → micros s.deadline ≤ micros s.now + 1000 →
      Step s .fire (s.expire aliveMs)

/-- The timers that `processTimers` finds due fire in a step. -/
theorem Step.fire_of_due {s : Watched} (isOpen : s.fate = .alive)
    (due : ¬0 < EventLoop.tvDiffMs s.deadline s.now) :
    Step codec serv id aliveMs s .fire (s.expire aliveMs) :=
  .fire isOpen (Int.le_of_lt (EventLoop.TimerSet.micros_lt_of_due due))

/-- No more than `AliveMs` milliseconds have passed since `r`. -/
def Within (s : Watched) (r : TimeTv) : Prop := micros s.now ≤ micros r + aliveMs * 1000

/-- The client keeps in touch: from its login on a refreshing packet comes in time, and when
the timer fires it has logged in and there is still time for the next packet. -/
def Guard (s : Watched) : Event → Prop
  | .wait _ => True
  | .packet _ p => p.Refreshes → ∀ r, s.last = some r → s.Within aliveMs r
  | .fire => ∃ r, s.last = some r ∧ s.Within aliveMs r

end Steps

/-- No client that keeps in touch is timed out. -/
def KeepsAlive (aliveMs : Int) : Prop :=
  ∀ codec serv id conf start events s, EventLoop.TimerSet.Normal start →
    Run (Step codec serv id aliveMs) (Guard aliveMs) (init conf start aliveMs) events s →
      s.fate ≠ .timedOut

/-! ## Whole seconds -/

/-- The session has the second of its last refresh, or a later one. -/
structure Fresh (s : Watched) : Prop where
  now : EventLoop.TimerSet.Normal s.now
  last : ∀ r, s.last = some r → EventLoop.TimerSet.Normal r ∧ r.sec ≤ s.con.sess.lasttime
  fate : s.fate ≠ .timedOut

theorem fresh_init {conf : CliConfig} {start : TimeTv} {aliveMs : Int}
    (normal : EventLoop.TimerSet.Normal start) : Fresh (init conf start aliveMs) := by
  constructor
  · exact normal
  · intro r never
    simp [init] at never
  · simp [init]

section Keeps

variable {codec : Codec} {serv : ServerConfig} {id aliveMs : Int} {s : Watched} {r : TimeTv}

/-- A packet that is handled at the second of the clock. -/
theorem Fresh.last_visited {env : Env} {p : Packet} {c : CliCon} {sessions : List Sess}
    {ops : List (Int × SendMsgOp)} (fresh : Fresh s) (second : env.now = s.now.sec)
    (visited : CliCon.Visited codec serv id s.con env p c sessions ops)
    (found : s.lastAfter c p = some r) : EventLoop.TimerSet.Normal r ∧ r.sec ≤ c.sess.lasttime := by
  have nowFresh : EventLoop.TimerSet.Normal s.now ∧ s.now.sec ≤ env.now :=
    ⟨fresh.now, Int.le_of_eq second.symm⟩
  cases visited with
  | unchanged notRefreshing =>
      rw [lastAfter, if_neg (fun loggedIn => loggedIn.1 loggedIn.2), if_neg notRefreshing] at found
      exact fresh.last r found
  | @refused lgreq isLogin atStart =>
      have stays : ¬(s.con.recordLogin serv env.now lgreq).status = .login := by
        intro loggedIn
        exact absurd (atStart.symm.trans loggedIn) (by decide)
      rw [lastAfter, if_neg (fun loggedIn => stays loggedIn.2),
        if_neg (CliCon.not_refreshes_of_login isLogin)] at found
      exact fresh.last r found
  | accepted _ atStart =>
      rw [lastAfter, if_pos ⟨by simp [atStart], rfl⟩] at found
      obtain rfl := Option.some.inj found
      exact nowFresh
  | refreshed refreshes =>
      rw [lastAfter, if_neg (fun loggedIn => loggedIn.1 loggedIn.2), if_pos refreshes] at found
      obtain ⟨_, -, rfl⟩ := Option.map_eq_some_iff.mp found
      exact nowFresh

/-- With a limit of whole seconds, the seconds truncated do not exceed it. -/
theorem Fresh.not_expired (fresh : Fresh s) (whole : 1000 ∣ aliveMs) (found : s.last = some r)
    (within : s.Within aliveMs r) : s.con.handleTimer aliveMs s.now.sec = false := by
  obtain ⟨seconds, rfl⟩ := whole
  obtain ⟨lastNormal, refreshed⟩ := fresh.last r found
  have limit : (1000 * seconds).tdiv 1000 = seconds := Int.mul_tdiv_cancel_left _ (by decide)
  have nowNormal := fresh.now
  rw [CliCon.handleTimer, limit, decide_eq_false_iff_not]
  simp only [Within, micros, EventLoop.TimerSet.Normal] at within lastNormal nowNormal
  omega

/-- The step lemma. -/
theorem Fresh.step {s' : Watched} {event : Event} (fresh : Fresh s) (whole : 1000 ∣ aliveMs)
    (allowed : s.Guard aliveMs event) (taken : Step codec serv id aliveMs s event s') :
    Fresh s' := by
  cases taken with
  | wait normal => exact ⟨normal, fresh.last, fresh.fate⟩
  | packet _ second =>
      constructor
      · exact fresh.now
      · intro r found
        exact fresh.last_visited second (CliCon.handlePacket_visited ..) found
      · rw [receive]
        simp only
        split_ifs <;> decide
  | fire =>
      obtain ⟨r, found, within⟩ := allowed
      rw [expire, fresh.not_expired whole found within]
      exact ⟨fresh.now, fresh.last, fresh.fate⟩

end Keeps

/-! ## A remainder -/

/-- A login with the type `0`. -/
def sampleLogin : Packet := packetOf loginReq (loginBytes [117] 0) (by decide +kernel)

/-- A keepalive. -/
def sampleKeepalive : Packet := packetOf keepaliveReq [] small_nil

/-- The connection after the login, at the second `1700000000`, and also after a keepalive
in that second. -/
def sampleCon : CliCon :=
  ⟨samplePort, .login, 1700000000, ⟨[117], 0, 1700000000, decorationName 1 5 [117], 1, [], []⟩⟩

theorem receive_sampleLogin {s : Watched} (conEq : s.con = .init samplePort) :
    s.receive gimCodec.toCodec ⟨1, 1⟩ 5 (sampleEnv 25) sampleLogin =
      { s with con := sampleCon, last := some s.now, fate := .alive } := by
  have handled : ((CliCon.init samplePort).handlePacket gimCodec.toCodec ⟨1, 1⟩ 5
      (sampleEnv 25) sampleLogin).con = sampleCon ∧
      ((CliCon.init samplePort).handlePacket gimCodec.toCodec ⟨1, 1⟩ 5
        (sampleEnv 25) sampleLogin).ret = 25 := by
    constructor <;> decide +kernel
  have atStart : (CliCon.init samplePort).status = .init := rfl
  have loggedIn : sampleCon.status = .login := rfl
  simp [receive, lastAfter, conEq, handled, atStart, loggedIn]

theorem receive_sampleKeepalive {s : Watched} {r : TimeTv} (conEq : s.con = sampleCon)
    (lastEq : s.last = some r) :
    s.receive gimCodec.toCodec ⟨1, 1⟩ 5 (sampleEnv 12) sampleKeepalive =
      { s with con := sampleCon, last := some s.now, fate := .alive } := by
  have handled : (sampleCon.handlePacket gimCodec.toCodec ⟨1, 1⟩ 5 (sampleEnv 12)
      sampleKeepalive).con = sampleCon ∧
      (sampleCon.handlePacket gimCodec.toCodec ⟨1, 1⟩ 5 (sampleEnv 12)
        sampleKeepalive).ret = 12 := by
    constructor <;> decide +kernel
  have refreshes : sampleKeepalive.Refreshes := by decide +kernel
  have loggedIn : sampleCon.status = .login := rfl
  simp [receive, lastAfter, conEq, lastEq, handled, refreshes, loggedIn]

/-- A connection is made so that its timer is due on a full second. -/
def lateStart (aliveMs : Int) : TimeTv := ⟨1700000000, 1000000 - aliveMs % 1000 * 1000⟩

/-- It logs in at the end of the second it is made in. -/
def lateLogin : TimeTv := ⟨1700000000, 999998⟩

/-- Its keepalive comes in the last microsecond. -/
def lateKeepalive : TimeTv := ⟨1700000000, 999999⟩

/-- The timer fires at its deadline. -/
def lateTimer (aliveMs : Int) : TimeTv := ⟨1700000001 + aliveMs / 1000, 0⟩

/-- The login, the keepalive and the timer. -/
def lateEvents (aliveMs : Int) : List Event :=
  [.wait lateLogin, .packet (sampleEnv 25) sampleLogin, .wait lateKeepalive,
    .packet (sampleEnv 12) sampleKeepalive, .wait (lateTimer aliveMs), .fire]

section Late

variable {aliveMs : Int} {deadline : TimeTv} {r : TimeTv}

theorem step_sampleLogin :
    Step gimCodec.toCodec ⟨1, 1⟩ 5 aliveMs
      ⟨lateLogin, .init samplePort, deadline, none, .alive⟩ (.packet (sampleEnv 25) sampleLogin)
      ⟨lateLogin, sampleCon, deadline, some lateLogin, .alive⟩ := by
  have taken : Step gimCodec.toCodec ⟨1, 1⟩ 5 aliveMs
      ⟨lateLogin, .init samplePort, deadline, none, .alive⟩
      (.packet (sampleEnv 25) sampleLogin) _ := .packet rfl rfl
  rwa [receive_sampleLogin rfl] at taken

theorem step_sampleKeepalive :
    Step gimCodec.toCodec ⟨1, 1⟩ 5 aliveMs
      ⟨lateKeepalive, sampleCon, deadline, some r, .alive⟩
      (.packet (sampleEnv 12) sampleKeepalive)
      ⟨lateKeepalive, sampleCon, deadline, some lateKeepalive, .alive⟩ := by
  have taken : Step gimCodec.toCodec ⟨1, 1⟩ 5 aliveMs
      ⟨lateKeepalive, sampleCon, deadline, some r, .alive⟩
      (.packet (sampleEnv 12) sampleKeepalive) _ := .packet rfl rfl
  rwa [receive_sampleKeepalive rfl rfl] at taken

/-- `AliveMs/1000` seconds later, on the next full second, the session is too old. -/
theorem expire_sampleCon (positive : 0 < aliveMs) :
    expire aliveMs ⟨lateTimer aliveMs, sampleCon, deadline, some r, .alive⟩ =
      ⟨lateTimer aliveMs, sampleCon, deadline, some r, .timedOut⟩ := by
  have limit : aliveMs.tdiv 1000 = aliveMs / 1000 :=
    Int.tdiv_eq_ediv_of_nonneg (Int.le_of_lt positive)
  rw [expire, if_pos]
  rw [CliCon.handleTimer, limit, decide_eq_true_iff]
  simp only [sampleCon, lateTimer]
  omega

/-- Where the limit leaves a remainder, the timer closes the connection a microsecond and
`AliveMs/1000` seconds after its keepalive. -/
theorem run_late (positive : 0 < aliveMs) (part : ¬1000 ∣ aliveMs) :
    ∃ s, Run (Step gimCodec.toCodec ⟨1, 1⟩ 5 aliveMs) (Guard aliveMs)
        (init samplePort (lateStart aliveMs) aliveMs) (lateEvents aliveMs) s ∧
      EventLoop.TimerSet.Normal (lateStart aliveMs) ∧ s.fate = .timedOut := by
  have nonzero : aliveMs % 1000 ≠ 0 := fun whole => part (Int.dvd_of_emod_eq_zero whole)
  have normal : EventLoop.TimerSet.Normal (lateStart aliveMs) := by
    simp only [EventLoop.TimerSet.Normal, lateStart]
    omega
  have started : micros (lateStart aliveMs) ≤ micros lateLogin := by
    simp only [micros, lateStart, lateLogin]
    omega
  have between : micros lateLogin ≤ micros lateKeepalive := by decide
  have later : micros lateKeepalive ≤ micros (lateTimer aliveMs) := by
    simp only [micros, lateKeepalive, lateTimer]
    omega
  have inTime : micros lateKeepalive ≤ micros lateLogin + aliveMs * 1000 ∧
      micros (lateTimer aliveMs) ≤ micros lateKeepalive + aliveMs * 1000 := by
    simp only [micros, lateLogin, lateKeepalive, lateTimer]
    omega
  have due : micros (setTimeOutAfter (lateStart aliveMs) aliveMs) ≤
      micros (lateTimer aliveMs) + 1000 := by
    rw [EventLoop.TimerSet.micros_setTimeOutAfter]
    simp only [micros, lateStart, lateTimer]
    omega
  refine ⟨⟨lateTimer aliveMs, sampleCon, setTimeOutAfter (lateStart aliveMs) aliveMs,
    some lateKeepalive, .timedOut⟩, ?_, normal, rfl⟩
  refine Run.cons trivial (.wait (by simp [EventLoop.TimerSet.Normal, lateLogin]) started) ?_
  refine Run.cons (fun refreshes => absurd refreshes (by decide +kernel)) step_sampleLogin ?_
  refine Run.cons trivial (.wait (by simp [EventLoop.TimerSet.Normal, lateKeepalive]) between) ?_
  refine Run.cons (fun _ r found => ?_) step_sampleKeepalive ?_
  · obtain rfl := Option.some.inj found
    exact inTime.1
  refine Run.cons trivial (.wait (by simp [EventLoop.TimerSet.Normal, lateTimer]) later) ?_
  have fires : Step gimCodec.toCodec ⟨1, 1⟩ 5 aliveMs
      ⟨lateTimer aliveMs, sampleCon, setTimeOutAfter (lateStart aliveMs) aliveMs,
        some lateKeepalive, .alive⟩ .fire _ := .fire rfl due
  rw [expire_sampleCon positive] at fires
  exact Run.single ⟨lateKeepalive, rfl, inTime.2⟩ fires

end Late

/-- Clients that keep in touch are never timed out exactly when `AliveMs` is a number of
whole seconds. -/
theorem keepsAlive_iff_whole {aliveMs : Int} (positive : 0 < aliveMs) :
    KeepsAlive aliveMs ↔ 1000 ∣ aliveMs := by
  constructor
  · intro keeps
    by_contra part
    obtain ⟨s, run, normal, timedOut⟩ := run_late positive part
    exact keeps _ _ _ _ _ _ _ normal run timedOut
  · intro whole codec serv id conf start events s normal run
    have fresh : Fresh s := run.invariant (fresh_init normal)
      fun _ _ _ fresh allowed taken => fresh.step whole allowed taken
    exact fresh.fate

/-- Two seconds are whole. -/
theorem keepsAlive_iff_whole_two : KeepsAlive 2000 ↔ (1000 : Int) ∣ 2000 :=
  keepsAlive_iff_whole (by decide)

/-- With a limit of 1500 milliseconds the client of `lateEvents`, whose keepalive is a second
and a microsecond old, is timed out. -/
theorem live_client_timed_out :
    (∃ s, Run (Step gimCodec.toCodec ⟨1, 1⟩ 5 1500) (Guard 1500)
      (init samplePort (lateStart 1500) 1500) (lateEvents 1500) s ∧ s.fate = .timedOut) ∧
      ¬KeepsAlive 1500 := by
  obtain ⟨s, run, normal, timedOut⟩ := @run_late 1500 (by decide) (by decide)
  exact ⟨⟨s, run, timedOut⟩, fun keeps => keeps _ _ _ _ _ _ _ normal run timedOut⟩

end Watched

end GPush.ConnectServer
