import Mathlib.Algebra.Group.Nat.Defs
import Mathlib.Tactic.SplitIfs

/-!
# The timers of an event loop

`EventLoop::run` fires the timers that are due and then blocks in `epoll_wait` until
the next one.  `processTimers` answers how long that is, and `0` stands for no timer;
it also answers `0` when it has fired as many timers as one round may fire.
-/

namespace GPush.EventLoop

/-! ## The set of timers -/

/-- `time_tv`. -/
structure TimeTv where
  sec : Int
  usec : Int
  deriving DecidableEq, Repr

/-- `time_tv::operator <`. -/
def TimeTv.Less (a b : TimeTv) : Prop := a.sec < b.sec ∨ a.sec = b.sec ∧ a.usec < b.usec

instance (a b : TimeTv) : Decidable (a.Less b) :=
  inferInstanceAs (Decidable (_ ∨ _))

/-- `tv_diff_ms`. -/
def tvDiffMs (t1 t2 : TimeTv) : Int := (t1.sec - t2.sec) * 1000 + (t1.usec - t2.usec).tdiv 1000

/-- A timer, with the address of its object. -/
structure Timer where
  timeoutTime : TimeTv
  addr : Nat
  deriving DecidableEq, Repr

/-- `Timer::operator <`, by which `m_timer_map` is ordered. -/
def Timer.Less (a b : Timer) : Prop :=
  a.timeoutTime.Less b.timeoutTime ∨ a.timeoutTime = b.timeoutTime ∧ a.addr < b.addr

instance (a b : Timer) : Decidable (a.Less b) :=
  inferInstanceAs (Decidable (_ ∨ _))

theorem TimeTv.Less.trans {a b c : TimeTv} (first : a.Less b) (second : b.Less c) : a.Less c := by
  unfold TimeTv.Less at *
  omega

theorem Timer.Less.trans {a b c : Timer} (first : a.Less b) (second : b.Less c) : a.Less c := by
  rcases first with earlier | ⟨same, lower⟩
  · rcases second with earlier' | ⟨same', -⟩
    · exact Or.inl (earlier.trans earlier')
    · exact Or.inl (same' ▸ earlier)
  · rcases second with earlier' | ⟨same', lower'⟩
    · exact Or.inl (same ▸ earlier')
    · exact Or.inr ⟨same.trans same', Nat.lt_trans lower lower'⟩

/-- `m_timer_map`, in its order. -/
structure TimerMap where
  timers : List Timer
  sorted : timers.Pairwise Timer.Less

namespace TimerMap

/-- A loop without timers. -/
def empty : TimerMap := ⟨[], List.Pairwise.nil⟩

/-- `std::set::insert` on the elements in order. -/
def insert (tm : Timer) : List Timer → List Timer
  | [] => [tm]
  | t :: ts => if tm.Less t then tm :: t :: ts else if t.Less tm then t :: insert tm ts else t :: ts

theorem mem_insert {tm t : Timer} {ts : List Timer} (member : t ∈ insert tm ts) :
    t = tm ∨ t ∈ ts := by
  induction ts with
  | nil => exact Or.inl (List.mem_singleton.mp member)
  | cons first ts ih =>
      rw [insert] at member
      split_ifs at member with before after
      · exact List.mem_cons.mp member
      · rcases List.mem_cons.mp member with rfl | later
        · exact Or.inr List.mem_cons_self
        · exact (ih later).imp_right (List.mem_cons_of_mem _)
      · exact Or.inr member

theorem sorted_insert (tm : Timer) {ts : List Timer} (sorted : ts.Pairwise Timer.Less) :
    (insert tm ts).Pairwise Timer.Less := by
  induction ts with
  | nil => exact List.pairwise_singleton _ _
  | cons first ts ih =>
      have rest := List.pairwise_cons.mp sorted
      rw [insert]
      split_ifs with before after
      · apply List.pairwise_cons.mpr
        constructor
        · intro t member
          rcases List.mem_cons.mp member with rfl | later
          · exact before
          · exact before.trans (rest.1 t later)
        · exact sorted
      · apply List.pairwise_cons.mpr
        constructor
        · intro t member
          rcases mem_insert member with rfl | later
          · exact after
          · exact rest.1 t later
        · exact ih rest.2
      · exact sorted

/-- `EventLoop::addTimer`. -/
def addTimer (ts : TimerMap) (tm : Timer) : TimerMap :=
  ⟨insert tm ts.timers, sorted_insert tm ts.sorted⟩

/-- `EventLoop::delTimer`. -/
def delTimer (ts : TimerMap) (tm : Timer) : TimerMap :=
  ⟨ts.timers.filter (· ≠ tm), ts.sorted.filter _⟩

/-- `m_timer_map.begin()`. -/
def first (ts : TimerMap) : Option Timer := ts.timers.head?

theorem first_eq_none {ts : TimerMap} : ts.first = none ↔ ts.timers = [] := List.head?_eq_none_iff

end TimerMap

/-! ## Firing timers -/

/-- One round of the loop in `processTimers`: the clock, and what `Timer::timeout` of
the timer that fires does to the timers. -/
structure Round where
  now : TimeTv
  timeout : Timer → TimerMap → TimerMap

/-- The milliseconds until `tm` is due. -/
def Round.dif (round : Round) (tm : Timer) : Int := tvDiffMs tm.timeoutTime round.now

/-- The timers after `tm`, the first of `ts`, has fired.  It is erased before its
callback runs. -/
def Round.fire (round : Round) (tm : Timer) (ts : TimerMap) : TimerMap :=
  round.timeout tm (ts.delTimer tm)

/-- `max_timer_one_loop`, for the setting `NetSettings::procTimerCnt`; `2048` is
`MAX_PROC_TIMER_CNT`. -/
def maxTimerOneLoop (procTimerCnt : Int) : Nat :=
  (if 2048 < procTimerCnt then 2048 else procTimerCnt).toNat

/-- The loop of `EventLoop::processTimers` from round `i` on, with `left` rounds to
go. -/
def processLoop (rounds : Nat → Round) : Nat → Nat → TimerMap → Int × TimerMap
  | 0, _, ts => (0, ts)
  | left + 1, i, ts =>
      match ts.first with
      | none => (0, ts)
      | some tm =>
          if 0 < (rounds i).dif tm then
            ((rounds i).dif tm, ts)
          else
            processLoop rounds left (i + 1) ((rounds i).fire tm ts)

/-- `EventLoop::processTimers`: its result and the timers it leaves. -/
def processTimers (procTimerCnt : Int) (rounds : Nat → Round) (ts : TimerMap) : Int × TimerMap :=
  processLoop rounds (maxTimerOneLoop procTimerCnt) 0 ts

/-! ## Running the loop -/

/-- One iteration of `EventLoop::run`: what its operators do to the timers, the rounds
of `processTimers`, whether the loop goes on (it is running or has connections), and
what the handlers of the events do to the timers. -/
structure Iteration where
  ops : TimerMap → TimerMap
  rounds : Nat → Round
  goesOn : Bool
  handlers : TimerMap → TimerMap

/-- A call of `processTimers` that is followed by `epoll_wait`. -/
structure Wait where
  procTimerCnt : Int
  rounds : Nat → Round
  before : TimerMap

namespace Wait

/-- The result of `processTimers`. -/
def ret (w : Wait) : Int := (processTimers w.procTimerCnt w.rounds w.before).1

/-- The timers while the loop is blocked. -/
def left (w : Wait) : TimerMap := (processTimers w.procTimerCnt w.rounds w.before).2

/-- The timeout that `epoll_wait` is called with, an `int`; a negative one is infinite. -/
def timeout (w : Wait) : Int := if 0 < w.ret then w.ret.bmod (2 ^ 32) else -1

end Wait

/-- `EventLoop::run` over some iterations: its waits. -/
def run (procTimerCnt : Int) : TimerMap → List Iteration → List Wait
  | _, [] => []
  | ts, it :: its =>
      let w : Wait := ⟨procTimerCnt, it.rounds, it.ops ts⟩
      if it.goesOn then w :: run procTimerCnt (it.handlers w.left) its else []

/-- The loop wakes for its timers: it blocks without a limit only when there is none,
and the result is positive whenever a timer is left. -/
def Wait.Wakes (w : Wait) : Prop :=
  (w.timeout < 0 → w.left.timers = []) ∧ (w.left.timers ≠ [] → 0 < w.ret)

/-! ## When it wakes -/

/-- The timers that a round finds, `n` rounds after round `i` has found `ts`: every
round before has fired a timer. -/
def found (rounds : Nat → Round) : Nat → TimerMap → Nat → Option TimerMap
  | _, ts, 0 => some ts
  | i, ts, n + 1 =>
      ts.first.bind fun tm =>
        if 0 < (rounds i).dif tm then none else found rounds (i + 1) ((rounds i).fire tm ts) n

/-- When `limit` timers in a row fire, none is left. -/
def KeepsPace (rounds : Nat → Round) (limit i : Nat) (ts : TimerMap) : Prop :=
  ∀ rest, found rounds i ts limit = some rest → rest.timers = []

/-- A first timer that is not due yet is due in a time that an `int` holds. -/
def Near (rounds : Nat → Round) (limit i : Nat) (ts : TimerMap) : Prop :=
  ∀ n < limit, ∀ rest tm, found rounds i ts n = some rest → rest.first = some tm →
    0 < (rounds (i + n)).dif tm → 0 ≤ ((rounds (i + n)).dif tm).bmod (2 ^ 32)

/-- What `processTimers` finds lets the loop wake for its timers. -/
def Wait.Serviceable (w : Wait) : Prop :=
  KeepsPace w.rounds (maxTimerOneLoop w.procTimerCnt) 0 w.before ∧
    Near w.rounds (maxTimerOneLoop w.procTimerCnt) 0 w.before

section Loop

variable {rounds : Nat → Round} {i : Nat} {ts : TimerMap} {tm : Timer}

theorem found_succ_of_later (isFirst : ts.first = some tm) (later : 0 < (rounds i).dif tm)
    (n : Nat) : found rounds i ts (n + 1) = none := by
  rw [found, isFirst, Option.bind_some, if_pos later]

theorem found_succ_of_due (isFirst : ts.first = some tm) (due : ¬0 < (rounds i).dif tm)
    (n : Nat) :
    found rounds i ts (n + 1) = found rounds (i + 1) ((rounds i).fire tm ts) n := by
  rw [found, isFirst, Option.bind_some, if_neg due]

/-- After the limit no timer is looked at. -/
theorem near_zero : Near rounds 0 i ts := fun n inside => absurd inside (Nat.not_lt_zero n)

theorem near_succ_of_later {limit : Nat} (isFirst : ts.first = some tm)
    (later : 0 < (rounds i).dif tm) :
    Near rounds (limit + 1) i ts ↔ 0 ≤ ((rounds i).dif tm).bmod (2 ^ 32) := by
  constructor
  · intro near
    exact near 0 (Nat.succ_pos limit) ts tm rfl isFirst later
  · intro fits n inside rest tm' foundEq isFirst' later'
    cases n with
    | zero =>
        cases foundEq
        cases isFirst.symm.trans isFirst'
        exact fits
    | succ n =>
        rw [found_succ_of_later isFirst later] at foundEq
        contradiction

theorem near_succ_of_due {limit : Nat} (isFirst : ts.first = some tm)
    (due : ¬0 < (rounds i).dif tm) :
    Near rounds (limit + 1) i ts ↔ Near rounds limit (i + 1) ((rounds i).fire tm ts) := by
  constructor
  · intro near n inside rest tm' foundEq isFirst' later
    rw [Nat.add_right_comm] at later ⊢
    exact near (n + 1) (Nat.succ_lt_succ inside) rest tm'
      ((found_succ_of_due isFirst due n).trans foundEq) isFirst' later
  · intro near n inside rest tm' foundEq isFirst' later
    cases n with
    | zero =>
        cases foundEq
        cases isFirst.symm.trans isFirst'
        exact absurd later due
    | succ n =>
        rw [found_succ_of_due isFirst due] at foundEq
        have step := near n (Nat.lt_of_succ_lt_succ inside) rest tm' foundEq isFirst'
        rw [Nat.add_right_comm] at step
        exact step later

/-- The loop, by induction on the rounds to go. -/
theorem processLoop_wakes_iff (limit : Nat) :
    (((if 0 < (processLoop rounds limit i ts).1 then
        (processLoop rounds limit i ts).1.bmod (2 ^ 32) else -1) < 0 →
          (processLoop rounds limit i ts).2.timers = []) ∧
      ((processLoop rounds limit i ts).2.timers ≠ [] → 0 < (processLoop rounds limit i ts).1)) ↔
      KeepsPace rounds limit i ts ∧ Near rounds limit i ts := by
  induction limit generalizing i ts with
  | zero =>
      have pace : KeepsPace rounds 0 i ts ↔ ts.timers = [] := by
        simp [KeepsPace, found]
      rw [pace, and_iff_left near_zero]
      simp [processLoop]
  | succ limit ih =>
      cases isFirst : ts.first with
      | none =>
          have noTimer := TimerMap.first_eq_none.mp isFirst
          have pace : KeepsPace rounds (limit + 1) i ts := by
            simp [KeepsPace, found, isFirst]
          have near : Near rounds (limit + 1) i ts := by
            intro n inside rest tm foundEq isFirst' later
            cases n with
            | zero =>
                cases foundEq
                rw [isFirst] at isFirst'
                contradiction
            | succ n =>
                rw [found, isFirst] at foundEq
                contradiction
          simp [processLoop, isFirst, noTimer, pace, near]
      | some tm =>
          have someTimer : ts.timers ≠ [] := by
            intro noTimer
            rw [TimerMap.first_eq_none.mpr noTimer] at isFirst
            contradiction
          by_cases later : 0 < (rounds i).dif tm
          · have pace : KeepsPace rounds (limit + 1) i ts := by
              intro rest foundEq
              rw [found_succ_of_later isFirst later] at foundEq
              contradiction
            have loopEq : processLoop rounds (limit + 1) i ts = ((rounds i).dif tm, ts) := by
              rw [processLoop, isFirst]
              exact if_pos later
            rw [loopEq, near_succ_of_later isFirst later, and_iff_right pace]
            simp [later, someTimer]
          · have loopEq : processLoop rounds (limit + 1) i ts =
                processLoop rounds limit (i + 1) ((rounds i).fire tm ts) := by
              rw [processLoop, isFirst]
              exact if_neg later
            have pace : KeepsPace rounds (limit + 1) i ts ↔
                KeepsPace rounds limit (i + 1) ((rounds i).fire tm ts) := by
              rw [KeepsPace, KeepsPace, found_succ_of_due isFirst later]
            rw [loopEq, ih, pace, near_succ_of_due isFirst later]

end Loop

theorem Wait.wakes_iff (w : Wait) : w.Wakes ↔ w.Serviceable :=
  processLoop_wakes_iff (maxTimerOneLoop w.procTimerCnt)

/-- Take any timers, any clock and any behaviour of the callbacks, of the operators and
of the handlers.  Whenever the loop blocks, it wakes for its timers, exactly when every
call of `processTimers` keeps pace with the timers that are due and the next timer left
over is due in a time that an `int` holds. -/
theorem run_wakes_iff (procTimerCnt : Int) (ts : TimerMap) (its : List Iteration) :
    (∀ w ∈ run procTimerCnt ts its, w.Wakes) ↔ ∀ w ∈ run procTimerCnt ts its, w.Serviceable := by
  constructor
  · intro wakes w member
    exact w.wakes_iff.mp (wakes w member)
  · intro serviceable w member
    exact w.wakes_iff.mpr (serviceable w member)

/-- Callbacks that arm no timer keep pace with as many timers as one round may fire. -/
theorem keepsPace_of_length_le {rounds : Nat → Round} {limit i : Nat} {ts : TimerMap}
    (armsNone : ∀ i tm ts, ((rounds i).timeout tm ts).timers.length ≤ ts.timers.length)
    (few : ts.timers.length ≤ limit) : KeepsPace rounds limit i ts := by
  induction limit generalizing i ts with
  | zero =>
      intro rest foundEq
      cases foundEq
      exact List.eq_nil_of_length_eq_zero (Nat.le_zero.mp few)
  | succ limit ih =>
      intro rest foundEq
      rw [found] at foundEq
      rcases Option.bind_eq_some_iff.mp foundEq with ⟨tm, isFirst, fired⟩
      split_ifs at fired with later
      apply ih _ rest fired
      have member : tm ∈ ts.timers := List.mem_of_head? isFirst
      calc
        ((rounds i).fire tm ts).timers.length ≤ (ts.delTimer tm).timers.length := armsNone i tm _
        _ ≤ limit := by
          have shorter : (ts.delTimer tm).timers.length < ts.timers.length :=
            List.length_filter_lt_length_iff_exists.mpr ⟨tm, member, by simp⟩
          omega

/-- Timers that are all due at the time `1`. -/
def dueTimers (count : Nat) : TimerMap :=
  (List.range count).foldl (fun ts addr => ts.addTimer ⟨⟨1, 0⟩, addr⟩) .empty

/-- An iteration in which nothing but the timers happens, at the time `2`. -/
def idleIteration : Iteration := ⟨id, fun _ => ⟨⟨2, 0⟩, fun _ ts => ts⟩, true, id⟩

/-- Seventeen timers are due, and one round fires sixteen, which is the default.  The
loop blocks without a limit, and one timer is left. -/
theorem run_sleeps_on_timer :
    ∃ w ∈ run 16 (dueTimers 17) [idleIteration], w.timeout < 0 ∧
      w.left.timers = [⟨⟨1, 0⟩, 16⟩] ∧ ¬w.Wakes := by
  have sleeps : (⟨16, idleIteration.rounds, dueTimers 17⟩ : Wait).timeout < 0 ∧
      (⟨16, idleIteration.rounds, dueTimers 17⟩ : Wait).left.timers = [⟨⟨1, 0⟩, 16⟩] := by
    decide +kernel
  refine ⟨_, List.mem_cons_self, sleeps.1, sleeps.2, ?_⟩
  intro wakes
  exact absurd (sleeps.2.symm.trans (wakes.1 sleeps.1)) (by decide)

end GPush.EventLoop
