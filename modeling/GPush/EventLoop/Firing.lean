import GPush.EventLoop.Integrity

/-!
# Firing the timers of connections

In every run a timer that fires is in the set of its loop, so it is armed, and a call
of `startTimer` has put it there since it fired last.
-/

namespace GPush.EventLoop.TimerSet

open GPush.Transition

/-! ## Instants -/

/-- The time in microseconds. -/
def micros (t : TimeTv) : Int := t.sec * 1000000 + t.usec

/-- The microseconds stay below a second, as those of `gettimeofday` do. -/
def Normal (t : TimeTv) : Prop := 0 ≤ t.usec ∧ t.usec < 1000000

theorem micros_le_of_not_less {t u : TimeTv} (normal : Normal t) (normal' : Normal u)
    (notLess : ¬u.Less t) : micros t ≤ micros u := by
  simp only [TimeTv.Less, Normal, micros] at *
  omega

/-- A timer that is due is less than a millisecond early. -/
theorem micros_lt_of_due {deadline now : TimeTv} (due : ¬0 < tvDiffMs deadline now) :
    micros deadline < micros now + 1000 := by
  have truncated : deadline.usec - now.usec <
      ((deadline.usec - now.usec).tdiv 1000 + 1) * 1000 :=
    Int.lt_tdiv_add_one_mul_self _ (by decide)
  simp only [tvDiffMs, micros] at *
  omega

/-- A timeout that is not negative gives a deadline in the form of `gettimeofday`. -/
theorem normal_setTimeOutAfter {now : TimeTv} (normal : Normal now) {ms : Int}
    (positive : 0 ≤ ms) : Normal (setTimeOutAfter now ms) := by
  have part : 0 ≤ ms.tmod 1000 := Int.tmod_nonneg 1000 positive
  constructor
  · apply Int.tmod_nonneg
    have usec := normal.1
    omega
  · exact Int.tmod_lt_of_pos _ (by decide)

/-- Such a deadline is at the time `ms` milliseconds after `now`. -/
theorem micros_setTimeOutAfter (now : TimeTv) (ms : Int) :
    micros (setTimeOutAfter now ms) = micros now + ms * 1000 := by
  have whole := Int.mul_tdiv_add_tmod ms 1000
  have carried := Int.mul_tdiv_add_tmod (now.usec + ms.tmod 1000 * 1000) 1000000
  simp only [micros, setTimeOutAfter]
  omega

/-! ## What a call does to the sets -/

/-- The call arms the timer at `a`, in the set of the loop `l`. -/
def Arms (s : State) (l a : Nat) (event : Event) : Prop :=
  ∃ c id timeout now con,
    event = .startTimer c id timeout now a ∧ s.cons c = some con ∧ con.evlp = some l

/-- The timer at `a` fires. -/
def Event.Fires (a : Nat) (event : Event) : Prop := ∃ l now, event = .fire l now a

section Calls

variable {s : State} {l a : Nat} {event : Event}

/-- Only `addTimer` puts a timer into a set. -/
theorem mem_of_exec {statement : Statement} (member : a ∈ (exec s statement).timerMap l) :
    a ∈ s.timerMap l ∨ statement = .addTimer l a := by
  cases statement with
  | addTimer l' b =>
      rw [exec, ← State.setTimers] at member
      by_cases same : l = l'
      · subst same
        rw [setTimers_self, Containers.PointerSet.mem_insert s.key_injective] at member
        rcases member with rfl | before
        · exact Or.inr rfl
        · exact Or.inl before
      · rw [setTimers_of_ne same] at member
        exact Or.inl member
  | delTimer l' b =>
      rw [exec, ← State.setTimers] at member
      by_cases same : l = l'
      · subst same
        rw [setTimers_self] at member
        exact Or.inl (List.mem_of_mem_filter member)
      · rw [setTimers_of_ne same] at member
        exact Or.inl member
  | eraseFirst l' =>
      rw [exec, ← State.setTimers] at member
      by_cases same : l = l'
      · subst same
        rw [setTimers_self] at member
        exact Or.inl (List.mem_of_mem_tail member)
      · rw [setTimers_of_ne same] at member
        exact Or.inl member
  | _ => exact Or.inl member

theorem mem_of_execAll {code : List Statement} (member : a ∈ (execAll s code).timerMap l) :
    a ∈ s.timerMap l ∨ .addTimer l a ∈ code := by
  induction code generalizing s with
  | nil => exact Or.inl member
  | cons statement rest ih =>
      rcases ih member with after | later
      · rcases mem_of_exec after with before | rfl
        · exact Or.inl before
        · exact Or.inr List.mem_cons_self
      · exact Or.inr (List.mem_cons_of_mem _ later)

theorem clearTimer_adds_none {c : Nat} {con : Connection} : .addTimer l a ∉ clearTimer c con := by
  rw [clearTimer]
  cases con.evlp <;> simp

/-- Only `startTimer` does so. -/
theorem arms_of_addTimer (allowed : Allowed s event) (adds : .addTimer l a ∈ code s event) :
    Arms s l a event := by
  cases event with
  | startTimer c id timeout now b =>
      obtain ⟨con, consEq, address⟩ := allowed
      have isAddress : (con.getTimer id).getD b = b := by
        rcases address with found | ⟨missing, _⟩
        · rw [found, Option.getD_some]
        · rw [missing, Option.getD_none]
      rw [code, consEq, Option.elim_some, startTimer] at adds
      cases evlpEq : con.evlp with
      | none =>
          rw [evlpEq] at adds
          cases adds
      | some l' =>
          simp only [evlpEq, isAddress] at adds
          have sameTimer : l = l' ∧ a = b := by
            split_ifs at adds <;> simpa using adds
          obtain ⟨rfl, rfl⟩ := sameTimer
          exact ⟨c, id, timeout, now, con, rfl, consEq, evlpEq⟩
  | stopTimer c id =>
      obtain ⟨con, consEq⟩ := allowed
      rw [code, consEq, Option.elim_some, stopTimer] at adds
      cases evlpEq : con.evlp <;> cases found : con.getTimer id <;>
        simp [evlpEq, found] at adds
  | safeClose c unsent =>
      obtain ⟨con, consEq⟩ := allowed
      rw [code, consEq, Option.elim_some, safeClose, destroy] at adds
      split_ifs at adds <;> simp [clearTimer_adds_none] at adds
  | destroy c =>
      obtain ⟨con, consEq⟩ := allowed
      rw [code, consEq, Option.elim_some, destroy] at adds
      simp [clearTimer_adds_none] at adds
  | _ => simp [code] at adds

/-- A timer that has fired is in no set. -/
theorem notMem_of_fires (sound : Sound none s) (allowed : Allowed s event)
    (fires : event.Fires a) : a ∉ (execAll s (code s event)).timerMap l := by
  obtain ⟨l', now, rfl⟩ := fires
  intro member
  have after := (code_safe sound allowed).2
  obtain ⟨⟨tm, heapEq, started, _⟩, _⟩ := (after.mem_iff l a).mp member
  have stopped := stopped_started (exec s (.eraseFirst l')) a
  rw [State.started, Option.any_eq_false] at stopped
  have idle := stopped tm heapEq
  rw [started] at idle
  exact absurd idle (by decide)

end Calls

/-! ## Runs -/

section Runs

variable {events : List Event} {s : State} {l a : Nat}

theorem sound_of_run (run : Run Step anyStep State.initial events s) : Sound none s := by
  apply run.invariant sound_initial
  rintro s event _ sound _ ⟨allowed, rfl⟩
  exact (code_safe sound allowed).2

/-- A timer in a set has been armed by a call after which it has not fired. -/
def ArmedBefore (events : List Event) (l a : Nat) : Prop :=
  ∃ before middle call after, events = before ++ call :: after ∧
    Run Step anyStep State.initial before middle ∧ Arms middle l a call ∧
    ∀ event ∈ after, ¬event.Fires a

theorem armedBefore_of_mem (run : Run Step anyStep State.initial events s)
    (member : a ∈ s.timerMap l) : ArmedBefore events l a := by
  induction run with
  | refl => cases member
  | @snoc events middle target event run _ taken ih =>
      obtain ⟨allowed, rfl⟩ := taken
      rcases mem_of_execAll member with before | adds
      · obtain ⟨first, start, call, after, rfl, firstRun, arms, silent⟩ := ih before
        refine ⟨first, start, call, after ++ [event], by simp, firstRun, arms, ?_⟩
        intro later laterMem
        rcases List.mem_append.mp laterMem with old | new
        · exact silent later old
        · obtain rfl := List.mem_singleton.mp new
          intro fires
          exact notMem_of_fires (sound_of_run run) allowed fires member
      · refine ⟨events, middle, event, [], rfl, run, arms_of_addTimer allowed adds, ?_⟩
        intro later laterMem
        cases laterMem

end Runs

/-! ## Deadlines in the form of `gettimeofday` -/

section Plain

variable {events : List Event} {s : State} {a : Nat}

/-- A call of `startTimer` has a timeout that is not negative and reads the clock in
normal form. -/
def Event.Plain : Event → Prop
  | .startTimer _ _ timeout now _ => 0 ≤ timeout ∧ Normal now
  | _ => True

/-- All deadlines are in normal form. -/
def NormalTimers (s : State) : Prop := ∀ a deadline, s.timeoutTime a = some deadline →
  Normal deadline

theorem normal_alter {change : ConnectionTimer → ConnectionTimer} (normal : NormalTimers s)
    (changed : ∀ tm, Normal tm.timeoutTime → Normal (change tm).timeoutTime) :
    NormalTimers (s.alter a change) := by
  intro b deadline deadlineEq
  by_cases same : b = a
  · subst same
    cases heapEq : s.heap b with
    | none => simp [State.timeoutTime, State.alter, heapEq] at deadlineEq
    | some tm =>
        simp only [State.timeoutTime, State.alter, Function.update_self, heapEq, Option.map_some,
          Option.some.injEq] at deadlineEq
        rw [← deadlineEq]
        apply changed
        apply normal b
        rw [State.timeoutTime, heapEq, Option.map_some]
  · rw [timeoutTime_congr (alter_heap_of_ne same)] at deadlineEq
    exact normal b deadline deadlineEq

theorem normal_exec {statement : Statement} (normal : NormalTimers s)
    (deadline : ∀ a t, statement = .setTimeoutTime a t → Normal t) :
    NormalTimers (exec s statement) := by
  cases statement with
  | newTimer b c id =>
      intro a t deadlineEq
      by_cases same : a = b
      · subst same
        simp only [State.timeoutTime, exec, Function.update_self, Option.map_some,
          Option.some.injEq] at deadlineEq
        rw [← deadlineEq]
        exact ⟨Int.le_refl 0, by decide⟩
      · rw [timeoutTime_congr (s := s) (Function.update_of_ne same _ _)] at deadlineEq
        exact normal a t deadlineEq
  | deleteTimer b =>
      intro a t deadlineEq
      by_cases same : a = b
      · subst same
        simp [State.timeoutTime, exec] at deadlineEq
      · rw [timeoutTime_congr (s := s) (Function.update_of_ne same _ _)] at deadlineEq
        exact normal a t deadlineEq
  | setTimeoutTime b t => exact normal_alter normal fun _ _ => deadline b t rfl
  | setStatus b status => exact normal_alter normal fun _ isNormal => isNormal
  | _ => exact normal

theorem normal_execAll {code : List Statement} (normal : NormalTimers s)
    (deadlines : ∀ a t, .setTimeoutTime a t ∈ code → Normal t) :
    NormalTimers (execAll s code) := by
  induction code generalizing s with
  | nil => exact normal
  | cons statement rest ih =>
      apply ih
      · apply normal_exec normal
        rintro a t rfl
        exact deadlines a t List.mem_cons_self
      · intro a t later
        exact deadlines a t (List.mem_cons_of_mem _ later)

theorem clearTimer_sets_none {c : Nat} {con : Connection} {t : TimeTv} :
    .setTimeoutTime a t ∉ clearTimer c con := by
  rw [clearTimer]
  cases con.evlp <;> simp

theorem normal_of_code {event : Event} (plain : event.Plain) {t : TimeTv}
    (sets : .setTimeoutTime a t ∈ code s event) : Normal t := by
  cases event with
  | startTimer c id timeout now b =>
      have isNormal := normal_setTimeOutAfter plain.2 plain.1
      cases consEq : s.cons c with
      | none => simp [code, consEq] at sets
      | some con =>
          rw [code, consEq, Option.elim_some, startTimer] at sets
          cases evlpEq : con.evlp with
          | none => simp [evlpEq] at sets
          | some l =>
              simp only [evlpEq] at sets
              have isDeadline : t = setTimeOutAfter now timeout := by
                split_ifs at sets <;> simp at sets <;> exact sets.2
              rw [isDeadline]
              exact isNormal
  | stopTimer c id =>
      cases consEq : s.cons c with
      | none => simp [code, consEq] at sets
      | some con =>
          rw [code, consEq, Option.elim_some, stopTimer] at sets
          cases evlpEq : con.evlp <;> cases found : con.getTimer id <;>
            simp [evlpEq, found] at sets
  | safeClose c unsent =>
      cases consEq : s.cons c with
      | none => simp [code, consEq] at sets
      | some con =>
          rw [code, consEq, Option.elim_some, safeClose, destroy] at sets
          split_ifs at sets <;> simp [clearTimer_sets_none] at sets
  | destroy c =>
      cases consEq : s.cons c with
      | none => simp [code, consEq] at sets
      | some con =>
          rw [code, consEq, Option.elim_some, destroy] at sets
          simp [clearTimer_sets_none] at sets
  | _ => simp [code] at sets

theorem normal_of_run (run : Run Step anyStep State.initial events s)
    (plain : ∀ event ∈ events, event.Plain) : NormalTimers s := by
  induction run with
  | refl =>
      intro a deadline deadlineEq
      cases deadlineEq
  | snoc run _ taken ih =>
      obtain ⟨_, rfl⟩ := taken
      apply normal_execAll
      · exact ih fun event member => plain event (List.mem_append_left _ member)
      · intro a t sets
        exact normal_of_code (plain _ (List.mem_append_right _ List.mem_cons_self)) sets

end Plain

/-! ## What fires -/

/-- The timer at `a`, which fires in the loop `l` at the time `now` after the calls
`events`, is the one to fire. -/
structure Timely (events : List Event) (s : State) (l : Nat) (now : TimeTv) (a : Nat) :
    Prop where
  /-- No timer of the set has an earlier deadline. -/
  earliest : ∀ b ∈ s.timerMap l, ¬(s.key b).Less (s.key a)
  /-- None has an earlier instant when no timeout was negative. -/
  instant : (∀ event ∈ events, event.Plain) →
    ∀ b ∈ s.timerMap l, micros (s.key a).timeoutTime ≤ micros (s.key b).timeoutTime
  /-- Its connection is alive and owns it. -/
  live : ∃ tm, s.heap a = some tm ∧ s.Owns l tm.con tm.id a
  /-- It is less than a millisecond early. -/
  due : ∃ deadline, s.timeoutTime a = some deadline ∧ micros deadline < micros now + 1000
  /-- It has not fired since it was armed. -/
  armed : ArmedBefore events l a

theorem timely_of_run {events : List Event} {s : State}
    (run : Run Step anyStep State.initial events s) {l a : Nat} {now : TimeTv}
    (allowed : Allowed s (.fire l now a)) : Timely events s l now a := by
  obtain ⟨isFirst, due⟩ := allowed
  have sound := sound_of_run run
  have member : a ∈ s.timerMap l := List.mem_of_head? isFirst
  obtain ⟨⟨tm, heapEq, started, owns⟩, _⟩ := (sound.mem_iff l a).mp member
  have deadlineEq : ∀ b ∈ s.timerMap l, s.timeoutTime b = some (s.key b).timeoutTime := by
    intro b memberB
    obtain ⟨⟨tm', heapEq', _⟩, _⟩ := (sound.mem_iff l b).mp memberB
    simp [State.key, State.timeoutTime, heapEq']
  have earliest : ∀ b ∈ s.timerMap l, ¬(s.key b).Less (s.key a) := by
    intro b memberB
    obtain ⟨rest, mapEq⟩ := List.head?_eq_some_iff.mp isFirst
    have inOrder := sound.inOrder l
    rw [mapEq] at inOrder memberB
    exact inOrder.first_least memberB
  constructor
  · exact earliest
  · intro plain b memberB
    have normal := normal_of_run run plain
    apply micros_le_of_not_less (normal a _ (deadlineEq a member))
      (normal b _ (deadlineEq b memberB))
    intro less
    exact earliest b memberB (Or.inl less)
  · exact ⟨tm, heapEq, owns⟩
  · exact ⟨_, deadlineEq a member, micros_lt_of_due due⟩
  · exact armedBefore_of_mem run member

/-- The loop of `EventLoop::processTimers` for the loop `l`, with `left` rounds to go: the
calls it makes and the state it leaves.  A callback makes calls of its own. -/
inductive ProcessTimers (l : Nat) : Nat → State → List Event → State → Prop
  | limit (s : State) : ProcessTimers l 0 s [] s
  | empty {left : Nat} {s : State} (noTimer : s.timerMap l = []) : ProcessTimers l left s [] s
  | wait {left a : Nat} {s : State} {now : TimeTv} (isFirst : (s.timerMap l).head? = some a)
      (later : 0 < tvDiffMs (s.key a).timeoutTime now) : ProcessTimers l left s [] s
  | timeout {left a : Nat} {s after t : State} {now : TimeTv} {calls rest : List Event}
      (isFirst : (s.timerMap l).head? = some a)
      (due : ¬0 < tvDiffMs (s.key a).timeoutTime now)
      (callback : Run Step (fun _ call => ∀ b, ¬call.Fires b)
        (execAll s (code s (.fire l now a))) calls after)
      (next : ProcessTimers l left after rest t) :
      ProcessTimers l (left + 1) s (.fire l now a :: (calls ++ rest)) t

/-- What `processTimers` does is a run. -/
theorem ProcessTimers.run {l left : Nat} {s t : State} {events : List Event}
    (processes : ProcessTimers l left s events t) : Run Step anyStep s events t := by
  induction processes with
  | limit | empty | wait => exact Run.refl
  | timeout isFirst due callback _ ih =>
      apply Run.cons trivial ⟨⟨isFirst, due⟩, rfl⟩
      exact (callback.mono fun _ _ _ => trivial).trans ih

/-- Take any order of the calls, from callbacks or not.  A timer is in the set of a loop
exactly when it is started and its connection is alive, runs on the loop and owns it; no
statement of a call changes the deadline of a timer in a set; and every timer that fires
is the one to fire. -/
theorem timerSets_intact {events : List Event} {s : State}
    (run : Run Step anyStep State.initial events s) :
    (∀ l a, a ∈ s.timerMap l ↔ s.Armed l a) ∧
      (∀ event, Allowed s event → Steady s (code s event)) ∧
      ∀ before l now a after, events = before ++ .fire l now a :: after →
        ∃ middle, Run Step anyStep State.initial before middle ∧
          Timely before middle l now a := by
  have sound := sound_of_run run
  refine ⟨?_, fun event allowed => (code_safe sound allowed).1, ?_⟩
  · intro l a
    rw [sound.mem_iff l a]
    simp
  · rintro before l now a after rfl
    obtain ⟨middle, target, firstRun, _, taken, _⟩ := run.split
    exact ⟨middle, firstRun, timely_of_run firstRun taken.1⟩

/-- A connection arms a timer of a second at the time `10`, which fires at the time `11`. -/
def oneFiring : List Event :=
  [.construct 1, .addConnection 1 0, .startTimer 1 5 1000 ⟨10, 0⟩ 7, .fire 0 ⟨11, 0⟩ 7]

theorem timerSets_intact_oneFiring :
    ∃ middle, Run Step anyStep State.initial (oneFiring.take 3) middle ∧
      Timely (oneFiring.take 3) middle 0 ⟨11, 0⟩ 7 := by
  have run : ∃ s, Run Step anyStep State.initial oneFiring s := by
    refine ⟨_, Run.cons trivial ⟨rfl, rfl⟩ <| Run.cons trivial ⟨⟨_, rfl, Or.inl rfl⟩, rfl⟩ <|
      Run.cons trivial ⟨⟨_, rfl, Or.inr ⟨rfl, rfl⟩⟩, rfl⟩ <|
      Run.single trivial ⟨⟨rfl, ?_⟩, rfl⟩⟩
    decide
  obtain ⟨s, run⟩ := run
  exact (timerSets_intact run).2.2 (oneFiring.take 3) 0 ⟨11, 0⟩ 7 [] rfl

end GPush.EventLoop.TimerSet
