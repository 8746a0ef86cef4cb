import GPush.Transition.Run
import Mathlib.Data.Finset.Card
import Mathlib.Data.List.Count
import Mathlib.Logic.Function.Basic

/-!
# The thread pool

Producers test `m_run` before they take the mutex.  The worker takes a token of the semaphore
for every task that it reads, and leaves when it reads none: `stop` gives one token more.
-/

namespace GPush.Utility

open GPush.Transition

/-- Where a producer is in `addTask`: outside, past the test of `m_run`, or inside the lock with
its task in the queue. -/
inductive Producer (α : Type*)
  | idle
  | tested (t : α)
  | appended (t : α)
  deriving DecidableEq, Repr

/-- The producer is past the test. -/
def Producer.isTested {α : Type*} : Producer α → Bool
  | .tested _ => true
  | _ => false

/-- Where the worker is in `threadPoolProcess`: on its way to take a token, in `getTask` with the
token, in a task, or outside of the loop. -/
inductive Worker (α : Type*)
  | taking
  | reading
  | running (t : α)
  | left
  deriving DecidableEq, Repr

/-- The tokens that the worker holds. -/
def Worker.inHand {α : Type*} : Worker α → Nat
  | .reading => 1
  | _ => 0

/-- Where the thread is that calls `stop`. -/
inductive Stopper
  | idle
  | cleared
  | joining
  | returned
  deriving DecidableEq, Repr

/-- The tokens that `stop` has given. -/
def Stopper.tokens : Stopper → Nat
  | .idle => 0
  | .cleared => 0
  | .joining => 1
  | .returned => 1

/-- `m_run`, `m_tasks`, the count of `m_sem` and the producer that holds `m_cs`, then where the
threads are; and the tasks that have been appended, those whose `addTask` has returned `0`, and
those that have been run.  The producers are the elements of `ι`, and the tasks those of `α`. -/
structure ThreadPool (ι α : Type*) where
  mRun : Bool
  tasks : List α
  sem : Nat
  lock : Option ι
  producers : ι → Producer α
  worker : Worker α
  stopper : Stopper
  appended : List α
  accepted : List α
  ran : List α

namespace ThreadPool

/-- The atomic steps. -/
inductive Event (ι α : Type*)
  | test (p : ι) (t : α)
  | append (p : ι)
  | give (p : ι)
  | clear
  | signal
  | join
  | take
  | read
  | finish
  | leave

variable {ι α : Type*} [DecidableEq ι]

/-- A pool after `start`. -/
def init : ThreadPool ι α where
  mRun := true
  tasks := []
  sem := 0
  lock := none
  producers _ := .idle
  worker := .taking
  stopper := .idle
  appended := []
  accepted := []
  ran := []

/-- A producer moves on. -/
def move (s : ThreadPool ι α) (p : ι) (phase : Producer α) : ThreadPool ι α :=
  { s with producers := Function.update s.producers p phase }

/-- The step relation.  `addTask` returns `-2` when it finds `m_run` cleared, and `0` with the
step that gives its token. -/
inductive Step : LTS (ThreadPool ι α) (Event ι α)
  | accept {s : ThreadPool ι α} {p : ι} {t : α} : s.producers p = .idle → s.mRun = true →
      Step s (.test p t) (s.move p (.tested t))
  | refuse {s : ThreadPool ι α} {p : ι} {t : α} : s.producers p = .idle → s.mRun = false →
      Step s (.test p t) s
  | append {s : ThreadPool ι α} {p : ι} {t : α} : s.producers p = .tested t → s.lock = none →
      Step s (.append p) { s.move p (.appended t) with
        lock := some p
        tasks := s.tasks ++ [t]
        appended := s.appended ++ [t] }
  | give {s : ThreadPool ι α} {p : ι} {t : α} : s.producers p = .appended t →
      Step s (.give p) { s.move p .idle with
        sem := s.sem + 1
        lock := none
        accepted := s.accepted ++ [t] }
  | clear {s : ThreadPool ι α} : s.stopper = .idle →
      Step s .clear { s with mRun := false, stopper := .cleared }
  | signal {s : ThreadPool ι α} : s.stopper = .cleared →
      Step s .signal { s with sem := s.sem + 1, stopper := .joining }
  | join {s : ThreadPool ι α} : s.stopper = .joining → s.worker = .left →
      Step s .join { s with stopper := .returned }
  | take {s : ThreadPool ι α} {n : Nat} : s.worker = .taking → s.sem = n + 1 →
      Step s .take { s with sem := n, worker := .reading }
  | read {s : ThreadPool ι α} {t : α} {rest : List α} : s.worker = .reading → s.lock = none →
      s.tasks = t :: rest →
      Step s .read { s with tasks := rest, worker := .running t, ran := s.ran ++ [t] }
  | finish {s : ThreadPool ι α} {t : α} : s.worker = .running t →
      Step s .finish { s with worker := .taking }
  | leave {s : ThreadPool ι α} : s.worker = .reading → s.lock = none → s.tasks = [] →
      Step s .leave { s with worker := .left }

/-- When the worker leaves, no producer is between its test of `m_run` and its append. -/
def Guard (s : ThreadPool ι α) : Event ι α → Prop
  | .leave => ∀ p t, s.producers p ≠ .tested t
  | _ => True

/-- The tasks are run in the order in which they were appended, each once, and when the worker
has left all that were accepted have been run. -/
structure RunsAccepted (s : ThreadPool ι α) : Prop where
  inOrder : s.ran ++ s.tasks = s.appended
  accepted : s.accepted <+: s.appended
  all : s.worker = .left → s.accepted = s.ran

/-- The steps of the worker. -/
def Event.isWorker : Event ι α → Bool
  | .take => true
  | .read => true
  | .finish => true
  | .leave => true
  | _ => false

/-- The steps that append a task. -/
def Event.isAppend : Event ι α → Bool
  | .append _ => true
  | _ => false

/-- The thread of the event is the worker, or a producer that is about to leave the lock. -/
def Event.Serves (e : Event ι α) : Prop := e.isWorker = true ∨ ∃ p, e = .give p

/-- After the token of `stop` the worker is on its way out: as long as it has not left it can
take a step, or the producer can that holds the lock; and it has only so many steps to take for
the tasks in the queue and those that the producers past their test have still to append. -/
structure Leaves (s : ThreadPool ι α) : Prop where
  goesOn : s.stopper.tokens = 1 → s.worker ≠ .left → ∃ (e : Event ι α) (t : ThreadPool ι α),
    e.Serves ∧ Step s e t
  bounded : ∀ (more : List (Event ι α)) (t : ThreadPool ι α), Run Step anyStep s more t →
    more.countP Event.isWorker ≤ 3 * (s.tasks.length + more.countP Event.isAppend) + 3
  closed : s.mRun = false → ∀ (past : Finset ι),
    (∀ p t, s.producers p = .tested t → p ∈ past) →
      ∀ (more : List (Event ι α)) (t : ThreadPool ι α), Run Step anyStep s more t →
        more.countP Event.isAppend ≤ past.card

/-! ## Safety -/

/-- The invariant. -/
structure Sound (s : ThreadPool ι α) : Prop where
  inOrder : s.ran ++ s.tasks = s.appended
  inside : ∀ p t, s.producers p = .appended t → s.lock = some p ∧ s.accepted ++ [t] = s.appended
  holder : ∀ p, s.lock = some p → ∃ t, s.producers p = .appended t
  outside : s.lock = none → s.accepted = s.appended
  stopped : s.stopper ≠ .idle → s.mRun = false
  tokens : s.worker ≠ .left →
    s.sem + s.worker.inHand + s.lock.toList.length = s.tasks.length + s.stopper.tokens
  quiet : s.worker = .left → s.tasks = [] ∧ s.lock = none ∧ s.stopper.tokens = 1 ∧
    ∀ p t, s.producers p ≠ .tested t

variable {s t : ThreadPool ι α}

/-- A producer is where it moved to, and the others are where they were. -/
theorem producers_move {p q : ι} {phase other : Producer α}
    (here : (s.move p phase).producers q = other) :
    q = p ∧ phase = other ∨ q ≠ p ∧ s.producers q = other := by
  by_cases same : q = p
  · subst same
    have moved : (s.move q phase).producers q = phase := Function.update_self ..
    exact Or.inl ⟨rfl, moved.symm.trans here⟩
  · have kept : (s.move p phase).producers q = s.producers q := Function.update_of_ne same ..
    exact Or.inr ⟨same, kept.symm.trans here⟩

omit [DecidableEq ι] in
theorem sound_init : (init : ThreadPool ι α).Sound where
  inOrder := rfl
  inside _ _ appended := by cases appended
  holder _ held := by cases held
  outside _ := rfl
  stopped idle := absurd rfl idle
  tokens _ := rfl
  quiet left := by cases left

namespace Sound

omit [DecidableEq ι] in
/-- What has been accepted is at the front of what has been appended. -/
theorem runsAccepted (sound : s.Sound) : s.RunsAccepted := by
  constructor
  · exact sound.inOrder
  · cases held : s.lock with
    | none => exact ⟨[], by rw [List.append_nil, sound.outside held]⟩
    | some p =>
        obtain ⟨t, appended⟩ := sound.holder p held
        exact ⟨[t], (sound.inside p t appended).2⟩
  · intro left
    obtain ⟨empty, unlocked, -⟩ := sound.quiet left
    have inOrder := sound.inOrder
    rw [empty, List.append_nil] at inOrder
    rw [sound.outside unlocked, inOrder]

/-- A producer passes the test of `m_run`. -/
theorem accept (sound : s.Sound) {p : ι} {t : α} (idle : s.producers p = .idle)
    (running : s.mRun = true) : (s.move p (.tested t)).Sound := by
  have notLeft : s.worker ≠ .left := by
    intro left
    have signalled := (sound.quiet left).2.2.1
    have stopped := sound.stopped (by rintro isIdle; rw [isIdle] at signalled; cases signalled)
    rw [running] at stopped
    cases stopped
  have others : ∀ q u, (s.move p (.tested t)).producers q = .appended u →
      s.producers q = .appended u := by
    intro q u appended
    rcases producers_move appended with ⟨-, isTested⟩ | ⟨-, before⟩
    · cases isTested
    · exact before
  refine ⟨sound.inOrder, fun q u appended => sound.inside q u (others q u appended), ?_,
    sound.outside, sound.stopped, sound.tokens, fun left => absurd left notLeft⟩
  intro q held
  obtain ⟨u, appended⟩ := sound.holder q held
  have other : q ≠ p := by
    rintro rfl
    rw [idle] at appended
    cases appended
  exact ⟨u, (Function.update_of_ne other _ _).trans appended⟩

/-- A producer takes the lock and appends its task. -/
theorem append (sound : s.Sound) {p : ι} {t : α} (tested : s.producers p = .tested t)
    (unlocked : s.lock = none) :
    Sound { s.move p (.appended t) with
      lock := some p
      tasks := s.tasks ++ [t]
      appended := s.appended ++ [t] } := by
  have notLeft : s.worker ≠ .left := fun left => (sound.quiet left).2.2.2 p t tested
  refine ⟨?_, ?_, ?_, ?_, sound.stopped, ?_, fun left => absurd left notLeft⟩
  · dsimp only [move]
    rw [← List.append_assoc, sound.inOrder]
  · intro q u appended
    rcases producers_move appended with ⟨rfl, isNew⟩ | ⟨-, before⟩
    · obtain rfl := Producer.appended.inj isNew
      exact ⟨rfl, congrArg (· ++ [t]) (sound.outside unlocked)⟩
    · have held := (sound.inside q u before).1
      rw [unlocked] at held
      cases held
  · intro q held
    obtain rfl := Option.some.inj held
    exact ⟨t, Function.update_self _ _ _⟩
  · intro unlocked
    cases unlocked
  · intro _
    have tokens := sound.tokens notLeft
    rw [unlocked] at tokens
    simp only [move, List.length_append, List.length_singleton, Option.toList_none,
      Option.toList_some, List.length_nil] at tokens ⊢
    omega

/-- A producer gives the token of its task and leaves the lock. -/
theorem give (sound : s.Sound) {p : ι} {t : α} (appended : s.producers p = .appended t) :
    Sound { s.move p .idle with
      sem := s.sem + 1
      lock := none
      accepted := s.accepted ++ [t] } := by
  obtain ⟨held, all⟩ := sound.inside p t appended
  have notLeft : s.worker ≠ .left := by
    intro left
    rw [(sound.quiet left).2.1] at held
    cases held
  refine ⟨sound.inOrder, ?_, ?_, fun _ => all, sound.stopped, ?_, fun left => absurd left notLeft⟩
  · intro q u appended'
    rcases producers_move appended' with ⟨-, isIdle⟩ | ⟨other, before⟩
    · cases isIdle
    · have held' := (sound.inside q u before).1
      rw [held, Option.some.injEq] at held'
      exact absurd held'.symm other
  · intro q held
    cases held
  · intro _
    have tokens := sound.tokens notLeft
    rw [held] at tokens
    simp only [move, Option.toList_none, Option.toList_some, List.length_singleton,
      List.length_nil] at tokens ⊢
    omega

omit [DecidableEq ι] in
/-- `stop` clears `m_run`. -/
theorem clear (sound : s.Sound) (idle : s.stopper = .idle) :
    Sound { s with mRun := false, stopper := .cleared } := by
  refine ⟨sound.inOrder, sound.inside, sound.holder, sound.outside, fun _ => rfl, ?_, ?_⟩
  · intro inside
    have tokens := sound.tokens inside
    rw [idle] at tokens
    exact tokens
  · intro left
    have signalled := (sound.quiet left).2.2.1
    rw [idle] at signalled
    cases signalled

omit [DecidableEq ι] in
/-- `stop` gives its token. -/
theorem signal (sound : s.Sound) (cleared : s.stopper = .cleared) :
    Sound { s with sem := s.sem + 1, stopper := .joining } := by
  have stopped := sound.stopped (by rw [cleared]; decide)
  refine ⟨sound.inOrder, sound.inside, sound.holder, sound.outside, fun _ => stopped, ?_, ?_⟩
  · intro inside
    have tokens := sound.tokens inside
    rw [cleared] at tokens
    simp only [Stopper.tokens] at tokens ⊢
    omega
  · intro left
    have signalled := (sound.quiet left).2.2.1
    rw [cleared] at signalled
    cases signalled

omit [DecidableEq ι] in
/-- `stop` returns. -/
theorem join (sound : s.Sound) (joining : s.stopper = .joining) (left : s.worker = .left) :
    Sound { s with stopper := .returned } := by
  have stopped := sound.stopped (by rw [joining]; decide)
  refine ⟨sound.inOrder, sound.inside, sound.holder, sound.outside, fun _ => stopped,
    fun inside => absurd left inside, fun left => ?_⟩
  obtain ⟨empty, unlocked, -, noneTested⟩ := sound.quiet left
  exact ⟨empty, unlocked, rfl, noneTested⟩

omit [DecidableEq ι] in
/-- The worker takes a token. -/
theorem take (sound : s.Sound) {n : Nat} (taking : s.worker = .taking) (some : s.sem = n + 1) :
    Sound { s with sem := n, worker := .reading } := by
  refine ⟨sound.inOrder, sound.inside, sound.holder, sound.outside, sound.stopped, ?_,
    fun left => by cases left⟩
  intro _
  have tokens := sound.tokens (by rw [taking]; simp)
  rw [taking, some] at tokens
  simp only [Worker.inHand] at tokens ⊢
  omega

omit [DecidableEq ι] in
/-- The worker reads a task with its token. -/
theorem read (sound : s.Sound) {u : α} {rest : List α} (reading : s.worker = .reading)
    (queue : s.tasks = u :: rest) :
    Sound { s with tasks := rest, worker := .running u, ran := s.ran ++ [u] } := by
  refine ⟨?_, sound.inside, sound.holder, sound.outside, sound.stopped, ?_,
    fun left => by cases left⟩
  · have inOrder := sound.inOrder
    rw [queue] at inOrder
    rw [List.append_assoc, List.singleton_append]
    exact inOrder
  · intro _
    have tokens := sound.tokens (by rw [reading]; simp)
    rw [reading, queue] at tokens
    simp only [Worker.inHand, List.length_cons] at tokens ⊢
    omega

omit [DecidableEq ι] in
/-- The worker has run its task. -/
theorem finish (sound : s.Sound) {u : α} (running : s.worker = .running u) :
    Sound { s with worker := .taking } := by
  refine ⟨sound.inOrder, sound.inside, sound.holder, sound.outside, sound.stopped, ?_,
    fun left => by cases left⟩
  intro _
  have tokens := sound.tokens (by rw [running]; simp)
  rw [running] at tokens
  exact tokens

omit [DecidableEq ι] in
/-- The worker finds no task, and leaves. -/
theorem leave (sound : s.Sound) (reading : s.worker = .reading) (unlocked : s.lock = none)
    (empty : s.tasks = []) (guarded : s.Guard .leave) : Sound { s with worker := .left } := by
  refine ⟨sound.inOrder, sound.inside, sound.holder, sound.outside, sound.stopped,
    fun inside => absurd rfl inside, fun _ => ⟨empty, unlocked, ?_, guarded⟩⟩
  -- the token that the worker holds is not that of a task
  have tokens := sound.tokens (by rw [reading]; simp)
  rw [reading, unlocked, empty] at tokens
  simp only [Worker.inHand, Option.toList_none, List.length_nil] at tokens
  cases stopper : s.stopper <;> rw [stopper] at tokens <;> simp [Stopper.tokens] at tokens ⊢

/-- The step lemma. -/
theorem step {e : Event ι α} (sound : s.Sound) (guarded : s.Guard e) (taken : Step s e t) :
    t.Sound := by
  cases taken with
  | accept idle running => exact sound.accept idle running
  | refuse => exact sound
  | append tested unlocked => exact sound.append tested unlocked
  | give appended => exact sound.give appended
  | clear idle => exact sound.clear idle
  | signal cleared => exact sound.signal cleared
  | join joining left => exact sound.join joining left
  | take taking some => exact sound.take taking some
  | read reading _ queue => exact sound.read reading queue
  | finish running => exact sound.finish running
  | leave reading unlocked empty => exact sound.leave reading unlocked empty guarded

end Sound

theorem sound_of_guarded {events : List (Event ι α)} (run : Run Step Guard init events s) :
    s.Sound :=
  run.invariant sound_init fun _ _ _ sound guarded taken => sound.step guarded taken

/-! ## Progress -/

/-- With the token of `stop` in the semaphore, the worker waits for the lock at most. -/
theorem Sound.goesOn (sound : s.Sound) (signalled : s.stopper.tokens = 1)
    (inside : s.worker ≠ .left) : ∃ (e : Event ι α) (t : ThreadPool ι α),
      e.Serves ∧ Step s e t := by
  cases held : s.lock with
  | some p =>
      obtain ⟨u, appended⟩ := sound.holder p held
      exact ⟨.give p, _, Or.inr ⟨p, rfl⟩, .give appended⟩
  | none =>
      cases worker : s.worker with
      | taking =>
          have tokens := sound.tokens inside
          rw [worker, held, signalled] at tokens
          obtain ⟨n, some⟩ : ∃ n, s.sem = n + 1 := by
            refine ⟨s.tasks.length, ?_⟩
            simpa [Worker.inHand] using tokens
          exact ⟨.take, _, Or.inl rfl, .take worker some⟩
      | reading =>
          cases queue : s.tasks with
          | nil => exact ⟨.leave, _, Or.inl rfl, .leave worker held queue⟩
          | cons u rest => exact ⟨.read, _, Or.inl rfl, .read worker held queue⟩
      | running u => exact ⟨.finish, _, Or.inl rfl, .finish worker⟩
      | left => exact absurd worker inside

/-- The steps that the worker has to take before it has left, without further tasks. -/
def remaining (s : ThreadPool ι α) : Nat :=
  match s.worker with
  | .taking => 3 * s.tasks.length + 2
  | .reading => 3 * s.tasks.length + 1
  | .running _ => 3 * s.tasks.length + 3
  | .left => 0

/-- A step of the worker is one of these, and a task makes three more. -/
theorem remaining_step {e : Event ι α} (taken : Step s e t) :
    t.remaining + e.isWorker.toNat ≤ s.remaining + 3 * e.isAppend.toNat := by
  cases taken with
  | append =>
      simp only [remaining, move, List.length_append, List.length_singleton]
      cases s.worker <;> simp only [Event.isWorker, Event.isAppend, Bool.toNat_true,
        Bool.toNat_false] <;> omega
  | take taking => simp [remaining, taking, Event.isWorker, Event.isAppend]
  | read reading _ queue =>
      simp only [remaining, reading, queue, Event.isWorker, Event.isAppend, Bool.toNat_true,
        Bool.toNat_false, List.length_cons]
      omega
  | finish running => simp [remaining, running, Event.isWorker, Event.isAppend]
  | leave reading _ empty => simp [remaining, reading, Event.isWorker, Event.isAppend]
  | _ => exact le_refl _

/-- The run lemma. -/
theorem remaining_run {more : List (Event ι α)} (run : Run Step anyStep s more t) :
    t.remaining + more.countP Event.isWorker ≤
      s.remaining + 3 * more.countP Event.isAppend := by
  induction run with
  | refl => exact le_refl _
  | @snoc events middle target e _ _ taken ih =>
      have step := remaining_step taken
      rw [List.countP_append, List.countP_append, List.countP_singleton, List.countP_singleton]
      cases isWorker : e.isWorker <;> cases isAppend : e.isAppend <;>
        simp only [isWorker, isAppend, Bool.toNat_true, Bool.toNat_false, if_true,
          Bool.false_eq_true, if_false] at step ⊢ <;> omega

/-- The producers of the set that are past their test. -/
def testedIn (s : ThreadPool ι α) (past : Finset ι) : Finset ι :=
  past.filter fun p => (s.producers p).isTested = true

/-- All producers past their test are in the set. -/
def TestedWithin (s : ThreadPool ι α) (past : Finset ι) : Prop :=
  ∀ p t, s.producers p = .tested t → p ∈ past

/-- With `m_run` cleared no producer passes the test, and one of those that have passed it
appends. -/
theorem tested_step {e : Event ι α} {past : Finset ι} (stopped : s.mRun = false)
    (within : s.TestedWithin past) (taken : Step s e t) :
    t.mRun = false ∧ t.TestedWithin past ∧
      (t.testedIn past).card + e.isAppend.toNat ≤ (s.testedIn past).card := by
  cases taken with
  | accept _ running => cases stopped.symm.trans running
  | @append _ p u tested =>
      have others : ∀ q, q ≠ p → (s.move p (.appended u)).producers q = s.producers q :=
        fun q other => Function.update_of_ne other ..
      have self : (s.move p (.appended u)).producers p = .appended u := Function.update_self ..
      refine ⟨stopped, ?_, ?_⟩
      · intro q v here
        rcases producers_move here with ⟨-, isTested⟩ | ⟨-, before⟩
        · cases isTested
        · exact within q v before
      · have erased : (s.move p (.appended u)).testedIn past = (s.testedIn past).erase p := by
          ext q
          rw [testedIn, testedIn, Finset.mem_erase, Finset.mem_filter, Finset.mem_filter]
          by_cases same : q = p
          · subst same
            simp [self, Producer.isTested]
          · simp [others q same, same]
        have member : p ∈ s.testedIn past := by
          rw [testedIn, Finset.mem_filter, tested]
          exact ⟨within p u tested, rfl⟩
        have card := Finset.card_erase_add_one member
        rw [← erased] at card
        exact card.le
  | @give _ p u appended =>
      refine ⟨stopped, ?_, ?_⟩
      · intro q v here
        rcases producers_move here with ⟨-, isTested⟩ | ⟨-, before⟩
        · cases isTested
        · exact within q v before
      · have same : (s.move p .idle).testedIn past = s.testedIn past := by
          apply Finset.filter_congr
          intro q _
          by_cases same : q = p
          · subst same
            have self : (s.move q .idle).producers q = .idle := Function.update_self ..
            rw [self, appended]
            simp [Producer.isTested]
          · have kept : (s.move p .idle).producers q = s.producers q :=
              Function.update_of_ne same ..
            rw [kept]
        exact (congrArg Finset.card same).le
  | clear => exact ⟨rfl, within, le_refl _⟩
  | _ => exact ⟨stopped, within, le_refl _⟩

theorem tested_run {more : List (Event ι α)} {past : Finset ι} (stopped : s.mRun = false)
    (within : s.TestedWithin past) (run : Run Step anyStep s more t) :
    t.mRun = false ∧ t.TestedWithin past ∧
      (t.testedIn past).card + more.countP Event.isAppend ≤ (s.testedIn past).card := by
  induction run with
  | refl => exact ⟨stopped, within, le_refl _⟩
  | @snoc events middle target e _ _ taken ih =>
      obtain ⟨stopped', within', card⟩ := ih
      obtain ⟨stopped'', within'', step⟩ := tested_step stopped' within' taken
      refine ⟨stopped'', within'', ?_⟩
      rw [List.countP_append, List.countP_singleton]
      cases isAppend : e.isAppend <;> simp only [isAppend, Bool.toNat_true, Bool.toNat_false,
        if_true, Bool.false_eq_true, if_false] at step ⊢ <;> omega

theorem Sound.leaves (sound : s.Sound) : s.Leaves := by
  constructor
  · exact sound.goesOn
  · intro more t run
    have bound := remaining_run run
    have start : s.remaining ≤ 3 * s.tasks.length + 3 := by
      rw [remaining]
      cases s.worker <;> dsimp only <;> omega
    omega
  · intro stopped past within more t run
    have card := (tested_run stopped within run).2.2
    have bound := Finset.card_filter_le past fun p => (s.producers p).isTested = true
    rw [testedIn, testedIn] at card
    omega

/-- In every run in which no producer is between its test and its append when the worker
leaves, the tasks that are accepted are run in order, each once, and the worker leaves when all
have been run. -/
theorem runs_accepted_of_guarded {events : List (Event ι α)}
    (run : Run Step Guard init events s) : s.RunsAccepted ∧ s.Leaves := by
  have sound := sound_of_guarded run
  exact ⟨sound.runsAccepted, sound.leaves⟩

/-! ## Runs -/

/-- Two producers are past their test, and one of them appends its task after the stop has
begun. -/
def runsTasks : List (Event Bool Nat) :=
  [.test false 7, .test true 8, .append true, .give true, .clear, .append false, .give false,
    .signal, .take, .read, .finish, .take, .read, .finish, .take, .leave]

theorem runs_accepted_of_guarded_task :
    ∃ s : ThreadPool Bool Nat, Run Step Guard init runsTasks s ∧ s.worker = .left ∧
      s.ran = [8, 7] ∧ s.RunsAccepted ∧ s.Leaves := by
  have noneTested {s : ThreadPool Bool Nat} (idle : ∀ p, s.producers p = .idle) :
      Guard s .leave := by
    intro p t
    rw [idle p]
    simp
  have run : ∃ s : ThreadPool Bool Nat, Run Step Guard init runsTasks s ∧ s.worker = .left ∧
      s.ran = [8, 7] :=
    ⟨_, Run.cons trivial (.accept rfl rfl) <| Run.cons trivial (.accept rfl rfl) <|
      Run.cons trivial (.append (t := 8) rfl rfl) <| Run.cons trivial (.give (t := 8) rfl) <|
      Run.cons trivial (.clear rfl) <|
      Run.cons trivial (.append (t := 7) rfl rfl) <| Run.cons trivial (.give (t := 7) rfl) <|
      Run.cons trivial (.signal rfl) <|
      Run.cons trivial (.take rfl rfl) <| Run.cons trivial (.read rfl rfl rfl) <|
      Run.cons trivial (.finish rfl) <|
      Run.cons trivial (.take rfl rfl) <| Run.cons trivial (.read rfl rfl rfl) <|
      Run.cons trivial (.finish rfl) <|
      Run.cons trivial (.take rfl rfl) <|
      Run.single (noneTested fun p => by cases p <;> rfl) (.leave rfl rfl rfl), rfl, rfl⟩
  obtain ⟨s, run, left, ran⟩ := run
  exact ⟨s, run, left, ran, runs_accepted_of_guarded run⟩

/-- The task is appended after the worker has left with the token of the stop. -/
def losesTask : List (Event Unit Nat) :=
  [.test () 7, .clear, .signal, .take, .leave, .append (), .give ()]

/-- `addTask` returns `0`, and the task is never run. -/
theorem accepted_task_is_lost :
    ∃ s : ThreadPool Unit Nat, Run Step anyStep init losesTask s ∧ s.worker = .left ∧
      s.accepted = [7] ∧ s.ran = [] ∧ ¬ s.RunsAccepted := by
  have run : ∃ s : ThreadPool Unit Nat, Run Step anyStep init losesTask s ∧ s.worker = .left ∧
      s.accepted = [7] ∧ s.ran = [] :=
    ⟨_, Run.cons trivial (.accept rfl rfl) <| Run.cons trivial (.clear rfl) <|
      Run.cons trivial (.signal rfl) <| Run.cons trivial (.take rfl rfl) <|
      Run.cons trivial (.leave rfl rfl rfl) <| Run.cons trivial (.append (t := 7) rfl rfl) <|
      Run.single trivial (.give (t := 7) rfl), rfl, rfl, rfl⟩
  obtain ⟨s, run, left, accepted, ran⟩ := run
  refine ⟨s, run, left, accepted, ran, fun runs => ?_⟩
  have all := runs.all left
  rw [accepted, ran] at all
  cases all

end ThreadPool

end GPush.Utility
