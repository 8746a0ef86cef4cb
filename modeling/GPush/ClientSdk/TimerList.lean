import GPush.ClientSdk.Timers
import GPush.Containers.Ordered
import GPush.Transition.Run
import Mathlib.Data.List.Perm.Basic
import Mathlib.Data.List.TakeWhile

/-!
# The table of timers

The key of a timer holds an id and a deadline, and is compared by the deadline alone.  The map
keeps the operation that it has for a deadline, and the one to be inserted is dropped.
-/

namespace GPush.ClientSdk

open GPush.LoopBuf GPush.Transition

/-- An operation with its `TimerKey`: a number of its own, and how many calls of `processTimers`
there had been when it was added. -/
structure Timer where
  num : Nat
  id : Bytes
  deadline : Timeval
  born : Nat
  deriving DecidableEq, Repr

/-- `TimerKey::operator <`. -/
def Timer.less (key right : Timer) : Prop := tvCmp key.deadline right.deadline < 0

instance (key right : Timer) : Decidable (key.less right) := Int.decLt _ _

/-- The loop of `processTimers` goes on with a timer. -/
def Timer.isDue (tnow : Timeval) (t : Timer) : Bool := decide (tvCmp t.deadline tnow ≤ 0)

/-- `m_timers`, and the operations that a call of `processTimers` has still to call back.  Then
the times of the calls of `processTimers`, the operations that were added, those that `popTimer`
returned with the ids that were asked for, and those that were called back with the numbers of
the calls that found them due. -/
structure TimerList where
  timers : List Timer
  ops : List Timer
  calls : List Timeval
  added : List Timer
  popped : List (Bytes × Timer)
  fired : List (Nat × Timer)
  deriving DecidableEq, Repr

namespace TimerList

/-- `std::map::insert`, which leaves a key alone that is there already. -/
def insert (t : Timer) : List Timer → List Timer
  | [] => [t]
  | u :: rest =>
      if t.less u then t :: u :: rest else if u.less t then u :: insert t rest else u :: rest

/-- What happens.  A callback may add and pop timers. -/
inductive Event
  | addTimer (id : Bytes) (deadline : Timeval)
  | popTimer (id : Bytes)
  | processTimers (tnow : Timeval)
  | onTimeout

/-- A connection without timers. -/
def init : TimerList := ⟨[], [], [], [], [], []⟩

/-- The timer that `addTimer` makes. -/
def make (s : TimerList) (id : Bytes) (deadline : Timeval) : Timer :=
  ⟨s.added.length, id, deadline, s.calls.length⟩

/-- The step relation.  `popTimer` looks for the id from the last timer on. -/
inductive Step : LTS TimerList Event
  | addTimer {s : TimerList} {id : Bytes} {deadline : Timeval} :
      Step s (.addTimer id deadline) { s with
        timers := insert (s.make id deadline) s.timers
        added := s.added ++ [s.make id deadline] }
  | pop {s : TimerList} {id : Bytes} {t : Timer} :
      s.timers.reverse.find? (fun t => t.id = id) = some t →
      Step s (.popTimer id) { s with
        timers := (s.timers.reverse.eraseP fun t => t.id = id).reverse
        popped := s.popped ++ [(id, t)] }
  | miss {s : TimerList} {id : Bytes} :
      s.timers.reverse.find? (fun t => t.id = id) = none → Step s (.popTimer id) s
  | processTimers {s : TimerList} {tnow : Timeval} : s.ops = [] →
      Step s (.processTimers tnow) { s with
        timers := s.timers.dropWhile (Timer.isDue tnow)
        ops := s.timers.takeWhile (Timer.isDue tnow)
        calls := s.calls ++ [tnow] }
  | onTimeout {s : TimerList} {t : Timer} {rest : List Timer} : s.ops = t :: rest →
      Step s .onTimeout { s with
        ops := rest
        fired := s.fired ++ [(s.calls.length - 1, t)] }

/-- No timer that is added has the deadline of one that is pending. -/
def Guard (s : TimerList) : Event → Prop
  | .addTimer _ deadline => ∀ t ∈ s.timers, t.deadline ≠ deadline
  | _ => True

/-- The calls of `processTimers` before the `n`th one that there were since the timer was added
came before its deadline. -/
def Waits (s : TimerList) (t : Timer) (n : Nat) : Prop :=
  ∀ k tnow, t.born ≤ k → k < n → s.calls[k]? = some tnow → t.isDue tnow = false

/-- The `n`th call of `processTimers` was the first that found the timer due. -/
def Due (s : TimerList) (t : Timer) (n : Nat) : Prop :=
  t.born ≤ n ∧ (∃ tnow, s.calls[n]? = some tnow ∧ t.isDue tnow = true) ∧ s.Waits t n

/-- Between two calls every operation that was added has been returned for its id, has been
called back by the first call that found it due, or is pending, once and in one way. -/
structure Accounted (s : TimerList) : Prop where
  distinct : s.added.Nodup
  once : s.ops = [] →
    (s.popped.map Prod.snd ++ s.fired.map Prod.snd ++ s.timers).Perm s.added
  popped : ∀ entry ∈ s.popped, entry.1 = entry.2.id
  fired : ∀ entry ∈ s.fired, s.Due entry.2 entry.1
  pending : ∀ t ∈ s.timers, s.Waits t s.calls.length

/-! ## The order of the keys -/

theorem less_iff {t u : Timer} : t.less u ↔ t.deadline.sec < u.deadline.sec ∨
    t.deadline.sec = u.deadline.sec ∧ t.deadline.usec < u.deadline.usec := by
  rw [Timer.less, tvCmp]
  split_ifs <;> omega

theorem less_trans {t u v : Timer} (first : t.less u) (second : u.less v) : t.less v := by
  rw [less_iff] at first second ⊢
  omega

/-- Timers with different deadlines are ordered. -/
theorem less_or_less {t u : Timer} (other : t.deadline ≠ u.deadline) : t.less u ∨ u.less t := by
  rw [less_iff, less_iff]
  have components : t.deadline.sec ≠ u.deadline.sec ∨ t.deadline.usec ≠ u.deadline.usec := by
    by_contra same
    rw [not_or, not_not, not_not] at same
    apply other
    cases first : t.deadline
    cases second : u.deadline
    rw [first, second] at same
    simpa using same
  omega

/-- What comes after a timer that is not due is not due either. -/
theorem not_isDue_of_less {t u : Timer} {tnow : Timeval} (less : t.less u)
    (notDue : t.isDue tnow = false) : u.isDue tnow = false := by
  rw [less_iff] at less
  rw [Timer.isDue, decide_eq_false_iff_not, tvCmp_nonpos_iff] at notDue ⊢
  omega

/-! ## The operations on the map -/

theorem mem_insert {t u : Timer} {timers : List Timer} (member : u ∈ insert t timers) :
    u = t ∨ u ∈ timers := by
  induction timers with
  | nil => exact Or.inl (List.mem_singleton.mp member)
  | cons v rest ih =>
      rw [insert] at member
      split_ifs at member
      · exact List.mem_cons.mp member
      · rcases List.mem_cons.mp member with rfl | later
        · exact Or.inr List.mem_cons_self
        · exact (ih later).imp_right (List.mem_cons_of_mem v)
      · exact Or.inr member

theorem insert_ordered {timers : List Timer} (ordered : timers.Pairwise Timer.less) (t : Timer) :
    (insert t timers).Pairwise Timer.less := by
  induction timers with
  | nil => exact List.pairwise_singleton _ _
  | cons u rest ih =>
      rcases List.pairwise_cons.mp ordered with ⟨before, restOrdered⟩
      rw [insert]
      split_ifs with isLess isGreater
      · refine List.pairwise_cons.mpr ⟨fun v member => ?_, ordered⟩
        rcases List.mem_cons.mp member with rfl | later
        · exact isLess
        · exact less_trans isLess (before v later)
      · refine List.pairwise_cons.mpr ⟨fun v member => ?_, ih restOrdered⟩
        rcases mem_insert member with rfl | later
        · exact isGreater
        · exact before v later
      · exact ordered

/-- With a deadline of its own the timer is inserted. -/
theorem insert_perm {t : Timer} {timers : List Timer}
    (distinct : ∀ u ∈ timers, u.deadline ≠ t.deadline) :
    (insert t timers).Perm (t :: timers) := by
  induction timers with
  | nil => exact List.Perm.refl _
  | cons u rest ih =>
      rw [List.forall_mem_cons] at distinct
      rw [insert]
      split_ifs with isLess isGreater
      · exact List.Perm.refl _
      · exact ((ih distinct.2).cons u).trans (List.Perm.swap t u rest)
      · rcases less_or_less distinct.1 with greater | less
        · exact absurd greater isGreater
        · exact absurd less isLess

/-- `popTimer` takes the timer that it returns out of the map. -/
theorem pop_perm {id : Bytes} {t : Timer} {timers : List Timer}
    (found : timers.reverse.find? (fun t => t.id = id) = some t) :
    timers.Perm (t :: (timers.reverse.eraseP fun t => t.id = id).reverse) := by
  have perm := Containers.perm_of_find? found
  exact (List.reverse_perm timers).symm.trans (perm.trans ((List.reverse_perm _).symm.cons t))

/-- The timers behind the first one that is not due are not due. -/
theorem not_isDue_of_mem_dropWhile {tnow : Timeval} {timers : List Timer}
    (ordered : timers.Pairwise Timer.less) :
    ∀ t ∈ timers.dropWhile (Timer.isDue tnow), t.isDue tnow = false := by
  induction timers with
  | nil => simp
  | cons u rest ih =>
      rcases List.pairwise_cons.mp ordered with ⟨before, restOrdered⟩
      cases isDue : u.isDue tnow with
      | true =>
          rw [List.dropWhile_cons_of_pos isDue]
          exact ih restOrdered
      | false =>
          rw [List.dropWhile_cons_of_neg (by simp [isDue])]
          intro t member
          rcases List.mem_cons.mp member with rfl | later
          · exact isDue
          · exact not_isDue_of_less (before t later) isDue

/-! ## The invariant -/

/-- The invariant. -/
structure Sound (s : TimerList) : Prop where
  ordered : s.timers.Pairwise Timer.less
  once : (s.popped.map Prod.snd ++ s.fired.map Prod.snd ++ s.ops ++ s.timers).Perm s.added
  nums : s.added.map Timer.num = List.range s.added.length
  popped : ∀ entry ∈ s.popped, entry.1 = entry.2.id
  fired : ∀ entry ∈ s.fired, s.Due entry.2 entry.1
  ops : ∀ t ∈ s.ops, s.Due t (s.calls.length - 1)
  born : ∀ t ∈ s.timers, t.born ≤ s.calls.length
  pending : ∀ t ∈ s.timers, s.Waits t s.calls.length

variable {s t : TimerList}

/-- A further call changes nothing about the calls before. -/
theorem waits_append {u : Timer} {n : Nat} (waits : s.Waits u n) (inside : n ≤ s.calls.length)
    {next : TimerList} {tnow : Timeval} (calls : next.calls = s.calls ++ [tnow]) :
    next.Waits u n := by
  intro k time after before found
  rw [calls, List.getElem?_append_left (by omega)] at found
  exact waits k time after before found

theorem due_append {u : Timer} {n : Nat} (due : s.Due u n) {next : TimerList} {tnow : Timeval}
    (calls : next.calls = s.calls ++ [tnow]) : next.Due u n := by
  obtain ⟨born, ⟨time, found, isDue⟩, waits⟩ := due
  have inside := (List.getElem?_eq_some_iff.mp found).1
  refine ⟨born, ⟨time, ?_, isDue⟩, waits_append waits (Nat.le_of_lt inside) calls⟩
  rw [calls, List.getElem?_append_left inside]
  exact found

theorem sound_init : init.Sound := by
  constructor <;> simp [init]

namespace Sound

theorem addTimer (sound : s.Sound) {id : Bytes} {deadline : Timeval}
    (distinct : ∀ t ∈ s.timers, t.deadline ≠ deadline) :
    Sound { s with
      timers := insert (s.make id deadline) s.timers
      added := s.added ++ [s.make id deadline] } := by
  have inserted := insert_perm (t := s.make id deadline) distinct
  refine ⟨insert_ordered sound.ordered _, ?_, ?_, sound.popped, sound.fired, sound.ops, ?_, ?_⟩
  · have moved := (inserted.append_left
      (s.popped.map Prod.snd ++ s.fired.map Prod.snd ++ s.ops)).trans List.perm_middle
    exact moved.trans ((sound.once.cons _).trans (List.perm_append_singleton _ _).symm)
  · rw [List.map_append, sound.nums, List.length_append, List.length_singleton, List.range_succ]
    rfl
  · intro t member
    rcases mem_insert member with rfl | old
    · exact Nat.le_refl _
    · exact sound.born t old
  · intro t member
    rcases mem_insert member with rfl | old
    · intro k tnow after before
      exact absurd before (Nat.not_lt.mpr after)
    · exact sound.pending t old

theorem pop (sound : s.Sound) {id : Bytes} {t : Timer}
    (found : s.timers.reverse.find? (fun t => t.id = id) = some t) :
    Sound { s with
      timers := (s.timers.reverse.eraseP fun t => t.id = id).reverse
      popped := s.popped ++ [(id, t)] } := by
  have perm := pop_perm found
  have sublist : (s.timers.reverse.eraseP fun t => t.id = id).reverse.Sublist s.timers := by
    have erased := (List.eraseP_sublist (p := fun t : Timer => decide (t.id = id))
      (l := s.timers.reverse)).reverse
    rwa [List.reverse_reverse] at erased
  refine ⟨sound.ordered.sublist sublist, ?_, sound.nums, ?_, sound.fired, sound.ops,
    fun u member => sound.born u (sublist.subset member),
    fun u member => sound.pending u (sublist.subset member)⟩
  · refine List.Perm.trans ?_ sound.once
    have moved := (perm.append_left
      (s.popped.map Prod.snd ++ s.fired.map Prod.snd ++ s.ops)).trans List.perm_middle
    refine List.Perm.trans ?_ moved.symm
    simp only [List.map_append, List.map_cons, List.map_nil, List.append_assoc,
      List.singleton_append]
    exact List.perm_middle
  · intro entry member
    rcases List.mem_append.mp member with old | new
    · exact sound.popped entry old
    · rw [List.mem_singleton.mp new]
      have isAsked := List.find?_some found
      exact (of_decide_eq_true isAsked).symm

theorem processTimers (sound : s.Sound) {tnow : Timeval} (idle : s.ops = []) :
    Sound { s with
      timers := s.timers.dropWhile (Timer.isDue tnow)
      ops := s.timers.takeWhile (Timer.isDue tnow)
      calls := s.calls ++ [tnow] } := by
  have later := List.dropWhile_sublist (Timer.isDue tnow) (l := s.timers)
  refine ⟨sound.ordered.sublist later, ?_, sound.nums, sound.popped,
    fun entry member => due_append (sound.fired entry member) rfl, ?_, ?_, ?_⟩
  · have once := sound.once
    rw [idle, List.append_nil] at once
    rw [List.append_assoc _ (s.timers.takeWhile _), List.takeWhile_append_dropWhile]
    exact once
  · intro t member
    have isOld := (List.takeWhile_sublist _).subset member
    rw [List.length_append, List.length_singleton, Nat.add_sub_cancel]
    refine ⟨sound.born t isOld, ⟨tnow, ?_, List.mem_takeWhile_imp member⟩,
      waits_append (sound.pending t isOld) (Nat.le_refl _) rfl⟩
    rw [List.getElem?_append_right (Nat.le_refl _), Nat.sub_self]
    rfl
  · intro t member
    rw [List.length_append]
    exact Nat.le_trans (sound.born t (later.subset member)) (Nat.le_add_right _ _)
  · intro t member k time after before found
    rw [List.length_append, List.length_singleton] at before
    rcases Nat.lt_or_ge k s.calls.length with earlier | now
    · rw [List.getElem?_append_left earlier] at found
      exact sound.pending t (later.subset member) k time after earlier found
    · obtain rfl : k = s.calls.length := by omega
      rw [List.getElem?_append_right now, Nat.sub_self] at found
      obtain rfl : tnow = time := Option.some.inj found
      exact not_isDue_of_mem_dropWhile sound.ordered t member

theorem onTimeout (sound : s.Sound) {t : Timer} {rest : List Timer} (ops : s.ops = t :: rest) :
    Sound { s with
      ops := rest
      fired := s.fired ++ [(s.calls.length - 1, t)] } := by
  refine ⟨sound.ordered, ?_, sound.nums, sound.popped, ?_, ?_, sound.born, sound.pending⟩
  · have once := sound.once
    rw [ops] at once
    simpa using once
  · intro entry member
    rcases List.mem_append.mp member with old | new
    · exact sound.fired entry old
    · rw [List.mem_singleton.mp new]
      exact sound.ops t (by rw [ops]; exact List.mem_cons_self)
  · intro u member
    exact sound.ops u (by rw [ops]; exact List.mem_cons_of_mem t member)

/-- The step lemma. -/
theorem step {e : Event} (sound : s.Sound) (guarded : s.Guard e) (taken : Step s e t) :
    t.Sound := by
  cases taken with
  | addTimer => exact sound.addTimer guarded
  | pop found => exact sound.pop found
  | miss => exact sound
  | processTimers idle => exact sound.processTimers idle
  | onTimeout ops => exact sound.onTimeout ops

theorem accounted (sound : s.Sound) : s.Accounted := by
  refine ⟨?_, ?_, sound.popped, sound.fired, sound.pending⟩
  · apply List.Nodup.of_map Timer.num
    rw [sound.nums]
    exact List.nodup_range
  · intro idle
    have once := sound.once
    rwa [idle, List.append_nil] at once

end Sound

/-- In every run in which no timer is added with the deadline of one that is pending, no
operation is lost. -/
theorem accounted_of_guarded {events : List Event} (run : Run Step Guard init events s) :
    s.Accounted := by
  have sound : s.Sound := run.invariant sound_init fun _ _ _ sound guarded taken =>
    sound.step guarded taken
  exact sound.accounted

/-! ## Two timers -/

/-- Two operations with deadlines one second apart, and a call when the first is due. -/
def twoTimers : List Event :=
  [.addTimer [49] ⟨10, 0⟩, .addTimer [50] ⟨11, 0⟩, .processTimers ⟨10, 5⟩, .onTimeout,
    .popTimer [50]]

theorem accounted_of_guarded_two :
    ∃ s, Run Step Guard init twoTimers s ∧ s.ops = [] ∧ s.added.length = 2 ∧
      s.popped.length = 1 ∧ s.fired.length = 1 ∧ s.Accounted := by
  have run : ∃ s, Run Step Guard init twoTimers s ∧ s.ops = [] ∧ s.added.length = 2 ∧
      s.popped.length = 1 ∧ s.fired.length = 1 :=
    ⟨_, Run.cons (fun _ member => absurd member List.not_mem_nil) .addTimer <|
      Run.cons (show ∀ t ∈ [(⟨0, [49], ⟨10, 0⟩, 0⟩ : Timer)], t.deadline ≠ ⟨11, 0⟩ by decide)
        .addTimer <| Run.cons trivial (.processTimers rfl) <|
      Run.cons trivial (.onTimeout rfl) <|
      Run.single trivial (.pop (t := ⟨1, [50], ⟨11, 0⟩, 0⟩) rfl), rfl, rfl, rfl, rfl⟩
  obtain ⟨s, run, idle, added, popped, fired⟩ := run
  exact ⟨s, run, idle, added, popped, fired, accounted_of_guarded run⟩

/-- Two operations with the same deadline. -/
def sameDeadline : List Event := [.addTimer [49] ⟨10, 0⟩, .addTimer [50] ⟨10, 0⟩]

/-- The second operation is nowhere. -/
theorem timer_is_lost :
    ∃ s, Run Step anyStep init sameDeadline s ∧ s.ops = [] ∧ s.added.length = 2 ∧
      s.timers.length = 1 ∧ s.popped = [] ∧ s.fired = [] ∧ ¬ s.Accounted := by
  have run : ∃ s, Run Step anyStep init sameDeadline s ∧ s.ops = [] ∧ s.added.length = 2 ∧
      s.timers.length = 1 ∧ s.popped = [] ∧ s.fired = [] :=
    ⟨_, Run.cons trivial .addTimer <| Run.single trivial .addTimer, rfl, rfl, rfl, rfl, rfl⟩
  obtain ⟨s, run, idle, added, timers, popped, fired⟩ := run
  refine ⟨s, run, idle, added, timers, popped, fired, fun accounted => ?_⟩
  have lengths := (accounted.once idle).length_eq
  rw [popped, fired] at lengths
  simp [timers, added] at lengths

end TimerList

end GPush.ClientSdk
