import GPush.EventLoop.TimerSet

/-!
# The timer sets stay in step

A timer is in the set of its loop exactly when it is started and its connection is
alive and owns it.  Inside a call one timer may be held out of the sets; its deadline
and its status change only then.
-/

namespace GPush.EventLoop.TimerSet

open GPush.Containers

/-! ## The invariant -/

/-- The sets agree with the statuses and the owners, but for a timer `out` that is held
out of them. -/
structure Sound (out : Option Nat) (s : State) : Prop where
  inOrder : ∀ l, PointerSet.InOrder Timer.Less s.key (s.timerMap l)
  mem_iff : ∀ l a, a ∈ s.timerMap l ↔ s.Armed l a ∧ out ≠ some a
  owned : ∀ c con, s.cons c = some con → ∀ id a, (id, a) ∈ con.timers →
    ∃ tm, s.heap a = some tm ∧ tm.con = c ∧ tm.id = id
  detached : ∀ c con, s.cons c = some con → con.evlp = none → con.timers = []

theorem sound_initial : Sound none State.initial where
  inOrder _ := List.Pairwise.nil
  mem_iff l a := by
    constructor
    · intro member
      cases member
    · rintro ⟨⟨tm, heapEq, _⟩, _⟩
      cases heapEq
  owned c con consEq := by cases consEq
  detached c con consEq := by cases consEq

theorem Connection.mem_of_getTimer {con : Connection} {id : Int} {a : Nat}
    (found : con.getTimer id = some a) : (id, a) ∈ con.timers := by
  obtain ⟨⟨id', a'⟩, entryFound, rfl⟩ := Option.map_eq_some_iff.mp found
  have sameId := List.find?_some entryFound
  simp only [decide_eq_true_eq] at sameId
  exact sameId ▸ List.mem_of_find?_eq_some entryFound

theorem Connection.notMem_of_getTimer {con : Connection} {id : Int}
    (missing : con.getTimer id = none) : id ∉ con.timers.map Prod.fst := by
  intro member
  obtain ⟨entry, entryMem, rfl⟩ := List.mem_map.mp member
  have none := List.find?_eq_none.mp (Option.map_eq_none_iff.mp missing) entry entryMem
  simp at none

/-- A connection runs on one loop. -/
theorem State.Owns.loop_unique {s : State} {l l' c a a' : Nat} {id id' : Int}
    (owns : s.Owns l c id a) (owns' : s.Owns l' c id' a') : l = l' := by
  obtain ⟨con, consEq, evlpEq, _⟩ := owns
  obtain ⟨con', consEq', evlpEq', _⟩ := owns'
  cases consEq.symm.trans consEq'
  exact Option.some.inj (evlpEq.symm.trans evlpEq')

namespace Sound

variable {s : State} {out : Option Nat} {l c a : Nat} {id : Int}

theorem notMem (sound : Sound (some a) s) (l : Nat) : a ∉ s.timerMap l :=
  fun member => ((sound.mem_iff l a).mp member).2 rfl

theorem ne_of_mem (sound : Sound (some a) s) {b : Nat} (member : b ∈ s.timerMap l) : b ≠ a := by
  rintro rfl
  exact sound.notMem l member

/-- A timer has one owner. -/
theorem owner (sound : Sound out s) (owns : s.Owns l c id a) :
    ∃ tm, s.heap a = some tm ∧ tm.con = c ∧ tm.id = id := by
  obtain ⟨con, consEq, _, member⟩ := owns
  exact sound.owned c con consEq id a member

/-- A timer that is not started can be put back by doing nothing. -/
theorem release (sound : Sound (some a) s) (idle : s.started a = false) : Sound none s where
  inOrder := sound.inOrder
  mem_iff l b := by
    rw [sound.mem_iff]
    constructor
    · rintro ⟨armed, _⟩
      exact ⟨armed, by simp⟩
    · rintro ⟨armed, _⟩
      refine ⟨armed, ?_⟩
      intro same
      obtain rfl := Option.some.inj same
      obtain ⟨tm, heapEq, started, _⟩ := armed
      simp [State.started, heapEq, started] at idle
  owned := sound.owned
  detached := sound.detached

/-- A timer that is not started can be held out. -/
theorem hold (sound : Sound none s) (idle : s.started a = false) : Sound (some a) s where
  inOrder := sound.inOrder
  mem_iff l b := by
    rw [sound.mem_iff]
    constructor
    · rintro ⟨armed, _⟩
      refine ⟨armed, ?_⟩
      intro same
      obtain rfl := Option.some.inj same
      obtain ⟨tm, heapEq, started, _⟩ := armed
      simp [State.started, heapEq, started] at idle
    · rintro ⟨armed, _⟩
      exact ⟨armed, by simp⟩
  owned := sound.owned
  detached := sound.detached

end Sound

/-! ## Statements that change a timer -/

/-- The state with the timer at `a` changed. -/
def State.alter (s : State) (a : Nat) (change : ConnectionTimer → ConnectionTimer) : State :=
  { s with heap := Function.update s.heap a ((s.heap a).map change) }

/-- The change keeps the owner. -/
def KeepsOwner (change : ConnectionTimer → ConnectionTimer) : Prop :=
  ∀ tm, (change tm).con = tm.con ∧ (change tm).id = tm.id

section Alter

variable {s : State} {a b l : Nat} {change : ConnectionTimer → ConnectionTimer}

theorem alter_heap_of_ne (distinct : b ≠ a) : (s.alter a change).heap b = s.heap b :=
  Function.update_of_ne distinct _ _

theorem timeoutTime_congr {t : State} (same : t.heap b = s.heap b) :
    t.timeoutTime b = s.timeoutTime b :=
  congrArg (Option.map _) same

theorem key_congr {t : State} (same : t.heap b = s.heap b) : t.key b = s.key b := by
  rw [State.key, timeoutTime_congr same, State.key]

theorem alter_armed_of_ne (distinct : b ≠ a) : (s.alter a change).Armed l b ↔ s.Armed l b := by
  rw [State.Armed, alter_heap_of_ne distinct]
  rfl

theorem Sound.alter (sound : Sound (some a) s) (keeps : KeepsOwner change) :
    Sound (some a) (s.alter a change) where
  inOrder l := by
    apply (sound.inOrder l).congr
    intro b member
    exact key_congr (alter_heap_of_ne (sound.ne_of_mem member))
  mem_iff l b := by
    by_cases same : b = a
    · simp [same, State.alter, sound.notMem l]
    · rw [alter_armed_of_ne same]
      exact sound.mem_iff l b
  owned c con consEq id b member := by
    obtain ⟨tm, heapEq, rfl, rfl⟩ := sound.owned c con consEq id b member
    by_cases same : b = a
    · subst same
      refine ⟨change tm, ?_, keeps tm⟩
      simp [State.alter, heapEq]
    · exact ⟨tm, (alter_heap_of_ne same).trans heapEq, rfl, rfl⟩
  detached := sound.detached

end Alter

/-! ## Statements that change a set -/

section Sets

variable {s : State} {l c a : Nat} {id : Int} {as : List Nat}

/-- The state with the set of the loop `l` replaced. -/
def State.setTimers (s : State) (l : Nat) (as : List Nat) : State :=
  { s with timerMap := Function.update s.timerMap l as }

theorem setTimers_self : (s.setTimers l as).timerMap l = as := Function.update_self _ _ _

theorem setTimers_of_ne {l' : Nat} (distinct : l' ≠ l) :
    (s.setTimers l as).timerMap l' = s.timerMap l' :=
  Function.update_of_ne distinct _ _

/-- An owned timer is taken out of the set of its loop. -/
theorem Sound.takeOut (sound : Sound none s) (owns : s.Owns l c id a)
    (inOrder : PointerSet.InOrder Timer.Less s.key as)
    (mem_iff : ∀ b, b ∈ as ↔ b ∈ s.timerMap l ∧ b ≠ a) :
    Sound (some a) (s.setTimers l as) where
  inOrder l' := by
    by_cases same : l' = l
    · subst same
      rw [setTimers_self]
      exact inOrder
    · rw [setTimers_of_ne same]
      exact sound.inOrder l'
  mem_iff l' b := by
    by_cases same : l' = l
    · subst same
      rw [setTimers_self, mem_iff b, sound.mem_iff l' b]
      constructor
      · rintro ⟨⟨armed, _⟩, distinct⟩
        exact ⟨armed, fun isOut => distinct (Option.some.inj isOut).symm⟩
      · rintro ⟨armed, inside⟩
        exact ⟨⟨armed, by simp⟩, fun isOut => inside (congrArg some isOut).symm⟩
    · rw [setTimers_of_ne same, sound.mem_iff l' b]
      constructor
      · rintro ⟨armed, _⟩
        refine ⟨armed, ?_⟩
        intro sameTimer
        obtain rfl := Option.some.inj sameTimer
        obtain ⟨tm, heapEq, _, owns'⟩ := armed
        obtain ⟨tm', heapEq', rfl, _⟩ := sound.owner owns
        cases heapEq.symm.trans heapEq'
        exact same (owns'.loop_unique owns)
      · rintro ⟨armed, _⟩
        exact ⟨armed, by simp⟩
  owned := sound.owned
  detached := sound.detached

theorem Sound.delTimer (sound : Sound none s) (owns : s.Owns l c id a) :
    Sound (some a) (exec s (.delTimer l a)) := by
  apply sound.takeOut owns
  · rw [PointerSet.erase_eq_filter s.key_injective]
    exact (sound.inOrder l).filter _
  · intro b
    rw [PointerSet.erase_eq_filter s.key_injective, List.mem_filter, decide_eq_true_eq]

theorem Sound.eraseFirst (sound : Sound none s) (isFirst : (s.timerMap l).head? = some a) :
    Sound (some a) (exec s (.eraseFirst l)) := by
  obtain ⟨rest, mapEq⟩ := List.head?_eq_some_iff.mp isFirst
  have inOrder := sound.inOrder l
  have member : a ∈ s.timerMap l := List.mem_of_head? isFirst
  obtain ⟨⟨tm, _, _, owns⟩, _⟩ := (sound.mem_iff l a).mp member
  rw [mapEq] at inOrder
  apply sound.takeOut owns
  · rw [mapEq]
    exact (List.pairwise_cons.mp inOrder).2
  · intro b
    rw [mapEq, List.tail_cons, List.mem_cons]
    constructor
    · intro later
      refine ⟨Or.inr later, ?_⟩
      rintro rfl
      exact inOrder.first_notMem later
    · rintro ⟨rfl | later, distinct⟩
      · exact absurd rfl distinct
      · exact later

/-- A started timer is put into the set of its loop. -/
theorem Sound.addTimer (sound : Sound (some a) s) (armed : s.Armed l a) :
    Sound none (exec s (.addTimer l a)) where
  inOrder l' := by
    by_cases same : l' = l
    · subst same
      rw [exec, ← State.setTimers, setTimers_self]
      exact (sound.inOrder l').insert s.key_injective a
    · rw [exec, ← State.setTimers, setTimers_of_ne same]
      exact sound.inOrder l'
  mem_iff l' b := by
    by_cases same : l' = l
    · subst same
      rw [exec, ← State.setTimers, setTimers_self, PointerSet.mem_insert s.key_injective,
        sound.mem_iff l' b]
      constructor
      · rintro (rfl | ⟨armed', _⟩)
        · exact ⟨armed, by simp⟩
        · exact ⟨armed', by simp⟩
      · rintro ⟨armed', _⟩
        by_cases sameTimer : b = a
        · exact Or.inl sameTimer
        · exact Or.inr ⟨armed', fun isOut => sameTimer (Option.some.inj isOut).symm⟩
    · rw [exec, ← State.setTimers, setTimers_of_ne same, sound.mem_iff l' b]
      constructor
      · rintro ⟨armed', _⟩
        exact ⟨armed', by simp⟩
      · rintro ⟨armed', _⟩
        refine ⟨armed', ?_⟩
        intro sameTimer
        obtain rfl := Option.some.inj sameTimer
        obtain ⟨tm, heapEq, _, owns⟩ := armed
        obtain ⟨tm', heapEq', _, owns'⟩ := armed'
        cases heapEq.symm.trans heapEq'
        exact same (owns'.loop_unique owns)
  owned := sound.owned
  detached := sound.detached

end Sets

/-! ## Statements that change a connection -/

section Connections

variable {s : State} {out : Option Nat} {l c a : Nat} {id : Int} {con : Connection}

/-- The state with the connection at `c` replaced. -/
def State.setCon (s : State) (c : Nat) (con : Option Connection) : State :=
  { s with cons := Function.update s.cons c con }

theorem setCon_self {new : Option Connection} : (s.setCon c new).cons c = new :=
  Function.update_self _ _ _

theorem setCon_of_ne {c' : Nat} {new : Option Connection} (distinct : c' ≠ c) :
    (s.setCon c new).cons c' = s.cons c' :=
  Function.update_of_ne distinct _ _

theorem setCon_owns_of_ne {c' : Nat} {new : Option Connection} (distinct : c' ≠ c) :
    (s.setCon c new).Owns l c' id a ↔ s.Owns l c' id a := by
  rw [State.Owns, setCon_of_ne distinct, State.Owns]

theorem Sound.setCon (sound : Sound out s) {new : Option Connection}
    (owns_iff : ∀ l id a, out ≠ some a → ((s.setCon c new).Owns l c id a ↔ s.Owns l c id a))
    (owned : ∀ con, new = some con → ∀ id a, (id, a) ∈ con.timers →
      ∃ tm, s.heap a = some tm ∧ tm.con = c ∧ tm.id = id)
    (detached : ∀ con, new = some con → con.evlp = none → con.timers = []) :
    Sound out (s.setCon c new) where
  inOrder := sound.inOrder
  mem_iff l a := by
    have armed_iff : out ≠ some a → ((s.setCon c new).Armed l a ↔ s.Armed l a) := by
      intro inside
      apply exists_congr
      intro tm
      by_cases same : tm.con = c
      · rw [same, owns_iff l tm.id a inside]
        rfl
      · rw [setCon_owns_of_ne same]
        rfl
    constructor
    · intro member
      obtain ⟨armed, inside⟩ := (sound.mem_iff l a).mp member
      exact ⟨(armed_iff inside).mpr armed, inside⟩
    · rintro ⟨armed, inside⟩
      exact (sound.mem_iff l a).mpr ⟨(armed_iff inside).mp armed, inside⟩
  owned c' con' consEq id a member := by
    by_cases same : c' = c
    · subst same
      rw [setCon_self] at consEq
      exact owned con' consEq id a member
    · rw [setCon_of_ne same] at consEq
      exact sound.owned c' con' consEq id a member
  detached c' con' consEq := by
    by_cases same : c' = c
    · subst same
      rw [setCon_self] at consEq
      exact detached con' consEq
    · rw [setCon_of_ne same] at consEq
      exact sound.detached c' con' consEq

/-- A connection without timers can be constructed, given a loop and destroyed. -/
theorem Sound.setCon_bare (sound : Sound out s) {new : Option Connection}
    (bare : ∀ con, s.cons c = some con → con.timers = [])
    (newBare : ∀ con, new = some con → con.timers = []) : Sound out (s.setCon c new) := by
  apply sound.setCon
  · intro l id a _
    constructor
    · rintro ⟨con, consEq, _, member⟩
      rw [setCon_self] at consEq
      rw [newBare con consEq] at member
      cases member
    · rintro ⟨con, consEq, _, member⟩
      rw [bare con consEq] at member
      cases member
  · intro con newEq id a member
    rw [newBare con newEq] at member
    cases member
  · intro con newEq _
    exact newBare con newEq

/-- A new timer is held out until it is armed. -/
theorem Sound.newTimer (sound : Sound none s) (free : s.heap a = none) :
    Sound (some a) (exec s (.newTimer a c id)) := by
  have outside : ∀ l, a ∉ s.timerMap l := by
    intro l member
    obtain ⟨⟨tm, heapEq, _⟩, _⟩ := (sound.mem_iff l a).mp member
    rw [free] at heapEq
    cases heapEq
  have kept : ∀ b, b ≠ a → (exec s (.newTimer a c id)).heap b = s.heap b :=
    fun b distinct => Function.update_of_ne distinct _ _
  constructor
  · intro l
    apply (sound.inOrder l).congr
    intro b member
    have distinct : b ≠ a := fun same => outside l (same ▸ member)
    exact key_congr (kept b distinct)
  · intro l b
    by_cases same : b = a
    · simp [same, exec, outside l]
    · rw [State.Armed, kept b same]
      have member_iff := sound.mem_iff l b
      simp only [ne_eq, reduceCtorEq, not_false_eq_true, and_true] at member_iff
      constructor
      · intro member
        exact ⟨member_iff.mp member, fun isOut => same (Option.some.inj isOut).symm⟩
      · rintro ⟨armed, _⟩
        exact member_iff.mpr armed
  · intro c' con consEq id' b member
    obtain ⟨tm, heapEq, owner⟩ := sound.owned c' con consEq id' b member
    refine ⟨tm, ?_, owner⟩
    rw [kept b, heapEq]
    rintro rfl
    rw [free] at heapEq
    cases heapEq
  · exact sound.detached

/-- The connection takes the timer that is held out. -/
theorem Sound.putTimer (sound : Sound (some a) s) (consEq : s.cons c = some con)
    (attached : con.evlp = some l) (absent : con.getTimer id = none) {tm : ConnectionTimer}
    (heapEq : s.heap a = some tm) (owner : tm.con = c ∧ tm.id = id) :
    Sound (some a) (exec s (.putTimer c id a)) := by
  have member_iff : ∀ id' b, (id', b) ∈ (con.put id a).timers ↔
      (id', b) = (id, a) ∨ (id', b) ∈ con.timers := by
    intro id' b
    rw [Connection.put, (assign_perm (Connection.notMem_of_getTimer absent)).mem_iff, List.mem_cons]
  apply sound.setCon
  · intro l' id' b inside
    constructor
    · rintro ⟨con', consEq', evlpEq, member⟩
      rw [setCon_self, consEq] at consEq'
      cases consEq'
      rcases (member_iff id' b).mp member with new | old
      · exact absurd (congrArg (some ·.2) new).symm inside
      · exact ⟨con, consEq, evlpEq, old⟩
    · rintro ⟨con', consEq', evlpEq, member⟩
      cases consEq.symm.trans consEq'
      refine ⟨con.put id a, ?_, evlpEq, (member_iff id' b).mpr (Or.inr member)⟩
      rw [setCon_self, consEq]
      rfl
  · intro con' newEq id' b member
    rw [consEq] at newEq
    cases newEq
    rcases (member_iff id' b).mp member with new | old
    · cases new
      exact ⟨tm, heapEq, owner⟩
    · exact sound.owned c con consEq id' b old
  · intro con' newEq evlpEq
    rw [consEq] at newEq
    cases newEq
    cases attached.symm.trans evlpEq

end Connections

/-! ## Steady deadlines -/

/-- The statement leaves alone the deadlines of the timers that are in a set. -/
def Keeps (s : State) (statement : Statement) : Prop :=
  ∀ l, ∀ a ∈ s.timerMap l, (exec s statement).timeoutTime a = s.timeoutTime a

/-- Each statement of a sequence does. -/
def Steady (s : State) : List Statement → Prop
  | [] => True
  | statement :: rest => Keeps s statement ∧ Steady (exec s statement) rest

/-- The sequence is steady and leaves a sound state. -/
def Safe (s : State) (code : List Statement) (out : Option Nat) : Prop :=
  Steady s code ∧ Sound out (execAll s code)

section Safe

variable {s : State} {out : Option Nat} {l c a : Nat} {id : Int}

theorem execAll_append (s : State) (first second : List Statement) :
    execAll s (first ++ second) = execAll (execAll s first) second :=
  List.foldl_append

theorem steady_append {first second : List Statement} (steady : Steady s first)
    (next : Steady (execAll s first) second) : Steady s (first ++ second) := by
  induction first generalizing s with
  | nil => exact next
  | cons statement rest ih => exact ⟨steady.1, ih steady.2 next⟩

theorem Safe.nil (sound : Sound out s) : Safe s [] out := ⟨trivial, sound⟩

theorem Safe.cons {statement : Statement} {rest : List Statement} (keeps : Keeps s statement)
    (safe : Safe (exec s statement) rest out) : Safe s (statement :: rest) out :=
  ⟨⟨keeps, safe.1⟩, safe.2⟩

theorem Safe.append {first second : List Statement} {held : Option Nat}
    (safe : Safe s first held) (next : Sound held (execAll s first) →
      Safe (execAll s first) second out) : Safe s (first ++ second) out := by
  have after := next safe.2
  refine ⟨steady_append safe.1 after.1, ?_⟩
  rw [execAll_append]
  exact after.2

/-- A timer that is held out can be changed. -/
theorem keeps_alter {statement : Statement} {change : ConnectionTimer → ConnectionTimer}
    (sound : Sound (some a) s) (execEq : exec s statement = s.alter a change) :
    Keeps s statement := by
  intro l b member
  rw [execEq]
  exact timeoutTime_congr (alter_heap_of_ne (sound.ne_of_mem member))

theorem keeps_newTimer (sound : Sound none s) (free : s.heap a = none) :
    Keeps s (.newTimer a c id) := by
  intro l b member
  apply timeoutTime_congr
  apply Function.update_of_ne
  rintro rfl
  obtain ⟨⟨tm, heapEq, _⟩, _⟩ := (sound.mem_iff l b).mp member
  rw [free] at heapEq
  cases heapEq

end Safe

/-! ## Clearing the timers of a connection -/

section Clear

variable {s : State} {l c : Nat} {con : Connection}

/-- The state without the timers at `addrs`, which are in no set but that of the loop `l`. -/
def State.drop (s : State) (l : Nat) (addrs : List Nat) : State :=
  { s with
    heap := fun a => if a ∈ addrs then none else s.heap a
    timerMap := Function.update s.timerMap l ((s.timerMap l).filter (· ∉ addrs)) }

theorem drop_self {addrs : List Nat} :
    (s.drop l addrs).timerMap l = (s.timerMap l).filter (· ∉ addrs) :=
  Function.update_self _ _ _

theorem drop_of_ne {l' : Nat} {addrs : List Nat} (distinct : l' ≠ l) :
    (s.drop l addrs).timerMap l' = s.timerMap l' :=
  Function.update_of_ne distinct _ _

/-- One round of `Connection::clearTimer`. -/
theorem exec_deleteTimer (s : State) (l a : Nat) :
    exec (exec s (.delTimer l a)) (.deleteTimer a) = s.drop l [a] := by
  have heapEq : Function.update s.heap a none = fun b => if b ∈ [a] then none else s.heap b := by
    funext b
    by_cases same : b = a
    · simp [same]
    · simp [same]
  simp only [exec, heapEq, PointerSet.erase_eq_filter s.key_injective, State.drop,
    List.mem_singleton]

theorem drop_drop (s : State) (l : Nat) (first second : List Nat) :
    (s.drop l first).drop l second = s.drop l (first ++ second) := by
  have heapEq : (fun a => if a ∈ second then none else if a ∈ first then none else s.heap a) =
      fun a => if a ∈ first ++ second then none else s.heap a := by
    funext a
    by_cases inFirst : a ∈ first
    · simp [inFirst]
    · simp [inFirst]
  simp only [State.drop, heapEq, Function.update_self, Function.update_idem, List.filter_filter]
  congr 2
  apply List.filter_congr
  intro a _
  simp [Bool.and_comm]

theorem drop_nil (s : State) (l : Nat) : s.drop l [] = s := by
  simp [State.drop]

/-- The loop of `Connection::clearTimer`, by induction on the timers to go. -/
theorem execAll_deleteTimers (s : State) (l : Nat) (timers : List (Int × Nat)) :
    execAll s (timers.flatMap fun entry => [.delTimer l entry.2, .deleteTimer entry.2]) =
      s.drop l (timers.map Prod.snd) := by
  induction timers generalizing s with
  | nil => exact (drop_nil s l).symm
  | cons entry timers ih =>
      rw [List.flatMap_cons, execAll_append, ih, List.map_cons]
      change (exec (exec s (.delTimer l entry.2)) (.deleteTimer entry.2)).drop l _ = _
      rw [exec_deleteTimer, drop_drop]
      rfl

/-- It deletes timers that are in no set any more. -/
theorem steady_deleteTimers (timers : List (Int × Nat))
    (oneLoop : ∀ entry ∈ timers, ∀ l' ≠ l, entry.2 ∉ s.timerMap l') :
    Steady s (timers.flatMap fun entry => [.delTimer l entry.2, .deleteTimer entry.2]) := by
  induction timers generalizing s with
  | nil => trivial
  | cons entry timers ih =>
      have outside : ∀ l' b, b ∈ (exec s (.delTimer l entry.2)).timerMap l' →
          b ∈ s.timerMap l' ∧ b ≠ entry.2 := by
        intro l' b member
        rw [exec, ← State.setTimers] at member
        by_cases same : l' = l
        · rw [same, setTimers_self, PointerSet.erase_eq_filter s.key_injective,
            List.mem_filter, decide_eq_true_eq] at member
          rw [same]
          exact member
        · rw [setTimers_of_ne same] at member
          refine ⟨member, ?_⟩
          rintro rfl
          exact oneLoop entry List.mem_cons_self l' same member
      rw [List.flatMap_cons]
      refine ⟨fun _ _ _ => rfl, ?_, ?_⟩
      · intro l' b member
        apply timeoutTime_congr
        exact Function.update_of_ne (outside l' b member).2 _ _
      · apply ih
        intro later laterMem l' distinct member
        exact oneLoop later (List.mem_cons_of_mem _ laterMem) l' distinct (outside l' _ member).1

/-- A timer of the connection is of it. -/
theorem Sound.con_of_mem (sound : Sound none s) (consEq : s.cons c = some con) {a : Nat}
    (member : a ∈ con.timers.map Prod.snd) : ∃ tm, s.heap a = some tm ∧ tm.con = c := by
  obtain ⟨⟨id, a⟩, entryMem, rfl⟩ := List.mem_map.mp member
  obtain ⟨tm, heapEq, sameCon, _⟩ := sound.owned c con consEq id a entryMem
  exact ⟨tm, heapEq, sameCon⟩

/-- Dropping the timers of a connection takes them out of all sets. -/
theorem Sound.mem_drop_iff (sound : Sound none s) (consEq : s.cons c = some con)
    (evlpEq : con.evlp = some l) (l' a : Nat) :
    a ∈ (s.drop l (con.timers.map Prod.snd)).timerMap l' ↔
      a ∈ s.timerMap l' ∧ a ∉ con.timers.map Prod.snd := by
  by_cases same : l' = l
  · rw [same, drop_self, List.mem_filter, decide_eq_true_eq]
  · rw [drop_of_ne same, iff_self_and]
    intro member inside
    obtain ⟨⟨tm, heapEq, _, con', consEq', evlpEq', _⟩, _⟩ := (sound.mem_iff l' a).mp member
    obtain ⟨tm', heapEq', rfl⟩ := sound.con_of_mem consEq inside
    cases heapEq.symm.trans heapEq'
    cases consEq.symm.trans consEq'
    exact same (Option.some.inj (evlpEq'.symm.trans evlpEq))

theorem drop_heap_of_notMem (l : Nat) {addrs : List Nat} {a : Nat} (outside : a ∉ addrs) :
    (s.drop l addrs).heap a = s.heap a :=
  if_neg outside

/-- The timers that are not dropped keep their owners. -/
theorem cleared_owns_iff (consEq : s.cons c = some con) {l' c' a : Nat} {id : Int}
    (outside : a ∉ con.timers.map Prod.snd) :
    ((s.drop l (con.timers.map Prod.snd)).setCon c (some { con with timers := [] })).Owns
      l' c' id a ↔ s.Owns l' c' id a := by
  by_cases same : c' = c
  · subst same
    constructor
    · rintro ⟨con', consEq', _, member⟩
      rw [setCon_self] at consEq'
      cases consEq'
      cases member
    · rintro ⟨con', consEq', _, member⟩
      cases consEq.symm.trans consEq'
      exact absurd (List.mem_map_of_mem member) outside
  · exact setCon_owns_of_ne same

/-- They are armed as before, and the others are not. -/
theorem cleared_armed_iff (consEq : s.cons c = some con) {l' a : Nat} :
    ((s.drop l (con.timers.map Prod.snd)).setCon c (some { con with timers := [] })).Armed l' a ↔
      s.Armed l' a ∧ a ∉ con.timers.map Prod.snd := by
  constructor
  · rintro ⟨tm, heapEq, started, owns⟩
    have outside : a ∉ con.timers.map Prod.snd := by
      intro dropped
      cases (if_pos dropped).symm.trans heapEq
    refine ⟨⟨tm, ?_, started, ?_⟩, outside⟩
    · exact (drop_heap_of_notMem l outside).symm.trans heapEq
    · exact (cleared_owns_iff consEq outside).mp owns
  · rintro ⟨⟨tm, heapEq, started, owns⟩, outside⟩
    refine ⟨tm, ?_, started, ?_⟩
    · exact (drop_heap_of_notMem l outside).trans heapEq
    · exact (cleared_owns_iff consEq outside).mpr owns

theorem Sound.clear (sound : Sound none s) (consEq : s.cons c = some con)
    (evlpEq : con.evlp = some l) :
    Sound none ((s.drop l (con.timers.map Prod.snd)).setCon c (some { con with timers := [] })) where
  inOrder l' := by
    have inOrder : PointerSet.InOrder Timer.Less s.key
        ((s.drop l (con.timers.map Prod.snd)).timerMap l') := by
      by_cases same : l' = l
      · rw [same, drop_self]
        exact (sound.inOrder l).filter _
      · rw [drop_of_ne same]
        exact sound.inOrder l'
    apply inOrder.congr
    intro a member
    exact key_congr (drop_heap_of_notMem l ((sound.mem_drop_iff consEq evlpEq l' a).mp member).2)
  mem_iff l' a := by
    refine (sound.mem_drop_iff consEq evlpEq l' a).trans ?_
    rw [sound.mem_iff l' a, cleared_armed_iff consEq]
    exact and_right_comm
  owned c' con' consEq' id a member := by
    by_cases same : c' = c
    · subst same
      rw [setCon_self] at consEq'
      cases consEq'
      cases member
    · rw [setCon_of_ne same] at consEq'
      obtain ⟨tm, heapEq, rfl, rfl⟩ := sound.owned c' con' consEq' id a member
      refine ⟨tm, ?_, rfl, rfl⟩
      apply (drop_heap_of_notMem l _).trans heapEq
      intro dropped
      obtain ⟨tm', heapEq', sameCon⟩ := sound.con_of_mem consEq dropped
      cases heapEq.symm.trans heapEq'
      exact same sameCon
  detached c' con' consEq' evlpEq' := by
    by_cases same : c' = c
    · subst same
      rw [setCon_self] at consEq'
      cases consEq'
      rfl
    · rw [setCon_of_ne same] at consEq'
      exact sound.detached c' con' consEq' evlpEq'

end Clear

/-! ## The calls -/

section Calls

variable {s : State} {l c a : Nat} {id : Int} {con : Connection}

/-- A timer that is held out is armed. -/
theorem arm_safe (sound : Sound (some a) s) (owns : s.Owns l c id a) (t : TimeTv) :
    Safe s [.setTimeoutTime a t, .setStatus a .start, .addTimer l a] none := by
  obtain ⟨tm, heapEq, rfl, rfl⟩ := sound.owner owns
  have timed : Sound (some a) (exec s (.setTimeoutTime a t)) := sound.alter fun _ => ⟨rfl, rfl⟩
  have started : Sound (some a) (exec (exec s (.setTimeoutTime a t)) (.setStatus a .start)) :=
    timed.alter fun _ => ⟨rfl, rfl⟩
  apply Safe.cons (keeps_alter sound rfl)
  apply Safe.cons (keeps_alter timed rfl)
  apply Safe.cons fun _ _ _ => rfl
  apply Safe.nil
  apply started.addTimer
  refine ⟨{ tm with timeoutTime := t, status := .start }, ?_, rfl, owns⟩
  simp [exec, heapEq]

theorem startTimer_safe (sound : Sound none s) (consEq : s.cons c = some con) (timeout : Int)
    (now : TimeTv) (address : con.getTimer id = some a ∨ con.getTimer id = none ∧ s.heap a = none) :
    Safe s (startTimer s c con id timeout now a) none := by
  rw [startTimer]
  cases evlpEq : con.evlp with
  | none => exact Safe.nil sound
  | some l =>
      dsimp only
      rcases address with found | ⟨missing, free⟩
      · -- the timer exists; it leaves its set first when it is in one
        have owns : s.Owns l c id a :=
          ⟨con, consEq, evlpEq, Connection.mem_of_getTimer found⟩
        rw [found, Option.isSome_some, if_pos rfl, Option.getD_some]
        split_ifs with started
        · apply Safe.cons fun _ _ _ => rfl
          exact arm_safe (sound.delTimer owns) owns _
        · exact arm_safe (sound.hold (Bool.eq_false_iff.mpr started)) owns _
      · rw [missing, Option.isSome_none, if_neg Bool.false_ne_true, Option.getD_none]
        have fresh : Sound (some a) (exec s (.newTimer a c id)) := sound.newTimer free
        have put : Sound (some a) (exec (exec s (.newTimer a c id)) (.putTimer c id a)) :=
          fresh.putTimer consEq evlpEq missing (Function.update_self _ _ _) ⟨rfl, rfl⟩
        apply Safe.cons (keeps_newTimer sound free)
        apply Safe.cons fun _ _ _ => rfl
        have owns : (exec (exec s (.newTimer a c id)) (.putTimer c id a)).Owns l c id a := by
          refine ⟨con.put id a, ?_, evlpEq, ?_⟩
          · simp [exec, consEq]
          · rw [Connection.put, (assign_perm (Connection.notMem_of_getTimer missing)).mem_iff]
            exact List.mem_cons_self
        exact arm_safe put owns _

theorem stopped_started (s : State) (a : Nat) :
    (exec s (.setStatus a .stop)).started a = false := by
  cases heapEq : s.heap a <;> simp [State.started, exec, heapEq]

/-- A timer that is held out is stopped. -/
theorem stop_safe (sound : Sound (some a) s) : Safe s [.setStatus a .stop] none := by
  apply Safe.cons (keeps_alter sound rfl)
  apply Safe.nil
  have stopped : Sound (some a) (exec s (.setStatus a .stop)) := sound.alter fun _ => ⟨rfl, rfl⟩
  exact stopped.release (stopped_started s a)

theorem stopTimer_safe (sound : Sound none s) (consEq : s.cons c = some con) :
    Safe s (stopTimer s con id) none := by
  rw [stopTimer]
  cases evlpEq : con.evlp with
  | none => exact Safe.nil sound
  | some l =>
      cases found : con.getTimer id with
      | none => exact Safe.nil sound
      | some a =>
          have owns : s.Owns l c id a :=
            ⟨con, consEq, evlpEq, Connection.mem_of_getTimer found⟩
          dsimp only
          split_ifs with started
          · apply Safe.cons fun _ _ _ => rfl
            exact stop_safe (sound.delTimer owns)
          · exact stop_safe (sound.hold (Bool.eq_false_iff.mpr started))

theorem fire_safe (sound : Sound none s) (isFirst : (s.timerMap l).head? = some a) :
    Safe s [.eraseFirst l, .setStatus a .stop] none := by
  apply Safe.cons fun _ _ _ => rfl
  exact stop_safe (sound.eraseFirst isFirst)

theorem execAll_clearTimer (consEq : s.cons c = some con) (evlpEq : con.evlp = some l) :
    execAll s (clearTimer c con) =
      (s.drop l (con.timers.map Prod.snd)).setCon c (some { con with timers := [] }) := by
  simp only [clearTimer, evlpEq, execAll_append, execAll_deleteTimers]
  simp [execAll, exec, State.setCon, State.drop, consEq, evlpEq]

theorem clearTimer_safe (sound : Sound none s) (consEq : s.cons c = some con) :
    Safe s (clearTimer c con) none ∧
      ∃ con', (execAll s (clearTimer c con)).cons c = some con' ∧ con'.timers = [] := by
  cases evlpEq : con.evlp with
  | none =>
      rw [clearTimer, evlpEq]
      exact ⟨Safe.nil sound, con, consEq, sound.detached c con consEq evlpEq⟩
  | some l =>
      have afterEq := execAll_clearTimer consEq evlpEq
      have steady : Steady s (clearTimer c con) := by
        rw [clearTimer, evlpEq]
        apply steady_append
        · apply steady_deleteTimers
          rintro ⟨id, a⟩ entryMem l' distinct member
          obtain ⟨⟨tm, heapEq, _, owns⟩, _⟩ := (sound.mem_iff l' a).mp member
          obtain ⟨tm', heapEq', rfl, _⟩ := sound.owned c con consEq id a entryMem
          cases heapEq.symm.trans heapEq'
          exact distinct (owns.loop_unique ⟨con, consEq, evlpEq, entryMem⟩)
        · exact ⟨fun _ _ _ => rfl, trivial⟩
      refine ⟨⟨steady, ?_⟩, { con with timers := [] }, ?_, rfl⟩
      · rw [afterEq]
        exact sound.clear consEq evlpEq
      · rw [afterEq]
        exact setCon_self

theorem destroy_safe (sound : Sound none s) (consEq : s.cons c = some con) :
    Safe s (destroy c con) none := by
  obtain ⟨safe, con', consEq', bare⟩ := clearTimer_safe sound consEq
  apply safe.append
  intro cleared
  apply Safe.cons fun _ _ _ => rfl
  apply Safe.nil
  apply cleared.setCon_bare
  · intro other otherEq
    cases consEq'.symm.trans otherEq
    exact bare
  · intro other otherEq
    cases otherEq

/-- Every call is steady and leaves a sound state. -/
theorem code_safe (sound : Sound none s) {event : Event} (allowed : Allowed s event) :
    Safe s (code s event) none := by
  cases event with
  | construct c =>
      apply Safe.cons fun _ _ _ => rfl
      apply Safe.nil
      apply sound.setCon_bare
      · intro con consEq
        cases (show s.cons c = none from allowed).symm.trans consEq
      · intro con newEq
        cases newEq
        rfl
  | addConnection c l =>
      obtain ⟨con, consEq, unattached | attached⟩ := allowed
      · apply Safe.cons fun _ _ _ => rfl
        apply Safe.nil
        have bare := sound.detached c con consEq unattached
        apply sound.setCon_bare
        · intro other otherEq
          cases consEq.symm.trans otherEq
          exact bare
        · intro other newEq
          rw [consEq] at newEq
          cases newEq
          exact bare
      · apply Safe.cons fun _ _ _ => rfl
        apply Safe.nil
        have same : exec s (.setEventLoop c l) = s := by
          have conEq : { con with evlp := some l } = con := by
            rw [← attached]
          simp only [exec, consEq, Option.map_some, conEq]
          rw [← consEq, Function.update_eq_self]
        rw [same]
        exact sound
  | startTimer c id timeout now a =>
      obtain ⟨con, consEq, address⟩ := allowed
      rw [code, consEq]
      exact startTimer_safe sound consEq timeout now address
  | stopTimer c id =>
      obtain ⟨con, consEq⟩ := allowed
      rw [code, consEq]
      exact stopTimer_safe sound consEq
  | safeClose c unsent =>
      obtain ⟨con, consEq⟩ := allowed
      rw [code, consEq]
      change Safe s (safeClose c con unsent) none
      rw [safeClose]
      split_ifs
      · exact (clearTimer_safe sound consEq).1
      · exact destroy_safe sound consEq
  | destroy c =>
      obtain ⟨con, consEq⟩ := allowed
      rw [code, consEq]
      exact destroy_safe sound consEq
  | fire l now a => exact fire_safe sound allowed.1

end Calls

end GPush.EventLoop.TimerSet
