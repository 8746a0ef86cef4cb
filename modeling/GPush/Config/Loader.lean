import GPush.Transition.Run
import Mathlib.Algebra.Group.Nat.Defs
import Mathlib.Algebra.Order.Group.Int
import Mathlib.Data.List.Basic
import Mathlib.Logic.Function.Basic

/-!
# Configuration that is loaded by version

Writers store new data under a lock and count a version up.  A loader compares versions
without the lock, copies the data under it, and records the version it has compared, so the
data it copies may be newer than its version says.
-/

namespace GPush.Config

open GPush.Transition

/-- Where a thread is in `DataSrc::setData`: not in it, or in possession of the lock and
before the assignment, past it, or past the increment. -/
inductive Writer (τ : Type*)
  | idle
  | locked (t : τ)
  | assigned
  | incremented

/-- Where a thread is in `Loader::loadData`: not in it, past a comparison that has found the
version `v` newer, past the lock, the copy or the unlock of `getData`. -/
inductive Phase
  | idle
  | newer (v : Int)
  | locked (v : Int)
  | copied (v : Int)
  | unlocked (v : Int)
  deriving DecidableEq, Repr

/-- The thread has the lock of the source. -/
def Phase.Inside (p : Phase) : Prop := (∃ v, p = .locked v) ∨ ∃ v, p = .copied v

/-- The version that a loader has compared is no newer than that of the source, and, once it
has copied, no newer than its data. -/
def Phase.Covered (version i : Int) : Phase → Prop
  | .idle => True
  | .newer v => v ≤ version
  | .locked v => v ≤ version
  | .copied v => v ≤ i
  | .unlocked v => v ≤ i

theorem Phase.Covered.mono {p : Phase} {version version' i : Int} (covered : p.Covered version i)
    (newer : version ≤ version') : p.Covered version' i := by
  cases p with
  | newer v => exact Int.le_trans covered newer
  | locked v => exact Int.le_trans covered newer
  | _ => exact covered

/-- `ef::Loader`, and where its thread is. -/
structure Loader (τ : Type*) where
  data : τ
  version : Int
  phase : Phase

/-- `ef::DataSrc` with who holds its lock, the threads `ι` that store data and the loaders
`κ`.  The history has the data of every update, those from the start first, and `copies` the
numbers of the updates that a loader has copied, the last one first. -/
structure DataSrc (ι κ τ : Type*) where
  data : τ
  version : Int
  holder : Option (ι ⊕ κ)
  writers : ι → Writer τ
  loaders : κ → Loader τ
  history : List τ
  copies : κ → List Nat

/-- `++m_version`. -/
def increment (v : Int) : Int := (v + 1).bmod (2 ^ 32)

namespace DataSrc

variable {ι κ τ : Type*} [DecidableEq ι] [DecidableEq κ]

/-- A source and its loaders, all with the data `t` that a constructor makes. -/
def init (t : τ) : DataSrc ι κ τ where
  data := t
  version := 0
  holder := none
  writers _ := .idle
  loaders _ := ⟨t, 0, .idle⟩
  history := [t]
  copies _ := [0]

/-- A writer moves on. -/
def move (s : DataSrc ι κ τ) (w : ι) (place : Writer τ) : DataSrc ι κ τ :=
  { s with writers := Function.update s.writers w place }

/-- A loader changes. -/
def setLoader (s : DataSrc ι κ τ) (k : κ) (loader : Loader τ) : DataSrc ι κ τ :=
  { s with loaders := Function.update s.loaders k loader }

/-- The atomic steps of `setData` and of `loadData`. -/
inductive Event (ι κ τ : Type*)
  | lock (w : ι) (t : τ)
  | assign (w : ι)
  | increment (w : ι)
  | unlock (w : ι)
  | compare (k : κ)
  | lockLoad (k : κ)
  | copy (k : κ)
  | unlockLoad (k : κ)
  | record (k : κ)

/-- The step relation. -/
inductive Step : LTS (DataSrc ι κ τ) (Event ι κ τ)
  | lock {s : DataSrc ι κ τ} {w : ι} {t : τ} : s.writers w = .idle → s.holder = none →
      Step s (.lock w t) { s.move w (.locked t) with holder := some (.inl w) }
  | assign {s : DataSrc ι κ τ} {w : ι} {t : τ} : s.writers w = .locked t →
      Step s (.assign w) { s.move w .assigned with data := t, history := s.history ++ [t] }
  | increment {s : DataSrc ι κ τ} {w : ι} : s.writers w = .assigned →
      Step s (.increment w) { s.move w .incremented with version := Config.increment s.version }
  | unlock {s : DataSrc ι κ τ} {w : ι} : s.writers w = .incremented →
      Step s (.unlock w) { s.move w .idle with holder := none }
  | compareNewer {s : DataSrc ι κ τ} {k : κ} : (s.loaders k).phase = .idle →
      (s.loaders k).version < s.version →
      Step s (.compare k) (s.setLoader k { s.loaders k with phase := .newer s.version })
  | compareSame {s : DataSrc ι κ τ} {k : κ} : (s.loaders k).phase = .idle →
      ¬(s.loaders k).version < s.version → Step s (.compare k) s
  | lockLoad {s : DataSrc ι κ τ} {k : κ} {v : Int} : (s.loaders k).phase = .newer v →
      s.holder = none →
      Step s (.lockLoad k)
        { s.setLoader k { s.loaders k with phase := .locked v } with holder := some (.inr k) }
  | copy {s : DataSrc ι κ τ} {k : κ} {v : Int} : (s.loaders k).phase = .locked v →
      Step s (.copy k)
        { s.setLoader k { s.loaders k with data := s.data, phase := .copied v } with
          copies := Function.update s.copies k ((s.history.length - 1) :: s.copies k) }
  | unlockLoad {s : DataSrc ι κ τ} {k : κ} {v : Int} : (s.loaders k).phase = .copied v →
      Step s (.unlockLoad k)
        { s.setLoader k { s.loaders k with phase := .unlocked v } with holder := none }
  | record {s : DataSrc ι κ τ} {k : κ} {v : Int} : (s.loaders k).phase = .unlocked v →
      Step s (.record k) (s.setLoader k { s.loaders k with version := v, phase := .idle })

/-- There are fewer than `2 ^ 31 - 1` updates. -/
def FewUpdates (s : DataSrc ι κ τ) : Event ι κ τ → Prop
  | .assign _ => s.history.length < 2 ^ 31 - 1
  | _ => True

/-- What a loader holds: the data of an update at least as new as the version it has
recorded, and no copy was older than one before it. -/
structure Holds (s : DataSrc ι κ τ) (k : κ) : Prop where
  current : ∃ i older, s.copies k = i :: older ∧ s.history[i]? = some (s.loaders k).data ∧
    (s.loaders k).version ≤ i
  ordered : (s.copies k).Pairwise (· ≥ ·)

variable {s t : DataSrc ι κ τ} {w w' : ι} {k k' : κ} {place : Writer τ} {loader : Loader τ}
  {v : Int}

/-! ## The source -/

/-- The history ends with the data; a writer is at work when it has the lock, and a loader
inside `getData` has it; and the version counts the updates, one behind between the
assignment and the increment. -/
structure Counted (s : DataSrc ι κ τ) : Prop where
  last : s.history.getLast? = some s.data
  writing : ∀ w, s.writers w ≠ .idle ↔ s.holder = some (.inl w)
  loading : ∀ k, (s.loaders k).phase.Inside → s.holder = some (.inr k)
  settled : (∀ w, s.writers w ≠ .assigned) → s.version + 1 = s.history.length
  behind : ∀ w, s.writers w = .assigned → s.version + 2 = s.history.length
  few : s.history.length < 2 ^ 31

omit [DecidableEq ι] [DecidableEq κ] in
theorem counted_init {d : τ} : (init d : DataSrc ι κ τ).Counted := by
  constructor
  · rfl
  · intro w
    simp [init]
  · intro k inside
    simp [init, Phase.Inside] at inside
  · intro _
    simp [init]
  · intro w assigned
    simp [init] at assigned
  · simp [init]

omit [DecidableEq ι] [DecidableEq κ] in
/-- There is one writer at most. -/
theorem Counted.alone (counted : s.Counted) (working : s.writers w ≠ .idle) (other : w' ≠ w) :
    s.writers w' = .idle := by
  by_contra working'
  have same := ((counted.writing w).mp working).symm.trans ((counted.writing w').mp working')
  exact other (Sum.inl.inj (Option.some.inj same)).symm

omit [DecidableEq ι] [DecidableEq κ] in
/-- No loader is inside `getData` while a writer is at work. -/
theorem Counted.outside (counted : s.Counted) (working : s.writers w ≠ .idle) :
    ¬(s.loaders k).phase.Inside := by
  intro inside
  have same := ((counted.writing w).mp working).symm.trans (counted.loading k inside)
  exact absurd (Option.some.inj same) Sum.inl_ne_inr

omit [DecidableEq ι] [DecidableEq κ] in
/-- No writer is at work when nobody or a loader has the lock. -/
theorem Counted.nobody (counted : s.Counted) (notWriter : ∀ w, s.holder ≠ some (.inl w)) (w : ι) :
    s.writers w = .idle := by
  by_contra working
  exact notWriter w ((counted.writing w).mp working)

omit [DecidableEq ι] [DecidableEq κ] in
/-- The version is never ahead of the data. -/
theorem Counted.version_lt (counted : s.Counted) : s.version < s.history.length := by
  by_cases assigned : ∃ w, s.writers w = .assigned
  · obtain ⟨w, assigned⟩ := assigned
    have behind := counted.behind w assigned
    omega
  · have settled := counted.settled fun w here => assigned ⟨w, here⟩
    omega

omit [DecidableEq ι] [DecidableEq κ] in
/-- The version counts all updates while the writer at work is not the one that assigned. -/
theorem Counted.settled_of_working (counted : s.Counted) (working : s.writers w ≠ .idle)
    (notAssigned : s.writers w ≠ .assigned) : s.version + 1 = s.history.length := by
  apply counted.settled
  intro w' assigned
  by_cases same : w' = w
  · subst same
    exact notAssigned assigned
  · exact absurd (assigned.symm.trans (counted.alone working same)) (by simp)

omit [DecidableEq ι] [DecidableEq κ] in
/-- `++m_version` does not wrap round after an assignment. -/
theorem Counted.increment_eq (counted : s.Counted) (assigned : s.writers w = .assigned) :
    Config.increment s.version = s.version + 1 := by
  have behind := counted.behind w assigned
  have few := counted.few
  apply Int.bmod_eq_of_le <;> omega

omit [DecidableEq κ] in
theorem writers_move : (s.move w place).writers w = place := Function.update_self ..

omit [DecidableEq κ] in
theorem writers_move_of_ne (other : w' ≠ w) : (s.move w place).writers w' = s.writers w' :=
  Function.update_of_ne other _ _

omit [DecidableEq κ] in
/-- The writer that moves is the one with the lock. -/
theorem Counted.writing_move (counted : s.Counted) (working : s.writers w ≠ .idle)
    (stays : place ≠ .idle) (w' : ι) :
    (s.move w place).writers w' ≠ .idle ↔ s.holder = some (.inl w') := by
  by_cases same : w' = w
  · subst same
    rw [writers_move, ← counted.writing w']
    exact iff_of_true stays working
  · rw [← counted.writing w', writers_move_of_ne same]

omit [DecidableEq κ] in
/-- The others are idle when a writer moves. -/
theorem Counted.assigned_move (counted : s.Counted) (working : s.writers w ≠ .idle)
    (assigned : (s.move w place).writers w' = .assigned) : place = .assigned := by
  by_cases same : w' = w
  · subst same
    exact writers_move.symm.trans assigned
  · rw [writers_move_of_ne same, counted.alone working same] at assigned
    cases assigned

omit [DecidableEq ι] in
theorem loaders_setLoader : (s.setLoader k loader).loaders k = loader := Function.update_self ..

omit [DecidableEq ι] in
theorem loaders_setLoader_of_ne (other : k' ≠ k) :
    (s.setLoader k loader).loaders k' = s.loaders k' :=
  Function.update_of_ne other _ _

omit [DecidableEq ι] in
/-- A loader moves, with the lock if it is inside. -/
theorem Counted.setLoader {holder : Option (ι ⊕ κ)} {copies : κ → List Nat} (counted : s.Counted)
    (notWriter : ∀ w, s.holder ≠ some (.inl w)) (notWriterNow : ∀ w, holder ≠ some (.inl w))
    (inside : loader.phase.Inside → holder = some (.inr k))
    (others : ∀ k', k' ≠ k → s.holder ≠ some (.inr k')) :
    Counted { s.setLoader k loader with holder := holder, copies := copies } := by
  refine ⟨counted.last, ?_, ?_, counted.settled, counted.behind, counted.few⟩
  · intro w
    exact iff_of_false (fun working => working (counted.nobody notWriter w)) (notWriterNow w)
  · intro k' inside'
    by_cases same : k' = k
    · subst same
      have inside'' : ((s.setLoader k' loader).loaders k').phase.Inside := inside'
      rw [loaders_setLoader] at inside''
      exact inside inside''
    · have inside'' : ((s.setLoader k loader).loaders k').phase.Inside := inside'
      rw [loaders_setLoader_of_ne same] at inside''
      exact absurd (counted.loading k' inside'') (others k' same)

omit [DecidableEq ι] in
/-- A loader moves that has nothing to do with the lock. -/
theorem Counted.setLoader_outside (counted : s.Counted) (outside : ¬loader.phase.Inside) :
    (s.setLoader k loader).Counted := by
  refine ⟨counted.last, counted.writing, ?_, counted.settled, counted.behind, counted.few⟩
  intro k' inside
  by_cases same : k' = k
  · subst same
    rw [loaders_setLoader] at inside
    exact absurd inside outside
  · rw [loaders_setLoader_of_ne same] at inside
    exact counted.loading k' inside

omit [DecidableEq κ] in
/-- A writer gets the lock. -/
theorem Counted.lock {d : τ} (counted : s.Counted) (free : s.holder = none) :
    Counted { s.move w (.locked d) with holder := some (.inl w) } := by
  have nobody := counted.nobody (by simp [free])
  constructor
  · exact counted.last
  · intro w'
    by_cases same : w' = w
    · subst same
      simp [move]
    · simp [move, same, nobody w', eq_comm (a := w)]
  · intro k inside
    exact absurd (free.symm.trans (counted.loading k inside)) (by simp)
  · intro _
    exact counted.settled fun w' => by simp [nobody w']
  · intro w' assigned
    by_cases same : w' = w
    · subst same
      simp [move] at assigned
    · simp [move, same, nobody w'] at assigned
  · exact counted.few

omit [DecidableEq κ] in
/-- The version is one behind after an assignment. -/
theorem Counted.assign {d : τ} (counted : s.Counted) (locked : s.writers w = .locked d)
    (few : s.history.length < 2 ^ 31 - 1) :
    Counted { s.move w .assigned with data := d, history := s.history ++ [d] } := by
  have working : s.writers w ≠ .idle := by simp [locked]
  constructor
  · simp
  · exact counted.writing_move working (by simp)
  · exact counted.loading
  · intro notAssigned
    exact absurd writers_move (notAssigned w)
  · intro _ _
    have settled := counted.settled_of_working working (by simp [locked])
    simp only [move, List.length_append, List.length_singleton]
    omega
  · simp only [List.length_append, List.length_singleton]
    omega

omit [DecidableEq κ] in
/-- The increment makes up for the assignment. -/
theorem Counted.incremented (counted : s.Counted) (assigned : s.writers w = .assigned) :
    Counted { s.move w .incremented with version := increment s.version } := by
  have working : s.writers w ≠ .idle := by simp [assigned]
  have behind := counted.behind w assigned
  constructor
  · exact counted.last
  · exact counted.writing_move working (by simp)
  · exact counted.loading
  · intro _
    simp only [counted.increment_eq assigned]
    simp only [move]
    omega
  · intro w' assigned'
    exact absurd (counted.assigned_move working assigned') (by simp)
  · exact counted.few

omit [DecidableEq κ] in
/-- The writer gives the lock back, and nobody is at work. -/
theorem Counted.unlock (counted : s.Counted) (incremented : s.writers w = .incremented) :
    Counted { s.move w .idle with holder := none } := by
  have working : s.writers w ≠ .idle := by simp [incremented]
  have nobody : ∀ w', (s.move w .idle).writers w' = .idle := by
    intro w'
    by_cases same : w' = w
    · subst same
      exact writers_move
    · exact (writers_move_of_ne same).trans (counted.alone working same)
  constructor
  · exact counted.last
  · intro w'
    exact iff_of_false (fun busy => busy (nobody w')) (by simp)
  · intro k inside
    exact absurd inside (counted.outside working)
  · intro _
    exact counted.settled_of_working working (by simp [incremented])
  · intro w' assigned
    exact absurd ((nobody w').symm.trans assigned) (by simp)
  · exact counted.few

theorem Counted.step {event : Event ι κ τ} (counted : s.Counted) (few : s.FewUpdates event)
    (taken : Step s event t) : t.Counted := by
  cases taken with
  | lock _ free => exact counted.lock free
  | assign locked => exact counted.assign locked few
  | increment assigned => exact counted.incremented assigned
  | unlock incremented => exact counted.unlock incremented
  | compareNewer => exact counted.setLoader_outside (by simp [Phase.Inside])
  | compareSame => exact counted
  | lockLoad _ free =>
      exact counted.setLoader (by simp [free]) (by simp) (fun _ => rfl) (by simp [free])
  | @copy _ k v locked =>
      have held := counted.loading k (Or.inl ⟨v, locked⟩)
      have notWriter : ∀ w, s.holder ≠ some (.inl w) := by simp [held]
      exact counted.setLoader notWriter notWriter (fun _ => held) (by simp [held, eq_comm])
  | @unlockLoad _ k v copied =>
      have held := counted.loading k (Or.inr ⟨v, copied⟩)
      exact counted.setLoader (by simp [held]) (by simp) (by simp [Phase.Inside])
        (by simp [held, eq_comm])
  | record => exact counted.setLoader_outside (by simp [Phase.Inside])

/-! ## The loaders -/

/-- A loader follows the updates. -/
structure Follows (s : DataSrc ι κ τ) (k : κ) : Prop where
  current : ∃ i older, s.copies k = i :: older ∧ s.history[i]? = some (s.loaders k).data ∧
    (s.loaders k).version ≤ i ∧ (s.loaders k).phase.Covered s.version i
  ordered : (s.copies k).Pairwise (· ≥ ·)
  made : ∀ i ∈ s.copies k, i < s.history.length

omit [DecidableEq ι] [DecidableEq κ] in
theorem Follows.holds (follows : s.Follows k) : s.Holds k := by
  obtain ⟨i, older, copiesEq, dataEq, versionLe, -⟩ := follows.current
  exact ⟨⟨i, older, copiesEq, dataEq, versionLe⟩, follows.ordered⟩

omit [DecidableEq ι] [DecidableEq κ] in
theorem follows_init {d : τ} : (init d : DataSrc ι κ τ).Follows k := by
  constructor
  · exact ⟨0, [], rfl, rfl, Int.le_refl 0, trivial⟩
  · simp [init]
  · simp [init]

omit [DecidableEq ι] [DecidableEq κ] in
/-- What other threads do: the history grows, and the version too. -/
theorem Follows.mono (follows : s.Follows k) (sameLoader : t.loaders k = s.loaders k)
    (sameCopies : t.copies k = s.copies k) {later : List τ}
    (grows : t.history = s.history ++ later) (newer : s.version ≤ t.version) : t.Follows k := by
  obtain ⟨i, older, copiesEq, dataEq, versionLe, covered⟩ := follows.current
  have bound : i < s.history.length := follows.made i (by simp [copiesEq])
  constructor
  · refine ⟨i, older, sameCopies.trans copiesEq, ?_, ?_, ?_⟩
    · rw [sameLoader, grows, List.getElem?_append_left bound, dataEq]
    · rw [sameLoader]
      exact versionLe
    · rw [sameLoader]
      exact covered.mono newer
  · rw [sameCopies]
    exact follows.ordered
  · intro j member
    rw [sameCopies] at member
    have made := follows.made j member
    rw [grows, List.length_append]
    omega

omit [DecidableEq ι] in
/-- A loader moves on with the data it has. -/
theorem Follows.setLoader {holder : Option (ι ⊕ κ)} {phase : Phase} (follows : ∀ k, s.Follows k)
    (moves : ∀ i : Nat, (s.loaders k').version ≤ i → (s.loaders k').phase.Covered s.version i →
      v ≤ i ∧ phase.Covered s.version i) (k : κ) :
    Follows { s.setLoader k' { s.loaders k' with version := v, phase := phase } with
      holder := holder } k := by
  by_cases same : k = k'
  · subst same
    obtain ⟨i, older, copiesEq, dataEq, versionLe, covered⟩ := (follows k).current
    refine ⟨⟨i, older, copiesEq, ?_⟩, (follows k).ordered, (follows k).made⟩
    simp only [loaders_setLoader]
    exact ⟨dataEq, moves i versionLe covered⟩
  · have unchanged := (List.append_nil s.history).symm
    exact (follows k).mono (loaders_setLoader_of_ne same) rfl unchanged (Int.le_refl _)

omit [DecidableEq ι] in
/-- The copy is of the last update, and the version that was compared is not above it. -/
theorem Follows.copy (follows : ∀ k, s.Follows k) (counted : s.Counted)
    (locked : (s.loaders k').phase = .locked v) (k : κ) :
    Follows { s.setLoader k' { s.loaders k' with data := s.data, phase := .copied v } with
      copies := Function.update s.copies k' ((s.history.length - 1) :: s.copies k') } k := by
  by_cases same : k = k'
  · subst same
    obtain ⟨i, older, copiesEq, dataEq, versionLe, covered⟩ := (follows k).current
    rw [locked] at covered
    have bound : i < s.history.length := (follows k).made i (by simp [copiesEq])
    have ahead := counted.version_lt
    have lastEq := counted.last
    rw [List.getLast?_eq_getElem?] at lastEq
    constructor
    · refine ⟨s.history.length - 1, s.copies k, Function.update_self .., ?_⟩
      simp only [loaders_setLoader]
      refine ⟨lastEq, by omega, ?_⟩
      simp only [Phase.Covered] at covered ⊢
      omega
    · simp only [Function.update_self, List.pairwise_cons]
      refine ⟨?_, (follows k).ordered⟩
      intro j member
      have made := (follows k).made j member
      omega
    · simp only [Function.update_self, List.mem_cons]
      rintro j (rfl | member)
      · exact Nat.sub_lt (Nat.zero_lt_of_lt bound) Nat.one_pos
      · exact (follows k).made j member
  · have sameCopies : Function.update s.copies k' ((s.history.length - 1) :: s.copies k') k =
        s.copies k := Function.update_of_ne same _ _
    have unchanged := (List.append_nil s.history).symm
    exact (follows k).mono (loaders_setLoader_of_ne same) sameCopies unchanged (Int.le_refl _)

/-- The step lemma. -/
theorem Follows.step {event : Event ι κ τ} (follows : ∀ k, s.Follows k) (counted : s.Counted)
    (taken : Step s event t) (k : κ) : t.Follows k := by
  have unchanged := (List.append_nil s.history).symm
  cases taken with
  | lock => exact (follows k).mono rfl rfl unchanged (Int.le_refl _)
  | assign => exact (follows k).mono rfl rfl rfl (Int.le_refl _)
  | @increment _ w assigned =>
      have versionEq := counted.increment_eq assigned
      have newer : s.version ≤ Config.increment s.version := by omega
      exact (follows k).mono rfl rfl unchanged newer
  | unlock => exact (follows k).mono rfl rfl unchanged (Int.le_refl _)
  | compareNewer =>
      exact Follows.setLoader follows (fun i versionLe _ => ⟨versionLe, Int.le_refl _⟩) k
  | compareSame => exact follows k
  | lockLoad newer =>
      refine Follows.setLoader follows ?_ k
      intro i versionLe covered
      rw [newer] at covered
      exact ⟨versionLe, covered⟩
  | copy locked => exact Follows.copy follows counted locked k
  | unlockLoad copied =>
      refine Follows.setLoader follows ?_ k
      intro i versionLe covered
      rw [copied] at covered
      exact ⟨versionLe, covered⟩
  | record unlocked =>
      refine Follows.setLoader follows ?_ k
      intro i _ covered
      rw [unlocked] at covered
      exact ⟨covered, trivial⟩

/-- What the source and its loaders keep. -/
theorem sound_of_run {events : List (Event ι κ τ)} {d : τ}
    (run : Run Step FewUpdates (init d) events s) : s.Counted ∧ ∀ k, s.Follows k := by
  refine @Run.invariant _ _ _ _ (fun s => s.Counted ∧ ∀ k, s.Follows k) _ _ _ ?_ ?_ run
  · exact ⟨counted_init, fun _ => follows_init⟩
  · rintro s event t ⟨counted, follows⟩ few taken
    exact ⟨counted.step few taken, Follows.step follows counted taken⟩

/-! ## The last update -/

/-- No call of `setData` gets the lock. -/
def Event.NoUpdate : Event ι κ τ → Prop
  | .lock _ _ => False
  | _ => True

/-- All updates are finished, `d` is the data of the last one, and the loader `k` has that
data unless it is on its way to copying it. -/
structure UpToDate (s : DataSrc ι κ τ) (k : κ) (d : τ) : Prop where
  finished : ∀ w, s.writers w = .idle
  data : s.data = d
  loaded : (∀ v, (s.loaders k).phase ≠ .newer v) → (∀ v, (s.loaders k).phase ≠ .locked v) →
    (s.loaders k).data = d

theorem UpToDate.step {event : Event ι κ τ} {d : τ} (upToDate : s.UpToDate k d)
    (noUpdate : event.NoUpdate) (taken : Step s event t) : t.UpToDate k d := by
  rcases upToDate with ⟨finished, dataEq, loaded⟩
  have setLoader : ∀ {k' : κ} {loader : Loader τ},
      (k' = k → (∀ v, loader.phase ≠ .newer v) → (∀ v, loader.phase ≠ .locked v) →
        loader.data = d) → (s.setLoader k' loader).UpToDate k d := by
    intro k' loader own
    refine ⟨finished, dataEq, ?_⟩
    by_cases same : k = k'
    · subst same
      rw [loaders_setLoader]
      exact own rfl
    · rw [loaders_setLoader_of_ne same]
      exact loaded
  cases taken with
  | lock => exact noUpdate.elim
  | @assign _ w _ locked => exact absurd ((finished w).symm.trans locked) (by simp)
  | @increment _ w assigned => exact absurd ((finished w).symm.trans assigned) (by simp)
  | @unlock _ w incremented => exact absurd ((finished w).symm.trans incremented) (by simp)
  | compareNewer => exact setLoader fun _ notNewer => absurd rfl (notNewer _)
  | compareSame => exact ⟨finished, dataEq, loaded⟩
  | @lockLoad _ k' v =>
      have moved : (s.setLoader k' { s.loaders k' with phase := .locked v }).UpToDate k d :=
        setLoader fun _ _ notLocked => absurd rfl (notLocked _)
      exact ⟨moved.finished, moved.data, moved.loaded⟩
  | @copy _ k' v =>
      have moved : (s.setLoader k'
          { s.loaders k' with data := s.data, phase := .copied v }).UpToDate k d :=
        setLoader fun _ _ _ => dataEq
      exact ⟨moved.finished, moved.data, moved.loaded⟩
  | @unlockLoad _ k' v copied =>
      have moved : (s.setLoader k' { s.loaders k' with phase := .unlocked v }).UpToDate k d := by
        apply setLoader
        rintro rfl - -
        exact loaded (by simp [copied]) (by simp [copied])
      exact ⟨moved.finished, moved.data, moved.loaded⟩
  | @record _ k' v unlocked =>
      apply setLoader
      rintro rfl - -
      exact loaded (by simp [unlocked]) (by simp [unlocked])

/-- A comparison after the last update finds the data, or leads to a copy of it. -/
theorem upToDate_of_compare (counted : s.Counted) (follows : s.Follows k)
    (finished : ∀ w, s.writers w = .idle) (taken : Step s (.compare k) t) :
    t.UpToDate k s.data := by
  obtain ⟨i, older, copiesEq, dataEq, versionLe, -⟩ := follows.current
  cases taken with
  | compareNewer idle newer =>
      refine ⟨finished, rfl, ?_⟩
      rw [loaders_setLoader]
      intro notNewer
      exact absurd rfl (notNewer _)
  | compareSame idle notNewer =>
      refine ⟨finished, rfl, fun _ _ => ?_⟩
      -- the loader has the version of the source, so its data is the last
      have settled := counted.settled fun w => by simp [finished w]
      have bound := follows.made i (by simp [copiesEq])
      have lastEq := counted.last
      have isLast : i = s.history.length - 1 := by omega
      rw [List.getLast?_eq_getElem?, ← isLast, dataEq] at lastEq
      exact Option.some.inj lastEq

/-- In every interleaving of fewer than `2 ^ 31 - 1` updates, each loader holds the data of
an update at least as new as its version and never copies an older one than before, and a
`loadData` that starts after the last `setData` has finished leaves it with the last data. -/
theorem updates_reach_loaders {before : List (Event ι κ τ)} {d : τ}
    (run : Run Step FewUpdates (init d) before s) :
    (∀ k, s.Holds k) ∧
      ∀ k later t, (∀ w, s.writers w = .idle) → Run Step FewUpdates s (.compare k :: later) t →
        (∀ e ∈ later, e.NoUpdate) → (t.loaders k).phase = .idle →
          (t.loaders k).data = s.data ∧ s.history.getLast? = some s.data := by
  obtain ⟨counted, follows⟩ := sound_of_run run
  refine ⟨fun k => (follows k).holds, ?_⟩
  intro k later t finished loads noUpdate idle
  obtain ⟨next, -, taken, rest⟩ := loads.uncons
  have start := upToDate_of_compare counted (follows k) finished taken
  have upToDate : t.UpToDate k s.data := by
    refine @Run.invariant _ _ _ _ (fun t => t.UpToDate k s.data) _ _ _ start ?_
      (rest.with_events noUpdate)
    rintro _ _ _ upToDate ⟨-, noUpdate⟩ taken
    exact upToDate.step noUpdate taken
  exact ⟨upToDate.loaded (by simp [idle]) (by simp [idle]), counted.last⟩

/-- An update. -/
def updates : List (Event Unit Unit Nat) :=
  [.lock () 7, .assign (), .increment (), .unlock ()]

/-- A `loadData` after it. -/
def loads : List (Event Unit Unit Nat) :=
  [.compare (), .lockLoad (), .copy (), .unlockLoad (), .record ()]

theorem updates_reach_loaders_once :
    ∃ s t : DataSrc Unit Unit Nat, Run Step FewUpdates (init 0) updates s ∧
      Run Step FewUpdates s loads t ∧ s.Holds () ∧ (t.loaders ()).data = 7 ∧
      (t.loaders ()).version = 1 := by
  have few : 1 < 2 ^ 31 - 1 := by decide
  have stores : ∃ s : DataSrc Unit Unit Nat, Run Step FewUpdates (init 0) updates s ∧
      (∀ w, s.writers w = .idle) ∧ s.data = 7 ∧
      ∃ t, Run Step FewUpdates s loads t ∧ (t.loaders ()).phase = .idle ∧
        (t.loaders ()).version = 1 :=
    ⟨_, Run.cons trivial (.lock rfl rfl) <| Run.cons few (.assign rfl) <|
      Run.cons trivial (.increment rfl) <| Run.single trivial (.unlock rfl), fun _ => rfl, rfl,
      _, Run.cons trivial (.compareNewer rfl (by decide)) <|
      Run.cons trivial (.lockLoad rfl rfl) <| Run.cons trivial (.copy rfl) <|
      Run.cons trivial (.unlockLoad rfl) <| Run.single trivial (.record rfl), rfl, rfl⟩
  obtain ⟨s, run, finished, dataEq, t, loadsRun, idle, versionEq⟩ := stores
  obtain ⟨holds, loadsLast⟩ := updates_reach_loaders run
  have noUpdate : ∀ e ∈ [Event.lockLoad (), .copy (), .unlockLoad (), .record ()],
      (e : Event Unit Unit Nat).NoUpdate := by
    simp [Event.NoUpdate]
  have last := loadsLast () _ t finished loadsRun noUpdate idle
  exact ⟨s, t, run, loadsRun, holds (), last.1.trans dataEq, versionEq⟩

end DataSrc

end GPush.Config
