import GPush.LoopBuf.Frame
import GPush.Transition.Lock
import GPush.Transition.Run
import Mathlib.Algebra.Group.Nat.Defs

/-!
# The appender of a log file

Writers append to one of two caches under a mutex.  The one that finds its cache full takes a
second lock, makes the other cache the current one, and writes the old one outside of the mutex.
`take` closes the file and opens the next one under both locks.
-/

namespace GPush.Utility

open GPush.LoopBuf GPush.Transition

/-- The place `m_cache_idx % 2` of `m_caches`, for an index that has not overflowed. -/
def slot (idx : Nat) : Fin 2 := Fin.ofNat 2 idx

/-- Where a writer is.  In `take`: past the check of the time, inside the mutex, inside both
locks, behind `fopen`, and behind the assignment of `m_last_open_time`.  In `write_s`: on its way
to the mutex, behind the append, behind the increment of `m_cache_idx`, and in `flush_cache`
before and behind `fwrite` and `clear`, and before the unlock.  It may leave the mutex in both. -/
inductive Phase
  | out
  | opening (n : Int)
  | locked (n : Int)
  | rotating (n : Int)
  | opened (n : Int)
  | stamped
  | leaving
  | ready
  | writing (s : Bytes) (n : Int)
  | appended (n : Int)
  | swapped (old : Fin 2)
  | flushing (old : Fin 2)
  | clearing (old : Fin 2)
  | cleared
  | unlocking
  deriving DecidableEq, Repr

namespace Phase

/-- The writer holds the mutex. -/
def holdsCs : Phase → Bool
  | locked _ | rotating _ | opened _ | stamped | leaving | appended _ | swapped _ => true
  | _ => false

/-- The writer holds the other lock. -/
def holdsLock : Phase → Bool
  | rotating _ | opened _ | stamped | swapped _ | flushing _ | clearing _ | cleared
  | unlocking => true
  | _ => false

/-- The writer has been through `take`, or at least through `fopen`. -/
def past : Phase → Bool
  | out | opening _ | locked _ | rotating _ => false
  | _ => true

/-- The cache that the writer has to clear. -/
def old : Phase → Option (Fin 2)
  | swapped old | flushing old | clearing old => some old
  | _ => none

/-- What the writer has still to write. -/
def pending (caches : Fin 2 → Bytes) : Phase → Bytes
  | swapped old | flushing old => caches old
  | _ => []

end Phase

/-- `m_schedu_span`, `m_max_cache_size`, and the time stamp of the file for a time. -/
structure AppenderConfig where
  scheduSpan : Int
  maxCacheSize : Int
  timestamp : Int → Int

/-- The fields of a `FileAppender`: the two locks with the writers that hold them, the files
that have been closed with what was written to them, and the open one.  Then where the writers
are, the strings in the order of their appends, and whether the destructor has run.  The writers
are the elements of `ι`. -/
structure FileAppender (ι : Type*) where
  caches : Fin 2 → Bytes
  cacheIdx : Nat
  lastFlushTime : Int
  lastOpenTime : Int
  cs : Option ι
  flushlock : Option ι
  closed : List Bytes
  file : Option Bytes
  phases : ι → Phase
  log : List Bytes
  destroyed : Bool

namespace FileAppender

/-- What happens. -/
inductive Event (ι : Type*)
  | take (w : ι) (n : Int)
  | enter (w : ι)
  | tryLock (w : ι)
  | reopen (w : ι)
  | setOpenTime (w : ι)
  | unlockTake (w : ι)
  | leave (w : ι)
  | write (w : ι) (s : Bytes) (n : Int)
  | append (w : ι)
  | decide (w : ι)
  | leaveSwapped (w : ι)
  | fwrite (w : ι)
  | clear (w : ι)
  | setFlushTime (w : ι) (n : Int)
  | unlockFlush (w : ι)
  | give (w : ι)
  | destroy

variable {ι : Type*} [DecidableEq ι]

/-- A new appender. -/
def init : FileAppender ι where
  caches _ := []
  cacheIdx := 0
  lastFlushTime := 0
  lastOpenTime := 0
  cs := none
  flushlock := none
  closed := []
  file := none
  phases _ := .out
  log := []
  destroyed := false

/-- A writer moves on. -/
def move (s : FileAppender ι) (w : ι) (phase : Phase) : FileAppender ι :=
  { s with phases := Function.update s.phases w phase }

/-- The condition in `write_s`, without the attempt to take the lock. -/
def due (conf : AppenderConfig) (s : FileAppender ι) (n : Int) : Prop :=
  conf.maxCacheSize ≤ ((s.caches (slot s.cacheIdx)).length : Int).bmod (2 ^ 32) ∨
    1 < n - s.lastFlushTime

/-- The step relation.  Only one writer holds each lock, and `fopen` and `fwrite` succeed. -/
inductive Step (conf : AppenderConfig) : LTS (FileAppender ι) (Event ι)
  | recent {s : FileAppender ι} {w : ι} {n : Int} : s.phases w = .out → s.destroyed = false →
      n - s.lastOpenTime < conf.scheduSpan → Step conf s (.take w n) (s.move w .ready)
  | outdated {s : FileAppender ι} {w : ι} {n : Int} : s.phases w = .out → s.destroyed = false →
      conf.scheduSpan ≤ n - s.lastOpenTime → Step conf s (.take w n) (s.move w (.opening n))
  | enter {s : FileAppender ι} {w : ι} {n : Int} : s.phases w = .opening n → s.cs = none →
      Step conf s (.enter w) { s.move w (.locked n) with cs := some w }
  | lock {s : FileAppender ι} {w : ι} {n : Int} : s.phases w = .locked n → s.flushlock = none →
      Step conf s (.tryLock w) { s.move w (.rotating n) with flushlock := some w }
  | busy {s : FileAppender ι} {w v : ι} {n : Int} : s.phases w = .locked n →
      s.flushlock = some v → Step conf s (.tryLock w) (s.move w .leaving)
  | reopen {s : FileAppender ι} {w : ι} {n : Int} : s.phases w = .rotating n →
      Step conf s (.reopen w) { s.move w (.opened n) with
        closed := s.closed ++ s.file.toList
        file := some [] }
  | setOpenTime {s : FileAppender ι} {w : ι} {n : Int} : s.phases w = .opened n →
      Step conf s (.setOpenTime w) { s.move w .stamped with lastOpenTime := conf.timestamp n }
  | unlockTake {s : FileAppender ι} {w : ι} : s.phases w = .stamped →
      Step conf s (.unlockTake w) { s.move w .leaving with flushlock := none }
  | leave {s : FileAppender ι} {w : ι} : s.phases w = .leaving →
      Step conf s (.leave w) { s.move w .ready with cs := none }
  | write {s : FileAppender ι} {w : ι} {str : Bytes} {n : Int} : s.phases w = .ready →
      Step conf s (.write w str n) (s.move w (.writing str n))
  | append {s : FileAppender ι} {w : ι} {str : Bytes} {n : Int} : s.phases w = .writing str n →
      s.cs = none →
      Step conf s (.append w) { s.move w (.appended n) with
        cs := some w
        caches := Function.update s.caches (slot s.cacheIdx)
          (s.caches (slot s.cacheIdx) ++ str)
        log := s.log ++ [str] }
  | swap {s : FileAppender ι} {w : ι} {n : Int} : s.phases w = .appended n → s.due conf n →
      s.flushlock = none →
      Step conf s (.decide w) { s.move w (.swapped (slot s.cacheIdx)) with
        flushlock := some w
        cacheIdx := s.cacheIdx + 1 }
  | keep {s : FileAppender ι} {w : ι} {n : Int} : s.phases w = .appended n →
      ¬ (s.due conf n ∧ s.flushlock = none) → Step conf s (.decide w) (s.move w .leaving)
  | leaveSwapped {s : FileAppender ι} {w : ι} {old : Fin 2} : s.phases w = .swapped old →
      Step conf s (.leaveSwapped w) { s.move w (.flushing old) with cs := none }
  | fwrite {s : FileAppender ι} {w : ι} {old : Fin 2} : s.phases w = .flushing old →
      Step conf s (.fwrite w) { s.move w (.clearing old) with
        file := s.file.map (· ++ s.caches old) }
  | clear {s : FileAppender ι} {w : ι} {old : Fin 2} : s.phases w = .clearing old →
      Step conf s (.clear w) { s.move w .cleared with
        caches := Function.update s.caches old [] }
  | setFlushTime {s : FileAppender ι} {w : ι} {n : Int} : s.phases w = .cleared →
      Step conf s (.setFlushTime w n) { s.move w .unlocking with lastFlushTime := n }
  | unlockFlush {s : FileAppender ι} {w : ι} : s.phases w = .unlocking →
      Step conf s (.unlockFlush w) { s.move w .ready with flushlock := none }
  | give {s : FileAppender ι} {w : ι} : s.phases w = .ready →
      Step conf s (.give w) (s.move w .out)
  | destroy {s : FileAppender ι} : (∀ w, s.phases w = .out) → s.destroyed = false →
      Step conf s .destroy { s with
        caches := fun _ => []
        closed := s.closed ++ (s.file.map fun written => written ++
          s.caches (slot s.cacheIdx) ++ s.caches (slot (1 + s.cacheIdx))).toList
        file := none
        destroyed := true }

/-- While no file is open, `take` finds the time of the last opening long enough ago. -/
def Guard (conf : AppenderConfig) (s : FileAppender ι) : Event ι → Prop
  | .take _ n => s.file = none → conf.scheduSpan ≤ n - s.lastOpenTime
  | _ => True

/-- What has been written to the files. -/
def written (s : FileAppender ι) : Bytes := s.closed.flatten ++ s.file.getD []

/-- The files hold what was appended up to some place, and in the end all of it. -/
structure Complete (s : FileAppender ι) : Prop where
  inOrder : s.written <+: s.log.flatten
  all : s.destroyed = true → s.written = s.log.flatten

/-! ## What the caches hold -/

theorem slot_succ_ne (idx : Nat) : slot (idx + 1) ≠ slot idx := by
  intro same
  have numbers := congrArg Fin.val same
  simp only [slot, Fin.val_ofNat] at numbers
  omega

theorem slot_succ_succ (idx : Nat) : slot (idx + 1 + 1) = slot idx := by
  apply Fin.ext
  simp only [slot, Fin.val_ofNat]
  omega

/-- The files, what the holder of the lock in the phase `h` has still to write, and the current
cache are the log, and the other cache is the one that the holder has to clear, or empty. -/
structure Content (caches : Fin 2 → Bytes) (idx : Nat) (written log : Bytes) (h : Phase) :
    Prop where
  old : ∀ i, h.old = some i → i = slot (idx + 1)
  empty : h.old = none → caches (slot (idx + 1)) = []
  whole : written ++ h.pending caches ++ caches (slot idx) = log

namespace Content

variable {caches : Fin 2 → Bytes} {idx : Nat} {written log : Bytes} {h : Phase} {old : Fin 2}

/-- The holder moves on without a change of what it has to do. -/
theorem congr (content : Content caches idx written log h) {h' : Phase} (sameOld : h'.old = h.old)
    (same : h'.pending caches = h.pending caches) : Content caches idx written log h' :=
  ⟨sameOld ▸ content.old, sameOld ▸ content.empty, same ▸ content.whole⟩

/-- A string is appended to the current cache. -/
theorem append (content : Content caches idx written log h) (str : Bytes) :
    Content (Function.update caches (slot idx) (caches (slot idx) ++ str)) idx written (log ++ str)
      h := by
  have other : Function.update caches (slot idx) (caches (slot idx) ++ str) (slot (idx + 1)) =
      caches (slot (idx + 1)) := Function.update_of_ne (slot_succ_ne idx) ..
  have pending : h.pending (Function.update caches (slot idx) (caches (slot idx) ++ str)) =
      h.pending caches := by
    cases h with
    | swapped old => rw [Phase.pending, content.old old rfl, other, Phase.pending]
    | flushing old => rw [Phase.pending, content.old old rfl, other, Phase.pending]
    | _ => rfl
  refine ⟨content.old, fun noOld => other.trans (content.empty noOld), ?_⟩
  rw [pending, Function.update_self, ← content.whole, List.append_assoc, List.append_assoc,
    List.append_assoc]

/-- The other cache becomes the current one. -/
theorem swap (content : Content caches idx written log .ready) :
    Content caches (idx + 1) written log (.swapped (slot idx)) := by
  refine ⟨?_, nofun, ?_⟩
  · intro i isOld
    rw [slot_succ_succ]
    exact (Option.some.inj isOld).symm
  · have whole : written ++ [] ++ caches (slot idx) = log := content.whole
    change written ++ caches (slot idx) ++ caches (slot (idx + 1)) = log
    rw [content.empty rfl, List.append_nil, ← whole, List.append_nil]

/-- The old cache is written. -/
theorem fwrite (content : Content caches idx written log (.flushing old)) :
    Content caches idx (written ++ caches old) log (.clearing old) := by
  refine ⟨content.old, nofun, ?_⟩
  change written ++ caches old ++ [] ++ caches (slot idx) = log
  rw [List.append_nil]
  exact content.whole

/-- The old cache is cleared. -/
theorem clear (content : Content caches idx written log (.clearing old)) :
    Content (Function.update caches old []) idx written log .cleared := by
  obtain rfl := content.old old rfl
  refine ⟨nofun, fun _ => Function.update_self .., ?_⟩
  change written ++ [] ++ Function.update caches (slot (idx + 1)) [] (slot idx) = log
  rw [Function.update_of_ne (slot_succ_ne idx).symm]
  exact content.whole

end Content

/-! ## The invariant -/

/-- Where the holder of the second lock is. -/
def holder (s : FileAppender ι) : Phase :=
  match s.flushlock with
  | some w => s.phases w
  | none => .ready

/-- The invariant. -/
structure Sound (s : FileAppender ι) : Prop where
  mutex : HeldBy Phase.holdsCs s.phases s.cs
  lock : HeldBy Phase.holdsLock s.phases s.flushlock
  content : Content s.caches s.cacheIdx s.written s.log.flatten s.holder
  opened : ∀ w, (s.phases w).past = true → s.file.isSome
  unopened : s.file = none → s.log.flatten = s.written
  ended : s.destroyed = true → (∀ w, s.phases w = .out) ∧ s.written = s.log.flatten

variable {conf : AppenderConfig} {s t : FileAppender ι} {w : ι} {p q : Phase}

@[simp]
theorem phases_move (s : FileAppender ι) (w : ι) (phase : Phase) :
    (s.move w phase).phases = Function.update s.phases w phase :=
  rfl

/-- The holder is another writer. -/
theorem holder_move_of_ne (other : s.flushlock ≠ some w) : (s.move w p).holder = s.holder := by
  rw [holder, holder]
  dsimp only [move]
  cases held : s.flushlock with
  | none => rfl
  | some v =>
      have isOther : v ≠ w := by
        rintro rfl
        exact other held
      exact Function.update_of_ne isOther ..

/-- The holder is the writer that moves. -/
theorem holder_move_self (isHolder : s.flushlock = some w) : (s.move w p).holder = p := by
  rw [holder]
  dsimp only [move]
  rw [isHolder]
  exact Function.update_self ..

omit [DecidableEq ι] in
theorem holder_eq (isHolder : s.flushlock = some w) : s.holder = s.phases w := by
  rw [holder, isHolder]

omit [DecidableEq ι] in
/-- The content for the phase of the holder. -/
theorem Content.of_holder {caches : Fin 2 → Bytes} {idx : Nat} {written log : Bytes}
    (isHolder : s.flushlock = some w) (here : s.phases w = p)
    (content : Content caches idx written log p) :
    Content caches idx written log s.holder := by
  rw [holder_eq isHolder, here]
  exact content

omit [DecidableEq ι] in
theorem sound_init : (init : FileAppender ι).Sound where
  mutex w := by simp [init, Phase.holdsCs]
  lock w := by simp [init, Phase.holdsLock]
  content := ⟨nofun, fun _ => rfl, rfl⟩
  opened w past := by cases past
  unopened _ := rfl
  ended destroyed := by cases destroyed

namespace Sound

omit [DecidableEq ι] in
/-- Nothing is written that was not appended, in another order or twice. -/
theorem inOrder (sound : s.Sound) : s.written <+: s.log.flatten := by
  rw [← sound.content.whole, List.append_assoc]
  exact List.prefix_append ..

omit [DecidableEq ι] in
/-- A writer that is not outside keeps the appender alive. -/
theorem alive (sound : s.Sound) (here : s.phases w = q) (inside : q ≠ .out) :
    ¬ s.destroyed = true :=
  fun destroyed => inside (here.symm.trans ((sound.ended destroyed).1 w))

omit [DecidableEq ι] in
theorem isHolder (sound : s.Sound) (here : s.phases w = q) (inside : q.holdsLock = true) :
    s.flushlock = some w :=
  (sound.lock w).mp (here ▸ inside)

omit [DecidableEq ι] in
theorem isOpen (sound : s.Sound) (here : s.phases w = q) (past : q.past = true) :
    s.file.isSome :=
  sound.opened w (here ▸ past)

theorem keepCs (sound : s.Sound) (here : s.phases w = q) (same : p.holdsCs = q.holdsCs) :
    HeldBy Phase.holdsCs (s.move w p).phases s.cs :=
  sound.mutex.keep (here ▸ same)

theorem keepLock (sound : s.Sound) (here : s.phases w = q) (same : p.holdsLock = q.holdsLock) :
    HeldBy Phase.holdsLock (s.move w p).phases s.flushlock :=
  sound.lock.keep (here ▸ same)

/-- The file stays open. -/
theorem opened_move {file : Option Bytes} (sound : s.Sound) (stays : s.file.isSome → file.isSome)
    (here : p.past = true → file.isSome) :
    ∀ v, ((s.move w p).phases v).past = true → file.isSome := by
  intro v past
  rw [phases_move] at past
  by_cases same : v = w
  · subst same
    rw [Function.update_self] at past
    exact here past
  · rw [Function.update_of_ne same] at past
    exact stays (sound.opened v past)

/-- A writer that does not hold the second lock moves on. -/
theorem content_of_outside (sound : s.Sound) (here : s.phases w = q)
    (outside : q.holdsLock = false) :
    Content s.caches s.cacheIdx s.written s.log.flatten (s.move w p).holder := by
  have other : s.flushlock ≠ some w := by
    intro isHolder
    have inside := (sound.lock w).mpr isHolder
    rw [here, outside] at inside
    cases inside
  rw [holder_move_of_ne other]
  exact sound.content

omit [DecidableEq ι] in
/-- What the writer that holds the second lock finds. -/
theorem content_of_inside (sound : s.Sound) (here : s.phases w = q)
    (inside : q.holdsLock = true) :
    Content s.caches s.cacheIdx s.written s.log.flatten q := by
  have content := sound.content
  rwa [holder_eq (sound.isHolder here inside), here] at content

omit [DecidableEq ι] in
/-- What a writer finds when the second lock is free. -/
theorem content_of_free (sound : s.Sound) (free : s.flushlock = none) :
    Content s.caches s.cacheIdx s.written s.log.flatten .ready := by
  have content := sound.content
  rwa [holder, free] at content

/-- A writer moves on without a change of the locks and the caches. -/
theorem moved (sound : s.Sound) (alive : ¬ s.destroyed = true) (here : s.phases w = q)
    (sameCs : p.holdsCs = q.holdsCs) (sameLock : p.holdsLock = q.holdsLock)
    (sameOld : p.old = q.old) (same : p.pending s.caches = q.pending s.caches)
    (past : p.past = true → s.file.isSome) : (s.move w p).Sound := by
  refine ⟨sound.keepCs here sameCs, sound.keepLock here sameLock, ?_, sound.opened_move id past,
    sound.unopened, fun destroyed => absurd destroyed alive⟩
  cases inside : q.holdsLock with
  | true =>
      rw [holder_move_self (sound.isHolder here inside)]
      exact (sound.content_of_inside here inside).congr sameOld same
  | false => exact sound.content_of_outside here inside

/-! ### `take` -/

theorem enter (sound : s.Sound) {n : Int} (here : s.phases w = .opening n) (free : s.cs = none) :
    Sound { s.move w (.locked n) with cs := some w } where
  mutex := (free ▸ sound.mutex).acquire rfl
  lock := sound.keepLock here rfl
  content := sound.content_of_outside here rfl
  opened := sound.opened_move id nofun
  unopened := sound.unopened
  ended destroyed := absurd destroyed (sound.alive here nofun)

theorem takeLock (sound : s.Sound) {n : Int} (here : s.phases w = .locked n)
    (free : s.flushlock = none) :
    Sound { s.move w (.rotating n) with flushlock := some w } where
  mutex := sound.keepCs here rfl
  lock := (free ▸ sound.lock).acquire rfl
  content := Content.of_holder rfl (Function.update_self ..)
    ((sound.content_of_free free).congr rfl rfl)
  opened := sound.opened_move id nofun
  unopened := sound.unopened
  ended destroyed := absurd destroyed (sound.alive here nofun)

omit [DecidableEq ι] in
/-- Only a flush can have the second lock while `take` has the mutex, and a flush has its file. -/
theorem file_of_busy (sound : s.Sound) {n : Int} {v : ι} (here : s.phases w = .locked n)
    (busy : s.flushlock = some v) : s.file.isSome := by
  have inside := (sound.lock v).mpr busy
  have mine : s.cs = some w := (sound.mutex w).mp (by rw [here]; rfl)
  cases phaseEq : s.phases v with
  | rotating m =>
      have other := (sound.mutex v).mp (by rw [phaseEq]; rfl)
      obtain rfl : v = w := Option.some.inj (other.symm.trans mine)
      cases phaseEq.symm.trans here
  | _ =>
      rw [phaseEq] at inside
      first
        | exact sound.isOpen phaseEq rfl
        | cases inside

theorem reopen (sound : s.Sound) {n : Int} (here : s.phases w = .rotating n) :
    Sound { s.move w (.opened n) with
      closed := s.closed ++ s.file.toList
      file := some [] } := by
  have same : (s.closed ++ s.file.toList).flatten ++ [] = s.written := by
    rw [written, List.flatten_append, List.append_nil]
    cases s.file <;> simp
  have content : Content s.caches s.cacheIdx s.written s.log.flatten (.opened n) :=
    (sound.content_of_inside here rfl).congr rfl rfl
  rw [← same] at content
  exact ⟨sound.keepCs here rfl, sound.keepLock here rfl,
    Content.of_holder (sound.isHolder here rfl) (Function.update_self ..) content,
    sound.opened_move (fun _ => rfl) (fun _ => rfl), nofun,
    fun destroyed => absurd destroyed (sound.alive here nofun)⟩

theorem unlockTake (sound : s.Sound) (here : s.phases w = .stamped) :
    Sound { s.move w .leaving with flushlock := none } where
  mutex := sound.keepCs here rfl
  lock := sound.lock.release (by rw [here]; rfl) rfl
  content := (sound.content_of_inside here rfl).congr rfl rfl
  opened := sound.opened_move id fun _ => sound.isOpen here rfl
  unopened := sound.unopened
  ended destroyed := absurd destroyed (sound.alive here nofun)

theorem leave (sound : s.Sound) (here : s.phases w = .leaving) :
    Sound { s.move w .ready with cs := none } where
  mutex := sound.mutex.release (by rw [here]; rfl) rfl
  lock := sound.keepLock here rfl
  content := sound.content_of_outside here rfl
  opened := sound.opened_move id fun _ => sound.isOpen here rfl
  unopened := sound.unopened
  ended destroyed := absurd destroyed (sound.alive here nofun)

/-! ### `write_s` -/

theorem append (sound : s.Sound) {str : Bytes} {n : Int} (here : s.phases w = .writing str n)
    (free : s.cs = none) :
    Sound { s.move w (.appended n) with
      cs := some w
      caches := Function.update s.caches (slot s.cacheIdx) (s.caches (slot s.cacheIdx) ++ str)
      log := s.log ++ [str] } := by
  have isOpen := sound.isOpen here rfl
  have content := (sound.content_of_outside (p := .appended n) here rfl).append str
  have flat : (s.log ++ [str]).flatten = s.log.flatten ++ str := by simp
  rw [← flat] at content
  refine ⟨(free ▸ sound.mutex).acquire rfl, sound.keepLock here rfl, content,
    sound.opened_move id (fun _ => isOpen), ?_,
    fun destroyed => absurd destroyed (sound.alive here nofun)⟩
  intro (gone : s.file = none)
  rw [gone] at isOpen
  cases isOpen

theorem swap (sound : s.Sound) {n : Int} (here : s.phases w = .appended n)
    (free : s.flushlock = none) :
    Sound { s.move w (.swapped (slot s.cacheIdx)) with
      flushlock := some w
      cacheIdx := s.cacheIdx + 1 } where
  mutex := sound.keepCs here rfl
  lock := (free ▸ sound.lock).acquire rfl
  content := Content.of_holder rfl (Function.update_self ..) (sound.content_of_free free).swap
  opened := sound.opened_move id fun _ => sound.isOpen here rfl
  unopened := sound.unopened
  ended destroyed := absurd destroyed (sound.alive here nofun)

theorem leaveSwapped (sound : s.Sound) {old : Fin 2} (here : s.phases w = .swapped old) :
    Sound { s.move w (.flushing old) with cs := none } where
  mutex := sound.mutex.release (by rw [here]; rfl) rfl
  lock := sound.keepLock here rfl
  content := Content.of_holder (sound.isHolder here rfl) (Function.update_self ..)
    ((sound.content_of_inside here rfl).congr rfl rfl)
  opened := sound.opened_move id fun _ => sound.isOpen here rfl
  unopened := sound.unopened
  ended destroyed := absurd destroyed (sound.alive here nofun)

theorem fwrite (sound : s.Sound) {old : Fin 2} (here : s.phases w = .flushing old) :
    Sound { s.move w (.clearing old) with file := s.file.map (· ++ s.caches old) } := by
  obtain ⟨data, fileEq⟩ := Option.isSome_iff_exists.mp (sound.isOpen here rfl)
  have more : s.closed.flatten ++ (s.file.map (· ++ s.caches old)).getD [] =
      s.written ++ s.caches old := by
    rw [written, fileEq, List.append_assoc]
    rfl
  have content := (sound.content_of_inside here rfl).fwrite
  rw [← more] at content
  exact ⟨sound.keepCs here rfl, sound.keepLock here rfl,
    Content.of_holder (sound.isHolder here rfl) (Function.update_self ..) content,
    sound.opened_move (by simp) (by simp [fileEq]), by simp [fileEq],
    fun destroyed => absurd destroyed (sound.alive here nofun)⟩

theorem clear (sound : s.Sound) {old : Fin 2} (here : s.phases w = .clearing old) :
    Sound { s.move w .cleared with caches := Function.update s.caches old [] } where
  mutex := sound.keepCs here rfl
  lock := sound.keepLock here rfl
  content := Content.of_holder (sound.isHolder here rfl) (Function.update_self ..)
    (sound.content_of_inside here rfl).clear
  opened := sound.opened_move id fun _ => sound.isOpen here rfl
  unopened := sound.unopened
  ended destroyed := absurd destroyed (sound.alive here nofun)

theorem unlockFlush (sound : s.Sound) (here : s.phases w = .unlocking) :
    Sound { s.move w .ready with flushlock := none } where
  mutex := sound.keepCs here rfl
  lock := sound.lock.release (by rw [here]; rfl) rfl
  content := (sound.content_of_inside here rfl).congr rfl rfl
  opened := sound.opened_move id fun _ => sound.isOpen here rfl
  unopened := sound.unopened
  ended destroyed := absurd destroyed (sound.alive here nofun)

/-! ### The end -/

omit [DecidableEq ι] in
/-- The destructor, when no writer is left. -/
theorem destroy (sound : s.Sound) (none : ∀ w, s.phases w = .out) :
    Sound { s with
      caches := fun _ => []
      closed := s.closed ++ (s.file.map fun written => written ++
        s.caches (slot s.cacheIdx) ++ s.caches (slot (1 + s.cacheIdx))).toList
      file := Option.none
      destroyed := true } := by
  have free : s.flushlock = Option.none := by
    cases held : s.flushlock with
    | none => rfl
    | some w =>
        have inside := (sound.lock w).mpr held
        rw [none w] at inside
        cases inside
  have content := sound.content
  rw [holder, free] at content
  have whole : s.written ++ [] ++ s.caches (slot s.cacheIdx) = s.log.flatten := content.whole
  have all : (s.closed ++ (s.file.map fun written => written ++
      s.caches (slot s.cacheIdx) ++ s.caches (slot (1 + s.cacheIdx))).toList).flatten ++ [] =
        s.log.flatten := by
    cases fileEq : s.file with
    | none =>
        rw [sound.unopened fileEq, written, fileEq]
        simp
    | some data =>
        rw [written, fileEq] at whole
        rw [Nat.add_comm 1, content.empty rfl, ← whole]
        simp
  refine ⟨sound.mutex, sound.lock, ?_, ?_, fun _ => all.symm, fun _ => ⟨none, all⟩⟩
  · rw [holder]
    dsimp only
    rw [free]
    refine ⟨nofun, fun _ => rfl, ?_⟩
    rw [List.append_nil]
    exact (List.append_nil _).trans all
  · intro w past
    rw [none w] at past
    cases past

/-- The step lemma. -/
theorem step {e : Event ι} (sound : s.Sound) (guarded : s.Guard conf e)
    (taken : Step conf s e t) : t.Sound := by
  cases taken with
  | recent here exists' isRecent =>
      refine sound.moved (by simp [exists']) here rfl rfl rfl rfl fun _ => ?_
      -- without a file the time of the last opening is long ago
      rw [Option.isSome_iff_ne_none]
      intro gone
      have longAgo := guarded gone
      omega
  | outdated here exists' => exact sound.moved (by simp [exists']) here rfl rfl rfl rfl nofun
  | enter here free => exact sound.enter here free
  | lock here free => exact sound.takeLock here free
  | busy here isBusy =>
      exact sound.moved (sound.alive here nofun) here rfl rfl rfl rfl
        fun _ => sound.file_of_busy here isBusy
  | reopen here => exact sound.reopen here
  | setOpenTime here =>
      have moved := sound.moved (p := .stamped) (sound.alive here nofun) here rfl rfl rfl rfl
        fun _ => sound.isOpen here rfl
      exact ⟨moved.mutex, moved.lock, moved.content, moved.opened, moved.unopened, moved.ended⟩
  | unlockTake here => exact sound.unlockTake here
  | leave here => exact sound.leave here
  | write here =>
      exact sound.moved (sound.alive here nofun) here rfl rfl rfl rfl
        fun _ => sound.isOpen here rfl
  | append here free => exact sound.append here free
  | swap here _ free => exact sound.swap here free
  | keep here =>
      exact sound.moved (sound.alive here nofun) here rfl rfl rfl rfl
        fun _ => sound.isOpen here rfl
  | leaveSwapped here => exact sound.leaveSwapped here
  | fwrite here => exact sound.fwrite here
  | clear here => exact sound.clear here
  | setFlushTime here =>
      have moved := sound.moved (p := .unlocking) (sound.alive here nofun) here rfl rfl rfl rfl
        fun _ => sound.isOpen here rfl
      exact ⟨moved.mutex, moved.lock, moved.content, moved.opened, moved.unopened, moved.ended⟩
  | unlockFlush here => exact sound.unlockFlush here
  | give here => exact sound.moved (sound.alive here nofun) here rfl rfl rfl rfl nofun
  | destroy none => exact sound.destroy none

end Sound

/-- In every run in which `take` finds the time of the last opening long enough ago while no
file is open, the files hold what was appended, in order and once. -/
theorem complete_of_guarded {events : List (Event ι)}
    (run : Run (Step conf) (Guard conf) init events s) : s.Complete := by
  have sound : s.Sound := run.invariant sound_init fun _ _ _ sound guarded taken =>
    sound.step guarded taken
  exact ⟨sound.inOrder, fun destroyed => (sound.ended destroyed).2⟩

/-! ## Runs -/

/-- A file for each minute. -/
def everyMinute : AppenderConfig := ⟨60, 8192, fun n => n - n % 60⟩

/-- A writer opens the file, writes a string and flushes it, and another one appends a string
meanwhile. -/
def writes : List (Event Bool) :=
  [.take true 1020, .enter true, .tryLock true, .reopen true, .setOpenTime true,
    .unlockTake true, .leave true, .take false 1020, .write true [97] 1020, .append true,
    .decide true, .leaveSwapped true, .write false [98] 1020, .append false, .decide false,
    .leave false, .fwrite true, .clear true, .setFlushTime true 1020, .unlockFlush true,
    .give true, .give false, .destroy]

theorem complete_of_guarded_writes :
    ∃ s : FileAppender Bool, Run (Step everyMinute) (Guard everyMinute) init writes s ∧
      s.destroyed = true ∧ s.written = [97, 98] ∧ s.Complete := by
  have run : ∃ s : FileAppender Bool, Run (Step everyMinute) (Guard everyMinute) init writes s ∧
      s.destroyed = true ∧ s.written = [97, 98] :=
    ⟨_, Run.cons (fun _ => by decide) (.outdated rfl rfl (by decide)) <|
      Run.cons trivial (.enter (n := 1020) rfl rfl) <|
      Run.cons trivial (.lock (n := 1020) rfl rfl) <|
      Run.cons trivial (.reopen (n := 1020) rfl) <|
      Run.cons trivial (.setOpenTime (n := 1020) rfl) <|
      Run.cons trivial (.unlockTake rfl) <| Run.cons trivial (.leave rfl) <|
      Run.cons nofun (.recent rfl rfl (by decide)) <|
      Run.cons trivial (.write rfl) <| Run.cons trivial (.append (n := 1020) rfl rfl) <|
      Run.cons trivial (.swap (n := 1020) rfl (Or.inr (by decide)) rfl) <|
      Run.cons trivial (.leaveSwapped rfl) <|
      Run.cons trivial (.write rfl) <| Run.cons trivial (.append (n := 1020) rfl rfl) <|
      Run.cons trivial (.keep (n := 1020) rfl fun both => Option.some_ne_none true both.2) <|
      Run.cons trivial (.leave rfl) <|
      Run.cons trivial (.fwrite rfl) <|
      Run.cons trivial (.clear rfl) <| Run.cons trivial (.setFlushTime rfl) <|
      Run.cons trivial (.unlockFlush rfl) <| Run.cons trivial (.give rfl) <|
      Run.cons trivial (.give rfl) <|
      Run.single trivial (.destroy (fun w => by cases w <;> rfl) rfl), rfl, rfl⟩
  obtain ⟨s, run, destroyed, written⟩ := run
  exact ⟨s, run, destroyed, written, complete_of_guarded run⟩

/-- A single file for all times. -/
def never : AppenderConfig := ⟨0x7FFFFFFF, 8192, fun n => n - n % 86400⟩

/-- The writer finds no file to flush its string to. -/
def losesLine : List (Event Unit) :=
  [.take () 1400000000, .write () [97] 1400000000, .append (), .decide (), .leaveSwapped (),
    .fwrite (), .clear (), .setFlushTime () 1400000000, .unlockFlush (), .give (), .destroy]

/-- With a span that is longer than the time since 1970 no file is opened at all. -/
theorem line_is_lost :
    ∃ s : FileAppender Unit, Run (Step never) anyStep init losesLine s ∧ s.destroyed = true ∧
      s.written = [] ∧ s.log = [[97]] ∧ ¬ s.Complete := by
  have run : ∃ s : FileAppender Unit, Run (Step never) anyStep init losesLine s ∧
      s.destroyed = true ∧ s.written = [] ∧ s.log = [[97]] :=
    ⟨_, Run.cons trivial (.recent rfl rfl (by decide)) <| Run.cons trivial (.write rfl) <|
      Run.cons trivial (.append (n := 1400000000) rfl rfl) <|
      Run.cons trivial (.swap (n := 1400000000) rfl (Or.inr (by decide)) rfl) <|
      Run.cons trivial (.leaveSwapped rfl) <| Run.cons trivial (.fwrite rfl) <|
      Run.cons trivial (.clear rfl) <| Run.cons trivial (.setFlushTime rfl) <|
      Run.cons trivial (.unlockFlush rfl) <| Run.cons trivial (.give rfl) <|
      Run.single trivial (.destroy (fun _ => rfl) rfl), rfl, rfl, rfl⟩
  obtain ⟨s, run, destroyed, written, log⟩ := run
  refine ⟨s, run, destroyed, written, log, fun complete => ?_⟩
  have all := complete.all destroyed
  rw [written, log] at all
  cases all

end FileAppender

end GPush.Utility
