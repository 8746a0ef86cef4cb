import GPush.LoopBuf.Frame
import GPush.Transition.Run
import Mathlib.Logic.Function.Basic

/-!
# Lookups beside logins

The hash of a user in one cache, with the commands of any number of calls in any order.
`setSession` is an `HSET` and an `EXPIRE`, `delSession` an `HDEL`, and `getSession` an
`HGETALL` and an `HDEL` of the fields that it judges expired.  Times are milliseconds,
and `time(NULL)` gives whole seconds.
-/

namespace GPush.SessCache

open GPush.Transition

namespace Race

/-- A session id with the time at which its `setSession` has read the clock. -/
structure Stamp where
  sessid : Bytes
  time : Int
  deriving DecidableEq, Repr

/-- An `HDEL` of a lookup that is still to come. -/
structure Purge where
  /-- The fields that it names. -/
  ids : List Bytes
  /-- What has been set since the `HGETALL`, and not deleted by a `delSession` since. -/
  since : List Stamp
  deriving DecidableEq, Repr

namespace Purge

/-- An `HSET` takes effect. -/
def set (p : Purge) (stamp : Stamp) : Purge :=
  { p with since := (p.since.filter fun other => decide (other.sessid ≠ stamp.sessid)) ++ [stamp] }

/-- A `delSession` takes effect. -/
def del (p : Purge) (sessid : Bytes) : Purge :=
  { p with since := p.since.filter fun other => decide (other.sessid ≠ sessid) }

end Purge

/-- The hash of a key, its time to live, and the calls under way. -/
structure State where
  now : Int
  /-- The fields; what is stored as `lasttime` is `time(NULL)` at the time of the stamp. -/
  fields : List Stamp
  /-- When redis removes the key, if a time to live is set. -/
  deadline : Option Int
  /-- The calls of `setSession` before their `HSET`. -/
  sets : List Stamp
  /-- Those before their `EXPIRE`. -/
  expires : List Stamp
  /-- The calls of `getSession` before their `HGETALL`, with their `time(NULL)`. -/
  gets : List Int
  /-- Those before their `HDEL`. -/
  purges : List Purge
  /-- The last `setSession` whose `HSET` has taken effect, unless a `delSession` has since. -/
  last : Bytes → Option Int

/-- Nothing is stored yet. -/
def init (start : Int) : State := ⟨start, [], none, [], [], [], [], fun _ => none⟩

/-- `time(NULL)`. -/
def seconds (time : Int) : Int := time / 1000

namespace State

/-- `HDEL`.  A key without fields is removed, with its time to live. -/
def hashDel (s : State) (ids : List Bytes) : State :=
  let fields := s.fields.filter fun stamp => !ids.contains stamp.sessid
  { s with
    fields := fields
    deadline := if fields = [] then none else s.deadline }

/-- Removing the key. -/
def keyDel (s : State) : State := { s with fields := [], deadline := none }

/-- Time passes, and the key is gone once its time to live is over. -/
def tick (s : State) (ms : Nat) : State :=
  let s := { s with now := s.now + ms }
  if s.deadline.any fun deadline => decide (deadline < s.now) then s.keyDel else s

/-- `HSET`. -/
def hashSet (s : State) (stamp : Stamp) : State :=
  { s with
    fields := (s.fields.filter fun other => decide (other.sessid ≠ stamp.sessid)) ++ [stamp]
    sets := s.sets.erase stamp
    expires := s.expires ++ [stamp]
    purges := s.purges.map fun p => p.set stamp
    last := Function.update s.last stamp.sessid (some stamp.time) }

section Expire

variable (expire : Int)

/-- `EXPIRE`, which removes the key at once when the time is not positive. -/
def keyExpire (s : State) (stamp : Stamp) : State :=
  let s := { s with expires := s.expires.erase stamp }
  if s.fields = [] then
    s
  else if expire ≤ 0 then
    s.keyDel
  else
    { s with deadline := some (s.now + 1000 * expire) }

/-- The fields that `getSession` judges expired. -/
def oldsessids (s : State) (n : Int) : List Bytes :=
  (s.fields.filter fun stamp => decide (seconds stamp.time + expire < n)).map Stamp.sessid

/-- `HGETALL`. -/
def hashGetAll (s : State) (n : Int) : State :=
  let old := s.oldsessids expire n
  { s with
    gets := s.gets.erase n
    purges := if old = [] then s.purges else s.purges ++ [⟨old, []⟩] }

end Expire

/-- The `i`th `HDEL` of the lookups. -/
def purge (s : State) (i : Nat) (p : Purge) : State :=
  { s with purges := s.purges.eraseIdx i }.hashDel p.ids

/-- The `HDEL` of `delSession`. -/
def delSession (s : State) (sessid : Bytes) : State :=
  let s := { s with
    purges := s.purges.map fun p : Purge => p.del sessid
    last := Function.update s.last sessid none }
  s.hashDel [sessid]

end State

/-- What happens: time passes, a call begins, or redis carries out a command. -/
inductive Event
  | tick (ms : Nat)
  | setBegin (sessid : Bytes)
  | hashSet (stamp : Stamp)
  | keyExpire (stamp : Stamp)
  | delSession (sessid : Bytes)
  | getBegin
  | hashGetAll (n : Int)
  | purge (i : Nat)
  deriving DecidableEq, Repr

section Steps

variable (expire : Int)

/-- The state after an event, if it can happen. -/
def next (s : State) : Event → Option State
  | .tick ms => some (s.tick ms)
  | .setBegin sessid => some { s with sets := s.sets ++ [⟨sessid, s.now⟩] }
  | .hashSet stamp => if stamp ∈ s.sets then some (s.hashSet stamp) else none
  | .keyExpire stamp => if stamp ∈ s.expires then some (s.keyExpire expire stamp) else none
  | .delSession sessid => some (s.delSession sessid)
  | .getBegin => some { s with gets := s.gets ++ [seconds s.now] }
  | .hashGetAll n => if n ∈ s.gets then some (s.hashGetAll expire n) else none
  | .purge i => (s.purges[i]?).map fun p => s.purge i p

/-- The step relation. -/
def Step : LTS State Event := fun s event t => next expire s event = some t

/-- The session has been set at `time`, and no more than `expire` seconds have passed. -/
def Live (s : State) (sessid : Bytes) (time : Int) : Prop :=
  s.last sessid = some time ∧ s.now ≤ time + 1000 * expire

/-- Every live session is in the hash. -/
def Kept (s : State) : Prop := ∀ sessid time, Live expire s sessid time → ⟨sessid, time⟩ ∈ s.fields

/-- No session that the `HDEL` of a lookup names has been set since its `HGETALL`, unless it is
deleted or older than `expire` seconds again; the time to live is not over while a live session
waits for its `EXPIRE`; and an `EXPIRE` does not remove a live session. -/
def Guard (s : State) : Event → Prop
  | .tick ms => ∀ deadline, s.deadline = some deadline → deadline < s.now + ms →
      ∀ stamp ∈ s.expires, s.last stamp.sessid = some stamp.time →
        stamp.time + 1000 * expire < s.now + ms
  | .keyExpire _ => 0 < expire ∨ ∀ sessid time, ¬Live expire s sessid time
  | .purge i => ∀ p, s.purges[i]? = some p → ∀ stamp ∈ p.since, stamp.sessid ∈ p.ids →
      stamp.time + 1000 * expire < s.now
  | _ => True

/-! ## What holds whatever happens -/

/-- A session that a coming `HDEL` names is too old, or has been set since. -/
structure Tracked (s : State) (p : Purge) : Prop where
  last : ∀ stamp ∈ p.since, s.last stamp.sessid = some stamp.time
  named : ∀ sessid ∈ p.ids, ∀ time, s.last sessid = some time →
    time + 1000 * expire < s.now ∨ ⟨sessid, time⟩ ∈ p.since

/-- What holds between the commands: nothing is set in the future, the hash holds of every
session what was set last, the time to live covers it unless its `EXPIRE` is still to come, and
the lookups have judged what they delete. -/
structure Sound (s : State) : Prop where
  setsPast : ∀ stamp ∈ s.sets, stamp.time ≤ s.now
  lastPast : ∀ sessid time, s.last sessid = some time → time ≤ s.now
  stored : ∀ stamp ∈ s.fields, s.last stamp.sessid = some stamp.time
  covered : ∀ deadline, s.deadline = some deadline → ∀ stamp ∈ s.fields,
    stamp ∈ s.expires ∨ stamp.time + 1000 * expire ≤ deadline
  getsPast : ∀ n ∈ s.gets, n ≤ seconds s.now
  tracked : ∀ p ∈ s.purges, Tracked expire s p

variable {expire} {s : State}

theorem sound_init (start : Int) : Sound expire (init start) := by
  constructor <;> simp [init]

/-- What a lookup judges expired is older than `expire` seconds. -/
theorem old_of_judged {n time : Int} (judged : seconds time + expire < n)
    (past : n ≤ seconds s.now) : time + 1000 * expire < s.now := by
  simp only [seconds] at judged past
  omega

namespace Tracked

variable {p : Purge}

theorem set (tracked : Tracked expire s p) (stamp : Stamp) :
    Tracked expire (s.hashSet stamp) (p.set stamp) := by
  constructor
  · intro other member
    simp only [State.hashSet]
    rcases List.mem_append.mp member with older | new
    · rcases List.mem_filter.mp older with ⟨older, differs⟩
      rw [Function.update_of_ne (of_decide_eq_true differs)]
      exact tracked.last other older
    · rw [List.mem_singleton.mp new, Function.update_self]
  · intro sessid member time set
    simp only [State.hashSet] at set ⊢
    by_cases same : sessid = stamp.sessid
    · subst same
      rw [Function.update_self] at set
      obtain rfl := Option.some.inj set
      exact Or.inr (List.mem_append_right _ (List.mem_singleton.mpr rfl))
    · rw [Function.update_of_ne same] at set
      refine (tracked.named sessid member time set).imp_right fun older => ?_
      exact List.mem_append_left _ (List.mem_filter.mpr ⟨older, decide_eq_true same⟩)

theorem del (tracked : Tracked expire s p) (sessid : Bytes) :
    Tracked expire (s.delSession sessid) (p.del sessid) := by
  constructor
  · intro other member
    rcases List.mem_filter.mp member with ⟨older, differs⟩
    simp only [State.delSession, State.hashDel]
    rw [Function.update_of_ne (of_decide_eq_true differs)]
    exact tracked.last other older
  · intro other member time set
    simp only [State.delSession, State.hashDel] at set ⊢
    by_cases same : other = sessid
    · subst same
      simp at set
    · rw [Function.update_of_ne same] at set
      refine (tracked.named other member time set).imp_right fun older => ?_
      exact List.mem_filter.mpr ⟨older, decide_eq_true same⟩

end Tracked

namespace Sound

/-- The hash loses some of its fields, perhaps with the time to live. -/
theorem lose (sound : Sound expire s) {t : State} (nowEq : t.now = s.now)
    (fields : t.fields ⊆ s.fields) (deadline : t.deadline = s.deadline ∨ t.deadline = none)
    (setsEq : t.sets = s.sets) (expiresEq : t.expires = s.expires) (getsEq : t.gets = s.gets)
    (purges : t.purges ⊆ s.purges) (lastEq : t.last = s.last) : Sound expire t := by
  constructor
  · rw [setsEq, nowEq]
    exact sound.setsPast
  · rw [lastEq, nowEq]
    exact sound.lastPast
  · rw [lastEq]
    exact fun stamp member => sound.stored stamp (fields member)
  · rw [expiresEq]
    intro ending isSome stamp member
    rcases deadline with same | none
    · exact sound.covered ending (same ▸ isSome) stamp (fields member)
    · exact absurd (none.symm.trans isSome) (by simp)
  · rw [getsEq, nowEq]
    exact sound.getsPast
  · intro p member
    have tracked := sound.tracked p (purges member)
    constructor
    · rw [lastEq]
      exact tracked.last
    · rw [lastEq, nowEq]
      exact tracked.named

theorem keyDel (sound : Sound expire s) : Sound expire s.keyDel :=
  sound.lose rfl (List.nil_subset _) (Or.inr rfl) rfl rfl rfl (List.Subset.refl _) rfl

theorem hashDel (sound : Sound expire s) (ids : List Bytes) : Sound expire (s.hashDel ids) := by
  refine sound.lose rfl List.filter_sublist.subset ?_ rfl rfl rfl (List.Subset.refl _) rfl
  simp only [State.hashDel]
  split_ifs
  · exact Or.inr rfl
  · exact Or.inl rfl

theorem tick (sound : Sound expire s) (ms : Nat) : Sound expire (s.tick ms) := by
  have later : Sound expire { s with now := s.now + ms } := by
    constructor
    · intro stamp member
      exact Int.le_trans (sound.setsPast stamp member) (Int.le_add_of_nonneg_right (by omega))
    · intro sessid time set
      exact Int.le_trans (sound.lastPast sessid time set) (Int.le_add_of_nonneg_right (by omega))
    · exact sound.stored
    · exact sound.covered
    · intro n member
      have past := sound.getsPast n member
      simp only [seconds] at past ⊢
      omega
    · intro p member
      refine ⟨(sound.tracked p member).last, fun sessid named time set => ?_⟩
      refine ((sound.tracked p member).named sessid named time set).imp_left fun old => ?_
      simp only
      omega
  rw [State.tick]
  split_ifs with isOver
  · exact later.keyDel
  · exact later

theorem hashSet (sound : Sound expire s) {stamp : Stamp} (waits : stamp ∈ s.sets) :
    Sound expire (s.hashSet stamp) := by
  constructor
  · intro other member
    exact sound.setsPast other (List.mem_of_mem_erase member)
  · intro sessid time set
    simp only [State.hashSet] at set
    by_cases same : sessid = stamp.sessid
    · subst same
      rw [Function.update_self] at set
      obtain rfl := Option.some.inj set
      exact sound.setsPast stamp waits
    · rw [Function.update_of_ne same] at set
      exact sound.lastPast sessid time set
  · intro other member
    simp only [State.hashSet]
    rcases List.mem_append.mp member with older | new
    · rcases List.mem_filter.mp older with ⟨older, differs⟩
      rw [Function.update_of_ne (of_decide_eq_true differs)]
      exact sound.stored other older
    · rw [List.mem_singleton.mp new, Function.update_self]
  · intro deadline isSome other member
    rcases List.mem_append.mp member with older | new
    · refine (sound.covered deadline isSome other (List.mem_filter.mp older).1).imp_left ?_
      exact fun waits => List.mem_append_left _ waits
    · exact Or.inl (List.mem_append_right _ new)
  · exact sound.getsPast
  · intro p member
    rcases List.mem_map.mp member with ⟨older, olderMember, rfl⟩
    exact (sound.tracked older olderMember).set stamp

theorem keyExpire (sound : Sound expire s) (stamp : Stamp) :
    Sound expire (s.keyExpire expire stamp) := by
  rw [State.keyExpire]
  simp only
  split_ifs with noFields notPositive
  · refine ⟨sound.setsPast, sound.lastPast, sound.stored, ?_, sound.getsPast, ?_⟩
    · intro deadline isSome other present
      exact absurd (noFields ▸ present) List.not_mem_nil
    · exact fun p member => ⟨(sound.tracked p member).last, (sound.tracked p member).named⟩
  · refine ⟨sound.setsPast, sound.lastPast, ?_, ?_, sound.getsPast, ?_⟩
    · exact fun other present => absurd present List.not_mem_nil
    · exact fun _ _ other present => absurd present List.not_mem_nil
    · exact fun p member => ⟨(sound.tracked p member).last, (sound.tracked p member).named⟩
  · refine ⟨sound.setsPast, sound.lastPast, sound.stored, ?_, sound.getsPast, ?_⟩
    · intro deadline isSome other present
      have past := sound.lastPast _ _ (sound.stored other present)
      obtain rfl := Option.some.inj isSome
      exact Or.inr (by omega)
    · exact fun p member => ⟨(sound.tracked p member).last, (sound.tracked p member).named⟩

theorem delSession (sound : Sound expire s) (sessid : Bytes) :
    Sound expire (s.delSession sessid) := by
  have fewer := sound.hashDel [sessid]
  refine ⟨fewer.setsPast, ?_, ?_, fewer.covered, fewer.getsPast, ?_⟩
  · intro other time set
    simp only [State.delSession, State.hashDel] at set
    by_cases same : other = sessid
    · subst same
      simp at set
    · rw [Function.update_of_ne same] at set
      exact sound.lastPast other time set
  · intro other member
    rcases List.mem_filter.mp member with ⟨older, kept⟩
    have differs : other.sessid ≠ sessid := by
      rintro rfl
      simp at kept
    simp only [State.delSession, State.hashDel]
    rw [Function.update_of_ne differs]
    exact sound.stored other older
  · intro p member
    rcases List.mem_map.mp member with ⟨older, olderMember, rfl⟩
    exact (sound.tracked older olderMember).del sessid

/-- A lookup names only sessions that are too old. -/
theorem hashGetAll (sound : Sound expire s) {n : Int} (begun : n ∈ s.gets) :
    Sound expire (s.hashGetAll expire n) := by
  refine ⟨sound.setsPast, sound.lastPast, sound.stored, sound.covered, ?_, ?_⟩
  · exact fun m member => sound.getsPast m (List.mem_of_mem_erase member)
  · intro p member
    have older (earlier : p ∈ s.purges) : Tracked expire (s.hashGetAll expire n) p :=
      ⟨(sound.tracked p earlier).last, (sound.tracked p earlier).named⟩
    simp only [State.hashGetAll] at member
    split_ifs at member
    · exact older member
    · rcases List.mem_append.mp member with earlier | new
      · exact older earlier
      · rw [List.mem_singleton.mp new]
        refine ⟨fun stamp since => absurd since List.not_mem_nil, ?_⟩
        intro sessid named time set
        rcases List.mem_map.mp named with ⟨stamp, judged, rfl⟩
        rcases List.mem_filter.mp judged with ⟨present, judged⟩
        have timeEq := Option.some.inj ((sound.stored stamp present).symm.trans set)
        rw [timeEq] at judged
        exact Or.inl (old_of_judged (of_decide_eq_true judged) (sound.getsPast n begun))

/-- The step lemma: every command keeps it, guarded or not. -/
theorem step {event : Event} {t : State} (sound : Sound expire s)
    (taken : Step expire s event t) : Sound expire t := by
  cases event with
  | tick ms =>
      obtain rfl := Option.some.inj taken
      exact sound.tick ms
  | setBegin sessid =>
      obtain rfl := Option.some.inj taken
      refine ⟨?_, sound.lastPast, sound.stored, sound.covered, sound.getsPast, ?_⟩
      · intro stamp member
        rcases List.mem_append.mp member with older | new
        · exact sound.setsPast stamp older
        · rcases List.mem_singleton.mp new with rfl
          exact Int.le_refl _
      · exact fun p member => ⟨(sound.tracked p member).last, (sound.tracked p member).named⟩
  | hashSet stamp =>
      rw [Step, next] at taken
      split_ifs at taken with waits
      obtain rfl := Option.some.inj taken
      exact sound.hashSet waits
  | keyExpire stamp =>
      rw [Step, next] at taken
      split_ifs at taken
      obtain rfl := Option.some.inj taken
      exact sound.keyExpire stamp
  | delSession sessid =>
      obtain rfl := Option.some.inj taken
      exact sound.delSession sessid
  | getBegin =>
      obtain rfl := Option.some.inj taken
      refine ⟨sound.setsPast, sound.lastPast, sound.stored, sound.covered, ?_, ?_⟩
      · intro n member
        rcases List.mem_append.mp member with older | new
        · exact sound.getsPast n older
        · rcases List.mem_singleton.mp new with rfl
          exact Int.le_refl _
      · exact fun p member => ⟨(sound.tracked p member).last, (sound.tracked p member).named⟩
  | hashGetAll n =>
      rw [Step, next] at taken
      split_ifs at taken with begun
      obtain rfl := Option.some.inj taken
      exact sound.hashGetAll begun
  | purge i =>
      rcases Option.map_eq_some_iff.mp taken with ⟨p, found, rfl⟩
      have unlisted : Sound expire { s with purges := s.purges.eraseIdx i } :=
        sound.lose rfl (List.Subset.refl _) (Or.inl rfl) rfl rfl rfl
          (List.eraseIdx_sublist ..).subset rfl
      exact unlisted.hashDel p.ids

end Sound

theorem sound_of_reachable {start : Int} (reached : Reachable (Step expire) (init start) s) :
    Sound expire s :=
  reached.invariant (sound_init start) fun _ _ _ sound taken => sound.step taken

/-! ## What the guard keeps -/

namespace Kept

/-- Nothing is lost where nothing is deleted that is live. -/
theorem hashDel_iff (kept : Kept expire s) (ids : List Bytes) :
    Kept expire (s.hashDel ids) ↔ ∀ sessid ∈ ids, ∀ time, ¬Live expire s sessid time := by
  constructor
  · intro after sessid named time live
    have present := after sessid time live
    simp [State.hashDel, named] at present
  · intro noneLive sessid time live
    refine List.mem_filter.mpr ⟨kept sessid time live, ?_⟩
    rw [Bool.not_eq_true', ← Bool.not_eq_true, List.contains_iff_mem]
    exact fun deleted => noneLive sessid deleted time live

/-- The time to live ends with the last session that is covered by it. -/
theorem tick_iff (kept : Kept expire s) (sound : Sound expire s) (ms : Nat) :
    Kept expire (s.tick ms) ↔ Guard expire s (.tick ms) := by
  have later : Kept expire { s with now := s.now + ms } := by
    intro sessid time live
    have nowLe : s.now + ms ≤ time + 1000 * expire := live.2
    exact kept sessid time ⟨live.1, by omega⟩
  rw [State.tick]
  split_ifs with isOver
  · rcases (Option.any_eq_true _ _).mp isOver with ⟨deadline, deadlineEq, passed⟩
    have deadlinePassed : deadline < s.now + ms := of_decide_eq_true passed
    constructor
    · intro after ended _ _ stamp waits set
      by_contra young
      have live : Live expire { s with now := s.now + ms } stamp.sessid stamp.time :=
        ⟨set, Int.not_lt.mp young⟩
      exact absurd (after stamp.sessid stamp.time live) List.not_mem_nil
    · intro guarded sessid time live
      have nowLe : s.now + ms ≤ time + 1000 * expire := live.2
      have present := later sessid time live
      rcases sound.covered deadline deadlineEq _ present with waits | covers
      · have old := guarded deadline deadlineEq deadlinePassed _ waits live.1
        simp only at old
        omega
      · simp only at covers
        omega
  · refine iff_of_true later fun deadline deadlineEq passed => ?_
    exact absurd ((Option.any_eq_true _ _).mpr ⟨deadline, deadlineEq, decide_eq_true passed⟩) isOver

theorem hashSet (kept : Kept expire s) (stamp : Stamp) : Kept expire (s.hashSet stamp) := by
  intro sessid time live
  have set := live.1
  simp only [State.hashSet] at set
  apply List.mem_append.mpr
  by_cases same : sessid = stamp.sessid
  · subst same
    rw [Function.update_self] at set
    obtain rfl := Option.some.inj set
    exact Or.inr (List.mem_singleton.mpr rfl)
  · rw [Function.update_of_ne same] at set
    exact Or.inl (List.mem_filter.mpr ⟨kept sessid time ⟨set, live.2⟩, decide_eq_true same⟩)

/-- An `EXPIRE` that is not positive removes the key. -/
theorem keyExpire_iff (kept : Kept expire s) (stamp : Stamp) :
    Kept expire (s.keyExpire expire stamp) ↔ Guard expire s (.keyExpire stamp) := by
  rw [State.keyExpire]
  simp only
  split_ifs with noFields notPositive
  · refine iff_of_true kept (Or.inr fun sessid time live => ?_)
    exact absurd (noFields ▸ kept sessid time live) List.not_mem_nil
  · constructor
    · exact fun after => Or.inr fun sessid time live =>
        absurd (after sessid time live) List.not_mem_nil
    · intro guarded sessid time live
      exact absurd live (guarded.resolve_left (Int.not_lt.mpr notPositive) sessid time)
  · exact iff_of_true kept (Or.inl (Int.not_le.mp notPositive))

theorem delSession (kept : Kept expire s) (sessid : Bytes) :
    Kept expire (s.delSession sessid) := by
  intro other time live
  have set := live.1
  simp only [State.delSession, State.hashDel] at set
  have differs : other ≠ sessid := by
    rintro rfl
    simp at set
  rw [Function.update_of_ne differs] at set
  exact List.mem_filter.mpr ⟨kept other time ⟨set, live.2⟩, by simp [differs]⟩

/-- The `HDEL` of a lookup removes a live session exactly when one that it names has been set
since its `HGETALL`. -/
theorem purge_iff (kept : Kept expire s) (sound : Sound expire s) {i : Nat} {p : Purge}
    (found : s.purges[i]? = some p) :
    Kept expire (s.purge i p) ↔ Guard expire s (.purge i) := by
  have tracked := sound.tracked p (List.mem_of_getElem? found)
  have unlisted : Kept expire { s with purges := s.purges.eraseIdx i } := kept
  rw [State.purge, unlisted.hashDel_iff]
  constructor
  · intro noneLive p' found' stamp since named
    obtain rfl := Option.some.inj (found.symm.trans found')
    by_contra young
    exact noneLive stamp.sessid named stamp.time ⟨tracked.last stamp since, Int.not_lt.mp young⟩
  · intro guarded sessid named time live
    have nowLe : s.now ≤ time + 1000 * expire := live.2
    rcases tracked.named sessid named time live.1 with old | since
    · omega
    · have old := guarded p found _ since named
      simp only at old
      omega

/-- The step lemma: a command keeps the live sessions exactly when it meets the guard. -/
theorem step_iff {event : Event} {t : State} (kept : Kept expire s) (sound : Sound expire s)
    (taken : Step expire s event t) : Kept expire t ↔ Guard expire s event := by
  cases event with
  | tick ms =>
      obtain rfl := Option.some.inj taken
      exact kept.tick_iff sound ms
  | setBegin sessid =>
      obtain rfl := Option.some.inj taken
      exact iff_of_true kept trivial
  | hashSet stamp =>
      rw [Step, next] at taken
      split_ifs at taken
      obtain rfl := Option.some.inj taken
      exact iff_of_true (kept.hashSet stamp) trivial
  | keyExpire stamp =>
      rw [Step, next] at taken
      split_ifs at taken
      obtain rfl := Option.some.inj taken
      exact kept.keyExpire_iff stamp
  | delSession sessid =>
      obtain rfl := Option.some.inj taken
      exact iff_of_true (kept.delSession sessid) trivial
  | getBegin =>
      obtain rfl := Option.some.inj taken
      exact iff_of_true kept trivial
  | hashGetAll n =>
      rw [Step, next] at taken
      split_ifs at taken
      obtain rfl := Option.some.inj taken
      exact iff_of_true kept trivial
  | purge i =>
      rcases Option.map_eq_some_iff.mp taken with ⟨p, found, rfl⟩
      exact kept.purge_iff sound found

end Kept

theorem kept_init (start : Int) : Kept expire (init start) :=
  fun _ _ live => absurd live.1 (by simp [init])

/-- The runs in which no `HDEL` of a lookup names a session that has been set since its
`HGETALL`, the time to live is never over while a live session waits for its `EXPIRE`, and no
`EXPIRE` removes a live session, are those in which every live session is in the hash in every
state. -/
theorem guarded_iff_kept {start : Int} {events : List Event} :
    Run (Step expire) (Guard expire) (init start) events s ↔
      Run (Step expire) (fun s _ => Kept expire s) (init start) events s ∧ Kept expire s := by
  apply Run.guarded_iff (kept_init start)
  intro s event t reached kept taken
  exact kept.step_iff (sound_of_reachable reached) taken

end Steps

/-! ## Runs -/

/-- A call of `setSession` at the time `time`, without anything in between. -/
def sets (sessid : Bytes) (time : Int) : List Event :=
  [.setBegin sessid, .hashSet ⟨sessid, time⟩, .keyExpire ⟨sessid, time⟩]

/-- The session 97 is 501 seconds old when a lookup reads the hash, which the session 98
has kept alive. -/
def lookup : List Event :=
  sets [97] 0 ++ [.tick 200000] ++ sets [98] 200000 ++ [.tick 301000, .getBegin, .hashGetAll 501]

/-- The hash after `lookup` and a new login of the session 97, in one or the other order with
the `HDEL` of the lookup. -/
def afterLookup (fields : List Stamp) : State where
  now := 501000
  fields := fields
  deadline := some 1001000
  sets := []
  expires := []
  gets := []
  purges := []
  last := Function.update (Function.update (Function.update (fun _ => none) [97] (some 0))
    [98] (some 200000)) [97] (some 501000)

/-- The `HDEL` comes first, and what it removes is set again. -/
theorem kept_after_lookup :
    Kept 500 (afterLookup [⟨[98], 200000⟩, ⟨[97], 501000⟩]) ∧
      (⟨[97], 501000⟩ : Stamp) ∈ (afterLookup [⟨[98], 200000⟩, ⟨[97], 501000⟩]).fields := by
  have positive (s : State) (stamp : Stamp) : Guard 500 s (.keyExpire stamp) :=
    Or.inl (by decide)
  have early {s : State} {deadline : Int} {ms : Nat} (set : s.deadline = some deadline)
      (inTime : s.now + ms ≤ deadline) : Guard 500 s (.tick ms) := by
    intro other isSome passed
    obtain rfl := Option.some.inj (set.symm.trans isSome)
    omega
  have unset {s : State} {ids : List Bytes} (only : s.purges = [⟨ids, []⟩]) :
      Guard 500 s (.purge 0) := by
    intro p found stamp since
    rw [only] at found
    obtain rfl := Option.some.inj found
    exact absurd since List.not_mem_nil
  have run : Run (Step 500) (Guard 500) (init 0) (lookup ++ .purge 0 :: sets [97] 501000)
      (afterLookup [⟨[98], 200000⟩, ⟨[97], 501000⟩]) :=
    -- the session 97, and after 200 seconds the session 98
    Run.cons trivial rfl <| Run.cons trivial rfl <| Run.cons (positive _ _) rfl <|
    Run.cons (early rfl (by decide)) rfl <|
    Run.cons trivial rfl <| Run.cons trivial rfl <| Run.cons (positive _ _) rfl <|
    -- the lookup, with its `HDEL`
    Run.cons (early rfl (by decide)) rfl <|
    Run.cons trivial rfl <| Run.cons trivial rfl <| Run.cons (unset rfl) rfl <|
    -- the session 97 again
    Run.cons trivial rfl <| Run.cons trivial rfl <| Run.single (positive _ _) rfl
  have kept := (guarded_iff_kept.mp run).2
  exact ⟨kept, kept [97] 501000 ⟨rfl, by decide⟩⟩

/-- The session is set again before the `HDEL` of the lookup. -/
def staleLookup : List Event := lookup ++ sets [97] 501000 ++ [.purge 0]

/-- The `HDEL` removes the session that has just been set. -/
theorem stale_lookup_removes_session :
    ∃ s, Run (Step 500) anyStep (init 0) staleLookup s ∧ Live 500 s [97] 501000 ∧
      ⟨[97], 501000⟩ ∉ s.fields ∧ ¬Kept 500 s := by
  have played : staleLookup.foldlM (next 500) (init 0) = some (afterLookup [⟨[98], 200000⟩]) :=
    rfl
  have run : Run (Step 500) anyStep (init 0) staleLookup (afterLookup [⟨[98], 200000⟩]) :=
    Run.of_foldlM (fun _ _ _ taken => ⟨trivial, taken⟩) played
  have live : Live 500 (afterLookup [⟨[98], 200000⟩]) [97] 501000 := ⟨rfl, by decide⟩
  have absent : (⟨[97], 501000⟩ : Stamp) ∉ (afterLookup [⟨[98], 200000⟩]).fields := by decide
  exact ⟨_, run, live, absent, fun kept => absent (kept [97] 501000 live)⟩

end Race

end GPush.SessCache
