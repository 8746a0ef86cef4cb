import GPush.ConnectServer.Common
import GPush.Transition.Run
import Mathlib.Logic.Function.Basic

/-!
# Looking up connections

A connection takes an id from the counter of the process, gets its final id from
the dispatcher, and is then added to the map of its event loop.  Adding keeps an
older entry under the same id, and closing erases by id.  `κ` is what else a
connection holds.
-/

namespace GPush.ConnectServer

open GPush.Transition

/-- The address of a connection object. -/
abbrev Handle := Nat

/-- How far a connection has come: constructed, given to a loop that has still to
process its `AddConnectionOp`, or added to that loop. -/
inductive Place
  | constructed
  | queued (loop : Nat)
  | added (loop : Nat)
  deriving DecidableEq, Repr

/-- The event loop a connection has been given to. -/
def Place.loop : Place → Option Nat
  | .constructed => none
  | .queued l => some l
  | .added l => some l

theorem Place.loop_eq_none {p : Place} : p.loop = none ↔ p = .constructed := by
  cases p <;> simp [Place.loop]

/-- A live connection. -/
structure Entry (κ : Type*) where
  id : Int
  place : Place
  data : κ

/-- The counter of `Connection::Connection`, the live connections of the process, and
`m_con_map` of every event loop. -/
structure Table (κ : Type*) where
  counter : Int
  conns : Handle → Option (Entry κ)
  conMap : Nat → Int → Option Handle

namespace Table

variable {κ : Type*}

/-- A process without connections. -/
def init : Table κ where
  counter := 0
  conns _ := none
  conMap _ _ := none

/-- `EventLoop::getConnection` of the loop `l`. -/
def getConnection (t : Table κ) (l : Nat) (conid : Int) : Option Handle := t.conMap l conid

/-- The counter after `atomicIncrement32(&id)` has returned `n` and
`atomicCompareExchange32(&id, 1, 0X7FFFFFF)` has run. -/
def afterConstruct (n : Int) : Int := if n = 0x7FFFFFF then 1 else n

/-- `Connection::Connection` at the address `h`. -/
def construct (t : Table κ) (h : Handle) (data : κ) : Table κ :=
  { t with
    counter := afterConstruct (t.counter + 1)
    conns := Function.update t.conns h (some ⟨t.counter + 1, .constructed, data⟩) }

/-- The index that `CDispatcher::dispatchConnection` computes. -/
def dispatchIdx (conf : CliConfig) (id : Int) : Int :=
  conf.startThreadIdx + id.tmod conf.threadCnt

/-- `CDispatcher::dispatchConnection` of the connection `e` at `h`. -/
def dispatchConnection (t : Table κ) (conf : CliConfig) (h : Handle) (e : Entry κ) : Table κ :=
  let idx := dispatchIdx conf e.id
  { t with
    conns := Function.update t.conns h
      (some { e with id := getConnectionId idx e.id, place := .queued idx.toNat }) }

/-- `m_con_map` with an entry set or erased. -/
def setEntry (t : Table κ) (l : Nat) (id : Int) (entry : Option Handle) :
    Nat → Int → Option Handle :=
  Function.update t.conMap l (Function.update (t.conMap l) id entry)

/-- `EventLoop::addConnection` of the loop `l`. -/
def addConnection (t : Table κ) (l : Nat) (h : Handle) (e : Entry κ) : Table κ :=
  { t with
    conns := Function.update t.conns h (some { e with place := .added l })
    conMap := if t.conMap l e.id = none then t.setEntry l e.id (some h) else t.conMap }

/-- The destructor: `Connection::clear` calls `delConnection` on the loop the
connection has been added to. -/
def destroy (t : Table κ) (h : Handle) (e : Entry κ) : Table κ :=
  { t with
    conns := Function.update t.conns h none
    conMap :=
      match e.place with
      | .added l => t.setEntry l e.id none
      | _ => t.conMap }

/-- The events in the life of connections. -/
inductive Event (κ : Type*)
  | construct (h : Handle) (data : κ)
  | dispatch (h : Handle) (conf : CliConfig)
  | add (h : Handle)
  | close (h : Handle)

/-- The dispatcher has defined behaviour: it divides by a number other than zero,
finds an event loop, and its arithmetic stays within `int32`. -/
structure Dispatches (loops : Nat) (conf : CliConfig) (id : Int) : Prop where
  divides : conf.threadCnt ≠ 0
  lower : 0 ≤ dispatchIdx conf id
  upper : dispatchIdx conf id < loops
  fits : getConnectionId (dispatchIdx conf id) id < 2 ^ 31

/-- The step relation of a process with `loops` event loops. -/
inductive Step (loops : Nat) : LTS (Table κ) (Event κ)
  | construct {t : Table κ} {h : Handle} {data : κ} : t.conns h = none →
      Step loops t (.construct h data) (t.construct h data)
  | dispatch {t : Table κ} {h : Handle} {e : Entry κ} {conf : CliConfig} :
      t.conns h = some e → e.place = .constructed → Dispatches loops conf e.id →
      Step loops t (.dispatch h conf) (t.dispatchConnection conf h e)
  | add {t : Table κ} {h : Handle} {e : Entry κ} {l : Nat} :
      t.conns h = some e → e.place = .queued l → Step loops t (.add h) (t.addConnection l h e)
  | close {t : Table κ} {h : Handle} {e : Entry κ} {l : Nat} :
      t.conns h = some e → e.place = .added l → Step loops t (.close h) (t.destroy h e)

/-- Lookup is exact: an added connection is found under its id, no two live
connections share an id, and closing a connection erases only its own entry. -/
structure Exact (loops : Nat) (t : Table κ) : Prop where
  lookup : ∀ h e l, t.conns h = some e → e.place = .added l → t.getConnection l e.id = some h
  unique : ∀ h h' e e', t.conns h = some e → t.conns h' = some e' → e.id = e'.id → h = h'
  removes : ∀ h t', Step loops t (.close h) t' → ∀ l id, t'.conMap l id ≠ t.conMap l id →
    t.conMap l id = some h

/-! ## Counter values and ids -/

/-- The counter value of a new connection is not the id of a live one; and when a
connection is dispatched, no other one of its loop has an id with the same last
six digits, nor has one that waits to be dispatched and whose counter value starts
with the index of that loop. -/
def Fresh (t : Table κ) : Event κ → Prop
  | .construct _ _ => ∀ h' e', t.conns h' = some e' → e'.id ≠ t.counter + 1
  | .dispatch h conf =>
      ∀ e h' e', t.conns h = some e → t.conns h' = some e' → h' ≠ h →
        e'.place.loop = some (dispatchIdx conf e.id).toNat ∨
          e'.place = .constructed ∧ e'.id / eventLoopIdMask = dispatchIdx conf e.id →
        e'.id % eventLoopIdMask ≠ e.id % eventLoopIdMask
  | _ => True

/-- The id of a dispatched connection tells its loop and the counter value. -/
theorem getConnectionId_digits (idx : Int) {n : Int} (lower : 0 ≤ n) :
    getConnectionId idx n % eventLoopIdMask = n % eventLoopIdMask ∧
      getConnectionId idx n / eventLoopIdMask = idx := by
  rw [getConnectionId, Int.tmod_eq_emod_of_nonneg lower]
  simp only [eventLoopIdMask]
  omega

/-! ## The invariant -/

/-- What holds between the steps: ids are unique, those of dispatched connections
carry the index of their loop, and the maps list exactly the added connections. -/
structure Consistent (t : Table κ) : Prop where
  counter : 0 ≤ t.counter
  raw : ∀ h e, t.conns h = some e → e.place = .constructed → 0 < e.id
  placed : ∀ h e l, t.conns h = some e → e.place.loop = some l →
    e.id / eventLoopIdMask = (l : Int)
  unique : ∀ h h' e e', t.conns h = some e → t.conns h' = some e' → e.id = e'.id → h = h'
  listed : ∀ l id h, t.conMap l id = some h ↔
    ∃ e, t.conns h = some e ∧ e.place = .added l ∧ e.id = id

theorem consistent_init : Consistent (init : Table κ) := by
  refine ⟨Int.le_refl 0, ?_, ?_, ?_, ?_⟩
  · intro h e found
    exact absurd found (by simp [init])
  · intro h e l found
    exact absurd found (by simp [init])
  · intro h h' e e' found
    exact absurd found (by simp [init])
  · intro l id h
    simp [init]

theorem update_eq_some {α β : Type*} [DecidableEq α] {f : α → Option β} {a a' : α}
    {v : Option β} {b : β} :
    Function.update f a v a' = some b ↔ a' = a ∧ v = some b ∨ a' ≠ a ∧ f a' = some b := by
  by_cases same : a' = a
  · subst same
    simp
  · simp [same]

theorem update_none_eq_some {α β : Type*} [DecidableEq α] {f : α → Option β} {a a' : α} {b : β} :
    Function.update f a none a' = some b ↔ a' ≠ a ∧ f a' = some b := by
  rw [update_eq_some]
  simp

theorem setEntry_eq_some {t : Table κ} {l l' : Nat} {id id' : Int} {entry : Option Handle}
    {h' : Handle} :
    t.setEntry l id entry l' id' = some h' ↔
      (l' = l ∧ id' = id) ∧ entry = some h' ∨ ¬(l' = l ∧ id' = id) ∧ t.conMap l' id' = some h' := by
  rw [setEntry]
  by_cases sameLoop : l' = l
  · subst sameLoop
    by_cases sameId : id' = id <;> simp [sameId]
  · simp [sameLoop]

/-- The maps list live connections under their ids. -/
def Listed (t : Table κ) : Prop :=
  ∀ l id h, t.conMap l id = some h → ∃ e, t.conns h = some e ∧ e.place = .added l ∧ e.id = id

/-- A map never lists a connection that is gone, whatever ids are taken. -/
theorem Listed.step {t t' : Table κ} {loops : Nat} {event : Event κ} (listed : Listed t)
    (taken : Step loops t event t') : Listed t' := by
  intro l' id h' inMap
  cases taken with
  | @construct _ h _ unused =>
      obtain ⟨e', found', added, idEq⟩ := listed l' id h' inMap
      have distinct : h' ≠ h := by
        rintro rfl
        simp [unused] at found'
      exact ⟨e', update_eq_some.mpr (Or.inr ⟨distinct, found'⟩), added, idEq⟩
  | @dispatch _ h e _ found atStart _ =>
      obtain ⟨e', found', added, idEq⟩ := listed l' id h' inMap
      have distinct : h' ≠ h := by
        rintro rfl
        obtain rfl := Option.some.inj (found.symm.trans found')
        simp [atStart] at added
      exact ⟨e', update_eq_some.mpr (Or.inr ⟨distinct, found'⟩), added, idEq⟩
  | @add _ h e l found queued =>
      have older : t.conMap l' id = some h' →
          ∃ e', (t.addConnection l h e).conns h' = some e' ∧ e'.place = .added l' ∧ e'.id = id := by
        intro inMap
        obtain ⟨e', found', added, idEq⟩ := listed l' id h' inMap
        have distinct : h' ≠ h := by
          rintro rfl
          obtain rfl := Option.some.inj (found.symm.trans found')
          simp [queued] at added
        exact ⟨e', update_eq_some.mpr (Or.inr ⟨distinct, found'⟩), added, idEq⟩
      simp only [addConnection] at inMap
      by_cases unlisted : t.conMap l e.id = none
      · rw [if_pos unlisted] at inMap
        rcases setEntry_eq_some.mp inMap with ⟨⟨rfl, rfl⟩, handleEq⟩ | ⟨-, old⟩
        · obtain rfl := Option.some.inj handleEq
          exact ⟨_, update_eq_some.mpr (Or.inl ⟨rfl, rfl⟩), rfl, rfl⟩
        · exact older old
      · rw [if_neg unlisted] at inMap
        exact older inMap
  | @close _ h e l found added =>
      simp only [destroy, added] at inMap
      rcases setEntry_eq_some.mp inMap with ⟨-, gone⟩ | ⟨other, old⟩
      · simp at gone
      · obtain ⟨e', found', added', idEq⟩ := listed l' id h' old
        refine ⟨e', update_eq_some.mpr (Or.inr ⟨?_, found'⟩), added', idEq⟩
        rintro rfl
        obtain rfl := Option.some.inj (found.symm.trans found')
        exact other ⟨Place.added.inj (added'.symm.trans added), idEq.symm⟩

namespace Consistent

variable {t : Table κ} {h : Handle} {e : Entry κ}

theorem toListed (consistent : Consistent t) : Listed t :=
  fun l id h inMap => (consistent.listed l id h).mp inMap

theorem construct (consistent : Consistent t) (unused : t.conns h = none) {data : κ}
    (fresh : Fresh t (.construct h data)) : Consistent (t.construct h data) := by
  have positive := consistent.counter
  refine ⟨?_, ?_, ?_, ?_, ?_⟩
  · simp only [Table.construct, afterConstruct]
    split_ifs <;> omega
  · intro h' e' found atStart
    rcases update_eq_some.mp found with ⟨rfl, new⟩ | ⟨-, old⟩
    · rw [← Option.some.inj new]
      simp only
      omega
    · exact consistent.raw h' e' old atStart
  · intro h' e' l found given
    rcases update_eq_some.mp found with ⟨rfl, new⟩ | ⟨-, old⟩
    · rw [← Option.some.inj new] at given
      simp [Place.loop] at given
    · exact consistent.placed h' e' l old given
  · intro h₁ h₂ e₁ e₂ found₁ found₂ same
    rcases update_eq_some.mp found₁ with ⟨rfl, new₁⟩ | ⟨-, old₁⟩ <;>
      rcases update_eq_some.mp found₂ with ⟨rfl, new₂⟩ | ⟨-, old₂⟩
    · rfl
    · rw [← Option.some.inj new₁] at same
      exact absurd same.symm (fresh h₂ e₂ old₂)
    · rw [← Option.some.inj new₂] at same
      exact absurd same (fresh h₁ e₁ old₁)
    · exact consistent.unique h₁ h₂ e₁ e₂ old₁ old₂ same
  · intro l id h'
    refine ⟨consistent.toListed.step (.construct unused : Step 0 t _ _) l id h', ?_⟩
    rintro ⟨e', found, added, idEq⟩
    rcases update_eq_some.mp found with ⟨-, new⟩ | ⟨-, old⟩
    · rw [← Option.some.inj new] at added
      simp at added
    · exact (consistent.listed l id h').mpr ⟨e', old, added, idEq⟩

theorem dispatch (consistent : Consistent t) (found : t.conns h = some e)
    (atStart : e.place = .constructed) {loops : Nat} {conf : CliConfig}
    (dispatches : Dispatches loops conf e.id) (fresh : Fresh t (.dispatch h conf)) :
    Consistent (t.dispatchConnection conf h e) := by
  have lower := dispatches.lower
  obtain ⟨digits, index⟩ := getConnectionId_digits (dispatchIdx conf e.id)
    (Int.le_of_lt (consistent.raw h e found atStart))
  -- the new id is taken neither within the loop nor by a connection without a loop
  have untaken : ∀ h' e', t.conns h' = some e' → h' ≠ h →
      e'.id ≠ getConnectionId (dispatchIdx conf e.id) e.id := by
    intro h' e' old distinct taken
    refine fresh e h' e' found old distinct ?_ (taken ▸ digits)
    cases loopEq : e'.place.loop with
    | none => exact Or.inr ⟨Place.loop_eq_none.mp loopEq, taken ▸ index⟩
    | some l =>
        have placed := consistent.placed h' e' l old loopEq
        rw [taken, index] at placed
        rw [placed, Int.toNat_natCast]
        exact Or.inl rfl
  refine ⟨consistent.counter, ?_, ?_, ?_, ?_⟩
  · intro h' e' found' atStart'
    rcases update_eq_some.mp found' with ⟨-, new⟩ | ⟨-, old⟩
    · rw [← Option.some.inj new] at atStart'
      simp at atStart'
    · exact consistent.raw h' e' old atStart'
  · intro h' e' l found' given
    rcases update_eq_some.mp found' with ⟨-, new⟩ | ⟨-, old⟩
    · rw [← Option.some.inj new] at given ⊢
      obtain rfl : (dispatchIdx conf e.id).toNat = l := Option.some.inj given
      rw [index, Int.toNat_of_nonneg lower]
    · exact consistent.placed h' e' l old given
  · intro h₁ h₂ e₁ e₂ found₁ found₂ same
    rcases update_eq_some.mp found₁ with ⟨rfl, new₁⟩ | ⟨distinct₁, old₁⟩ <;>
      rcases update_eq_some.mp found₂ with ⟨rfl, new₂⟩ | ⟨distinct₂, old₂⟩
    · rfl
    · rw [← Option.some.inj new₁] at same
      exact absurd same.symm (untaken h₂ e₂ old₂ distinct₂)
    · rw [← Option.some.inj new₂] at same
      exact absurd same (untaken h₁ e₁ old₁ distinct₁)
    · exact consistent.unique h₁ h₂ e₁ e₂ old₁ old₂ same
  · intro l id h'
    refine ⟨consistent.toListed.step (.dispatch found atStart dispatches) l id h', ?_⟩
    rintro ⟨e', found', added, idEq⟩
    rcases update_eq_some.mp found' with ⟨-, new⟩ | ⟨-, old⟩
    · rw [← Option.some.inj new] at added
      simp at added
    · exact (consistent.listed l id h').mpr ⟨e', old, added, idEq⟩

theorem add (consistent : Consistent t) (found : t.conns h = some e) {l : Nat}
    (queued : e.place = .queued l) : Consistent (t.addConnection l h e) := by
  -- an older entry under the id would be another connection with that id
  have unlisted : t.conMap l e.id = none := by
    rw [Option.eq_none_iff_forall_ne_some]
    intro h' listed
    obtain ⟨e', old, added, idEq⟩ := (consistent.listed l e.id h').mp listed
    obtain rfl := consistent.unique h' h e' e old found idEq
    obtain rfl := Option.some.inj (old.symm.trans found)
    simp [queued] at added
  refine ⟨consistent.counter, ?_, ?_, ?_, ?_⟩
  · intro h' e' found' atStart
    rcases update_eq_some.mp found' with ⟨-, new⟩ | ⟨-, old⟩
    · rw [← Option.some.inj new] at atStart
      simp at atStart
    · exact consistent.raw h' e' old atStart
  · intro h' e' l' found' given
    rcases update_eq_some.mp found' with ⟨-, new⟩ | ⟨-, old⟩
    · rw [← Option.some.inj new] at given ⊢
      obtain rfl : l = l' := Option.some.inj given
      exact consistent.placed h e l found (by rw [queued, Place.loop])
    · exact consistent.placed h' e' l' old given
  · intro h₁ h₂ e₁ e₂ found₁ found₂ same
    rcases update_eq_some.mp found₁ with ⟨rfl, new₁⟩ | ⟨-, old₁⟩ <;>
      rcases update_eq_some.mp found₂ with ⟨rfl, new₂⟩ | ⟨-, old₂⟩
    · rfl
    · rw [← Option.some.inj new₁] at same
      exact consistent.unique h₁ h₂ e e₂ found old₂ same
    · rw [← Option.some.inj new₂] at same
      exact consistent.unique h₁ h₂ e₁ e old₁ found same
    · exact consistent.unique h₁ h₂ e₁ e₂ old₁ old₂ same
  · intro l' id h'
    refine ⟨consistent.toListed.step (.add found queued : Step 0 t _ _) l' id h', ?_⟩
    rintro ⟨e', found', added, idEq⟩
    simp only [addConnection, if_pos unlisted]
    refine setEntry_eq_some.mpr ?_
    rcases update_eq_some.mp found' with ⟨rfl, new⟩ | ⟨distinct, old⟩
    · rw [← Option.some.inj new] at added idEq
      exact Or.inl ⟨⟨(Place.added.inj added).symm, idEq.symm⟩, rfl⟩
    · refine Or.inr ⟨?_, (consistent.listed l' id h').mpr ⟨e', old, added, idEq⟩⟩
      rintro ⟨-, rfl⟩
      exact distinct (consistent.unique h' h e' e old found idEq)

theorem close (consistent : Consistent t) (found : t.conns h = some e) {l : Nat}
    (added : e.place = .added l) : Consistent (t.destroy h e) := by
  have survives : ∀ {h' e'}, (t.destroy h e).conns h' = some e' ↔
      h' ≠ h ∧ t.conns h' = some e' := by
    intro h' e'
    exact update_none_eq_some
  refine ⟨consistent.counter, ?_, ?_, ?_, ?_⟩
  · intro h' e' found'
    exact consistent.raw h' e' (survives.mp found').2
  · intro h' e' l' found'
    exact consistent.placed h' e' l' (survives.mp found').2
  · intro h₁ h₂ e₁ e₂ found₁ found₂
    exact consistent.unique h₁ h₂ e₁ e₂ (survives.mp found₁).2 (survives.mp found₂).2
  · intro l' id h'
    refine ⟨consistent.toListed.step (.close found added : Step 0 t _ _) l' id h', ?_⟩
    rintro ⟨e', found', added', idEq⟩
    obtain ⟨distinct, old⟩ := survives.mp found'
    simp only [destroy, added]
    refine setEntry_eq_some.mpr (Or.inr ⟨?_, ?_⟩)
    · rintro ⟨-, rfl⟩
      exact distinct (consistent.unique h' h e' e old found idEq)
    · exact (consistent.listed l' id h').mpr ⟨e', old, added', idEq⟩

/-- The step lemma. -/
theorem step {loops : Nat} {t' : Table κ} {event : Event κ} (consistent : Consistent t)
    (fresh : Fresh t event) (taken : Step loops t event t') : Consistent t' := by
  cases taken with
  | construct unused => exact consistent.construct unused fresh
  | dispatch found atStart dispatches => exact consistent.dispatch found atStart dispatches fresh
  | add found queued => exact consistent.add found queued
  | close found added => exact consistent.close found added

theorem exact (consistent : Consistent t) (loops : Nat) : Exact loops t := by
  refine ⟨?_, consistent.unique, ?_⟩
  · intro h e l found added
    exact (consistent.listed l e.id h).mpr ⟨e, found, added, rfl⟩
  · intro h t' taken l' id changed
    cases taken with
    | @close _ _ e l found added =>
        simp only [destroy, added, setEntry] at changed
        by_cases sameLoop : l' = l
        · subst sameLoop
          by_cases sameId : id = e.id
          · subst sameId
            exact (consistent.listed l' e.id h).mpr ⟨e, found, added, rfl⟩
          · simp [sameId] at changed
        · simp [sameLoop] at changed

end Consistent

/-- Lookup is exact in every state of a run in which the counter value of a new
connection is fresh. -/
theorem exact_of_fresh {loops : Nat} {events : List (Event κ)} {t : Table κ}
    (run : Run (Step loops) Fresh init events t) : Exact loops t := by
  have consistent : Consistent t :=
    run.invariant consistent_init fun _ _ _ holds fresh taken => holds.step fresh taken
  exact consistent.exact loops

/-! ## A long-lived connection

A connection stays open while a million others come and go. -/

section Opened

variable {t : Table κ} {h : Handle} {data : κ} {conf : CliConfig} {loops : Nat}

/-- The table after a connection has been constructed, dispatched and added. -/
def opened (t : Table κ) (h : Handle) (data : κ) (conf : CliConfig) : Table κ :=
  let id := t.counter + 1
  let idx := dispatchIdx conf id
  ((t.construct h data).dispatchConnection conf h ⟨id, .constructed, data⟩).addConnection
    idx.toNat h ⟨getConnectionId idx id, .queued idx.toNat, data⟩

theorem run_opened {guard : Table κ → Event κ → Prop} (unused : t.conns h = none)
    (dispatches : Dispatches loops conf (t.counter + 1)) (constructs : guard t (.construct h data))
    (given : guard (t.construct h data) (.dispatch h conf)) (adds : ∀ t', guard t' (.add h)) :
    Run (Step loops) guard t [.construct h data, .dispatch h conf, .add h]
      (t.opened h data conf) := by
  have constructed : (t.construct h data).conns h = some ⟨t.counter + 1, .constructed, data⟩ :=
    Function.update_self ..
  refine Run.cons constructs (.construct unused) ?_
  refine Run.cons given (.dispatch constructed rfl dispatches) ?_
  exact Run.single (adds _) (.add (Function.update_self ..) rfl)

theorem opened_eq {l : Nat} {id : Int} (loopEq : (dispatchIdx conf (t.counter + 1)).toNat = l)
    (idEq : getConnectionId (dispatchIdx conf (t.counter + 1)) (t.counter + 1) = id) :
    t.opened h data conf =
      ⟨afterConstruct (t.counter + 1), Function.update t.conns h (some ⟨id, .added l, data⟩),
        if t.conMap l id = none then t.setEntry l id (some h) else t.conMap⟩ := by
  subst loopEq idEq
  simp only [opened, addConnection, dispatchConnection, construct, Function.update_idem]
  rfl

/-- A connection that is opened and closed again changes only the counter. -/
theorem run_come_and_go (unused : t.conns h = none)
    (dispatches : Dispatches loops conf (t.counter + 1)) {l : Nat} {id : Int}
    (loopEq : (dispatchIdx conf (t.counter + 1)).toNat = l)
    (idEq : getConnectionId (dispatchIdx conf (t.counter + 1)) (t.counter + 1) = id)
    (unlisted : t.conMap l id = none) (data : κ) :
    Run (Step loops) anyStep t [.construct h data, .dispatch h conf, .add h, .close h]
      { t with counter := afterConstruct (t.counter + 1) } := by
  have opens : Run (Step loops) anyStep t [.construct h data, .dispatch h conf, .add h]
      (t.opened h data conf) :=
    run_opened unused dispatches trivial trivial fun _ => trivial
  rw [opened_eq loopEq idEq, if_pos unlisted] at opens
  have closes := opens.snoc trivial (.close (Function.update_self ..) rfl)
  simpa [destroy, setEntry, ← unused, ← unlisted] using closes

end Opened

/-- A port whose connections all go to the loop 0. -/
def onlyLoop : CliConfig := ⟨0, 1, 0, 0⟩

theorem dispatchIdx_onlyLoop (n : Int) : dispatchIdx onlyLoop n = 0 := by
  rw [dispatchIdx, onlyLoop, Int.tmod_one, Int.add_zero]

theorem getConnectionId_onlyLoop {n : Int} (lower : 0 ≤ n) :
    getConnectionId (dispatchIdx onlyLoop n) n = n % 1000000 := by
  rw [dispatchIdx_onlyLoop, getConnectionId, Int.tmod_eq_emod_of_nonneg lower]
  simp [eventLoopIdMask]

theorem dispatches_onlyLoop {n : Int} (lower : 0 ≤ n) : Dispatches 1 onlyLoop n := by
  refine ⟨by decide, ?_, ?_, ?_⟩
  · exact Int.le_of_eq (dispatchIdx_onlyLoop n).symm
  · rw [dispatchIdx_onlyLoop]
    decide
  · rw [getConnectionId_onlyLoop lower]
    omega

/-- The connection at the address 0 is the only one. -/
def alone (counter : Int) : Table Unit where
  counter := counter
  conns := Function.update (fun _ => none) 0 (some ⟨1, .added 0, ()⟩)
  conMap := Function.update (fun _ _ => none) 0 (Function.update (fun _ => none) 1 (some 0))

theorem run_alone {guard : Table Unit → Event Unit → Prop}
    (constructs : guard init (.construct 0 ()))
    (given : guard (init.construct 0 ()) (.dispatch 0 onlyLoop))
    (adds : ∀ t', guard t' (.add 0)) :
    Run (Step 1) guard init [.construct 0 (), .dispatch 0 onlyLoop, .add 0] (alone 1) := by
  have run := run_opened rfl (dispatches_onlyLoop (by decide)) constructs given adds
  rwa [opened_eq (l := 0) (by decide) (getConnectionId_onlyLoop (by decide))] at run

theorem alone_conns (counter : Int) : (alone counter).conns 1 = none := by
  simp [alone]

/-- A second connection has joined the first one. -/
theorem alone_opened_eq {n : Int} (lower : 0 ≤ n + 1) :
    (alone n).opened 1 () onlyLoop =
      ⟨afterConstruct (n + 1),
        Function.update (alone n).conns 1 (some ⟨(n + 1) % 1000000, .added 0, ()⟩),
        if (alone n).conMap 0 ((n + 1) % 1000000) = none then
          (alone n).setEntry 0 ((n + 1) % 1000000) (some 1)
        else
          (alone n).conMap⟩ :=
  opened_eq (congrArg Int.toNat (dispatchIdx_onlyLoop _)) (getConnectionId_onlyLoop lower)

/-- Two connections that are open at the same time. -/
theorem exact_of_fresh_pair :
    ∃ t : Table Unit, Exact 1 t ∧ t.getConnection 0 1 = some 0 ∧ t.getConnection 0 2 = some 1 := by
  have first : Run (Step 1) Fresh init [.construct 0 (), .dispatch 0 onlyLoop, .add 0] (alone 1) :=
    run_alone (by simp [Fresh, init]) (by simp [Fresh, construct, init, update_eq_some])
      fun _ => trivial
  have second : Run (Step 1) Fresh (alone 1) [.construct 1 (), .dispatch 1 onlyLoop, .add 1]
      ((alone 1).opened 1 () onlyLoop) := by
    refine run_opened (alone_conns 1) (dispatches_onlyLoop (by decide)) ?_ ?_ fun _ => trivial
    · simp [Fresh, alone, update_eq_some]
    · intro e h' e' found found' distinct
      obtain rfl : _ = e := Option.some.inj found
      obtain ⟨-, rfl⟩ : h' = 0 ∧ _ := by
        simpa [alone, construct, update_eq_some, distinct] using found'
      decide
  refine ⟨_, exact_of_fresh (first.trans second), ?_⟩
  rw [alone_opened_eq (by decide)]
  exact ⟨by decide, by decide⟩

/-- Many connections come and go beside the first one. -/
theorem run_many (n : Nat) (few : n < 1000000) :
    ∃ events, Run (Step 1) anyStep (init : Table Unit) events (alone (1 + n)) := by
  induction n with
  | zero => exact ⟨_, run_alone trivial trivial fun _ => trivial⟩
  | succ n ih =>
      obtain ⟨events, run⟩ := ih (by omega)
      have lower : 0 ≤ (1 + n : Int) + 1 := by omega
      have other : ((1 + n : Int) + 1) % 1000000 ≠ 1 := by omega
      have unlisted : (alone (1 + n)).conMap 0 (((1 + n : Int) + 1) % 1000000) = none := by
        simp [alone, other]
      have next := run.trans (run_come_and_go (alone_conns (1 + n)) (dispatches_onlyLoop lower)
        (congrArg Int.toNat (dispatchIdx_onlyLoop _)) (getConnectionId_onlyLoop lower) unlisted ())
      have counterEq : afterConstruct ((1 + n : Int) + 1) = 1 + (n + 1 : Nat) := by
        rw [afterConstruct, if_neg (by omega)]
        omega
      exact ⟨_, counterEq ▸ next⟩

/-- A connection is open while 999999 others come and go.  The next one gets its id:
the lookup gives the first one, and closing the new one removes the entry. -/
theorem later_connection_takes_id :
    ∃ events t, Run (Step 1) anyStep (init : Table Unit) events t ∧ ¬Exact 1 t ∧
      (t.conns 0).map (·.id) = some 1 ∧ (t.conns 1).map (·.id) = some 1 ∧
      (t.conns 1).map (·.place) = some (.added 0) ∧ t.getConnection 0 1 = some 0 ∧
      ∃ t', Step 1 t (.close 1) t' ∧ t'.getConnection 0 1 = none := by
  obtain ⟨events, run⟩ := run_many 999999 (by decide)
  have joins := run.trans (run_opened (alone_conns _) (dispatches_onlyLoop (by decide)) trivial
    trivial fun _ => trivial : Run _ _ _ [.construct 1 (), .dispatch 1 onlyLoop, .add 1] _)
  rw [alone_opened_eq (by decide)] at joins
  refine ⟨_, _, joins, ?_, rfl, rfl, rfl, by decide, _,
    .close (e := ⟨1, .added 0, ()⟩) (l := 0) rfl rfl, by decide⟩
  intro exact
  exact absurd (exact.unique 0 1 _ _ rfl rfl rfl) (by decide)

end Table

end GPush.ConnectServer
