import GPush.ClientSdk.CliConn

/-!
# Operations and their counts

An operation counts the references to it in `m_ref`.  `SmartOp` objects raise and lower the
count, and the one that lowers it to zero deletes the operation.  An operation may also raise
its own count with `increase_`, and a `SmartOp` may release what it goes on to point at.
-/

namespace GPush.ClientSdk

/-! ## The objects -/

/-- `LOGIN_OP_SN`. -/
def loginSn : Bytes := [76, 111, 103, 105, 110]

/-- The name of a `KeepaliveOp`. -/
def keepaliveSn : Bytes := [107, 101, 101, 112, 97, 108, 105, 118, 101]

/-- The name of a `DelConnOp`. -/
def delConnSn : Bytes := [100, 101, 108, 99, 111, 110, 110, 101, 99, 116]

/-- The name of a `DisconnectOp`. -/
def disconnectSn : Bytes := [100, 105, 115, 99, 111, 110, 110, 101, 99, 116]

/-- What the constructors of `Op` and of its classes set. -/
inductive OpData
  | base (sn cid : Bytes) (timeout : Int)
  | login (op : LoginOp)
  | keepalive (cid : Bytes) (timeout : Int)
  | delConn (cid : Bytes)
  | disconnect (cid : Bytes)
  deriving DecidableEq, Repr

namespace OpData

/-- `Op::getSN`. -/
def getSN : OpData → Bytes
  | base sn _ _ => sn
  | login _ => loginSn
  | keepalive _ _ => keepaliveSn
  | delConn _ => delConnSn
  | disconnect _ => disconnectSn

/-- `Op::getCid`. -/
def getCid : OpData → Bytes
  | base _ cid _ => cid
  | login op => op.cid
  | keepalive cid _ => cid
  | delConn cid => cid
  | disconnect cid => cid

/-- `Op::getTimeout`. -/
def getTimeout : OpData → Int
  | base _ _ timeout => timeout
  | login _ => opDefaultTimeout
  | keepalive _ timeout => timeout
  | delConn _ => opDefaultTimeout
  | disconnect _ => opDefaultTimeout

end OpData

/-- An operation, its `m_ref`, and how often it has been deleted. -/
structure OpObject where
  data : OpData
  ref : Int
  deletes : Nat
  deriving DecidableEq, Repr

/-- The operations by their addresses, and the `m_op` of every `SmartOp` object by its address,
where `none` is an object that has been destroyed. -/
structure OpMemory where
  ops : List OpObject
  smarts : List (Option (Option Nat))
  deriving DecidableEq, Repr

namespace OpMemory

/-- How many `SmartOp` objects hold the operation. -/
def holders (m : OpMemory) (a : Nat) : Nat := m.smarts.count (some (some a))

/-- The operation at an address.  There is none any more when it has been deleted. -/
def deref (m : OpMemory) (a : Nat) : Option OpObject := m.ops[a]?.filter fun o => o.deletes = 0

/-- An operation is written. -/
def put (m : OpMemory) (a : Nat) (o : OpObject) : OpMemory := { m with ops := m.ops.set a o }

/-- `new` of an operation. -/
def new (m : OpMemory) (data : OpData) : OpMemory := { m with ops := m.ops ++ [⟨data, 0, 0⟩] }

/-- `Op::increase_`. -/
def increase (m : OpMemory) (a : Nat) : Option (Int × OpMemory) :=
  (m.deref a).map fun o => (o.ref + 1, m.put a { o with ref := o.ref + 1 })

/-- `Op::decrease_`. -/
def decrease (m : OpMemory) (a : Nat) : Option (Int × OpMemory) :=
  (m.deref a).map fun o => (o.ref - 1, m.put a { o with ref := o.ref - 1 })

/-- `delete` of an operation. -/
def delete (m : OpMemory) (a : Nat) : Option OpMemory :=
  (m.deref a).map fun o => m.put a { o with deletes := o.deletes + 1 }

/-- `SmartOp::get`. -/
def get (m : OpMemory) (i : Nat) : Option (Option Nat) := m.smarts[i]?.join

/-- The `m_op` of a `SmartOp` is written. -/
def setOp (m : OpMemory) (i : Nat) (op : Option Nat) : OpMemory :=
  { m with smarts := m.smarts.set i (some op) }

/-- `SmartOp::addref`. -/
def addref (m : OpMemory) (i : Nat) : Option (Int × OpMemory) :=
  (m.get i).bind fun
    | none => some (-1, m)
    | some a => m.increase a

/-- `SmartOp::release`. -/
def release (m : OpMemory) (i : Nat) : Option (Int × OpMemory) :=
  (m.get i).bind fun
    | none => some (-1, m)
    | some a =>
        (m.decrease a).bind fun (count, m) =>
          if count ≤ 0 then
            (m.delete a).map fun m => (count, m.setOp i none)
          else
            some (count, m)

/-- `SmartOp::SmartOp` of a pointer, with the address of the new object. -/
def construct (m : OpMemory) (op : Option Nat) : Option (Nat × OpMemory) :=
  let made : OpMemory := { m with smarts := m.smarts ++ [some op] }
  (made.addref m.smarts.length).map fun (_, m') => (m.smarts.length, m')

/-- `SmartOp::SmartOp` of another one. -/
def copy (m : OpMemory) (oth : Nat) : Option (Nat × OpMemory) := (m.get oth).bind m.construct

/-- `SmartOp::reset`. -/
def reset (m : OpMemory) (i : Nat) (op : Option Nat) : Option OpMemory :=
  (m.release i).bind fun (_, m) => ((m.setOp i op).addref i).map Prod.snd

/-- `SmartOp::~SmartOp`. -/
def destroy (m : OpMemory) (i : Nat) : Option OpMemory :=
  (m.release i).map fun (_, m) => { m with smarts := m.smarts.set i none }

/-! ## What has to hold -/

/-- No `SmartOp` holds more than an operation counts, none holds an operation that has been
deleted, and none was deleted twice. -/
structure Exact (m : OpMemory) : Prop where
  allocated : ∀ a, 0 < m.holders a → a < m.ops.length
  counted : ∀ a o, m.ops[a]? = some o → o.deletes = 0 → (m.holders a : Int) ≤ o.ref
  deleted : ∀ a o, m.ops[a]? = some o → o.deletes ≠ 0 → o.deletes = 1 ∧ m.holders a = 0

/-- From one state to the next an operation is deleted when its last holder is gone, and only
then. -/
structure DeletesLast (m m' : OpMemory) : Prop where
  old : ∀ a o, m.ops[a]? = some o → ∃ o', m'.ops[a]? = some o' ∧
    o'.deletes = o.deletes + if 0 < m.holders a ∧ m'.holders a = 0 then 1 else 0
  new : ∀ a o', m.ops.length ≤ a → m'.ops[a]? = some o' → o'.deletes = 0

/-- The counts, where `extra` are the references that no `SmartOp` stands for. -/
structure Counts (m : OpMemory) (extra : Nat → Nat) : Prop where
  allocated : ∀ a, 0 < m.holders a → a < m.ops.length
  live : ∀ a o, m.ops[a]? = some o → o.deletes = 0 → o.ref = ((m.holders a + extra a : Nat) : Int)
  deleted : ∀ a o, m.ops[a]? = some o → o.deletes ≠ 0 → o.deletes = 1 ∧ m.holders a = 0

variable {m m' : OpMemory} {extra : Nat → Nat} {a i : Nat} {o : OpObject} {op : Option Nat}

theorem deref_eq_some_iff : m.deref a = some o ↔ m.ops[a]? = some o ∧ o.deletes = 0 := by
  rw [deref, Option.filter_eq_some_iff, decide_eq_true_iff]

theorem get_eq_some_iff : m.get i = some op ↔ m.smarts[i]? = some (some op) :=
  Option.join_eq_some_iff

theorem Counts.exact (counts : m.Counts extra) : m.Exact := by
  refine ⟨counts.allocated, fun a o found live => ?_, counts.deleted⟩
  rw [counts.live a o found live]
  exact Int.ofNat_le.mpr (Nat.le_add_right _ _)

theorem DeletesLast.refl (m : OpMemory) : m.DeletesLast m := by
  constructor
  · intro a o found
    have same : ¬ (0 < m.holders a ∧ m.holders a = 0) := fun both =>
      Nat.ne_of_gt both.1 both.2
    exact ⟨o, found, by rw [if_neg same, Nat.add_zero]⟩
  · intro a o outside found
    rw [List.getElem?_eq_none outside] at found
    cases found

/-- Making operations deletes nothing. -/
theorem DeletesLast.append {made : List OpObject} (ops : m'.ops = m.ops ++ made)
    (smarts : m'.smarts = m.smarts) (live : ∀ o ∈ made, o.deletes = 0) : m.DeletesLast m' := by
  constructor
  · intro a o found
    have inside := (List.getElem?_eq_some_iff.mp found).1
    have same : ¬ (0 < m.holders a ∧ m'.holders a = 0) := by
      rw [holders, holders, smarts]
      exact fun both => Nat.ne_of_gt both.1 both.2
    refine ⟨o, ?_, by rw [if_neg same, Nat.add_zero]⟩
    rwa [ops, List.getElem?_append_left inside]
  · intro a o outside found
    rw [ops, List.getElem?_append_right outside] at found
    exact live o (List.mem_of_getElem? found)

/-- What is not held is not deleted. -/
theorem DeletesLast.deref (deletes : m.DeletesLast m') (unheld : m.holders a = 0)
    (found : m.deref a = some o) : ∃ o', m'.deref a = some o' := by
  obtain ⟨inside, live⟩ := deref_eq_some_iff.mp found
  obtain ⟨o', found', eq⟩ := deletes.old a o inside
  rw [if_neg (fun both => Nat.ne_of_gt both.1 unheld), live] at eq
  exact ⟨o', deref_eq_some_iff.mpr ⟨found', eq⟩⟩

/-! ## The number of holders -/

theorem holders_pos (found : m.get i = some (some a)) : 0 < m.holders a :=
  List.count_pos_iff.mpr (List.mem_of_getElem? (get_eq_some_iff.mp found))

/-- Writing a `SmartOp` moves a holder from what it held to what it holds. -/
theorem holders_set {x : Option (Option Nat)} (found : m.get i = some op)
    (smarts : m'.smarts = m.smarts.set i x) (b : Nat) :
    m'.holders b + (if op = some b then 1 else 0) =
      m.holders b + if x = some (some b) then 1 else 0 := by
  obtain ⟨inside, isOp⟩ := List.getElem?_eq_some_iff.mp (get_eq_some_iff.mp found)
  have counted := List.count_set (b := some (some b)) (a := x) (l := m.smarts) inside
  simp only [beq_iff_eq, isOp, Option.some.injEq] at counted
  rw [holders, holders, smarts, counted]
  by_cases isHeld : op = some b
  · have positive := holders_pos (isHeld ▸ found)
    rw [holders] at positive
    rw [if_pos isHeld]
    omega
  · rw [if_neg isHeld]
    omega

/-- What nothing holds is held by nothing after a `SmartOp` has let go. -/
theorem unheld_set {x : Option (Option Nat)} {b : Nat} (found : m.get i = some op)
    (smarts : m'.smarts = m.smarts.set i x) (unheld : m.holders b = 0)
    (other : x ≠ some (some b)) : m'.holders b = 0 := by
  have here := holders_set found smarts b
  rw [unheld, if_neg other] at here
  exact Nat.eq_zero_of_add_eq_zero_right here

theorem holders_append (smarts : m'.smarts = m.smarts ++ [some op]) (b : Nat) :
    m'.holders b = m.holders b + if op = some b then 1 else 0 := by
  rw [holders, holders, smarts, List.count_append, List.count_singleton]
  simp

/-- A new `SmartOp`. -/
theorem get_append_self (smarts : m'.smarts = m.smarts ++ [some op]) :
    m'.get m.smarts.length = some op := by
  rw [get_eq_some_iff, smarts]
  exact List.getElem?_concat_length

theorem get_append (smarts : m'.smarts = m.smarts ++ [some op]) {held : Option Nat}
    (found : m.get i = some held) : m'.get i = some held := by
  rw [get_eq_some_iff] at found ⊢
  rw [smarts, List.getElem?_append_left (List.getElem?_eq_some_iff.mp found).1]
  exact found

theorem get_set_self (smarts : m'.smarts = m.smarts.set i (some op)) {held : Option Nat}
    (found : m.get i = some held) : m'.get i = some op := by
  rw [get_eq_some_iff] at found ⊢
  rw [smarts]
  exact List.getElem?_set_self (List.getElem?_eq_some_iff.mp found).1

theorem get_set_ne {x : Option (Option Nat)} (smarts : m'.smarts = m.smarts.set i x) {j : Nat}
    (other : j ≠ i) : m'.get j = m.get j := by
  rw [get, get, smarts, List.getElem?_set_ne (Ne.symm other)]

/-- The operation of a `SmartOp` is there. -/
theorem Counts.held (counts : m.Counts extra) (found : m.get i = some (some a)) :
    ∃ o, m.deref a = some o ∧ o.ref = ((m.holders a + extra a : Nat) : Int) := by
  have positive := holders_pos found
  have inside := counts.allocated a positive
  have isObject := List.getElem?_eq_getElem inside
  have live : m.ops[a].deletes = 0 := by
    by_contra isDeleted
    exact Nat.ne_of_gt positive (counts.deleted a _ isObject isDeleted).2
  exact ⟨m.ops[a], deref_eq_some_iff.mpr ⟨isObject, live⟩, counts.live a _ isObject live⟩

/-! ## What a step changes -/

/-- A step that holds and deletes nothing, and lets nothing go. -/
theorem Counts.same (counts : m.Counts extra) (ops : m'.ops = m.ops)
    (holders : ∀ b, m'.holders b = m.holders b) : m'.Counts extra ∧ m.DeletesLast m' := by
  constructor
  · constructor
    · intro b held
      rw [holders] at held
      rw [ops]
      exact counts.allocated b held
    · intro b o found live
      rw [ops] at found
      rw [holders]
      exact counts.live b o found live
    · intro b o found isDeleted
      rw [ops] at found
      rw [holders]
      exact counts.deleted b o found isDeleted
  · constructor
    · intro b o found
      have same : ¬ (0 < m.holders b ∧ m'.holders b = 0) := by
        rw [holders]
        exact fun both => Nat.ne_of_gt both.1 both.2
      exact ⟨o, by rwa [ops], by rw [if_neg same, Nat.add_zero]⟩
    · intro b o outside found
      rw [ops, List.getElem?_eq_none outside] at found
      cases found

/-- A step that writes an operation: either it is live before and after it with the right count,
or its last holder goes and it is deleted. -/
theorem Counts.write {extra' : Nat → Nat} {o' : OpObject} (counts : m.Counts extra)
    (found : m.deref a = some o) (ops : m'.ops = m.ops.set a o')
    (others : ∀ b, b ≠ a → m'.holders b = m.holders b ∧ extra' b = extra b)
    (own : o'.deletes = 0 ∧ o'.ref = ((m'.holders a + extra' a : Nat) : Int) ∧
        (0 < m.holders a → 0 < m'.holders a) ∨
      o'.deletes = 1 ∧ 0 < m.holders a ∧ m'.holders a = 0) :
    m'.Counts extra' ∧ m.DeletesLast m' := by
  obtain ⟨isObject, live⟩ := deref_eq_some_iff.mp found
  have inside := (List.getElem?_eq_some_iff.mp isObject).1
  have atSelf : m'.ops[a]? = some o' := by
    rw [ops, List.getElem?_set_self inside]
  have atOther : ∀ b, b ≠ a → m'.ops[b]? = m.ops[b]? := by
    intro b other
    rw [ops, List.getElem?_set_ne (Ne.symm other)]
  constructor
  · constructor
    · intro b held
      rw [ops, List.length_set]
      by_cases isSelf : b = a
      · rwa [isSelf]
      · rw [(others b isSelf).1] at held
        exact counts.allocated b held
    · intro b u foundHere liveHere
      by_cases isSelf : b = a
      · subst isSelf
        rw [atSelf] at foundHere
        cases foundHere
        rcases own with ⟨-, ref, -⟩ | ⟨isDeleted, -⟩
        · exact ref
        · rw [liveHere] at isDeleted
          cases isDeleted
      · rw [atOther b isSelf] at foundHere
        rw [(others b isSelf).1, (others b isSelf).2]
        exact counts.live b u foundHere liveHere
    · intro b u foundHere isDeleted
      by_cases isSelf : b = a
      · subst isSelf
        rw [atSelf] at foundHere
        cases foundHere
        rcases own with ⟨liveHere, -⟩ | ⟨once, -, unheld⟩
        · exact absurd liveHere isDeleted
        · exact ⟨once, unheld⟩
      · rw [atOther b isSelf] at foundHere
        rw [(others b isSelf).1]
        exact counts.deleted b u foundHere isDeleted
  · constructor
    · intro b u foundHere
      by_cases isSelf : b = a
      · subst isSelf
        rw [isObject] at foundHere
        cases foundHere
        refine ⟨o', atSelf, ?_⟩
        rcases own with ⟨liveHere, -, kept⟩ | ⟨once, last⟩
        · rw [if_neg (fun both => Nat.ne_of_gt (kept both.1) both.2), liveHere, live]
        · rw [if_pos last, once, live]
      · have same : ¬ (0 < m.holders b ∧ m'.holders b = 0) := by
          rw [(others b isSelf).1]
          exact fun both => Nat.ne_of_gt both.1 both.2
        exact ⟨u, by rwa [atOther b isSelf], by rw [if_neg same, Nat.add_zero]⟩
    · intro b u outside foundHere
      rw [atOther b (by omega), List.getElem?_eq_none outside] at foundHere
      cases foundHere

/-! ## The member functions -/

/-- `increase_` makes a reference that no `SmartOp` stands for. -/
theorem increase_counts (counts : m.Counts extra) (found : m.deref a = some o) :
    ∃ m', m.increase a = some (o.ref + 1, m') ∧ m'.smarts = m.smarts ∧
      m'.Counts (Function.update extra a (extra a + 1)) ∧ m.DeletesLast m' := by
  obtain ⟨isObject, live⟩ := deref_eq_some_iff.mp found
  refine ⟨m.put a { o with ref := o.ref + 1 }, by rw [increase, found]; rfl, rfl, ?_⟩
  apply counts.write found rfl
  · intro b other
    exact ⟨rfl, Function.update_of_ne other _ _⟩
  · refine Or.inl ⟨live, ?_, id⟩
    rw [Function.update_self]
    have ref := counts.live a o isObject live
    have holders : (m.put a { o with ref := o.ref + 1 }).holders a = m.holders a := rfl
    rw [holders]
    dsimp only
    omega

/-- `addref` of the `SmartOp` that now holds an operation. -/
theorem addref_counts (counts : m.Counts extra) (found : m.deref a = some o)
    (now : m'.get i = some (some a)) (ops : m'.ops = m.ops)
    (holders : ∀ b, m'.holders b = m.holders b + if some a = some b then 1 else 0) :
    ∃ m'', m'.addref i = some (o.ref + 1, m'') ∧ m''.smarts = m'.smarts ∧ m''.Counts extra ∧
      m.DeletesLast m'' := by
  obtain ⟨isObject, live⟩ := deref_eq_some_iff.mp found
  have found' : m'.deref a = some o := by
    rwa [deref, ops]
  refine ⟨m'.put a { o with ref := o.ref + 1 }, ?_, rfl, ?_⟩
  · rw [addref, now]
    show m'.increase a = _
    rw [increase, found']
    rfl
  · have written : (m'.put a { o with ref := o.ref + 1 }).ops =
        m.ops.set a { o with ref := o.ref + 1 } := by
      rw [put, ops]
    have holders' : ∀ b, (m'.put a { o with ref := o.ref + 1 }).holders b = m'.holders b :=
      fun _ => rfl
    refine counts.write found written ?_ (Or.inl ⟨live, ?_, ?_⟩)
    · intro b other
      rw [holders', holders, if_neg (by simpa using Ne.symm other)]
      exact ⟨rfl, rfl⟩
    · have ref := counts.live a o isObject live
      rw [holders', holders, if_pos rfl]
      dsimp only
      omega
    · rw [holders', holders, if_pos rfl]
      exact fun _ => Nat.succ_pos _

/-- A pointer may be held by a new `SmartOp` if it is `NULL` or points to an operation. -/
theorem construct_counts (counts : m.Counts extra)
    (usable : ∀ a, op = some a → ∃ o, m.deref a = some o) :
    ∃ m', m.construct op = some (m.smarts.length, m') ∧ m'.smarts = m.smarts ++ [some op] ∧
      m'.Counts extra ∧ m.DeletesLast m' := by
  have smarts : ({ m with smarts := m.smarts ++ [some op] } : OpMemory).smarts =
      m.smarts ++ [some op] := rfl
  have now := get_append_self smarts
  cases op with
  | none =>
      refine ⟨{ m with smarts := m.smarts ++ [some none] }, ?_, rfl, ?_⟩
      · rw [construct, addref, now]
        rfl
      · refine counts.same rfl fun b => ?_
        rw [holders_append smarts, if_neg (by simp), Nat.add_zero]
  | some a =>
      obtain ⟨o, found⟩ := usable a rfl
      obtain ⟨m', added, smarts', counts', deletes⟩ :=
        addref_counts counts found now rfl (holders_append smarts)
      refine ⟨m', ?_, smarts', counts', deletes⟩
      rw [construct, added]
      rfl

/-- `release` deletes the operation when its count is used up. -/
theorem release_eq (found : m.deref a = some o) (holds : m.get i = some (some a)) :
    m.release i =
      if o.ref - 1 ≤ 0 then
        some (o.ref - 1,
          ⟨m.ops.set a ⟨o.data, o.ref - 1, o.deletes + 1⟩, m.smarts.set i (some none)⟩)
      else
        some (o.ref - 1, m.put a { o with ref := o.ref - 1 }) := by
  obtain ⟨isObject, live⟩ := deref_eq_some_iff.mp found
  have inside := (List.getElem?_eq_some_iff.mp isObject).1
  have lowered : (m.put a { o with ref := o.ref - 1 }).deref a =
      some { o with ref := o.ref - 1 } :=
    deref_eq_some_iff.mpr ⟨List.getElem?_set_self inside, live⟩
  rw [release, holds, Option.bind_some]
  dsimp only
  rw [decrease, found, Option.map_some, Option.bind_some]
  dsimp only
  rw [delete, lowered, Option.map_some, Option.map_some]
  split_ifs
  · rw [put, put, setOp, List.set_set]
  · rfl

/-- The only `SmartOp` of an operation releases it. -/
theorem release_counts_last (counts : m.Counts extra) (holds : m.get i = some (some a))
    (sole : m.holders a = 1) (noExtra : extra a = 0) :
    ∃ m', m.release i = some (0, m') ∧ m'.smarts = m.smarts.set i (some none) ∧
      m'.Counts extra ∧ m.DeletesLast m' := by
  obtain ⟨o, found, ref⟩ := counts.held holds
  obtain ⟨-, live⟩ := deref_eq_some_iff.mp found
  rw [sole, noExtra] at ref
  have zero : o.ref - 1 = 0 := by
    omega
  refine ⟨⟨m.ops.set a ⟨o.data, o.ref - 1, o.deletes + 1⟩, m.smarts.set i (some none)⟩, ?_, rfl,
    ?_⟩
  · rw [release_eq found holds, if_pos (Int.le_of_eq zero), zero]
  · have written : (⟨m.ops.set a ⟨o.data, o.ref - 1, o.deletes + 1⟩,
        m.smarts.set i (some none)⟩ : OpMemory).smarts = m.smarts.set i (some none) := rfl
    have holders := holders_set holds written
    refine counts.write found rfl ?_ (Or.inr ⟨by rw [live], holders_pos holds, ?_⟩)
    · intro b other
      have here := holders b
      rw [if_neg (by simpa using Ne.symm other), if_neg (by simp)] at here
      exact ⟨here, rfl⟩
    · have here := holders a
      rw [if_pos rfl, if_neg (by simp), sole] at here
      exact Nat.succ.inj here

/-- A `SmartOp` gives up a reference that none stands for, and keeps the operation. -/
theorem release_counts_extra {n : Nat} (counts : m.Counts extra)
    (holds : m.get i = some (some a)) (isExtra : extra a = n + 1) :
    ∃ m', m.release i = some (((m.holders a + n : Nat) : Int), m') ∧ m'.smarts = m.smarts ∧
      m'.Counts (Function.update extra a n) ∧ m.DeletesLast m' := by
  obtain ⟨o, found, ref⟩ := counts.held holds
  obtain ⟨-, live⟩ := deref_eq_some_iff.mp found
  have positive := holders_pos holds
  rw [isExtra] at ref
  have lowered : o.ref - 1 = ((m.holders a + n : Nat) : Int) := by
    omega
  refine ⟨m.put a { o with ref := o.ref - 1 }, ?_, rfl, ?_⟩
  · rw [release_eq found holds, if_neg (by omega), lowered]
  · apply counts.write found rfl
    · intro b other
      exact ⟨rfl, Function.update_of_ne other _ _⟩
    · refine Or.inl ⟨live, ?_, id⟩
      rw [Function.update_self]
      exact lowered

/-- A `SmartOp` is destroyed. -/
theorem destroy_counts (counts : m.Counts extra) (holds : m.get i = some op)
    (noExtra : ∀ a, op = some a → extra a = 0) :
    ∃ m', m.destroy i = some m' ∧ m'.smarts = m.smarts.set i none ∧ m'.Counts extra ∧
      m.DeletesLast m' := by
  have written : ({ m with smarts := m.smarts.set i none } : OpMemory).smarts =
      m.smarts.set i none := rfl
  have holders := holders_set holds written
  cases op with
  | none =>
      refine ⟨{ m with smarts := m.smarts.set i none }, ?_, rfl, ?_⟩
      · rw [destroy, release, holds]
        rfl
      · refine counts.same rfl fun b => ?_
        have here := holders b
        rwa [if_neg (by simp), if_neg (by simp)] at here
  | some a =>
      obtain ⟨o, found, ref⟩ := counts.held holds
      obtain ⟨-, live⟩ := deref_eq_some_iff.mp found
      have positive := holders_pos holds
      have own := holders a
      rw [if_pos rfl, if_neg (by simp)] at own
      rw [noExtra a rfl] at ref
      have others : ∀ b, b ≠ a →
          ({ m with smarts := m.smarts.set i none } : OpMemory).holders b = m.holders b ∧
            extra b = extra b := by
        intro b other
        have here := holders b
        rw [if_neg (by simpa using Ne.symm other), if_neg (by simp)] at here
        exact ⟨here, rfl⟩
      by_cases last : o.ref - 1 ≤ 0
      · refine ⟨⟨m.ops.set a ⟨o.data, o.ref - 1, o.deletes + 1⟩, m.smarts.set i none⟩, ?_, rfl, ?_⟩
        · rw [destroy, release_eq found holds, if_pos last, Option.map_some]
          dsimp only
          rw [List.set_set]
        · refine counts.write found rfl others (Or.inr ⟨by rw [live], positive, ?_⟩)
          have here : ({ m with smarts := m.smarts.set i none } : OpMemory).holders a = 0 := by
            omega
          exact here
      · refine ⟨⟨m.ops.set a { o with ref := o.ref - 1 }, m.smarts.set i none⟩, ?_, rfl, ?_⟩
        · rw [destroy, release_eq found holds, if_neg last]
          rfl
        · have positive' :
              0 < ({ m with smarts := m.smarts.set i none } : OpMemory).holders a := by
            omega
          have ref' : o.ref - 1 =
              ((({ m with smarts := m.smarts.set i none } : OpMemory).holders a + extra a : Nat) :
                Int) := by
            rw [noExtra a rfl]
            omega
          exact counts.write found rfl others (Or.inl ⟨live, ref', fun _ => positive'⟩)

/-- `reset` of a `SmartOp` that holds nothing. -/
theorem reset_counts (counts : m.Counts extra) (empty : m.get i = some none)
    (usable : ∀ a, op = some a → ∃ o, m.deref a = some o) :
    ∃ m', m.reset i op = some m' ∧ m'.smarts = m.smarts.set i (some op) ∧ m'.Counts extra ∧
      m.DeletesLast m' := by
  have written : (m.setOp i op).smarts = m.smarts.set i (some op) := rfl
  have now := get_set_self written empty
  have released : m.reset i op = ((m.setOp i op).addref i).map Prod.snd := by
    rw [reset, release, empty]
    rfl
  have holders : ∀ b, (m.setOp i op).holders b = m.holders b + if op = some b then 1 else 0 := by
    intro b
    have here := holders_set empty written b
    rw [if_neg (by simp), Nat.add_zero] at here
    simp only [Option.some.injEq] at here
    exact here
  cases op with
  | none =>
      refine ⟨m.setOp i none, ?_, rfl, ?_⟩
      · rw [released, addref, now]
        rfl
      · refine counts.same rfl fun b => ?_
        rw [holders]
        simp
  | some a =>
      obtain ⟨o, found⟩ := usable a rfl
      obtain ⟨m', added, smarts, counts', deletes⟩ := addref_counts counts found now rfl holders
      refine ⟨m', ?_, smarts, counts', deletes⟩
      rw [released, added]
      rfl

/-- A new operation is held by nobody. -/
theorem new_counts (counts : m.Counts extra) (data : OpData) (noExtra : extra m.ops.length = 0) :
    (m.new data).Counts extra ∧ m.DeletesLast (m.new data) := by
  have unheld : m.holders m.ops.length = 0 := by
    by_contra held
    exact Nat.lt_irrefl _ (counts.allocated _ (Nat.pos_of_ne_zero held))
  have split : ∀ a o, (m.new data).ops[a]? = some o →
      m.ops[a]? = some o ∨ a = m.ops.length ∧ o = ⟨data, 0, 0⟩ := by
    intro a o found
    rw [new, List.getElem?_append] at found
    split_ifs at found with inside
    · exact Or.inl found
    · rw [List.getElem?_singleton] at found
      split_ifs at found with isFirst
      exact Or.inr ⟨by omega, (Option.some.inj found).symm⟩
  constructor
  · constructor
    · intro a held
      rw [new, List.length_append]
      exact Nat.lt_add_right 1 (counts.allocated a held)
    · intro a o found live
      rcases split a o found with old | ⟨rfl, rfl⟩
      · exact counts.live a o old live
      · show (0 : Int) = ((m.holders m.ops.length + extra m.ops.length : Nat) : Int)
        rw [unheld, noExtra]
        rfl
    · intro a o found isDeleted
      rcases split a o found with old | ⟨rfl, rfl⟩
      · exact counts.deleted a o old isDeleted
      · exact absurd rfl isDeleted
  · exact .append rfl rfl fun o isNew => by rw [List.mem_singleton.mp isNew]

end OpMemory

end GPush.ClientSdk
