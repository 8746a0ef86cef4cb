import GPush.ClientSdk.EventLoop
import GPush.ClientSdk.OpCounts
import GPush.ClientSdk.Untimed

/-!
# What a loop shows

A loop whose operations are counted shows its connections, with the deadlines and the kinds of
their timers, and the operations that it has queued.  Where only its `SmartOp`s differ, two loops
show the same.
-/

namespace GPush.ClientSdk

open GPush.ConnectServer GPush.Transition

/-! ## The data of the operations -/

namespace OpMemory

variable {m m' : OpMemory} {a i : Nat} {n : Int} {o : OpObject} {op : Option Nat}

/-- The data of an operation, which outlives it. -/
def dataAt (m : OpMemory) (a : Nat) : Option OpData := m.ops[a]?.map OpObject.data

theorem dataAt_of_deref (found : m.deref a = some o) : m.dataAt a = some o.data := by
  rw [dataAt, (deref_eq_some_iff.mp found).1, Option.map_some]

/-- A step that makes no operation writes the `SmartOp`s. -/
structure Writes (m m' : OpMemory) (smarts : List (Option (Option Nat))) : Prop where
  data : m'.dataAt = m.dataAt
  smarts : m'.smarts = smarts

/-- An operation is written with the same data. -/
theorem put_writes (o' : OpObject) (found : m.deref a = some o) (same : o'.data = o.data) :
    m.Writes (m.put a o') m.smarts := by
  refine ⟨funext fun b => ?_, rfl⟩
  have inside := (deref_eq_some_iff.mp found).1
  rw [dataAt, dataAt, put, List.getElem?_set]
  split_ifs with isSelf isIn
  · subst isSelf
    rw [inside, Option.map_some, Option.map_some, same]
  · exact absurd (List.getElem?_eq_some_iff.mp inside).1 isIn
  · rfl

/-- A count changes no `SmartOp`. -/
theorem increase_writes (raised : m.increase a = some (n, m')) : m.Writes m' m.smarts := by
  obtain ⟨o, found, eq⟩ := Option.map_eq_some_iff.mp raised
  rw [← (Prod.mk.inj eq).2]
  exact put_writes _ found rfl

theorem addref_writes (added : m.addref i = some (n, m')) : m.Writes m' m.smarts := by
  obtain ⟨op, -, raised⟩ := Option.bind_eq_some_iff.mp added
  cases op with
  | none =>
      rw [← (Prod.mk.inj (Option.some.inj raised)).2]
      exact ⟨rfl, rfl⟩
  | some a => exact increase_writes raised

/-- The `SmartOp` that releases an operation may hold nothing afterwards. -/
theorem release_writes (released : m.release i = some (n, m')) :
    ∃ smarts, m.Writes m' smarts ∧ (smarts = m.smarts ∨ smarts = m.smarts.set i (some none)) := by
  obtain ⟨op, -, lowers⟩ := Option.bind_eq_some_iff.mp released
  cases op with
  | none =>
      rw [← (Prod.mk.inj (Option.some.inj lowers)).2]
      exact ⟨_, ⟨rfl, rfl⟩, Or.inl rfl⟩
  | some a =>
      obtain ⟨⟨count, lowered⟩, decreased, rest⟩ := Option.bind_eq_some_iff.mp lowers
      obtain ⟨o, found, eq⟩ := Option.map_eq_some_iff.mp decreased
      have first : m.Writes lowered m.smarts := by
        rw [← (Prod.mk.inj eq).2]
        exact put_writes _ found rfl
      dsimp only at rest
      split_ifs at rest
      · obtain ⟨gone, deleted, eq'⟩ := Option.map_eq_some_iff.mp rest
        obtain ⟨o', found', rfl⟩ := Option.map_eq_some_iff.mp deleted
        obtain ⟨-, rfl⟩ := Prod.mk.inj eq'
        have second := put_writes { o' with deletes := o'.deletes + 1 } found' rfl
        refine ⟨_, ⟨second.data.trans first.data, rfl⟩, Or.inr ?_⟩
        rw [setOp, second.smarts, first.smarts]
      · obtain ⟨-, rfl⟩ := Prod.mk.inj (Option.some.inj rest)
        exact ⟨_, first, Or.inl rfl⟩

/-- The new `SmartOp` is the last one. -/
theorem construct_writes (made : m.construct op = some (i, m')) :
    i = m.smarts.length ∧ m.Writes m' (m.smarts ++ [some op]) := by
  obtain ⟨⟨count, added⟩, isAdded, eq⟩ := Option.map_eq_some_iff.mp made
  obtain ⟨rfl, rfl⟩ := Prod.mk.inj eq
  have writes := addref_writes isAdded
  exact ⟨rfl, writes.data, writes.smarts⟩

/-- A `SmartOp` that is destroyed is the only one that changes. -/
theorem destroy_writes (gone : m.destroy i = some m') : m.Writes m' (m.smarts.set i none) := by
  obtain ⟨⟨count, released⟩, isReleased, rfl⟩ := Option.map_eq_some_iff.mp gone
  obtain ⟨smarts, writes, same | emptied⟩ := release_writes isReleased
  · exact ⟨writes.data, congrArg (·.set i none) (writes.smarts.trans same)⟩
  · refine ⟨writes.data, (congrArg (·.set i none) (writes.smarts.trans emptied)).trans ?_⟩
    exact List.set_set _

/-- A `SmartOp` that is set is the only one that changes. -/
theorem reset_writes (isSet : m.reset i op = some m') :
    m.Writes m' (m.smarts.set i (some op)) := by
  obtain ⟨⟨count, released⟩, isReleased, rest⟩ := Option.bind_eq_some_iff.mp isSet
  obtain ⟨⟨count', added⟩, isAdded, rfl⟩ := Option.map_eq_some_iff.mp rest
  have second := addref_writes isAdded
  obtain ⟨smarts, writes, same | emptied⟩ := release_writes isReleased
  · exact ⟨second.data.trans writes.data, by rw [second.smarts, setOp, writes.smarts, same]⟩
  · refine ⟨second.data.trans writes.data, ?_⟩
    rw [second.smarts, setOp, writes.smarts, emptied, List.set_set]

theorem dataAt_new {data : OpData} : (m.new data).dataAt m.ops.length = some data := by
  rw [dataAt, new, List.getElem?_concat_length, Option.map_some]

/-- A new operation leaves the others alone. -/
theorem dataAt_new_old {data d : OpData} (found : m.dataAt a = some d) :
    (m.new data).dataAt a = some d := by
  obtain ⟨o, isObject, rfl⟩ := Option.map_eq_some_iff.mp found
  rw [dataAt, new, List.getElem?_append_left (List.getElem?_eq_some_iff.mp isObject).1, isObject,
    Option.map_some]

end OpMemory

/-! ## The relation -/

/-- The kind of an operation that waits for a time. -/
def OpData.timerOp : OpData → Option TimerOp
  | .login _ => some .login
  | .keepalive _ _ => some .keepalive
  | _ => none

/-- The name of an operation that waits for a time. -/
def TimerOp.sn : TimerOp → Bytes
  | .login => loginSn
  | .keepalive => keepaliveSn

/-- The name says the kind. -/
theorem OpData.getSN_of_timerOp {data : OpData} {op : TimerOp} (fits : data.timerOp = some op) :
    data.getSN = op.sn := by
  cases data <;> cases fits <;> rfl

/-- What the constructor of an operation sets. -/
def Op.data : Op → OpData
  | .call (.login op) => .login op
  | .call (.disconnect cid) => .disconnect cid
  | .delConn cid => .delConn cid

/-- The connections and the queued operations that a loop shows, and the operations that its
functions have pointers to. -/
structure Shown where
  conns : Bytes → Option CliConn
  ops : List Op
  known : List (Nat × OpData)

namespace Shown

/-- A connection is there. -/
def set (v : Shown) (cid : Bytes) (c : CliConn) : Shown :=
  { v with conns := Function.update v.conns cid (some c) }

/-- After a call of a connection. -/
def after (v : Shown) (cid : Bytes) (out : Out) : Shown :=
  { v with
    conns := Function.update v.conns cid (some out.con)
    ops := v.ops ++ EventLoop.queued out.acts }

/-- A connection is gone. -/
def drop (v : Shown) (cid : Bytes) : Shown :=
  { v with conns := Function.update v.conns cid none }

/-- There is a pointer to an operation. -/
def know (v : Shown) (a : Nat) (data : OpData) : Shown := { v with known := (a, data) :: v.known }

/-- Two calls are the call of one after the other. -/
theorem after_after (v : Shown) (cid : Bytes) (out : Out) (next : CliConn → Out) :
    (v.after cid out).after cid (next out.con) = v.after cid (out.andThen next) := by
  simp [after, Out.andThen, EventLoop.queued]

theorem after_set (v : Shown) (cid : Bytes) (c : CliConn) (out : Out) :
    (v.set cid c).after cid out = v.after cid out := by
  simp [after, set]

theorem set_after (v : Shown) (cid : Bytes) (out : Out) (c : CliConn) :
    (v.after cid out).set cid c = v.after cid { out with con := c } := by
  simp [after, set]

/-- A call that does nothing but change the connection. -/
theorem after_nil (v : Shown) (cid : Bytes) (ret : Int) (c : CliConn) :
    v.after cid ⟨ret, c, []⟩ = v.set cid c := by
  simp [after, set, EventLoop.queued]

theorem set_set (v : Shown) (cid : Bytes) (c c' : CliConn) :
    (v.set cid c).set cid c' = v.set cid c' := by
  simp [set]

theorem set_self {v : Shown} {cid : Bytes} {c : CliConn} (isConn : v.conns cid = some c) :
    v.set cid c = v := by
  rw [set, ← isConn, Function.update_eq_self]

theorem conns_set (v : Shown) (cid : Bytes) (c : CliConn) : (v.set cid c).conns cid = some c :=
  Function.update_self _ _ _

theorem conns_set_of_ne {v : Shown} {cid cid' : Bytes} {c : CliConn} (other : cid' ≠ cid) :
    (v.set cid c).conns cid' = v.conns cid' := Function.update_of_ne other _ _

theorem conns_drop (v : Shown) (cid : Bytes) : (v.drop cid).conns cid = none :=
  Function.update_self _ _ _

theorem conns_drop_of_ne {v : Shown} {cid cid' : Bytes} (other : cid' ≠ cid) :
    (v.drop cid).conns cid' = v.conns cid' := Function.update_of_ne other _ _

theorem conns_after (v : Shown) (cid : Bytes) (out : Out) :
    (v.after cid out).conns cid = some out.con := Function.update_self _ _ _

end Shown

namespace SmartLoop

/-- A node stands for a timer. -/
def Stands (m : OpMemory) (node : TimerNode) (timer : Int × TimerOp) : Prop :=
  node.deadline = timer.1 ∧ node.id = timer.2.sn ∧
    ∃ a data, m.get node.smart = some (some a) ∧ m.dataAt a = some data ∧
      data.timerOp = some timer.2

/-- A connection is shown, whatever the timers are that its fields have. -/
structure Like (m : OpMemory) (conn : SmartConn) (c : CliConn) : Prop where
  fields : ∃ timers, conn.con = c.setTimers timers
  timers : List.Forall₂ (Stands m) conn.timers c.timers
  sorted : Sorted c.timers

/-- What the loop shows. -/
structure View (v : Shown) (el : SmartLoop) : Prop where
  conns : ∀ cid, Option.Rel (Like el.mem) (el.findConn cid) (v.conns cid)
  ops : List.Forall₂ (fun a op => el.mem.dataAt a = some op.data) el.ops v.ops
  known : ∀ k ∈ v.known, el.mem.dataAt k.1 = some k.2
  keys : (el.conns.map Prod.fst).Nodup

/-- The loop is sound, and shows what it has. -/
structure Shows (sc : Scope) (v : Shown) (el : SmartLoop) : Prop where
  sound : Sound sc el
  view : View v el

/-- The operations that a call queues are the same in both. -/
theorem queued_eq (acts : List Act) : queued acts = (EventLoop.queued acts).map Op.data := by
  induction acts with
  | nil => rfl
  | cons act acts ih =>
      rw [queued, EventLoop.queued] at ih ⊢
      cases act with
      | asynAddOp op =>
          rcases op with c | cid
          · cases c <;> simp [ih, Op.data]
          · simp [ih, Op.data]
      | _ => simp [ih]

/-! ## The containers -/

section Containers

variable {el : SmartLoop} {cid cid' : Bytes} {conn : SmartConn}

/-- The other connections are found as before. -/
theorem findConn_removeConn_of_ne (other : cid' ≠ cid) :
    (el.removeConn cid).findConn cid' = el.findConn cid' := by
  have finds : ∀ conns : List (Bytes × SmartConn),
      (conns.eraseP fun entry => entry.1 = cid).find? (fun entry => entry.1 = cid') =
        conns.find? fun entry => entry.1 = cid' := by
    intro conns
    induction conns with
    | nil => rfl
    | cons entry conns ih =>
        by_cases isErased : entry.1 = cid
        · rw [List.eraseP_cons_of_pos (by simpa using isErased), List.find?_cons_of_neg]
          simpa [isErased] using Ne.symm other
        · rw [List.eraseP_cons_of_neg (by simpa using isErased), List.find?_cons, List.find?_cons,
            ih]
  exact congrArg (Option.map Prod.snd) (finds el.conns)

theorem findConn_setConn_of_ne (other : cid' ≠ cid) :
    (el.setConn cid conn).findConn cid' = el.findConn cid' := by
  have skips : (el.setConn cid conn).findConn cid' = (el.removeConn cid).findConn cid' := by
    rw [findConn, setConn, List.find?_cons_of_neg]
    · rfl
    · simpa using Ne.symm other
  exact skips.trans (findConn_removeConn_of_ne other)

theorem keys_removeConn :
    (el.removeConn cid).conns.map Prod.fst = (el.conns.map Prod.fst).erase cid := by
  have same : (fun key => key == cid) ∘ Prod.fst =
      fun entry : Bytes × SmartConn => decide (entry.1 = cid) := by
    funext entry
    exact Bool.eq_iff_iff.mpr (by simp)
  rw [List.erase_eq_eraseP', List.eraseP_map, same]
  rfl

theorem findConn_eq_none_iff : el.findConn cid = none ↔ cid ∉ el.conns.map Prod.fst := by
  rw [findConn, Option.map_eq_none_iff, List.find?_eq_none]
  constructor
  · intro none isKey
    obtain ⟨entry, member, isCid⟩ := List.mem_map.mp isKey
    exact none entry member (decide_eq_true isCid)
  · intro noKey entry member isCid
    exact noKey (List.mem_map.mpr ⟨entry, member, of_decide_eq_true isCid⟩)

/-- A key is there once. -/
theorem findConn_removeConn (keys : (el.conns.map Prod.fst).Nodup) :
    (el.removeConn cid).findConn cid = none := by
  rw [findConn_eq_none_iff, keys_removeConn]
  exact keys.not_mem_erase

/-- A connection that changes is there once. -/
theorem keys_setConn (keys : (el.conns.map Prod.fst).Nodup) :
    ((el.setConn cid conn).conns.map Prod.fst).Nodup := by
  rw [setConn, List.map_cons, keys_removeConn]
  exact List.nodup_cons.mpr ⟨keys.not_mem_erase, keys.erase cid⟩

end Containers

section Like

variable {m m' : OpMemory} {node : TimerNode} {timer : Int × TimerOp} {conn : SmartConn}
  {c : CliConn}

theorem Stands.of_kept (stands : Stands m node timer)
    (data : ∀ a d, m.dataAt a = some d → m'.dataAt a = some d)
    (kept : ∀ op, m.get node.smart = some op → m'.get node.smart = some op) :
    Stands m' node timer := by
  obtain ⟨deadline, id, a, d, holds, isData, fits⟩ := stands
  exact ⟨deadline, id, a, d, kept _ holds, data a d isData, fits⟩

theorem all_stand_of_kept {nodes : List TimerNode} {timers : List (Int × TimerOp)}
    (stand : List.Forall₂ (Stands m) nodes timers)
    (data : ∀ a d, m.dataAt a = some d → m'.dataAt a = some d)
    (kept : ∀ node ∈ nodes, ∀ op, m.get node.smart = some op → m'.get node.smart = some op) :
    List.Forall₂ (Stands m') nodes timers := by
  induction stand with
  | nil => exact .nil
  | cons first _ ih =>
      rw [List.forall_mem_cons] at kept
      exact .cons (first.of_kept data kept.1) (ih kept.2)

/-- A connection is shown while its `SmartOp`s hold what they hold. -/
theorem Like.of_kept (like : Like m conn c)
    (data : ∀ a d, m.dataAt a = some d → m'.dataAt a = some d)
    (kept : ∀ i ∈ conn.timers.map TimerNode.smart, ∀ op, m.get i = some op → m'.get i = some op) :
    Like m' conn c := by
  rw [List.forall_mem_map] at kept
  exact ⟨like.fields, all_stand_of_kept like.timers data kept, like.sorted⟩

end Like

namespace View

variable {v : Shown} {el : SmartLoop} {mem' : OpMemory} {cid : Bytes} {c : CliConn}
  {conn : SmartConn}

/-- A connection that is shown is found. -/
theorem found (view : View v el) (isConn : v.conns cid = some c) :
    ∃ conn, el.findConn cid = some conn ∧ Like el.mem conn c := by
  have related := view.conns cid
  rw [isConn] at related
  cases isFound : el.findConn cid with
  | none =>
      rw [isFound] at related
      cases related
  | some conn =>
      rw [isFound] at related
      cases related with
      | some like => exact ⟨conn, rfl, like⟩

/-- A connection that is not shown is not found. -/
theorem missing (view : View v el) (isGone : v.conns cid = none) : el.findConn cid = none := by
  have related := view.conns cid
  rw [isGone] at related
  cases isFound : el.findConn cid with
  | none => rfl
  | some conn =>
      rw [isFound] at related
      cases related

/-- The operations change, and what the nodes hold does not. -/
theorem memory (view : View v el) (data : ∀ a d, el.mem.dataAt a = some d → mem'.dataAt a = some d)
    (nodes : ∀ i ∈ el.nodes, ∀ op, el.mem.get i = some op → mem'.get i = some op) :
    View v { el with mem := mem' } := by
  refine ⟨fun cid => ?_, view.ops.imp fun a op => data a _, fun k member =>
    data _ _ (view.known k member), view.keys⟩
  cases isConn : v.conns cid with
  | none =>
      rw [show findConn { el with mem := mem' } cid = none from view.missing isConn]
      exact .none
  | some c =>
      obtain ⟨conn, isFound, like⟩ := view.found isConn
      rw [show findConn { el with mem := mem' } cid = some conn from isFound]
      refine .some (like.of_kept data fun i isNode => nodes i ?_)
      exact (nodes_perm isFound).symm.subset (List.mem_append_left _ isNode)

/-- A `SmartOp` is written that belongs to no timer. -/
theorem writes {i : Nat} {x : Option (Option Nat)} (view : View v el)
    (writes : el.mem.Writes mem' (el.mem.smarts.set i x)) (other : i ∉ el.nodes) :
    View v { el with mem := mem' } := by
  apply view.memory
  · intro a d isData
    rwa [writes.data]
  · intro j isNode op holds
    have differs : j ≠ i := fun same => other (same ▸ isNode)
    rwa [OpMemory.get_set_ne writes.smarts differs]

/-- A `SmartOp` is made. -/
theorem pushes {op : Option Nat} (view : View v el)
    (writes : el.mem.Writes mem' (el.mem.smarts ++ [some op])) :
    View v { el with mem := mem' } := by
  apply view.memory
  · intro a d isData
    rwa [writes.data]
  · exact fun j _ op holds => OpMemory.get_append writes.smarts holds

/-- There is a pointer to an operation. -/
theorem know {a : Nat} {data : OpData} (view : View v el)
    (isData : el.mem.dataAt a = some data) : View (v.know a data) el :=
  ⟨view.conns, view.ops, List.forall_mem_cons.mpr ⟨isData, view.known⟩, view.keys⟩

/-- Some pointers are forgotten. -/
theorem forget {known : List (Nat × OpData)} (view : View v el) (subset : known ⊆ v.known) :
    View { v with known := known } el :=
  ⟨view.conns, view.ops, fun k member => view.known k (subset member), view.keys⟩

/-- A connection changes. -/
theorem setConn (view : View v el) (like : Like el.mem conn c) :
    View (v.set cid c) (el.setConn cid conn) := by
  refine ⟨fun cid' => ?_, view.ops, view.known, keys_setConn view.keys⟩
  by_cases isSelf : cid' = cid
  · subst isSelf
    rw [findConn_setConn, Shown.conns_set]
    exact .some like
  · rw [findConn_setConn_of_ne isSelf, Shown.conns_set_of_ne isSelf]
    exact view.conns cid'

/-- A connection is taken out. -/
theorem removeConn (view : View v el) : View (v.drop cid) (el.removeConn cid) := by
  have keys := view.keys.erase cid
  rw [← keys_removeConn] at keys
  refine ⟨fun cid' => ?_, view.ops, view.known, keys⟩
  by_cases isSelf : cid' = cid
  · subst isSelf
    rw [findConn_removeConn view.keys, Shown.conns_drop]
    exact .none
  · rw [findConn_removeConn_of_ne isSelf, Shown.conns_drop_of_ne isSelf]
    exact view.conns cid'

/-- A connection is made. -/
theorem addConn (view : View v el) (isNew : v.conns cid = none) (noTimers : c.timers = []) :
    View (v.set cid c) { el with conns := (cid, ⟨c, []⟩) :: el.conns } := by
  have unused := findConn_eq_none_iff.mp (view.missing isNew)
  have same : el.setConn cid ⟨c, []⟩ = { el with conns := (cid, ⟨c, []⟩) :: el.conns } := by
    rw [SmartLoop.setConn, SmartLoop.removeConn, List.eraseP_of_forall_not]
    intro entry member isCid
    exact unused (List.mem_map.mpr ⟨entry, member, of_decide_eq_true isCid⟩)
  rw [← same]
  refine view.setConn ⟨⟨c.timers, rfl⟩, ?_, ?_⟩
  · rw [noTimers]
    exact .nil
  · rw [noTimers]
    exact List.Pairwise.nil

/-- An operation is queued. -/
theorem asynAddOp (view : View v el) (op : Op) :
    View { v with ops := v.ops ++ [op] } (el.asynAddOp op.data) := by
  have grown : View v { el with mem := el.mem.new op.data } :=
    view.memory (fun _ _ => OpMemory.dataAt_new_old) fun _ _ _ => id
  refine ⟨grown.conns, ?_, grown.known, view.keys⟩
  exact List.rel_append grown.ops (.cons OpMemory.dataAt_new .nil)

/-- Some operations are queued. -/
theorem enqueue (view : View v el) (ops : List Op) :
    View { v with ops := v.ops ++ ops } ((ops.map Op.data).foldl SmartLoop.asynAddOp el) := by
  induction ops generalizing v el with
  | nil =>
      rw [List.append_nil]
      exact view
  | cons op ops ih =>
      have rest := ih (view.asynAddOp op)
      rwa [List.append_assoc] at rest

/-- After a call of a connection. -/
theorem after {out : Out} (view : View v el) (cid : Bytes) (like : Like el.mem conn out.con) :
    View (v.after cid out) ((queued out.acts).foldl SmartLoop.asynAddOp (el.setConn cid conn)) := by
  rw [queued_eq]
  exact (view.setConn like).enqueue _

end View

end SmartLoop

end GPush.ClientSdk
