import GPush.ClientSdk.SmartLoop
import GPush.Containers.Ordered

/-!
# The references of the loop

Between two actions of the loop every `SmartOp` object is a local variable or belongs to a timer
of one connection, and the operations that are queued are held by none.
-/

namespace GPush.ClientSdk

open GPush.ConnectServer GPush.Transition

namespace SmartLoop

/-- The `SmartOp` objects of the timers. -/
def nodes (el : SmartLoop) : List Nat :=
  el.conns.flatMap fun entry => entry.2.timers.map TimerNode.smart

/-- What the functions that are entered work with: their `SmartOp`s with what these hold, their
pointers to operations that are not queued, the operation that is processed with the references
that it has made itself, and the timers of a connection. -/
structure Scope where
  locals : List (Nat × Option Nat)
  raws : List Nat
  busy : Option (Nat × Nat)
  here : Option (Bytes × List TimerNode)

namespace Scope

/-- No function is entered. -/
def outside : Scope := ⟨[], [], none, none⟩

/-- The references that no `SmartOp` stands for. -/
def extra (sc : Scope) (a : Nat) : Nat :=
  match sc.busy with
  | some (b, n) => if a = b then n else 0
  | none => 0

variable {sc : Scope}

theorem extra_idle (idle : sc.busy = none) (a : Nat) : sc.extra a = 0 := by
  rw [extra, idle]

theorem extra_busy {a n : Nat} (busy : sc.busy = some (a, n)) : sc.extra a = n := by
  rw [extra, busy]
  exact if_pos rfl

theorem extra_other {a n b : Nat} (busy : sc.busy = some (a, n)) (other : b ≠ a) :
    sc.extra b = 0 := by
  rw [extra, busy]
  exact if_neg other

/-- An operation that has made no reference of its own counts as any other. -/
theorem extra_calm {a : Nat} {locals : List (Nat × Option Nat)} {raws : List Nat}
    {here : Option (Bytes × List TimerNode)} :
    extra ⟨locals, raws, some (a, 0), here⟩ = extra ⟨locals, raws, none, here⟩ := by
  funext b
  by_cases isSelf : b = a
  · subst isSelf
    exact extra_busy rfl
  · exact extra_other rfl isSelf

theorem extra_eq {busy : Option (Nat × Nat)} (isBusy : sc.busy = busy)
    {locals : List (Nat × Option Nat)} {raws : List Nat}
    {here : Option (Bytes × List TimerNode)} : sc.extra = extra ⟨locals, raws, busy, here⟩ := by
  funext a
  rw [extra, extra, isBusy]

end Scope

/-- The invariant, inside of functions. -/
structure Sound (sc : Scope) (el : SmartLoop) : Prop where
  counts : el.mem.Counts sc.extra
  distinct : (sc.locals.map Prod.fst ++ el.nodes).Nodup
  nodes : ∀ i ∈ el.nodes, ∃ op, el.mem.get i = some op
  locals : ∀ l ∈ sc.locals, el.mem.get l.1 = some l.2
  once : (sc.raws ++ el.ops).Nodup
  fresh : ∀ a ∈ sc.raws ++ el.ops, el.mem.holders a = 0 ∧ ∃ o, el.mem.deref a = some o
  busy : ∀ a n, sc.busy = some (a, n) → el.mem.holders a = 1 ∧ ∃ i, (i, some a) ∈ sc.locals
  here : ∀ cid timers, sc.here = some (cid, timers) →
    ∃ con, el.findConn cid = some ⟨con, timers⟩

/-- What every action keeps. -/
def Keeps (el el' : SmartLoop) : Prop := el.mem.DeletesLast el'.mem ∧ ∃ sc, Sound sc el'

namespace Sound

variable {sc sc' : Scope} {el : SmartLoop} {mem' : OpMemory} {a i : Nat} {op : Option Nat}

/-- The places of the `SmartOp`s are places of objects. -/
theorem place (sound : Sound sc el) (isPlace : i ∈ sc.locals.map Prod.fst ++ el.nodes) :
    ∃ op, el.mem.get i = some op := by
  rcases List.mem_append.mp isPlace with isLocal | isNode
  · obtain ⟨l, member, rfl⟩ := List.mem_map.mp isLocal
    exact ⟨l.2, sound.locals l member⟩
  · exact sound.nodes i isNode

/-- A new object has a place of its own. -/
theorem unused (sound : Sound sc el) :
    el.mem.smarts.length ∉ sc.locals.map Prod.fst ++ el.nodes := by
  intro isPlace
  obtain ⟨op, found⟩ := sound.place isPlace
  obtain ⟨inside, -⟩ := List.getElem?_eq_some_iff.mp (OpMemory.get_eq_some_iff.mp found)
  exact Nat.lt_irrefl _ inside

/-- An action on the operations. -/
theorem memory (sound : Sound sc el) (counts : mem'.Counts sc'.extra)
    (deletes : el.mem.DeletesLast mem') (distinct : (sc'.locals.map Prod.fst ++ el.nodes).Nodup)
    (nodes : ∀ i ∈ el.nodes, ∀ op, el.mem.get i = some op → mem'.get i = some op)
    (locals : ∀ l ∈ sc'.locals, mem'.get l.1 = some l.2)
    (raws : (sc'.raws ++ el.ops).Sublist (sc.raws ++ el.ops))
    (unheld : ∀ a ∈ sc'.raws ++ el.ops, mem'.holders a = 0)
    (busy : ∀ a n, sc'.busy = some (a, n) → mem'.holders a = 1 ∧ ∃ i, (i, some a) ∈ sc'.locals)
    (here : sc'.here = sc.here) : Sound sc' { el with mem := mem' } := by
  refine ⟨counts, distinct, ?_, locals, sound.once.sublist raws, ?_, busy, ?_⟩
  · intro i isNode
    obtain ⟨op, found⟩ := sound.nodes i isNode
    exact ⟨op, nodes i isNode op found⟩
  · intro a isFresh
    obtain ⟨wasUnheld, o, found⟩ := sound.fresh a (raws.subset isFresh)
    exact ⟨unheld a isFresh, deletes.deref wasUnheld found⟩
  · intro cid timers isHere
    rw [here] at isHere
    exact sound.here cid timers isHere

/-- Users queue a new operation. -/
theorem asynAddOp (sound : Sound sc el) (data : OpData) : Sound sc (el.asynAddOp data) := by
  have noExtra : sc.extra el.mem.ops.length = 0 := by
    cases busy : sc.busy with
    | none => exact Scope.extra_idle busy _
    | some entry =>
        apply Scope.extra_other busy
        rintro isBusy
        have held := (sound.busy entry.1 entry.2 busy).1
        rw [← isBusy] at held
        exact Nat.lt_irrefl _ (sound.counts.allocated _ (by rw [held]; exact Nat.one_pos))
  obtain ⟨counts, deletes⟩ := OpMemory.new_counts sound.counts data noExtra
  have known : ∀ a ∈ sc.raws ++ el.ops, a < el.mem.ops.length := by
    intro a isFresh
    obtain ⟨-, o, found⟩ := sound.fresh a isFresh
    exact (List.getElem?_eq_some_iff.mp (OpMemory.deref_eq_some_iff.mp found).1).1
  refine ⟨counts, sound.distinct, sound.nodes, sound.locals, ?_, ?_, sound.busy, sound.here⟩
  · rw [SmartLoop.asynAddOp, ← List.append_assoc, List.nodup_append]
    refine ⟨sound.once, List.nodup_singleton _, ?_⟩
    rintro a isFresh b isNew rfl
    rw [List.mem_singleton.mp isNew] at isFresh
    exact Nat.lt_irrefl _ (known _ isFresh)
  · intro a isFresh
    rw [SmartLoop.asynAddOp, ← List.append_assoc, List.mem_append, List.mem_singleton] at isFresh
    rcases isFresh with old | rfl
    · obtain ⟨unheld, o, found⟩ := sound.fresh a old
      exact ⟨unheld, deletes.deref unheld found⟩
    · refine ⟨?_, ⟨data, 0, 0⟩, OpMemory.deref_eq_some_iff.mpr ⟨?_, rfl⟩⟩
      · by_contra held
        exact Nat.lt_irrefl _ (sound.counts.allocated _ (Nat.pos_of_ne_zero held))
      · exact List.getElem?_concat_length

/-! ## The actions on the operations -/

/-- An object is made. -/
theorem pushLocal (sound : Sound sc el) (counts : mem'.Counts sc'.extra)
    (deletes : el.mem.DeletesLast mem') (smarts : mem'.smarts = el.mem.smarts ++ [some op])
    (locals : sc'.locals = (el.mem.smarts.length, op) :: sc.locals)
    (raws : (sc'.raws ++ el.ops).Sublist (sc.raws ++ el.ops))
    (notFresh : ∀ a ∈ sc'.raws ++ el.ops, op ≠ some a)
    (busy : ∀ a n, sc'.busy = some (a, n) → op = some a ∧ el.mem.holders a = 0)
    (here : sc'.here = sc.here) : Sound sc' { el with mem := mem' } := by
  refine sound.memory counts deletes ?_ (fun i _ _ found => OpMemory.get_append smarts found) ?_ raws
    ?_ ?_ here
  · rw [locals]
    exact List.nodup_cons.mpr ⟨sound.unused, sound.distinct⟩
  · intro l member
    rw [locals] at member
    rcases List.mem_cons.mp member with rfl | old
    · exact OpMemory.get_append_self smarts
    · exact OpMemory.get_append smarts (sound.locals l old)
  · intro a isFresh
    rw [OpMemory.holders_append smarts, (sound.fresh a (raws.subset isFresh)).1,
      if_neg (notFresh a isFresh)]
  · intro a n isBusy
    obtain ⟨isOp, unheld⟩ := busy a n isBusy
    refine ⟨?_, el.mem.smarts.length, ?_⟩
    · rw [OpMemory.holders_append smarts, unheld, if_pos isOp]
    · rw [locals, isOp]
      exact List.mem_cons_self

/-- What an object holds is not fresh. -/
theorem notFresh (sound : Sound sc el)
    (held : ∀ a, op = some a → ∃ j, el.mem.get j = some (some a)) :
    ∀ a ∈ sc.raws ++ el.ops, op ≠ some a := by
  intro a isFresh isOp
  obtain ⟨j, found⟩ := held a isOp
  exact Nat.ne_of_gt (OpMemory.holders_pos found) (sound.fresh a isFresh).1

/-- What an object holds is there. -/
theorem usable (sound : Sound sc el)
    (held : ∀ a, op = some a → ∃ j, el.mem.get j = some (some a)) :
    ∀ a, op = some a → ∃ o, el.mem.deref a = some o := by
  intro a isOp
  obtain ⟨j, found⟩ := held a isOp
  obtain ⟨o, live, -⟩ := sound.counts.held found
  exact ⟨o, live⟩

/-- An object is made for nothing, or for an operation that another object holds. -/
theorem construct (sound : Sound sc el) (idle : sc.busy = none) (op : Option Nat)
    (held : ∀ a, op = some a → ∃ j, el.mem.get j = some (some a)) :
    ∃ i mem', el.mem.construct op = some (i, mem') ∧ el.mem.DeletesLast mem' ∧
      Sound { sc with locals := (i, op) :: sc.locals } { el with mem := mem' } := by
  obtain ⟨mem', made, smarts, counts, deletes⟩ :=
    OpMemory.construct_counts sound.counts (sound.usable held)
  refine ⟨_, mem', made, deletes, sound.pushLocal counts deletes smarts rfl (List.Sublist.refl _)
    (sound.notFresh held) ?_ rfl⟩
  intro a n isBusy
  rw [idle] at isBusy
  cases isBusy

/-- The first object is made for an operation. -/
theorem constructFirst {rest : List Nat} (sound : Sound sc el) (idle : sc.busy = none)
    (raws : sc.raws = a :: rest) :
    ∃ i mem', el.mem.construct (some a) = some (i, mem') ∧ el.mem.DeletesLast mem' ∧
      Sound { sc with locals := (i, some a) :: sc.locals, raws := rest, busy := some (a, 0) }
        { el with mem := mem' } := by
  have once := sound.once
  rw [raws, List.cons_append, List.nodup_cons] at once
  obtain ⟨unheld, live⟩ := sound.fresh a (by rw [raws]; exact List.mem_cons_self)
  obtain ⟨mem', made, smarts, counts, deletes⟩ :=
    OpMemory.construct_counts sound.counts fun b isOp => Option.some.inj isOp ▸ live
  refine ⟨_, mem', made, deletes, sound.pushLocal ?_ deletes smarts rfl ?_ ?_ ?_ rfl⟩
  · rw [Scope.extra_calm, ← Scope.extra_eq idle]
    exact counts
  · rw [raws]
    exact List.sublist_cons_self _ _
  · intro b isFresh isSelf
    rw [Option.some.inj isSelf] at once
    exact once.1 isFresh
  · intro b n isBusy
    obtain ⟨rfl, rfl⟩ := Prod.mk.inj (Option.some.inj isBusy)
    exact ⟨rfl, unheld⟩

section Locals

variable {rest : List (Nat × Option Nat)}

/-- The places of the other objects stay as they are when the first local variable changes. -/
theorem elsewhere {x : Option (Option Nat)} (sound : Sound sc el)
    (locals : sc.locals = (i, op) :: rest) (smarts : mem'.smarts = el.mem.smarts.set i x) :
    ∀ j ∈ rest.map Prod.fst ++ el.nodes, mem'.get j = el.mem.get j := by
  have distinct := sound.distinct
  rw [locals, List.map_cons, List.cons_append, List.nodup_cons] at distinct
  intro j isPlace
  apply OpMemory.get_set_ne smarts
  rintro rfl
  exact distinct.1 isPlace

/-- An object is destroyed that does not hold the operation that is processed. -/
theorem destroy (sound : Sound sc el) (locals : sc.locals = (i, op) :: rest)
    (other : ∀ a n, sc.busy = some (a, n) → op ≠ some a) :
    ∃ mem', el.mem.destroy i = some mem' ∧ el.mem.DeletesLast mem' ∧
      Sound { sc with locals := rest } { el with mem := mem' } := by
  have found : el.mem.get i = some op := sound.locals (i, op) (by simp [locals])
  have noExtra : ∀ a, op = some a → sc.extra a = 0 := by
    intro a isOp
    cases busy : sc.busy with
    | none => exact Scope.extra_idle busy a
    | some entry =>
        apply Scope.extra_other busy
        rintro rfl
        exact other entry.1 entry.2 busy isOp
  obtain ⟨mem', gone, smarts, counts, deletes⟩ :=
    OpMemory.destroy_counts sound.counts found noExtra
  have distinct := sound.distinct
  rw [locals, List.map_cons, List.cons_append, List.nodup_cons] at distinct
  have elsewhere := sound.elsewhere locals smarts
  refine ⟨mem', gone, deletes, sound.memory counts deletes distinct.2 ?_ ?_
    (List.Sublist.refl _) ?_ ?_ rfl⟩
  · intro j isNode held found'
    rw [elsewhere j (List.mem_append_right _ isNode)]
    exact found'
  · intro l member
    rw [elsewhere l.1 (List.mem_append_left _ (List.mem_map_of_mem member))]
    exact sound.locals l (by rw [locals]; exact List.mem_cons_of_mem _ member)
  · exact fun a isFresh =>
      OpMemory.unheld_set found smarts (sound.fresh a isFresh).1 (Option.some_ne_none _).symm
  · intro a n isBusy
    obtain ⟨sole, j, member⟩ := sound.busy a n isBusy
    have here := OpMemory.holders_set found smarts a
    rw [sole, if_neg (other a n isBusy), if_neg (Option.some_ne_none _).symm] at here
    refine ⟨here, j, ?_⟩
    rw [locals] at member
    rcases List.mem_cons.mp member with isFirst | later
    · exact absurd (Prod.mk.inj isFirst).2.symm (other a n isBusy)
    · exact later

/-- The first local variable is set, and no operation is processed any more. -/
theorem setLocal {held : Option Nat} (sound : Sound sc el)
    (locals : sc.locals = (i, op) :: rest)
    (counts : mem'.Counts (Scope.extra ⟨(i, held) :: rest, sc.raws, none, sc.here⟩))
    (deletes : el.mem.DeletesLast mem')
    (smarts : mem'.smarts = el.mem.smarts.set i (some held))
    (notFresh : ∀ a ∈ sc.raws ++ el.ops, held ≠ some a) :
    Sound { sc with locals := (i, held) :: rest, busy := none } { el with mem := mem' } := by
  have found : el.mem.get i = some op := sound.locals (i, op) (by simp [locals])
  have distinct := sound.distinct
  rw [locals] at distinct
  have elsewhere := sound.elsewhere locals smarts
  refine sound.memory counts deletes distinct ?_ ?_ (List.Sublist.refl _) ?_ ?_ rfl
  · intro j isNode _ found'
    rw [elsewhere j (List.mem_append_right _ isNode)]
    exact found'
  · intro l member
    rcases List.mem_cons.mp member with rfl | later
    · exact OpMemory.get_set_self smarts found
    · rw [elsewhere l.1 (List.mem_append_left _ (List.mem_map_of_mem later))]
      exact sound.locals l (by rw [locals]; exact List.mem_cons_of_mem _ later)
  · intro a isFresh
    apply OpMemory.unheld_set found smarts (sound.fresh a isFresh).1
    exact fun isHeld => notFresh a isFresh (Option.some.inj isHeld)
  · intro a n isBusy
    cases isBusy

/-- The object of the operation that is processed releases the last reference. -/
theorem releaseLast (sound : Sound sc el) (locals : sc.locals = (i, some a) :: rest)
    (busy : sc.busy = some (a, 0)) :
    ∃ mem', el.mem.release i = some (0, mem') ∧ el.mem.DeletesLast mem' ∧
      Sound { sc with locals := (i, none) :: rest, busy := none } { el with mem := mem' } := by
  have found : el.mem.get i = some (some a) := sound.locals (i, some a) (by simp [locals])
  obtain ⟨sole, -⟩ := sound.busy a 0 busy
  obtain ⟨mem', released, smarts, counts, deletes⟩ :=
    OpMemory.release_counts_last sound.counts found sole (Scope.extra_busy busy)
  refine ⟨mem', released, deletes, sound.setLocal locals ?_ deletes smarts ?_⟩
  · rw [← Scope.extra_calm, ← Scope.extra_eq busy]
    exact counts
  · exact fun b _ => (Option.some_ne_none b).symm

/-- An object that holds nothing is set to what another object holds. -/
theorem reset (sound : Sound sc el) (idle : sc.busy = none)
    (locals : sc.locals = (i, none) :: rest) (op : Option Nat)
    (held : ∀ a, op = some a → ∃ j, el.mem.get j = some (some a)) :
    ∃ mem', el.mem.reset i op = some mem' ∧ el.mem.DeletesLast mem' ∧
      Sound { sc with locals := (i, op) :: rest } { el with mem := mem' } := by
  have found : el.mem.get i = some none := sound.locals (i, none) (by simp [locals])
  obtain ⟨mem', isSet, smarts, counts, deletes⟩ :=
    OpMemory.reset_counts sound.counts found (sound.usable held)
  have sound' := sound.setLocal locals (Scope.extra_eq idle ▸ counts) deletes smarts
    (sound.notFresh held)
  rw [← idle] at sound'
  exact ⟨mem', isSet, deletes, sound'⟩

end Locals

/-- The references of the operation that is processed change, and the objects do not. -/
theorem setBusy {n n' : Nat} {busy : Option (Nat × Nat)} (sound : Sound sc el)
    (wasBusy : sc.busy = some (a, n)) (isBusy : ∀ b k, busy = some (b, k) → b = a)
    (counts : mem'.Counts (Function.update sc.extra a n'))
    (sameExtra : Scope.extra ⟨sc.locals, sc.raws, busy, sc.here⟩ a = n')
    (deletes : el.mem.DeletesLast mem') (smarts : mem'.smarts = el.mem.smarts) :
    Sound { sc with busy := busy } { el with mem := mem' } := by
  have extra : Function.update sc.extra a n' = Scope.extra ⟨sc.locals, sc.raws, busy, sc.here⟩ := by
    funext b
    by_cases isSelf : b = a
    · subst isSelf
      rw [Function.update_self, sameExtra]
    · rw [Function.update_of_ne isSelf, Scope.extra_other wasBusy isSelf]
      cases entry : busy with
      | none => rfl
      | some entry =>
          exact (Scope.extra_other rfl fun same => isSelf (same.trans (isBusy _ _ entry))).symm
  rw [extra] at counts
  have gets : ∀ j, mem'.get j = el.mem.get j := fun j => by
    rw [OpMemory.get, OpMemory.get, smarts]
  have holders : ∀ b, mem'.holders b = el.mem.holders b := fun b => by
    rw [OpMemory.holders, OpMemory.holders, smarts]
  refine sound.memory counts deletes sound.distinct ?_ ?_ (List.Sublist.refl _) ?_ ?_ rfl
  · exact fun j _ _ found => (gets j).trans found
  · exact fun l member => (gets l.1).trans (sound.locals l member)
  · exact fun b isFresh => (holders b).trans (sound.fresh b isFresh).1
  · intro b k entry
    obtain rfl := isBusy b k entry
    obtain ⟨sole, i, member⟩ := sound.busy b n wasBusy
    exact ⟨(holders b).trans sole, i, member⟩

/-- The object of the operation that is processed gives up the reference that the operation has
made. -/
theorem releaseExtra {rest : List (Nat × Option Nat)} (sound : Sound sc el)
    (locals : sc.locals = (i, some a) :: rest) (busy : sc.busy = some (a, 1)) :
    ∃ mem', el.mem.release i = some (1, mem') ∧ el.mem.DeletesLast mem' ∧
      Sound { sc with busy := none } { el with mem := mem' } := by
  have found : el.mem.get i = some (some a) := sound.locals (i, some a) (by simp [locals])
  obtain ⟨sole, -⟩ := sound.busy a 1 busy
  obtain ⟨mem', released, smarts, counts, deletes⟩ :=
    OpMemory.release_counts_extra (n := 0) sound.counts found (Scope.extra_busy busy)
  rw [sole] at released
  exact ⟨mem', released, deletes, sound.setBusy busy nofun counts rfl deletes smarts⟩

/-- The operation that is processed makes a reference. -/
theorem increase (sound : Sound sc el) (busy : sc.busy = some (a, 0)) :
    ∃ n mem', el.mem.increase a = some (n, mem') ∧ el.mem.DeletesLast mem' ∧
      Sound { sc with busy := some (a, 1) } { el with mem := mem' } := by
  obtain ⟨-, j, member⟩ := sound.busy a 0 busy
  obtain ⟨o, live, -⟩ := sound.counts.held (sound.locals (j, some a) member)
  obtain ⟨mem', raised, smarts, counts, deletes⟩ := OpMemory.increase_counts sound.counts live
  rw [Scope.extra_busy busy] at counts
  refine ⟨_, mem', raised, deletes, sound.setBusy busy ?_ counts (Scope.extra_busy rfl) deletes
    smarts⟩
  intro b k isSelf
  exact (Prod.mk.inj (Option.some.inj isSelf)).1.symm

/-- Operations that are not held change places. -/
theorem raws {raws ops : List Nat} (sound : Sound sc el)
    (perm : (raws ++ ops).Perm (sc.raws ++ el.ops)) :
    Sound { sc with raws := raws } { el with ops := ops } :=
  ⟨sound.counts, sound.distinct, sound.nodes, sound.locals, perm.nodup_iff.mpr sound.once,
    fun a isFresh => sound.fresh a (perm.subset isFresh), sound.busy, sound.here⟩

/-- An operation is made. -/
theorem new (sound : Sound sc el) (data : OpData) :
    Sound { sc with raws := el.mem.ops.length :: sc.raws } { el with mem := el.mem.new data } := by
  apply (sound.asynAddOp data).raws
  rw [SmartLoop.asynAddOp, ← List.append_assoc]
  exact (List.perm_append_singleton _ _).symm

/-- The operation that is processed has made no reference of its own. -/
theorem calm (sound : Sound sc el) (busy : sc.busy = some (a, 0)) :
    Sound { sc with busy := none } el := by
  have counts := sound.counts
  rw [Scope.extra_eq busy, Scope.extra_calm] at counts
  refine ⟨counts, sound.distinct, sound.nodes, sound.locals, sound.once, sound.fresh, ?_,
    sound.here⟩
  intro b n isBusy
  cases isBusy

/-- A call queues some operations. -/
theorem enqueue (sound : Sound sc el) (datas : List OpData) :
    Sound sc (datas.foldl SmartLoop.asynAddOp el) := by
  induction datas generalizing el with
  | nil => exact sound
  | cons data datas ih => exact ih (sound.asynAddOp data)

end Sound

/-- Queueing operations deletes nothing. -/
theorem deletesLast_enqueue (el : SmartLoop) (datas : List OpData) :
    el.mem.DeletesLast (datas.foldl asynAddOp el).mem := by
  have shape : (datas.foldl asynAddOp el).mem =
      ⟨el.mem.ops ++ datas.map fun data => ⟨data, 0, 0⟩, el.mem.smarts⟩ := by
    induction datas generalizing el with
    | nil => simp
    | cons data datas ih =>
        rw [List.foldl_cons, ih, asynAddOp, OpMemory.new, List.append_assoc]
        rfl
  rw [shape]
  refine .append rfl rfl fun o isMade => ?_
  obtain ⟨data, -, rfl⟩ := List.mem_map.mp isMade
  rfl

/-! ## The containers -/

section Containers

variable {el : SmartLoop} {cid : Bytes} {conn conn' : SmartConn}

/-- The objects of a connection are among those of the timers. -/
theorem nodes_perm (found : el.findConn cid = some conn) :
    el.nodes.Perm (conn.timers.map TimerNode.smart ++ (el.removeConn cid).nodes) := by
  obtain ⟨entry, isEntry, rfl⟩ := Option.map_eq_some_iff.mp found
  exact (Containers.perm_of_find? isEntry).flatMap_right _

theorem nodes_setConn :
    (el.setConn cid conn').nodes =
      conn'.timers.map TimerNode.smart ++ (el.removeConn cid).nodes := rfl

theorem findConn_setConn : (el.setConn cid conn').findConn cid = some conn' := by
  rw [findConn, setConn, List.find?_cons_of_pos (by simp)]
  rfl

end Containers

namespace Sound

variable {sc sc' : Scope} {el el' : SmartLoop} {cid : Bytes} {con : CliConn}
  {timers timers' : List TimerNode}

/-- Objects change places. -/
theorem rearrange (sound : Sound sc el) (mem : el'.mem = el.mem) (ops : el'.ops = el.ops)
    (raws : sc'.raws = sc.raws) (busy : sc'.busy = sc.busy)
    (perm : (sc'.locals.map Prod.fst ++ el'.nodes).Perm (sc.locals.map Prod.fst ++ el.nodes))
    (locals : ∀ l ∈ sc'.locals, el.mem.get l.1 = some l.2)
    (kept : ∀ a n, sc.busy = some (a, n) → ∀ i, (i, some a) ∈ sc.locals →
      (i, some a) ∈ sc'.locals)
    (here : ∀ cid timers, sc'.here = some (cid, timers) →
      ∃ con, el'.findConn cid = some ⟨con, timers⟩) : Sound sc' el' := by
  refine ⟨?_, perm.nodup_iff.mpr sound.distinct, ?_, ?_, ?_, ?_, ?_, here⟩
  · rw [mem, Scope.extra_eq busy]
    exact sound.counts
  · intro i isNode
    rw [mem]
    exact sound.place (perm.subset (List.mem_append_right _ isNode))
  · rwa [mem]
  · rw [raws, ops]
    exact sound.once
  · rw [raws, ops, mem]
    exact sound.fresh
  · intro a n isBusy
    rw [busy] at isBusy
    rw [mem]
    obtain ⟨sole, i, member⟩ := sound.busy a n isBusy
    exact ⟨sole, i, kept a n isBusy i member⟩

/-- The local variables in another order. -/
theorem locals_perm {locals : List (Nat × Option Nat)} (sound : Sound sc el)
    (perm : locals.Perm sc.locals) : Sound { sc with locals := locals } el :=
  sound.rearrange rfl rfl rfl rfl ((perm.map _).append_right _)
    (fun l member => sound.locals l (perm.subset member))
    (fun _ _ _ _ member => perm.symm.subset member) sound.here

/-- Where a function comes from does not matter to it. -/
theorem leave (sound : Sound sc el) : Sound { sc with here := none } el :=
  sound.rearrange rfl rfl rfl rfl (List.Perm.refl _) sound.locals (fun _ _ _ _ => id)
    fun _ _ isHere => by cases isHere

/-- A connection is found. -/
theorem found (sound : Sound sc el) {conn : SmartConn} (isFound : el.findConn cid = some conn) :
    Sound { sc with here := some (cid, conn.timers) } el := by
  refine sound.rearrange rfl rfl rfl rfl (List.Perm.refl _) sound.locals (fun _ _ _ _ => id) ?_
  intro cid' timers' isHere
  obtain ⟨rfl, rfl⟩ := Prod.mk.inj (Option.some.inj isHere)
  exact ⟨conn.con, isFound⟩

/-- The timers stay the same when a connection changes otherwise. -/
theorem setCon (sound : Sound sc el) (isHere : sc.here = some (cid, timers)) (con : CliConn) :
    Sound sc (el.setConn cid ⟨con, timers⟩) := by
  obtain ⟨old, isFound⟩ := sound.here cid timers isHere
  refine sound.rearrange rfl rfl rfl rfl ?_ sound.locals (fun _ _ _ _ => id) ?_
  · exact (nodes_perm isFound).symm.append_left _
  · intro cid' timers' isHere'
    rw [isHere] at isHere'
    obtain ⟨rfl, rfl⟩ := Prod.mk.inj (Option.some.inj isHere')
    exact ⟨con, findConn_setConn⟩

/-- A connection is made. -/
theorem addConn (sound : Sound sc el) (cid : Bytes) (con : CliConn) :
    Sound { sc with here := some (cid, []) }
      { el with conns := (cid, ⟨con, []⟩) :: el.conns } := by
  refine sound.rearrange rfl rfl rfl rfl (List.Perm.refl _) sound.locals (fun _ _ _ _ => id) ?_
  intro cid' timers' isHere
  obtain ⟨rfl, rfl⟩ := Prod.mk.inj (Option.some.inj isHere)
  refine ⟨con, ?_⟩
  rw [findConn, List.find?_cons_of_pos (by simp)]
  rfl

/-- A timer is taken out of its connection, and its object is left over. -/
theorem detach {node : TimerNode} (sound : Sound sc el) (isHere : sc.here = some (cid, timers))
    (isTimer : node ∈ timers) (con : CliConn) :
    ∃ op, Sound { sc with
        locals := (node.smart, op) :: sc.locals
        here := some (cid, timers.eraseP fun other => other.smart = node.smart) }
      (el.setConn cid ⟨con, timers.eraseP fun other => other.smart = node.smart⟩) := by
  obtain ⟨old, isFound⟩ := sound.here cid timers isHere
  have inConn : node.smart ∈ timers.map TimerNode.smart := List.mem_map_of_mem isTimer
  obtain ⟨op, holds⟩ := sound.nodes node.smart
    ((nodes_perm isFound).symm.subset (List.mem_append_left _ inConn))
  have taken : (timers.map TimerNode.smart).Perm (node.smart ::
      (timers.eraseP fun other => other.smart = node.smart).map TimerNode.smart) := by
    cases first : timers.find? fun other => other.smart = node.smart with
    | none => exact absurd (decide_eq_true rfl) (List.find?_eq_none.mp first node isTimer)
    | some other =>
        have perm := (Containers.perm_of_find? first).map TimerNode.smart
        have same : other.smart = node.smart := by simpa using List.find?_some first
        rwa [List.map_cons, same] at perm
  refine ⟨op, sound.rearrange rfl rfl rfl rfl ?_ ?_ (fun _ _ _ _ => List.mem_cons_of_mem _) ?_⟩
  · have moved := ((nodes_perm isFound).trans (taken.append_right _)).append_left
      (sc.locals.map Prod.fst)
    exact (List.perm_middle.symm.trans moved.symm)
  · intro l member
    rcases List.mem_cons.mp member with rfl | old
    · exact holds
    · exact sound.locals l old
  · intro cid' timers' isHere'
    obtain ⟨rfl, rfl⟩ := Prod.mk.inj (Option.some.inj isHere')
    exact ⟨con, findConn_setConn⟩

/-- An object is put into a timer. -/
theorem attach {rest : List (Nat × Option Nat)} {i : Nat} {op : Option Nat}
    (sound : Sound sc el) (idle : sc.busy = none) (locals : sc.locals = (i, op) :: rest)
    (isHere : sc.here = some (cid, timers))
    (perm : (timers'.map TimerNode.smart).Perm (i :: timers.map TimerNode.smart))
    (con : CliConn) :
    Sound { sc with locals := rest, here := some (cid, timers') }
      (el.setConn cid ⟨con, timers'⟩) := by
  obtain ⟨old, isFound⟩ := sound.here cid timers isHere
  refine sound.rearrange rfl rfl rfl rfl ?_ ?_ ?_ ?_
  · rw [locals, nodes_setConn]
    have moved := (perm.append_right (el.removeConn cid).nodes).append_left (rest.map Prod.fst)
    exact moved.trans
      (List.perm_middle.trans (((nodes_perm isFound).symm.append_left (rest.map Prod.fst)).cons i))
  · exact fun l member => sound.locals l (by rw [locals]; exact List.mem_cons_of_mem _ member)
  · intro a n isBusy
    rw [idle] at isBusy
    cases isBusy
  · intro cid' timers'' isHere'
    obtain ⟨rfl, rfl⟩ := Prod.mk.inj (Option.some.inj isHere')
    exact ⟨con, findConn_setConn⟩

/-- A connection is taken out, and the objects of its timers are left over. -/
theorem removeConn (sound : Sound sc el) (isHere : sc.here = some (cid, timers)) :
    ∃ left : List (Nat × Option Nat), left.map Prod.fst = timers.map TimerNode.smart ∧
      Sound { sc with locals := left ++ sc.locals, here := none } (el.removeConn cid) := by
  obtain ⟨old, isFound⟩ := sound.here cid timers isHere
  have perm := nodes_perm isFound
  refine ⟨timers.map fun node => (node.smart, (el.mem.get node.smart).join), ?_, ?_⟩
  · rw [List.map_map]
    rfl
  · refine sound.rearrange rfl rfl rfl rfl ?_ ?_ (fun _ _ _ _ => List.mem_append_right _) ?_
    · rw [List.map_append, List.map_map]
      have moved := perm.append_left (sc.locals.map Prod.fst)
      rw [← List.append_assoc] at moved
      exact (List.perm_append_comm.append_right _).trans moved.symm
    · intro l member
      rcases List.mem_append.mp member with isLeft | old
      · obtain ⟨node, isTimer, rfl⟩ := List.mem_map.mp isLeft
        obtain ⟨op, holds⟩ := sound.nodes node.smart
          (perm.symm.subset (List.mem_append_left _ (List.mem_map_of_mem isTimer)))
        simp [holds]
      · exact sound.locals l old
    · intro cid' timers' isHere'
      cases isHere'

end Sound

end SmartLoop

end GPush.ClientSdk
