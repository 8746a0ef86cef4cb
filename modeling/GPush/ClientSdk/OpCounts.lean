import GPush.ClientSdk.References
import GPush.ConnectServer.MessageClasses

/-!
# The counts of the operations

What every function of the loop does to the objects that it works with.  From that the counts are
right after every action, whatever the users queue in between.
-/

namespace GPush.ClientSdk

open GPush.ConnectServer GPush.Transition

namespace SmartLoop

/-- A function runs safely in a scope. -/
abbrev Runs {β : Type} (sc : Scope) (p : Code β) (post : β → SmartLoop → Prop) : Prop :=
  p.Meets Users Keeps (Sound sc) post

variable {sc : Scope} {cid : Bytes} {timers : List TimerNode}

theorem stable (sc : Scope) : Program.Stable Users (Sound sc) := by
  rintro el el' sound ⟨data, rfl⟩
  exact sound.asynAddOp data

/-- The rule for an action. -/
theorem runs_action {β : Type} {pre : SmartLoop → Prop} {post : β → SmartLoop → Prop}
    {f : SmartLoop → Option (β × SmartLoop)} (stablePre : Program.Stable Users pre)
    (stablePost : ∀ b, Program.Stable Users (post b))
    (does : ∀ el, pre el → ∃ b el', f el = some (b, el') ∧ el.mem.DeletesLast el'.mem ∧
      (∃ sc', Sound sc' el') ∧ post b el') :
    Program.Meets Users Keeps pre (.action f) post := by
  apply Program.Meets.action stablePre stablePost
  intro el holds
  obtain ⟨b, el', done, deletes, sound, meets⟩ := does el holds
  exact ⟨b, el', done, ⟨deletes, sound⟩, meets⟩

/-- The rule for an action on the operations. -/
theorem runs_onMemory {β : Type} {pre : SmartLoop → Prop} {post : β → SmartLoop → Prop}
    {f : OpMemory → Option (β × OpMemory)} (stablePre : Program.Stable Users pre)
    (stablePost : ∀ b, Program.Stable Users (post b))
    (does : ∀ el, pre el → ∃ b mem', f el.mem = some (b, mem') ∧ el.mem.DeletesLast mem' ∧
      (∃ sc', Sound sc' { el with mem := mem' }) ∧ post b { el with mem := mem' }) :
    Program.Meets Users Keeps pre (onMemory f) post := by
  apply runs_action stablePre stablePost
  intro el holds
  obtain ⟨b, mem', done, deletes, sound, meets⟩ := does el holds
  exact ⟨b, { el with mem := mem' }, Option.map_eq_some_iff.mpr ⟨_, done, rfl⟩, deletes, sound,
    meets⟩

/-- Where the `SmartOp`s are that a function may use. -/
def Scope.Has (sc : Scope) (i : Nat) : Prop :=
  i ∈ sc.locals.map Prod.fst ∨
    ∃ cid timers, sc.here = some (cid, timers) ∧ i ∈ timers.map TimerNode.smart

theorem Sound.has {el : SmartLoop} {i : Nat} (sound : Sound sc el) (has : sc.Has i) :
    ∃ op, el.mem.get i = some op := by
  rcases has with isLocal | ⟨cid, timers, isHere, isTimer⟩
  · exact sound.place (List.mem_append_left _ isLocal)
  · obtain ⟨con, isFound⟩ := sound.here cid timers isHere
    exact sound.nodes i ((nodes_perm isFound).symm.subset (List.mem_append_left _ isTimer))

/-! ## Actions -/

theorem runs_smartOp {op : Option Nat} (idle : sc.busy = none)
    (held : ∀ a, op = some a → ∃ j, (j, some a) ∈ sc.locals) :
    Runs sc (smartOp op) fun i => Sound { sc with locals := (i, op) :: sc.locals } := by
  apply runs_onMemory (stable _) (fun _ => stable _)
  intro el sound
  obtain ⟨i, mem', made, deletes, sound'⟩ := sound.construct idle op fun a isOp =>
    (held a isOp).imp fun j member => sound.locals (j, some a) member
  exact ⟨i, mem', made, deletes, ⟨_, sound'⟩, sound'⟩

theorem runs_smartOp_first {a : Nat} {rest : List Nat} (idle : sc.busy = none)
    (raws : sc.raws = a :: rest) :
    Runs sc (smartOp (some a)) fun i =>
      Sound { sc with locals := (i, some a) :: sc.locals, raws := rest, busy := some (a, 0) } := by
  apply runs_onMemory (stable _) (fun _ => stable _)
  intro el sound
  obtain ⟨i, mem', made, deletes, sound'⟩ := sound.constructFirst idle raws
  exact ⟨i, mem', made, deletes, ⟨_, sound'⟩, sound'⟩

theorem runs_copyOf {oth : Nat} (idle : sc.busy = none) (has : sc.Has oth) :
    Runs sc (copyOf oth) fun i el => ∃ op, Sound { sc with locals := (i, op) :: sc.locals } el := by
  apply runs_onMemory (stable _) (fun _ => .ofExists fun _ => stable _)
  intro el sound
  obtain ⟨op, holds⟩ := sound.has has
  obtain ⟨i, mem', made, deletes, sound'⟩ := sound.construct idle op fun a isOp =>
    ⟨oth, isOp ▸ holds⟩
  exact ⟨i, mem', Option.bind_eq_some_iff.mpr ⟨op, holds, made⟩, deletes, ⟨_, sound'⟩, op, sound'⟩

theorem runs_destroy {i : Nat} {op : Option Nat} {rest : List (Nat × Option Nat)}
    (idle : sc.busy = none) (locals : sc.locals = (i, op) :: rest) :
    Runs sc (destroy i) fun _ => Sound { sc with locals := rest } := by
  apply runs_onMemory (stable _) (fun _ => stable _)
  intro el sound
  obtain ⟨mem', gone, deletes, sound'⟩ := sound.destroy locals fun a n isBusy => by
    rw [idle] at isBusy
    cases isBusy
  exact ⟨(), mem', Option.map_eq_some_iff.mpr ⟨_, gone, rfl⟩, deletes, ⟨_, sound'⟩, sound'⟩

theorem runs_release_last {i a : Nat} {rest : List (Nat × Option Nat)}
    (locals : sc.locals = (i, some a) :: rest) (busy : sc.busy = some (a, 0)) :
    Runs sc (release i) fun count el => count = 0 ∧
      Sound { sc with locals := (i, none) :: rest, busy := none } el := by
  apply runs_onMemory (stable _) (fun _ => (stable _).and)
  intro el sound
  obtain ⟨mem', isReleased, deletes, sound'⟩ := sound.releaseLast locals busy
  exact ⟨0, mem', isReleased, deletes, ⟨_, sound'⟩, rfl, sound'⟩

theorem runs_release_extra {i a : Nat} {rest : List (Nat × Option Nat)}
    (locals : sc.locals = (i, some a) :: rest) (busy : sc.busy = some (a, 1)) :
    Runs sc (release i) fun _ => Sound { sc with busy := none } := by
  apply runs_onMemory (stable _) (fun _ => stable _)
  intro el sound
  obtain ⟨mem', isReleased, deletes, sound'⟩ := sound.releaseExtra locals busy
  exact ⟨1, mem', isReleased, deletes, ⟨_, sound'⟩, sound'⟩

/-- What a `SmartOp` holds. -/
def Holding (sc : Scope) (i : Nat) (op : Option Nat) (el : SmartLoop) : Prop :=
  Sound sc el ∧ el.mem.get i = some op

theorem stable_holding (sc : Scope) (i : Nat) (op : Option Nat) :
    Program.Stable Users (Holding sc i op) := by
  rintro el el' ⟨sound, holds⟩ ⟨data, rfl⟩
  exact ⟨sound.asynAddOp data, holds⟩

theorem runs_get {i : Nat} (has : sc.Has i) : Runs sc (get i) fun op => Holding sc i op := by
  apply runs_onMemory (stable _) (fun _ => stable_holding _ _ _)
  intro el sound
  obtain ⟨op, holds⟩ := sound.has has
  exact ⟨op, el.mem, Option.map_eq_some_iff.mpr ⟨op, holds, rfl⟩, .refl _, ⟨sc, sound⟩, sound,
    holds⟩

theorem runs_reset {i j : Nat} {op : Option Nat} {rest : List (Nat × Option Nat)}
    (idle : sc.busy = none) (locals : sc.locals = (i, none) :: rest) :
    Program.Meets Users Keeps (Holding sc j op) (reset i op) fun _ =>
      Sound { sc with locals := (i, op) :: rest } := by
  apply runs_onMemory (stable_holding _ _ _) (fun _ => stable _)
  rintro el ⟨sound, holds⟩
  obtain ⟨mem', isSet, deletes, sound'⟩ := sound.reset idle locals op fun a isOp =>
    ⟨j, isOp ▸ holds⟩
  exact ⟨(), mem', Option.map_eq_some_iff.mpr ⟨_, isSet, rfl⟩, deletes, ⟨_, sound'⟩, sound'⟩

theorem runs_use {a j : Nat} (member : (j, some a) ∈ sc.locals) :
    Runs sc (use a) fun _ => Sound sc := by
  apply runs_onMemory (stable _) (fun _ => stable _)
  intro el sound
  obtain ⟨o, live, -⟩ := sound.counts.held (sound.locals (j, some a) member)
  exact ⟨o.data, el.mem, Option.map_eq_some_iff.mpr ⟨o, live, rfl⟩, .refl _, ⟨sc, sound⟩, sound⟩

theorem runs_useThrough {a i : Nat} (member : (i, some a) ∈ sc.locals) :
    Runs sc (useThrough i) fun _ => Sound sc := by
  apply runs_onMemory (stable _) (fun _ => stable _)
  intro el sound
  have holds := sound.locals (i, some a) member
  obtain ⟨o, live, -⟩ := sound.counts.held holds
  refine ⟨o.data, el.mem, ?_, .refl _, ⟨sc, sound⟩, sound⟩
  show (el.mem.get i).join.bind _ = _
  rw [holds]
  exact Option.map_eq_some_iff.mpr ⟨o, live, rfl⟩

theorem runs_useOf {i : Nat} (has : sc.Has i) : Runs sc (useOf i) fun _ => Sound sc := by
  apply runs_onMemory (stable _) (fun _ => stable _)
  intro el sound
  obtain ⟨op, holds⟩ := sound.has has
  cases op with
  | none =>
      exact ⟨none, el.mem, Option.bind_eq_some_iff.mpr ⟨none, holds, rfl⟩, .refl _, ⟨sc, sound⟩,
        sound⟩
  | some a =>
      obtain ⟨o, live, -⟩ := sound.counts.held holds
      exact ⟨some o.data, el.mem, Option.bind_eq_some_iff.mpr ⟨some a, holds,
        Option.map_eq_some_iff.mpr ⟨o, live, rfl⟩⟩, .refl _, ⟨sc, sound⟩, sound⟩

theorem runs_increase {a : Nat} (busy : sc.busy = some (a, 0)) :
    Runs sc (increase a) fun _ => Sound { sc with busy := some (a, 1) } := by
  apply runs_onMemory (stable _) (fun _ => stable _)
  intro el sound
  obtain ⟨n, mem', raised, deletes, sound'⟩ := sound.increase busy
  exact ⟨(), mem', Option.map_eq_some_iff.mpr ⟨_, raised, rfl⟩, deletes, ⟨_, sound'⟩, sound'⟩

theorem runs_new (data : OpData) :
    Runs sc (new data) fun a => Sound { sc with raws := a :: sc.raws } := by
  apply runs_onMemory (stable _) (fun _ => stable _)
  intro el sound
  have sound' := sound.new data
  refine ⟨_, _, rfl, ?_, ⟨_, sound'⟩, sound'⟩
  exact .append rfl rfl fun o isNew => by rw [List.mem_singleton.mp isNew]

theorem runs_take : Runs sc take fun op => Sound { sc with raws := op.toList ++ sc.raws } := by
  apply runs_action (stable _) (fun _ => stable _)
  intro el sound
  cases waiting : el.ops with
  | nil => exact ⟨none, el, rfl, .refl _, ⟨sc, sound⟩, sound⟩
  | cons a rest =>
      have perm : (a :: sc.raws ++ rest).Perm (sc.raws ++ el.ops) := by
        rw [waiting]
        exact List.perm_middle.symm
      have sound' := sound.raws perm
      exact ⟨some a, { el with ops := rest }, rfl, .refl _, ⟨_, sound'⟩, sound'⟩

theorem runs_find (cid : Bytes) :
    Runs sc (find cid) fun conn =>
      Sound { sc with here := conn.map fun conn => (cid, conn.timers) } := by
  apply runs_action (stable _) (fun _ => stable _)
  intro el sound
  have sound' :
      Sound { sc with here := (el.findConn cid).map fun conn => (cid, conn.timers) } el := by
    cases isFound : el.findConn cid with
    | none => exact sound.leave
    | some conn => exact sound.found isFound
  exact ⟨el.findConn cid, el, rfl, .refl _, ⟨_, sound'⟩, sound'⟩

theorem runs_fields (isHere : sc.here = some (cid, timers)) :
    Runs sc (fields cid) fun conn el => conn.timers = timers ∧ Sound sc el := by
  apply runs_action (stable _) (fun _ => (stable _).and)
  intro el sound
  obtain ⟨con, isFound⟩ := sound.here cid timers isHere
  exact ⟨⟨con, timers⟩, el, by rw [isFound]; rfl, .refl _, ⟨sc, sound⟩, rfl, sound⟩

theorem runs_call (isHere : sc.here = some (cid, timers)) (f : CliConn → Out) :
    Runs sc (call cid f) fun _ => Sound sc := by
  apply runs_action (stable _) (fun _ => stable _)
  intro el sound
  obtain ⟨con, isFound⟩ := sound.here cid timers isHere
  have sound' := (sound.setCon isHere (f con).con).enqueue (queued (f con).acts)
  refine ⟨(f con).ret, _, by rw [isFound]; rfl, ?_, ⟨sc, sound'⟩, sound'⟩
  exact deletesLast_enqueue (el.setConn cid ⟨(f con).con, timers⟩) (queued (f con).acts)

theorem runs_discard_call (isHere : sc.here = some (cid, timers)) (f : CliConn → Out) :
    Runs sc (discard (call cid f)) fun _ => Sound sc :=
  (runs_call isHere f).discard (stable sc) fun _ _ => id

theorem runs_insertTimer {entry : Nat} {op : Option Nat} (idle : sc.busy = none)
    (isHere : sc.here = some (cid, timers)) (member : (entry, op) ∈ sc.locals) (deadline : Int)
    (id : Bytes) :
    Runs sc (insertTimer cid deadline id entry) fun _ el =>
      ∃ timers', Sound { sc with here := some (cid, timers') } el := by
  apply runs_action (stable _) (fun _ => .ofExists fun _ => stable _)
  intro el sound
  obtain ⟨con, isFound⟩ := sound.here cid timers isHere
  by_cases isThere : (timers.any fun node => node.deadline = deadline) = true
  · have sound' := sound.found isFound
    refine ⟨(), el, ?_, .refl _, ⟨sc, sound⟩, timers, sound'⟩
    rw [isFound, Option.bind_some, if_pos isThere]
  · have holds := sound.locals (entry, op) member
    obtain ⟨i, mem', made, deletes, copied⟩ := sound.construct idle op fun a isOp =>
      ⟨entry, isOp ▸ holds⟩
    have perm := (List.perm_orderedInsert (fun node node' : TimerNode =>
      node.deadline ≤ node'.deadline) ⟨deadline, id, i⟩ timers).map TimerNode.smart
    have sound' := copied.attach idle rfl isHere perm con
    refine ⟨(), _, ?_, deletes, ⟨_, sound'⟩, _, sound'⟩
    rw [isFound, Option.bind_some, if_neg isThere, OpMemory.copy, holds, Option.bind_some, made]
    rfl

/-- Two objects that hold an operation count as two. -/
theorem two_le_holders {m : OpMemory} {a i j : Nat} (first : m.get i = some (some a))
    (second : m.get j = some (some a)) (distinct : j ≠ i) : 2 ≤ m.holders a := by
  have smarts : ({ m with smarts := m.smarts.set i none } : OpMemory).smarts =
      m.smarts.set i none := rfl
  have left := OpMemory.holders_set first smarts a
  have stays := OpMemory.holders_pos ((OpMemory.get_set_ne smarts distinct).trans second)
  rw [if_pos rfl, if_neg (Option.some_ne_none _).symm] at left
  omega

theorem runs_eraseTimer {node : TimerNode} (isHere : sc.here = some (cid, timers))
    (isTimer : node ∈ timers) :
    Runs sc (eraseTimer cid node.smart) fun _ => Sound { sc with
      here := some (cid, timers.eraseP fun other => other.smart = node.smart) } := by
  apply runs_action (stable _) (fun _ => stable _)
  intro el sound
  obtain ⟨con, isFound⟩ := sound.here cid timers isHere
  obtain ⟨op, detached⟩ := sound.detach isHere isTimer con
  have other : ∀ a n, sc.busy = some (a, n) → op ≠ some a := by
    rintro a n isBusy rfl
    obtain ⟨sole, i, member⟩ := sound.busy a n isBusy
    have distinct := detached.distinct
    rw [List.map_cons, List.cons_append, List.nodup_cons] at distinct
    have two := two_le_holders (detached.locals (node.smart, some a) List.mem_cons_self)
      (sound.locals (i, some a) member) fun same => distinct.1 <|
        List.mem_append_left _ (same ▸ List.mem_map_of_mem member)
    rw [show (el.setConn cid _).mem = el.mem from rfl, sole] at two
    exact absurd two (by decide)
  obtain ⟨mem', gone, deletes, sound'⟩ := detached.destroy rfl other
  refine ⟨(), { el.setConn cid ⟨con, timers.eraseP fun other => other.smart = node.smart⟩ with
    mem := mem' }, ?_, deletes, ⟨_, sound'⟩, sound'⟩
  rw [isFound, Option.bind_some, show el.mem.destroy node.smart = some mem' from gone]
  rfl

/-- The first timer of a connection. -/
theorem runs_eraseFirst {node : TimerNode} {rest : List TimerNode}
    (isHere : sc.here = some (cid, node :: rest)) :
    Runs sc (eraseTimer cid node.smart) fun _ => Sound { sc with here := some (cid, rest) } := by
  have isTimer : node ∈ node :: rest := List.mem_cons_self
  have erases := runs_eraseTimer isHere isTimer
  rwa [List.eraseP_cons_of_pos (by simp)] at erases

theorem runs_addConn (cid : Bytes) (con : CliConn) :
    Runs sc (addConn cid con) fun _ => Sound { sc with here := some (cid, []) } := by
  apply runs_action (stable _) (fun _ => stable _)
  intro el sound
  have sound' := sound.addConn cid con
  exact ⟨(), _, rfl, .refl _, ⟨_, sound'⟩, sound'⟩

theorem runs_eraseConn (isHere : sc.here = some (cid, timers)) :
    Runs sc (eraseConn cid) fun _ el => ∃ left : List (Nat × Option Nat),
      left.map Prod.fst = timers.map TimerNode.smart ∧
        Sound { sc with locals := left ++ sc.locals, here := none } el := by
  apply runs_action (stable _) (fun _ => .ofExists fun _ => (stable _).and)
  intro el sound
  obtain ⟨left, places, sound'⟩ := sound.removeConn isHere
  exact ⟨(), _, rfl, .refl _, ⟨_, sound'⟩, left, places, sound'⟩

/-! ## Vectors -/

/-- The `SmartOp`s of a vector stay in scope while users queue operations. -/
theorem stable_locals (sc : Scope) (ops : List Nat) (rest : List (Nat × Option Nat)) :
    Program.Stable Users fun el => ∃ held : List (Nat × Option Nat),
      held.map Prod.fst = ops ∧ Sound { sc with locals := held ++ rest } el :=
  .ofExists fun _ => (stable _).and

theorem runs_destroyAll (idle : sc.busy = none) {held rest : List (Nat × Option Nat)}
    (locals : sc.locals = held ++ rest) :
    Runs sc (destroyAll (held.map Prod.fst)) fun _ => Sound { sc with locals := rest } := by
  induction held generalizing sc with
  | nil =>
      subst locals
      exact .pure (stable _) fun _ sound => sound
  | cons first held ih => exact (runs_destroy idle locals).bind fun _ => ih idle rfl

theorem runs_copyAll (idle : sc.busy = none) {ops : List Nat}
    (members : ∀ i ∈ ops, i ∈ sc.locals.map Prod.fst) :
    Runs sc (copyAll ops) fun copies el => ∃ held : List (Nat × Option Nat),
      held.map Prod.fst = copies ∧ Sound { sc with locals := held ++ sc.locals } el := by
  induction ops generalizing sc with
  | nil => exact .pure (stable _) fun _ sound => ⟨[], rfl, sound⟩
  | cons i rest ih =>
      rw [List.forall_mem_cons] at members
      refine (runs_copyOf idle (.inl members.1)).bind fun copied => .ofExists fun op => ?_
      have members' : ∀ j ∈ rest, j ∈ ((copied, op) :: sc.locals).map Prod.fst := fun j member =>
        List.mem_cons_of_mem _ (members.2 j member)
      refine (ih (by exact idle) members').bind fun copies => ?_
      refine .pure (stable_locals _ _ _) ?_
      rintro el ⟨held, places, sound⟩
      refine ⟨(copied, op) :: held, by rw [List.map_cons, places], sound.locals_perm ?_⟩
      exact List.perm_middle.symm

theorem runs_pushBack (isFull : Nat → Bool) (idle : sc.busy = none)
    {held rest : List (Nat × Option Nat)} (locals : sc.locals = held ++ rest) {oth : Nat}
    (has : sc.Has oth) :
    Runs sc (pushBack isFull (held.map Prod.fst) oth) fun ops el =>
      ∃ held' : List (Nat × Option Nat),
        held'.map Prod.fst = ops ∧ Sound { sc with locals := held' ++ rest } el := by
  refine (runs_copyOf idle has).bind fun i => .ofExists fun op => ?_
  split_ifs
  · have members : ∀ j ∈ held.map Prod.fst, j ∈ ((i, op) :: sc.locals).map Prod.fst := by
      intro j member
      rw [locals, List.map_cons, List.map_append]
      exact List.mem_cons_of_mem _ (List.mem_append_left _ member)
    refine (runs_copyAll (by exact idle) members).bind fun copies => .ofExists fun copied => ?_
    refine .ofFact ?_
    rintro rfl
    have moved : (held ++ (copied ++ (i, op) :: rest)).Perm
        (copied ++ (i, op) :: sc.locals) := by
      rw [locals]
      exact (List.perm_append_comm_assoc held copied _).trans
        (List.perm_middle.append_left copied)
    have destroys : Runs { sc with locals := held ++ (copied ++ (i, op) :: rest) }
        (destroyAll (held.map Prod.fst)) fun _ =>
          Sound { sc with locals := copied ++ (i, op) :: rest } :=
      runs_destroyAll (by exact idle) rfl
    refine (destroys.strengthen fun _ sound => sound.locals_perm moved).bind
      fun _ => .pure (stable _) fun el sound => ?_
    refine ⟨copied ++ [(i, op)], by rw [List.map_append]; rfl, ?_⟩
    rwa [List.append_assoc]
  · refine .pure (stable _) fun el sound => ?_
    refine ⟨held ++ [(i, op)], by rw [List.map_append]; rfl, sound.locals_perm ?_⟩
    rw [locals, List.append_assoc]
    exact List.perm_middle

/-! ## Connections -/

theorem runs_destroyTimers (isHere : sc.here = some (cid, timers)) :
    Runs sc (destroyTimers cid timers) fun _ => Sound { sc with here := some (cid, []) } := by
  induction timers generalizing sc with
  | nil =>
      refine .pure (stable _) fun el sound => ?_
      rw [← isHere]
      exact sound
  | cons node rest ih => exact (runs_eraseFirst isHere).bind fun _ => ih rfl

theorem runs_delConn (cid : Bytes) :
    Runs sc (delConn cid) fun _ => Sound { sc with here := none } := by
  refine (runs_find cid).bind fun conn => ?_
  cases conn with
  | none => exact .pure (stable _) fun _ sound => sound
  | some conn =>
      refine (runs_destroyTimers rfl).bind fun _ => (runs_eraseConn rfl).bind fun _ => ?_
      refine .ofExists fun left => .ofFact fun places => .pure (stable _) fun el sound => ?_
      obtain rfl := List.map_eq_nil_iff.mp places
      exact sound

theorem runs_cancelTimers {nodes : List TimerNode} (isHere : sc.here = some (cid, timers))
    (members : ∀ node ∈ nodes, node ∈ timers) :
    Runs sc (cancelTimers nodes) fun _ => Sound sc := by
  induction nodes with
  | nil => exact .pure (stable _) fun _ sound => sound
  | cons node rest ih =>
      rw [List.forall_mem_cons] at members
      have has : sc.Has node.smart :=
        .inr ⟨cid, timers, isHere, List.mem_map_of_mem members.1⟩
      exact ((runs_useOf has).discard (stable _) fun _ _ => id).bind fun _ => ih members.2

theorem runs_onDisconnect (isHere : sc.here = some (cid, timers)) (net : Net) (code : Int) :
    Runs sc (onDisconnect cid net code) fun _ => Sound sc := by
  refine (runs_fields isHere).bind fun conn => .ofFact ?_
  rintro rfl
  refine (runs_cancelTimers isHere fun node => List.mem_reverse.mp).bind fun _ => ?_
  exact runs_call isHere _

theorem runs_discard_onDisconnect (isHere : sc.here = some (cid, timers)) (net : Net)
    (code : Int) : Runs sc (discard (onDisconnect cid net code)) fun _ => Sound sc :=
  (runs_onDisconnect isHere net code).discard (stable sc) fun _ _ => id

/-- The connection is still there, with other timers. -/
abbrev StillThere (sc : Scope) (cid : Bytes) (el : SmartLoop) : Prop :=
  ∃ timers, Sound { sc with here := some (cid, timers) } el

theorem Sound.stillThere {el : SmartLoop} (sound : Sound sc el)
    (isHere : sc.here = some (cid, timers)) : StillThere sc cid el := by
  refine ⟨timers, ?_⟩
  rw [← isHere]
  exact sound

theorem stable_stillThere (sc : Scope) (cid : Bytes) :
    Program.Stable Users (StillThere sc cid) := .ofExists fun _ => stable _

theorem runs_addTimer {sp j : Nat} (idle : sc.busy = none)
    (isHere : sc.here = some (cid, timers)) (member : (j, some sp) ∈ sc.locals) (net : Net)
    (id : Bytes) : Runs sc (addTimer cid net id sp) fun _ => StillThere sc cid := by
  refine (runs_use member).bind fun data => ?_
  refine (runs_smartOp idle fun a isOp => ⟨j, isOp ▸ member⟩).bind fun smart => ?_
  refine (runs_copyOf (by exact idle) (.inl List.mem_cons_self)).bind fun entry =>
    .ofExists fun op => ?_
  refine (runs_insertTimer (by exact idle) (by exact isHere) List.mem_cons_self _ _).bind
    fun _ => .ofExists fun timers' => ?_
  refine (runs_destroy (by exact idle) rfl).bind fun _ => ?_
  exact (runs_destroy (by exact idle) rfl).weaken fun _ _ sound => ⟨timers', sound⟩

theorem runs_popTimer {sp : Nat} {rest : List (Nat × Option Nat)} (idle : sc.busy = none)
    (locals : sc.locals = (sp, none) :: rest) (isHere : sc.here = some (cid, timers))
    (id : Bytes) :
    Runs sc (popTimer cid id sp) fun _ el =>
      ∃ op, StillThere { sc with locals := (sp, op) :: rest } cid el := by
  refine (runs_fields isHere).bind fun conn => .ofFact ?_
  rintro rfl
  cases isFound : conn.timers.reverse.find? fun node => node.id = id with
  | none =>
      refine .pure (stable _) fun el sound => ⟨none, conn.timers, ?_⟩
      rw [← locals, ← isHere]
      exact sound
  | some node =>
      have isTimer : node ∈ conn.timers := List.mem_reverse.mp (List.mem_of_find?_eq_some isFound)
      have has : sc.Has node.smart := .inr ⟨cid, _, isHere, List.mem_map_of_mem isTimer⟩
      refine (runs_get has).bind fun op => (runs_reset idle locals).bind fun _ => ?_
      refine (runs_eraseTimer (by exact isHere) isTimer).bind fun _ => ?_
      exact .pure (stable _) fun el sound => ⟨op, _, sound⟩

theorem runs_addKeepaliveTimer (idle : sc.busy = none) (isHere : sc.here = some (cid, timers))
    (net : Net) : Runs sc (addKeepaliveTimer cid net) fun _ => StillThere sc cid := by
  refine (runs_fields isHere).bind fun conn => .ofFact fun _ => ?_
  refine (runs_new _).bind fun keepalive => ?_
  have made : Runs { sc with raws := keepalive :: sc.raws } (smartOp (some keepalive)) fun op =>
      Sound { sc with locals := (op, some keepalive) :: sc.locals, busy := none } :=
    (runs_smartOp_first (by exact idle) rfl).weaken fun _ _ sound => sound.calm rfl
  refine made.bind fun op => (runs_use List.mem_cons_self).bind fun data => ?_
  refine (runs_addTimer rfl (by exact isHere) List.mem_cons_self net _).bind fun _ =>
    .ofExists fun timers' => ?_
  refine (runs_destroy rfl rfl).weaken fun _ el sound => ⟨timers', ?_⟩
  rw [idle]
  exact sound

theorem runs_keepalive (idle : sc.busy = none) (isHere : sc.here = some (cid, timers))
    (net : Net) : Runs sc (keepalive cid net) fun _ => StillThere sc cid := by
  refine (runs_fields isHere).bind fun conn => .ofFact fun _ => ?_
  split_ifs
  · refine (runs_discard_call isHere _).bind fun _ => ?_
    exact .pure (stable _) fun _ sound => sound.stillThere isHere
  · refine (runs_addKeepaliveTimer idle isHere net).bind fun _ => .ofExists fun timers' => ?_
    exact (runs_call rfl _).weaken fun _ el sound => ⟨timers', sound⟩

theorem runs_onTimeout (idle : sc.busy = none) (isHere : sc.here = some (cid, timers))
    (net : Net) (data : OpData) :
    Runs sc (onTimeout cid net data) fun _ => StillThere sc cid := by
  cases data with
  | login op =>
      exact (runs_discard_call isHere _).weaken fun _ _ sound => sound.stillThere isHere
  | keepalive cid' timeout =>
      exact (runs_keepalive idle isHere net).discard (stable_stillThere sc cid) fun _ _ => id
  | base sn cid' timeout => exact .pure (stable _) fun _ sound => sound.stillThere isHere
  | delConn cid' => exact .pure (stable _) fun _ sound => sound.stillThere isHere
  | disconnect cid' => exact .pure (stable _) fun _ sound => sound.stillThere isHere

theorem runs_onTimeoutOf {i : Nat} (idle : sc.busy = none)
    (isHere : sc.here = some (cid, timers)) (has : sc.Has i) (net : Net) :
    Runs sc (onTimeoutOf cid net i) fun _ => StillThere sc cid := by
  refine (runs_useOf has).bind fun data => ?_
  cases data with
  | some data => exact runs_onTimeout idle isHere net data
  | none =>
      exact .pure (stable _) fun _ sound => sound.stillThere isHere

theorem runs_onTimeouts {ops : List Nat} (idle : sc.busy = none)
    (isHere : sc.here = some (cid, timers)) (members : ∀ i ∈ ops, i ∈ sc.locals.map Prod.fst)
    (nets : Nat → Net) (n : Nat) :
    Runs sc (onTimeouts cid nets n ops) fun _ => StillThere sc cid := by
  induction ops generalizing timers sc n with
  | nil =>
      exact .pure (stable _) fun _ sound => sound.stillThere isHere
  | cons i rest ih =>
      rw [List.forall_mem_cons] at members
      refine (runs_onTimeoutOf idle isHere (.inl members.1) (nets n)).bind fun _ =>
        .ofExists fun timers' => ?_
      exact ih (by exact idle) (by rfl) (by exact members.2) (n + 1)

theorem runs_collect (isFull : Nat → Bool) {due rest : List TimerNode}
    {held others : List (Nat × Option Nat)} (idle : sc.busy = none)
    (isHere : sc.here = some (cid, due ++ rest)) (locals : sc.locals = held ++ others) :
    Runs sc (collect cid isFull due (held.map Prod.fst)) fun ops el =>
      ∃ held' : List (Nat × Option Nat), held'.map Prod.fst = ops ∧
        Sound { sc with locals := held' ++ others, here := some (cid, rest) } el := by
  induction due generalizing sc held with
  | nil =>
      refine .pure (stable _) fun el sound => ⟨held, rfl, ?_⟩
      rw [← locals]
      exact (congrArg (fun here => Sound { sc with here := here } el) isHere).mp sound
  | cons node due ih =>
      have has : sc.Has node.smart :=
        .inr ⟨cid, _, isHere, List.mem_map_of_mem List.mem_cons_self⟩
      refine (runs_pushBack isFull idle locals has).bind fun ops =>
        .ofExists fun held' => .ofFact ?_
      rintro rfl
      refine (runs_eraseFirst (by exact isHere)).bind fun _ => ?_
      exact ih (by exact idle) (by rfl) (by rfl)

theorem runs_processConn (idle : sc.busy = none) (isHere : sc.here = some (cid, timers))
    (now : Int) (isFull : Nat → Bool) (nets : Nat → Net) :
    Runs sc (processConn cid now isFull nets) fun _ => StillThere sc cid := by
  refine (runs_fields isHere).bind fun conn => .ofFact ?_
  rintro rfl
  have isHere' := isHere
  rw [← List.takeWhile_append_dropWhile (p := fun node : TimerNode => decide (node.deadline ≤ now))
    (l := conn.timers)] at isHere'
  have starts : sc.locals = [] ++ sc.locals := rfl
  refine (runs_collect isFull idle isHere' starts).bind fun ops =>
    .ofExists fun held => .ofFact ?_
  rintro rfl
  have members : ∀ i ∈ held.map Prod.fst, i ∈ (held ++ sc.locals).map Prod.fst := by
    intro i member
    rw [List.map_append]
    exact List.mem_append_left _ member
  refine (runs_onTimeouts (by exact idle) rfl members nets 0).bind fun _ =>
    .ofExists fun timers' => ?_
  exact (runs_destroyAll (by exact idle) rfl).weaken fun _ el sound => ⟨timers', sound⟩

theorem runs_processTimers (idle : sc.busy = none) (cid : Bytes) (now : Int)
    (isFull : Nat → Bool) (nets : Nat → Net) :
    Runs sc (processTimers cid now isFull nets) fun _ => Sound { sc with here := none } := by
  refine (runs_find cid).bind fun conn => ?_
  cases conn with
  | none => exact .pure (stable _) fun _ sound => sound
  | some conn =>
      dsimp only
      split_ifs
      · refine (runs_eraseConn rfl).bind fun _ => .ofExists fun left => .ofFact fun places => ?_
        rw [← places]
        exact runs_destroyAll (by exact idle) rfl
      · refine (runs_processConn (by exact idle) rfl now isFull nets).weaken fun _ el => ?_
        rintro ⟨timers, sound⟩
        exact sound.leave

/-! ## Messages -/

section Messages

variable (codec : PeerCodec)

theorem runs_answered (idle : sc.busy = none) (isHere : sc.here = some (cid, timers)) (net : Net)
    (resp : Option LoginResponse) :
    Runs sc (answered codec cid net resp) fun _ => StillThere sc cid := by
  cases resp with
  | none => exact .pure (stable _) fun _ sound => sound.stillThere isHere
  | some lgresp =>
      rw [answered]
      split_ifs
      · refine (runs_discard_call isHere _).bind fun _ => ?_
        exact runs_addKeepaliveTimer idle isHere net
      · exact (runs_discard_call isHere _).weaken fun _ _ sound => sound.stillThere isHere

theorem runs_handleLoginResponse (idle : sc.busy = none) (isHere : sc.here = some (cid, timers))
    (net : Net) (resp : Bytes) :
    Runs sc (handleLoginResponse codec cid net resp) fun _ => StillThere sc cid := by
  have none_held : ∀ a, (none : Option Nat) = some a → ∃ j, (j, some a) ∈ sc.locals := by
    intro a isSome
    cases isSome
  refine (runs_smartOp idle none_held).bind fun op => ?_
  have pops : Runs { sc with locals := (op, none) :: sc.locals } (discard (popTimer cid loginSn op))
      fun _ el => ∃ held, StillThere { sc with locals := (op, held) :: sc.locals } cid el :=
    (runs_popTimer (by exact idle) rfl (by exact isHere) loginSn).discard
      (.ofExists fun _ => stable_stillThere _ _) fun _ _ => id
  refine pops.bind fun _ => .ofExists fun held => .ofExists fun timers' => ?_
  refine (runs_answered codec (by exact idle) rfl net _).bind fun _ => .ofExists fun left => ?_
  exact (runs_destroy (by exact idle) rfl).weaken fun _ el sound => ⟨left, sound⟩

theorem runs_handlePacket (idle : sc.busy = none) (isHere : sc.here = some (cid, timers))
    (r : Received) : Runs sc (handlePacket codec cid r) fun _ => StillThere sc cid := by
  rw [handlePacket]
  split_ifs
  · exact runs_handleLoginResponse codec idle isHere r.net r.body
  · exact (runs_discard_call isHere _).weaken fun _ _ sound => sound.stillThere isHere
  · exact .pure (stable _) fun _ sound => sound.stillThere isHere

theorem runs_handlePackets {packets : List Received} (idle : sc.busy = none)
    (isHere : sc.here = some (cid, timers)) :
    Runs sc (handlePackets codec cid packets) fun _ => StillThere sc cid := by
  induction packets generalizing timers sc with
  | nil =>
      exact .pure (stable _) fun _ sound => sound.stillThere isHere
  | cons r rest ih =>
      refine (runs_handlePacket codec idle isHere r).bind fun _ => .ofExists fun timers' => ?_
      exact ih (by exact idle) (by rfl)

theorem runs_handleRead (idle : sc.busy = none) (isHere : sc.here = some (cid, timers))
    (net : Net) (received : Option (List Received)) :
    Runs sc (handleRead codec cid net received) fun _ => StillThere sc cid := by
  refine (runs_fields isHere).bind fun conn => .ofFact fun _ => ?_
  split_ifs
  · exact .pure (stable _) fun _ sound => sound.stillThere isHere
  · refine (runs_discard_call isHere _).bind fun _ => ?_
    cases received with
    | none => exact .pure (stable _) fun _ sound => sound.stillThere isHere
    | some packets =>
        refine (runs_handlePackets codec idle isHere).bind fun _ => ?_
        exact .pure (stable_stillThere _ _) fun _ => id

theorem runs_readConn (idle : sc.busy = none) (cid : Bytes) (net : Net)
    (received : Option (List Received)) :
    Runs sc (readConn codec cid net received) fun _ => Sound { sc with here := none } := by
  refine (runs_find cid).bind fun conn => ?_
  cases conn with
  | none => exact .pure (stable _) fun _ sound => sound
  | some conn =>
      refine (runs_handleRead codec (by exact idle) rfl net received).bind fun ret =>
        .ofExists fun timers => ?_
      split_ifs
      · exact (runs_discard_onDisconnect rfl net _).weaken fun _ _ sound => sound.leave
      · exact .pure (stable _) fun _ sound => sound.leave

/-! ## Operations -/

theorem runs_process {op : Nat} (busy : sc.busy = some (op, 0)) (net : Net) (data : OpData) :
    Runs sc (process codec net op data) fun _ el =>
      ∃ made : Bool, Sound { sc with busy := some (op, made.toNat), here := none } el := by
  have unmade : ∀ el, Sound { sc with here := none } el → ∃ made : Bool,
      Sound { sc with busy := some (op, made.toNat), here := none } el := by
    intro el sound
    refine ⟨false, ?_⟩
    rw [Bool.toNat_false, ← busy]
    exact sound
  have made : ∀ here el, Sound { sc with busy := some (op, 1), here := here } el →
      ∃ made : Bool, Sound { sc with busy := some (op, made.toNat), here := none } el :=
    fun _ _ sound => ⟨true, sound.leave⟩
  cases data with
  | base sn cid timeout => exact .pure (stable _) fun el sound => unmade el sound.leave
  | login login =>
      refine (runs_find login.cid).bind fun conn => ?_
      cases conn with
      | some conn => exact .pure (stable _) fun el sound => unmade el sound.leave
      | none =>
          refine (runs_addConn login.cid _).bind fun _ => (runs_call rfl _).bind fun ret => ?_
          split_ifs
          · refine (runs_increase (by exact busy)).bind fun _ => ?_
            exact .pure (stable _) (made _)
          · exact .pure (stable _) fun el sound => unmade el sound.leave
  | keepalive cid timeout =>
      refine (runs_find cid).bind fun conn => ?_
      cases conn with
      | some conn =>
          refine (runs_increase (by exact busy)).bind fun _ => ?_
          exact .pure (stable _) (made _)
      | none => exact .pure (stable _) fun el sound => unmade el sound.leave
  | delConn cid => exact (runs_delConn cid).weaken fun _ => unmade
  | disconnect cid =>
      refine (runs_find cid).bind fun conn => ?_
      cases conn with
      | some conn =>
          refine (runs_discard_onDisconnect rfl net 0).bind fun _ => ?_
          exact .pure (stable _) fun el sound => unmade el sound.leave
      | none => exact .pure (stable _) fun el sound => unmade el sound.leave

theorem runs_addWaiting {op sp : Nat} (idle : sc.busy = none)
    (member : (sp, some op) ∈ sc.locals) (net : Net) (cid : Bytes) :
    Runs sc (addWaiting net op cid) fun _ => Sound { sc with here := none } := by
  refine (runs_find cid).bind fun conn => ?_
  cases conn with
  | none => exact .pure (stable _) fun _ sound => sound
  | some conn =>
      refine (runs_use (by exact member)).bind fun data => ?_
      refine (runs_addTimer (by exact idle) rfl (by exact member) net _).weaken fun _ el => ?_
      rintro ⟨timers, sound⟩
      exact sound.leave

/-- An operation that waits. -/
theorem runs_released {op sp : Nat} (idle : sc.busy = none)
    (member : (sp, some op) ∈ sc.locals) (net : Net) (count : Int) :
    Runs sc (released net op sp count) fun _ => Sound { sc with here := none } := by
  have has : sc.Has sp := .inl (List.mem_map.mpr ⟨(sp, some op), member, rfl⟩)
  refine ((runs_get has).weaken fun _ _ holding => holding.1).bind fun held => ?_
  split_ifs
  · refine (runs_useThrough member).bind fun data => ?_
    exact runs_addWaiting idle member net _
  · exact .pure (stable _) fun _ sound => sound.leave

/-- An operation that has been deleted. -/
theorem runs_released_last {op sp : Nat} (has : sc.Has sp) (net : Net) :
    Runs sc (released net op sp 0) fun _ => Sound { sc with here := none } := by
  refine ((runs_get has).weaken fun _ _ holding => holding.1).bind fun held => ?_
  rw [if_neg fun both => absurd both.1 (Int.lt_irrefl 0)]
  exact .pure (stable _) fun _ sound => sound.leave

theorem runs_processOp (idle : sc.busy = none) (net : Net) :
    Runs sc (processOp codec net) fun _ => Sound { sc with here := none } := by
  refine runs_take.bind fun op => ?_
  cases op with
  | none => exact .pure (stable _) fun _ sound => sound.leave
  | some op =>
      refine (runs_smartOp_first (by exact idle) rfl).bind fun sp => ?_
      refine (runs_useThrough List.mem_cons_self).bind fun data => ?_
      have processes : Runs { sc with locals := (sp, some op) :: sc.locals, busy := some (op, 0) }
          (discard (process codec net op data)) fun _ el => ∃ made : Bool, Sound { sc with
            locals := (sp, some op) :: sc.locals, busy := some (op, made.toNat), here := none } el :=
        (runs_process codec rfl net data).discard (.ofExists fun _ => stable _) fun _ _ => id
      refine processes.bind fun _ => .ofExists fun made => ?_
      cases made with
      | true =>
          refine (runs_release_extra rfl rfl).bind fun count => ?_
          refine (runs_released rfl List.mem_cons_self net count).bind fun _ => ?_
          refine (runs_destroy rfl rfl).weaken fun _ el sound => ?_
          rw [idle]
          exact sound
      | false =>
          refine (runs_release_last rfl rfl).bind fun count => .ofFact ?_
          rintro rfl
          refine (runs_released_last (.inl List.mem_cons_self) net).bind fun _ => ?_
          refine (runs_destroy rfl rfl).weaken fun _ el sound => ?_
          rw [idle]
          exact sound

/-- Every task. -/
theorem runs_programs (task : Task) :
    Runs .outside (programs codec task) fun _ => Sound .outside := by
  cases task with
  | op net => exact runs_processOp codec rfl net
  | timers cid now isFull nets => exact runs_processTimers rfl cid now isFull nets
  | read cid net received => exact runs_readConn codec rfl cid net received
  | delConn cid => exact (runs_delConn cid).discard (stable _) fun _ _ => id

end Messages

/-! ## Runs -/

theorem sound_init : Sound .outside init := by
  refine ⟨⟨?_, ?_, ?_⟩, List.nodup_nil, ?_, ?_, List.nodup_nil, ?_, ?_, ?_⟩
  · intro a held
    exact absurd held (Nat.lt_irrefl 0)
  · intro a o isObject
    cases isObject
  · intro a o isObject
    cases isObject
  · exact fun i isNode => absurd isNode List.not_mem_nil
  · exact fun l isLocal => absurd isLocal List.not_mem_nil
  · exact fun a isFresh => absurd isFresh List.not_mem_nil
  · intro a n isBusy
    cases isBusy
  · intro cid timers isHere
    cases isHere

/-- In every state of every run the counts are right, whatever the loop does and the users
queue. -/
theorem counts_right {codec : PeerCodec} {m : Machine SmartLoop}
    (reachable : Reachable (Step codec) start m) : Right codec m := by
  have machine := Machine.sound_of_reachable (stable _) (runs_programs codec) sound_init reachable
  have isSound : ∃ sc, Sound sc m.shared :=
    Machine.good_of_reachable (stable _) (runs_programs codec) sound_init ⟨_, sound_init⟩
      (.ofExists stable) (fun _ _ kept => kept.2) reachable
  obtain ⟨sc, sound⟩ := isSound
  refine ⟨machine.works, sound.counts.exact, fun e m' taken => ?_⟩
  rcases machine.changes taken with same | ⟨data, queued⟩ | kept
  · rw [same]
    exact .refl _
  · rw [queued]
    exact deletesLast_enqueue m.shared [data]
  · exact kept.1

/-! ## A login that is not answered -/

/-- The login of the connection 99. -/
def someLogin : LoginOp := ⟨[99], [49], 9000, [118], 300⟩

/-- A network that works. -/
def someNet : Net := ⟨0, fun _ => true, 26, []⟩

/-- The operation waits for ten seconds, and is deleted when its timer has been processed. -/
theorem counts_right_timeout :
    ∃ m, Reachable (Step gimCodec) start m ∧ m.shared.mem.ops.map OpObject.deletes = [1, 0] ∧
      Right gimCodec m := by
  have queued : Step gimCodec start .env ⟨init.asynAddOp (.login someLogin), .ret (), false⟩ :=
    .env ⟨_, rfl⟩
  have played : (((programs gimCodec (.op someNet)).run (init.asynAddOp (.login someLogin))).bind
      fun r => (programs gimCodec (.timers [99] 10000000 (fun _ => true) fun _ => someNet)).run
        r.2).map (fun r => r.2.mem.ops.map OpObject.deletes) = some [1, 0] := by
    decide +kernel
  obtain ⟨⟨⟨⟩, el'⟩, both, deleted⟩ := Option.map_eq_some_iff.mp played
  obtain ⟨⟨⟨⟩, el⟩, first, second⟩ := Option.bind_eq_some_iff.mp both
  obtain ⟨events, run⟩ := Machine.reachable_of_task Users first
  obtain ⟨events', run'⟩ := Machine.reachable_of_task Users second
  have reached : Reachable (Step gimCodec) start ⟨el', .ret (), false⟩ :=
    ⟨_, Run.cons trivial queued (run.trans run')⟩
  exact ⟨_, reached, deleted, counts_right reached⟩

end SmartLoop

end GPush.ClientSdk
