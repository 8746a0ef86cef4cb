import GPush.ClientSdk.Shown

/-!
# The actions of a loop that shows what it has

What every action does to what a loop shows, where no user comes in between.  A `SmartOp` that
belongs to no timer is not shown, and the operation of a timer is what its `SmartOp` holds.
-/

namespace GPush.ClientSdk

open GPush.ConnectServer GPush.Transition

namespace SmartLoop

/-- What a function does to a loop that shows what it has. -/
abbrev Mirrors {β : Type} (sc : Scope) (v : Shown) (p : Code β) (post : β → SmartLoop → Prop) :
    Prop := p.Yields (Shows sc v) post

variable {sc : Scope} {v : Shown} {cid : Bytes} {timers : List TimerNode} {c : CliConn}

/-- What is sound after a function, and what it shows. -/
theorem mirrors {β : Type} {p : Code β} {post viewed : β → SmartLoop → Prop}
    (runs : Runs sc p post) (views : p.Yields (Shows sc v) viewed) :
    Mirrors sc v p fun b el => post b el ∧ viewed b el :=
  ((Program.Yields.ofMeets runs).strengthen fun _ shows => shows.sound).both views

/-- The rule for a function after which the loop shows what it has. -/
theorem mirrors_shows {β : Type} {p : Code β} {scopes : β → Scope} {shown : β → Shown}
    (runs : Runs sc p fun b => Sound (scopes b))
    (views : p.Yields (Shows sc v) fun b => View (shown b)) :
    Mirrors sc v p fun b => Shows (scopes b) (shown b) :=
  (mirrors runs views).weaken fun _ _ both => ⟨both.1, both.2⟩

/-- A result that is not used. -/
theorem mirrors_discard {β : Type} {p : Code β} {fact : β → Prop} {post : SmartLoop → Prop}
    (gives : Mirrors sc v p fun b el => fact b ∧ post el) :
    Mirrors sc v (discard p) fun _ => post := gives.discard fun _ _ both => both.2

/-! ## Actions -/

/-- The rule for an action on the operations. -/
theorem views_onMemory {β : Type} {f : OpMemory → Option (β × OpMemory)}
    {viewed : β → SmartLoop → Prop}
    (does : ∀ el b mem', Shows sc v el → f el.mem = some (b, mem') →
      viewed b { el with mem := mem' }) : (onMemory f).Yields (Shows sc v) viewed := by
  apply Program.Yields.action
  intro el b el' shows done
  obtain ⟨⟨b', mem'⟩, isDone, eq⟩ := Option.map_eq_some_iff.mp done
  cases eq
  exact does el b mem' shows isDone

/-- The rule for an action that only reads. -/
theorem mirrors_reads {β : Type} {f : OpMemory → Option β} {fact : β → Prop}
    (gives : ∀ el b, Shows sc v el → f el.mem = some b → fact b) :
    Mirrors sc v (onMemory fun m => (f m).map fun b => (b, m)) fun b el =>
      fact b ∧ Shows sc v el := by
  apply views_onMemory
  intro el b mem' shows done
  obtain ⟨b', isRead, eq⟩ := Option.map_eq_some_iff.mp done
  cases eq
  exact ⟨gives el b shows isRead, shows⟩

/-- The nodes stand for the timers that are shown. -/
theorem Shows.allStand {el : SmartLoop} (shows : Shows sc v el)
    (isHere : sc.here = some (cid, timers)) (isConn : v.conns cid = some c) :
    List.Forall₂ (Stands el.mem) timers c.timers := by
  obtain ⟨con, isFound⟩ := shows.sound.here cid timers isHere
  obtain ⟨conn, isFound', like⟩ := shows.view.found isConn
  cases isFound.symm.trans isFound'
  exact like.timers

/-- The first local variable. -/
theorem first_isLocal {i : Nat} {op : Option Nat} {rest : List (Nat × Option Nat)}
    (locals : sc.locals = (i, op) :: rest) : i ∈ sc.locals.map Prod.fst := by
  rw [locals]
  exact List.mem_cons_self

/-- A local variable belongs to no timer. -/
theorem Sound.notNode {el : SmartLoop} {i : Nat} (sound : Sound sc el)
    (isLocal : i ∈ sc.locals.map Prod.fst) : i ∉ el.nodes := fun isNode =>
  (List.disjoint_of_nodup_append sound.distinct) isLocal isNode

/-- A new `SmartOp` is not shown. -/
theorem mirrors_smartOp {op : Option Nat} (idle : sc.busy = none)
    (held : ∀ a, op = some a → ∃ j, (j, some a) ∈ sc.locals) :
    Mirrors sc v (smartOp op) fun i => Shows { sc with locals := (i, op) :: sc.locals } v := by
  have views : (smartOp op).Yields (Shows sc v) fun _ => View v :=
    views_onMemory fun el i mem' shows made =>
      shows.view.pushes (OpMemory.construct_writes made).2
  exact mirrors_shows (runs_smartOp idle held) views

theorem mirrors_smartOp_first {a : Nat} {rest : List Nat} (idle : sc.busy = none)
    (raws : sc.raws = a :: rest) :
    Mirrors sc v (smartOp (some a)) fun i =>
      Shows { sc with locals := (i, some a) :: sc.locals, raws := rest, busy := some (a, 0) }
        v := by
  have views : (smartOp (some a)).Yields (Shows sc v) fun _ => View v :=
    views_onMemory fun el i mem' shows made =>
      shows.view.pushes (OpMemory.construct_writes made).2
  exact mirrors_shows (runs_smartOp_first idle raws) views

/-- A copy holds what the other object holds. -/
theorem mirrors_copyOf {oth : Nat} {op : Option Nat} (idle : sc.busy = none) :
    (copyOf oth).Yields (fun el => Shows sc v el ∧ el.mem.get oth = some op) fun i =>
      Shows { sc with locals := (i, op) :: sc.locals } v := by
  apply Program.Yields.action
  rintro el i el' ⟨shows, holds⟩ done
  obtain ⟨⟨i', mem'⟩, copied, eq⟩ := Option.map_eq_some_iff.mp done
  cases eq
  change (el.mem.get oth).bind el.mem.construct = _ at copied
  rw [holds, Option.bind_some] at copied
  obtain ⟨i', mem'', made, -, sound⟩ := shows.sound.construct idle op fun a isOp =>
    ⟨oth, isOp ▸ holds⟩
  rw [copied] at made
  cases made
  exact ⟨sound, shows.view.pushes (OpMemory.construct_writes copied).2⟩

theorem mirrors_copyOf_local {oth : Nat} {op : Option Nat} (idle : sc.busy = none)
    (member : (oth, op) ∈ sc.locals) :
    Mirrors sc v (copyOf oth) fun i => Shows { sc with locals := (i, op) :: sc.locals } v :=
  (mirrors_copyOf idle).strengthen fun _ shows => ⟨shows, shows.sound.locals (oth, op) member⟩

theorem mirrors_destroy {i : Nat} {op : Option Nat} {rest : List (Nat × Option Nat)}
    (idle : sc.busy = none) (locals : sc.locals = (i, op) :: rest) :
    Mirrors sc v (destroy i) fun _ => Shows { sc with locals := rest } v := by
  have views : (destroy i).Yields (Shows sc v) fun _ => View v := by
    apply views_onMemory
    intro el b mem' shows done
    obtain ⟨mem'', gone, eq⟩ := Option.map_eq_some_iff.mp done
    cases eq
    exact shows.view.writes (OpMemory.destroy_writes gone)
      (shows.sound.notNode (first_isLocal locals))
  exact mirrors_shows (runs_destroy idle locals) views

/-- A `release` of a local variable. -/
theorem views_release {i : Nat} (isLocal : i ∈ sc.locals.map Prod.fst) :
    (release i).Yields (Shows sc v) fun _ => View v := by
  apply views_onMemory
  intro el count mem' shows released
  obtain ⟨smarts, writes, rfl | rfl⟩ := OpMemory.release_writes released
  · apply shows.view.memory
    · intro a d isData
      rwa [writes.data]
    · intro j _ op holds
      rwa [OpMemory.get, writes.smarts]
  · exact shows.view.writes writes (shows.sound.notNode isLocal)

theorem mirrors_get {i : Nat} {op : Option Nat} (member : (i, op) ∈ sc.locals) :
    Mirrors sc v (get i) fun held el => held = op ∧ Shows sc v el := by
  refine mirrors_reads fun el held shows isGot => ?_
  have holds := shows.sound.locals (i, op) member
  rw [holds] at isGot
  exact (Option.some.inj isGot).symm

/-- A local variable is set to what another object holds. -/
theorem mirrors_reset {i j : Nat} {op : Option Nat} {rest : List (Nat × Option Nat)}
    (idle : sc.busy = none) (locals : sc.locals = (i, none) :: rest) :
    (reset i op).Yields (fun el => Holding sc j op el ∧ View v el) fun _ =>
      Shows { sc with locals := (i, op) :: rest } v := by
  have views : (reset i op).Yields (fun el => Holding sc j op el ∧ View v el) fun _ => View v := by
    apply Program.Yields.action
    rintro el b el' ⟨⟨sound, -⟩, view⟩ done
    obtain ⟨⟨b', mem'⟩, done', eq⟩ := Option.map_eq_some_iff.mp done
    cases eq
    obtain ⟨mem'', isSet, eq⟩ := Option.map_eq_some_iff.mp done'
    cases eq
    exact view.writes (OpMemory.reset_writes isSet) (sound.notNode (first_isLocal locals))
  have sounds := (Program.Yields.ofMeets (runs_reset (j := j) idle locals)).strengthen
    fun el (holds : Holding sc j op el ∧ View v el) => holds.1
  exact (sounds.both views).weaken fun _ _ both => ⟨both.1, both.2⟩

/-- The data of an operation that is known. -/
theorem View.data_of_deref {el : SmartLoop} {a : Nat} {data : OpData} {o : OpObject}
    (view : View v el) (isKnown : (a, data) ∈ v.known) (found : el.mem.deref a = some o) :
    o.data = data := by
  have isData := view.known _ isKnown
  rw [OpMemory.dataAt_of_deref found] at isData
  exact Option.some.inj isData

theorem mirrors_use {a : Nat} {data : OpData} (isKnown : (a, data) ∈ v.known) :
    Mirrors sc v (use a) fun d el => d = data ∧ Shows sc v el := by
  have reads : Mirrors sc v (onMemory fun m => ((m.deref a).map OpObject.data).map fun b => (b, m))
      fun d el => d = data ∧ Shows sc v el := by
    refine mirrors_reads fun el d shows isUsed => ?_
    obtain ⟨o, found, rfl⟩ := Option.map_eq_some_iff.mp isUsed
    exact shows.view.data_of_deref isKnown found
  simp only [Option.map_map] at reads
  exact reads

theorem mirrors_useThrough {i a : Nat} {data : OpData} (member : (i, some a) ∈ sc.locals)
    (isKnown : (a, data) ∈ v.known) :
    Mirrors sc v (useThrough i) fun d el => d = data ∧ Shows sc v el := by
  apply views_onMemory
  intro el d mem' shows done
  rw [shows.sound.locals (i, some a) member] at done
  obtain ⟨o, found, eq⟩ := Option.map_eq_some_iff.mp done
  cases eq
  exact ⟨shows.view.data_of_deref isKnown found, shows⟩

theorem mirrors_useOf {i a : Nat} {data : OpData} (member : (i, some a) ∈ sc.locals)
    (isKnown : (a, data) ∈ v.known) :
    Mirrors sc v (useOf i) fun d el => d = some data ∧ Shows sc v el := by
  apply views_onMemory
  intro el d mem' shows done
  rw [shows.sound.locals (i, some a) member] at done
  obtain ⟨o, found, eq⟩ := Option.map_eq_some_iff.mp done
  cases eq
  exact ⟨congrArg some (shows.view.data_of_deref isKnown found), shows⟩

/-- A use of what a `SmartOp` holds, whose result is not used. -/
theorem views_useOf (i : Nat) : (useOf i).Yields (Shows sc v) fun _ => View v := by
  apply views_onMemory
  intro el d mem' shows done
  obtain ⟨op, -, uses⟩ := Option.bind_eq_some_iff.mp done
  cases op with
  | none =>
      cases uses
      exact shows.view
  | some a =>
      obtain ⟨o, -, eq⟩ := Option.map_eq_some_iff.mp uses
      cases eq
      exact shows.view

theorem mirrors_increase {a : Nat} (busy : sc.busy = some (a, 0)) :
    Mirrors sc v (increase a) fun _ => Shows { sc with busy := some (a, 1) } v := by
  have views : (increase a).Yields (Shows sc v) fun _ => View v := by
    apply views_onMemory
    intro el b mem' shows done
    obtain ⟨⟨n, mem''⟩, raised, eq⟩ := Option.map_eq_some_iff.mp done
    cases eq
    have writes := OpMemory.increase_writes raised
    apply shows.view.memory
    · intro d data isData
      rwa [writes.data]
    · intro j _ op holds
      rwa [OpMemory.get, writes.smarts]
  exact mirrors_shows (runs_increase busy) views

theorem mirrors_new (data : OpData) :
    Mirrors sc v (new data) fun a => Shows { sc with raws := a :: sc.raws } (v.know a data) := by
  have views : (new data).Yields (Shows sc v) fun a => View (v.know a data) := by
    apply views_onMemory
    intro el a mem' shows made
    cases made
    have grown : View v { el with mem := el.mem.new data } :=
      shows.view.memory (fun _ _ => OpMemory.dataAt_new_old) fun _ _ _ => id
    exact grown.know OpMemory.dataAt_new
  exact mirrors_shows (runs_new data) views

/-- The oldest operation is taken. -/
theorem mirrors_take {op : Op} {rest : List Op} (waiting : v.ops = op :: rest) :
    Mirrors sc v take fun taken el => ∃ a, taken = some a ∧
      Shows { sc with raws := a :: sc.raws }
        { v with ops := rest, known := (a, op.data) :: v.known } el := by
  have views : take.Yields (Shows sc v) fun taken el => ∃ a, taken = some a ∧
      View { v with ops := rest, known := (a, op.data) :: v.known } el := by
    apply Program.Yields.action
    intro el taken el' shows done
    obtain ⟨conns, ops, known, keys⟩ := shows.view
    rw [waiting] at ops
    cases isOps : el.ops with
    | nil =>
        rw [isOps] at ops
        cases ops
    | cons a later =>
        rw [isOps] at ops done
        cases done
        obtain ⟨isData, others⟩ := List.forall₂_cons.mp ops
        exact ⟨a, rfl, conns, others, List.forall_mem_cons.mpr ⟨isData, known⟩, keys⟩
  refine (mirrors runs_take views).weaken ?_
  rintro _ el ⟨sound, a, rfl, view⟩
  exact ⟨a, rfl, sound, view⟩

/-- `findConn` of a connection that is shown. -/
theorem mirrors_find (isConn : v.conns cid = some c) :
    Mirrors sc v (find cid) fun found el => ∃ conn ts, found = some conn ∧
      conn.con = c.setTimers ts ∧ Shows { sc with here := some (cid, conn.timers) } v el := by
  apply Program.Yields.action
  intro el found el' shows done
  cases done
  obtain ⟨conn, isFound, like⟩ := shows.view.found isConn
  obtain ⟨ts, fields⟩ := like.fields
  exact ⟨conn, ts, isFound, fields, shows.sound.found isFound, shows.view⟩

theorem mirrors_find_none (isGone : v.conns cid = none) :
    Mirrors sc v (find cid) fun found el => found = none ∧ Shows { sc with here := none } v el := by
  apply Program.Yields.action
  intro el found el' shows done
  cases done
  exact ⟨shows.view.missing isGone, shows.sound.leave, shows.view⟩

theorem mirrors_fields (isHere : sc.here = some (cid, timers)) (isConn : v.conns cid = some c) :
    Mirrors sc v (fields cid) fun conn el => (conn.timers = timers ∧
      ∃ ts, conn.con = c.setTimers ts) ∧ Shows sc v el := by
  apply Program.Yields.action
  intro el conn el' shows done
  obtain ⟨con, isFound⟩ := shows.sound.here cid timers isHere
  obtain ⟨conn', isFound', like⟩ := shows.view.found isConn
  rw [isFound] at isFound' done
  cases isFound'
  cases done
  exact ⟨⟨rfl, like.fields⟩, shows⟩

/-- A member function that does not touch the timers. -/
theorem mirrors_call (isHere : sc.here = some (cid, timers)) (isConn : v.conns cid = some c)
    {f : CliConn → Out} (blind : Blind f) :
    Mirrors sc v (call cid f) fun ret el => ret = (f c).ret ∧ Shows sc (v.after cid (f c)) el := by
  have views : (call cid f).Yields (Shows sc v) fun ret el => ret = (f c).ret ∧
      View (v.after cid (f c)) el := by
    apply Program.Yields.action
    intro el ret el' shows done
    obtain ⟨conn, isFound, like⟩ := shows.view.found isConn
    rw [isFound] at done
    cases done
    obtain ⟨ts, fields⟩ := like.fields
    have same : f conn.con = (f c).setTimers ts := by
      rw [fields, blind]
    have like' : Like el.mem { conn with con := (f conn.con).con } (f c).con := by
      refine ⟨⟨ts, by rw [same]; rfl⟩, ?_, ?_⟩
      · rw [blind.timers]
        exact like.timers
      · rw [blind.timers]
        exact like.sorted
    have view := shows.view.after cid like'
    refine ⟨by rw [same]; rfl, ?_⟩
    rw [same] at view ⊢
    exact view
  exact (mirrors (runs_call isHere f) views).weaken fun _ _ both => ⟨both.2.1, both.1, both.2.2⟩

/-- What stands for a timer of a list stands for one. -/
theorem exists_of_forall₂ {m : OpMemory} {nodes : List TimerNode} {ts : List (Int × TimerOp)}
    {node : TimerNode} (stand : List.Forall₂ (Stands m) nodes ts) (isNode : node ∈ nodes) :
    ∃ timer ∈ ts, Stands m node timer := by
  induction stand with
  | nil => cases isNode
  | cons first _ ih =>
      rcases List.mem_cons.mp isNode with rfl | later
      · exact ⟨_, List.mem_cons_self, first⟩
      · obtain ⟨timer, member, stands⟩ := ih later
        exact ⟨timer, List.mem_cons_of_mem _ member, stands⟩

/-- A timer is put into the map. -/
theorem mirrors_insertTimer {entry a : Nat} {data : OpData} {op : TimerOp} (idle : sc.busy = none)
    (isHere : sc.here = some (cid, timers)) (member : (entry, some a) ∈ sc.locals)
    (isKnown : (a, data) ∈ v.known) (fits : data.timerOp = some op)
    (isConn : v.conns cid = some c) (deadline : Int) :
    Mirrors sc v (insertTimer cid deadline data.getSN entry) fun _ el =>
      ∃ timers', Shows { sc with here := some (cid, timers') }
        (v.set cid { c with timers := ClientSdk.insertTimer deadline op c.timers }) el := by
  have views : (insertTimer cid deadline data.getSN entry).Yields (Shows sc v) fun _ =>
      View (v.set cid { c with timers := ClientSdk.insertTimer deadline op c.timers }) := by
    apply Program.Yields.action
    intro el b el' shows done
    obtain ⟨conn, isFound, like⟩ := shows.view.found isConn
    rw [isFound, Option.bind_some] at done
    split_ifs at done with isThere
    · cases done
      obtain ⟨node, isNode, isDeadline⟩ := List.any_eq_true.mp isThere
      obtain ⟨timer, isTimer, stands⟩ := exists_of_forall₂ like.timers isNode
      have isThere' : ∃ timer ∈ c.timers, timer.1 = deadline :=
        ⟨timer, isTimer, stands.1.symm.trans (of_decide_eq_true isDeadline)⟩
      rw [insertTimer_of_mem like.sorted isThere']
      exact (Shown.set_self isConn).symm ▸ shows.view
    · obtain ⟨⟨i, mem'⟩, copied, eq⟩ := Option.map_eq_some_iff.mp done
      cases eq
      change (el.mem.get entry).bind el.mem.construct = _ at copied
      rw [shows.sound.locals (entry, some a) member, Option.bind_some] at copied
      obtain ⟨rfl, writes⟩ := OpMemory.construct_writes copied
      have view := shows.view.pushes writes
      obtain ⟨conn', isFound', like'⟩ := view.found isConn
      cases isFound.symm.trans isFound'
      have isNew : Stands mem' ⟨deadline, data.getSN, el.mem.smarts.length⟩ (deadline, op) :=
        ⟨rfl, OpData.getSN_of_timerOp fits, a, data, OpMemory.get_append_self writes.smarts,
          view.known _ isKnown, fits⟩
      have fresh : ∀ node ∈ conn.timers, node.deadline ≠ deadline := by
        intro node isNode isDeadline
        exact isThere (List.any_eq_true.mpr ⟨node, isNode, decide_eq_true isDeadline⟩)
      obtain ⟨ts, fields⟩ := like'.fields
      exact view.setConn ⟨⟨ts, fields⟩,
        forall₂_insertTimer (fun _ _ stands => stands.1) like'.timers fresh isNew,
        sorted_insertTimer like'.sorted⟩
  refine (mirrors (runs_insertTimer idle isHere member deadline _) views).weaken ?_
  rintro _ el ⟨⟨timers', sound⟩, view⟩
  exact ⟨timers', sound, view⟩

/-- The `SmartOp`s of the timers of a connection, and those of the other connections. -/
theorem Sound.distinct_here {el : SmartLoop} (sound : Sound sc el)
    (isHere : sc.here = some (cid, timers)) :
    (timers.map TimerNode.smart ++ (el.removeConn cid).nodes).Nodup := by
  obtain ⟨con, isFound⟩ := sound.here cid timers isHere
  exact (nodes_perm isFound).nodup_iff.mp (List.nodup_append.mp sound.distinct).2.1

/-- A timer is found by the place of its `SmartOp`. -/
theorem eraseP_eq_eraseIdx {k : Nat} {node : TimerNode}
    (distinct : (timers.map TimerNode.smart).Nodup) (isNode : timers[k]? = some node) :
    (timers.eraseP fun other => other.smart = node.smart) = timers.eraseIdx k := by
  induction timers generalizing k with
  | nil => rfl
  | cons first timers ih =>
      rw [List.map_cons, List.nodup_cons] at distinct
      cases k with
      | zero =>
          cases isNode
          rw [List.eraseP_cons_of_pos (by simp)]
          rfl
      | succ k =>
          have later : node ∈ timers := List.mem_of_getElem? isNode
          have differs : first.smart ≠ node.smart := fun same =>
            distinct.1 (same ▸ List.mem_map_of_mem later)
          rw [List.eraseP_cons_of_neg (by simpa using differs), ih distinct.2 isNode]
          rfl

/-- A timer is taken out of the map. -/
theorem mirrors_eraseTimer {k : Nat} {node : TimerNode} (isHere : sc.here = some (cid, timers))
    (isConn : v.conns cid = some c) (isNode : timers[k]? = some node) :
    Mirrors sc v (eraseTimer cid node.smart) fun _ =>
      Shows { sc with here := some (cid, timers.eraseIdx k) }
        (v.set cid { c with timers := c.timers.eraseIdx k }) := by
  have distinct : ∀ el, Shows sc v el → (timers.map TimerNode.smart).Nodup := fun el shows =>
    (List.nodup_append.mp (shows.sound.distinct_here isHere)).1
  have views : (eraseTimer cid node.smart).Yields (Shows sc v) fun _ =>
      View (v.set cid { c with timers := c.timers.eraseIdx k }) := by
    apply Program.Yields.action
    intro el b el' shows done
    obtain ⟨con, isFound⟩ := shows.sound.here cid timers isHere
    obtain ⟨conn, isFound', like⟩ := shows.view.found isConn
    cases isFound.symm.trans isFound'
    rw [isFound, Option.bind_some, eraseP_eq_eraseIdx (distinct el shows) isNode] at done
    obtain ⟨mem', gone, eq⟩ := Option.map_eq_some_iff.mp done
    cases eq
    have like' : Like el.mem ⟨con, timers.eraseIdx k⟩ { c with timers := c.timers.eraseIdx k } := by
      refine ⟨like.fields, ?_, like.sorted.sublist (List.eraseIdx_sublist _ _)⟩
      rw [List.eraseIdx_eq_take_drop_succ, List.eraseIdx_eq_take_drop_succ]
      exact List.rel_append (List.forall₂_take _ like.timers) (List.forall₂_drop _ like.timers)
    refine (shows.view.setConn like').writes (OpMemory.destroy_writes gone) ?_
    obtain ⟨inside, isNth⟩ := List.getElem?_eq_some_iff.mp isNode
    have perm := (List.getElem_cons_eraseIdx_perm inside).symm.map TimerNode.smart
    rw [isNth] at perm
    have apart := (perm.append_right _).nodup_iff.mp (shows.sound.distinct_here isHere)
    exact (List.nodup_cons.mp apart).1
  refine .known distinct fun distinct => ?_
  have runs := runs_eraseTimer isHere (List.mem_of_getElem? isNode)
  rw [eraseP_eq_eraseIdx distinct isNode] at runs
  exact mirrors_shows runs views

theorem mirrors_addConn (isGone : v.conns cid = none) (noTimers : c.timers = []) :
    Mirrors sc v (addConn cid c) fun _ =>
      Shows { sc with here := some (cid, []) } (v.set cid c) := by
  have views : (addConn cid c).Yields (Shows sc v) fun _ => View (v.set cid c) := by
    apply Program.Yields.action
    intro el b el' shows done
    cases done
    exact shows.view.addConn isGone noTimers
  exact mirrors_shows (runs_addConn cid c) views

theorem mirrors_eraseConn (isHere : sc.here = some (cid, timers)) :
    Mirrors sc v (eraseConn cid) fun _ el => ∃ left : List (Nat × Option Nat),
      left.map Prod.fst = timers.map TimerNode.smart ∧
        Shows { sc with locals := left ++ sc.locals, here := none } (v.drop cid) el := by
  have views : (eraseConn cid).Yields (Shows sc v) fun _ => View (v.drop cid) := by
    apply Program.Yields.action
    intro el b el' shows done
    cases done
    exact shows.view.removeConn
  refine (mirrors (runs_eraseConn isHere) views).weaken ?_
  rintro _ el ⟨⟨left, places, sound⟩, view⟩
  exact ⟨left, places, sound, view⟩

end SmartLoop

end GPush.ClientSdk
