import GPush.ClientSdk.Mirrors

/-!
# The handlers of the two loops

A handler of the loop whose operations are counted does to a connection what the member function
of `CliConn` does, and queues the same operations, where no user comes in between.
-/

namespace GPush.ClientSdk

open GPush.ConnectServer GPush.Transition

namespace SmartLoop

variable {sc : Scope} {v : Shown} {cid : Bytes} {timers : List TimerNode} {c : CliConn}

/-- The connection is there with some timers. -/
abbrev ShowsHere (sc : Scope) (v : Shown) (cid : Bytes) (el : SmartLoop) : Prop :=
  ∃ timers, Shows { sc with here := some (cid, timers) } v el

theorem Shows.stillHere {el : SmartLoop} (shows : Shows sc v el)
    (isHere : sc.here = some (cid, timers)) : ShowsHere sc v cid el := by
  refine ⟨timers, ?_⟩
  rw [← isHere]
  exact shows

theorem Shows.leave {el : SmartLoop} (shows : Shows sc v el) :
    Shows { sc with here := none } v el := ⟨shows.sound.leave, shows.view⟩

/-- Pointers are not needed any more. -/
theorem Shows.forget {el : SmartLoop} {known : List (Nat × OpData)} (shows : Shows sc v el)
    (subset : known ⊆ v.known) : Shows sc { v with known := known } el :=
  ⟨shows.sound, shows.view.forget subset⟩

/-! ## Vectors -/

theorem mirrors_destroyAll (idle : sc.busy = none) {held rest : List (Nat × Option Nat)}
    (locals : sc.locals = held ++ rest) :
    Mirrors sc v (destroyAll (held.map Prod.fst)) fun _ => Shows { sc with locals := rest } v := by
  induction held generalizing sc with
  | nil =>
      subst locals
      exact .pure fun _ shows => shows
  | cons first held ih => exact (mirrors_destroy idle locals).bind fun _ => ih idle rfl

theorem mirrors_copyAll (idle : sc.busy = none) {held : List (Nat × Option Nat)}
    (members : ∀ l ∈ held, l ∈ sc.locals) :
    Mirrors sc v (copyAll (held.map Prod.fst)) fun copies el =>
      ∃ copied : List (Nat × Option Nat), copied.map Prod.fst = copies ∧
        copied.map Prod.snd = held.map Prod.snd ∧
          Shows { sc with locals := copied ++ sc.locals } v el := by
  induction held generalizing sc with
  | nil => exact .pure fun _ shows => ⟨[], rfl, rfl, shows⟩
  | cons first rest ih =>
      rw [List.forall_mem_cons] at members
      refine (mirrors_copyOf_local idle members.1).bind fun i => ?_
      have members' : ∀ l ∈ rest, l ∈ (i, first.2) :: sc.locals := fun l member =>
        List.mem_cons_of_mem _ (members.2 l member)
      refine (ih (by exact idle) members').bind fun copies => ?_
      refine .pure ?_
      rintro el ⟨copied, places, same, sound, view⟩
      refine ⟨(i, first.2) :: copied, by rw [List.map_cons, places], ?_,
        sound.locals_perm List.perm_middle.symm, view⟩
      rw [List.map_cons, List.map_cons, same]

/-- The vector gets a copy of an object at its end. -/
theorem mirrors_pushBack (isFull : Nat → Bool) (idle : sc.busy = none)
    {held rest : List (Nat × Option Nat)} (locals : sc.locals = held ++ rest) {oth : Nat}
    {op : Option Nat} :
    (pushBack isFull (held.map Prod.fst) oth).Yields
      (fun el => Shows sc v el ∧ el.mem.get oth = some op) fun ops el =>
        ∃ held' : List (Nat × Option Nat), held'.map Prod.fst = ops ∧
          held'.map Prod.snd = held.map Prod.snd ++ [op] ∧
            Shows { sc with locals := held' ++ rest } v el := by
  refine (mirrors_copyOf idle).bind fun i => ?_
  split_ifs
  · have members : ∀ l ∈ held, l ∈ (i, op) :: sc.locals := by
      intro l member
      rw [locals]
      exact List.mem_cons_of_mem _ (List.mem_append_left _ member)
    refine (mirrors_copyAll (by exact idle) members).bind fun copies => .ofExists fun copied =>
      .ofFact ?_
    rintro rfl
    refine .ofFact fun same => ?_
    have moved : (held ++ (copied ++ (i, op) :: rest)).Perm
        (copied ++ (i, op) :: sc.locals) := by
      rw [locals]
      exact (List.perm_append_comm_assoc held copied _).trans
        (List.perm_middle.append_left copied)
    have destroys : Mirrors { sc with locals := held ++ (copied ++ (i, op) :: rest) } v
        (destroyAll (held.map Prod.fst)) fun _ =>
          Shows { sc with locals := copied ++ (i, op) :: rest } v :=
      mirrors_destroyAll (by exact idle) rfl
    refine (destroys.strengthen fun _ shows => ⟨shows.sound.locals_perm moved, shows.view⟩).bind
      fun _ => .pure fun el shows => ?_
    refine ⟨copied ++ [(i, op)], by rw [List.map_append]; rfl, ?_, ?_⟩
    · rw [List.map_append, same]
      rfl
    · rwa [List.append_assoc]
  · refine .pure fun el shows => ?_
    refine ⟨held ++ [(i, op)], by rw [List.map_append]; rfl, by rw [List.map_append]; rfl, ?_,
      shows.view⟩
    refine shows.sound.locals_perm ?_
    rw [locals, List.append_assoc]
    exact List.perm_middle

/-! ## Connections -/

theorem mirrors_cancelTimers {nodes : List TimerNode} (isHere : sc.here = some (cid, timers))
    (members : ∀ node ∈ nodes, node ∈ timers) :
    Mirrors sc v (cancelTimers nodes) fun _ => Shows sc v := by
  induction nodes with
  | nil => exact .pure fun _ shows => shows
  | cons node rest ih =>
      rw [List.forall_mem_cons] at members
      have has : sc.Has node.smart :=
        .inr ⟨cid, timers, isHere, List.mem_map_of_mem members.1⟩
      have uses : Mirrors sc v (discard (useOf node.smart)) fun _ => Shows sc v :=
        (mirrors (runs_useOf has) (views_useOf _)).discard fun _ _ both => ⟨both.1, both.2⟩
      exact uses.bind fun _ => ih members.2

/-- `CliConn::onDisconnect` does the same, as cancelling a timer does nothing. -/
theorem mirrors_onDisconnect (isHere : sc.here = some (cid, timers))
    (isConn : v.conns cid = some c) (net : Net) (code : Int) :
    Mirrors sc v (onDisconnect cid net code) fun ret el => ret = (c.onDisconnect net code).ret ∧
      Shows sc (v.after cid (c.onDisconnect net code)) el := by
  refine (mirrors_fields isHere isConn).bind fun conn => .ofFact ?_
  rintro ⟨rfl, -⟩
  refine (mirrors_cancelTimers isHere fun node => List.mem_reverse.mp).bind fun _ => ?_
  exact mirrors_call isHere isConn (blind_shut net .disconnect code)

/-- `CliConn::addTimer` of an operation that waits. -/
theorem mirrors_addTimer {sp j : Nat} {data : OpData} {op : TimerOp} (idle : sc.busy = none)
    (isHere : sc.here = some (cid, timers)) (member : (j, some sp) ∈ sc.locals)
    (isKnown : (sp, data) ∈ v.known) (fits : data.timerOp = some op)
    (isConn : v.conns cid = some c) (net : Net) :
    Mirrors sc v (addTimer cid net data.getSN sp) fun _ =>
      ShowsHere sc (v.set cid (c.addTimer net op data.getTimeout)) cid := by
  refine (mirrors_use isKnown).bind fun data' => .ofFact ?_
  rintro rfl
  refine (mirrors_smartOp idle fun a isOp => ⟨j, isOp ▸ member⟩).bind fun smart => ?_
  refine (mirrors_copyOf_local (by exact idle) List.mem_cons_self).bind fun entry => ?_
  refine (mirrors_insertTimer (by exact idle) (by exact isHere) List.mem_cons_self isKnown fits
    isConn _).bind fun _ => .ofExists fun timers' => ?_
  refine (mirrors_destroy (by exact idle) rfl).bind fun _ => ?_
  exact (mirrors_destroy (by exact idle) rfl).weaken fun _ _ shows => ⟨timers', shows⟩

/-- A keepalive is made that waits. -/
theorem mirrors_addKeepaliveTimer (idle : sc.busy = none) (isHere : sc.here = some (cid, timers))
    (isConn : v.conns cid = some c) (net : Net) :
    Mirrors sc v (addKeepaliveTimer cid net) fun _ =>
      ShowsHere sc (v.set cid (c.addKeepaliveTimer net)) cid := by
  refine (mirrors_fields isHere isConn).bind fun conn => .ofFact ?_
  rintro ⟨-, ts, fields⟩
  refine (mirrors_new _).bind fun keepalive => ?_
  refine (mirrors_smartOp_first (by exact idle) rfl).bind fun op => ?_
  let sc' : Scope := { sc with locals := (op, some keepalive) :: sc.locals, busy := none }
  let data : OpData := .keepalive conn.con.cid conn.con.keepaliveTimeout
  have isKnown : (keepalive, data) ∈ (v.know keepalive data).known := List.mem_cons_self
  have uses : Mirrors sc' _ (use keepalive) _ := mirrors_use isKnown
  refine (uses.strengthen fun _ shows => ⟨shows.sound.calm rfl, shows.view⟩).bind fun data' =>
    .ofFact ?_
  rintro rfl
  have isHere' : sc'.here = some (cid, timers) := isHere
  refine (mirrors_addTimer rfl isHere' List.mem_cons_self isKnown rfl (by exact isConn) net).bind
    fun _ => .ofExists fun timers' => ?_
  refine (mirrors_destroy rfl rfl).weaken fun _ el shows => ⟨timers', ?_⟩
  have older : v.known ⊆ (v.know keepalive data).known := List.subset_cons_self _ _
  have timeout : data.getTimeout = (c.setTimers ts).keepaliveTimeout :=
    congrArg CliConn.keepaliveTimeout fields
  have forgets := shows.forget older
  rw [timeout] at forgets
  rw [idle]
  exact forgets

/-- The last node with a name has the place of the last timer of its kind. -/
def SamePlace (nodes : List TimerNode) (ts : List (Int × TimerOp)) (op : TimerOp) : Prop :=
  match nodes.reverse.find? fun node => node.id = op.sn with
  | some node => ∃ k, nodes[k]? = some node ∧
      (ts.reverse.eraseP fun timer => timer.2 = op).reverse = ts.eraseIdx k
  | none => (∀ timer ∈ ts, timer.2 ≠ op)

/-- Every node has the name of its kind. -/
theorem samePlace {m : OpMemory} {nodes : List TimerNode} {ts : List (Int × TimerOp)}
    (op : TimerOp) (stand : List.Forall₂ (Stands m) nodes ts) : SamePlace nodes ts op := by
  have kind : ∀ node timer, Stands m node timer → (node.id = op.sn ↔ timer.2 = op) := by
    intro node timer stands
    rw [stands.2.1]
    cases timer.2 <;> cases op <;> decide
  induction stand with
  | nil => exact fun timer member => absurd member List.not_mem_nil
  | @cons node timer nodes ts first rest ih =>
      rw [SamePlace] at ih ⊢
      rw [List.reverse_cons, List.find?_append]
      cases isLast : nodes.reverse.find? fun node => node.id = op.sn with
      | some last =>
          rw [isLast] at ih
          obtain ⟨k, isNode, erased⟩ := ih
          have named : last.id = op.sn := by simpa using List.find?_some isLast
          obtain ⟨other, member, stands⟩ := exists_of_forall₂ rest (List.mem_of_getElem? isNode)
          have isThere : (ts.reverse.any fun timer => timer.2 = op) = true :=
            List.any_eq_true.mpr ⟨other, List.mem_reverse.mpr member,
              decide_eq_true ((kind _ _ stands).mp named)⟩
          refine ⟨k + 1, isNode, ?_⟩
          rw [List.reverse_cons, List.eraseP_append, if_pos isThere, List.reverse_append, erased]
          rfl
      | none =>
          rw [isLast] at ih
          by_cases isKind : timer.2 = op
          · have named : node.id = op.sn := (kind _ _ first).mpr isKind
            rw [Option.none_or, List.find?_cons_of_pos (by simpa using named)]
            refine ⟨0, rfl, ?_⟩
            rw [List.reverse_cons, List.eraseP_append_right, List.eraseP_cons_of_pos,
              List.append_nil, List.reverse_reverse]
            · rfl
            · simpa using isKind
            · intro other member isOther
              exact ih other (List.mem_reverse.mp member) (of_decide_eq_true isOther)
          · have named : node.id ≠ op.sn := mt (kind _ _ first).mp isKind
            rw [Option.none_or, List.find?_cons_of_neg (by simpa using named)]
            exact List.forall_mem_cons.mpr ⟨isKind, ih⟩

/-- The login is taken out of the timers, if it is there. -/
theorem mirrors_popTimer {sp : Nat} {rest : List (Nat × Option Nat)} (idle : sc.busy = none)
    (locals : sc.locals = (sp, none) :: rest) (isHere : sc.here = some (cid, timers))
    (isConn : v.conns cid = some c) :
    Mirrors sc v (popTimer cid loginSn sp) fun _ el => ∃ held,
      ShowsHere { sc with locals := (sp, held) :: rest } (v.set cid (c.popTimer .login)) cid
        el := by
  refine (mirrors_fields isHere isConn).bind fun conn => .ofFact ?_
  rintro ⟨rfl, -⟩
  refine .known (fun el shows => samePlace .login (shows.allStand isHere isConn)) fun place => ?_
  rw [SamePlace, TimerOp.sn] at place
  cases isLast : conn.timers.reverse.find? fun node => node.id = loginSn with
  | none =>
      rw [isLast] at place
      have same : c.popTimer .login = c := by
        rw [CliConn.popTimer, List.eraseP_of_forall_not, List.reverse_reverse]
        intro timer member isLogin
        exact place timer (List.mem_reverse.mp member) (of_decide_eq_true isLogin)
      refine .pure fun el shows => ⟨none, ?_⟩
      rw [same, Shown.set_self isConn, ← locals]
      exact shows.stillHere isHere
  | some node =>
      rw [isLast] at place
      obtain ⟨k, isNode, erased⟩ := place
      have isTimer : node ∈ conn.timers := List.mem_of_getElem? isNode
      have has : sc.Has node.smart := .inr ⟨cid, _, isHere, List.mem_map_of_mem isTimer⟩
      have gets : Mirrors sc v (get node.smart) fun op el =>
          Holding sc node.smart op el ∧ View v el :=
        mirrors (runs_get has) (views_onMemory fun el op mem' shows isGot => by
          obtain ⟨op', -, eq⟩ := Option.map_eq_some_iff.mp isGot
          cases eq
          exact shows.view)
      refine gets.bind fun op => (mirrors_reset idle locals).bind fun _ => ?_
      refine (mirrors_eraseTimer (by exact isHere) isConn isNode).bind fun _ => ?_
      refine .pure fun el shows => ⟨op, conn.timers.eraseIdx k, ?_⟩
      rw [CliConn.popTimer, erased]
      exact shows

/-- `CliConn::keepalive` does the same to both connections. -/
theorem mirrors_keepalive (idle : sc.busy = none) (isHere : sc.here = some (cid, timers))
    (isConn : v.conns cid = some c) (net : Net) :
    Mirrors sc v (keepalive cid net) fun ret el => ret = (c.keepalive net).ret ∧
      ShowsHere sc (v.after cid (c.keepalive net)) cid el := by
  refine (mirrors_fields isHere isConn).bind fun conn => .ofFact ?_
  rintro ⟨-, ts, fields⟩
  have limit : conn.con.keepaliveLimit = c.keepaliveLimit := by rw [fields]; rfl
  have active : conn.con.activeTime = c.activeTime := by rw [fields]; rfl
  rw [limit, active, CliConn.keepalive]
  split_ifs
  · have shuts := mirrors_discard
      (mirrors_call isHere isConn (blind_shut net .disconnect timeoutError))
    exact shuts.bind fun _ => .pure fun el shows => ⟨rfl, shows.stillHere isHere⟩
  · refine (mirrors_addKeepaliveTimer idle isHere isConn net).bind fun _ =>
      .ofExists fun timers' => ?_
    refine (mirrors_call rfl (Shown.conns_set _ _ _) (blind_sendPacket net keepaliveReq [])).weaken
      ?_
    rintro ret el ⟨isRet, shows⟩
    rw [Shown.after_set] at shows
    exact ⟨isRet, timers', shows⟩

theorem mirrors_onTimeout {data : OpData} {op : TimerOp} (idle : sc.busy = none)
    (isHere : sc.here = some (cid, timers)) (isConn : v.conns cid = some c) (net : Net)
    (fits : data.timerOp = some op) :
    Mirrors sc v (onTimeout cid net data) fun _ =>
      ShowsHere sc (v.after cid (c.onTimeout net op)) cid := by
  cases data with
  | login login =>
      cases fits
      exact (mirrors_call isHere isConn (blind_shut net .loginFail timeoutError)).discard
        fun _ _ both => both.2.stillHere isHere
  | keepalive cid' timeout =>
      cases fits
      exact (mirrors_keepalive idle isHere isConn net).discard fun _ _ both => both.2
  | base sn cid' timeout => cases fits
  | delConn cid' => cases fits
  | disconnect cid' => cases fits

/-- What a local variable holds waits as a timer does. -/
def Waits (known : List (Nat × OpData)) (op : Option Nat) (timer : Int × TimerOp) : Prop :=
  ∃ a data, op = some a ∧ (a, data) ∈ known ∧ data.timerOp = some timer.2

/-- The vector of the timers that are due. -/
structure Collected (known : List (Nat × OpData)) (held : List (Nat × Option Nat))
    (due : List (Int × TimerOp)) (ops : List Nat) : Prop where
  places : held.map Prod.fst = ops
  waits : List.Forall₂ (Waits known) (held.map Prod.snd) due

/-- The timers that were due, one after the other. -/
theorem mirrors_onTimeouts {held : List (Nat × Option Nat)} {due : List (Int × TimerOp)}
    {known : List (Nat × OpData)} {ops : List Nat} (idle : sc.busy = none)
    (isHere : sc.here = some (cid, timers)) (isConn : v.conns cid = some c)
    (members : ∀ l ∈ held, l ∈ sc.locals) (collected : Collected known held due ops)
    (knows : known ⊆ v.known) (nets : Nat → Net) (n : Nat) :
    Mirrors sc v (onTimeouts cid nets n ops) fun _ =>
      ShowsHere sc (v.after cid (CliConn.runTimers nets n c due)) cid := by
  obtain ⟨rfl, waits⟩ := collected
  rw [List.forall₂_map_left_iff] at waits
  induction waits generalizing timers sc v c n with
  | nil =>
      refine .pure fun el shows => ?_
      rw [CliConn.runTimers, Shown.after_nil, Shown.set_self isConn]
      exact shows.stillHere isHere
  | @cons l timer held due first rest ih =>
      rw [List.forall_mem_cons] at members
      obtain ⟨a, data, holds, isKnown, fits⟩ := first
      have member : (l.1, some a) ∈ sc.locals := by
        rw [← holds]
        exact members.1
      have fires : Mirrors sc v (onTimeoutOf cid (nets n) l.1) fun _ =>
          ShowsHere sc (v.after cid (c.onTimeout (nets n) timer.2)) cid := by
        refine (mirrors_useOf member (knows isKnown)).bind fun data' => .ofFact ?_
        rintro rfl
        exact mirrors_onTimeout idle isHere isConn (nets n) fits
      refine fires.bind fun _ => .ofExists fun timers' => ?_
      refine (ih (by exact idle) rfl (Shown.conns_after _ _ _) (by exact members.2) (by exact knows)
        (n + 1)).weaken fun _ el shows => ?_
      rw [Shown.after_after v cid _ fun c => CliConn.runTimers nets (n + 1) c due] at shows
      exact shows

/-- Another timer is collected. -/
theorem Collected.snoc {known : List (Nat × OpData)} {held held' : List (Nat × Option Nat)}
    {due : List (Int × TimerOp)} {ops ops' : List Nat} {a : Nat} {data : OpData}
    {timer : Int × TimerOp} (collected : Collected known held due ops)
    (places : held'.map Prod.fst = ops')
    (holds : held'.map Prod.snd = held.map Prod.snd ++ [some a])
    (fits : data.timerOp = some timer.2) :
    Collected ((a, data) :: known) held' (due ++ [timer]) ops' := by
  refine ⟨places, ?_⟩
  rw [holds]
  have older : List.Forall₂ (Waits ((a, data) :: known)) (held.map Prod.snd) due := by
    refine collected.waits.imp ?_
    rintro op timer ⟨b, data', isOp, isKnown, fits⟩
    exact ⟨b, data', isOp, List.mem_cons_of_mem _ isKnown, fits⟩
  exact List.rel_append older (.cons ⟨a, data, rfl, List.mem_cons_self, fits⟩ .nil)

/-- The object at the first timer holds an operation of its kind. -/
theorem Shows.first {el : SmartLoop} {node : TimerNode} {rest : List TimerNode}
    {timer : Int × TimerOp} {ts : List (Int × TimerOp)} (shows : Shows sc v el)
    (isHere : sc.here = some (cid, node :: rest)) (isConn : v.conns cid = some c)
    (isTimers : c.timers = timer :: ts) :
    ∃ a data, data.timerOp = some timer.2 ∧ Shows sc (v.know a data) el ∧
      el.mem.get node.smart = some (some a) := by
  have stand := shows.allStand isHere isConn
  rw [isTimers] at stand
  obtain ⟨-, -, a, data, holds, isData, fits⟩ := (List.forall₂_cons.mp stand).1
  exact ⟨a, data, fits, ⟨shows.sound, shows.view.know isData⟩, holds⟩

/-- The vector holds the operations of the timers that are due, in their order. -/
theorem mirrors_collect (isFull : Nat → Bool) {due rest : List TimerNode}
    {due' rest' past : List (Int × TimerOp)} {held others : List (Nat × Option Nat)}
    {ops : List Nat} (idle : sc.busy = none) (isHere : sc.here = some (cid, due ++ rest))
    (isConn : v.conns cid = some { c with timers := due' ++ rest' })
    (same : due.length = due'.length) (locals : sc.locals = held ++ others)
    (collected : Collected v.known held past ops) :
    Mirrors sc v (collect cid isFull due ops) fun ops' el =>
      ∃ held' known, Collected known held' (past ++ due') ops' ∧ v.known ⊆ known ∧
        Shows { sc with locals := held' ++ others, here := some (cid, rest) }
          { v.set cid { c with timers := rest' } with known := known } el := by
  induction due generalizing sc v held due' past ops with
  | nil =>
      obtain rfl := List.length_eq_zero_iff.mp same.symm
      refine .pure fun el shows => ⟨held, v.known, ?_, List.Subset.refl _, ?_⟩
      · rw [List.append_nil]
        exact collected
      · rw [List.nil_append] at isHere isConn
        rw [← locals, ← isHere]
        exact (Shown.set_self isConn).symm ▸ shows
  | cons node due ih =>
      cases due' with
      | nil => cases same
      | cons timer due' =>
          have holds := fun el (shows : Shows sc v el) => shows.first isHere isConn rfl
          have pushes : Mirrors sc v (pushBack isFull ops node.smart) fun ops' el =>
              ∃ a data held', Collected ((a, data) :: v.known) held' (past ++ [timer]) ops' ∧
                Shows { sc with locals := held' ++ others } (v.know a data) el := by
            refine Program.Yields.strengthen ?_ holds
            refine .ofExists fun a => .ofExists fun data => .ofFact fun fits => ?_
            rw [← collected.places]
            refine (mirrors_pushBack isFull idle locals).weaken ?_
            rintro ops' el ⟨held', places, holds, shows⟩
            exact ⟨a, data, held', collected.snoc places holds fits, shows⟩
          refine pushes.bind fun ops' => .ofExists fun a => .ofExists fun data =>
            .ofExists fun held' => .ofFact fun collected' => ?_
          refine (mirrors_eraseTimer (k := 0) (by exact isHere) (by exact isConn) rfl).bind
            fun _ => ?_
          refine (ih (by exact idle) rfl (Shown.conns_set _ _ _) (Nat.succ.inj same) rfl
            (by exact collected')).weaken ?_
          rintro ops'' el ⟨held'', known, collected'', subset, shows⟩
          rw [List.append_assoc] at collected''
          refine ⟨held'', known, collected'',
            List.Subset.trans (List.subset_cons_self _ _) subset, ?_⟩
          rw [Shown.set_set] at shows
          exact shows

/-- As many nodes are due as timers. -/
theorem length_due {m : OpMemory} {nodes : List TimerNode} {ts : List (Int × TimerOp)}
    (stand : List.Forall₂ (Stands m) nodes ts) (now : Int) :
    (nodes.takeWhile fun node => node.deadline ≤ now).length =
      (ts.takeWhile fun timer => timer.1 ≤ now).length := by
  induction stand with
  | nil => rfl
  | @cons node timer nodes ts first _ ih =>
      rw [List.takeWhile_cons, List.takeWhile_cons, first.1]
      split_ifs
      · rw [List.length_cons, List.length_cons, ih]
      · rfl

/-- `CliConn::processTimers` does the same to both connections. -/
theorem mirrors_processConn (idle : sc.busy = none) (isHere : sc.here = some (cid, timers))
    (isConn : v.conns cid = some c) (now : Int) (isFull : Nat → Bool) (nets : Nat → Net) :
    Mirrors sc v (processConn cid now isFull nets) fun _ =>
      ShowsHere sc (v.after cid (c.processTimers now nets)) cid := by
  refine (mirrors_fields isHere isConn).bind fun conn => .ofFact ?_
  rintro ⟨rfl, -⟩
  refine .known (fun el shows => length_due (shows.allStand isHere isConn) now) fun same => ?_
  let due := c.timers.takeWhile fun timer => timer.1 ≤ now
  let rest := c.timers.dropWhile fun timer => timer.1 ≤ now
  have isConn' : v.conns cid = some { c with timers := due ++ rest } := by
    rw [isConn, List.takeWhile_append_dropWhile]
  rw [← List.takeWhile_append_dropWhile (p := fun node : TimerNode => decide (node.deadline ≤ now))
    (l := conn.timers)] at isHere
  refine (mirrors_collect isFull idle isHere isConn' same (List.nil_append _).symm
    ⟨rfl, .nil⟩).bind fun ops => .ofExists fun held => .ofExists fun known =>
      .ofFact fun collected => .ofFact fun subset => ?_
  have members : ∀ l ∈ held, l ∈ held ++ sc.locals := fun l member =>
    List.mem_append_left _ member
  let v' : Shown := { v.set cid { c with timers := rest } with known := known }
  have isConn'' : v'.conns cid = some { c with timers := rest } := Shown.conns_set _ _ _
  refine (mirrors_onTimeouts (v := v') (by exact idle) rfl isConn'' members collected
    (List.Subset.refl _) nets 0).bind fun _ => .ofExists fun timers' => ?_
  rw [← collected.places]
  refine (mirrors_destroyAll (by exact idle) rfl).weaken fun _ el shows => ⟨timers', ?_⟩
  have forgets := shows.forget subset
  rw [CliConn.processTimers, ← Shown.after_set v cid { c with timers := rest }]
  exact forgets

/-! ## Messages -/

section Messages

variable (codec : PeerCodec) {out : Out}

/-- The answer to a login, when its timer has been taken out. -/
theorem mirrors_answered (idle : sc.busy = none) (isHere : sc.here = some (cid, timers))
    (isConn : v.conns cid = some (c.popTimer .login)) {net : Net} {resp : Bytes}
    (handled : c.handleLoginResponse codec net resp = some out) :
    Mirrors sc v (answered codec cid net (codec.parseLoginResponse resp)) fun _ =>
      ShowsHere sc (v.after cid out) cid := by
  rw [CliConn.handleLoginResponse] at handled
  cases parsed : codec.parseLoginResponse resp with
  | none =>
      rw [parsed] at handled
      cases handled
      refine .pure fun el shows => ?_
      rw [Shown.after_nil, Shown.set_self isConn]
      exact shows.stillHere isHere
  | some lgresp =>
      rw [parsed] at handled
      rw [answered]
      dsimp only at handled
      split_ifs at handled ⊢ with accepted
      · cases handled
        have sets : Blind fun c => ({ c with sessid := lgresp.sessid } : CliConn).setStatus net
            .login lgresp.status true := fun c timers =>
          blind_setStatus net .login lgresp.status true { c with sessid := lgresp.sessid } timers
        refine (mirrors_discard (mirrors_call isHere isConn sets)).bind fun _ => ?_
        refine (mirrors_addKeepaliveTimer idle isHere (Shown.conns_after _ _ _) net).weaken ?_
        rintro _ el ⟨timers', shows⟩
        rw [Shown.set_after] at shows
        exact ⟨timers', shows⟩
      · have refuses := (mirrors_discard (mirrors_call isHere isConn
          (blind_refused net codec lgresp.status))).weaken fun _ _ shows => shows.stillHere isHere
        cases isList : (c.popTimer .login).svrlist with
        | nil =>
            rw [isList] at handled
            cases handled
        | cons item svrlist =>
            rw [isList] at handled
            have shown : v.after cid (refused codec net lgresp.status (c.popTimer .login)) =
                v.after cid out := by
              rw [refused, isList, List.tail_cons]
              dsimp only at handled ⊢
              split_ifs at handled ⊢
              · cases handled
                rfl
              · cases handled
                rfl
            rw [← shown]
            exact refuses

/-- `CliConn::handleLoginResponse` does the same, where there is an address to take back. -/
theorem mirrors_handleLoginResponse (idle : sc.busy = none)
    (isHere : sc.here = some (cid, timers)) (isConn : v.conns cid = some c) {net : Net}
    {resp : Bytes} (handled : c.handleLoginResponse codec net resp = some out) :
    Mirrors sc v (handleLoginResponse codec cid net resp) fun _ =>
      ShowsHere sc (v.after cid out) cid := by
  have none_held : ∀ a, (none : Option Nat) = some a → ∃ j, (j, some a) ∈ sc.locals := by
    intro a isSome
    cases isSome
  refine (mirrors_smartOp idle none_held).bind fun op => ?_
  let sc' : Scope := { sc with locals := (op, none) :: sc.locals }
  have pops : Mirrors sc' v (popTimer cid loginSn op) _ :=
    mirrors_popTimer idle rfl isHere isConn
  refine pops.ignore.bind fun _ => .ofExists fun held => .ofExists fun timers' => ?_
  refine (mirrors_answered codec (by exact idle) rfl (Shown.conns_set _ _ _) handled).bind
    fun _ => .ofExists fun left => ?_
  refine (mirrors_destroy (by exact idle) rfl).weaken fun _ el shows => ⟨left, ?_⟩
  rw [Shown.after_set] at shows
  exact shows

theorem mirrors_handlePacket (idle : sc.busy = none) (isHere : sc.here = some (cid, timers))
    (isConn : v.conns cid = some c) {r : Received} (handled : c.handlePacket codec r = some out) :
    Mirrors sc v (handlePacket codec cid r) fun _ => ShowsHere sc (v.after cid out) cid := by
  rw [CliConn.handlePacket] at handled
  rw [handlePacket]
  split_ifs at handled ⊢
  · exact mirrors_handleLoginResponse codec idle isHere isConn handled
  · cases handled
    exact (mirrors_call isHere isConn (blind_handleServiceRequest r.net codec r.body)).discard
      fun _ _ both => both.2.stillHere isHere
  · cases handled
    refine .pure fun el shows => ?_
    rw [Shown.after_nil, Shown.set_self isConn]
    exact shows.stillHere isHere

theorem mirrors_handlePackets {packets : List Received} (idle : sc.busy = none)
    (isHere : sc.here = some (cid, timers)) (isConn : v.conns cid = some c)
    (handled : c.handlePackets codec packets = some out) :
    Mirrors sc v (handlePackets codec cid packets) fun _ =>
      ShowsHere sc (v.after cid out) cid := by
  induction packets generalizing timers sc v c out with
  | nil =>
      cases handled
      refine .pure fun el shows => ?_
      rw [Shown.after_nil, Shown.set_self isConn]
      exact shows.stillHere isHere
  | cons r rest ih =>
      obtain ⟨first, isFirst, others⟩ := Option.bind_eq_some_iff.mp handled
      obtain ⟨later, isLater, rfl⟩ := Option.map_eq_some_iff.mp others
      refine (mirrors_handlePacket codec idle isHere isConn isFirst).bind fun _ =>
        .ofExists fun timers' => ?_
      refine (ih (by exact idle) (by rfl) (Shown.conns_after _ _ _) isLater).weaken fun _ el => ?_
      rw [← Shown.after_after v cid first fun _ => later]
      exact id

/-- The packets of the buffer are no reason to disconnect. -/
theorem ret_handlePackets {packets : List Received}
    (handled : c.handlePackets codec packets = some out) : out.ret = 0 := by
  induction packets generalizing c out with
  | nil =>
      cases handled
      rfl
  | cons r rest ih =>
      obtain ⟨first, -, others⟩ := Option.bind_eq_some_iff.mp handled
      obtain ⟨later, isLater, rfl⟩ := Option.map_eq_some_iff.mp others
      have laterRet : later.ret = 0 := ih isLater
      exact laterRet

/-- `CliConn::handleRead` has the same result and does the same. -/
theorem mirrors_handleRead (idle : sc.busy = none) (isHere : sc.here = some (cid, timers))
    (isConn : v.conns cid = some c) {net : Net} {received : Option (List Received)}
    (handled : c.handleRead codec net received = some out) :
    Mirrors sc v (handleRead codec cid net received) fun ret el => ret = out.ret ∧
      ShowsHere sc (v.after cid out) cid el := by
  refine (mirrors_fields isHere isConn).bind fun conn => .ofFact ?_
  rintro ⟨-, ts, fields⟩
  have socket : conn.con.fd = c.fd := by rw [fields]; rfl
  rw [CliConn.handleRead] at handled
  rw [socket]
  split_ifs at handled ⊢
  · cases handled
    refine .pure fun el shows => ⟨rfl, ?_⟩
    rw [Shown.after_nil, Shown.set_self isConn]
    exact shows.stillHere isHere
  · have active : Blind fun c => ⟨0, { c with activeTime := net.ms }, []⟩ := fun _ _ => rfl
    refine (mirrors_discard (mirrors_call isHere isConn active)).bind fun _ => ?_
    rw [Shown.after_nil]
    cases received with
    | none =>
        cases handled
        refine .pure fun el shows => ⟨rfl, ?_⟩
        rw [Shown.after_nil]
        exact shows.stillHere isHere
    | some packets =>
        refine (mirrors_handlePackets codec idle isHere (Shown.conns_set _ _ _) handled).bind
          fun _ => .pure fun el shows => ⟨(ret_handlePackets codec handled).symm, ?_⟩
        rw [Shown.after_set] at shows
        exact shows

end Messages

end SmartLoop

end GPush.ClientSdk
