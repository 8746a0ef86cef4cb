import GPush.ClientSdk.Handlers

/-!
# One loop after the other

Every run of the event loop is a run of the loop whose operations are counted, in which every
task runs to its end before a user comes in, and the two have the same connections and the same
operations in their queues.
-/

namespace GPush.ClientSdk

open GPush.ConnectServer GPush.Transition

namespace Shown

variable (codec : PeerCodec)

/-- After an operation has been processed. -/
def processOp (v : Shown) (net : Net) : Op → Shown
  | .call (.login op) =>
      match v.conns op.cid with
      | some _ => v
      | none =>
          let out := (CliConn.init net op).connectAndLogin codec net
          let con := if out.ret = 0 then out.con.addTimer net .login opDefaultTimeout else out.con
          v.after op.cid { out with con := con }
  | .call (.disconnect cid) =>
      match v.conns cid with
      | some c => v.after cid (c.onDisconnect net 0)
      | none => v
  | .delConn cid => v.drop cid

/-- Pointers make no difference. -/
theorem processOp_known (v : Shown) (known : List (Nat × OpData)) (net : Net) (op : Op) :
    processOp codec { v with known := known } net op =
      { v.processOp codec net op with known := known } := by
  rcases op with ⟨login | cid⟩ | cid
  · simp only [processOp]
    cases v.conns login.cid <;> rfl
  · simp only [processOp]
    cases v.conns cid <;> rfl
  · rfl

theorem known_processOp (v : Shown) (net : Net) (op : Op) :
    (v.processOp codec net op).known = v.known := by
  have same := congrArg Shown.known (processOp_known codec v v.known net op)
  exact same

theorem drop_of_none {v : Shown} {cid : Bytes} (isGone : v.conns cid = none) : v.drop cid = v := by
  rw [drop, ← isGone, Function.update_eq_self]

theorem drop_set (v : Shown) (cid : Bytes) (c : CliConn) : (v.set cid c).drop cid = v.drop cid := by
  simp [drop, set]

end Shown

/-- What an event loop shows. -/
def EventLoop.shown (el : EventLoop) : Shown := ⟨fun cid => (el.conns cid).map Obj.con, el.ops, []⟩

namespace EventLoop

variable {el : EventLoop} {cid : Bytes} {o : Obj}

/-- A connection changes in what is shown. -/
theorem map_update (conns : Bytes → Option Obj) (cid : Bytes) (o : Option Obj) :
    (fun cid' => (Function.update conns cid o cid').map Obj.con) =
      Function.update (fun cid' => (conns cid').map Obj.con) cid (o.map Obj.con) := by
  funext cid'
  by_cases isSelf : cid' = cid
  · rw [isSelf, Function.update_self, Function.update_self]
  · rw [Function.update_of_ne isSelf, Function.update_of_ne isSelf]

theorem shown_call (out : Out) : (el.call cid o out).shown = el.shown.after cid out := by
  rw [shown, call, Shown.after, map_update]
  rfl

theorem shown_delConn : (el.delConn cid).shown = el.shown.drop cid := by
  rw [delConn]
  cases found : el.conns cid with
  | some o =>
      rw [shown, Shown.drop, map_update]
      rfl
  | none =>
      have isGone : el.shown.conns cid = none := congrArg (Option.map Obj.con) found
      exact (Shown.drop_of_none isGone).symm

theorem shown_visit (now : Int) (nets : Nat → Net) :
    (el.visit cid o now nets).shown =
      if o.con.fd = false then el.shown.drop cid
      else el.shown.after cid (o.con.processTimers now nets) := by
  rw [visit]
  split_ifs
  · rw [shown, Shown.drop, map_update]
    rfl
  · exact shown_call _

theorem shown_processOp (codec : PeerCodec) (net : Net) (op : Op) :
    (el.processOp codec net op).shown = el.shown.processOp codec net op := by
  rcases op with ⟨login | cid⟩ | cid
  · rw [processOp, processLogin, Shown.processOp, show el.shown.conns login.cid =
      (el.conns login.cid).map Obj.con from rfl]
    cases el.conns login.cid with
    | some o => rfl
    | none => exact shown_call _
  · rw [processOp, Shown.processOp, show el.shown.conns cid = (el.conns cid).map Obj.con from rfl]
    cases el.conns cid with
    | some o => exact shown_call _
    | none => rfl
  · exact shown_delConn

end EventLoop

namespace SmartLoop

variable {sc : Scope} {v : Shown} {cid : Bytes} {timers : List TimerNode} {c : CliConn}

/-! ## Connections that are destroyed -/

theorem mirrors_destroyTimers (isHere : sc.here = some (cid, timers))
    (isConn : v.conns cid = some c) :
    Mirrors sc v (destroyTimers cid timers) fun _ el => ∃ c',
      Shows { sc with here := some (cid, []) } (v.set cid c') el := by
  induction timers generalizing sc v c with
  | nil =>
      refine .pure fun el shows => ⟨c, ?_⟩
      rw [Shown.set_self isConn, ← isHere]
      exact shows
  | cons node rest ih =>
      refine (mirrors_eraseTimer (k := 0) isHere isConn rfl).bind fun _ => ?_
      refine (ih rfl (Shown.conns_set _ _ _)).weaken ?_
      rintro _ el ⟨c', shows⟩
      rw [Shown.set_set] at shows
      exact ⟨c', shows⟩

/-- `EventLoop::delConn` of a connection that may be there. -/
theorem mirrors_delConn (cid : Bytes) :
    Mirrors sc v (delConn cid) fun _ => Shows { sc with here := none } (v.drop cid) := by
  cases isConn : v.conns cid with
  | none =>
      refine (mirrors_find_none isConn).bind fun found => .ofFact ?_
      rintro rfl
      rw [Shown.drop_of_none isConn]
      exact .pure fun _ shows => shows
  | some c =>
      refine (mirrors_find isConn).bind fun found => .ofExists fun conn => .ofExists fun ts =>
        .ofFact ?_
      rintro rfl
      refine .ofFact fun _ => ?_
      refine (mirrors_destroyTimers rfl isConn).bind fun _ => .ofExists fun c' => ?_
      refine (mirrors_eraseConn rfl).bind fun _ => .ofExists fun left => .ofFact fun places => ?_
      obtain rfl := List.map_eq_nil_iff.mp places
      rw [Shown.drop_set]
      exact .pure fun _ shows => shows

/-- What `EventLoop::processTimers` does with a connection. -/
theorem mirrors_processTimers (idle : sc.busy = none) (isConn : v.conns cid = some c) (now : Int)
    (isFull : Nat → Bool) (nets : Nat → Net) :
    Mirrors sc v (processTimers cid now isFull nets) fun _ => Shows { sc with here := none }
      (if c.fd = false then v.drop cid else v.after cid (c.processTimers now nets)) := by
  refine (mirrors_find isConn).bind fun found => .ofExists fun conn => .ofExists fun ts =>
    .ofFact ?_
  rintro rfl
  refine .ofFact fun fields => ?_
  have socket : conn.con.fd = c.fd := by rw [fields]; rfl
  dsimp only
  rw [socket]
  split_ifs
  · refine (mirrors_eraseConn rfl).bind fun _ => .ofExists fun left => .ofFact fun places => ?_
    rw [← places]
    exact mirrors_destroyAll (by exact idle) rfl
  · refine (mirrors_processConn (by exact idle) rfl isConn now isFull nets).weaken ?_
    rintro _ el ⟨timers', shows⟩
    exact shows.leave

section Messages

variable (codec : PeerCodec) {out : Out}

/-- What `EventLoop::run` does with a connection that can be read. -/
theorem mirrors_readConn (idle : sc.busy = none) (isConn : v.conns cid = some c) {net : Net}
    {received : Option (List Received)} (handled : c.handleRead codec net received = some out) :
    Mirrors sc v (readConn codec cid net received) fun _ => Shows { sc with here := none }
      (v.after cid
        (if out.ret < 0 then out.andThen fun c => c.onDisconnect net networkError else out)) := by
  refine (mirrors_find isConn).bind fun found => .ofExists fun conn => .ofExists fun ts =>
    .ofFact ?_
  rintro rfl
  refine .ofFact fun fields => ?_
  refine (mirrors_handleRead codec (by exact idle) rfl isConn handled).bind fun ret => .ofFact ?_
  rintro rfl
  refine .ofExists fun timers' => ?_
  split_ifs
  · refine (mirrors_onDisconnect rfl (Shown.conns_after _ _ _) net networkError).discard ?_
    rintro ret el ⟨-, shows⟩
    rw [Shown.after_after v cid out fun c => c.onDisconnect net networkError] at shows
    exact shows.leave
  · exact .pure fun el shows => shows.leave

/-! ## Operations -/

theorem mirrors_release_last {i a : Nat} {rest : List (Nat × Option Nat)}
    (locals : sc.locals = (i, some a) :: rest) (busy : sc.busy = some (a, 0)) :
    Mirrors sc v (release i) fun count el => count = 0 ∧
      Shows { sc with locals := (i, none) :: rest, busy := none } v el := by
  exact (mirrors (runs_release_last locals busy) (views_release (first_isLocal locals))).weaken
    fun _ _ both => ⟨both.1.1, both.1.2, both.2⟩

/-- The operation has made a reference, which is given up. -/
theorem mirrors_release_extra {i a : Nat} {rest : List (Nat × Option Nat)}
    (locals : sc.locals = (i, some a) :: rest) (busy : sc.busy = some (a, 1)) :
    Mirrors sc v (release i) fun count el => count = 1 ∧ Shows { sc with busy := none } v el := by
  have counts : (release i).Yields (Shows sc v) fun count el =>
      count = 1 ∧ Sound { sc with busy := none } el := by
    apply views_onMemory
    intro el count mem' shows released
    obtain ⟨mem'', released', -, sound⟩ := shows.sound.releaseExtra locals busy
    cases released.symm.trans released'
    exact ⟨rfl, sound⟩
  exact (counts.both (views_release (first_isLocal locals))).weaken
    fun _ _ both => ⟨both.1.1, both.1.2, both.2⟩

/-- What `EventLoop::processOps` does when an operation has been processed. -/
def finish (net : Net) (op sp : Nat) : Code Unit := do
  let count ← release sp
  released net op sp count
  destroy sp

/-- An operation that does not wait. -/
theorem mirrors_finish_last {sp a : Nat} {rest : List (Nat × Option Nat)} (net : Net)
    (locals : sc.locals = (sp, some a) :: rest) (busy : sc.busy = some (a, 0)) :
    Mirrors sc v (finish net a sp) fun _ =>
      Shows { sc with locals := rest, busy := none, here := none } v := by
  refine (mirrors_release_last locals busy).bind fun count => .ofFact ?_
  rintro rfl
  have released : Mirrors { sc with locals := (sp, none) :: rest, busy := none } v
      (released net a sp 0) fun _ =>
        Shows { sc with locals := (sp, none) :: rest, busy := none, here := none } v := by
    refine (mirrors_get List.mem_cons_self).bind fun held => .ofFact fun _ => ?_
    rw [if_neg fun both => absurd both.1 (Int.lt_irrefl 0)]
    exact .pure fun _ shows => shows.leave
  exact released.bind fun _ => mirrors_destroy rfl rfl

/-- An operation that waits becomes a timer of its connection. -/
theorem mirrors_finish_waiting {sp a : Nat} {data : OpData} {op : TimerOp}
    {rest : List (Nat × Option Nat)} (net : Net) (locals : sc.locals = (sp, some a) :: rest)
    (busy : sc.busy = some (a, 1)) (isKnown : (a, data) ∈ v.known) (fits : data.timerOp = some op)
    (isConn : v.conns data.getCid = some c) :
    Mirrors sc v (finish net a sp) fun _ =>
      Shows { sc with locals := rest, busy := none, here := none }
        (v.set data.getCid (c.addTimer net op data.getTimeout)) := by
  refine (mirrors_release_extra locals busy).bind fun count => .ofFact ?_
  rintro rfl
  have member : (sp, some a) ∈ sc.locals := by
    rw [locals]
    exact List.mem_cons_self
  have waits : Mirrors { sc with busy := none } v (released net a sp 1) fun _ =>
      Shows { sc with busy := none, here := none }
        (v.set data.getCid (c.addTimer net op data.getTimeout)) := by
    refine (mirrors_get (by exact member)).bind fun held => .ofFact ?_
    rintro rfl
    rw [if_pos ⟨Int.one_pos, rfl⟩]
    refine (mirrors_useThrough (by exact member) isKnown).bind fun data' => .ofFact ?_
    rintro rfl
    refine (mirrors_find isConn).bind fun found => .ofExists fun conn => .ofExists fun ts =>
      .ofFact ?_
    rintro rfl
    refine .ofFact fun _ => (mirrors_use isKnown).bind fun data'' => .ofFact ?_
    rintro rfl
    refine (mirrors_addTimer rfl rfl (by exact member) isKnown fits isConn net).weaken ?_
    rintro _ el ⟨timers', shows⟩
    exact shows.leave
  exact waits.bind fun _ => mirrors_destroy rfl (by exact locals)

/-- A login whose connection is there. -/
theorem mirrors_process_refused {a : Nat} (net : Net) (login : LoginOp)
    (isConn : v.conns login.cid = some c) :
    Mirrors sc v (process codec net a (.login login)) fun _ =>
      Shows { sc with here := none } v := by
  refine (mirrors_find isConn).bind fun found => .ofExists fun conn => .ofExists fun ts =>
    .ofFact ?_
  rintro rfl
  exact .ofFact fun _ => .pure fun _ shows => shows.leave

/-- A login whose connection is made. -/
theorem mirrors_process_login {a : Nat} (busy : sc.busy = some (a, 0)) (net : Net)
    (login : LoginOp) (isGone : v.conns login.cid = none) :
    Mirrors sc v (process codec net a (.login login)) fun _ =>
      Shows { sc with
          busy := some (a, if ((CliConn.init net login).connectAndLogin codec net).ret = 0 then 1
            else 0)
          here := none }
        (v.after login.cid ((CliConn.init net login).connectAndLogin codec net)) := by
  refine (mirrors_find_none isGone).bind fun found => .ofFact ?_
  rintro rfl
  refine (mirrors_addConn isGone rfl).bind fun _ => ?_
  refine (mirrors_call rfl (Shown.conns_set _ _ _) (blind_connectAndLogin net codec)).bind
    fun ret => .ofFact ?_
  rintro rfl
  rw [Shown.after_set]
  split_ifs
  · refine (mirrors_increase (by exact busy)).bind fun _ => ?_
    exact .pure fun _ shows => shows.leave
  · rw [← busy]
    exact .pure fun _ shows => shows.leave

theorem mirrors_process_disconnect {a : Nat} (net : Net) (cid : Bytes) :
    Mirrors sc v (process codec net a (.disconnect cid)) fun _ =>
      Shows { sc with here := none } (v.processOp codec net (.call (.disconnect cid))) := by
  rw [Shown.processOp]
  cases isConn : v.conns cid with
  | none =>
      refine (mirrors_find_none isConn).bind fun found => .ofFact ?_
      rintro rfl
      exact .pure fun _ shows => shows
  | some c =>
      refine (mirrors_find isConn).bind fun found => .ofExists fun conn => .ofExists fun ts =>
        .ofFact ?_
      rintro rfl
      refine .ofFact fun _ => ?_
      refine (mirrors_discard (mirrors_onDisconnect rfl isConn net 0)).bind fun _ => ?_
      exact .pure fun _ shows => shows.leave

/-- What `EventLoop::processOps` does with the oldest operation. -/
theorem mirrors_processOp (idle : sc.busy = none) (net : Net) {op : Op} {rest : List Op}
    (waiting : v.ops = op :: rest) :
    Mirrors sc v (processOp codec net) fun _ =>
      Shows { sc with here := none }
        (Shown.processOp codec { v with ops := rest } net op) := by
  refine (mirrors_take waiting).bind fun taken => .ofExists fun a => .ofFact ?_
  rintro rfl
  refine (mirrors_smartOp_first (by exact idle) rfl).bind fun sp => ?_
  refine (mirrors_useThrough List.mem_cons_self List.mem_cons_self).bind fun data => .ofFact ?_
  rintro rfl
  let v' : Shown := { v with ops := rest, known := (a, op.data) :: v.known }
  have subset : v.known ⊆ v'.known := List.subset_cons_self _ _
  rw [show ({ v with ops := rest } : Shown) = { v' with known := v.known } from rfl,
    Shown.processOp_known]
  let sc' : Scope := ⟨(sp, some a) :: sc.locals, sc.raws, some (a, 0), sc.here⟩
  have ends : ∀ v'' : Shown, v.known ⊆ v''.known →
      Mirrors { sc' with here := none } v'' (finish net a sp) fun _ =>
        Shows { sc with here := none } { v'' with known := v.known } := by
    intro v'' subset
    refine (mirrors_finish_last net rfl rfl).weaken fun _ el shows => ?_
    rw [idle]
    exact shows.forget subset
  rcases op with ⟨login | cid⟩ | cid
  · rw [Shown.processOp]
    cases isConn : v'.conns login.cid with
    | some c =>
        have processes : Mirrors sc' v' _ _ :=
          mirrors_process_refused codec (a := a) net login isConn
        exact processes.ignore.bind fun _ => ends _ subset
    | none =>
        have processes : Mirrors sc' v' _ _ := mirrors_process_login codec rfl net login isConn
        have waits : (OpData.login login).timerOp = some .login := rfl
        refine processes.ignore.bind fun _ => ?_
        dsimp only
        split_ifs
        · refine (mirrors_finish_waiting net rfl rfl List.mem_cons_self waits
            (Shown.conns_after _ _ _)).weaken fun _ el shows => ?_
          have forgets := shows.forget subset
          rw [Shown.set_after] at forgets
          rw [idle]
          exact forgets
        · exact ends _ subset
  · have processes : Mirrors sc' v' _ _ := mirrors_process_disconnect codec (a := a) net cid
    refine processes.ignore.bind fun _ => ends _ ?_
    rw [Shown.known_processOp]
    exact subset
  · have processes : Mirrors sc' v' _ _ := mirrors_delConn cid
    exact processes.ignore.bind fun _ => ends _ subset

/-! ## Turns -/

/-- A task that runs to its end. -/
theorem task_shown (task : Task) {v v' : Shown} {el : SmartLoop} (shows : Shows .outside v el)
    (mirrors : Mirrors .outside v (programs codec task) fun _ => Shows .outside v') :
    ∃ el', Reachable (Step codec) ⟨el, .ret (), false⟩ ⟨el', .ret (), false⟩ ∧
      Shows .outside v' el' := by
  obtain ⟨⟨⟩, el', ended, -⟩ := (runs_programs codec task el shows.sound).runs
  exact ⟨el', Machine.reachable_of_task Users ended, mirrors el () el' shows ended⟩

/-- The step lemma: a user queues an operation, or one task runs to its end, or a connection is
read and then destroyed. -/
theorem step_shown {evl evl' : EventLoop} {event : EventLoop.Event} {el : SmartLoop}
    (shows : Shows .outside evl.shown el) (taken : EventLoop.Step codec evl event evl') :
    ∃ el', Reachable (Step codec) ⟨el, .ret (), false⟩ ⟨el', .ret (), false⟩ ∧
      Shows .outside evl'.shown el' := by
  cases event with
  | call call =>
      cases taken
      have queued : Step codec ⟨el, .ret (), false⟩ .env
          ⟨el.asynAddOp (Op.call call).data, .ret (), false⟩ := .env ⟨_, rfl⟩
      exact ⟨_, ⟨_, Run.single trivial queued⟩, shows.sound.asynAddOp _,
        shows.view.asynAddOp (.call call)⟩
  | process net =>
      obtain ⟨op, rest, waiting, rfl⟩ := EventLoop.step_process taken
      rw [EventLoop.shown_processOp]
      have mirrors : Mirrors .outside evl.shown _ _ := mirrors_processOp codec rfl net waiting
      exact task_shown codec (.op net) shows mirrors
  | timers cid now nets =>
      obtain ⟨o, found, rfl⟩ := Option.map_eq_some_iff.mp taken
      have isConn : evl.shown.conns cid = some o.con := congrArg (Option.map Obj.con) found
      rw [EventLoop.shown_visit]
      exact task_shown codec (.timers cid now (fun _ => true) nets) shows
        (mirrors_processTimers rfl isConn now _ nets)
  | read cid net received =>
      obtain ⟨o, found, isRead⟩ := Option.bind_eq_some_iff.mp taken
      have isConn : evl.shown.conns cid = some o.con := congrArg (Option.map Obj.con) found
      obtain ⟨out, handled, rfl⟩ := Option.map_eq_some_iff.mp isRead
      obtain ⟨el', reached, shows'⟩ := task_shown codec (.read cid net received) shows
        (mirrors_readConn codec rfl isConn handled)
      split_ifs at shows' ⊢
      · rw [EventLoop.shown_delConn, EventLoop.shown_call]
        let failed := out.andThen fun c => c.onDisconnect net networkError
        have deletes : Mirrors .outside (evl.shown.after cid failed)
            (programs codec (.delConn failed.con.cid)) fun _ =>
              Shows .outside ((evl.shown.after cid failed).drop failed.con.cid) :=
          (mirrors_delConn _).discard fun _ _ => id
        obtain ⟨el'', reached', shows''⟩ := task_shown codec _ shows' deletes
        exact ⟨el'', reached.trans reached', shows''⟩
      · rw [EventLoop.shown_call]
        exact ⟨el', reached, shows'⟩

end Messages

/-- The loops have just started. -/
theorem shows_init : Shows .outside EventLoop.init.shown init := by
  refine ⟨sound_init, fun cid => .none, .nil, ?_, List.nodup_nil⟩
  exact fun k member => absurd member List.not_mem_nil

/-- Every run of the event loop is one of the loop whose operations are counted, which then has
the same connections, timers and operations. -/
theorem run_shown {codec : PeerCodec} {events : List EventLoop.Event} {evl : EventLoop}
    (run : Run (EventLoop.Step codec) anyStep EventLoop.init events evl) :
    ∃ el, Reachable (Step codec) start ⟨el, .ret (), false⟩ ∧ Shows .outside evl.shown el := by
  induction run with
  | refl => exact ⟨init, ⟨[], Run.refl⟩, shows_init⟩
  | snoc _ _ taken ih =>
      obtain ⟨el, reached, shows⟩ := ih
      obtain ⟨el', reached', shows'⟩ := step_shown codec shows taken
      exact ⟨el', reached.trans reached', shows'⟩

end SmartLoop

end GPush.ClientSdk
