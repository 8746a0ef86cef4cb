import GPush.EventLoop.Steady

/-!
# A batch of events

`epoll_wait` hands back a batch of pointers, and `EventLoop::run` calls the devices behind
them one after the other.  Between the batches, operators and timers run, and other threads
give new connections to the loop.
-/

namespace GPush.EventLoop

open GPush.Connection GPush.ConnectServer GPush.Json GPush.LoopBuf GPush.PushServer
  GPush.Transition

namespace Devices

/-- An event of `epoll_wait`: one whose `data.fd` is `m_ctlfd`, or one of the socket `fd` with
a pointer to a device. -/
inductive Ready
  | ctl
  | device (fd : Nat) (con : Handle) (epollin epollout : Bool)

/-- What happens on the loop.  Acceptors and connections come from other threads, and
`closeAllConnections` goes through `m_con_map` in the order `cons`. -/
inductive Happening
  | wait (batch : List Ready)
  | startListen (h : Handle) (d : Device)
  | addConnection (h : Handle) (d : Device)
  | closeConnection (conid : Int)
  | closeAllConnections (cons : List Handle)
  | sendMessage (conid : Int) (msg : Bytes)
  | sendCmd (conid cmd : Int) (body : Bytes)
  | checkTimer (h : Handle) (aliveMs : Int)
  | reconnectTimer (h : Handle)
  | keepAliveTimer (h : Handle)

section Loop

variable (prog : Program) (world : Nat → Answer)

/-! ## The batch -/

/-- The handler that `EventLoop::run` calls for an event, or `-1` without a call. -/
def callHandler (s : Devices) (con : Handle) (epollin epollout : Bool) : Int × Devices :=
  if epollin then s.handleRead prog world con
  else if epollout then s.handleWrite prog world con
  else (-1, s)

/-- What `EventLoop::run` does with one event. -/
def handleEvent (s : Devices) : Ready → Devices
  | .ctl => s
  | .device _ con epollin epollout =>
      -- `con->getAddr`
      match s.devices con with
      | none => s.fail (.dangling con)
      | some _ =>
          let (ret, s) := s.callHandler prog world con epollin epollout
          if s.fault.isSome then s
          else if ret < 0 then s.onFail world con
          else s

/-- The loop over the events in `EventLoop::run`. -/
def handleEvents : List Ready → Devices → Devices
  | [], s => s
  | ready :: batch, s =>
      let s := s.handleEvent prog world ready
      if s.fault.isSome then s else handleEvents batch s

/-! ## Operators and timers -/

/-- `EventLoop::addConnection`.  No `onCreate` of the three classes fails. -/
def addConnection (s : Devices) (h : Handle) (d : Device) : Devices :=
  let s := { s with devices := Function.update s.devices h (some d) }
  let noti := if d.kind.server.isSome then readEvent ||| writeEvent else readEvent
  let s := s.addNotify world h noti
  if s.conMap d.base.id = none then
    { s with conMap := Function.update s.conMap d.base.id (some h) }
  else
    s

/-- `Server::startListen`, as far as the loop of the acceptors is concerned. -/
def startListen (s : Devices) (h : Handle) (d : Device) : Devices :=
  addNotify world { s with devices := Function.update s.devices h (some d) } h readEvent

/-- `Connection::safeClose`. -/
def safeClose (s : Devices) (h : Handle) : Devices :=
  match s.devices h with
  | none => s.fail (.dangling h)
  | some d =>
      if d.base.sender.sendBuf.size = 0 then
        s.destroy world h
      else
        let a := world s.asked
        match d.base.sender.safeClose a.send a.epollCtl with
        | none => s.ask.fail .impossible
        | some (sender, _) => s.ask.modify h fun d => d.setSender sender

/-- `EventLoop::closeConnection`. -/
def closeConnection (s : Devices) (conid : Int) : Devices :=
  match s.conMap conid with
  | none => s
  | some con => s.safeClose world con

/-- `EventLoop::closeAllConnections`. -/
def closeAllConnections : List Handle → Devices → Devices
  | [], s => s
  | con :: cons, s =>
      let s := s.safeClose world con
      if s.fault.isSome then s else closeAllConnections cons s

/-- `EventLoop::sendMessage`. -/
def sendTo (s : Devices) (conid : Int) (msg : Bytes) : Devices :=
  match s.conMap conid with
  | none => s
  | some con =>
      let (ret, s) := s.sendMessage world con msg
      if s.fault.isSome then s
      else if ret < 0 then s.destroy world con
      else s

/-- `SendMsgOp::process`, with `CliCon::sendCmd`. -/
def sendCmd (s : Devices) (conid cmd : Int) (body : Bytes) : Devices :=
  match s.conMap conid with
  | none => s
  | some con => (s.sendMessage world con (constructPacket cmd body)).2

/-- `CliCon::handleTimer`. -/
def checkTimer (s : Devices) (h : Handle) (aliveMs : Int) : Devices :=
  match (s.devices h).map Device.kind with
  | none => s.fail (.dangling h)
  | some (.cliCon c) =>
      if c.handleTimer aliveMs (world s.asked).env.now then s.ask.safeClose world h else s.ask
  | some _ => s

/-- `Client::reconnect`. -/
def reconnect (s : Devices) (h : Handle) : Devices :=
  match (s.devices h).map Device.kind with
  | none => s.fail (.dangling h)
  | some (.svCon _ c) =>
      if c.client = .init then
        let connected :=
          match (world s.asked).connect with
          | none => s.ask
          | some fd => s.ask.modify h fun d =>
              (d.setFd (some fd)).mapKind (.mapSvCon fun c => { c with client := .connecting })
        connected.addNotify world h (readEvent ||| writeEvent)
      else
        s
  | some _ => s

/-- `SvCon::keepAlive`, which the timer calls on a connected client. -/
def keepAlive (s : Devices) (h : Handle) : Devices :=
  match (s.devices h).map Device.kind with
  | none => s.fail (.dangling h)
  | some (.svCon _ c) =>
      if c.client = .connected then (s.sendMessage world h (peerBytes keepaliveReq [])).2 else s
  | some _ => s

/-! ## Runs -/

/-- The loop after something has happened. -/
def next (s : Devices) : Happening → Devices
  | .wait batch => handleEvents prog world batch s
  | .startListen h d => s.startListen world h d
  | .addConnection h d => s.addConnection world h d
  | .closeConnection conid => s.closeConnection world conid
  | .closeAllConnections cons => closeAllConnections world cons s
  | .sendMessage conid msg => s.sendTo world conid msg
  | .sendCmd conid cmd body => s.sendCmd world conid cmd body
  | .checkTimer h aliveMs => s.checkTimer world h aliveMs
  | .reconnectTimer h => s.reconnect world h
  | .keepAliveTimer h => s.keepAlive world h

end Loop

/-- A batch of `epoll_wait`: it reports sockets that are registered, each of them once, with
what was registered. -/
def Waited (s : Devices) (batch : List Ready) : Prop :=
  (batch.filterMap fun
    | .ctl => none
    | .device fd _ _ _ => some fd).Nodup ∧
  ∀ fd con epollin epollout, .device fd con epollin epollout ∈ batch → s.epoll fd = some con

/-- What may happen.  A new device has an address of its own, and a client that has not been
connected has no socket; a timer goes with its connection. -/
def Allowed (s : Devices) : Happening → Prop
  | .wait batch => s.Waited batch
  | .startListen h d => s.devices h = none ∧ ¬d.kind.IsConnection
  | .addConnection h d =>
      s.devices h = none ∧ d.kind.IsConnection ∧ (d.kind.Idle → d.base.fd = none)
  | .closeAllConnections cons => cons.Nodup ∧ ∀ con ∈ cons, ∃ id, s.conMap id = some con
  | .checkTimer h _ | .reconnectTimer h | .keepAliveTimer h => s.Alive h
  | _ => True

/-- The steps of a loop that has not ended; each finds its own answers. -/
def Step (prog : Program) : LTS Devices ((Nat → Answer) × Happening) := fun s event t =>
  s.fault = none ∧ s.Allowed event.2 ∧ t = s.next prog event.1 event.2

/-! ## One event -/

/-- The device that an event points to. -/
def Ready.pointer : Ready → Option Handle
  | .ctl => none
  | .device _ con _ _ => some con

section Run

variable {prog : Program} {world : Nat → Answer} {s t : Devices} {h h' : Handle}

theorem steady_callHandler (alive : s.Alive h) (epollin epollout : Bool) :
    Steady s (s.callHandler prog world h epollin epollout).2 := by
  rw [callHandler]
  split_ifs
  · exact steady_handleRead alive
  · exact steady_handleWrite alive
  · exact .refl s

/-- An event whose device is alive is handled without a fault. -/
theorem sound_handleEvent (sound : s.Sound) {ready : Ready}
    (alive : ∀ con, ready.pointer = some con → s.Alive con) :
    (s.handleEvent prog world ready).Sound := by
  cases ready with
  | ctl => exact sound
  | device fd con epollin epollout =>
      have aliveCon := alive con rfl
      have called : Steady s (s.callHandler prog world con epollin epollout).2 :=
        steady_callHandler aliveCon epollin epollout
      obtain ⟨d, found⟩ := alive_iff.mp aliveCon
      rw [handleEvent, found]
      dsimp only
      split_ifs
      · exact called.sound sound
      · exact sound_onFail (called.sound sound) ((called.alive con).mpr aliveCon)
      · exact called.sound sound

/-- It destroys no device but the one that the event points to. -/
theorem alive_handleEvent {ready : Ready} (other : ready.pointer ≠ some h) :
    (s.handleEvent prog world ready).Alive h ↔ s.Alive h := by
  cases ready with
  | ctl => exact Iff.rfl
  | device fd con epollin epollout =>
      have distinct : h ≠ con := fun same => other (congrArg some same.symm)
      rw [handleEvent]
      split
      · exact Iff.rfl
      · rename_i d found
        have called : Steady s (s.callHandler prog world con epollin epollout).2 :=
          steady_callHandler (alive_of_found found) epollin epollout
        dsimp only
        split_ifs
        · exact called.alive h
        · exact (alive_onFail distinct).trans (called.alive h)
        · exact called.alive h

/-! ## The whole batch -/

/-- What `epoll_wait` hands back points to devices that are alive, each time to another
one. -/
theorem pointers_of_waited (sound : s.Sound) {batch : List Ready} (waited : s.Waited batch) :
    (batch.filterMap Ready.pointer).Nodup ∧
      ∀ con ∈ batch.filterMap Ready.pointer, s.Alive con := by
  induction batch with
  | nil => exact ⟨List.nodup_nil, by simp⟩
  | cons ready batch ih =>
      cases ready with
      | ctl =>
          apply ih
          refine ⟨waited.1, fun fd con epollin epollout member => ?_⟩
          exact waited.2 fd con epollin epollout (List.mem_cons_of_mem _ member)
      | device fd con epollin epollout =>
          obtain ⟨distinct, registered⟩ := waited
          have here := registered fd con epollin epollout List.mem_cons_self
          have rest (fd con epollin epollout) (member : .device fd con epollin epollout ∈ batch) :
              s.epoll fd = some con :=
            registered fd con epollin epollout (List.mem_cons_of_mem _ member)
          obtain ⟨unused, distinct⟩ := List.nodup_cons.mp distinct
          obtain ⟨nodup, alive⟩ := ih ⟨distinct, rest⟩
          obtain ⟨d, found, fdEq⟩ := sound.registered fd con here
          constructor
          · apply List.nodup_cons.mpr ⟨_, nodup⟩
            -- a device has one socket
            intro member
            obtain ⟨ready, inBatch, pointerEq⟩ := List.mem_filterMap.mp member
            cases ready with
            | ctl => cases pointerEq
            | device fd' con' epollin' epollout' =>
                obtain rfl := Option.some.inj pointerEq
                obtain ⟨d', found', fdEq'⟩ :=
                  sound.registered fd' con' (rest fd' con' epollin' epollout' inBatch)
                obtain rfl := Option.some.inj (found.symm.trans found')
                obtain rfl := Option.some.inj (fdEq.symm.trans fdEq')
                exact unused (List.mem_filterMap.mpr ⟨_, inBatch, rfl⟩)
          · intro con' member
            rcases List.mem_cons.mp member with rfl | later
            · exact alive_of_found found
            · exact alive con' later

/-- The run lemma over the events: each of them finds its device alive. -/
theorem sound_handleEvents {batch : List Ready} (sound : s.Sound)
    (distinct : (batch.filterMap Ready.pointer).Nodup)
    (alive : ∀ con ∈ batch.filterMap Ready.pointer, s.Alive con) :
    (handleEvents prog world batch s).Sound := by
  induction batch generalizing s with
  | nil => exact sound
  | cons ready batch ih =>
      have later (con) (member : con ∈ batch.filterMap Ready.pointer) :
          con ∈ (ready :: batch).filterMap Ready.pointer := by
        rw [List.filterMap_cons]
        split
        · exact member
        · exact List.mem_cons_of_mem _ member
      have handled : (s.handleEvent prog world ready).Sound := by
        apply sound_handleEvent sound
        intro con pointerEq
        apply alive con
        rw [List.filterMap_cons, pointerEq]
        exact List.mem_cons_self
      rw [handleEvents]
      split_ifs
      · exact handled
      · apply ih handled
        · rw [List.filterMap_cons] at distinct
          split at distinct
          · exact distinct
          · exact (List.nodup_cons.mp distinct).2
        · intro con member
          apply (alive_handleEvent _).mpr (alive con (later con member))
          intro pointerEq
          rw [List.filterMap_cons, pointerEq] at distinct
          exact (List.nodup_cons.mp distinct).1 member

/-! ## Between the batches -/

/-- A device comes to an address that is not in use. -/
theorem sound_enter (sound : s.Sound) {d : Device} (unused : s.devices h = none)
    (idle : d.kind.Idle → d.base.fd = none) :
    Sound { s with devices := Function.update s.devices h (some d) } := by
  have kept {h' : Handle} {P : Device → Prop} (fits : ∃ d, s.devices h' = some d ∧ P d) :
      ∃ d', Function.update s.devices h (some d) h' = some d' ∧ P d' := by
    obtain ⟨d', found, holds⟩ := fits
    have other : h' ≠ h := by
      rintro rfl
      rw [found] at unused
      cases unused
    exact ⟨d', by rw [Function.update_of_ne other, found], holds⟩
  refine ⟨?_, ?_, ?_, ?_, sound.unbroken⟩
  · exact fun fd h' inTable => kept (sound.registered fd h' inTable)
  · exact fun id h' inTable => kept (sound.mapped id h' inTable)
  · exact fun k h' inTable => kept (sound.listed k h' inTable)
  · intro h' d' found
    rcases Table.update_eq_some.mp found with ⟨-, new⟩ | ⟨-, old⟩
    · obtain rfl := Option.some.inj new
      exact idle
    · exact sound.idle h' d' old

theorem exists_addNotify {noti : Nat} {P : Device → Prop}
    (kept : ∀ d sender, P d → P (d.setSender sender))
    (fits : ∃ d, s.devices h' = some d ∧ P d) :
    ∃ d, (s.addNotify world h noti).devices h' = some d ∧ P d := by
  rw [addNotify]
  split
  · exact fits
  · split_ifs
    · exact exists_modify (fun d _ holds => kept d _ holds) fits
    · exact fits

theorem sound_addConnection (sound : s.Sound) {d : Device} (unused : s.devices h = none)
    (connection : d.kind.IsConnection) (idle : d.kind.Idle → d.base.fd = none) :
    (s.addConnection world h d).Sound := by
  have entered := sound_enter sound unused idle
  have registered (noti : Nat) : Sound (addNotify world
      { s with devices := Function.update s.devices h (some d) } h noti) :=
    steady_addNotify.sound entered
  rw [addConnection]
  split_ifs
  all_goals first
    | exact registered _
    | refine ⟨(registered _).registered, ?_, (registered _).listed, (registered _).idle,
        (registered _).unbroken⟩
      intro id h' inTable
      rcases Table.update_eq_some.mp inTable with ⟨rfl, new⟩ | ⟨-, old⟩
      · obtain rfl := Option.some.inj new
        apply exists_addNotify (fun _ _ holds => holds)
        exact ⟨d, Function.update_self h (some d) s.devices, connection, rfl⟩
      · exact (registered _).mapped id h' old

theorem alive_safeClose (other : h' ≠ h) : (s.safeClose world h).Alive h' ↔ s.Alive h' := by
  rw [safeClose]
  split
  · exact Iff.rfl
  · split_ifs
    · exact alive_destroy other
    · dsimp only
      split
      · exact Iff.rfl
      · exact alive_modify

theorem sound_safeClose (sound : s.Sound) (alive : s.Alive h) :
    (s.safeClose world h).Sound := by
  obtain ⟨d, found⟩ := alive_iff.mp alive
  rw [safeClose, found]
  dsimp only
  split_ifs
  · exact sound_destroy sound alive
  · split
    · exact steady_ask_impossible.sound sound
    · exact (steady_ask_modify fun _ _ => .setSender _).sound sound

/-- What the map of connections has is alive. -/
theorem alive_of_mapped (sound : s.Sound) {id : Int} (inTable : s.conMap id = some h) :
    s.Alive h := by
  obtain ⟨d, found, -⟩ := sound.mapped id h inTable
  exact alive_of_found found

theorem sound_closeAllConnections {cons : List Handle} (sound : s.Sound) (distinct : cons.Nodup)
    (alive : ∀ con ∈ cons, s.Alive con) : (closeAllConnections world cons s).Sound := by
  induction cons generalizing s with
  | nil => exact sound
  | cons con cons ih =>
      rw [List.forall_mem_cons] at alive
      obtain ⟨unlike, distinct⟩ := List.nodup_cons.mp distinct
      have closed : (s.safeClose world con).Sound := sound_safeClose sound alive.1
      rw [closeAllConnections]
      split_ifs
      · exact closed
      · apply ih closed distinct
        intro con' member
        apply (alive_safeClose _).mpr (alive.2 con' member)
        rintro rfl
        exact unlike member

theorem sound_sendTo (sound : s.Sound) (conid : Int) (msg : Bytes) :
    (s.sendTo world conid msg).Sound := by
  rw [sendTo]
  split
  · exact sound
  · rename_i con inTable
    have alive := alive_of_mapped sound inTable
    have sent : Steady s (s.sendMessage world con msg).2 := steady_sendMessage alive msg
    dsimp only
    split_ifs
    · exact sent.sound sound
    · exact sound_destroy (sent.sound sound) ((sent.alive con).mpr alive)
    · exact sent.sound sound

theorem sound_checkTimer (sound : s.Sound) (alive : s.Alive h) (aliveMs : Int) :
    (s.checkTimer world h aliveMs).Sound := by
  obtain ⟨d, found⟩ := alive_iff.mp alive
  rw [checkTimer, found]
  cases kindEq : d.kind with
  | cliCon c =>
      rw [Option.map_some, kindEq]
      dsimp only
      split_ifs
      · exact sound_safeClose (steady_ask.sound sound) alive
      · exact steady_ask.sound sound
  | _ =>
      rw [Option.map_some, kindEq]
      exact sound

/-- A client that is idle has no socket, so no table points to an old one. -/
theorem sound_connect (sound : s.Sound) {d : Device} (found : s.devices h = some d)
    (idle : d.kind.Idle) (fd : Nat) :
    (s.modify h fun d => (d.setFd (some fd)).mapKind
      (.mapSvCon fun c => { c with client := .connecting })).Sound := by
  have noFd : d.base.fd = none := sound.idle h d found idle
  refine ⟨?_, ?_, ?_, ?_, sound.unbroken⟩
  · intro fd' h' inTable
    apply exists_modify _ (sound.registered fd' h' inTable)
    intro d' found' fdEq
    obtain rfl := Option.some.inj (found.symm.trans found')
    rw [noFd] at fdEq
    cases fdEq
  · intro id h' inTable
    apply exists_modify _ (sound.mapped id h' inTable)
    intro d' _ holds
    exact ⟨Kind.isConnection_mapSvCon.mpr holds.1, holds.2⟩
  · intro k h' inTable
    apply exists_modify _ (sound.listed k h' inTable)
    intro d' _ serverEq
    have same : (Kind.mapSvCon (fun c => { c with client := .connecting }) d'.kind).server =
        d'.kind.server := by
      apply Kind.server_mapSvCon
      intro c
      rfl
    exact same.trans serverEq
  · intro h' d' found' nowIdle
    rw [devices_modify] at found'
    split_ifs at found'
    · rcases Option.map_eq_some_iff.mp found' with ⟨d, -, rfl⟩
      have connecting (kind : Kind) :
          ¬(Kind.mapSvCon (fun c => { c with client := .connecting }) kind).Idle := by
        cases kind with
        | svCon span c => exact fun same => nomatch same
        | _ => exact id
      exact absurd nowIdle (connecting d.kind)
    · exact sound.idle h' d' found' nowIdle

theorem sound_reconnect (sound : s.Sound) (alive : s.Alive h) :
    (s.reconnect world h).Sound := by
  obtain ⟨d, found⟩ := alive_iff.mp alive
  rw [reconnect, found]
  cases kindEq : d.kind with
  | svCon span c =>
      rw [Option.map_some, kindEq]
      dsimp only
      split_ifs with idle
      · apply steady_addNotify.sound
        cases (world s.asked).connect with
        | none => exact steady_ask.sound sound
        | some fd =>
            have isIdle : d.kind.Idle := by
              rw [kindEq]
              exact idle
            exact sound_connect (steady_ask.sound sound) found isIdle fd
      · exact sound
  | _ =>
      rw [Option.map_some, kindEq]
      exact sound

theorem sound_keepAlive (sound : s.Sound) (alive : s.Alive h) : (s.keepAlive world h).Sound := by
  obtain ⟨d, found⟩ := alive_iff.mp alive
  rw [keepAlive, found]
  cases kindEq : d.kind with
  | svCon span c =>
      rw [Option.map_some, kindEq]
      dsimp only
      split_ifs
      · exact (steady_sendMessage alive _).sound sound
      · exact sound
  | _ =>
      rw [Option.map_some, kindEq]
      exact sound

/-! ## Runs -/

theorem sound_init : init.Sound := by
  constructor
  · intro fd h inTable
    cases inTable
  · intro id h inTable
    cases inTable
  · intro k h inTable
    cases inTable
  · intro h d found
    cases found
  · intro h broken
    cases broken

/-- The step lemma. -/
theorem sound_next (sound : s.Sound) {happening : Happening} (allowed : s.Allowed happening) :
    (s.next prog world happening).Sound := by
  cases happening with
  | wait batch =>
      obtain ⟨distinct, alive⟩ := pointers_of_waited sound allowed
      exact sound_handleEvents sound distinct alive
  | startListen h d =>
      obtain ⟨unused, noConnection⟩ := allowed
      apply steady_addNotify.sound (sound_enter sound unused _)
      intro idle
      cases kindEq : d.kind with
      | acceptor _ _ =>
          rw [kindEq] at idle
          exact idle.elim
      | _ =>
          rw [kindEq] at noConnection
          exact absurd trivial noConnection
  | addConnection h d => exact sound_addConnection sound allowed.1 allowed.2.1 allowed.2.2
  | closeConnection conid =>
      rw [next, closeConnection]
      split
      · exact sound
      · rename_i con inTable
        exact sound_safeClose sound (alive_of_mapped sound inTable)
  | closeAllConnections cons =>
      apply sound_closeAllConnections sound allowed.1
      intro con member
      obtain ⟨id, inTable⟩ := allowed.2 con member
      exact alive_of_mapped sound inTable
  | sendMessage conid msg => exact sound_sendTo sound conid msg
  | sendCmd conid cmd body =>
      rw [next, sendCmd]
      split
      · exact sound
      · rename_i con inTable
        exact (steady_sendMessage (alive_of_mapped sound inTable) _).sound sound
  | checkTimer h aliveMs => exact sound_checkTimer sound allowed aliveMs
  | reconnectTimer h => exact sound_reconnect sound allowed
  | keepAliveTimer h => exact sound_keepAlive sound allowed

/-- The run lemma. -/
theorem sound_of_reachable (reached : Reachable (Step prog) init s) : s.Sound :=
  reached.invariant sound_init fun _ _ _ sound ⟨_, allowed, nextEq⟩ =>
    nextEq ▸ sound_next sound allowed

end Run

/-! ## The property -/

/-- No batch of `epoll_wait` has a device called that has been destroyed, be it by a handler
or by `onFail`: no handler destroys a device, and `onFail` destroys none but its own. -/
theorem calls_find_devices_alive (prog : Program) :
    (∀ s, Reachable (Step prog) init s → ∀ world batch, s.Waited batch →
      ∀ h, (handleEvents prog world batch s).fault ≠ some (.dangling h)) ∧
    (∀ (s : Devices) world h, s.Alive h → ∀ h',
      ((s.handleRead prog world h).2.Alive h' ↔ s.Alive h') ∧
        ((s.handleWrite prog world h).2.Alive h' ↔ s.Alive h')) ∧
    ∀ (s : Devices) world h h', h' ≠ h → ((s.onFail world h).Alive h' ↔ s.Alive h') := by
  refine ⟨?_, ?_, ?_⟩
  · intro s reached world batch waited
    have sound := sound_of_reachable reached
    obtain ⟨distinct, alive⟩ := pointers_of_waited sound waited
    exact (sound_handleEvents sound distinct alive).unbroken
  · intro s world h alive h'
    exact ⟨(steady_handleRead alive).alive h', (steady_handleWrite alive).alive h'⟩
  · intro s world h h' other
    exact alive_onFail other

/-- A push server that is the server 1. -/
def sampleProgram : Program :=
  ⟨⟨wireCodec, fun _ => none, fun _ => none, fun _ => []⟩, ⟨1, 1⟩, 1, 1, fun _ => ⟨0, []⟩⟩

/-- The peers have closed their connections. -/
def peersClose (_ : Nat) : Answer :=
  ⟨[.closed], 0, [], ⟨0, 0⟩, [], true, none, sampleEnv 0, none⟩

/-- A loop with two connections of `ListenCon`. -/
def pairOfCons : Devices :=
  (init.addConnection peersClose 0 (Factory.lConFactory.createConnection 5 1)).addConnection
    peersClose 1 (Factory.lConFactory.createConnection 6 2)

theorem reachable_pairOfCons : Reachable (Step sampleProgram) init pairOfCons := by
  have enters {s : Devices} (running : s.fault = none) {h : Handle} (unused : s.devices h = none)
      (fd : Nat) (id : Int) : Step sampleProgram s
        (peersClose, .addConnection h (Factory.lConFactory.createConnection fd id))
        (s.addConnection peersClose h (Factory.lConFactory.createConnection fd id)) :=
    ⟨running, ⟨unused, trivial, fun idle => nomatch idle⟩, rfl⟩
  exact ⟨_, (Run.single trivial (enters rfl rfl 5 1)).snoc trivial (enters rfl rfl 6 2)⟩

/-- The first of two connections fails and is destroyed before the second one is called. -/
theorem calls_find_devices_alive_pair :
    ((pairOfCons.handleEvent sampleProgram peersClose (.device 5 0 false false)).devices 0) = none ∧
      (handleEvents sampleProgram peersClose
        [.device 5 0 false false, .device 6 1 true false] pairOfCons).fault ≠
          some (.dangling 1) := by
  refine ⟨rfl, ?_⟩
  apply (calls_find_devices_alive sampleProgram).1 pairOfCons reachable_pairOfCons
  refine ⟨by decide, ?_⟩
  intro fd con epollin epollout member
  rcases List.mem_cons.mp member with first | member
  · cases first
    rfl
  · cases List.mem_singleton.mp member
    rfl

end Devices

end GPush.EventLoop
