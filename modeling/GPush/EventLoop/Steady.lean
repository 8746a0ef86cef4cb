import GPush.EventLoop.Devices

/-!
# What the handlers leave alive

No handler of the four classes destroys a device, whatever it receives and whatever the
world answers, and each of them keeps the tables of the loop free of dangling pointers.
-/

namespace GPush.EventLoop

open GPush.Connection GPush.ConnectServer GPush.Json GPush.LoopBuf GPush.PushServer

/-- The device has kept what the tables of the loop go by.  A client that has become idle
has no socket. -/
structure Device.Like (d d' : Device) : Prop where
  fd : d'.base.fd = d.base.fd
  id : d'.base.id = d.base.id
  server : d'.kind.server = d.kind.server
  connection : d'.kind.IsConnection ↔ d.kind.IsConnection
  idle : d'.kind.Idle → d.kind.Idle ∨ d.base.fd = none

namespace Kind

@[simp]
theorem server_setCliCon {c : CliCon} {kind : Kind} :
    (setCliCon c kind).server = kind.server := by
  cases kind <;> rfl

@[simp]
theorem isConnection_setCliCon {c : CliCon} {kind : Kind} :
    (setCliCon c kind).IsConnection ↔ kind.IsConnection := by
  cases kind <;> rfl

@[simp]
theorem idle_setCliCon {c : CliCon} {kind : Kind} : (setCliCon c kind).Idle ↔ kind.Idle := by
  cases kind <;> rfl

theorem server_mapSvCon {f : SvCon → SvCon} (same : ∀ c, (f c).conServId = c.conServId)
    {kind : Kind} : (mapSvCon f kind).server = kind.server := by
  cases kind with
  | svCon span c => exact congrArg some (same c)
  | _ => rfl

@[simp]
theorem isConnection_mapSvCon {f : SvCon → SvCon} {kind : Kind} :
    (mapSvCon f kind).IsConnection ↔ kind.IsConnection := by
  cases kind <;> rfl

theorem idle_mapSvCon {f : SvCon → SvCon} (same : ∀ c, (f c).client = .init → c.client = .init)
    {kind : Kind} (idle : (mapSvCon f kind).Idle) : kind.Idle := by
  cases kind with
  | svCon span c => exact same c idle
  | _ => exact idle

end Kind

namespace Device.Like

variable {d : Device}

theorem setBuf (buf : LoopBuf) : Like d (d.setBuf buf) :=
  ⟨rfl, rfl, rfl, Iff.rfl, Or.inl⟩

theorem setSender (sender : Sender) : Like d (d.setSender sender) :=
  ⟨rfl, rfl, rfl, Iff.rfl, Or.inl⟩

theorem setBufs (buf : LoopBuf) (sender : Sender) : Like d ((d.setBuf buf).setSender sender) :=
  ⟨rfl, rfl, rfl, Iff.rfl, Or.inl⟩

theorem setCliCon (c : CliCon) : Like d (d.mapKind (.setCliCon c)) :=
  ⟨rfl, rfl, Kind.server_setCliCon, Kind.isConnection_setCliCon,
    fun idle => Or.inl (Kind.idle_setCliCon.mp idle)⟩

theorem mapSvCon {f : SvCon → SvCon} (sameServer : ∀ c, (f c).conServId = c.conServId)
    (sameStatus : ∀ c, (f c).client = .init → c.client = .init) :
    Like d (d.mapKind (.mapSvCon f)) :=
  ⟨rfl, rfl, Kind.server_mapSvCon sameServer, Kind.isConnection_mapSvCon,
    fun idle => Or.inl (Kind.idle_mapSvCon sameStatus idle)⟩

/-- A client without a socket may become idle. -/
theorem disconnected (noFd : d.base.fd = none) :
    Like d (d.mapKind (.mapSvCon fun c => { c with client := .init })) where
  fd := rfl
  id := rfl
  server := by
    apply Kind.server_mapSvCon
    intro c
    rfl
  connection := Kind.isConnection_mapSvCon
  idle _ := Or.inr noFd

end Device.Like

namespace Devices

/-- No table of the loop has a pointer to a device that has been destroyed, and no call has
been made through one. -/
structure Sound (s : Devices) : Prop where
  registered : ∀ fd h, s.epoll fd = some h → ∃ d, s.devices h = some d ∧ d.base.fd = some fd
  mapped : ∀ id h, s.conMap id = some h →
    ∃ d, s.devices h = some d ∧ d.kind.IsConnection ∧ d.base.id = id
  listed : ∀ k h, s.svcons k = some h → ∃ d, s.devices h = some d ∧ d.kind.server = some k
  idle : ∀ h d, s.devices h = some d → d.kind.Idle → d.base.fd = none
  unbroken : ∀ h, s.fault ≠ some (.dangling h)

/-- What a handler may do: every device is alive afterwards that was alive before, no other
one is, and the tables stay sound. -/
structure Steady (s t : Devices) : Prop where
  alive : ∀ h, t.Alive h ↔ s.Alive h
  sound : s.Sound → t.Sound

variable {s t u : Devices} {h h' : Handle}

namespace Steady

theorem refl (s : Devices) : Steady s s := ⟨fun _ => Iff.rfl, id⟩

theorem trans (first : Steady s t) (second : Steady t u) : Steady s u :=
  ⟨fun h => (second.alive h).trans (first.alive h), fun sound => second.sound (first.sound sound)⟩

end Steady

/-! ## Changes that keep the devices -/

theorem alive_iff : s.Alive h ↔ ∃ d, s.devices h = some d := Option.isSome_iff_exists

theorem alive_of_found {d : Device} (found : s.devices h = some d) : s.Alive h :=
  alive_iff.mpr ⟨d, found⟩

theorem devices_modify (s : Devices) (h h' : Handle) (f : Device → Device) :
    (s.modify h f).devices h' = if h' = h then (s.devices h').map f else s.devices h' := by
  by_cases same : h' = h
  · subst same
    simp [modify]
  · simp [modify, same]

theorem alive_modify {f : Device → Device} : (s.modify h f).Alive h' ↔ s.Alive h' := by
  rw [Alive, devices_modify, Alive]
  split_ifs
  · rw [Option.isSome_map]
  · rfl

/-- A device that a table points to is still one that fits. -/
theorem exists_modify {f : Device → Device} {P : Device → Prop}
    (kept : ∀ d, s.devices h = some d → P d → P (f d))
    (fits : ∃ d, s.devices h' = some d ∧ P d) :
    ∃ d, (s.modify h f).devices h' = some d ∧ P d := by
  rcases fits with ⟨d, found, holds⟩
  by_cases same : h' = h
  · subst same
    exact ⟨f d, by simp [devices_modify, found], kept d found holds⟩
  · exact ⟨d, by simp [devices_modify, same, found], holds⟩

theorem steady_modify {f : Device → Device}
    (like : ∀ d, s.devices h = some d → Device.Like d (f d)) : Steady s (s.modify h f) := by
  refine ⟨fun _ => alive_modify, fun sound => ⟨?_, ?_, ?_, ?_, sound.unbroken⟩⟩
  · intro fd h' inTable
    apply exists_modify _ (sound.registered fd h' inTable)
    intro d found fdEq
    exact (like d found).fd.trans fdEq
  · intro id h' inTable
    apply exists_modify _ (sound.mapped id h' inTable)
    rintro d found ⟨connection, idEq⟩
    exact ⟨(like d found).connection.mpr connection, (like d found).id.trans idEq⟩
  · intro k h' inTable
    apply exists_modify _ (sound.listed k h' inTable)
    intro d found serverEq
    exact (like d found).server.trans serverEq
  · intro h' d found idle
    rw [devices_modify] at found
    split_ifs at found with same
    · subst same
      rcases Option.map_eq_some_iff.mp found with ⟨d, before, rfl⟩
      rw [(like d before).fd]
      rcases (like d before).idle idle with idle | noFd
      · exact sound.idle h' d before idle
      · exact noFd
    · exact sound.idle h' d found idle

theorem steady_ask : Steady s s.ask :=
  ⟨fun _ => Iff.rfl, fun ⟨registered, mapped, listed, idle, unbroken⟩ =>
    ⟨registered, mapped, listed, idle, unbroken⟩⟩

theorem steady_record {effects : List Effect} : Steady s (s.record h effects) :=
  ⟨fun _ => Iff.rfl, fun ⟨registered, mapped, listed, idle, unbroken⟩ =>
    ⟨registered, mapped, listed, idle, unbroken⟩⟩

theorem steady_dispatched {given : List (Int × Device)} :
    Steady s { s with dispatched := given } :=
  ⟨fun _ => Iff.rfl, fun ⟨registered, mapped, listed, idle, unbroken⟩ =>
    ⟨registered, mapped, listed, idle, unbroken⟩⟩

/-- A run that ends for another reason. -/
theorem steady_fail {fault : Fault} (other : ∀ h, fault ≠ .dangling h) :
    Steady s (s.fail fault) := by
  refine ⟨fun _ => Iff.rfl, fun ⟨registered, mapped, listed, idle, unbroken⟩ =>
    ⟨registered, mapped, listed, idle, ?_⟩⟩
  intro h broken
  rcases Option.or_eq_some_iff.mp broken with before | ⟨-, new⟩
  · exact unbroken h before
  · exact other h (Option.some.inj new)

theorem steady_impossible : Steady s (s.fail .impossible) := steady_fail fun _ => by simp

theorem steady_uncaught : Steady s (s.fail .uncaught) := steady_fail fun _ => by simp

theorem steady_ask_modify {f : Device → Device}
    (like : ∀ d, s.devices h = some d → Device.Like d (f d)) : Steady s (s.ask.modify h f) :=
  steady_ask.trans (steady_modify like)

theorem steady_ask_impossible : Steady s (s.ask.fail .impossible) :=
  steady_ask.trans steady_impossible

/-! ## The tables -/

theorem steady_delServer {k : Int} : Steady s (s.delServer k) := by
  refine ⟨fun _ => Iff.rfl, fun sound => ⟨sound.registered, sound.mapped, ?_, sound.idle,
    sound.unbroken⟩⟩
  intro k' h inTable
  exact sound.listed k' h (Table.update_none_eq_some.mp inTable).2

theorem steady_delConnection {id : Int} : Steady s (s.delConnection id) := by
  refine ⟨fun _ => Iff.rfl, fun sound => ⟨sound.registered, ?_, sound.listed, sound.idle,
    sound.unbroken⟩⟩
  intro id' h inTable
  exact sound.mapped id' h (Table.update_none_eq_some.mp inTable).2

/-- A connection enters the table under its server. -/
theorem steady_addServer {k : Int} (own : ∃ d, s.devices h = some d ∧ d.kind.server = some k) :
    Steady s (s.addServer k h) := by
  refine ⟨fun _ => Iff.rfl, fun sound => ⟨sound.registered, sound.mapped, ?_, sound.idle,
    sound.unbroken⟩⟩
  intro k' h' inTable
  rcases Table.update_eq_some.mp inTable with ⟨rfl, new⟩ | ⟨-, old⟩
  · obtain rfl := Option.some.inj new
    exact own
  · exact sound.listed k' h' old

theorem steady_clearEpoll {fd : Nat} :
    Steady s { s with epoll := Function.update s.epoll fd none } := by
  refine ⟨fun _ => Iff.rfl, fun sound => ⟨?_, sound.mapped, sound.listed, sound.idle,
    sound.unbroken⟩⟩
  intro fd' h inTable
  exact sound.registered fd' h (Table.update_none_eq_some.mp inTable).2

theorem fd_of_bind {fd : Nat} (found : ((s.devices h).bind fun d => d.base.fd) = some fd) :
    ∃ d, s.devices h = some d ∧ d.base.fd = some fd :=
  Option.bind_eq_some_iff.mp found

theorem steady_clearNotify {world : Nat → Answer} : Steady s (s.clearNotify world h) := by
  rw [clearNotify]
  split
  · exact steady_ask
  · split_ifs
    · exact (steady_ask_modify fun d _ => .setSender _).trans steady_clearEpoll
    · exact steady_ask

/-- A registered socket is that of the device. -/
theorem steady_addNotify {world : Nat → Answer} {noti : Nat} :
    Steady s (s.addNotify world h noti) := by
  rw [addNotify]
  split
  · exact steady_ask
  · rename_i fd found
    split_ifs
    · have quiet : Steady s (s.ask.modify h fun d =>
          d.setSender { d.base.sender with noti := noti }) := steady_ask_modify fun d _ => .setSender _
      refine ⟨quiet.alive, fun sound => ?_⟩
      obtain ⟨registered, mapped, listed, idle, unbroken⟩ := quiet.sound sound
      refine ⟨?_, mapped, listed, idle, unbroken⟩
      intro fd' h' inTable
      rcases Table.update_eq_some.mp inTable with ⟨rfl, new⟩ | ⟨-, old⟩
      · obtain rfl := Option.some.inj new
        exact exists_modify (fun _ _ fdEq => fdEq) (fd_of_bind found)
      · exact registered fd' h' old
    · exact steady_ask

theorem steady_modifyNotify {world : Nat → Answer} {noti : Nat} :
    Steady s (s.modifyNotify world h noti) :=
  steady_ask_modify fun _ _ => .setSender _

/-- A socket that is closed takes its registration with it. -/
theorem steady_closeFd : Steady s (s.closeFd h) := by
  rw [closeFd]
  split
  · exact .refl s
  · rename_i fd found
    refine ⟨fun _ => alive_modify, fun sound => ⟨?_, ?_, ?_, ?_, sound.unbroken⟩⟩
    · intro fd' h' inTable
      rcases Table.update_none_eq_some.mp inTable with ⟨otherFd, old⟩
      obtain ⟨d, found', fdEq'⟩ := sound.registered fd' h' old
      obtain ⟨d', found'', fdEq''⟩ := fd_of_bind found
      have other : h' ≠ h := by
        rintro rfl
        obtain rfl := Option.some.inj (found'.symm.trans found'')
        exact otherFd (Option.some.inj (fdEq'.symm.trans fdEq''))
      exact ⟨d, by simp [devices_modify, other, found'], fdEq'⟩
    · intro id h' inTable
      exact exists_modify (fun _ _ holds => holds) (sound.mapped id h' inTable)
    · intro k h' inTable
      exact exists_modify (fun _ _ holds => holds) (sound.listed k h' inTable)
    · intro h' d found' idle
      rw [devices_modify] at found'
      split_ifs at found' with same
      · rcases Option.map_eq_some_iff.mp found' with ⟨d, -, rfl⟩
        rfl
      · exact sound.idle h' d found' idle

theorem fd_closeFd {d : Device} (found : (s.closeFd h).devices h = some d) :
    d.base.fd = none := by
  rw [closeFd] at found
  split at found
  · rename_i noFd
    rw [found] at noFd
    exact noFd
  · rw [devices_modify, if_pos rfl] at found
    rcases Option.map_eq_some_iff.mp found with ⟨d, -, rfl⟩
    rfl

theorem steady_clearBufs : Steady s (s.clearBufs h) := by
  rw [clearBufs]
  split
  · exact .refl s
  · split
    · exact steady_modify fun _ _ => .setBufs _ _
    · exact steady_impossible

/-- Clearing the buffers leaves the sockets alone. -/
theorem fd_clearBufs {d : Device} (noFd : ∀ d, s.devices h = some d → d.base.fd = none)
    (found : (s.clearBufs h).devices h = some d) : d.base.fd = none := by
  rw [clearBufs] at found
  split at found
  · exact noFd d found
  · split at found
    · rw [devices_modify, if_pos rfl] at found
      rcases Option.map_eq_some_iff.mp found with ⟨d, before, rfl⟩
      exact noFd d before
    · exact noFd d found

section Handlers

variable {prog : Program} {world : Nat → Answer}

/-- Disconnecting destroys nothing. -/
theorem steady_disconnect (alive : s.Alive h) : Steady s (s.disconnect world h) := by
  obtain ⟨d, found⟩ := alive_iff.mp alive
  rw [disconnect, found]
  have unlisted : Steady s ((d.kind.server.map s.delServer).getD s) := by
    cases d.kind.server with
    | none => exact .refl s
    | some k => exact steady_delServer
  have closed := (unlisted.trans (steady_clearNotify : Steady _ (clearNotify world _ h))).trans
    (steady_closeFd (h := h))
  refine (closed.trans steady_clearBufs).trans (steady_modify fun d found => ?_)
  exact .disconnected (fd_clearBufs (fun _ => fd_closeFd) found)

/-! ## The handlers -/

theorem steady_sendMessage (alive : s.Alive h) (msg : Bytes) :
    Steady s (s.sendMessage world h msg).2 := by
  obtain ⟨d, found⟩ := alive_iff.mp alive
  rw [sendMessage, found]
  dsimp only
  cases d.base.sender.sendMessage msg (world s.asked).send (world s.asked).epollCtl with
  | none => exact steady_ask_impossible
  | some answer => exact steady_ask_modify fun _ _ => .setSender _

theorem steady_handleCliPacket (alive : s.Alive h) (id : Int) (c : CliCon) (p : Packet) :
    Steady s (s.handleCliPacket prog world h id c p).2 := by
  rw [handleCliPacket]
  have replied (reply : Reply) : Steady s
      ((s.ask.modify h fun d => d.mapKind (.setCliCon reply.con)).record h reply.effects) :=
    (steady_ask_modify fun _ _ => .setCliCon _).trans steady_record
  split
  · exact replied _
  · split_ifs
    · exact (replied _).trans (steady_sendMessage (((replied _).alive h).mpr alive) _)
    · exact replied _

/-- A connection that the table has for a server is one to that server. -/
theorem steady_sendToServer (svid : Int) (preq : PushRequest) :
    Steady s (s.sendToServer prog world svid preq).2 := by
  rw [sendToServer]
  cases listedEq : s.svcons svid with
  | none => exact .refl s
  | some con =>
      dsimp only
      rw [sendPushRequest]
      split
      · rename_i kindEq
        rcases Option.map_eq_some_iff.mp kindEq with ⟨d, found, -⟩
        exact steady_sendMessage (alive_of_found found) _
      · rename_i noSvCon
        refine ⟨fun _ => Iff.rfl, fun sound => ?_⟩
        obtain ⟨d, found, serverEq⟩ := sound.listed svid con listedEq
        cases kindEq : d.kind with
        | svCon span c => exact absurd (by rw [found, ← kindEq]; rfl) (noSvCon span c)
        | acceptor _ _ => rw [kindEq] at serverEq; cases serverEq
        | cliCon _ => rw [kindEq] at serverEq; cases serverEq
        | listenCon => rw [kindEq] at serverEq; cases serverEq

theorem steady_relayLoop (preq : PushRequest) (sv : List Sess) :
    Steady s (relayLoop prog world preq sv s).2 := by
  induction sv generalizing s with
  | nil => exact .refl s
  | cons ss sv ih =>
      have first : Steady s
          (s.sendToServer prog world ss.consvid { preq with toSessid := ss.sessid }).2 :=
        steady_sendToServer _ _
      rw [relayLoop]
      dsimp only
      split
      · exact first
      · exact first.trans ih

theorem steady_sendJsonResponse (alive : s.Alive h) (ret : Int) (v : Value) :
    Steady s (s.sendJsonResponse prog world h ret v).2 :=
  steady_sendMessage alive _

theorem steady_handlePushReqeust (alive : s.Alive h) (req : Bytes) :
    Steady s (s.handlePushReqeust prog world h req).2 := by
  rw [handlePushReqeust]
  have respond (ret : Int) (v : Value) :
      Steady s (s.ask.sendJsonResponse prog world h ret v).2 :=
    steady_ask.trans (steady_sendJsonResponse ((steady_ask.alive h).mpr alive) ret v)
  have raise : Steady s (s.ask.fail .uncaught) := steady_ask.trans steady_uncaught
  cases prog.lib.parse req with
  | none => exact steady_sendJsonResponse alive _ _
  | some v =>
      dsimp only
      cases prog.lib.readRequest v with
      | none => exact steady_uncaught
      | some request =>
          obtain ⟨preq, sn⟩ := request
          dsimp only
          cases (world s.asked).cache with
          | none => exact respond _ _
          | some getSession =>
              dsimp only
              cases v.get "to_id" with
              | none => exact raise
              | some toId =>
                  dsimp only
                  split_ifs
                  · exact respond _ _
                  · cases toId.asString with
                    | none => exact raise
                    | some id =>
                        dsimp only
                        split_ifs
                        · exact respond _ _
                        all_goals
                          have relayed : Steady s
                              (relayLoop prog world preq (getSession id) s.ask).2 :=
                            steady_ask.trans (steady_relayLoop preq (getSession id))
                        · exact relayed
                        · exact relayed.trans
                            (steady_sendJsonResponse ((relayed.alive h).mpr alive) _ _)

theorem steady_handleListenPacket (alive : s.Alive h) (p : Packet) :
    Steady s (s.handleListenPacket prog world h p).2 := by
  rw [handleListenPacket]
  split_ifs
  · exact steady_handlePushReqeust alive p.body
  · exact .refl s

/-- A connection that is refused is disconnected, and stays alive. -/
theorem steady_handleRegisterResponse {d : Device} {span : Int} {c : SvCon}
    (found : s.devices h = some d) (kindEq : d.kind = .svCon span c) (resp : Bytes) :
    Steady s (s.handleRegisterResponse prog world h c resp).2 := by
  rw [handleRegisterResponse]
  dsimp only
  split_ifs
  · exact steady_disconnect (alive_of_found found)
  · have like (d : Device) : Device.Like d (d.mapKind (.mapSvCon fun c =>
        { c with status := .login, sessid := (prog.loginResponse resp).sessid })) :=
      .mapSvCon (fun _ => rfl) fun _ same => same
    apply (steady_modify fun d _ => like d).trans
    apply steady_addServer
    apply exists_modify _ ⟨d, found, congrArg Kind.server kindEq⟩
    intro d _ serverEq
    exact (like d).server.trans serverEq

theorem steady_handleSvPacket {d : Device} {span : Int} {c : SvCon}
    (found : s.devices h = some d) (kindEq : d.kind = .svCon span c) (p : Packet) :
    Steady s (s.handleSvPacket prog world h c p).2 := by
  rw [handleSvPacket]
  split_ifs
  · exact steady_handleRegisterResponse found kindEq p.body
  all_goals exact .refl s

/-- The packet handlers of the three classes. -/
theorem steady_handlePacket (alive : s.Alive h) (p : Packet) :
    Steady s (s.handlePacket prog world h p).2 := by
  obtain ⟨d, found⟩ := alive_iff.mp alive
  rw [handlePacket, found]
  dsimp only
  cases kindEq : d.kind with
  | acceptor _ _ => exact steady_impossible
  | cliCon c => exact steady_handleCliPacket alive d.base.id c p
  | listenCon => exact steady_handleListenPacket alive p
  | svCon span c => exact steady_handleSvPacket found kindEq p

/-- The loop over the packets ends unless there is a whole packet in the buffer. -/
theorem steady_checkLen {buf : LoopBuf} {ret : Int} {taken : Int → Int × Devices}
    (takes : ∀ len, Steady s (taken len).2) :
    Steady s (match checkLen buf with
      | none => (-1, s.fail .impossible)
      | some len => if len < 0 then (len, s) else if len = 0 then (ret, s) else taken len).2 := by
  cases checkLen buf with
  | none => exact steady_impossible
  | some len =>
      dsimp only
      split_ifs
      · exact .refl s
      · exact .refl s
      · exact takes len

/-- It comes back to a connection that is alive. -/
theorem steady_packLoop (rounds : Nat) (ret : Int) (alive : s.Alive h) :
    Steady s (packLoop prog world h rounds ret s).2 := by
  induction rounds generalizing s ret with
  | zero =>
      obtain ⟨d, found⟩ := alive_iff.mp alive
      rw [packLoop, found]
      apply steady_checkLen
      intro len
      exact steady_impossible
  | succ rounds ih =>
      obtain ⟨d, found⟩ := alive_iff.mp alive
      rw [packLoop, found]
      apply steady_checkLen
      intro len
      dsimp only
      cases d.base.buf.read len.toNat with
      | none => exact steady_impossible
      | some answer =>
          obtain ⟨buf, out⟩ := answer
          have taken : Steady s (s.modify h fun d => d.setBuf buf) :=
            steady_modify fun _ _ => .setBuf _
          have handled (p : Packet) : Steady s
              (handlePacket prog world (s.modify h fun d => d.setBuf buf) h p).2 :=
            taken.trans (steady_handlePacket ((taken.alive h).mpr alive) p)
          dsimp only
          split_ifs
          · exact handled _
          · exact handled _
          · exact (handled _).trans (ih _ (((handled _).alive h).mpr alive))
          · exact taken.trans steady_impossible

theorem steady_readCon (alive : s.Alive h) : Steady s (s.readCon prog world h).2 := by
  obtain ⟨d, found⟩ := alive_iff.mp alive
  rw [readCon, found]
  dsimp only
  cases tcpNbReceive (offer d.base.buf).freeFrameLen (world s.asked).recv with
  | none => exact steady_ask_impossible
  | some answer =>
      have filled (buf : LoopBuf) : Steady s (s.ask.modify h fun d => d.setBuf buf) :=
        steady_ask_modify fun _ _ => .setBuf _
      dsimp only
      split_ifs
      · exact filled _
      · exact (filled _).trans (steady_packLoop _ _ (((filled _).alive h).mpr alive))

theorem steady_writeCon (alive : s.Alive h) : Steady s (s.writeCon world h).2 := by
  obtain ⟨d, found⟩ := alive_iff.mp alive
  rw [writeCon, found]
  dsimp only
  cases d.base.sender.handleWrite (world s.asked).send (world s.asked).epollCtl with
  | none => exact steady_ask_impossible
  | some answer => exact steady_ask_modify fun _ _ => .setSender _

theorem steady_handleConnected (alive : s.Alive h) :
    Steady s (s.handleConnected prog world h).2 := by
  have asked : Steady s s.ask := steady_ask
  rw [handleConnected]
  dsimp only
  split_ifs
  · exact asked.trans (steady_disconnect ((asked.alive h).mpr alive))
  · have like (d : Device) : Device.Like d (d.mapKind (.mapSvCon fun c =>
        { c with client := .connected })) :=
      .mapSvCon (fun _ => rfl) fun _ same => nomatch same
    have connected : Steady s (s.ask.modify h _) := steady_ask_modify fun d _ => like d
    have listening := connected.trans
      (steady_modifyNotify : Steady _ (modifyNotify world _ h readEvent))
    exact listening.trans (steady_sendMessage ((listening.alive h).mpr alive) _)

theorem steady_acceptConnect (confac : Option Factory) (condispatch : Option Dispatcher)
    (script : List SysAccept) : Steady s (acceptConnect confac condispatch script s) := by
  induction script generalizing s with
  | nil => exact steady_impossible
  | cons call script ih =>
      cases call with
      | fail => exact .refl s
      | client fd id i =>
          cases confac with
          | none => exact .refl s
          | some factory =>
              cases condispatch with
              | none => exact .refl s
              | some dispatcher =>
                  rw [acceptConnect]
                  cases dispatcher.dispatchConnection (factory.createConnection fd id) i with
                  | none => exact steady_uncaught
                  | some given => exact steady_dispatched.trans ih

/-- No `handleRead` destroys a device. -/
theorem steady_handleRead (alive : s.Alive h) : Steady s (s.handleRead prog world h).2 := by
  obtain ⟨d, found⟩ := alive_iff.mp alive
  rw [handleRead, found]
  dsimp only
  cases d.kind with
  | acceptor confac condispatch => exact steady_ask.trans (steady_acceptConnect _ _ _)
  | cliCon c => exact steady_readCon alive
  | listenCon => exact steady_readCon alive
  | svCon span c =>
      dsimp only
      cases c.client with
      | init => exact .refl s
      | connecting => exact steady_handleConnected alive
      | connected => exact steady_readCon alive

/-- No `handleWrite` destroys a device. -/
theorem steady_handleWrite (alive : s.Alive h) : Steady s (s.handleWrite prog world h).2 := by
  obtain ⟨d, found⟩ := alive_iff.mp alive
  rw [handleWrite, found]
  dsimp only
  cases d.kind with
  | acceptor confac condispatch => exact .refl s
  | cliCon c => exact steady_writeCon alive
  | listenCon => exact steady_writeCon alive
  | svCon span c =>
      dsimp only
      cases c.client with
      | init => exact .refl s
      | connecting => exact steady_handleConnected alive
      | connected => exact steady_writeCon alive

/-! ## Destruction -/

theorem conMap_clearNotify : (s.clearNotify world h).conMap = s.conMap := by
  rw [clearNotify]
  split
  · rfl
  · split_ifs <;> rfl

theorem svcons_clearNotify : (s.clearNotify world h).svcons = s.svcons := by
  rw [clearNotify]
  split
  · rfl
  · split_ifs <;> rfl

theorem conMap_closeFd : (s.closeFd h).conMap = s.conMap := by
  rw [closeFd]
  split <;> rfl

theorem svcons_closeFd : (s.closeFd h).svcons = s.svcons := by
  rw [closeFd]
  split <;> rfl

theorem steady_clear {d : Device} : Steady s (s.clear world h d) := by
  rw [clear]
  split
  · exact .refl s
  · exact (steady_record.trans steady_clearNotify).trans steady_delConnection
  · exact steady_clearNotify.trans steady_delConnection
  · exact (steady_delServer.trans steady_clearNotify).trans steady_delConnection

/-- The destructors take a device out of the map of connections. -/
theorem conMap_clear (sound : s.Sound) {d : Device} (found : s.devices h = some d) (id : Int) :
    (s.clear world h d).conMap id ≠ some h := by
  intro inTable
  have mapped (old : s.conMap id = some h) : d.kind.IsConnection ∧ d.base.id = id := by
    obtain ⟨d', found', connection, idEq⟩ := sound.mapped id h old
    obtain rfl := Option.some.inj (found.symm.trans found')
    exact ⟨connection, idEq⟩
  have erased {t : Devices} (same : t.conMap = s.conMap)
      (inTable : (t.delConnection d.base.id).conMap id = some h) : False := by
    rcases Table.update_none_eq_some.mp inTable with ⟨other, old⟩
    exact other (mapped (same ▸ old)).2.symm
  rw [clear] at inTable
  split at inTable
  · rename_i kindEq
    have connection := (mapped inTable).1
    rw [kindEq] at connection
    exact connection
  · exact erased (t := clearNotify world (s.record h _) h) conMap_clearNotify inTable
  · exact erased conMap_clearNotify inTable
  · exact erased (t := clearNotify world (s.delServer _) h) conMap_clearNotify inTable

/-- They take it out of the table of the connect servers. -/
theorem svcons_clear (sound : s.Sound) {d : Device} (found : s.devices h = some d) (k : Int) :
    (s.clear world h d).svcons k ≠ some h := by
  intro inTable
  have listed (old : s.svcons k = some h) : d.kind.server = some k := by
    obtain ⟨d', found', serverEq⟩ := sound.listed k h old
    obtain rfl := Option.some.inj (found.symm.trans found')
    exact serverEq
  have unlisted {t : Devices} (noServer : d.kind.server = none) (same : t.svcons = s.svcons)
      (old : t.svcons k = some h) : False := by
    rw [same] at old
    rw [listed old] at noServer
    cases noServer
  rw [clear] at inTable
  split at inTable
  · rename_i kindEq
    exact unlisted (by rw [kindEq]; rfl) rfl inTable
  · rename_i kindEq
    exact unlisted (t := clearNotify world (s.record h _) h) (by rw [kindEq]; rfl)
      svcons_clearNotify inTable
  · rename_i kindEq
    exact unlisted (t := s.clearNotify world h) (by rw [kindEq]; rfl) svcons_clearNotify inTable
  · rename_i kindEq
    have old : (clearNotify world (s.delServer _) h).svcons k = some h := inTable
    rw [svcons_clearNotify] at old
    rcases Table.update_none_eq_some.mp old with ⟨other, old⟩
    have serverEq := listed old
    rw [kindEq] at serverEq
    exact other (Option.some.inj serverEq).symm

/-- A device that no table points to can be destroyed. -/
theorem sound_remove (sound : s.Sound) (noFd : ∀ d, s.devices h = some d → d.base.fd = none)
    (unmapped : ∀ id, s.conMap id ≠ some h) (unlisted : ∀ k, s.svcons k ≠ some h) :
    Sound { s with devices := Function.update s.devices h none } := by
  have kept {h' : Handle} {P : Device → Prop} (other : h' ≠ h)
      (fits : ∃ d, s.devices h' = some d ∧ P d) :
      ∃ d, Function.update s.devices h none h' = some d ∧ P d := by
    rwa [Function.update_of_ne other]
  refine ⟨?_, ?_, ?_, ?_, sound.unbroken⟩
  · intro fd h' inTable
    have fits := sound.registered fd h' inTable
    apply kept _ fits
    rintro rfl
    obtain ⟨d, found, fdEq⟩ := fits
    rw [noFd d found] at fdEq
    cases fdEq
  · intro id h' inTable
    apply kept _ (sound.mapped id h' inTable)
    rintro rfl
    exact unmapped id inTable
  · intro k h' inTable
    apply kept _ (sound.listed k h' inTable)
    rintro rfl
    exact unlisted k inTable
  · intro h' d found idle
    exact sound.idle h' d (Table.update_none_eq_some.mp found).2 idle

theorem sound_destroy (sound : s.Sound) (alive : s.Alive h) : (s.destroy world h).Sound := by
  obtain ⟨d, found⟩ := alive_iff.mp alive
  have cleared : Steady s ((s.clear world h d).closeFd h) := steady_clear.trans steady_closeFd
  rw [destroy, found]
  apply sound_remove (cleared.sound sound) fun d => fd_closeFd
  · intro id
    rw [conMap_closeFd]
    exact conMap_clear sound found id
  · intro k
    rw [svcons_closeFd]
    exact svcons_clear sound found k

/-- Destroying a device leaves the others alive. -/
theorem alive_destroy (other : h' ≠ h) : (s.destroy world h).Alive h' ↔ s.Alive h' := by
  rw [destroy]
  split
  · exact Iff.rfl
  · rename_i d found
    have cleared : Steady s ((s.clear world h d).closeFd h) := steady_clear.trans steady_closeFd
    apply Iff.trans _ (cleared.alive h')
    dsimp only [Alive]
    rw [Function.update_of_ne other]

theorem sound_onFail (sound : s.Sound) (alive : s.Alive h) : (s.onFail world h).Sound := by
  have disconnected : Steady s (s.disconnect world h) := steady_disconnect alive
  obtain ⟨d, found⟩ := alive_iff.mp alive
  rw [onFail, found]
  dsimp only
  split
  · split_ifs
    · exact disconnected.sound sound
    · exact sound_destroy (disconnected.sound sound) ((disconnected.alive h).mpr alive)
    · exact disconnected.sound sound
  · exact sound_destroy sound alive

/-- `onFail` destroys no device but its own. -/
theorem alive_onFail (other : h' ≠ h) : (s.onFail world h).Alive h' ↔ s.Alive h' := by
  cases found : s.devices h with
  | none =>
      rw [onFail, found]
      exact Iff.rfl
  | some d =>
      have disconnected : Steady s (s.disconnect world h) :=
        steady_disconnect (alive_of_found found)
      rw [onFail, found]
      dsimp only
      split
      · split_ifs
        · exact disconnected.alive h'
        · exact (alive_destroy other).trans (disconnected.alive h')
        · exact disconnected.alive h'
      · exact alive_destroy other

end Handlers

end Devices

end GPush.EventLoop
