import GPush.PushServer.Svlist

/-!
# The sockets of the connections to the connect servers

A connection owns the socket that `connectTo` has given it, and the event loop hears of
it when the socket is registered with `epoll`.  A connection without a socket is never
heard of again: no event can fail on it, and its timer does nothing.
-/

namespace GPush.PushServer

open GPush.ConnectServer GPush.Transition

/-- An event loop with the sockets of its connections: `m_fd` of each, where `none` is
`EF_INVALID_SOCKET`, the sockets that are open, and those that are registered with
`epoll`, each with the connection in its `data.ptr`. -/
structure Sockets where
  loop : Loop
  fd : Handle → Option Nat
  opened : Nat → Bool
  epoll : Nat → Option Handle

namespace Sockets

/-- A loop that has just started. -/
def init : Sockets := ⟨.init, fun _ => none, fun _ => false, fun _ => none⟩

/-- The sockets with another loop. -/
def setLoop (s : Sockets) (d : Loop) : Sockets := { s with loop := d }

/-- `Svlist::connectServer`; `fd` is what the first `connectTo` that succeeds sets. -/
def connectServer (s : Sockets) (l : Listed) (fd : Nat) : Sockets :=
  let s := s.setLoop (s.loop.connectServer l)
  if true ∈ l.attempts then
    { s with
      fd := Function.update s.fd l.handle (some fd)
      opened := Function.update s.opened fd true }
  else
    { s with fd := Function.update s.fd l.handle none }

/-- `Svlist::checkServers`; `none` says that `loadData` has nothing new. -/
def checkServers (s : Sockets) : Option (List (Listed × Nat)) → Sockets
  | none => s
  | some smap =>
      smap.foldl
        (fun s l => if (s.loop.getServer l.1.key).isSome then s else s.connectServer l.1 l.2) s

/-- `EventLoop::addNotify`; `accepted` tells whether `epoll_ctl` takes an open socket. -/
def addNotify (s : Sockets) (h : Handle) (accepted : Bool) : Sockets :=
  match s.fd h with
  | none => s
  | some fd => if accepted then { s with epoll := Function.update s.epoll fd (some h) } else s

/-- `EventLoop::addConnection`, with `Client::onCreate`, which drops the result of
`addNotify`. -/
def addConnection (s : Sockets) (h : Handle) (c : SvCon) (accepted : Bool) : Sockets :=
  (s.addNotify h accepted).setLoop (s.loop.setCon h { c with added := true })

/-- `EventLoop::clearNotify`, and the end of the socket. -/
def release (s : Sockets) (h : Handle) : Sockets :=
  match s.fd h with
  | none => s
  | some fd => { s with
      fd := Function.update s.fd h none
      opened := Function.update s.opened fd false
      epoll := Function.update s.epoll fd none }

/-- `Client::disconnect`. -/
def disconnect (s : Sockets) (h : Handle) (c : SvCon) : Sockets :=
  (s.release h).setLoop (s.loop.disconnect h c)

/-- The destructors, that of `Device` included. -/
def recycle (s : Sockets) (h : Handle) (c : SvCon) : Sockets :=
  (s.release h).setLoop (s.loop.recycle h c)

/-- `Client::onFail` with a reconnect span of `0`. -/
def onFail (s : Sockets) (h : Handle) (c : SvCon) : Sockets :=
  (s.disconnect h c).recycle h { c with client := .init }

/-- `Client::handleConnected`, and `onFail` after a negative result. -/
def handleConnected (s : Sockets) (h : Handle) (c : SvCon) (sockopt sent : Bool) : Sockets :=
  if sockopt = false then
    (s.disconnect h c).onFail h { c with client := .init }
  else
    let c := { c with client := .connected }
    let s := s.setLoop (s.loop.setCon h c)
    if sent then s else s.onFail h c

/-- `SvCon::handleRegisterResponse`.  A connection that is refused is disconnected and
answers `0`. -/
def handleRegisterResponse (s : Sockets) (h : Handle) (c : SvCon) (lgresp : LoginResponse) :
    Sockets :=
  if lgresp.status < 0 then
    s.disconnect h c
  else
    s.setLoop (s.loop.handleRegisterResponse h c lgresp)

/-- What happens on the loop.  A failure is a negative result of an event handler, and
another packet is one that its handler takes. -/
inductive Event
  | checkServers (loaded : Option (List (Listed × Nat)))
  | add (h : Handle) (accepted : Bool)
  | connected (h : Handle) (sockopt sent : Bool)
  | response (h : Handle) (lgresp : LoginResponse)
  | packet (h : Handle)
  | keepAlive (h : Handle)
  | fail (h : Handle)
  | close (h : Handle)

/-- The connection at `h` owns an open socket that is registered with `epoll`. -/
def Owns (s : Sockets) (h : Handle) : Prop :=
  ∃ fd, s.fd h = some fd ∧ s.opened fd = true ∧ s.epoll fd = some h

/-- A new socket has a number that no open one has. -/
def Fresh (s : Sockets) (smap : List (Listed × Nat)) : Prop :=
  (smap.map Prod.snd).Nodup ∧ ∀ l ∈ smap, s.opened l.2 = false

/-- The step relation.  `epoll_wait` reports the sockets that are registered. -/
inductive Step : LTS Sockets Event
  | checkServers {s : Sockets} {loaded : Option (List (Listed × Nat))} :
      (∀ smap, loaded = some smap → s.loop.Unused (smap.map Prod.fst) ∧ s.Fresh smap) →
      Step s (.checkServers loaded) (s.checkServers loaded)
  | add {s : Sockets} {h : Handle} {c : SvCon} {accepted : Bool} :
      s.loop.conns h = some c → c.added = false →
      Step s (.add h accepted) (s.addConnection h c accepted)
  | connected {s : Sockets} {h : Handle} {c : SvCon} {sockopt sent : Bool} :
      s.loop.conns h = some c → c.added = true → s.Owns h → c.client = .connecting →
      Step s (.connected h sockopt sent) (s.handleConnected h c sockopt sent)
  | response {s : Sockets} {h : Handle} {c : SvCon} {lgresp : LoginResponse} :
      s.loop.conns h = some c → c.added = true → s.Owns h → c.client = .connected →
      Step s (.response h lgresp) (s.handleRegisterResponse h c lgresp)
  | packet {s : Sockets} {h : Handle} {c : SvCon} :
      s.loop.conns h = some c → c.added = true → s.Owns h → c.client = .connected →
      Step s (.packet h) s
  | keepAlive {s : Sockets} {h : Handle} {c : SvCon} :
      s.loop.conns h = some c → c.added = true → Step s (.keepAlive h) s
  | fail {s : Sockets} {h : Handle} {c : SvCon} :
      s.loop.conns h = some c → c.added = true → s.Owns h → Step s (.fail h) (s.onFail h c)
  | close {s : Sockets} {h : Handle} {c : SvCon} : s.loop.conns h = some c → c.added = true →
      Step s (.close h) (s.recycle h c)

/-- No dead connection lingers: what is in `m_con_map` owns a registered socket, and no
connection is without a socket. -/
structure NoneDead (s : Sockets) : Prop where
  inMap : ∀ h c, s.loop.conns h = some c → c.added = true → s.Owns h
  alive : ∀ h c, s.loop.conns h = some c → ∃ fd, s.fd h = some fd ∧ s.opened fd = true

/-- Each server that is connected to accepts at one of its addresses, `epoll` takes the
socket, and no registration is refused. -/
def Guard (s : Sockets) : Event → Prop
  | .checkServers loaded => ∀ smap, loaded = some smap → ∀ l ∈ smap,
      s.loop.getServer l.1.key = none → true ∈ l.1.attempts
  | .add _ accepted => accepted = true
  | .response _ lgresp => 0 ≤ lgresp.status
  | _ => True

variable {s t : Sockets} {h h' : Handle} {c : SvCon} {fd fd' : Nat}

/-! ## The loop without its sockets -/

@[simp]
theorem loop_setLoop {d : Loop} : (s.setLoop d).loop = d := rfl

@[simp]
theorem setLoop_setLoop {d d' : Loop} : (s.setLoop d).setLoop d' = s.setLoop d' := rfl

@[simp]
theorem loop_release : (s.release h).loop = s.loop := by
  rw [release]
  split <;> rfl

@[simp]
theorem release_setLoop {d : Loop} : (s.setLoop d).release h = (s.release h).setLoop d := by
  simp only [release, setLoop]
  split <;> rfl

@[simp]
theorem loop_connectServer {l : Listed} :
    (s.connectServer l fd).loop = s.loop.connectServer l := by
  rw [connectServer]
  split_ifs <;> rfl

theorem loop_addConnection {accepted : Bool} :
    (s.addConnection h c accepted).loop = s.loop.setCon h { c with added := true } :=
  rfl

theorem loop_handleConnected {sockopt sent : Bool} :
    (s.handleConnected h c sockopt sent).loop = s.loop.handleConnected h c sockopt sent := by
  rw [handleConnected, Loop.handleConnected]
  cases sockopt with
  | false => rfl
  | true => cases sent <;> rfl

theorem loop_handleRegisterResponse {lgresp : LoginResponse} :
    (s.handleRegisterResponse h c lgresp).loop = s.loop.handleRegisterResponse h c lgresp := by
  rw [handleRegisterResponse, Loop.handleRegisterResponse]
  split_ifs <;> rfl

theorem checkServers_cons {l : Listed × Nat} {smap : List (Listed × Nat)} :
    s.checkServers (some (l :: smap)) =
      (if (s.loop.getServer l.1.key).isSome then s else s.connectServer l.1 l.2).checkServers
        (some smap) :=
  rfl

theorem loop_checkServers {smap : List (Listed × Nat)} :
    (s.checkServers (some smap)).loop = s.loop.checkServers (some (smap.map Prod.fst)) := by
  induction smap generalizing s with
  | nil => rfl
  | cons l smap ih =>
      rw [checkServers_cons, ih, List.map_cons, Loop.checkServers, Loop.checkServers, List.foldl_cons]
      split_ifs
      · rfl
      · rw [loop_connectServer]

/-- Without its sockets, a loop does what the loop of the routing table does, or nothing. -/
theorem Step.loop {event : Event} (taken : Step s event t) :
    t.loop = s.loop ∨ ∃ e, Loop.Step s.loop e t.loop := by
  cases taken with
  | @checkServers _ loaded fresh =>
      cases loaded with
      | none => exact Or.inl rfl
      | some smap =>
          rw [loop_checkServers]
          refine Or.inr ⟨_, Loop.Step.checkServers ?_⟩
          intro smap' smapEq
          obtain rfl := Option.some.inj smapEq
          exact (fresh smap rfl).1
  | add found queued =>
      rw [loop_addConnection]
      exact Or.inr ⟨_, Loop.Step.add found queued⟩
  | @connected _ _ _ sockopt sent found added _ connecting =>
      rw [loop_handleConnected]
      exact Or.inr ⟨.connected _ sockopt sent, Loop.Step.connected found added connecting⟩
  | response found added _ connected =>
      rw [loop_handleRegisterResponse]
      exact Or.inr ⟨_, Loop.Step.response found added connected⟩
  | packet => exact Or.inl rfl
  | keepAlive => exact Or.inl rfl
  | fail found added => exact Or.inr ⟨_, Loop.Step.fail found added⟩
  | close found added => exact Or.inr ⟨_, Loop.Step.close found added⟩

/-- The run lemma. -/
theorem reachable_loop (reached : Reachable Step init s) :
    Reachable Loop.Step Loop.init s.loop := by
  refine @Reachable.invariant _ _ _ (fun s => Reachable Loop.Step Loop.init s.loop) _ _ ?_ ?_
    reached
  · exact ⟨[], Run.refl⟩
  · rintro s event t ⟨events, run⟩ taken
    rcases taken.loop with same | ⟨e, taken⟩
    · exact ⟨events, same ▸ run⟩
    · exact ⟨events ++ [e], run.snoc trivial taken⟩

/-! ## The invariant -/

/-- What holds whatever happens: the sockets are open, no two connections have the same one,
and what is registered is the socket of an added connection. -/
structure Sound (s : Sockets) : Prop where
  opened : ∀ h fd, s.fd h = some fd → s.opened fd = true
  distinct : ∀ h h' fd, s.fd h = some fd → s.fd h' = some fd → h' = h
  registered : ∀ h fd, s.epoll fd = some h →
    s.fd h = some fd ∧ ∃ c, s.loop.conns h = some c ∧ c.added = true

theorem sound_init : init.Sound := by
  constructor
  · intro h fd fdEq
    simp [init] at fdEq
  · intro h h' fd fdEq
    simp [init] at fdEq
  · intro h fd epollEq
    simp [init] at epollEq

theorem noneDead_init : init.NoneDead := by
  constructor
  · intro h c found
    simp [init, Loop.init] at found
  · intro h c found
    simp [init, Loop.init] at found

theorem release_of_none (noFd : s.fd h = none) : s.release h = s := by
  rw [release, noFd]

theorem release_of_some (fdEq : s.fd h = some fd) :
    s.release h = { s with
      fd := Function.update s.fd h none
      opened := Function.update s.opened fd false
      epoll := Function.update s.epoll fd none } := by
  rw [release, fdEq]

theorem fd_release : (s.release h).fd h' = some fd ↔ h' ≠ h ∧ s.fd h' = some fd := by
  rcases fdEq : s.fd h with _ | fd'
  · rw [release_of_none fdEq]
    refine ⟨fun fdEq' => ⟨?_, fdEq'⟩, And.right⟩
    rintro rfl
    exact absurd (fdEq.symm.trans fdEq') (by simp)
  · rw [release_of_some fdEq, Table.update_eq_some]
    simp

theorem fd_release_self : (s.release h).fd h = none := by
  rcases fdEq : (s.release h).fd h with _ | fd
  · rfl
  · exact absurd rfl (fd_release.mp fdEq).1

theorem opened_release (other : s.fd h ≠ some fd) : (s.release h).opened fd = s.opened fd := by
  rcases fdEq : s.fd h with _ | fd'
  · rw [release_of_none fdEq]
  · rw [release_of_some fdEq]
    apply Function.update_of_ne
    rintro rfl
    exact other fdEq

theorem epoll_release :
    (s.release h).epoll fd = some h' ↔ s.fd h ≠ some fd ∧ s.epoll fd = some h' := by
  rcases fdEq : s.fd h with _ | fd'
  · rw [release_of_none fdEq]
    simp
  · rw [release_of_some fdEq, Table.update_eq_some]
    simp [eq_comm]

/-- A socket is closed once. -/
theorem release_release : (s.release h).release h = s.release h :=
  release_of_none fd_release_self

/-- Disconnecting before the destructor changes nothing. -/
theorem recycle_disconnect :
    (s.disconnect h c).recycle h { c with client := .init } = s.recycle h c := by
  have loopEq : (s.loop.disconnect h c).recycle h { c with client := .init } =
      s.loop.recycle h c := Loop.onFail_eq
  simp only [recycle, disconnect, release_setLoop, setLoop_setLoop, release_release,
    loop_setLoop, loopEq]

theorem onFail_eq : s.onFail h c = s.recycle h c := recycle_disconnect

theorem handleConnected_fails {sockopt sent : Bool} (failed : ¬(sockopt = true ∧ sent = true)) :
    s.handleConnected h c sockopt sent = s.recycle h c := by
  rw [handleConnected]
  cases sockopt with
  | false => rw [if_pos rfl, onFail_eq, recycle_disconnect]
  | true =>
      cases sent with
      | false =>
          have loopEq : (s.loop.setCon h { c with client := .connected }).recycle h
              { c with client := .connected } = s.loop.recycle h c := by
            simp [Loop.recycle, Loop.delServer, Loop.setCon]
          simp only [Bool.true_eq_false, if_false, Bool.false_eq_true, onFail_eq, recycle,
            release_setLoop, setLoop_setLoop, loop_setLoop, loopEq]
      | true => exact absurd ⟨rfl, rfl⟩ failed

theorem handleConnected_succeeds {sockopt sent : Bool} (succeeds : sockopt = true ∧ sent = true) :
    s.handleConnected h c sockopt sent =
      s.setLoop (s.loop.setCon h { c with client := .connected }) := by
  rw [handleConnected, if_neg (by simp [succeeds.1]), if_pos succeeds.2]

theorem handleRegisterResponse_accepts {lgresp : LoginResponse} (accepted : ¬lgresp.status < 0) :
    ∃ c', c'.added = c.added ∧ ∃ d : Loop,
      d.conns = Function.update s.loop.conns h (some c') ∧
      s.handleRegisterResponse h c lgresp = s.setLoop d := by
  refine ⟨{ c with status := .login, sessid := lgresp.sessid }, rfl,
    s.loop.handleRegisterResponse h c lgresp, ?_, ?_⟩
  · rw [Loop.handleRegisterResponse, if_neg accepted]
    rfl
  · rw [handleRegisterResponse, if_neg accepted]

/-- The socket of a connection that is added. -/
theorem addConnection_of_some {accepted : Bool} (fdEq : s.fd h = some fd) :
    s.addConnection h c accepted = { s with
      loop := s.loop.setCon h { c with added := true }
      epoll := if accepted then Function.update s.epoll fd (some h) else s.epoll } := by
  cases accepted <;> simp [addConnection, addNotify, fdEq, setLoop]

theorem addConnection_of_none {accepted : Bool} (noFd : s.fd h = none) :
    s.addConnection h c accepted = s.setLoop (s.loop.setCon h { c with added := true }) := by
  simp [addConnection, addNotify, noFd]

/-- The socket of a new connection is the new one, if one of the addresses accepts. -/
theorem fd_connectServer {l : Listed} :
    (s.connectServer l fd).fd h = some fd' ↔
      h = l.handle ∧ true ∈ l.attempts ∧ fd' = fd ∨ h ≠ l.handle ∧ s.fd h = some fd' := by
  rw [connectServer]
  split_ifs with reachable
  · rw [Table.update_eq_some]
    simp [reachable, setLoop, eq_comm]
  · rw [Table.update_eq_some]
    simp [reachable, setLoop]

theorem opened_connectServer {l : Listed} :
    (s.connectServer l fd).opened fd' = true ↔
      fd' = fd ∧ true ∈ l.attempts ∨ s.opened fd' = true := by
  rw [connectServer]
  split_ifs with reachable
  · by_cases same : fd' = fd
    · simp [same, reachable]
    · simp [same, setLoop]
  · simp [reachable, setLoop]

theorem epoll_connectServer {l : Listed} : (s.connectServer l fd).epoll = s.epoll := by
  rw [connectServer]
  split_ifs <;> rfl

theorem Fresh.tail {l : Listed × Nat} {smap : List (Listed × Nat)} (fresh : s.Fresh (l :: smap)) :
    s.Fresh smap :=
  ⟨(List.nodup_cons.mp fresh.1).2, fun l' member => fresh.2 l' (List.mem_cons_of_mem _ member)⟩

/-- The other new sockets have numbers of their own also after the first one. -/
theorem Fresh.connectServer {l : Listed × Nat} {smap : List (Listed × Nat)}
    (fresh : s.Fresh (l :: smap)) : (s.connectServer l.1 l.2).Fresh smap := by
  refine ⟨fresh.tail.1, ?_⟩
  intro l' member
  have other : l'.2 ≠ l.2 := by
    intro same
    exact (List.nodup_cons.mp fresh.1).1 (same ▸ List.mem_map_of_mem member)
  rw [Sockets.connectServer]
  split_ifs
  · exact (Function.update_of_ne other _ _).trans (fresh.tail.2 l' member)
  · exact fresh.tail.2 l' member

/-- The rule for the loop over the listed servers, each with its new socket. -/
theorem checkServers_rule (inv : Sockets → Prop) {smap : List (Listed × Nat)}
    (unused : s.loop.Unused (smap.map Prod.fst)) (fresh : s.Fresh smap) (start : inv s)
    (kept : ∀ (s : Sockets) (l : Listed × Nat), inv s → s.loop.conns l.1.handle = none →
      s.opened l.2 = false → inv (s.connectServer l.1 l.2)) :
    inv (s.checkServers (some smap)) := by
  induction smap generalizing s with
  | nil => exact start
  | cons l smap ih =>
      rw [checkServers_cons]
      split_ifs
      · exact ih unused.tail fresh.tail start
      · have connected := kept s l start (unused.2 l.1 List.mem_cons_self)
          (fresh.2 l List.mem_cons_self)
        apply ih _ fresh.connectServer connected
        rw [loop_connectServer]
        exact unused.connectServer

/-- The connections that there are stay as they are, and so do their sockets. -/
theorem checkServers_keeps {smap : List (Listed × Nat)}
    (unused : s.loop.Unused (smap.map Prod.fst)) (fresh : s.Fresh smap)
    (found : s.loop.conns h = some c) :
    (s.checkServers (some smap)).loop.conns h = some c ∧
      (s.checkServers (some smap)).fd h = s.fd h := by
  refine checkServers_rule (fun t => t.loop.conns h = some c ∧ t.fd h = s.fd h) unused fresh
    ⟨found, rfl⟩ ?_
  rintro t l ⟨stays, sameFd⟩ free -
  have distinct : h ≠ l.1.handle := by
    rintro rfl
    exact absurd (free.symm.trans stays) (by simp)
  constructor
  · rw [loop_connectServer]
    exact (Function.update_of_ne distinct _ _).trans stays
  · rw [← sameFd, connectServer]
    split_ifs
    · exact Function.update_of_ne distinct _ _
    · exact Function.update_of_ne distinct _ _

namespace Sound

/-- The added connections stay added. -/
theorem setLoop {d : Loop} (sound : s.Sound)
    (kept : ∀ h c, s.loop.conns h = some c → c.added = true →
      ∃ c', d.conns h = some c' ∧ c'.added = true) : (s.setLoop d).Sound := by
  constructor
  · exact sound.opened
  · exact sound.distinct
  · intro h fd epollEq
    obtain ⟨fdEq, c, found, added⟩ := sound.registered h fd epollEq
    exact ⟨fdEq, kept h c found added⟩

theorem setCon {d : Loop} {c' : SvCon} (sound : s.Sound) (found : s.loop.conns h = some c)
    (place : c'.added = c.added) (conns : d.conns = Function.update s.loop.conns h (some c')) :
    (s.setLoop d).Sound := by
  apply sound.setLoop
  intro h' c'' found' added
  by_cases atH : h' = h
  · subst atH
    obtain rfl := Option.some.inj (found.symm.trans found')
    exact ⟨c', conns ▸ Function.update_self .., place.trans added⟩
  · exact ⟨c'', conns ▸ (Function.update_of_ne atH _ _).trans found', added⟩

/-- A socket is given back. -/
theorem release {d : Loop} (sound : s.Sound)
    (others : ∀ h', h' ≠ h → d.conns h' = s.loop.conns h') :
    ((s.release h).setLoop d).Sound := by
  constructor
  · intro h' fd fdEq
    obtain ⟨distinct, fdEq⟩ := fd_release.mp fdEq
    have notOwn : s.fd h ≠ some fd := fun own => distinct (sound.distinct h h' fd own fdEq)
    exact (opened_release notOwn).trans (sound.opened h' fd fdEq)
  · intro h₁ h₂ fd fdEq₁ fdEq₂
    exact sound.distinct h₁ h₂ fd (fd_release.mp fdEq₁).2 (fd_release.mp fdEq₂).2
  · intro h' fd epollEq
    obtain ⟨notOwn, epollEq⟩ := epoll_release.mp epollEq
    obtain ⟨fdEq, c, found, added⟩ := sound.registered h' fd epollEq
    have distinct : h' ≠ h := by
      rintro rfl
      exact notOwn fdEq
    exact ⟨fd_release.mpr ⟨distinct, fdEq⟩, c, (others h' distinct).trans found, added⟩

theorem recycle (sound : s.Sound) : (s.recycle h c).Sound :=
  sound.release fun _ distinct => Function.update_of_ne distinct _ _

theorem disconnect (sound : s.Sound) : (s.disconnect h c).Sound :=
  sound.release fun _ distinct => Function.update_of_ne distinct _ _

/-- A connection is added, with its socket or without one. -/
theorem addConnection {accepted : Bool} (sound : s.Sound) :
    (s.addConnection h c accepted).Sound := by
  have conns : ∀ h' c', s.loop.conns h' = some c' → c'.added = true →
      ∃ c'', (s.loop.setCon h { c with added := true }).conns h' = some c'' ∧
        c''.added = true := by
    intro h' c' found added
    by_cases atH : h' = h
    · subst atH
      exact ⟨_, Function.update_self .., rfl⟩
    · exact ⟨c', (Function.update_of_ne atH _ _).trans found, added⟩
  rcases fdEq : s.fd h with _ | fd
  · rw [addConnection_of_none fdEq]
    exact sound.setLoop conns
  · rw [addConnection_of_some fdEq]
    constructor
    · exact sound.opened
    · exact sound.distinct
    · intro h' fd' epollEq
      have cases : fd' = fd ∧ h' = h ∨ s.epoll fd' = some h' := by
        cases accepted with
        | false => exact Or.inr epollEq
        | true =>
            apply (Table.update_eq_some.mp epollEq).imp _ And.right
            rintro ⟨fdSame, handleSame⟩
            exact ⟨fdSame, (Option.some.inj handleSame).symm⟩
      rcases cases with ⟨rfl, rfl⟩ | old
      · exact ⟨fdEq, _, Function.update_self .., rfl⟩
      · obtain ⟨fdEq', c', found, added⟩ := sound.registered h' fd' old
        exact ⟨fdEq', conns h' c' found added⟩

/-- A new connection has a new socket, or none. -/
theorem connectServer {l : Listed} (sound : s.Sound) (unused : s.loop.conns l.handle = none)
    (fresh : s.opened fd = false) : (s.connectServer l fd).Sound := by
  have notOwned : ∀ h', s.fd h' ≠ some fd := by
    intro h' fdEq
    exact absurd (fresh.symm.trans (sound.opened h' fd fdEq)) Bool.false_ne_true
  constructor
  · intro h' fd' fdEq
    rw [opened_connectServer]
    rcases fd_connectServer.mp fdEq with ⟨-, reachable, rfl⟩ | ⟨-, old⟩
    · exact Or.inl ⟨rfl, reachable⟩
    · exact Or.inr (sound.opened h' fd' old)
  · intro h₁ h₂ fd' fdEq₁ fdEq₂
    rcases fd_connectServer.mp fdEq₁ with ⟨rfl, -, rfl⟩ | ⟨-, old₁⟩
    · rcases fd_connectServer.mp fdEq₂ with ⟨rfl, -⟩ | ⟨-, old₂⟩
      · rfl
      · exact absurd old₂ (notOwned h₂)
    · rcases fd_connectServer.mp fdEq₂ with ⟨-, -, rfl⟩ | ⟨-, old₂⟩
      · exact absurd old₁ (notOwned h₁)
      · exact sound.distinct h₁ h₂ fd' old₁ old₂
  · intro h' fd' epollEq
    rw [epoll_connectServer] at epollEq
    -- what is registered belongs to another connection
    obtain ⟨fdEq, c, found, added⟩ := sound.registered h' fd' epollEq
    have distinct : h' ≠ l.handle := by
      rintro rfl
      exact absurd (unused.symm.trans found) (by simp)
    rw [loop_connectServer]
    exact ⟨fd_connectServer.mpr (Or.inr ⟨distinct, fdEq⟩), c,
      (Function.update_of_ne distinct _ _).trans found, added⟩

/-- The step lemma. -/
theorem step {event : Event} (sound : s.Sound) (taken : Step s event t) : t.Sound := by
  cases taken with
  | @checkServers _ loaded fresh =>
      cases loaded with
      | none => exact sound
      | some smap =>
          obtain ⟨unused, freshFds⟩ := fresh smap rfl
          exact checkServers_rule Sound unused freshFds sound fun _ _ sound free isFresh =>
            sound.connectServer free isFresh
  | add => exact sound.addConnection
  | @connected _ h c sockopt sent found =>
      by_cases succeeds : sockopt = true ∧ sent = true
      · rw [handleConnected_succeeds succeeds]
        have sameSlot : { c with client := .connected }.added = c.added := rfl
        exact sound.setCon found sameSlot rfl
      · rw [handleConnected_fails succeeds]
        exact sound.recycle
  | @response _ h c lgresp found =>
      by_cases refused : lgresp.status < 0
      · rw [handleRegisterResponse, if_pos refused]
        exact sound.disconnect
      · obtain ⟨c', place, d, conns, loopEq⟩ := handleRegisterResponse_accepts refused
        rw [loopEq]
        exact sound.setCon found place conns
  | packet => exact sound
  | keepAlive => exact sound
  | fail =>
      rw [onFail_eq]
      exact sound.recycle
  | close => exact sound.recycle

end Sound

theorem sound_of_reachable (reached : Reachable Step init s) : s.Sound :=
  reached.invariant sound_init fun _ _ _ sound taken => sound.step taken

namespace NoneDead

/-- A connection leaves with its socket. -/
theorem recycle (noneDead : s.NoneDead) (sound : s.Sound) : (s.recycle h c).NoneDead := by
  have kept : ∀ h' c' fd, (s.recycle h c).loop.conns h' = some c' → s.fd h' = some fd →
      h' ≠ h ∧ s.loop.conns h' = some c' ∧ s.fd h ≠ some fd := by
    intro h' c' fd found fdEq
    rcases Table.update_eq_some.mp found with ⟨-, gone⟩ | ⟨distinct, old⟩
    · exact absurd gone (by simp)
    · exact ⟨distinct, old, fun own => distinct (sound.distinct h h' fd own fdEq)⟩
  have old : ∀ h' c', (s.recycle h c).loop.conns h' = some c' → s.loop.conns h' = some c' := by
    intro h' c' found
    rcases Table.update_eq_some.mp found with ⟨-, gone⟩ | ⟨-, old⟩
    · exact absurd gone (by simp)
    · exact old
  constructor
  · intro h' c' found added
    obtain ⟨fd, fdEq, isOpen, epollEq⟩ := noneDead.inMap h' c' (old h' c' found) added
    obtain ⟨distinct, -, notOwn⟩ := kept h' c' fd found fdEq
    exact ⟨fd, fd_release.mpr ⟨distinct, fdEq⟩, (opened_release notOwn).trans isOpen,
      epoll_release.mpr ⟨notOwn, epollEq⟩⟩
  · intro h' c' found
    obtain ⟨fd, fdEq, isOpen⟩ := noneDead.alive h' c' (old h' c' found)
    obtain ⟨distinct, -, notOwn⟩ := kept h' c' fd found fdEq
    exact ⟨fd, fd_release.mpr ⟨distinct, fdEq⟩, (opened_release notOwn).trans isOpen⟩

/-- A connection keeps its place and its socket. -/
theorem setCon {d : Loop} {c' : SvCon} (noneDead : s.NoneDead) (found : s.loop.conns h = some c)
    (place : c'.added = c.added) (conns : d.conns = Function.update s.loop.conns h (some c')) :
    (s.setLoop d).NoneDead := by
  have before : ∀ h' c'', d.conns h' = some c'' →
      ∃ c, s.loop.conns h' = some c ∧ c.added = c''.added := by
    intro h' c'' found'
    rw [conns] at found'
    rcases Table.update_eq_some.mp found' with ⟨rfl, isNew⟩ | ⟨-, old⟩
    · obtain rfl := Option.some.inj isNew
      exact ⟨c, found, place.symm⟩
    · exact ⟨c'', old, rfl⟩
  constructor
  · intro h' c'' found' added
    obtain ⟨c, old, same⟩ := before h' c'' found'
    exact noneDead.inMap h' c old (same.trans added)
  · intro h' c'' found'
    obtain ⟨c, old, -⟩ := before h' c'' found'
    exact noneDead.alive h' c old

/-- A connection is added with its socket exactly when `epoll` takes it. -/
theorem addConnection_iff {accepted : Bool} (noneDead : s.NoneDead) (sound : s.Sound)
    (found : s.loop.conns h = some c) (queued : c.added = false) :
    (s.addConnection h c accepted).NoneDead ↔ accepted = true := by
  obtain ⟨fd, fdEq, isOpen⟩ := noneDead.alive h c found
  have unregistered : s.epoll fd ≠ some h := by
    intro epollEq
    obtain ⟨-, c', found', added⟩ := sound.registered h fd epollEq
    obtain rfl := Option.some.inj (found.symm.trans found')
    exact absurd (queued.symm.trans added) Bool.false_ne_true
  rw [addConnection_of_some fdEq]
  constructor
  · intro after
    by_contra refused
    obtain ⟨fd', fdEq', -, epollEq⟩ := after.inMap h _ (Function.update_self ..) rfl
    obtain rfl := Option.some.inj (fdEq.symm.trans fdEq')
    rw [if_neg refused] at epollEq
    exact unregistered epollEq
  · rintro rfl
    constructor
    · intro h' c' found' added
      rcases Table.update_eq_some.mp found' with ⟨rfl, -⟩ | ⟨distinct, old⟩
      · exact ⟨fd, fdEq, isOpen, Function.update_self ..⟩
      · obtain ⟨fd', fdEq', isOpen', epollEq⟩ := noneDead.inMap h' c' old added
        have other : fd' ≠ fd := by
          rintro rfl
          exact distinct (sound.distinct h h' fd' fdEq fdEq')
        exact ⟨fd', fdEq', isOpen', (Function.update_of_ne other _ _).trans epollEq⟩
    · intro h' c' found'
      rcases Table.update_eq_some.mp found' with ⟨rfl, -⟩ | ⟨-, old⟩
      · exact ⟨fd, fdEq, isOpen⟩
      · exact noneDead.alive h' c' old

/-- A new connection that could be connected has a socket. -/
theorem connectServer {l : Listed} (noneDead : s.NoneDead) (reachable : true ∈ l.attempts) :
    (s.connectServer l fd).NoneDead := by
  constructor
  · intro h' c' found' added
    rw [loop_connectServer] at found'
    rcases Table.update_eq_some.mp found' with ⟨-, isNew⟩ | ⟨distinct, old⟩
    · obtain rfl := Option.some.inj isNew
      exact absurd added Bool.false_ne_true
    · obtain ⟨fd', fdEq, isOpen, epollEq⟩ := noneDead.inMap h' c' old added
      refine ⟨fd', fd_connectServer.mpr (Or.inr ⟨distinct, fdEq⟩),
        opened_connectServer.mpr (Or.inr isOpen), ?_⟩
      rw [epoll_connectServer]
      exact epollEq
  · intro h' c' found'
    rw [loop_connectServer] at found'
    rcases Table.update_eq_some.mp found' with ⟨rfl, -⟩ | ⟨distinct, old⟩
    · exact ⟨fd, fd_connectServer.mpr (Or.inl ⟨rfl, reachable, rfl⟩),
        opened_connectServer.mpr (Or.inl ⟨rfl, reachable⟩)⟩
    · obtain ⟨fd', fdEq, isOpen⟩ := noneDead.alive h' c' old
      exact ⟨fd', fd_connectServer.mpr (Or.inr ⟨distinct, fdEq⟩),
        opened_connectServer.mpr (Or.inr isOpen)⟩

/-- The listed servers get sockets exactly when each that is connected to accepts. -/
theorem checkServers_iff {smap : List (Listed × Nat)} (noneDead : s.NoneDead)
    (unused : s.loop.Unused (smap.map Prod.fst)) (fresh : s.Fresh smap) :
    (s.checkServers (some smap)).NoneDead ↔
      ∀ l ∈ smap, s.loop.getServer l.1.key = none → true ∈ l.1.attempts := by
  induction smap generalizing s with
  | nil => exact iff_of_true noneDead fun _ member => absurd member List.not_mem_nil
  | cons l smap ih =>
      rw [checkServers_cons, List.forall_mem_cons]
      split_ifs with listed
      · have present : s.loop.getServer l.1.key ≠ none := Option.isSome_iff_ne_none.mp listed
        rw [ih noneDead unused.tail fresh.tail]
        simp [present]
      · have absent : s.loop.getServer l.1.key = none := by simpa using listed
        have unusedAfter : (s.connectServer l.1 l.2).loop.Unused (smap.map Prod.fst) := by
          rw [loop_connectServer]
          exact unused.connectServer
        by_cases reachable : true ∈ l.1.attempts
        · have connected := @connectServer _ l.2 _ noneDead reachable
          rw [ih connected unusedAfter fresh.connectServer, loop_connectServer]
          simp only [absent, reachable, forall_const, true_and]
          exact Iff.rfl
        · apply iff_of_false
          · intro after
            have new : ∃ c, (s.connectServer l.1 l.2).loop.conns l.1.handle = some c := by
              rw [loop_connectServer]
              exact ⟨_, Function.update_self ..⟩
            have noFd : (s.connectServer l.1 l.2).fd l.1.handle = none := by
              rw [Sockets.connectServer, if_neg reachable]
              exact Function.update_self ..
            obtain ⟨c, new⟩ := new
            obtain ⟨conEq, fdEq⟩ := checkServers_keeps unusedAfter fresh.connectServer new
            obtain ⟨fd, fdEq', -⟩ := after.alive _ _ conEq
            exact absurd ((fdEq.trans noFd).symm.trans fdEq') (by simp)
          · intro allReachable
            exact reachable (allReachable.1 absent)

/-- A step keeps the property exactly when it meets the guard. -/
theorem step_iff {event : Event} (noneDead : s.NoneDead) (sound : s.Sound)
    (taken : Step s event t) : t.NoneDead ↔ s.Guard event := by
  cases taken with
  | @checkServers _ loaded fresh =>
      cases loaded with
      | none => exact iff_of_true noneDead fun _ loadedEq => absurd loadedEq (by simp)
      | some smap =>
          obtain ⟨unused, freshFds⟩ := fresh smap rfl
          rw [noneDead.checkServers_iff unused freshFds]
          simp [Guard]
  | add found queued => exact noneDead.addConnection_iff sound found queued
  | @connected _ h c sockopt sent found =>
      refine iff_of_true ?_ trivial
      by_cases succeeds : sockopt = true ∧ sent = true
      · rw [handleConnected_succeeds succeeds]
        have sameSlot : { c with client := .connected }.added = c.added := rfl
        exact noneDead.setCon found sameSlot rfl
      · rw [handleConnected_fails succeeds]
        exact noneDead.recycle sound
  | @response _ h c lgresp found =>
      by_cases refused : lgresp.status < 0
      · rw [handleRegisterResponse, if_pos refused]
        apply iff_of_false
        · intro after
          obtain ⟨fd, fdEq, -⟩ := after.alive h _ (Function.update_self ..)
          exact absurd (fd_release_self.symm.trans fdEq) (by simp)
        · exact Int.not_le.mpr refused
      · obtain ⟨c', place, d, conns, loopEq⟩ := handleRegisterResponse_accepts refused
        rw [loopEq]
        exact iff_of_true (noneDead.setCon found place conns) (Int.not_lt.mp refused)
  | packet => exact iff_of_true noneDead trivial
  | keepAlive => exact iff_of_true noneDead trivial
  | fail =>
      rw [onFail_eq]
      exact iff_of_true (noneDead.recycle sound) trivial
  | close => exact iff_of_true (noneDead.recycle sound) trivial

end NoneDead

/-- The runs in which each server that is connected to accepts, `epoll` takes every socket
and no registration is refused are those in which no dead connection ever lingers. -/
theorem guarded_iff_noneDead {events : List Event} :
    Run Step Guard init events s ↔
      Run Step (fun s _ => s.NoneDead) init events s ∧ s.NoneDead := by
  apply @Run.guarded_iff _ _ _ _ NoneDead _ _ _ noneDead_init
  intro s event t reached noneDead taken
  exact noneDead.step_iff (sound_of_reachable reached) taken

/-! ## Connections without a socket -/

/-- The connection at `h` is in `m_con_map` and has no socket. -/
def Dead (s : Sockets) (h : Handle) : Prop :=
  s.fd h = none ∧ ∃ c, s.loop.conns h = some c ∧ c.added = true

theorem Dead.not_noneDead (dead : s.Dead h) : ¬s.NoneDead := by
  obtain ⟨noFd, c, found, -⟩ := dead
  intro noneDead
  obtain ⟨fd, fdEq, -⟩ := noneDead.alive h c found
  exact absurd (noFd.symm.trans fdEq) (by simp)

theorem Dead.not_owns (dead : s.Dead h) : ¬s.Owns h := by
  rintro ⟨fd, fdEq, -⟩
  exact absurd (dead.1.symm.trans fdEq) (by simp)

/-- No socket comes from the end of a connection. -/
theorem Dead.release {d : Loop} (dead : s.Dead h) (others : d.conns h = s.loop.conns h) :
    ((s.release h').setLoop d).Dead h := by
  obtain ⟨noFd, c, found, added⟩ := dead
  refine ⟨?_, c, others.trans found, added⟩
  rcases fdEq : (s.release h').fd h with _ | fd
  · exact fdEq
  · exact absurd (noFd.symm.trans (fd_release.mp fdEq).2) (by simp)

theorem Dead.recycle (dead : s.Dead h) (distinct : h ≠ h') : (s.recycle h' c).Dead h :=
  dead.release (Function.update_of_ne distinct _ _)

theorem Dead.setLoop {d : Loop} (dead : s.Dead h) (others : d.conns h = s.loop.conns h) :
    (s.setLoop d).Dead h := by
  obtain ⟨noFd, c, found, added⟩ := dead
  exact ⟨noFd, c, others.trans found, added⟩

/-- The destructor of the connection at `h` is not called by hand. -/
def NotClosed (h : Handle) (_ : Sockets) : Event → Prop
  | .close h' => h' ≠ h
  | _ => True

theorem Dead.step {event : Event} (dead : s.Dead h) (notClosed : NotClosed h s event)
    (taken : Step s event t) : t.Dead h := by
  -- the events of a connection need its socket
  have other : ∀ h', s.Owns h' → h ≠ h' := by
    rintro h' owns rfl
    exact dead.not_owns owns
  cases taken with
  | @checkServers _ loaded fresh =>
      cases loaded with
      | none => exact dead
      | some smap =>
          obtain ⟨noFd, c, found, added⟩ := dead
          obtain ⟨conEq, fdEq⟩ := checkServers_keeps (fresh smap rfl).1 (fresh smap rfl).2 found
          exact ⟨fdEq.trans noFd, c, conEq, added⟩
  | @add _ h' c accepted found queued =>
      have distinct : h ≠ h' := by
        rintro rfl
        obtain ⟨-, c', found', added⟩ := dead
        obtain rfl := Option.some.inj (found.symm.trans found')
        exact absurd (queued.symm.trans added) Bool.false_ne_true
      obtain ⟨noFd, c', found', added⟩ := dead
      have conEq := (Function.update_of_ne distinct (some { c with added := true })
        s.loop.conns).trans found'
      rcases fdEq : s.fd h' with _ | fd
      · rw [addConnection_of_none fdEq]
        exact ⟨noFd, c', conEq, added⟩
      · rw [addConnection_of_some fdEq]
        exact ⟨noFd, c', conEq, added⟩
  | @connected _ h' c sockopt sent _ _ owns =>
      by_cases succeeds : sockopt = true ∧ sent = true
      · rw [handleConnected_succeeds succeeds]
        exact dead.setLoop (Function.update_of_ne (other h' owns) _ _)
      · rw [handleConnected_fails succeeds]
        exact dead.recycle (other h' owns)
  | @response _ h' c lgresp _ _ owns =>
      by_cases refused : lgresp.status < 0
      · rw [handleRegisterResponse, if_pos refused]
        exact dead.release (Function.update_of_ne (other h' owns) _ _)
      · obtain ⟨c', -, d, conns, loopEq⟩ := handleRegisterResponse_accepts refused
        rw [loopEq]
        exact dead.setLoop (conns ▸ Function.update_of_ne (other h' owns) _ _)
  | packet => exact dead
  | keepAlive => exact dead
  | @fail _ h' _ _ _ owns =>
      rw [onFail_eq]
      exact dead.recycle (other h' owns)
  | close => exact dead.recycle (Ne.symm notClosed)

/-- A connection that has no socket stays in `m_con_map` until the loop closes all its
connections. -/
theorem dead_until_closed {events : List Event} (run : Run Step (NotClosed h) s events t)
    (dead : s.Dead h) : t.Dead h := by
  refine @Run.invariant _ _ _ _ (fun s => s.Dead h) _ _ _ dead ?_ run
  intro _ _ _ dead notClosed taken
  exact dead.step notClosed taken

/-! ## Runs with one server -/

/-- The server 7, where no address can be connected to. -/
def unreachable : Listed := { Loop.listed 0 with attempts := [false, false] }

/-- The connection to it is added without a socket. -/
def adds : List Event := [.checkServers (some [(unreachable, 3)]), .add 0 true, .keepAlive 0]

theorem step_check {l : Listed} :
    Step init (.checkServers (some [(l, 3)])) (init.checkServers (some [(l, 3)])) := by
  apply Step.checkServers
  intro smap smapEq
  obtain rfl := Option.some.inj smapEq
  exact ⟨⟨List.nodup_singleton _, fun _ _ => rfl⟩, List.nodup_singleton _, fun _ _ => rfl⟩

/-- The events until it is connected. -/
def connects : List Event :=
  [.checkServers (some [(Loop.listed 0, 3)]), .add 0 true, .connected 0 true true]

theorem run_connects :
    ∃ s, Run Step Guard init connects s ∧
      s.loop.conns 0 = some (Loop.toServer .connected .init true) ∧ s.Owns 0 := by
  have reachable : Guard init (.checkServers (some [(Loop.listed 0, 3)])) := by
    intro smap smapEq l member _
    obtain rfl := Option.some.inj smapEq
    obtain rfl := List.mem_singleton.mp member
    exact List.mem_singleton_self _
  have checks := Run.single reachable step_check
  have accepted : Guard (init.checkServers (some [(Loop.listed 0, 3)])) (.add 0 true) := rfl
  have adds := checks.snoc accepted (.add (c := Loop.toServer .connecting .init false) rfl rfl)
  have connects := adds.snoc (show Guard _ (.connected 0 true true) from trivial)
    (.connected (c := Loop.toServer .connecting .init true) rfl rfl ⟨3, rfl, rfl, rfl⟩ rfl)
  exact ⟨_, connects, rfl, 3, rfl, rfl, rfl⟩

/-- No address can be connected to, and the connection is added all the same.  Or its
registration is refused, and it is not recycled. -/
theorem dead_connections_linger :
    (∃ s, Run Step anyStep init adds s ∧ s.Dead 0 ∧ ¬s.NoneDead) ∧
      ∃ s, Run Step anyStep init (connects ++ [.response 0 ⟨-60, []⟩, .keepAlive 0]) s ∧
        s.Dead 0 ∧ ¬s.NoneDead := by
  constructor
  · have checks : Run Step anyStep init _ _ := Run.single trivial (step_check (l := unreachable))
    have adds := checks.snoc (show anyStep _ (.add 0 true) from trivial)
      (.add (c := Loop.toServer .init .init false) rfl rfl)
    have waits := adds.snoc (show anyStep _ (.keepAlive 0) from trivial)
      (.keepAlive (c := Loop.toServer .init .init true) rfl rfl)
    have lingers : ∃ s, Run Step anyStep init Sockets.adds s ∧ s.Dead 0 :=
      ⟨_, waits, rfl, Loop.toServer .init .init true, rfl, rfl⟩
    obtain ⟨s, run, dead⟩ := lingers
    exact ⟨s, run, dead, dead.not_noneDead⟩
  · obtain ⟨s, run, found, owns⟩ := run_connects
    have connected : Run Step anyStep init connects s := run.mono fun _ _ _ => trivial
    have refuses := connected.snoc (show anyStep _ (.response 0 ⟨-60, []⟩) from trivial)
      (.response found rfl owns rfl)
    have disconnected : s.handleRegisterResponse 0 (Loop.toServer .connected .init true)
        ⟨-60, []⟩ = s.disconnect 0 (Loop.toServer .connected .init true) := rfl
    have found' : (s.disconnect 0 (Loop.toServer .connected .init true)).loop.conns 0 =
        some (Loop.toServer .init .init true) := by
      simp [disconnect, Loop.disconnect, Loop.setCon, Loop.toServer]
    have dead : (s.disconnect 0 (Loop.toServer .connected .init true)).Dead 0 :=
      ⟨fd_release_self, Loop.toServer .init .init true, found', rfl⟩
    rw [disconnected] at refuses
    have waits := refuses.snoc (show anyStep _ (.keepAlive 0) from trivial)
      (.keepAlive found' rfl)
    rw [List.append_assoc] at waits
    exact ⟨_, waits, dead, dead.not_noneDead⟩

end Sockets

end GPush.PushServer
