import GPush.ConnectServer.CliCon
import GPush.ConnectServer.Lookup
import GPush.Discovery.ServerStatus

/-!
# The connections to the connect servers

An event loop of a push server connects to every listed server that `m_svcons` does not
have.  A connection enters the map when it is registered.  It takes its server out of
the map when it is disconnected and once more when it is destroyed, whichever connection
the entry is for.
-/

namespace GPush.PushServer

open GPush.ConnectServer GPush.Discovery GPush.Transition

/-- `Client::m_status`. -/
inductive ClientStatus
  | init
  | connecting
  | connected
  deriving DecidableEq, Repr

/-- The fields of `SvCon`, and whether the event loop has added it. -/
structure SvCon where
  conServId : Int
  client : ClientStatus
  status : Status
  sessid : Bytes
  added : Bool
  deriving DecidableEq, Repr

/-- The login was accepted, and the connection has not been disconnected since. -/
def SvCon.Registered (c : SvCon) : Prop := c.client = .connected ∧ c.status = .login

/-- An entry of the status map: its key, the server, whether `connectTo` succeeds for the
addresses that `connectServer` tries, and the address of the new connection. -/
structure Listed where
  key : Int
  server : ServerStatus
  attempts : List Bool
  handle : Handle

/-- An event loop: `Svlist::m_svcons` and the connections that are alive. -/
structure Loop where
  svcons : Int → Option Handle
  conns : Handle → Option SvCon

namespace Loop

/-- A loop that has just started. -/
def init : Loop := ⟨fun _ => none, fun _ => none⟩

/-- `Svlist::addServer`. -/
def addServer (d : Loop) (id : Int) (con : Handle) : Loop :=
  { d with svcons := Function.update d.svcons id (some con) }

/-- `Svlist::delServer`. -/
def delServer (d : Loop) (id : Int) : Loop :=
  { d with svcons := Function.update d.svcons id none }

/-- `Svlist::getServer`. -/
def getServer (d : Loop) (id : Int) : Option Handle := d.svcons id

/-- The connection at `h` with other fields. -/
def setCon (d : Loop) (h : Handle) (c : SvCon) : Loop :=
  { d with conns := Function.update d.conns h (some c) }

/-- `Svlist::connectServer`.  The connection is given to the loop also when no address
could be connected to. -/
def connectServer (d : Loop) (s : Listed) : Loop :=
  d.setCon s.handle {
    conServId := s.server.ID
    client := if true ∈ s.attempts then .connecting else .init
    status := .init
    sessid := []
    added := false }

/-- `Svlist::checkServers`; `none` says that `loadData` has nothing new. -/
def checkServers (d : Loop) : Option (List Listed) → Loop
  | none => d
  | some smap =>
      smap.foldl (fun d s => if (d.getServer s.key).isSome then d else d.connectServer s) d

/-- `Client::disconnect`, with `SvCon::onDisconnected`. -/
def disconnect (d : Loop) (h : Handle) (c : SvCon) : Loop :=
  (d.delServer c.conServId).setCon h { c with client := .init }

/-- The destructor. -/
def recycle (d : Loop) (h : Handle) (c : SvCon) : Loop :=
  { d.delServer c.conServId with conns := Function.update d.conns h none }

/-- `Client::onFail`; `connectServer` has set `m_reconnect_span` to `0`. -/
def onFail (d : Loop) (h : Handle) (c : SvCon) : Loop :=
  (d.disconnect h c).recycle h { c with client := .init }

/-- `Client::handleConnected`, and `onFail` after a negative result; `sockopt` and `sent`
tell whether `getsockopt` and the `sendMessage` of `doRegister` succeed. -/
def handleConnected (d : Loop) (h : Handle) (c : SvCon) (sockopt sent : Bool) : Loop :=
  if sockopt = false then
    (d.disconnect h c).onFail h { c with client := .init }
  else
    let c := { c with client := .connected }
    if sent then d.setCon h c else (d.setCon h c).onFail h c

/-- `SvCon::handleRegisterResponse`.  The result of `ParseFromString` is dropped, so
`lgresp` is what the message holds after it. -/
def handleRegisterResponse (d : Loop) (h : Handle) (c : SvCon) (lgresp : LoginResponse) : Loop :=
  if lgresp.status < 0 then
    d.disconnect h c
  else
    (d.setCon h { c with status := .login, sessid := lgresp.sessid }).addServer c.conServId h

/-- What happens on the loop.  A failure is a negative result of an event handler. -/
inductive Event
  | checkServers (loaded : Option (List Listed))
  | add (h : Handle)
  | connected (h : Handle) (sockopt sent : Bool)
  | response (h : Handle) (lgresp : LoginResponse)
  | fail (h : Handle)
  | close (h : Handle)

/-- New connections have addresses of their own. -/
def Unused (d : Loop) (smap : List Listed) : Prop :=
  (smap.map Listed.handle).Nodup ∧ ∀ s ∈ smap, d.conns s.handle = none

/-- The step relation. -/
inductive Step : LTS Loop Event
  | checkServers {d : Loop} {loaded : Option (List Listed)} :
      (∀ smap, loaded = some smap → d.Unused smap) →
      Step d (.checkServers loaded) (d.checkServers loaded)
  | add {d : Loop} {h : Handle} {c : SvCon} : d.conns h = some c → c.added = false →
      Step d (.add h) (d.setCon h { c with added := true })
  | connected {d : Loop} {h : Handle} {c : SvCon} {sockopt sent : Bool} :
      d.conns h = some c → c.added = true → c.client = .connecting →
      Step d (.connected h sockopt sent) (d.handleConnected h c sockopt sent)
  | response {d : Loop} {h : Handle} {c : SvCon} {lgresp : LoginResponse} :
      d.conns h = some c → c.added = true → c.client = .connected →
      Step d (.response h lgresp) (d.handleRegisterResponse h c lgresp)
  | fail {d : Loop} {h : Handle} {c : SvCon} : d.conns h = some c → c.added = true →
      Step d (.fail h) (d.onFail h c)
  | close {d : Loop} {h : Handle} {c : SvCon} : d.conns h = some c → c.added = true →
      Step d (.close h) (d.recycle h c)

/-! ## The routing table -/

/-- The live connection `h` is for the server `k` and registered. -/
def RegisteredFor (d : Loop) (k : Int) (h : Handle) : Prop :=
  ∃ c, d.conns h = some c ∧ c.conServId = k ∧ c.Registered

/-- The map has the servers for which a live connection is registered, each with such a
connection. -/
structure Exact (d : Loop) : Prop where
  contains_iff : ∀ k, (d.svcons k).isSome ↔ ∃ h, d.RegisteredFor k h
  registered : ∀ k h, d.getServer k = some h → d.RegisteredFor k h

/-- No other connection is registered for the server of the connection at `h`. -/
def Alone (d : Loop) (h : Handle) : Prop :=
  ∀ c h', d.conns h = some c → h' ≠ h → ¬d.RegisteredFor c.conServId h'

/-- When a connection is disconnected or destroyed, no other one is registered for its
server. -/
def Guard (d : Loop) : Event → Prop
  | .connected h sockopt sent => sockopt = true ∧ sent = true ∨ d.Alone h
  | .response h lgresp => 0 ≤ lgresp.status ∨ d.Alone h
  | .fail h => d.Alone h
  | .close h => d.Alone h
  | _ => True

theorem exact_init : init.Exact := by
  constructor
  · intro k
    simp [init, RegisteredFor]
  · intro k h found
    simp [init, getServer] at found

variable {d : Loop} {h h' : Handle} {c c' : SvCon} {k : Int}

theorem registeredFor_setCon :
    (d.setCon h c).RegisteredFor k h' ↔
      h' = h ∧ c.conServId = k ∧ c.Registered ∨ h' ≠ h ∧ d.RegisteredFor k h' := by
  simp only [RegisteredFor, setCon, Table.update_eq_some]
  by_cases same : h' = h <;> simp [same]

theorem registeredFor_recycle :
    (d.recycle h c).RegisteredFor k h' ↔ h' ≠ h ∧ d.RegisteredFor k h' := by
  simp only [RegisteredFor, recycle, Table.update_eq_some]
  by_cases same : h' = h <;> simp [same]

/-- Disconnecting before the destructor changes nothing. -/
theorem onFail_eq : d.onFail h c = d.recycle h c := by
  simp [onFail, disconnect, recycle, delServer, setCon]

theorem handleConnected_fails {sockopt sent : Bool} (failed : ¬(sockopt = true ∧ sent = true)) :
    d.handleConnected h c sockopt sent = d.recycle h c := by
  rw [handleConnected]
  cases sockopt with
  | false => simp [onFail_eq, disconnect, recycle, delServer, setCon]
  | true =>
      cases sent with
      | false => simp [onFail_eq, recycle, delServer, setCon]
      | true => exact absurd ⟨rfl, rfl⟩ failed

namespace Exact

/-- What registers nobody and leaves the map alone. -/
theorem keep {conns : Handle → Option SvCon} (holds : d.Exact)
    (same : ∀ k h, RegisteredFor ⟨d.svcons, conns⟩ k h ↔ d.RegisteredFor k h) :
    Exact ⟨d.svcons, conns⟩ := by
  constructor
  · intro k
    rw [holds.contains_iff]
    exact exists_congr fun h => (same k h).symm
  · intro k h found
    exact (same k h).mpr (holds.registered k h found)

/-- A connection that leaves the map takes its entry with it. -/
theorem leave {conns : Handle → Option SvCon} (holds : d.Exact) (found : d.conns h = some c)
    (alone : d.Alone h)
    (leaves : ∀ k h', RegisteredFor ⟨(d.delServer c.conServId).svcons, conns⟩ k h' ↔
      h' ≠ h ∧ d.RegisteredFor k h') :
    Exact ⟨(d.delServer c.conServId).svcons, conns⟩ := by
  -- the other connections are registered for other servers
  have others : ∀ k h', h' ≠ h → d.RegisteredFor k h' → k ≠ c.conServId := by
    intro k h' distinct registered sameServer
    exact alone c h' found distinct (sameServer ▸ registered)
  have own : ∀ k, k ≠ c.conServId → ¬d.RegisteredFor k h := by
    rintro k otherServer ⟨c', found', serverEq, -⟩
    obtain rfl := Option.some.inj (found.symm.trans found')
    exact otherServer serverEq.symm
  constructor
  · intro k
    simp only [leaves]
    by_cases atServer : k = c.conServId
    · subst atServer
      simp only [delServer, Function.update_self, Option.isSome_none, Bool.false_eq_true,
        false_iff, not_exists, not_and]
      intro h' distinct registered
      exact others _ h' distinct registered rfl
    · simp only [delServer, Function.update_of_ne atServer]
      rw [holds.contains_iff]
      constructor
      · rintro ⟨h', registered⟩
        refine ⟨h', ?_, registered⟩
        rintro rfl
        exact own k atServer registered
      · rintro ⟨h', -, registered⟩
        exact ⟨h', registered⟩
  · intro k h' inMap
    by_cases atServer : k = c.conServId
    · subst atServer
      simp [getServer, delServer] at inMap
    · simp only [getServer, delServer, Function.update_of_ne atServer] at inMap
      have registered := holds.registered k h' inMap
      rw [leaves]
      constructor
      · rintro rfl
        exact own k atServer registered
      · exact registered

theorem recycle (holds : d.Exact) (found : d.conns h = some c) (alone : d.Alone h) :
    (d.recycle h c).Exact :=
  holds.leave found alone fun _ _ => registeredFor_recycle

theorem disconnect (holds : d.Exact) (found : d.conns h = some c) (alone : d.Alone h) :
    (d.disconnect h c).Exact := by
  apply holds.leave found alone
  intro k h'
  have off : ¬SvCon.Registered { c with client := .init } := fun registered =>
    absurd registered.1 (by simp)
  have setEq : ((d.delServer c.conServId).setCon h { c with client := .init }).RegisteredFor k h' ↔
      _ := registeredFor_setCon
  apply setEq.trans
  simp only [off, and_false, false_or]
  exact Iff.rfl

/-- A connection that is not registered is put where none is registered. -/
theorem setCon (holds : d.Exact) (same : c.Registered ↔ ∃ k, d.RegisteredFor k h)
    (sameServer : ∀ c', d.conns h = some c' → c'.conServId = c.conServId) :
    (d.setCon h c).Exact := by
  apply holds.keep
  intro k h'
  have setEq : (d.setCon h c).RegisteredFor k h' ↔ _ := registeredFor_setCon
  apply setEq.trans
  by_cases atH : h' = h
  · subst atH
    simp only [true_and, ne_eq, not_true_eq_false, false_and, or_false, same]
    constructor
    · rintro ⟨rfl, k, c', found, serverEq, registered⟩
      exact ⟨c', found, sameServer c' found, registered⟩
    · rintro ⟨c', found, serverEq, registered⟩
      exact ⟨(sameServer c' found).symm.trans serverEq, k, c', found, serverEq, registered⟩
  · simp [atH]

/-- A connection that registers takes the entry of its server. -/
theorem register (holds : d.Exact) (found : d.conns h = some c') (sameServer : c'.conServId = k)
    (forServer : c.conServId = k) (registered : c.Registered) :
    ((d.setCon h c).addServer k h).Exact := by
  have registeredIff : ∀ k' h', ((d.setCon h c).addServer k h).RegisteredFor k' h' ↔
      h' = h ∧ k' = k ∨ h' ≠ h ∧ d.RegisteredFor k' h' := by
    intro k' h'
    have setEq : (d.setCon h c).RegisteredFor k' h' ↔ _ := registeredFor_setCon
    apply setEq.trans
    simp [registered, forServer, eq_comm]
  have own : ∀ k', d.RegisteredFor k' h → k' = k := by
    rintro k' ⟨c'', found', serverEq, -⟩
    obtain rfl := Option.some.inj (found.symm.trans found')
    exact serverEq.symm.trans sameServer
  constructor
  · intro k'
    by_cases atServer : k' = k
    · subst atServer
      simp only [Loop.addServer, Function.update_self, Option.isSome_some, true_iff]
      exact ⟨h, (registeredIff _ _).mpr (Or.inl ⟨rfl, rfl⟩)⟩
    · simp only [Loop.addServer, Function.update_of_ne atServer]
      apply (holds.contains_iff k').trans
      apply exists_congr
      intro h'
      apply Iff.trans _ (registeredIff k' h').symm
      constructor
      · intro registered'
        refine Or.inr ⟨?_, registered'⟩
        rintro rfl
        exact atServer (own k' registered')
      · rintro (⟨-, isServer⟩ | ⟨-, registered'⟩)
        · exact absurd isServer atServer
        · exact registered'
  · intro k' h' inMap
    rw [registeredIff]
    by_cases atServer : k' = k
    · subst atServer
      simp only [getServer, Loop.addServer, Function.update_self, Option.some.injEq] at inMap
      exact Or.inl ⟨inMap.symm, rfl⟩
    · simp only [getServer, Loop.addServer, Function.update_of_ne atServer] at inMap
      have registered' := holds.registered k' h' inMap
      refine Or.inr ⟨?_, registered'⟩
      rintro rfl
      exact atServer (own k' registered')

end Exact

/-- A connection that is connecting has not been registered before. -/
def Fresh (d : Loop) : Prop :=
  ∀ h c, d.conns h = some c → c.client = .connecting → c.status = .init

theorem Fresh.setCon (fresh : d.Fresh) (new : c.client = .connecting → c.status = .init) :
    (d.setCon h c).Fresh := by
  intro h' c' found connecting
  rcases Table.update_eq_some.mp found with ⟨-, conEq⟩ | ⟨-, old⟩
  · obtain rfl := Option.some.inj conEq
    exact new connecting
  · exact fresh h' c' old connecting

theorem Fresh.recycle (fresh : d.Fresh) : (d.recycle h c).Fresh := by
  intro h' c' found connecting
  rcases Table.update_eq_some.mp found with ⟨-, gone⟩ | ⟨-, old⟩
  · exact absurd gone (by simp)
  · exact fresh h' c' old connecting

/-- The invariant. -/
structure Sound (d : Loop) : Prop where
  exact : d.Exact
  fresh : d.Fresh

theorem Unused.tail {s : Listed} {smap : List Listed} (unused : d.Unused (s :: smap)) :
    d.Unused smap :=
  ⟨(List.nodup_cons.mp unused.1).2, fun s' member => unused.2 s' (List.mem_cons_of_mem _ member)⟩

/-- The other new connections have addresses of their own also after the first one. -/
theorem Unused.connectServer {s : Listed} {smap : List Listed} (unused : d.Unused (s :: smap)) :
    (d.connectServer s).Unused smap := by
  constructor
  · exact unused.tail.1
  · intro s' member
    have other : s'.handle ≠ s.handle := by
      intro same
      exact (List.nodup_cons.mp unused.1).1 (same ▸ List.mem_map_of_mem member)
    exact (Function.update_of_ne other _ _).trans (unused.tail.2 s' member)

theorem checkServers_cons {s : Listed} {smap : List Listed} :
    d.checkServers (some (s :: smap)) =
      (if (d.getServer s.key).isSome then d else d.connectServer s).checkServers (some smap) :=
  rfl

/-- The rule for the loop over the listed servers: what each new connection keeps holds
afterwards. -/
theorem checkServers_rule (inv : Loop → Prop) {smap : List Listed} (unused : d.Unused smap)
    (start : inv d) (kept : ∀ (d : Loop) (s : Listed), inv d → d.conns s.handle = none →
      inv (d.connectServer s)) : inv (d.checkServers (some smap)) := by
  induction smap generalizing d with
  | nil => exact start
  | cons s smap ih =>
      rw [checkServers_cons]
      split_ifs
      · exact ih unused.tail start
      · exact ih unused.connectServer (kept d s start (unused.2 s List.mem_cons_self))

namespace Sound

theorem recycle (sound : d.Sound) (found : d.conns h = some c) (alone : d.Alone h) :
    (d.recycle h c).Sound :=
  ⟨sound.exact.recycle found alone, sound.fresh.recycle⟩

theorem disconnect (sound : d.Sound) (found : d.conns h = some c) (alone : d.Alone h) :
    (d.disconnect h c).Sound := by
  constructor
  · exact sound.exact.disconnect found alone
  · exact Fresh.setCon sound.fresh fun connecting => absurd connecting (by simp)

theorem connectServer (sound : d.Sound) {s : Listed} (unused : d.conns s.handle = none) :
    (d.connectServer s).Sound := by
  constructor
  · apply sound.exact.setCon
    · simp [SvCon.Registered, RegisteredFor, unused]
    · intro c' found
      exact absurd (unused.symm.trans found) (by simp)
  · exact sound.fresh.setCon fun _ => rfl

theorem handleConnected (sound : d.Sound) (found : d.conns h = some c)
    (connecting : c.client = .connecting) {sockopt sent : Bool}
    (guarded : d.Guard (.connected h sockopt sent)) :
    (d.handleConnected h c sockopt sent).Sound := by
  by_cases succeeds : sockopt = true ∧ sent = true
  · have atStart := sound.fresh h c found connecting
    rw [Loop.handleConnected, if_neg (by simp [succeeds.1]), if_pos succeeds.2]
    constructor
    · apply sound.exact.setCon
      · simp [SvCon.Registered, RegisteredFor, found, connecting, atStart]
      · intro c' found'
        obtain rfl := Option.some.inj (found.symm.trans found')
        rfl
    · exact sound.fresh.setCon fun connecting => absurd connecting (by simp)
  · rw [handleConnected_fails succeeds]
    exact sound.recycle found (guarded.resolve_left succeeds)

theorem handleRegisterResponse (sound : d.Sound) (found : d.conns h = some c)
    (connected : c.client = .connected) {lgresp : LoginResponse}
    (guarded : d.Guard (.response h lgresp)) : (d.handleRegisterResponse h c lgresp).Sound := by
  rw [Loop.handleRegisterResponse]
  split_ifs with refused
  · exact sound.disconnect found (guarded.resolve_left (Int.not_le.mpr refused))
  · constructor
    · exact sound.exact.register found rfl rfl ⟨connected, rfl⟩
    · exact Fresh.setCon sound.fresh fun connecting =>
        absurd (connected.symm.trans connecting) (by decide)

/-- The step lemma. -/
theorem step {event : Event} {t : Loop} (sound : d.Sound) (guarded : d.Guard event)
    (taken : Step d event t) : t.Sound := by
  cases taken with
  | @checkServers _ loaded unused =>
      cases loaded with
      | none => exact sound
      | some smap =>
          exact checkServers_rule Sound (unused smap rfl) sound fun _ _ sound free =>
            sound.connectServer free
  | @add _ h c found =>
      constructor
      · apply sound.exact.setCon
        · simp [SvCon.Registered, RegisteredFor, found]
        · intro c' found'
          obtain rfl := Option.some.inj (found.symm.trans found')
          rfl
      · exact sound.fresh.setCon (sound.fresh h c found)
  | connected found _ connecting => exact sound.handleConnected found connecting guarded
  | response found _ connected => exact sound.handleRegisterResponse found connected guarded
  | fail found =>
      rw [onFail_eq]
      exact sound.recycle found guarded
  | close found => exact sound.recycle found guarded

end Sound

/-- In every run in which a connection is disconnected or destroyed only while no other
one is registered for its server, the routing table is exact in the state reached. -/
theorem exact_of_guarded {events : List Event} (run : Run Step Guard init events d) : d.Exact := by
  have start : init.Sound := ⟨exact_init, fun h c found => absurd found (by simp [init])⟩
  have sound : d.Sound := run.invariant start fun _ _ _ sound guarded taken =>
    sound.step guarded taken
  exact sound.exact

/-! ## Runs with one server -/

/-- The server 7 is listed, and `connectTo` succeeds; the connection is put at `h`. -/
def listed (h : Handle) : Listed := ⟨7, ⟨7, [[49]], [⟨6000, 100, 1, .null⟩], .null⟩, [true], h⟩

/-- The connection to it, on its way to being registered. -/
def toServer (client : ClientStatus) (status : Status) (added : Bool) : SvCon :=
  ⟨7, client, status, [], added⟩

/-- The lists are read whatever has been connected to before. -/
theorem step_listed {h : Handle} (unused : d.conns h = none) :
    Step d (.checkServers (some [listed h])) (d.checkServers (some [listed h])) := by
  apply Step.checkServers
  intro smap smapEq
  obtain rfl := Option.some.inj smapEq
  constructor
  · simp
  · simpa [listed] using unused

/-- What brings a connection from its construction to its registration. -/
def registers (h : Handle) : List Event :=
  [.add h, .connected h true true, .response h ⟨0, []⟩]

/-- The loop after it. -/
def afterRegisters (d : Loop) (h : Handle) : Loop :=
  (((d.setCon h (toServer .connecting .init true)).handleConnected h
    (toServer .connecting .init true) true true).handleRegisterResponse h
      (toServer .connected .init true) ⟨0, []⟩)

theorem run_registers (found : d.conns h = some (toServer .connecting .init false)) :
    Run Step Guard d (registers h) (d.afterRegisters h) := by
  have added : (d.setCon h (toServer .connecting .init true)).conns h =
      some (toServer .connecting .init true) := Function.update_self _ _ _
  have connected : ((d.setCon h (toServer .connecting .init true)).handleConnected h
      (toServer .connecting .init true) true true).conns h =
      some (toServer .connected .init true) := Function.update_self _ _ _
  have connects : Guard (d.setCon h (toServer .connecting .init true)) (.connected h true true) :=
    Or.inl ⟨rfl, rfl⟩
  have accepted : Guard ((d.setCon h (toServer .connecting .init true)).handleConnected h
      (toServer .connecting .init true) true true) (.response h ⟨0, []⟩) :=
    Or.inl (Int.le_refl 0)
  exact Run.cons trivial (Step.add found rfl)
    (Run.cons connects (Step.connected added rfl rfl)
      (Run.single accepted (Step.response connected rfl rfl)))

/-- The loop after the list has been read twice, before the first connection has
registered. -/
def readTwice : Loop := (init.checkServers (some [listed 0])).checkServers (some [listed 1])

theorem run_readTwice :
    Run Step Guard init [.checkServers (some [listed 0]), .checkServers (some [listed 1])]
      readTwice :=
  (Run.single trivial (step_listed rfl)).snoc trivial (step_listed rfl)

/-- Both connections are there.  The first one registers and fails before the second one
registers. -/
theorem exact_of_guarded_replaced :
    ∃ d events, Run Step Guard init events d ∧ Event.fail 0 ∈ events ∧ d.conns 0 = none ∧
      d.getServer 7 = some 1 ∧ d.RegisteredFor 7 1 := by
  have first := run_readTwice.trans (run_registers (h := 0) rfl)
  -- the second connection is there, and not registered yet
  have alone : Guard (readTwice.afterRegisters 0) (.fail 0) := by
    rintro c h' - distinct ⟨c', found, -, registered⟩
    by_cases second : h' = 1
    · subst second
      obtain rfl : toServer .connecting .init false = c' := Option.some.inj found
      exact absurd registered.1 (by decide)
    · simp [afterRegisters, handleRegisterResponse, handleConnected, addServer, setCon,
        readTwice, checkServers, connectServer, listed, getServer, init, distinct,
        second] at found
  have fails := first.snoc alone
    (Step.fail (h := 0) (c := toServer .connected .login true) rfl rfl)
  have run := fails.trans (run_registers (h := 1) rfl)
  exact ⟨_, _, run, by simp, rfl, rfl, (exact_of_guarded run).registered 7 1 rfl⟩

/-- Both connections register.  When the first one fails, it takes the entry of the second
with it. -/
theorem second_connection_loses_entry :
    ∃ d events, Run Step anyStep init events d ∧ d.getServer 7 = none ∧ d.RegisteredFor 7 1 ∧
      ¬d.Exact := by
  have both : Run Step Guard readTwice (registers 0 ++ registers 1) _ :=
    (run_registers rfl).trans (run_registers rfl)
  have run : Run Step anyStep init _ _ := (run_readTwice.trans both).mono fun _ _ _ => trivial
  have fails := run.snoc trivial (.fail (h := 0) (c := toServer .connected .login true) rfl rfl)
  refine ⟨_, _, fails, rfl, ⟨toServer .connected .login true, rfl, rfl, rfl, rfl⟩, ?_⟩
  intro exact
  have inMap := (exact.contains_iff 7).mpr ⟨1, toServer .connected .login true, rfl, rfl, rfl, rfl⟩
  exact absurd inMap (by decide)

end Loop

end GPush.PushServer
