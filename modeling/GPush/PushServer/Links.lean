import GPush.PushServer.SvManager
import GPush.PushServer.Svlist

/-!
# The links to the listed servers

`checkServers` connects to the listed servers when there is a newer list than the one it
has loaded, and at no other time.  A connection that fails is recycled, and one that is
refused is left alone.
-/

namespace GPush.PushServer

open GPush.ConnectServer GPush.Discovery GPush.Transition

/-- `ef::DataSrc`. -/
structure DataSrc (τ : Type*) where
  data : τ
  version : Nat

/-- `DataSrc::setData`. -/
def DataSrc.setData {τ : Type*} (src : DataSrc τ) (t : τ) : DataSrc τ := ⟨t, src.version + 1⟩

/-- `ef::Loader`. -/
structure Loader (τ : Type*) where
  data : τ
  version : Nat

/-- `Loader::loadData`, for which `getSersion` has answered `v`; `none` is `false`. -/
def Loader.loadData {τ : Type*} (loader : Loader τ) (v : Nat) (src : DataSrc τ) :
    Option (Loader τ) :=
  if loader.version < v then some ⟨src.data, v⟩ else none

namespace Loop

/-- The server of the connection at `h`. -/
def serverOf (d : Loop) (h : Handle) : List Int := (d.conns h).toList.map SvCon.conServId

/-- The server whose connection fails, is closed or is refused. -/
def lostBy (d : Loop) : Event → List Int
  | .connected h sockopt sent => if sockopt && sent then [] else d.serverOf h
  | .response h lgresp => if lgresp.status < 0 then d.serverOf h else []
  | .fail h => d.serverOf h
  | .close h => d.serverOf h
  | _ => []

/-- The servers that are to be connected to, and none of whose addresses can be. -/
def unreachable (d : Loop) (smap : List Listed) : List Int :=
  (smap.filter fun s => (d.getServer s.key).isNone && decide (true ∉ s.attempts)).map Listed.key

/-- A live connection to the server is connecting, registering or registered. -/
def Linked (d : Loop) (k : Int) : Prop :=
  ∃ h c, d.conns h = some c ∧ c.conServId = k ∧ c.client ≠ .init

/-- The entries of the map are registered connections. -/
def Valid (d : Loop) : Prop := ∀ k h, d.getServer k = some h → d.RegisteredFor k h

end Loop

/-- The list of the servers, an event loop with the list that it has loaded, the
`CheckConnectServerOp`s in its queue and those that a thread has still to add; and the
servers that could not be connected to when it was loaded, or have lost a connection
since. -/
structure Svlist where
  src : DataSrc StatusMap
  loop : Loop
  loader : Loader StatusMap
  checks : Nat
  notices : Nat
  lost : List Int

namespace Svlist

/-- The state at the start. -/
def init : Svlist := ⟨⟨[], 0⟩, .init, ⟨[], 0⟩, 0, 0, []⟩

/-- `Svlist::checkServers`. -/
def checkServers (s : Svlist) (v : Nat) (smap : List Listed) : Svlist :=
  match s.loader.loadData v s.src with
  | none => { s with loop := s.loop.checkServers none }
  | some loader => { s with
      loop := s.loop.checkServers (some smap)
      loader := loader
      lost := s.loop.unreachable smap }

/-- What happens: another thread stores a list, or adds its operators; the loop processes
one, or goes on with its connections. -/
inductive Event
  | setData (m : StatusMap)
  | notify
  | check (v : Nat) (smap : List Listed)
  | loop (event : Loop.Event)

/-- The step relation.  The version that `loadData` compares may be an older one than that
of the list it copies. -/
inductive Step : LTS Svlist Event
  | setData {s : Svlist} {m : StatusMap} :
      Step s (.setData m) { s with src := s.src.setData m, notices := s.notices + 1 }
  | notify {s : Svlist} {n : Nat} : s.notices = n + 1 →
      Step s .notify { s with notices := n, checks := s.checks + 1 }
  | check {s : Svlist} {n v : Nat} {smap : List Listed} : s.checks = n + 1 → v ≤ s.src.version →
      smap.map (fun l => (l.key, l.server)) = s.src.data → s.loop.Unused smap →
      Step s (.check v smap) { s.checkServers v smap with checks := n }
  | loop {s : Svlist} {event : Loop.Event} {d : Loop} : (∀ l, event ≠ .checkServers l) →
      Loop.Step s.loop event d →
      Step s (.loop event) { s with loop := d, lost := s.lost ++ s.loop.lostBy event }

/-- Nothing is queued on the loop. -/
structure Quiet (s : Svlist) : Prop where
  checks : s.checks = 0
  added : ∀ h c, s.loop.conns h = some c → c.added = true

end Svlist

namespace Loop

variable {d t : Loop} {h : Handle} {c : SvCon} {k : Int}

/-! ## The entries of the map -/

theorem valid_init : init.Valid := by
  intro k h found
  simp [init, getServer] at found

/-- A connection that is registered as before. -/
theorem Valid.setCon (valid : d.Valid)
    (same : ∀ k, d.RegisteredFor k h → c.conServId = k ∧ c.Registered) : (d.setCon h c).Valid := by
  intro k h' found
  have registered := valid k h' found
  rw [registeredFor_setCon]
  by_cases atH : h' = h
  · subst atH
    exact Or.inl ⟨rfl, same k registered⟩
  · exact Or.inr ⟨atH, registered⟩

/-- A connection leaves the map. -/
theorem Valid.leave {conns : Handle → Option SvCon} (valid : d.Valid) (found : d.conns h = some c)
    (others : ∀ h', h' ≠ h → conns h' = d.conns h') :
    Valid ⟨(d.delServer c.conServId).svcons, conns⟩ := by
  intro k h' inMap
  by_cases atServer : k = c.conServId
  · subst atServer
    simp [getServer, delServer] at inMap
  · simp only [getServer, delServer, Function.update_of_ne atServer] at inMap
    obtain ⟨c', found', serverEq, registered⟩ := valid k h' inMap
    have distinct : h' ≠ h := by
      rintro rfl
      obtain rfl := Option.some.inj (found.symm.trans found')
      exact atServer serverEq.symm
    exact ⟨c', (others h' distinct).trans found', serverEq, registered⟩

theorem Valid.recycle (valid : d.Valid) (found : d.conns h = some c) : (d.recycle h c).Valid :=
  valid.leave found fun _ distinct => Function.update_of_ne distinct _ _

theorem Valid.disconnect (valid : d.Valid) (found : d.conns h = some c) :
    (d.disconnect h c).Valid :=
  valid.leave found fun _ distinct => Function.update_of_ne distinct _ _

theorem Valid.register {c' : SvCon} (valid : d.Valid) (found : d.conns h = some c')
    (sameServer : c'.conServId = c.conServId) (registered : c.Registered) :
    ((d.setCon h c).addServer c.conServId h).Valid := by
  intro k h' inMap
  have newCon : ((d.setCon h c).addServer c.conServId h).conns h = some c :=
    Function.update_self _ _ _
  by_cases atServer : k = c.conServId
  · subst atServer
    simp only [getServer, addServer, Function.update_self, Option.some.injEq] at inMap
    subst inMap
    exact ⟨c, newCon, rfl, registered⟩
  · simp only [getServer, addServer, Function.update_of_ne atServer] at inMap
    obtain ⟨c'', found', serverEq, registered'⟩ := valid k h' inMap
    have distinct : h' ≠ h := by
      rintro rfl
      obtain rfl := Option.some.inj (found.symm.trans found')
      exact atServer (serverEq.symm.trans sameServer)
    exact ⟨c'', (Function.update_of_ne distinct _ _).trans found', serverEq, registered'⟩

/-- What a step of the loop keeps. -/
theorem Valid.step {event : Event} (valid : d.Valid) (other : ∀ l, event ≠ .checkServers l)
    (taken : Step d event t) : t.Valid := by
  cases taken with
  | checkServers => exact absurd rfl (other _)
  | @add _ h c found =>
      apply valid.setCon
      rintro k ⟨c', found', serverEq, registered⟩
      obtain rfl := Option.some.inj (found.symm.trans found')
      exact ⟨serverEq, registered⟩
  | @connected _ h c sockopt sent found _ connecting =>
      by_cases succeeds : sockopt = true ∧ sent = true
      · rw [handleConnected, if_neg (by simp [succeeds.1]), if_pos succeeds.2]
        apply valid.setCon
        rintro k ⟨c', found', -, registered⟩
        obtain rfl := Option.some.inj (found.symm.trans found')
        exact absurd (connecting.symm.trans registered.1) (by decide)
      · rw [handleConnected_fails succeeds]
        exact valid.recycle found
  | @response _ h c lgresp found _ connected =>
      rw [handleRegisterResponse]
      split_ifs
      · exact valid.disconnect found
      · exact valid.register (c := { c with status := .login, sessid := lgresp.sessid }) found rfl
          ⟨connected, rfl⟩
  | fail found =>
      rw [onFail_eq]
      exact valid.recycle found
  | close found => exact valid.recycle found

/-! ## The links -/

theorem Linked.mono (linked : d.Linked k)
    (kept : ∀ h c, d.conns h = some c → t.conns h = some c) : t.Linked k := by
  obtain ⟨h, c, found, serverEq, live⟩ := linked
  exact ⟨h, c, kept h c found, serverEq, live⟩

theorem RegisteredFor.linked (registered : d.RegisteredFor k h) : d.Linked k := by
  obtain ⟨c, found, serverEq, registered⟩ := registered
  exact ⟨h, c, found, serverEq, by simp [registered.1]⟩

/-- The link is another connection than the one that changes, or it is that one. -/
theorem Linked.elsewhere (linked : d.Linked k) (found : d.conns h = some c)
    (others : ∀ h', h' ≠ h → t.conns h' = d.conns h') :
    t.Linked k ∨ c.conServId = k ∧ c.client ≠ .init := by
  obtain ⟨h', c', found', serverEq, live⟩ := linked
  by_cases atH : h' = h
  · subst atH
    obtain rfl := Option.some.inj (found.symm.trans found')
    exact Or.inr ⟨serverEq, live⟩
  · exact Or.inl ⟨h', c', (others h' atH).trans found', serverEq, live⟩

theorem Linked.setCon {c' : SvCon} (linked : d.Linked k) (found : d.conns h = some c)
    (sameServer : c'.conServId = c.conServId) (live : c.client ≠ .init → c'.client ≠ .init) :
    (d.setCon h c').Linked k := by
  rcases linked.elsewhere (t := d.setCon h c') found
    (fun _ distinct => Function.update_of_ne distinct _ _) with kept | ⟨serverEq, wasLive⟩
  · exact kept
  · exact ⟨h, c', Function.update_self _ _ _, sameServer.trans serverEq, live wasLive⟩

theorem mem_serverOf (found : d.conns h = some c) : k ∈ d.serverOf h ↔ c.conServId = k := by
  simp [serverOf, found, eq_comm]

/-- A connection that is disconnected or destroyed may have been the only link. -/
theorem Linked.lost (linked : d.Linked k) (found : d.conns h = some c)
    (others : ∀ h', h' ≠ h → t.conns h' = d.conns h') : t.Linked k ∨ k ∈ d.serverOf h := by
  apply (linked.elsewhere found others).imp_right
  rintro ⟨serverEq, -⟩
  exact (mem_serverOf found).mpr serverEq

/-- What a step of the loop does to a link. -/
theorem Linked.step {event : Event} (linked : d.Linked k) (other : ∀ l, event ≠ .checkServers l)
    (taken : Step d event t) : t.Linked k ∨ k ∈ d.lostBy event := by
  cases taken with
  | checkServers => exact absurd rfl (other _)
  | add found => exact Or.inl (linked.setCon found rfl id)
  | @connected _ h c sockopt sent found =>
      by_cases succeeds : sockopt = true ∧ sent = true
      · rw [handleConnected, if_neg (by simp [succeeds.1]), if_pos succeeds.2]
        exact Or.inl (linked.setCon found rfl fun _ => by simp)
      · rw [handleConnected_fails succeeds, lostBy, if_neg (by simpa using succeeds)]
        exact linked.lost found fun _ distinct => Function.update_of_ne distinct _ _
  | @response _ h c lgresp found =>
      rw [handleRegisterResponse, lostBy]
      split_ifs
      · exact linked.lost found fun _ distinct => Function.update_of_ne distinct _ _
      · exact Or.inl (linked.setCon found rfl id)
  | fail found =>
      rw [onFail_eq]
      exact linked.lost found fun _ distinct => Function.update_of_ne distinct _ _
  | close found => exact linked.lost found fun _ distinct => Function.update_of_ne distinct _ _

theorem Linked.of_setCon {c' : SvCon} (linked : (d.setCon h c').Linked k)
    (found : d.conns h = some c) (sameServer : c'.conServId = c.conServId)
    (live : c'.client ≠ .init → c.client ≠ .init) : d.Linked k := by
  obtain ⟨h', c'', found', serverEq, live'⟩ := linked
  rcases Table.update_eq_some.mp found' with ⟨rfl, isNew⟩ | ⟨-, old⟩
  · obtain rfl := Option.some.inj isNew
    exact ⟨h', c, found, sameServer.symm.trans serverEq, live live'⟩
  · exact ⟨h', c'', old, serverEq, live'⟩

theorem Linked.of_recycle (linked : (d.recycle h c).Linked k) : d.Linked k := by
  obtain ⟨h', c', found, serverEq, live⟩ := linked
  rcases Table.update_eq_some.mp found with ⟨-, gone⟩ | ⟨-, old⟩
  · exact absurd gone (by simp)
  · exact ⟨h', c', old, serverEq, live⟩

/-- No connection that is not a link becomes one. -/
theorem Linked.of_step {event : Event} (linked : t.Linked k) (other : ∀ l, event ≠ .checkServers l)
    (taken : Step d event t) : d.Linked k := by
  cases taken with
  | checkServers => exact absurd rfl (other _)
  | add found => exact linked.of_setCon found rfl id
  | @connected _ h c sockopt sent found _ connecting =>
      by_cases succeeds : sockopt = true ∧ sent = true
      · rw [handleConnected, if_neg (by simp [succeeds.1]), if_pos succeeds.2] at linked
        exact linked.of_setCon found rfl fun _ => by simp [connecting]
      · rw [handleConnected_fails succeeds] at linked
        exact linked.of_recycle
  | @response _ h c lgresp found _ connected =>
      rw [handleRegisterResponse] at linked
      split_ifs at linked
      · have gone := Linked.of_setCon (d := d.delServer c.conServId) linked found rfl
          fun live => absurd rfl live
        exact gone
      · exact Linked.of_setCon linked found rfl id
  | fail =>
      rw [onFail_eq] at linked
      exact linked.of_recycle
  | close => exact linked.of_recycle

/-! ## Connecting to the servers of a list -/

/-- The connections that there are stay, and the map too. -/
theorem checkServers_keeps {smap : List Listed} (unused : d.Unused smap) :
    (d.checkServers (some smap)).svcons = d.svcons ∧
      ∀ h c, d.conns h = some c → (d.checkServers (some smap)).conns h = some c := by
  apply checkServers_rule (fun t => t.svcons = d.svcons ∧
    ∀ h c, d.conns h = some c → t.conns h = some c) unused
  · exact ⟨rfl, fun _ _ found => found⟩
  · rintro t s ⟨sameMap, kept⟩ free
    constructor
    · exact sameMap
    · intro h c found
      apply (Function.update_of_ne _ _ _).trans (kept h c found)
      rintro rfl
      exact absurd (free.symm.trans (kept _ c found)) (by simp)

theorem Valid.checkServers {smap : List Listed} (valid : d.Valid) (unused : d.Unused smap) :
    (d.checkServers (some smap)).Valid := by
  obtain ⟨sameMap, kept⟩ := checkServers_keeps unused
  intro k h inMap
  rw [getServer, sameMap] at inMap
  obtain ⟨c, found, registered⟩ := valid k h inMap
  exact ⟨c, kept h c found, registered⟩

/-- A server that is not in the map gets a connection, which is connecting when one of the
addresses can be connected to. -/
theorem linked_checkServers {smap : List Listed} (unused : d.Unused smap) {s : Listed}
    (member : s ∈ smap) (absent : d.getServer s.key = none) (reachable : true ∈ s.attempts) :
    (d.checkServers (some smap)).Linked s.server.ID := by
  induction smap generalizing d with
  | nil => exact absurd member List.not_mem_nil
  | cons first smap ih =>
      rw [checkServers_cons]
      rcases List.mem_cons.mp member with rfl | later
      · have new : (d.connectServer s).Linked s.server.ID :=
          ⟨s.handle, _, Function.update_self _ _ _, rfl, by simp [reachable]⟩
        rw [if_neg (by simp [absent])]
        exact new.mono (checkServers_keeps unused.connectServer).2
      · split_ifs
        · exact ih unused.tail later absent
        · exact ih unused.connectServer later absent

end Loop

namespace Svlist

/-- The invariant. -/
structure Sound (s : Svlist) : Prop where
  valid : s.loop.Valid
  linked : ∀ k status, (k, status) ∈ s.loader.data → status.ID = k →
    s.loop.Linked k ∨ k ∈ s.lost

namespace Sound

variable {s t : Svlist}

theorem check (sound : s.Sound) {v : Nat} {smap : List Listed}
    (listed : smap.map (fun l => (l.key, l.server)) = s.src.data) (unused : s.loop.Unused smap) :
    (s.checkServers v smap).Sound := by
  rw [checkServers, Loader.loadData]
  split_ifs
  · constructor
    · exact sound.valid.checkServers unused
    · intro k status member own
      replace member : (k, status) ∈ smap.map fun l => (l.key, l.server) := listed ▸ member
      obtain ⟨l, member', entryEq⟩ := List.mem_map.mp member
      obtain ⟨rfl, rfl⟩ := Prod.mk.inj entryEq
      rcases getEq : s.loop.getServer l.key with _ | h
      · by_cases reachable : true ∈ l.attempts
        · have linked := Loop.linked_checkServers unused member' getEq reachable
          exact Or.inl (own ▸ linked)
        · apply Or.inr
          apply List.mem_map_of_mem
          simp [member', getEq, reachable]
      · have linked := (sound.valid _ _ getEq).linked
        exact Or.inl (linked.mono (Loop.checkServers_keeps unused).2)
  · exact sound

/-- The step lemma. -/
theorem step {event : Event} (sound : s.Sound) (taken : Step s event t) : t.Sound := by
  cases taken with
  | setData => exact ⟨sound.valid, sound.linked⟩
  | notify => exact ⟨sound.valid, sound.linked⟩
  | @check _ _ v _ _ _ listed unused =>
      have checked := sound.check (v := v) listed unused
      exact ⟨checked.valid, checked.linked⟩
  | loop other taken =>
      constructor
      · exact sound.valid.step other taken
      · intro k status member own
        rcases sound.linked k status member own with linked | lost
        · apply (linked.step other taken).imp_right
          exact List.mem_append_right _
        · exact Or.inr (List.mem_append_left _ lost)

end Sound

/-- In every state, each server of the list last loaded has a link, or it could not be
connected to when the list was loaded, or it has lost a connection since. -/
theorem linked_or_lost {events : List Event} {s : Svlist} (run : Run Step anyStep init events s)
    {k : Int} {status : ServerStatus} (listed : (k, status) ∈ s.loader.data)
    (own : status.ID = k) : s.loop.Linked k ∨ k ∈ s.lost := by
  have start : init.Sound :=
    ⟨Loop.valid_init, fun _ _ member => absurd member List.not_mem_nil⟩
  have sound : s.Sound := run.invariant start fun _ _ _ sound _ taken => sound.step taken
  exact sound.linked k status listed own

/-- The loop processes no `CheckConnectServerOp`. -/
def NoCheck (_ : Svlist) : Event → Prop
  | .check _ _ => False
  | _ => True

/-- A server without a link gets none before `checkServers` is called again. -/
theorem unlinked_until_check {events : List Event} {s t : Svlist} (run : Run Step NoCheck s events t)
    {k : Int} (unlinked : ¬s.loop.Linked k) : ¬t.loop.Linked k := by
  induction run with
  | refl => exact unlinked
  | snoc _ noCheck taken ih =>
      intro linked
      cases taken with
      | setData => exact ih linked
      | notify => exact ih linked
      | check => exact noCheck
      | loop other taken => exact ih (linked.of_step other taken)

/-! ## A link that fails -/

/-- The list with the server 7. -/
def oneServer : StatusMap := [(7, (Loop.listed 0).server)]

/-- The events until the connection to it is registered. -/
def registers : List Event :=
  [.setData oneServer, .notify, .check 1 [Loop.listed 0], .loop (.add 0),
    .loop (.connected 0 true true), .loop (.response 0 ⟨0, []⟩)]

/-- The state then. -/
def registered : Svlist where
  src := ⟨oneServer, 1⟩
  loop := (Loop.init.checkServers (some [Loop.listed 0])).afterRegisters 0
  loader := ⟨oneServer, 1⟩
  checks := 0
  notices := 0
  lost := []

theorem run_registers : Run Step anyStep init registers registered := by
  have unused : Loop.init.Unused [Loop.listed 0] := ⟨List.nodup_singleton _, fun _ _ => rfl⟩
  have lists : Run Step anyStep init _ _ := Run.single trivial (@Step.setData init oneServer)
  have checks := (lists.snoc trivial (.notify rfl)).snoc trivial
    (.check (v := 1) rfl (Nat.le_refl 1) rfl unused)
  have adds := checks.snoc trivial (@Step.loop _ (.add 0) _ (by simp) (.add rfl rfl))
  have connects := adds.snoc trivial
    (@Step.loop _ (.connected 0 true true) _ (by simp) (.connected rfl rfl rfl))
  exact connects.snoc trivial
    (@Step.loop _ (.response 0 ⟨0, []⟩) _ (by simp) (.response rfl rfl rfl))

/-- It is the only connection. -/
theorem conns_registered {h : Handle} {c : SvCon} (found : registered.loop.conns h = some c) :
    h = 0 := by
  by_contra distinct
  have gone : registered.loop.conns h = none := by
    simp [registered, Loop.afterRegisters, Loop.handleConnected, Loop.handleRegisterResponse,
      Loop.setCon, Loop.addServer, Loop.checkServers, Loop.connectServer, Loop.getServer,
      Loop.init, Loop.listed, distinct]
  exact absurd (gone.symm.trans found) (by simp)

/-- The server of the list is linked. -/
theorem linked_or_lost_registered : registered.loop.Linked 7 ∨ (7 : Int) ∈ ([] : List Int) :=
  linked_or_lost run_registers (List.mem_singleton_self _) rfl

/-- The connection fails.  Nothing is queued then, the list is still the last one that was
loaded, and there is no connection to its server. -/
theorem failed_link_is_not_restored :
    ∃ events s, Run Step anyStep init events s ∧ s.Quiet ∧ s.loader.data = oneServer ∧
      ¬s.loop.Linked 7 := by
  have fails := run_registers.snoc trivial (@Step.loop _ (.fail 0) _ (by simp) (.fail rfl rfl))
  have noCon : ∀ h c,
      (registered.loop.onFail 0 (Loop.toServer .connected .login true)).conns h ≠ some c := by
    intro h c found
    rw [Loop.onFail_eq] at found
    rcases Table.update_eq_some.mp found with ⟨-, gone⟩ | ⟨distinct, old⟩
    · exact absurd gone (by simp)
    · exact distinct (conns_registered old)
  refine ⟨_, _, fails, ⟨rfl, ?_⟩, rfl, ?_⟩
  · intro h c found
    exact absurd found (noCon h c)
  · rintro ⟨h, c, found, -⟩
    exact noCon h c found

end Svlist

end GPush.PushServer
