import GPush.PushServer.Links

/-!
# Lists that come while connects are in flight

`checkServers` asks `m_svcons` whether a server is connected to, and a connection enters
that map when it is registered.  Until then another list makes another connection to the
same server.
-/

namespace GPush.PushServer

open GPush.ConnectServer GPush.Discovery GPush.Transition

/-- The connection is connecting, registering or registered. -/
def SvCon.Live (c : SvCon) : Prop := c.client ≠ .init

/-- The connection that `connectServer` makes. -/
def Listed.con (l : Listed) : SvCon where
  conServId := l.server.ID
  client := if true ∈ l.attempts then .connecting else .init
  status := .init
  sessid := []
  added := false

theorem Listed.live_con {l : Listed} : l.con.Live ↔ true ∈ l.attempts := by
  rw [SvCon.Live, con]
  split_ifs with reachable <;> simp [reachable]

namespace Loop

/-- A live connection at `h` is for the server `k`. -/
def LiveFor (d : Loop) (k : Int) (h : Handle) : Prop :=
  ∃ c, d.conns h = some c ∧ c.conServId = k ∧ c.Live

/-- No server has two live connections. -/
def AtMostOne (d : Loop) : Prop := ∀ k h h', d.LiveFor k h → d.LiveFor k h' → h' = h

/-- The listed servers that `checkServers` connects to: those that are not in the map. -/
def missing (d : Loop) (smap : List Listed) : List Listed :=
  smap.filter fun l => (d.getServer l.key).isNone

/-- The servers that get a live connection: no two are the same, and none has one. -/
structure NoOverlap (d : Loop) (smap : List Listed) : Prop where
  distinct : ∀ l ∈ d.missing smap, ∀ l' ∈ d.missing smap, true ∈ l.attempts →
    true ∈ l'.attempts → l.server.ID = l'.server.ID → l'.handle = l.handle
  unlinked : ∀ l ∈ d.missing smap, true ∈ l.attempts → ¬d.Linked l.server.ID

variable {d t : Loop} {h h' : Handle} {c c' : SvCon} {k : Int} {smap : List Listed}

theorem linked_iff : d.Linked k ↔ ∃ h, d.LiveFor k h := Iff.rfl

theorem mem_missing {l : Listed} : l ∈ d.missing smap ↔ l ∈ smap ∧ d.getServer l.key = none := by
  simp [missing]

/-! ## What `checkServers` adds -/

/-- The connections afterwards are those before and one for each missing server. -/
theorem conns_checkServers (unused : d.Unused smap) :
    (d.checkServers (some smap)).conns h = some c ↔
      d.conns h = some c ∨ ∃ l ∈ d.missing smap, l.handle = h ∧ l.con = c := by
  induction smap generalizing d with
  | nil => simp [checkServers, missing]
  | cons l smap ih =>
      rw [checkServers_cons]
      split_ifs with listed
      · have skipped : d.missing (l :: smap) = d.missing smap :=
          List.filter_cons_of_neg (by simpa using Option.isSome_iff_ne_none.mp listed)
        rw [ih unused.tail, skipped]
      · have absent : d.getServer l.key = none := by simpa using listed
        have connects : d.missing (l :: smap) = l :: d.missing smap :=
          List.filter_cons_of_pos (by simp [absent])
        have sameMissing : (d.connectServer l).missing smap = d.missing smap := rfl
        have added : (d.connectServer l).conns h = some c ↔
            h = l.handle ∧ l.con = c ∨ d.conns h = some c := by
          have free := unused.2 l List.mem_cons_self
          have newEq : (d.connectServer l).conns = Function.update d.conns l.handle (some l.con) :=
            rfl
          rw [newEq, Table.update_eq_some, Option.some.injEq]
          apply or_congr_right
          constructor
          · exact And.right
          · intro found
            refine ⟨?_, found⟩
            rintro rfl
            exact absurd (free.symm.trans found) (by simp)
        rw [ih unused.connectServer, connects, sameMissing, added]
        simp only [List.mem_cons, exists_eq_or_imp, eq_comm (a := h)]
        exact or_assoc.trans or_left_comm

/-- The live connections afterwards. -/
theorem liveFor_checkServers (unused : d.Unused smap) :
    (d.checkServers (some smap)).LiveFor k h ↔
      d.LiveFor k h ∨
        ∃ l ∈ d.missing smap, l.handle = h ∧ l.server.ID = k ∧ true ∈ l.attempts := by
  constructor
  · rintro ⟨c, found, serverEq, live⟩
    rcases (conns_checkServers unused).mp found with old | ⟨l, member, rfl, rfl⟩
    · exact Or.inl ⟨c, old, serverEq, live⟩
    · exact Or.inr ⟨l, member, rfl, serverEq, Listed.live_con.mp live⟩
  · rintro (⟨c, old, serverEq, live⟩ | ⟨l, member, rfl, serverEq, reachable⟩)
    · exact ⟨c, (conns_checkServers unused).mpr (Or.inl old), serverEq, live⟩
    · exact ⟨l.con, (conns_checkServers unused).mpr (Or.inr ⟨l, member, rfl, rfl⟩), serverEq,
        Listed.live_con.mpr reachable⟩

/-- A list is connected to without a second connection exactly when nothing overlaps. -/
theorem atMostOne_checkServers (unused : d.Unused smap) (single : d.AtMostOne) :
    (d.checkServers (some smap)).AtMostOne ↔ d.NoOverlap smap := by
  have new : ∀ l ∈ d.missing smap, true ∈ l.attempts →
      (d.checkServers (some smap)).LiveFor l.server.ID l.handle := by
    intro l member reachable
    exact (liveFor_checkServers unused).mpr (Or.inr ⟨l, member, rfl, rfl, reachable⟩)
  have notOld : ∀ l ∈ d.missing smap, ∀ k, ¬d.LiveFor k l.handle := by
    rintro l member k ⟨c, found, -⟩
    have free := unused.2 l (mem_missing.mp member).1
    exact absurd (free.symm.trans found) (by simp)
  constructor
  · intro singleAfter
    constructor
    · intro l member l' member' reachable reachable' sameServer
      exact singleAfter _ _ _ (new l member reachable) (sameServer ▸ new l' member' reachable')
    · intro l member reachable linked
      obtain ⟨h, old⟩ := linked_iff.mp linked
      have kept := (liveFor_checkServers unused).mpr (Or.inl old)
      obtain rfl := singleAfter _ _ _ kept (new l member reachable)
      exact notOld l member _ old
  · intro apart k h h' live live'
    rcases (liveFor_checkServers unused).mp live with old | ⟨l, member, rfl, rfl, reachable⟩
    · rcases (liveFor_checkServers unused).mp live' with old' | ⟨l', member', rfl, rfl, reachable'⟩
      · exact single k h h' old old'
      · exact absurd ⟨h, old⟩ (apart.unlinked l' member' reachable')
    · rcases (liveFor_checkServers unused).mp live' with old' | ⟨l', member', rfl, same, reachable'⟩
      · exact absurd ⟨h', old'⟩ (apart.unlinked l member reachable)
      · exact apart.distinct l member l' member' reachable reachable' same.symm

/-! ## What the other events do -/

theorem LiveFor.of_setCon (live : (d.setCon h c').LiveFor k h') (found : d.conns h = some c)
    (sameServer : c'.conServId = c.conServId) (wasLive : c'.Live → c.Live) : d.LiveFor k h' := by
  obtain ⟨c'', found', serverEq, live⟩ := live
  rcases Table.update_eq_some.mp found' with ⟨rfl, isNew⟩ | ⟨-, old⟩
  · obtain rfl := Option.some.inj isNew
    exact ⟨c, found, sameServer.symm.trans serverEq, wasLive live⟩
  · exact ⟨c'', old, serverEq, live⟩

theorem LiveFor.of_recycle (live : (d.recycle h c).LiveFor k h') : d.LiveFor k h' := by
  obtain ⟨c', found, serverEq, live⟩ := live
  rcases Table.update_eq_some.mp found with ⟨-, gone⟩ | ⟨-, old⟩
  · exact absurd gone (by simp)
  · exact ⟨c', old, serverEq, live⟩

/-- No event but `checkServers` brings a connection to life. -/
theorem LiveFor.of_step {event : Event} (live : t.LiveFor k h')
    (other : ∀ l, event ≠ .checkServers l) (taken : Step d event t) : d.LiveFor k h' := by
  cases taken with
  | checkServers => exact absurd rfl (other _)
  | add found => exact live.of_setCon found rfl id
  | @connected _ h c sockopt sent found _ connecting =>
      by_cases succeeds : sockopt = true ∧ sent = true
      · rw [handleConnected, if_neg (by simp [succeeds.1]), if_pos succeeds.2] at live
        exact live.of_setCon found rfl fun _ => by simp [SvCon.Live, connecting]
      · rw [handleConnected_fails succeeds] at live
        exact live.of_recycle
  | @response _ h c lgresp found =>
      rw [handleRegisterResponse] at live
      split_ifs at live
      · exact LiveFor.of_setCon (d := d.delServer c.conServId) live found rfl
          fun off => absurd rfl off
      · exact LiveFor.of_setCon live found rfl id
  | fail =>
      rw [onFail_eq] at live
      exact live.of_recycle
  | close => exact live.of_recycle

theorem AtMostOne.step {event : Event} (single : d.AtMostOne)
    (other : ∀ l, event ≠ .checkServers l) (taken : Step d event t) : t.AtMostOne :=
  fun k h h' live live' => single k h h' (live.of_step other taken) (live'.of_step other taken)

end Loop

namespace Svlist

/-- When `checkServers` has a newer list, none of the servers that it connects to has a
connection that is connecting, registering or registered. -/
def NoOverlap (s : Svlist) : Event → Prop
  | .check v smap => s.loader.version < v → s.loop.NoOverlap smap
  | _ => True

variable {s t : Svlist}

theorem loop_checkServers {v : Nat} {smap : List Listed} :
    (s.checkServers v smap).loop =
      if s.loader.version < v then s.loop.checkServers (some smap) else s.loop := by
  rw [checkServers, Loader.loadData]
  split_ifs <;> rfl

/-- The step lemma; the guard is necessary too. -/
theorem atMostOne_step {event : Event} (single : s.loop.AtMostOne) (taken : Step s event t) :
    t.loop.AtMostOne ↔ s.NoOverlap event := by
  cases taken with
  | setData => exact iff_of_true single trivial
  | notify => exact iff_of_true single trivial
  | @check _ n v smap _ _ _ unused =>
      have loopEq : ({ s.checkServers v smap with checks := n } : Svlist).loop = _ :=
        loop_checkServers
      rw [loopEq, NoOverlap]
      split_ifs with newer
      · simp only [newer, forall_const]
        exact Loop.atMostOne_checkServers unused single
      · simp only [newer, IsEmpty.forall_iff, iff_true]
        exact single
  | loop other taken => exact iff_of_true (single.step other taken) trivial

/-- The runs in which `checkServers` only connects to servers that have no connection are
those in which no server ever has two live connections. -/
theorem noOverlap_iff_atMostOne {events : List Event} :
    Run Step NoOverlap init events s ↔
      Run Step (fun s _ => s.loop.AtMostOne) init events s ∧ s.loop.AtMostOne := by
  refine @Run.guarded_iff _ _ _ _ (fun s : Svlist => s.loop.AtMostOne) _ _ _ ?_ ?_
  · rintro k h h' ⟨c, found, -⟩
    simp [init, Loop.init] at found
  · intro s event t _ single taken
    exact atMostOne_step single taken

/-- A second list comes before the connection to the server of the first has been added. -/
def overlaps : List Event :=
  [.setData oneServer, .notify, .check 1 [Loop.listed 0], .setData oneServer, .notify,
    .check 2 [Loop.listed 1]]

/-- It is connected to twice. -/
theorem two_connections_in_flight :
    ∃ s, Run Step anyStep init overlaps s ∧ s.loop.LiveFor 7 0 ∧ s.loop.LiveFor 7 1 ∧
      ¬s.loop.AtMostOne := by
  have unused : Loop.init.Unused [Loop.listed 0] := ⟨List.nodup_singleton _, fun _ _ => rfl⟩
  have unused' : (Loop.init.checkServers (some [Loop.listed 0])).Unused [Loop.listed 1] := by
    refine ⟨List.nodup_singleton _, fun l member => ?_⟩
    obtain rfl := List.mem_singleton.mp member
    rfl
  have lists : Run Step anyStep init _ _ := Run.single trivial (@Step.setData init oneServer)
  have checks := (lists.snoc trivial (.notify rfl)).snoc trivial
    (.check (v := 1) rfl (Nat.le_refl 1) rfl unused)
  have listsAgain := checks.snoc trivial (.setData (m := oneServer))
  have checksAgain := (listsAgain.snoc trivial (.notify rfl)).snoc trivial
    (.check (v := 2) rfl (Nat.le_refl 2) rfl unused')
  have live : (Loop.toServer .connecting .init false).Live := by simp [SvCon.Live, Loop.toServer]
  have both : ∃ s, Run Step anyStep init overlaps s ∧ s.loop.LiveFor 7 0 ∧ s.loop.LiveFor 7 1 :=
    ⟨_, checksAgain, ⟨_, rfl, rfl, live⟩, ⟨_, rfl, rfl, live⟩⟩
  obtain ⟨s, run, first, second⟩ := both
  refine ⟨s, run, first, second, fun single => ?_⟩
  exact absurd (single 7 0 1 first second) (by decide)

end Svlist

end GPush.PushServer
