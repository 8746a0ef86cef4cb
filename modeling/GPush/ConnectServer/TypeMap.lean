import GPush.ConnectServer.Push

/-!
# The list of push servers

A login with a positive type puts its connection on the list of `TypeMap` before it is
known to succeed, and the destructor takes it off, if it is logged in with such a type.
-/

namespace GPush.ConnectServer

open GPush.Transition

/-- `SvList::addServer`. -/
def SvList.addServer (svs : List Handle) (c : Handle) : List Handle := svs ++ [c]

/-- `SvList::delServer`, which erases the first entry it finds. -/
def SvList.delServer (svs : List Handle) (c : Handle) : List Handle := svs.erase c

/-- The list after a call of the connection at `h`. -/
def callTypeMap (h : Handle) (svs : List Handle) : Effect → List Handle
  | .addServer => SvList.addServer svs h
  | .delServer => SvList.delServer svs h
  | _ => svs

/-- Whether `CliCon::handleTimer` closes the connection; else it starts the timer again. -/
def CliCon.handleTimer (c : CliCon) (aliveMs now : Int) : Bool :=
  decide (aliveMs.tdiv 1000 < now - c.sess.lasttime)

/-- A push server that is logged in. -/
def CliCon.IsServer (c : CliCon) : Prop := c.status = .login ∧ 0 < c.sess.type

/-- A server and its `TypeMap::m_svlsts`. -/
structure Site where
  server : Server
  svs : List Handle

namespace Site

/-- A process that has just started. -/
def init : Site := ⟨Server.init, []⟩

/-- What happens at a server, or the timer of a connection, at the time `now`.  With
bytes unsent, `safeClose` waits until they are sent. -/
inductive Event
  | server (event : Server.Event)
  | timer (h : Handle) (aliveMs now : Int) (unsent : Bool)

section Steps

variable (codec : Codec) (serv : ServerConfig)

/-- The list after an event. -/
def svsAfter (s : Site) : Server.Event → List Handle
  | .packet h v =>
      match s.server.table.conns h with
      | none => s.svs
      | some e => (turn codec serv e.id e.data v).handled.effects.foldl (callTypeMap h) s.svs
  | .life (.close h) =>
      match s.server.table.conns h with
      | none => s.svs
      | some e => e.data.delSession.foldl (callTypeMap h) s.svs
  | _ => s.svs

/-- The step relation. -/
inductive Step : LTS Site Event
  | server {s : Site} {event : Server.Event} {t : Server} :
      Server.Step codec serv s.server event t →
      Step s (.server event) ⟨t, s.svsAfter codec serv event⟩
  | expired {s : Site} {h : Handle} {e : Entry CliCon} {aliveMs now : Int} {t : Server} :
      s.server.table.conns h = some e → e.data.handleTimer aliveMs now = true →
      Server.Step codec serv s.server (.life (.close h)) t →
      Step s (.timer h aliveMs now false) ⟨t, s.svsAfter codec serv (.life (.close h))⟩
  | alive {s : Site} {h : Handle} {e : Entry CliCon} {aliveMs now : Int} {unsent : Bool} :
      s.server.table.conns h = some e → e.data.handleTimer aliveMs now = false ∨ unsent = true →
      Step s (.timer h aliveMs now unsent) s

/-! ## What a packet does to the list -/

/-- The calls that reach the list. -/
def serverCalls (effects : List Effect) : List Effect :=
  effects.filter fun
    | .addServer => true
    | .delServer => true
    | _ => false

theorem serverCalls_append (first second : List Effect) :
    serverCalls (first ++ second) = serverCalls first ++ serverCalls second :=
  List.filter_append first second

theorem foldl_callTypeMap (h : Handle) (effects : List Effect) (svs : List Handle) :
    effects.foldl (callTypeMap h) svs = (serverCalls effects).foldl (callTypeMap h) svs := by
  induction effects generalizing svs with
  | nil => rfl
  | cons effect effects ih => cases effect <;> exact ih _

/-- What a packet does to the list, and whether the connection is a push server that is
logged in before and after it. -/
inductive Enlists (c c' : CliCon) : List Effect → Prop
  | kept : (c'.IsServer ↔ c.IsServer) → Enlists c c' []
  | added : ¬c.IsServer → c'.IsServer → Enlists c c' [.addServer]

variable {codec serv} {id : Int} {c : CliCon} {env : Env}

theorem serverCalls_updateSession (c : CliCon) (now : Int) :
    serverCalls (c.updateSession now).2.2 = [] := by
  rw [CliCon.updateSession]
  split_ifs <;> rfl

theorem handleLoginRequest_enlists (req : Bytes) :
    Enlists c (c.handleLoginRequest codec serv id env req).con
      (serverCalls (c.handleLoginRequest codec serv id env req).effects) := by
  rw [CliCon.handleLoginRequest]
  cases codec.parseLoginRequest req with
  | none =>
      simp only [CliCon.exitLogin_fields]
      exact .kept Iff.rfl
  | some lgreq =>
      cases statusEq : c.status with
      | login =>
          have same : { c with status := .login } = c := by rw [← statusEq]
          simp only [if_true, CliCon.exitLogin_fields, same]
          exact .kept Iff.rfl
      | init =>
          have wasNot : ¬c.IsServer := by
            intro isServer
            exact absurd (statusEq.symm.trans isServer.1) (by decide)
          by_cases refused : (c.recordLogin serv env.now lgreq).checkType lgreq.type < 0
          · simp only [reduceCtorEq, if_false, if_pos refused, CliCon.exitLogin_fields]
            apply Enlists.kept
            constructor
            · intro isServer
              exact absurd (statusEq.symm.trans isServer.1) (by decide)
            · intro isServer
              exact absurd isServer wasNot
          · simp only [reduceCtorEq, if_false, if_neg refused, CliCon.exitLogin_fields]
            rcases CliCon.updateSession_spec
              ((c.recordLogin serv env.now lgreq).recordSession serv id lgreq) env.now with
              ⟨retEq, conEq, -, -⟩
            rw [retEq, conEq, if_neg (Int.lt_irrefl 0), serverCalls_append,
              serverCalls_updateSession, List.append_nil]
            by_cases positive : 0 < lgreq.type
            · rw [if_pos positive]
              apply Enlists.added wasNot
              exact ⟨rfl, positive⟩
            · rw [if_neg positive]
              apply Enlists.kept
              constructor
              · intro isServer
                exact absurd isServer.2 positive
              · intro isServer
                exact absurd isServer wasNot

/-- A handler that runs after `updateSession` and leaves the connection alone. -/
theorem refreshing_enlists {handler : CliCon → Reply}
    (conEq : (handler (c.touch env.now)).con = c.touch env.now)
    (calls : serverCalls (handler (c.touch env.now)).effects = []) :
    Enlists c (c.refreshing env handler).con (serverCalls (c.refreshing env handler).effects) := by
  rcases CliCon.updateSession_spec c env.now with ⟨-, touchEq, -, -⟩
  simp only [CliCon.refreshing, touchEq, conEq, serverCalls_append, serverCalls_updateSession,
    calls, List.append_nil]
  exact .kept Iff.rfl

theorem handlePushRequest_calls (req : Bytes) :
    serverCalls (c.handlePushRequest codec serv env req).effects = [] := by
  rw [CliCon.handlePushRequest]
  cases codec.parsePushRequest req with
  | none => rfl
  | some svreq =>
      simp only
      by_cases negative : c.sess.type < 0
      · rw [if_pos negative]
        rfl
      · rw [if_neg negative]
        cases getConFromSessid serv env.beyond svreq.toSessid with
        | none => rfl
        | some result =>
            cases result with
            | error ret => rfl
            | ok route =>
                simp only
                split_ifs <;> rfl

theorem handlePushResponse_calls (req : Bytes) :
    serverCalls (c.handlePushResponse codec serv env req).effects = [] := by
  rw [CliCon.handlePushResponse]
  split
  · rfl
  · split
    · rfl
    · rfl
    · split <;> rfl

theorem handlePacket_enlists (codec : Codec) (serv : ServerConfig) (id : Int) (c : CliCon)
    (v : Visit) :
    Enlists c (turn codec serv id c v).handled.con
      (serverCalls (turn codec serv id c v).handled.effects) := by
  have enlists : Enlists c (c.handleCmd codec serv id v.env v.packet).con
      (serverCalls (c.handleCmd codec serv id v.env v.packet).effects) := by
    rw [CliCon.handleCmd]
    split_ifs
    · exact handleLoginRequest_enlists v.packet.body
    · apply refreshing_enlists
      · exact (CliCon.handlePushRequest_spec codec serv _ v.env v.packet.body).1
      · exact handlePushRequest_calls v.packet.body
    · apply refreshing_enlists
      · exact (CliCon.handlePushResponse_spec codec serv _ v.env v.packet.body).1
      · exact handlePushResponse_calls v.packet.body
    · exact refreshing_enlists rfl rfl
    · exact .kept Iff.rfl
  rw [turn, CliCon.handlePacket]
  cases (c.handleCmd codec serv id v.env v.packet).ret with
  | none => exact enlists
  | some ret =>
      simp only
      by_cases answers : (c.handleCmd codec serv id v.env v.packet).resp ≠ [] ∨
          v.packet.cmd = keepaliveReq
      · rw [if_pos answers, serverCalls_append]
        simpa [serverCalls] using enlists
      · rw [if_neg answers]
        exact enlists

/-! ## The invariant -/

/-- A live connection that is logged in with a positive type. -/
def Serving (s : Server) (h : Handle) : Prop :=
  ∃ e, s.table.conns h = some e ∧ e.data.IsServer

/-- The list has the push servers that are logged in, each once. -/
structure Exact (s : Site) : Prop where
  nodup : s.svs.Nodup
  mem_iff : ∀ h, h ∈ s.svs ↔ Serving s.server h

theorem exact_init : Exact init := by
  constructor
  · exact List.nodup_nil
  · intro h
    simp [init, Server.init, Table.init, Serving]

theorem serving_update {s : Server} {t : Table CliCon} {ops : Nat → List SendMsgOp} {h h' : Handle}
    {entry : Option (Entry CliCon)} (connsEq : t.conns = Function.update s.table.conns h entry) :
    Serving ⟨t, ops⟩ h' ↔
      h' = h ∧ (∃ e, entry = some e ∧ e.data.IsServer) ∨ h' ≠ h ∧ Serving s h' := by
  simp only [Serving, connsEq, Table.update_eq_some]
  by_cases same : h' = h <;> simp [same]

/-- A connection that changes without becoming or ceasing to be a push server. -/
theorem serving_update_of_iff {s : Server} {t : Table CliCon} {ops : Nat → List SendMsgOp}
    {h h' : Handle} {e : Entry CliCon}
    (connsEq : t.conns = Function.update s.table.conns h (some e))
    (same : e.data.IsServer ↔ Serving s h) : Serving ⟨t, ops⟩ h' ↔ Serving s h' := by
  rw [serving_update connsEq]
  by_cases atH : h' = h
  · subst atH
    simp [same]
  · simp [atH]

theorem serving_iff {s : Server} {h : Handle} {e : Entry CliCon}
    (found : s.table.conns h = some e) : Serving s h ↔ e.data.IsServer := by
  simp [Serving, found]

/-- Before it closes, the life of a connection leaves the push servers alone. -/
theorem serving_life {s : Server} {event : Table.Event CliCon} {t : Table CliCon} {loops : Nat}
    (fitting : Server.Fitting s.table event) (taken : Table.Step loops s.table event t)
    (stays : ∀ h, event ≠ .close h) (h' : Handle) :
    Serving { s with table := t } h' ↔ Serving s h' := by
  cases taken with
  | construct unused =>
      rcases fitting with ⟨conf, rfl⟩
      apply serving_update_of_iff rfl
      simp [Serving, unused, CliCon.IsServer, CliCon.init]
  | dispatch found =>
      exact serving_update_of_iff rfl (serving_iff found).symm
  | add found =>
      exact serving_update_of_iff rfl (serving_iff found).symm
  | close => exact absurd rfl (stays _)

namespace Exact

variable {s : Site} {t : Server}

theorem keep (holds : Exact s) (same : ∀ h, Serving t h ↔ Serving s.server h) :
    Exact ⟨t, s.svs⟩ := by
  constructor
  · exact holds.nodup
  · intro h
    rw [same, holds.mem_iff]

/-- The destructor takes a push server that is logged in off the list. -/
theorem close {h : Handle} {e : Entry CliCon} (holds : Exact s)
    (found : s.server.table.conns h = some e) :
    Exact ⟨{ s.server with table := s.server.table.destroy h e },
      e.data.delSession.foldl (callTypeMap h) s.svs⟩ := by
  have servingEq : ∀ h', Serving { s.server with table := s.server.table.destroy h e } h' ↔
      h' ≠ h ∧ Serving s.server h' := by
    intro h'
    rw [serving_update (s := s.server) rfl]
    simp
  have callsEq : e.data.delSession.foldl (callTypeMap h) s.svs = s.svs.erase h := by
    by_cases isServer : e.data.IsServer
    · rcases isServer with ⟨loggedIn, positive⟩
      rw [CliCon.delSession, if_neg (by omega), if_neg (by simp [loggedIn]), if_pos positive]
      rfl
    · have absent : h ∉ s.svs := by
        rw [holds.mem_iff, serving_iff found]
        exact isServer
      rw [List.erase_of_not_mem absent, CliCon.delSession]
      split_ifs with untyped outside positive
      · rfl
      · rfl
      · exact absurd ⟨not_not.mp outside, positive⟩ isServer
      · rfl
  rw [callsEq]
  constructor
  · exact holds.nodup.erase h
  · intro h'
    rw [servingEq, holds.nodup.mem_erase_iff, holds.mem_iff]

theorem packet {h : Handle} {e : Entry CliCon} {v : Visit} (holds : Exact s)
    (found : s.server.table.conns h = some e) :
    Exact ⟨s.server.handle codec serv h e v,
      (turn codec serv e.id e.data v).handled.effects.foldl (callTypeMap h) s.svs⟩ := by
  have connsEq : (s.server.handle codec serv h e v).table.conns =
      Function.update s.server.table.conns h
        (some { e with data := (turn codec serv e.id e.data v).handled.con }) := rfl
  rw [foldl_callTypeMap]
  have enlists := handlePacket_enlists codec serv e.id e.data v
  cases callsEq : serverCalls (turn codec serv e.id e.data v).handled.effects with
  | nil =>
      rw [callsEq] at enlists
      cases enlists with
      | kept same =>
          apply holds.keep
          intro h'
          apply serving_update_of_iff connsEq
          rw [serving_iff found]
          exact same
  | cons first rest =>
      rw [callsEq] at enlists
      cases enlists with
      | added wasNot isServer =>
          have absent : h ∉ s.svs := by
            rw [holds.mem_iff, serving_iff found]
            exact wasNot
          constructor
          · rw [List.foldl_cons, List.foldl_nil, callTypeMap, SvList.addServer,
              ← List.concat_eq_append]
            exact holds.nodup.concat absent
          · intro h'
            have servingEq : Serving (s.server.handle codec serv h e v) h' ↔ _ :=
              serving_update connsEq
            rw [List.foldl_cons, List.foldl_nil, callTypeMap, SvList.addServer, List.mem_append,
              List.mem_singleton, holds.mem_iff]
            apply Iff.trans _ servingEq.symm
            by_cases same : h' = h
            · subst same
              simp [isServer]
            · simp [same]

theorem server {event : Server.Event} (holds : Exact s)
    (taken : Server.Step codec serv s.server event t) : Exact ⟨t, s.svsAfter codec serv event⟩ := by
  cases taken with
  | @life _ event table fitting taken =>
      cases event with
      | close h =>
          cases taken with
          | close found =>
              simp only [svsAfter, found]
              exact holds.close found
      | construct h data =>
          exact holds.keep (serving_life fitting taken fun _ => by simp)
      | dispatch h conf =>
          exact holds.keep (serving_life fitting taken fun _ => by simp)
      | add h =>
          exact holds.keep (serving_life fitting taken fun _ => by simp)
  | packet found =>
      simp only [svsAfter, found]
      exact holds.packet found
  | process => exact holds.keep fun h => Iff.rfl

/-- The step lemma. -/
theorem step {event : Event} {s' : Site} (holds : Exact s) (taken : Step codec serv s event s') :
    Exact s' := by
  cases taken with
  | server taken => exact holds.server taken
  | expired _ _ taken => exact holds.server taken
  | alive => exact holds

end Exact

/-- In every state that a server reaches, the list of `TypeMap` has exactly the live
connections that are logged in with a positive type, each once. -/
theorem typeMap_exact {s : Site} (reachable : Reachable (Step codec serv) init s) :
    s.svs.Nodup ∧ ∀ h, h ∈ s.svs ↔
      ∃ e, s.server.table.conns h = some e ∧ e.data.status = .login ∧ 0 < e.data.sess.type := by
  have holds : Exact s := reachable.invariant exact_init fun _ _ _ holds taken => holds.step taken
  exact ⟨holds.nodup, holds.mem_iff⟩

/-- A run of a server is a run with its list. -/
theorem run_server {t : Server} {events : List Server.Event}
    (run : Run (Server.Step codec serv) anyStep Server.init events t) :
    ∃ svs, Run (Step codec serv) anyStep init (events.map .server) ⟨t, svs⟩ := by
  induction run with
  | refl => exact ⟨[], Run.refl⟩
  | snoc _ _ taken ih =>
      rcases ih with ⟨svs, run⟩
      rw [List.map_append]
      exact ⟨_, run.snoc trivial (.server taken)⟩

end Steps

/-- A push server that logs in with the type 5 is on the list. -/
theorem typeMap_exact_login :
    ∃ s : Site, Reachable (Step gimCodec.toCodec ⟨1, 1⟩) init s ∧ 0 ∈ s.svs := by
  have login := (Server.run_withOnly gimCodec.toCodec).snoc trivial
    (Server.step_withOnly ⟨sampleEnv 29, packetOf loginReq (loginBytes [117] 5) (by decide +kernel)⟩ []
      (by decide +kernel))
  rcases run_server login with ⟨svs, run⟩
  refine ⟨_, run.reachable, ((typeMap_exact run.reachable).2 0).mpr ⟨_, rfl, ?_⟩⟩
  decide +kernel

end Site

end GPush.ConnectServer
