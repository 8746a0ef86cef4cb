import GPush.ConnectServer.Push

/-!
# Session ids lead back

A connection that has been given to an event loop has an id that tells the loop and fits in
an `int32`, so the session id of its login leads `getConFromSessid` back to it, however many
other connections come and go.
-/

namespace GPush.ConnectServer

open GPush.Codec GPush.Transition

/-! ## Reading back what a login wrote -/

/-- The server id, the connection id and the user of a session id. -/
theorem getDecorationInfo_decorationName {svid conid : Int} (svidLower : -2 ^ 31 ≤ svid)
    (svidUpper : svid < 2 ^ 31) (conidLower : -2 ^ 31 ≤ conid) (conidUpper : conid < 2 ^ 31)
    (n beyond : Bytes) :
    getDecorationInfo beyond (decorationName svid conid n) = some ⟨svid, conid, n⟩ := by
  rcases decorationName_eq_iff.mp (rfl : decorationName svid conid n = _) with ⟨first, second⟩
  have long : ¬(decorationName svid conid n).length < 12 := by
    simp [decorationName, length_sessPrefix]
  have four : (int32Bytes svid).length = 4 := rfl
  rw [getDecorationInfo, if_neg long, first, second, sessPrefix, base64Decode_base64Encode,
    List.append_assoc, List.drop_left' four, readInt32_int32Bytes svidLower svidUpper,
    readInt32_int32Bytes conidLower conidUpper]

namespace Table

variable {κ : Type*} {loops : Nat} {t : Table κ}

/-- The id of a connection before and after it is given to an event loop. -/
structure Entry.Placed (loops : Nat) (e : Entry κ) : Prop where
  raw : e.place = .constructed → 0 < e.id
  given : ∀ l, e.place.loop = some l →
    l < loops ∧ e.id / eventLoopIdMask = (l : Int) ∧ e.id < 2 ^ 31

/-- Every connection has such an id. -/
structure Placed (loops : Nat) (t : Table κ) : Prop where
  counter : 0 ≤ t.counter
  entries : ∀ h e, t.conns h = some e → Entry.Placed loops e

theorem placed_init : Placed loops (init : Table κ) := by
  constructor
  · exact Int.le_refl 0
  · intro h e found
    cases found

theorem Placed.step {t' : Table κ} {event : Event κ} (placed : Placed loops t)
    (taken : Step loops t event t') : Placed loops t' := by
  cases taken with
  | @construct _ h data unused =>
      have positive := placed.counter
      constructor
      · simp only [Table.construct, afterConstruct]
        split_ifs <;> omega
      · intro h' e' found
        rcases update_eq_some.mp found with ⟨-, new⟩ | ⟨-, old⟩
        · rw [← Option.some.inj new]
          constructor
          · intro _
            simp only
            omega
          · intro l given
            cases given
        · exact placed.entries h' e' old
  | @dispatch _ h e conf found atStart dispatches =>
      rcases getConnectionId_digits (dispatchIdx conf e.id)
        (Int.le_of_lt ((placed.entries h e found).raw atStart)) with ⟨-, index⟩
      have lower := dispatches.lower
      have upper := dispatches.upper
      constructor
      · exact placed.counter
      · intro h' e' found'
        rcases update_eq_some.mp found' with ⟨-, new⟩ | ⟨-, old⟩
        · rw [← Option.some.inj new]
          constructor
          · intro constructed
            cases constructed
          · intro l given
            obtain rfl : (dispatchIdx conf e.id).toNat = l := Option.some.inj given
            refine ⟨by omega, ?_, dispatches.fits⟩
            rw [index, Int.toNat_of_nonneg lower]
        · exact placed.entries h' e' old
  | @add _ h e l found queued =>
      constructor
      · exact placed.counter
      · intro h' e' found'
        rcases update_eq_some.mp found' with ⟨-, new⟩ | ⟨-, old⟩
        · rw [← Option.some.inj new]
          constructor
          · intro constructed
            cases constructed
          · intro l' given
            apply (placed.entries h e found).given
            rw [queued]
            exact given
        · exact placed.entries h' e' old
  | close found added =>
      constructor
      · exact placed.counter
      · intro h' e' found'
        exact placed.entries h' e' (update_none_eq_some.mp found').2

end Table

namespace Server

variable {codec : Codec} {serv : ServerConfig} {s : Server} {h : Handle} {e : Entry CliCon}

theorem placed_of_reachable (reachable : Reachable (Step codec serv) init s) :
    Table.Placed serv.threadCount.toNat s.table := by
  apply reachable.invariant
  · exact Table.placed_init
  · intro s event s' placed taken
    cases taken with
    | life _ taken => exact placed.step taken
    | packet found _ =>
        constructor
        · exact placed.counter
        · intro h' e' found'
          rcases Table.update_eq_some.mp found' with ⟨-, new⟩ | ⟨-, old⟩
          · rw [← Option.some.inj new]
            exact ⟨(placed.entries _ _ found).raw, (placed.entries _ _ found).given⟩
          · exact placed.entries h' e' old
    | process _ => exact placed

/-- The session id of a connection that is logged in leads to its loop and its id. -/
theorem route_of_session (reachable : Reachable (Step codec serv) init s)
    (idLower : -2 ^ 31 ≤ serv.ID) (idUpper : serv.ID < 2 ^ 31) {l : Nat} {sessid : Bytes}
    (found : s.table.conns h = some e) (given : e.place.loop = some l)
    (session : HasSession e.data sessid) (beyond : Bytes) :
    getConFromSessid serv beyond sessid = some (.ok ⟨l, e.id, e.data.sess.id⟩) := by
  rcases ((placed_of_reachable reachable).entries h e found).given l given with
    ⟨inside, index, upper⟩
  have named := ((sound_of_reachable reachable).named h e found session.1).2
  have positive : 0 ≤ e.id := by
    simp only [eventLoopIdMask] at index
    omega
  have loopEq : getEventLoopId e.id = l := by
    rw [getEventLoopId, Int.tdiv_eq_ediv_of_nonneg positive, index]
  have within : ¬((l : Int) < 0 ∨ serv.threadCount ≤ l) := by omega
  have decoded := getDecorationInfo_decorationName idLower idUpper (by omega) upper
    e.data.sess.id beyond
  rw [getConFromSessid, ← session.2, named, decoded]
  simp [loopEq, within]

end Server

/-! ## The answer to a login -/

/-- The message that a login is answered with. -/
def Reply.loginResponse (reply : Reply) : Option LoginResponse :=
  reply.ret.map fun ret => ⟨if ret < 0 then ret else 0, reply.con.sess.sessid⟩

namespace CliCon

section Login

variable (codec : Codec) (serv : ServerConfig) (id : Int) (c : CliCon) (env : Env)

/-- Every path of a login ends at the label `exit`. -/
theorem handleLoginRequest_exits (req : Bytes) : ∃ c' ret effects,
    c.handleLoginRequest codec serv id env req = exitLogin codec c' ret effects := by
  rw [handleLoginRequest]
  cases codec.parseLoginRequest req with
  | none => exact ⟨_, _, _, rfl⟩
  | some lgreq =>
      by_cases loggedIn : c.status = .login
      · exact ⟨_, _, _, if_pos loggedIn⟩
      · by_cases refused : (c.recordLogin serv env.now lgreq).checkType lgreq.type < 0
        · exact ⟨_, _, _, (if_neg loggedIn).trans (if_pos refused)⟩
        · exact ⟨_, _, _, (if_neg loggedIn).trans (if_neg refused)⟩

end Login

variable {codec : Codec} {serv : ServerConfig} {id : Int} {c : CliCon} {env : Env} {p : Packet}

/-- A login that is answered with a session id leaves the connection with it. -/
theorem hasSession_of_answer {req sessid : Bytes}
    (answered : (c.handleLoginRequest codec serv id env req).loginResponse = some ⟨0, sessid⟩) :
    Server.HasSession (c.handleLoginRequest codec serv id env req).con sessid := by
  rcases handleLoginRequest_exits codec serv id c env req with ⟨c', ret, effects, exits⟩
  rw [exits] at answered ⊢
  by_cases failed : ret < 0
  · simp [exitLogin, Reply.loginResponse, failed] at answered
    omega
  · simp [exitLogin, Reply.loginResponse, failed] at answered
    simp [exitLogin, failed, Server.HasSession, answered]

/-! ## The operations of a packet -/

theorem con_handlePacket :
    (c.handlePacket codec serv id env p).con = (c.handleCmd codec serv id env p).con := by
  rw [handlePacket]
  cases (c.handleCmd codec serv id env p).ret with
  | none => rfl
  | some ret =>
      dsimp only
      split_ifs <;> rfl

/-- An answer is sent, not queued. -/
theorem queued_handlePacket : queued (c.handlePacket codec serv id env p).effects =
    queued (c.handleCmd codec serv id env p).effects := by
  rw [handlePacket]
  cases (c.handleCmd codec serv id env p).ret with
  | none => rfl
  | some ret =>
      dsimp only
      split_ifs
      · rw [queued_append]
        exact List.append_nil _
      · rfl

theorem queued_refreshing (handler : CliCon → Reply) :
    queued (c.refreshing env handler).effects = queued (handler (c.touch env.now)).effects := by
  rcases updateSession_spec c env.now with ⟨-, touchEq, -, queuedEq⟩
  simp only [refreshing, touchEq, queued_append, queuedEq, List.nil_append]

/-- A push of a server whose target is routed queues one operation. -/
theorem queued_push {svreq : PushRequest} {route : Route} (isPush : p.cmd = pushReq)
    (nonneg : 0 ≤ c.sess.type) (parsed : codec.parsePushRequest p.body = some svreq)
    (routed : getConFromSessid serv env.beyond svreq.toSessid = some (.ok route)) :
    queued (c.handlePacket codec serv id env p).effects =
      [(route.loop, ⟨route.conid, pushReq, p.body⟩)] := by
  have notLogin : ¬p.cmd = loginReq := by
    rw [isPush]
    decide
  have notNegative : ¬(c.touch env.now).sess.type < 0 := Int.not_lt.mpr nonneg
  rw [queued_handlePacket, handleCmd, if_neg notLogin, if_pos isPush, queued_refreshing,
    handlePushRequest]
  simp only [parsed, if_neg notNegative, routed]
  by_cases failed : env.queued < 0
  · simp [failed, exitPush, queued]
  · simp [failed, exitPush, queued]

/-- So does the response to it. -/
theorem queued_response {svresp : PushResponse} {sessid : Bytes} {route : Route}
    (isResp : p.cmd = pushResp) (parsed : codec.parsePushResponse p.body = some svresp)
    (addressed : svresp.toSessid = some sessid) (named : sessid ≠ [])
    (routed : getConFromSessid serv env.beyond sessid = some (.ok route)) :
    queued (c.handlePacket codec serv id env p).effects =
      [(route.loop, ⟨route.conid, pushResp, p.body⟩)] := by
  have notLogin : ¬p.cmd = loginReq := by
    rw [isResp]
    decide
  have notPush : ¬p.cmd = pushReq := by
    rw [isResp]
    decide
  rw [queued_handlePacket, handleCmd, if_neg notLogin, if_neg notPush, if_pos isResp,
    queued_refreshing, handlePushResponse]
  simp only [parsed, addressed]
  cases sessid with
  | nil => exact absurd rfl named
  | cons byte rest => simp [routed, exitPushResponse, queued]

end CliCon

/-! ## Connections that stay -/

namespace Server

variable {codec : Codec} {serv : ServerConfig} {s s' : Server} {h : Handle} {e : Entry CliCon}

/-- The connection `e'` is `e` later on. -/
structure Continues (e e' : Entry CliCon) : Prop where
  id : e'.id = e.id
  place : e'.place = e.place
  status : e'.data.status = e.data.status
  type : e'.data.sess.type = e.data.sess.type
  sessid : e'.data.sess.sessid = e.data.sess.sessid

theorem Continues.refl (e : Entry CliCon) : Continues e e := ⟨rfl, rfl, rfl, rfl, rfl⟩

theorem Continues.trans {e' e'' : Entry CliCon} (first : Continues e e')
    (second : Continues e' e'') : Continues e e'' :=
  ⟨second.id.trans first.id, second.place.trans first.place, second.status.trans first.status,
    second.type.trans first.type, second.sessid.trans first.sessid⟩

/-- A connection that is logged in continues as long as it is not closed. -/
theorem Step.continues {event : Event} (taken : Step codec serv s event s')
    (found : s.table.conns h = some e) {l : Nat} (added : e.place = .added l)
    (loggedIn : e.data.status = .login) (stays : event ≠ .life (.close h)) :
    ∃ e', s'.table.conns h = some e' ∧ Continues e e' := by
  have same {h' : Handle} {entry : Option (Entry CliCon)} (other : h ≠ h') :
      Function.update s.table.conns h' entry h = some e :=
    Table.update_eq_some.mpr (Or.inr ⟨other, found⟩)
  cases taken with
  | life fitting taken =>
      cases taken with
      | construct unused =>
          refine ⟨e, same ?_, Continues.refl e⟩
          rintro rfl
          exact absurd (unused.symm.trans found) (by simp)
      | dispatch found' atStart =>
          refine ⟨e, same ?_, Continues.refl e⟩
          rintro rfl
          rw [Option.some.inj (found'.symm.trans found), added] at atStart
          cases atStart
      | add found' queued =>
          refine ⟨e, same ?_, Continues.refl e⟩
          rintro rfl
          rw [Option.some.inj (found'.symm.trans found), added] at queued
          cases queued
      | close =>
          refine ⟨e, same ?_, Continues.refl e⟩
          rintro rfl
          exact stays rfl
  | @packet _ h' e' l' v found' added' =>
      by_cases sameHandle : h = h'
      · subst sameHandle
        obtain rfl := Option.some.inj (found'.symm.trans found)
        rcases (turn_visited codec serv e'.id e'.data v).keeps loggedIn with
          ⟨statusEq, -, typeEq, sessidEq⟩
        refine ⟨_, Table.update_eq_some.mpr (Or.inl ⟨rfl, rfl⟩), ?_⟩
        exact ⟨rfl, rfl, statusEq.trans loggedIn.symm, typeEq, sessidEq⟩
      · exact ⟨e, same sameHandle, Continues.refl e⟩
  | process => exact ⟨e, found, Continues.refl e⟩

/-- The connections at two addresses are not closed. -/
def StayOpen (h h' : Handle) (_ : Server) (event : Event) : Prop :=
  event ≠ .life (.close h) ∧ event ≠ .life (.close h')

theorem continues_of_run {guard : Server → Event → Prop} {events : List Event}
    (run : Run (Step codec serv) guard s events s')
    (stays : ∀ s event, guard s event → event ≠ .life (.close h))
    (found : s.table.conns h = some e) {l : Nat} (added : e.place = .added l)
    (loggedIn : e.data.status = .login) :
    ∃ e', s'.table.conns h = some e' ∧ Continues e e' := by
  apply run.invariant
  · exact ⟨e, found, Continues.refl e⟩
  · rintro middle event target ⟨e', found', continues⟩ guarded taken
    rcases taken.continues found' (continues.place.trans added) (continues.status.trans loggedIn)
      (stays middle event guarded) with ⟨e'', found'', continues'⟩
    exact ⟨e'', found'', continues.trans continues'⟩

/-- The server has answered a login of the connection at `h` with a session id, and the
connection is still there. -/
inductive Granted (codec : Codec) (serv : ServerConfig) (h : Handle) (sessid : Bytes) :
    Server → Prop
  | answer {s : Server} {e : Entry CliCon} {l : Nat} {v : Visit} :
      Reachable (Step codec serv) init s → s.table.conns h = some e → e.place = .added l →
      v.packet.cmd = loginReq →
      (e.data.handleCmd codec serv e.id v.env v.packet).loginResponse = some ⟨0, sessid⟩ →
      Granted codec serv h sessid (s.handle codec serv h e v)
  | later {s s' : Server} {event : Event} : Granted codec serv h sessid s →
      event ≠ .life (.close h) → Step codec serv s event s' → Granted codec serv h sessid s'

theorem Granted.reachable {sessid : Bytes} (granted : Granted codec serv h sessid s) :
    Reachable (Step codec serv) init s := by
  induction granted with
  | answer reachable found added =>
      rcases reachable with ⟨events, run⟩
      exact ⟨_, run.snoc trivial (.packet found added)⟩
  | later _ _ taken ih =>
      rcases ih with ⟨events, run⟩
      exact ⟨_, run.snoc trivial taken⟩

/-- It has the session id. -/
theorem Granted.connection {sessid : Bytes} (granted : Granted codec serv h sessid s) :
    ∃ e l, s.table.conns h = some e ∧ e.place = .added l ∧ HasSession e.data sessid := by
  induction granted with
  | @answer s e l v reachable found added isLogin answered =>
      refine ⟨_, l, Table.update_eq_some.mpr (Or.inl ⟨rfl, rfl⟩), added, ?_⟩
      have conEq : (turn codec serv e.id e.data v).handled.con =
          (e.data.handleCmd codec serv e.id v.env v.packet).con := CliCon.con_handlePacket
      have handlesLogin : e.data.handleCmd codec serv e.id v.env v.packet =
          e.data.handleLoginRequest codec serv e.id v.env v.packet.body := by
        rw [CliCon.handleCmd, if_pos isLogin]
      rw [handlesLogin] at answered conEq
      rw [conEq]
      exact CliCon.hasSession_of_answer answered
  | later _ stays taken ih =>
      rcases ih with ⟨e, l, found, added, loggedIn, sessidEq⟩
      rcases taken.continues found added loggedIn stays with ⟨e', found', continues⟩
      refine ⟨e', l, found', continues.place.trans added, ?_⟩
      exact ⟨continues.status.trans loggedIn, continues.sessid.trans sessidEq⟩

end Server

end GPush.ConnectServer
