import GPush.SessCache.Group

/-!
# Storing the session of a login

A cache without a handle answers `-1002` and a failing `HSET` `-1`, but the group drops
these results, so the login succeeds whatever its caches do.
-/

namespace GPush.ConnectServer

open GPush.Codec GPush.SessCache

/-- The calls on the caches meet what the handler finds. -/
def Env.Meets (env : Env) (access : Nat → Access) : Prop :=
  ∀ n, (access n).now = env.now ∧ ((access n).handle && (access n).answers) = env.answers n

/-- The group after `setSession` of some sessions. -/
def storeAll (serialize : Sess → Bytes) (access : Nat → Access) (grp : List RedisSessCache)
    (sessions : List Sess) : List RedisSessCache :=
  sessions.foldl (fun grp s => (SessCacheGrp.setSession serialize grp access s).2) grp

namespace Turn

section Properties

variable (codec : Codec) (serv : ServerConfig) (id : Int) (t : Turn)

/-- What `handleLoginRequest` leaves. -/
def reply : Reply := t.before.handleLoginRequest codec serv id t.visit.env t.visit.packet.body

/-- A login with a negative type is newly accepted and answered with the status `0`. -/
def LogsIn : Prop :=
  t.visit.packet.cmd = loginReq ∧ t.before.status = .init ∧ t.handled.con.status = .login ∧
    t.handled.con.sess.type < 0 ∧
    (t.reply codec serv id).resp = codec.serializeLoginResponse ⟨0, t.handled.con.sess.sessid⟩

/-- Whatever the caches held before, one of them holds the session afterwards. -/
def Stored (serialize : Sess → Bytes) (size : Nat) : Prop :=
  ∀ grp access, grp.length = size → t.visit.env.Meets access →
    ∃ c ∈ storeAll serialize access grp (writes t.handled.effects),
      (c.db (sessKey t.handled.con.sess.id)).get t.handled.con.sess.sessid =
        some (base64Encode (serialize t.handled.con.sess))

/-- The login is answered with `CREATE_SESSION_FAIL`, and the status stays. -/
def Refused : Prop :=
  (t.reply codec serv id).ret = some createSessionFail ∧
    (t.reply codec serv id).resp =
      codec.serializeLoginResponse ⟨createSessionFail, t.handled.con.sess.sessid⟩ ∧
    t.handled.con.status = t.before.status

/-- A login with a negative type that is allowed at the port arrives at a connection that
is not logged in. -/
def Requests : Prop :=
  t.visit.packet.cmd = loginReq ∧ t.before.status = .init ∧ ∃ lgreq,
    codec.parseLoginRequest t.visit.packet.body = some lgreq ∧
      t.before.checkType lgreq.type = 0 ∧ lgreq.type < 0

/-- One of the caches of a group carries out the calls. -/
def Answered (size : Nat) : Prop := ∃ n < size, t.visit.env.answers n = true

end Properties

end Turn

section Login

variable {codec : Codec} {serv : ServerConfig} {id : Int} {c : CliCon} {v : Visit}
  {serialize : Sess → Bytes} {size : Nat}

/-- An allowed login is accepted, and its session is written if the type is negative. -/
theorem handleLoginRequest_accepted {env : Env} {req : Bytes} {lgreq : LoginRequest}
    (atStart : c.status = .init) (parsed : codec.parseLoginRequest req = some lgreq)
    (passed : c.checkType lgreq.type = 0) (negative : lgreq.type < 0) :
    c.handleLoginRequest codec serv id env req =
      ⟨some 0, c.loggedIn serv id env.now lgreq,
        codec.serializeLoginResponse ⟨0, (c.loggedIn serv id env.now lgreq).sess.sessid⟩,
        [.setSession (c.loggedIn serv id env.now lgreq).sess]⟩ := by
  have notRefused : ¬(c.recordLogin serv env.now lgreq).checkType lgreq.type < 0 :=
    CliCon.checkType_eq_zero_iff.mp passed
  have notPositive : ¬0 < lgreq.type := by omega
  have notNonneg : ¬0 ≤ lgreq.type := by omega
  rw [CliCon.handleLoginRequest, parsed]
  simp only [atStart, reduceCtorEq, if_false, if_neg notRefused, if_neg notPositive]
  simp [CliCon.updateSession, CliCon.touch, CliCon.recordSession, CliCon.recordLogin,
    CliCon.loggedIn, CliCon.exitLogin, notNonneg]

theorem turn_login (codec : Codec) (serv : ServerConfig) (id : Int) (c : CliCon)
    (isLogin : v.packet.cmd = loginReq) :
    (turn codec serv id c v).handled.con =
        (c.handleLoginRequest codec serv id v.env v.packet.body).con ∧
      writes (turn codec serv id c v).handled.effects =
        writes (c.handleLoginRequest codec serv id v.env v.packet.body).effects := by
  rw [turn, CliCon.handlePacket, CliCon.handleCmd, if_pos isLogin]
  cases (c.handleLoginRequest codec serv id v.env v.packet.body).ret with
  | none => exact ⟨rfl, rfl⟩
  | some ret =>
      simp only
      split_ifs
      · simp [writes]
      · exact ⟨rfl, rfl⟩

/-- What becomes of an allowed login. -/
theorem Turn.Requests.spec (requests : (turn codec serv id c v).Requests codec) :
    (turn codec serv id c v).LogsIn codec serv id ∧
      ((turn codec serv id c v).reply codec serv id).ret = some 0 ∧
      writes (turn codec serv id c v).handled.effects =
        [(turn codec serv id c v).handled.con.sess] ∧
      (turn codec serv id c v).handled.con.sess.lasttime = v.env.now := by
  rcases requests with ⟨isLogin, atStart, lgreq, parsed, passed, negative⟩
  have accepted : c.handleLoginRequest codec serv id v.env v.packet.body = _ :=
    handleLoginRequest_accepted atStart parsed passed negative
  rcases turn_login codec serv id c (show v.packet.cmd = loginReq from isLogin) with
    ⟨conEq, writesEq⟩
  rw [accepted] at conEq writesEq
  rw [Turn.LogsIn, Turn.reply, conEq, writesEq]
  refine ⟨⟨isLogin, atStart, rfl, negative, ?_⟩, ?_, rfl, rfl⟩
  · exact congrArg Reply.resp accepted
  · exact congrArg Reply.ret accepted

/-- Only an allowed login is newly accepted. -/
theorem Turn.LogsIn.requests (logsIn : (turn codec serv id c v).LogsIn codec serv id) :
    (turn codec serv id c v).Requests codec := by
  rcases logsIn with ⟨isLogin, atStart, loggedIn, negative, -⟩
  have visited := turn_visited codec serv id c v
  generalize (turn codec serv id c v).handled.con = c' at visited loggedIn negative
  generalize writes (turn codec serv id c v).handled.effects = sessions at visited
  generalize queued (turn codec serv id c v).handled.effects = ops at visited
  cases visited with
  | unchanged => exact absurd (loggedIn.symm.trans atStart) (by decide)
  | refused => exact absurd (loggedIn.symm.trans atStart) (by decide)
  | accepted _ _ parsed passed => exact ⟨isLogin, atStart, _, parsed, passed, negative⟩
  | refreshed => exact absurd (loggedIn.symm.trans atStart) (by decide)

/-! ## The caches -/

/-- A cache that carries out the `HSET` holds the session. -/
theorem setSession_get (c : RedisSessCache) {access : Access} {s : Sess}
    (answers : (access.handle && access.answers) = true) (clock : s.lasttime = access.now) :
    ((c.setSession serialize access s).2.db (sessKey s.id)).get s.sessid =
      some (base64Encode (serialize s)) := by
  rw [Bool.and_eq_true] at answers
  have same : { s with lasttime := access.now } = s := by rw [← clock]
  simp only [RedisSessCache.setSession, answers.1, answers.2, Bool.true_eq_false, if_false, same,
    Function.update_self, Hash.get_set]

/-- A cache that does not is left alone. -/
theorem setSession_of_fails (c : RedisSessCache) {access : Access} (s : Sess)
    (fails : (access.handle && access.answers) = false) :
    (c.setSession serialize access s).2 = c := by
  rw [RedisSessCache.setSession]
  cases handle : access.handle with
  | false => rfl
  | true =>
      rw [handle, Bool.true_and] at fails
      simp [fails]

/-- A group without sessions. -/
def emptyGrp (size : Nat) : List RedisSessCache := List.replicate size ⟨0, fun _ => ⟨[], by simp⟩⟩

/-- The session of an allowed login is stored exactly when a cache answers. -/
theorem Turn.Requests.stored_iff (requests : (turn codec serv id c v).Requests codec) :
    (turn codec serv id c v).Stored serialize size ↔
      (turn codec serv id c v).Answered size := by
  rcases requests.spec with ⟨-, -, writesEq, clock⟩
  rw [Turn.Stored, writesEq]
  generalize (turn codec serv id c v).handled.con.sess = s at clock
  constructor
  · intro stored
    by_contra unanswered
    have meets : v.env.Meets fun n => ⟨v.env.now, true, v.env.answers n, true⟩ := by
      intro n
      exact ⟨rfl, Bool.true_and _⟩
    rcases stored (emptyGrp size) _ List.length_replicate meets with ⟨c', member, holds⟩
    rcases List.mem_map.mp member with ⟨⟨c, n⟩, inGroup, rfl⟩
    have atN := List.mem_zipIdx_iff_getElem?.mp inGroup
    rw [emptyGrp, List.getElem?_replicate] at atN
    split_ifs at atN with inside
    obtain rfl := Option.some.inj atN
    have fails : (true && v.env.answers n) = false := by
      rw [Bool.true_and, Bool.eq_false_iff]
      intro answers
      exact unanswered ⟨n, inside, answers⟩
    rw [setSession_of_fails _ _ fails] at holds
    simp [Hash.get] at holds
  · rintro ⟨n, inside, answers⟩ grp access lengthEq meets
    rcases meets n with ⟨nowEq, answersEq⟩
    have atN : grp[n]? = some grp[n] := List.getElem?_eq_getElem (lengthEq ▸ inside)
    refine ⟨_, List.mem_map.mpr ⟨(grp[n], n), List.mem_zipIdx_iff_getElem?.mpr atN, rfl⟩, ?_⟩
    exact setSession_get _ (answersEq.trans answers) (clock.trans nowEq.symm)

theorem Turn.Requests.not_refused (requests : (turn codec serv id c v).Requests codec) :
    ¬(turn codec serv id c v).Refused codec serv id := by
  rintro ⟨retEq, -⟩
  exact absurd (requests.spec.2.1.symm.trans retEq) (by decide)

end Login

/-- Take any sequence of packets of a connection and a group of `size` caches.  Every login
with a negative type that is newly accepted is stored in a cache exactly when at every
such login that is allowed a cache answers; and exactly then every such login whose
caches all fail is refused. -/
theorem login_stored_iff (codec : Codec) (serialize : Sess → Bytes) (serv : ServerConfig)
    (id : Int) (conf : CliConfig) (size : Nat) (visits : List Visit) :
    ((∀ t ∈ (serve codec serv id (.init conf) visits).turns,
        t.LogsIn codec serv id → t.Stored serialize size) ↔
      ∀ t ∈ (serve codec serv id (.init conf) visits).turns,
        t.Requests codec → t.Answered size) ∧
    ((∀ t ∈ (serve codec serv id (.init conf) visits).turns,
        t.Requests codec → ¬t.Answered size → t.Refused codec serv id) ↔
      ∀ t ∈ (serve codec serv id (.init conf) visits).turns,
        t.Requests codec → t.Answered size) := by
  constructor
  · constructor
    · intro stores t member requests
      have isTurn := mem_turns codec serv id member
      rw [isTurn] at requests ⊢
      exact requests.stored_iff.mp (isTurn ▸ stores t member (isTurn ▸ requests.spec.1))
    · intro answered t member logsIn
      have isTurn := mem_turns codec serv id member
      rw [isTurn] at logsIn ⊢
      have requests := logsIn.requests
      exact requests.stored_iff.mpr (isTurn ▸ answered t member (isTurn ▸ requests))
  · constructor
    · intro refuses t member requests
      have isTurn := mem_turns codec serv id member
      by_contra unanswered
      have refused := refuses t member requests unanswered
      rw [isTurn] at requests refused
      exact requests.not_refused refused
    · intro answered t member requests unanswered
      exact absurd (answered t member requests) unanswered

/-- A login with the type `-1` whose caches all fail. -/
def loginWithoutCaches : Visit :=
  ⟨{ sampleEnv 25 with answers := fun _ => false },
    packetOf loginReq (loginBytes [117] (-1)) (by decide +kernel)⟩

/-- It is accepted and answered with the status `0`, and none of two caches stores it. -/
theorem login_without_caches :
    ∃ t ∈ (serve gimCodec.toCodec ⟨1, 1⟩ 5 (.init samplePort)
        [loginWithoutCaches]).turns,
      t.LogsIn gimCodec.toCodec ⟨1, 1⟩ 5 ∧ ¬t.Stored (fun s => s.id) 2 ∧
        t.Requests gimCodec.toCodec ∧ ¬t.Answered 2 ∧
        ¬t.Refused gimCodec.toCodec ⟨1, 1⟩ 5 := by
  have requests : (turn gimCodec.toCodec ⟨1, 1⟩ 5 (.init samplePort)
      loginWithoutCaches).Requests gimCodec.toCodec :=
    ⟨by decide +kernel, rfl, ⟨[117], -1, [], [], []⟩, by decide +kernel, by decide, by decide⟩
  have unanswered : ¬(turn gimCodec.toCodec ⟨1, 1⟩ 5 (.init samplePort)
      loginWithoutCaches).Answered 2 := by
    rintro ⟨n, -, answers⟩
    exact absurd answers (by simp [turn, loginWithoutCaches])
  refine ⟨_, List.mem_of_getElem? (i := 0) rfl, requests.spec.1, ?_, requests, unanswered,
    requests.not_refused⟩
  intro stored
  exact unanswered (requests.stored_iff.mp stored)

end GPush.ConnectServer
