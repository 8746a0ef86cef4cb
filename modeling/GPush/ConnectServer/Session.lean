import GPush.ConnectServer.MessageClasses

/-!
# The session of a connection

The packets of a connection are handled one after the other until a call answers a
negative value; then, or at any time before, the connection is destroyed.
`updateSession` looks at the type of the session alone, which a refused login has
set, and so does `handlePushRequest`.
-/

namespace GPush.ConnectServer

open GPush.Connection

/-! ## What a packet does to the session -/

/-- The type of a connection that is logged in has passed `checkType`. -/
def CliCon.TypeChecked (c : CliCon) : Prop := c.status = .login → c.checkType c.sess.type = 0

theorem CliCon.typeChecked_init (conf : CliConfig) : (CliCon.init conf).TypeChecked := by
  intro loggedIn
  simp [CliCon.init] at loggedIn

namespace CliCon.Visited

variable {codec : Codec} {serv : ServerConfig} {id : Int} {c c' : CliCon} {env : Env} {p : Packet}
  {sessions : List Sess} {ops : List (Int × SendMsgOp)}

/-- Only a refreshing packet and an accepted login write a session. -/
theorem wrote (visited : Visited codec serv id c env p c' sessions ops) (some : sessions ≠ []) :
    p.Refreshes ∧ c.sess.type < 0 ∨ p.cmd = loginReq ∧ ∃ lgreq,
      codec.parseLoginRequest p.body = .some lgreq ∧ c.checkType lgreq.type = 0 ∧
        c'.status = .login := by
  cases visited with
  | unchanged => exact absurd rfl some
  | refused => exact absurd rfl some
  | accepted isLogin _ parsed passed => exact Or.inr ⟨isLogin, _, parsed, passed, rfl⟩
  | refreshed refreshes =>
      obtain ⟨s, written⟩ := List.exists_mem_of_ne_nil _ some
      exact Or.inl ⟨refreshes, (mem_refreshedSessions.mp written).1⟩

theorem wrote_of_refreshes (visited : Visited codec serv id c env p c' sessions ops)
    (refreshes : p.Refreshes) (negative : c.sess.type < 0) : sessions ≠ [] := by
  cases visited with
  | unchanged notRefreshing => exact absurd refreshes notRefreshing
  | refused isLogin => exact absurd refreshes (not_refreshes_of_login isLogin)
  | accepted isLogin => exact absurd refreshes (not_refreshes_of_login isLogin)
  | refreshed =>
      exact List.ne_nil_of_mem (mem_refreshedSessions (c := c.touch env.now).mpr ⟨negative, rfl⟩)

/-- A session written is that of the connection, whose type is negative. -/
theorem mem_sessions (visited : Visited codec serv id c env p c' sessions ops) {s : Sess}
    (written : s ∈ sessions) :
    s.id = c'.sess.id ∧ s.sessid = c'.sess.sessid ∧ c'.sess.type < 0 := by
  have fromSess : s ∈ c'.refreshedSessions := by
    cases visited with
    | unchanged => exact absurd written List.not_mem_nil
    | refused => exact absurd written List.not_mem_nil
    | accepted => exact written
    | refreshed => exact written
  obtain ⟨negative, rfl⟩ := mem_refreshedSessions.mp fromSess
  exact ⟨rfl, rfl, negative⟩

/-- Once logged in, a connection keeps its user, its type and its session id. -/
theorem keeps (visited : Visited codec serv id c env p c' sessions ops)
    (loggedIn : c.status = .login) :
    c'.status = .login ∧ c'.sess.id = c.sess.id ∧ c'.sess.type = c.sess.type ∧
      c'.sess.sessid = c.sess.sessid := by
  cases visited with
  | unchanged => exact ⟨loggedIn, rfl, rfl, rfl⟩
  | refused _ atStart => exact absurd (loggedIn.symm.trans atStart) (by decide)
  | accepted _ atStart => exact absurd (loggedIn.symm.trans atStart) (by decide)
  | refreshed => exact ⟨loggedIn, rfl, rfl, rfl⟩

/-- The pushes queued are those that `Relays` describes. -/
theorem mem_ops_iff (visited : Visited codec serv id c env p c' sessions ops) {l : Int}
    {op : SendMsgOp} : (l, op) ∈ ops ∧ op.cmd = pushReq ↔ Relays codec serv c env p l op := by
  have refreshes : Relays codec serv c env p l op → p.Refreshes := fun relays => Or.inl relays.1
  have noOps : ¬p.Refreshes →
      ((l, op) ∈ ([] : List (Int × SendMsgOp)) ∧ op.cmd = pushReq ↔
        Relays codec serv c env p l op) := by
    intro notRefreshing
    exact ⟨fun queued => absurd queued.1 List.not_mem_nil,
      fun relays => absurd (refreshes relays) notRefreshing⟩
  cases visited with
  | unchanged notRefreshing => exact noOps notRefreshing
  | refused isLogin => exact noOps (not_refreshes_of_login isLogin)
  | accepted isLogin => exact noOps (not_refreshes_of_login isLogin)
  | refreshed _ queuedIff => exact queuedIff l op

theorem typeChecked (visited : Visited codec serv id c env p c' sessions ops)
    (checked : TypeChecked c) : TypeChecked c' := by
  cases visited with
  | unchanged => exact checked
  | refused _ atStart => exact fun loggedIn => absurd (loggedIn.symm.trans atStart) (by decide)
  | accepted _ _ _ passed => exact fun _ => passed
  | refreshed => exact checked

/-- A connection that is logged in has the session id of its user. -/
theorem named (visited : Visited codec serv id c env p c' sessions ops)
    (wasNamed : c.status = .login → c.sess.sessid = decorationName serv.ID id c.sess.id)
    (loggedIn : c'.status = .login) : c'.sess.sessid = decorationName serv.ID id c'.sess.id := by
  cases visited with
  | unchanged => exact wasNamed loggedIn
  | refused _ atStart => exact absurd (loggedIn.symm.trans atStart) (by decide)
  | accepted => rfl
  | refreshed => exact wasNamed loggedIn

end CliCon.Visited

/-! ## Serving a connection -/

/-- A packet and what `handlePacket` finds when it handles it. -/
structure Visit where
  env : Env
  packet : Packet

/-- A packet handled, with the connection before. -/
structure Turn where
  before : CliCon
  visit : Visit
  handled : Handled

/-- The packets handled, and the connection at the end. -/
structure Served where
  turns : List Turn
  last : CliCon

section Serve

variable (codec : Codec) (serv : ServerConfig) (id : Int)

/-- Handling one packet. -/
def turn (c : CliCon) (v : Visit) : Turn := ⟨c, v, c.handlePacket codec serv id v.env v.packet⟩

/-- Handling the packets in turn, up to the first negative result. -/
def serve : CliCon → List Visit → Served
  | c, [] => ⟨[], c⟩
  | c, v :: visits =>
      let t := turn codec serv id c v
      if t.handled.ret < 0 then
        ⟨[t], t.handled.con⟩
      else
        let later := serve t.handled.con visits
        ⟨t :: later.turns, later.last⟩

theorem serve_invariant_from (inv : List Turn → CliCon → Prop)
    (preserved : ∀ past c v, inv past c →
      inv (past ++ [turn codec serv id c v]) (turn codec serv id c v).handled.con)
    (visits : List Visit) {past : List Turn} {c : CliCon} (start : inv past c) :
    inv (past ++ (serve codec serv id c visits).turns) (serve codec serv id c visits).last := by
  induction visits generalizing past c with
  | nil =>
      rw [serve, List.append_nil]
      exact start
  | cons v visits ih =>
      have next := preserved past c v start
      rw [serve]
      split_ifs
      · exact next
      · have later := ih next
        rwa [List.append_assoc] at later

/-- The induction rule: what holds of the turns so far and the connection after them
is kept by every turn. -/
theorem serve_invariant (inv : List Turn → CliCon → Prop) {c : CliCon} (start : inv [] c)
    (preserved : ∀ past c v, inv past c →
      inv (past ++ [turn codec serv id c v]) (turn codec serv id c v).handled.con)
    (visits : List Visit) :
    inv (serve codec serv id c visits).turns (serve codec serv id c visits).last :=
  serve_invariant_from codec serv id inv preserved visits start

/-- Every turn of a connection is one call of `handlePacket`. -/
theorem mem_turns {c : CliCon} {visits : List Visit} {t : Turn}
    (member : t ∈ (serve codec serv id c visits).turns) :
    t = turn codec serv id t.before t.visit := by
  refine serve_invariant codec serv id
    (fun past _ => ∀ t ∈ past, t = turn codec serv id t.before t.visit)
    (fun t member => absurd member List.not_mem_nil) (fun past c v holds t member => ?_)
    visits t member
  rcases List.mem_append.mp member with earlier | new
  · exact holds t earlier
  · obtain rfl := List.mem_singleton.mp new
    rfl

end Serve

/-! ## The caches -/

/-- A redis cache: hashes by key, with a session in each field.  The code stores its
serialized form in base64. -/
abbrev Cache := Bytes → Bytes → Option Sess

/-- `sessKey`. -/
def sessKey (key : Bytes) : Bytes := [83, 69, 83, 83, 95] ++ key

/-- The field of a session set or deleted. -/
def Cache.put (cache : Cache) (s : Sess) (value : Option Sess) : Cache :=
  Function.update cache (sessKey s.id)
    (Function.update (cache (sessKey s.id)) s.sessid value)

/-- `SessCacheGrp::setSession` and `SessCacheGrp::delSession`: every cache of the group
that answers carries out the call. -/
def callCaches (answers : Nat → Bool) (grp : List Cache) : Effect → List Cache
  | .setSession s => grp.mapIdx fun n cache => if answers n then cache.put s (some s) else cache
  | .delSession s => grp.mapIdx fun n cache => if answers n then cache.put s none else cache
  | _ => grp

/-- The caches after the calls of some turns. -/
def cachesAfter (grp : List Cache) (turns : List Turn) : List Cache :=
  turns.foldl (fun grp t => t.handled.effects.foldl (callCaches t.visit.env.answers) grp) grp

/-- The caches after the destructor, all of which answer. -/
def cachesDestroyed (grp : List Cache) (c : CliCon) : List Cache :=
  c.delSession.foldl (callCaches fun _ => true) grp

/-! ## Writing sessions -/

/-- The turn is a login that is accepted. -/
def Turn.Accepts (codec : Codec) (t : Turn) : Prop :=
  t.visit.packet.cmd = loginReq ∧
    ∃ lgreq, codec.parseLoginRequest t.visit.packet.body = some lgreq ∧
      t.before.checkType lgreq.type = 0 ∧ t.handled.con.status = .login

/-- A session is written by a connection that is logged in, or by the login that is
being accepted. -/
def Turn.WritesAuthorised (codec : Codec) (t : Turn) : Prop :=
  writes t.handled.effects ≠ [] → t.before.status = .login ∨ t.Accepts codec

/-- A packet that refreshes the session arrives at a connection that is logged in, or
whose type, if any, is not negative. -/
def Turn.Backed (t : Turn) : Prop :=
  t.visit.packet.Refreshes → t.before.status = .login ∨ 0 ≤ t.before.sess.type

/-- Nothing that the connection has written is left in the caches. -/
def NothingLeft (turns : List Turn) (grp : List Cache) : Prop :=
  ∀ t ∈ turns, ∀ s ∈ writes t.handled.effects, ∀ cache ∈ grp, cache (sessKey s.id) s.sessid = none

section Writes

variable {codec : Codec} {serv : ServerConfig} {id : Int} {c : CliCon} {v : Visit}

theorem turn_visited (codec : Codec) (serv : ServerConfig) (id : Int) (c : CliCon) (v : Visit) :
    CliCon.Visited codec serv id c v.env v.packet (turn codec serv id c v).handled.con
      (writes (turn codec serv id c v).handled.effects)
      (queued (turn codec serv id c v).handled.effects) :=
  CliCon.handlePacket_visited codec serv id c v.env v.packet

/-- A session is written with authority exactly when the packet is backed. -/
theorem writesAuthorised_turn_iff :
    (turn codec serv id c v).WritesAuthorised codec ↔ (turn codec serv id c v).Backed := by
  have visited := turn_visited codec serv id c v
  constructor
  · intro authorised refreshes
    by_contra unbacked
    rw [not_or, Int.not_le] at unbacked
    rcases authorised (visited.wrote_of_refreshes refreshes unbacked.2) with loggedIn | accepts
    · exact unbacked.1 loggedIn
    · exact CliCon.not_refreshes_of_login accepts.1 refreshes
  · intro backed some
    rcases visited.wrote some with ⟨refreshes, negative⟩ | accepts
    · exact Or.inl ((backed refreshes).resolve_right (Int.not_le.mpr negative))
    · exact Or.inr accepts

/-- What the connection has written is the entry that its destructor deletes. -/
def Owned (past : List Turn) (c : CliCon) : Prop :=
  ∀ t ∈ past, ∀ s ∈ writes t.handled.effects,
    c.status = .login ∧ c.sess.type < 0 ∧ s.id = c.sess.id ∧ s.sessid = c.sess.sessid

/-- The step lemma: a backed packet keeps it so. -/
theorem Owned.step {past : List Turn} (owned : Owned past c)
    (backed : (turn codec serv id c v).Backed) :
    Owned (past ++ [turn codec serv id c v]) (turn codec serv id c v).handled.con := by
  have visited := turn_visited codec serv id c v
  intro t member s written
  rcases List.mem_append.mp member with earlier | new
  · obtain ⟨loggedIn, negative, idEq, sessidEq⟩ := owned t earlier s written
    obtain ⟨loggedIn', idEq', typeEq', sessidEq'⟩ := visited.keeps loggedIn
    exact ⟨loggedIn', typeEq' ▸ negative, idEq.trans idEq'.symm, sessidEq.trans sessidEq'.symm⟩
  · obtain rfl := List.mem_singleton.mp new
    obtain ⟨idEq, sessidEq, negative⟩ := visited.mem_sessions written
    refine ⟨?_, negative, idEq, sessidEq⟩
    rcases visited.wrote (List.ne_nil_of_mem written) with ⟨refreshes, wasNegative⟩ | accepts
    · have loggedIn := (backed refreshes).resolve_right (Int.not_le.mpr wasNegative)
      exact (visited.keeps loggedIn).1
    · exact accepts.2.choose_spec.2.2

theorem Owned.nothingLeft {turns : List Turn} (owned : Owned turns c) (grp : List Cache) :
    NothingLeft turns (cachesDestroyed grp c) := by
  intro t member s written cache answering
  obtain ⟨loggedIn, negative, idEq, sessidEq⟩ := owned t member s written
  have deletes : c.delSession = [.delSession c.sess] := by
    rw [CliCon.delSession, if_neg (by omega), if_neg (by simp [loggedIn]), if_neg (by omega)]
  rw [cachesDestroyed, deletes, List.foldl_cons, List.foldl_nil, callCaches,
    List.mem_mapIdx] at answering
  obtain ⟨n, inside, rfl⟩ := answering
  simp [Cache.put, idEq, sessidEq]

end Writes

/-- Take any sequence of packets of a connection, whose destructor runs after them with
the caches answering.  Sessions are written only by an accepted login or while the
connection is logged in, and nothing written is left, exactly when every refreshing
packet arrives at a connection that is logged in or has no negative type. -/
theorem sessions_authorised_iff (codec : Codec) (serv : ServerConfig) (id : Int) (conf : CliConfig)
    (visits : List Visit) (grp : List Cache) :
    ((∀ t ∈ (serve codec serv id (.init conf) visits).turns, t.WritesAuthorised codec) ∧
      NothingLeft (serve codec serv id (.init conf) visits).turns
        (cachesDestroyed (cachesAfter grp (serve codec serv id (.init conf) visits).turns)
          (serve codec serv id (.init conf) visits).last)) ↔
      ∀ t ∈ (serve codec serv id (.init conf) visits).turns, t.Backed := by
  constructor
  · rintro ⟨authorised, -⟩ t member
    have isTurn := mem_turns codec serv id member
    rw [isTurn]
    exact writesAuthorised_turn_iff.mp (isTurn ▸ authorised t member)
  · intro backed
    refine ⟨?_, ?_⟩
    · intro t member
      have isTurn := mem_turns codec serv id member
      rw [isTurn]
      exact writesAuthorised_turn_iff.mpr (isTurn ▸ backed t member)
    · have owned : ∀ visits, (∀ t ∈ (serve codec serv id (.init conf) visits).turns, t.Backed) →
          Owned (serve codec serv id (.init conf) visits).turns
            (serve codec serv id (.init conf) visits).last :=
        serve_invariant codec serv id (fun past c => (∀ t ∈ past, t.Backed) → Owned past c)
          (fun _ t member => absurd member List.not_mem_nil) (fun past c v holds backed =>
            (holds fun t member => backed t (List.mem_append_left _ member)).step
              (backed _ (List.mem_append_right _ (List.mem_singleton.mpr rfl))))
      exact (owned visits backed).nothingLeft _

/-! ## What the packets say -/

/-- The port allows a login with the type. -/
def CliConfig.Allows (conf : CliConfig) (type : Int) : Prop :=
  type = 0 ∨ conf.minType ≤ type ∧ type < conf.maxType

/-- The type that a packet asks to log in with. -/
def Visit.loginType (codec : Codec) (v : Visit) : Option Int :=
  if v.packet.cmd = loginReq then
    (codec.parseLoginRequest v.packet.body).map fun lgreq => lgreq.type
  else
    none

/-- The types of the logins among some packets. -/
def loginTypes (codec : Codec) (visits : List Visit) : List Int :=
  visits.filterMap fun v => v.loginType codec

/-- One of the logins is for a type that the port allows. -/
def LoginAllowed (codec : Codec) (conf : CliConfig) (visits : List Visit) : Prop :=
  ∃ type ∈ loginTypes codec visits, conf.Allows type

/-- The type of the last login, which is `0` before the first. -/
def lastType (codec : Codec) (visits : List Visit) : Int :=
  (loginTypes codec visits).getLast?.getD 0

/-- The connection has recorded the logins among some packets: it is logged in since the first
that is allowed, and until then it has the type of the last. -/
structure Recorded (codec : Codec) (conf : CliConfig) (past : List Visit) (c : CliCon) : Prop where
  port : c.conf = conf
  status : c.status = .login ↔ LoginAllowed codec conf past
  type : c.status = .init → c.sess.type = lastType codec past

theorem CliCon.checkType_eq_zero_iff_allows (c : CliCon) (type : Int) :
    c.checkType type = 0 ↔ c.conf.Allows type := by
  rw [checkType, CliConfig.Allows]
  split_ifs <;> simp <;> omega

section Packets

variable {codec : Codec} {serv : ServerConfig} {id : Int} {conf : CliConfig} {past : List Visit}
  {c : CliCon}

theorem Visit.loginType_eq_some_iff {v : Visit} {type : Int} :
    v.loginType codec = some type ↔ v.packet.cmd = loginReq ∧
      ∃ lgreq, codec.parseLoginRequest v.packet.body = some lgreq ∧ lgreq.type = type := by
  rw [loginType]
  split_ifs with isLogin
  · simp only [isLogin, true_and, Option.map_eq_some_iff]
  · simp only [isLogin, false_and]

theorem recorded_init (codec : Codec) (conf : CliConfig) : Recorded codec conf [] (.init conf) := by
  constructor
  · rfl
  · simp [CliCon.init, LoginAllowed, loginTypes]
  · exact fun _ => rfl

/-- A packet without a login adds nothing to record. -/
theorem Recorded.of_none {v : Visit} {c' : CliCon} (recorded : Recorded codec conf past c)
    (noLogin : v.loginType codec = none) (confEq : c'.conf = c.conf)
    (statusEq : c'.status = c.status) (typeEq : c'.sess.type = c.sess.type) :
    Recorded codec conf (past ++ [v]) c' := by
  have typesEq : loginTypes codec (past ++ [v]) = loginTypes codec past := by
    simp [loginTypes, noLogin]
  constructor
  · exact confEq.trans recorded.port
  · rw [statusEq, recorded.status, LoginAllowed, LoginAllowed, typesEq]
  · rw [statusEq, typeEq, lastType, typesEq]
    exact recorded.type

/-- A login before the first that is allowed is recorded. -/
theorem Recorded.of_some {v : Visit} {c' : CliCon} {type : Int}
    (recorded : Recorded codec conf past c) (atStart : c.status = .init)
    (asked : v.loginType codec = some type) (confEq : c'.conf = c.conf)
    (statusIff : c'.status = .login ↔ c.checkType type = 0) (typeEq : c'.sess.type = type) :
    Recorded codec conf (past ++ [v]) c' := by
  have typesEq : loginTypes codec (past ++ [v]) = loginTypes codec past ++ [type] := by
    simp [loginTypes, asked]
  have refusedBefore : ¬LoginAllowed codec conf past := by
    rw [← recorded.status, atStart]
    decide
  constructor
  · exact confEq.trans recorded.port
  · rw [statusIff, c.checkType_eq_zero_iff_allows, recorded.port, LoginAllowed, typesEq]
    simp only [List.mem_append, List.mem_singleton]
    constructor
    · exact fun allowed => ⟨type, Or.inr rfl, allowed⟩
    · rintro ⟨other, earlier | rfl, allowed⟩
      · exact absurd ⟨other, earlier, allowed⟩ refusedBefore
      · exact allowed
  · intro _
    rw [typeEq, lastType, typesEq, List.getLast?_concat, Option.getD_some]

/-- After the first login that is allowed nothing is recorded. -/
theorem Recorded.of_login {v : Visit} (recorded : Recorded codec conf past c)
    (loggedIn : c.status = .login) : Recorded codec conf (past ++ [v]) c := by
  obtain ⟨type, asked, allowed⟩ := recorded.status.mp loggedIn
  constructor
  · exact recorded.port
  · refine iff_of_true loggedIn ⟨type, ?_, allowed⟩
    rw [loginTypes, List.filterMap_append]
    exact List.mem_append_left _ asked
  · exact fun atStart => absurd (loggedIn.symm.trans atStart) (by decide)

/-- The step lemma: every packet is recorded. -/
theorem Recorded.visited {v : Visit} {c' : CliCon} {sessions : List Sess}
    {ops : List (Int × SendMsgOp)} (recorded : Recorded codec conf past c)
    (visited : CliCon.Visited codec serv id c v.env v.packet c' sessions ops) :
    Recorded codec conf (past ++ [v]) c' := by
  cases visited with
  | unchanged notRefreshing silent =>
      cases asked : v.loginType codec with
      | none => exact recorded.of_none asked rfl rfl rfl
      | some type =>
          obtain ⟨isLogin, lgreq, parsed, -⟩ := Visit.loginType_eq_some_iff.mp asked
          exact recorded.of_login (silent isLogin (by rw [parsed]; rfl))
  | refused isLogin atStart parsed refused =>
      refine recorded.of_some atStart (Visit.loginType_eq_some_iff.mpr ⟨isLogin, _, parsed, rfl⟩)
        rfl ?_ rfl
      refine iff_of_false ?_ (Int.ne_of_lt refused)
      exact fun loggedIn => absurd (atStart.symm.trans loggedIn) (by decide)
  | accepted isLogin atStart parsed passed =>
      exact recorded.of_some atStart (Visit.loginType_eq_some_iff.mpr ⟨isLogin, _, parsed, rfl⟩)
        rfl (iff_of_true rfl passed) rfl
  | refreshed refreshes =>
      refine recorded.of_none ?_ rfl rfl rfl
      exact if_neg fun isLogin => CliCon.not_refreshes_of_login isLogin refreshes

/-- A property of the turns is one of the packets where it is so for each turn and the packets
before it. -/
theorem forall_turns_iff (holds : Turn → Prop) (said : List Visit → Visit → Prop)
    (turnIff : ∀ past c v, Recorded codec conf past c →
      (holds (turn codec serv id c v) ↔ said past v)) (visits : List Visit) :
    (∀ t ∈ (serve codec serv id (.init conf) visits).turns, holds t) ↔
      ∀ past v, past ++ [v] <+: (serve codec serv id (.init conf) visits).turns.map Turn.visit →
        said past v := by
  refine (serve_invariant codec serv id (fun turns c =>
    Recorded codec conf (turns.map Turn.visit) c ∧ ((∀ t ∈ turns, holds t) ↔
      ∀ past v, past ++ [v] <+: turns.map Turn.visit → said past v)) ?_ ?_ visits).2
  · refine ⟨recorded_init codec conf, iff_of_true (fun t member => ?_) fun past v inside => ?_⟩
    · exact absurd member List.not_mem_nil
    · exact absurd inside (by simp)
  · rintro turns c v ⟨recorded, iff⟩
    rw [List.map_append]
    refine ⟨recorded.visited (turn_visited codec serv id c v), ?_⟩
    rw [List.forall_mem_append, List.forall_mem_singleton, iff, turnIff _ c v recorded]
    constructor
    · rintro ⟨earlier, now⟩ past v' inside
      rcases List.prefix_concat_iff.mp inside with whole | inside
      · obtain ⟨rfl, new⟩ := List.append_inj' whole rfl
        obtain rfl := List.singleton_inj.mp new
        exact now
      · exact earlier past v' inside
    · intro all
      refine ⟨fun past v' inside => all past v' (inside.trans (List.prefix_append _ _)), ?_⟩
      exact all _ v (List.prefix_refl _)

/-- Every refreshing packet is backed exactly when each comes after a login that is allowed, or
the last login before it, if any, has no negative type. -/
theorem backed_iff (serv : ServerConfig) (id : Int) (visits : List Visit) :
    (∀ t ∈ (serve codec serv id (.init conf) visits).turns, t.Backed) ↔
      ∀ past v, past ++ [v] <+: (serve codec serv id (.init conf) visits).turns.map Turn.visit →
        v.packet.Refreshes → LoginAllowed codec conf past ∨ 0 ≤ lastType codec past := by
  apply forall_turns_iff Turn.Backed fun past v =>
    v.packet.Refreshes → LoginAllowed codec conf past ∨ 0 ≤ lastType codec past
  intro past c v recorded
  change (v.packet.Refreshes → c.status = .login ∨ 0 ≤ c.sess.type) ↔ _
  rw [← recorded.status]
  cases statusEq : c.status with
  | login => simp
  | init => rw [recorded.type statusEq]

end Packets

/-- A login with the type `-2`, which the port does not allow, and then a keepalive. -/
def refusedThenKeepalive : List Visit :=
  [⟨sampleEnv 25, packetOf loginReq (loginBytes [117] (-2)) (by decide +kernel)⟩,
    ⟨sampleEnv 12, packetOf keepaliveReq [] small_nil⟩]

/-- The connection after the refused login and the keepalive. -/
def refusedServed : Served :=
  serve gimCodec.toCodec ⟨1, 1⟩ 5 (.init samplePort) refusedThenKeepalive

/-- The login is refused, the keepalive writes a session, and the destructor leaves it
in the cache. -/
theorem refused_login_writes_session :
    ¬(∀ t ∈ refusedServed.turns, t.WritesAuthorised gimCodec.toCodec) ∧
      ¬NothingLeft refusedServed.turns
        (cachesDestroyed (cachesAfter [fun _ _ => none] refusedServed.turns)
          refusedServed.last) := by
  have writesOne : ∃ t, refusedServed.turns[1]? = some t ∧ t.before.status = .init ∧
      t.visit.packet.cmd = keepaliveReq ∧
      writes t.handled.effects = [⟨[117], -2, 1700000000, [], 1, [], []⟩] :=
    ⟨_, rfl, by decide +kernel, by decide +kernel, by decide +kernel⟩
  obtain ⟨t, found, atStart, isKeepalive, written⟩ := writesOne
  have member : t ∈ refusedServed.turns := List.mem_of_getElem? found
  constructor
  · intro authorised
    rcases authorised t member (by simp [written]) with loggedIn | accepts
    · exact absurd (atStart.symm.trans loggedIn) (by decide)
    · exact absurd (isKeepalive.symm.trans accepts.1) (by decide)
  · intro nothingLeft
    have left : ∃ cache, (cachesDestroyed (cachesAfter [fun _ _ => none] refusedServed.turns)
        refusedServed.last)[0]? = some cache ∧
        cache (sessKey [117]) [] = some ⟨[117], -2, 1700000000, [], 1, [], []⟩ :=
      ⟨_, rfl, by decide +kernel⟩
    obtain ⟨cache, answering, entry⟩ := left
    have gone := nothingLeft t member ⟨[117], -2, 1700000000, [], 1, [], []⟩ (by simp [written])
      cache (List.mem_of_getElem? answering)
    exact absurd (gone.symm.trans entry) (by decide)

/-! ## Relaying pushes -/

/-- A push is relayed by a connection that has logged in with a type that is not
negative and is allowed at its port. -/
def Turn.RelaysAuthorised (t : Turn) : Prop :=
  ∀ l op, (l, op) ∈ queued t.handled.effects → op.cmd = pushReq →
    t.before.status = .login ∧ 0 ≤ t.before.sess.type ∧
      t.before.checkType t.before.sess.type = 0

/-- The packet is a push that names a connection of this server. -/
def Visit.Routed (codec : Codec) (serv : ServerConfig) (v : Visit) : Prop :=
  v.packet.cmd = pushReq ∧ ∃ svreq route, codec.parsePushRequest v.packet.body = some svreq ∧
    getConFromSessid serv v.env.beyond svreq.toSessid = some (.ok route)

/-- A push is relayed with authority when it names no connection, or the connection that it
arrives at is logged in or has a negative type. -/
theorem relaysAuthorised_turn_iff {codec : Codec} {serv : ServerConfig} {id : Int} {c : CliCon}
    {v : Visit} (checked : c.TypeChecked) :
    (turn codec serv id c v).RelaysAuthorised ↔
      (v.Routed codec serv → c.status = .login ∨ c.sess.type < 0) := by
  have visited := turn_visited codec serv id c v
  constructor
  · rintro authorised ⟨isPush, svreq, route, parsed, routed⟩
    by_cases negative : c.sess.type < 0
    · exact Or.inr negative
    · obtain ⟨isQueued, cmdEq⟩ := visited.mem_ops_iff.mpr
        ⟨isPush, Int.not_lt.mp negative, svreq, route, parsed, routed, rfl, rfl⟩
      exact Or.inl (authorised _ _ isQueued cmdEq).1
  · intro guarded l op isQueued cmdEq
    obtain ⟨isPush, nonneg, svreq, route, parsed, routed, -⟩ :=
      visited.mem_ops_iff.mp ⟨isQueued, cmdEq⟩
    rcases guarded ⟨isPush, svreq, route, parsed, routed⟩ with loggedIn | negative
    · exact ⟨loggedIn, nonneg, checked loggedIn⟩
    · exact absurd nonneg (Int.not_le.mpr negative)

/-- Take any sequence of packets of a connection.  Every push it relays is relayed after
an accepted login with a type that is not negative, exactly when every push that names a
connection of the server comes after a login with a type that the port allows, or the last
login before it has a negative type. -/
theorem pushes_authorised_iff (codec : Codec) (serv : ServerConfig) (id : Int) (conf : CliConfig)
    (visits : List Visit) :
    (∀ t ∈ (serve codec serv id (.init conf) visits).turns, t.RelaysAuthorised) ↔
      ∀ past v, past ++ [v] <+: (serve codec serv id (.init conf) visits).turns.map Turn.visit →
        v.Routed codec serv → LoginAllowed codec conf past ∨ lastType codec past < 0 := by
  have checked : ∀ t ∈ (serve codec serv id (.init conf) visits).turns, t.before.TypeChecked := by
    refine (serve_invariant codec serv id (fun past c => c.TypeChecked ∧
      ∀ t ∈ past, t.before.TypeChecked) ⟨CliCon.typeChecked_init conf, ?_⟩ ?_ visits).2
    · exact fun t member => absurd member List.not_mem_nil
    · rintro past c v ⟨checked, earlier⟩
      refine ⟨(turn_visited codec serv id c v).typeChecked checked, ?_⟩
      rw [List.forall_mem_append, List.forall_mem_singleton]
      exact ⟨earlier, checked⟩
  have turnIff : ∀ t ∈ (serve codec serv id (.init conf) visits).turns, (t.RelaysAuthorised ↔
      (t.visit.Routed codec serv → t.before.status = .login ∨ t.before.sess.type < 0)) := by
    intro t member
    rw [mem_turns codec serv id member]
    exact relaysAuthorised_turn_iff (checked t member)
  rw [forall₂_congr turnIff]
  apply forall_turns_iff (fun t => t.visit.Routed codec serv →
    t.before.status = .login ∨ t.before.sess.type < 0) fun past v =>
      v.Routed codec serv → LoginAllowed codec conf past ∨ lastType codec past < 0
  intro past c v recorded
  change (v.Routed codec serv → c.status = .login ∨ c.sess.type < 0) ↔ _
  rw [← recorded.status]
  cases statusEq : c.status with
  | login => simp
  | init => rw [recorded.type statusEq]

/-- A push to the connection 5 of the server. -/
def pushFirst : List Visit :=
  [⟨sampleEnv 0, packetOf pushReq (pushBytes (decorationName 1 5 [117]) [49] 0) (by decide +kernel)⟩]

/-- A connection relays a push before any login. -/
theorem push_without_login :
    ¬∀ t ∈ (serve gimCodec.toCodec ⟨1, 1⟩ 7 (.init samplePort) pushFirst).turns,
      t.RelaysAuthorised := by
  have relays : ((serve gimCodec.toCodec ⟨1, 1⟩ 7 (.init samplePort) pushFirst).turns.any fun t =>
      t.before.status = .init ∧ (queued t.handled.effects).any fun p => p.2.cmd = pushReq) =
        true := by
    decide +kernel
  rcases List.any_eq_true.mp relays with ⟨t, member, both⟩
  obtain ⟨atStart, queues⟩ := of_decide_eq_true both
  rcases List.any_eq_true.mp queues with ⟨⟨l, op⟩, isQueued, isPush⟩
  intro authorised
  have loggedIn := authorised t member l op isQueued (of_decide_eq_true isPush)
  exact absurd (atStart.symm.trans loggedIn.1) (by decide)

end GPush.ConnectServer
