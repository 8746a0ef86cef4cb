import GPush.ConnectServer.TypeMap

/-!
# What a refused login leaves behind

`handleLoginRequest` has three exits with a negative status.  A body that does not
parse changes nothing, and `updateSession` never fails.  A type that the port refuses
is looked at after the id, the type and the version have been recorded, and nothing
takes them back.
-/

namespace GPush.ConnectServer.CliCon

/-- The answer of a login that is refused. -/
def Refuses (codec : Codec) (reply : Reply) : Prop :=
  ∃ ret < 0, reply.ret = some ret ∧
    reply.resp = codec.serializeLoginResponse ⟨ret, reply.con.sess.sessid⟩

/-- The connection, the list of push servers and the caches are as they were. -/
structure NoTrace (c : CliCon) (reply : Reply) : Prop where
  id : reply.con.sess.id = c.sess.id
  type : reply.con.sess.type = c.sess.type
  sessid : reply.con.sess.sessid = c.sess.sessid
  version : reply.con.sess.version = c.sess.version
  kvs : reply.con.sess.kvs = c.sess.kvs
  status : reply.con.status = c.status
  typeMap : ∀ h svs, reply.effects.foldl (callTypeMap h) svs = svs
  caches : ∀ answers grp, reply.effects.foldl (callCaches answers) grp = grp

/-- A login that is new and has a type that the port refuses. -/
def TypeRefused (c : CliCon) (lgreq : LoginRequest) : Prop :=
  c.status ≠ .login ∧ c.checkType lgreq.type < 0

/-- What such a login records is what is recorded already. -/
def Records (c : CliCon) (lgreq : LoginRequest) : Prop :=
  lgreq.id = c.sess.id ∧ lgreq.type = c.sess.type ∧ lgreq.version = c.sess.version

section Exits

variable {codec : Codec} {serv : ServerConfig} {id : Int} {c : CliCon} {env : Env} {req : Bytes}

theorem refuses_exitLogin_iff {ret : Int} {effects : List Effect} :
    Refuses codec (exitLogin codec c ret effects) ↔ ret < 0 := by
  rw [exitLogin, Refuses]
  constructor
  · rintro ⟨answer, negative, retEq, -⟩
    by_cases failed : ret < 0
    · exact failed
    · rw [if_neg failed] at retEq
      exact absurd (Option.some.inj retEq ▸ negative) failed
  · intro failed
    rw [if_pos failed]
    exact ⟨ret, failed, rfl, rfl⟩

/-- An exit with a negative status and no call made. -/
theorem noTrace_exitLogin_iff {recorded : CliCon} {ret : Int} (failed : ret < 0)
    (statusEq : recorded.status = c.status) (sessidEq : recorded.sess.sessid = c.sess.sessid)
    (kvsEq : recorded.sess.kvs = c.sess.kvs) :
    NoTrace c (exitLogin codec recorded ret []) ↔
      recorded.sess.id = c.sess.id ∧ recorded.sess.type = c.sess.type ∧
        recorded.sess.version = c.sess.version := by
  have left : (exitLogin codec recorded ret []).con = recorded := by
    rw [(exitLogin_fields ret []).1, if_pos failed]
  have calls : (exitLogin codec recorded ret []).effects = [] := (exitLogin_fields ret []).2
  constructor
  · intro untouched
    rw [← left]
    exact ⟨untouched.id, untouched.type, untouched.version⟩
  · rintro ⟨idEq, typeEq, versionEq⟩
    rw [← left] at idEq typeEq versionEq sessidEq kvsEq statusEq
    constructor
    · exact idEq
    · exact typeEq
    · exact sessidEq
    · exact versionEq
    · exact kvsEq
    · exact statusEq
    · intro h svs
      rw [calls, List.foldl_nil]
    · intro answers grp
      rw [calls, List.foldl_nil]

/-- What a login does, by the exit it takes. -/
theorem handleLoginRequest_outcomes (codec : Codec) (serv : ServerConfig) (id : Int) (c : CliCon)
    (env : Env) (req : Bytes) :
    codec.parseLoginRequest req = none ∧
        c.handleLoginRequest codec serv id env req = exitLogin codec c inputFormatError [] ∨
      ∃ lgreq, codec.parseLoginRequest req = some lgreq ∧
        (c.TypeRefused lgreq ∧ c.handleLoginRequest codec serv id env req =
            exitLogin codec (c.recordLogin serv env.now lgreq) invalidType [] ∨
          ¬c.TypeRefused lgreq ∧
            ∃ updated effects, c.handleLoginRequest codec serv id env req =
              exitLogin codec updated 0 effects) := by
  rw [handleLoginRequest]
  cases codec.parseLoginRequest req with
  | none => exact Or.inl ⟨rfl, rfl⟩
  | some lgreq =>
      refine Or.inr ⟨lgreq, rfl, ?_⟩
      simp only
      by_cases loggedIn : c.status = .login
      · rw [if_pos loggedIn]
        exact Or.inr ⟨fun typeRefused => typeRefused.1 loggedIn, c, [], rfl⟩
      · rw [if_neg loggedIn]
        -- the type is checked against the port, which a login leaves alone
        by_cases refused : (c.recordLogin serv env.now lgreq).checkType lgreq.type < 0
        · rw [if_pos refused]
          exact Or.inl ⟨⟨loggedIn, refused⟩, rfl⟩
        · have never := (updateSession_spec
            ((c.recordLogin serv env.now lgreq).recordSession serv id lgreq) env.now).1
          rw [if_neg refused, never, if_neg (Int.lt_irrefl 0)]
          exact Or.inr ⟨fun typeRefused => refused typeRefused.2, _, _, rfl⟩

/-- A refused login leaves the status, the session id, the key-values, the list of push
servers and the caches alone, whatever it records. -/
theorem refused_calls_nothing
    (refused : Refuses codec (c.handleLoginRequest codec serv id env req)) :
    (c.handleLoginRequest codec serv id env req).con.status = c.status ∧
      (c.handleLoginRequest codec serv id env req).con.sess.sessid = c.sess.sessid ∧
      (c.handleLoginRequest codec serv id env req).con.sess.kvs = c.sess.kvs ∧
      (c.handleLoginRequest codec serv id env req).effects = [] := by
  rcases handleLoginRequest_outcomes codec serv id c env req with
    ⟨-, exitEq⟩ | ⟨lgreq, -, ⟨-, exitEq⟩ | ⟨-, updated, effects, exitEq⟩⟩
  · rw [exitEq]
    exact ⟨rfl, rfl, rfl, rfl⟩
  · rw [exitEq]
    exact ⟨rfl, rfl, rfl, rfl⟩
  · rw [exitEq, refuses_exitLogin_iff] at refused
    exact absurd refused (Int.lt_irrefl 0)

end Exits

/-- A login that is refused leaves no trace exactly when it is not its type that is
refused, or its id, its type and its version are those recorded before. -/
theorem refusal_noTrace_iff (codec : Codec) (serv : ServerConfig) (id : Int) (c : CliCon)
    (env : Env) (req : Bytes) :
    (Refuses codec (c.handleLoginRequest codec serv id env req) →
        NoTrace c (c.handleLoginRequest codec serv id env req)) ↔
      ∀ lgreq, codec.parseLoginRequest req = some lgreq → c.TypeRefused lgreq →
        c.Records lgreq := by
  rcases handleLoginRequest_outcomes codec serv id c env req with
    ⟨unparsed, exitEq⟩ |
      ⟨lgreq, parsed, ⟨typeRefused, exitEq⟩ | ⟨allowed, updated, effects, exitEq⟩⟩
  · rw [exitEq]
    constructor
    · intro _ lgreq parsed
      exact absurd (unparsed.symm.trans parsed) (Option.some_ne_none lgreq).symm
    · intro _ _
      exact (noTrace_exitLogin_iff (by decide) rfl rfl rfl).mpr ⟨rfl, rfl, rfl⟩
  · have traceIff : NoTrace c (c.handleLoginRequest codec serv id env req) ↔ c.Records lgreq := by
      rw [exitEq]
      exact noTrace_exitLogin_iff (by decide) rfl rfl rfl
    rw [traceIff, exitEq, refuses_exitLogin_iff]
    constructor
    · intro leaves other parsedOther _
      obtain rfl := Option.some.inj (parsed.symm.trans parsedOther)
      exact leaves (by decide)
    · intro records _
      exact records lgreq parsed typeRefused
  · rw [exitEq, refuses_exitLogin_iff]
    constructor
    · intro _ other parsedOther typeRefused
      obtain rfl := Option.some.inj (parsed.symm.trans parsedOther)
      exact absurd typeRefused allowed
    · intro _ accepted
      exact absurd accepted (Int.lt_irrefl 0)

/-- The first login of a connection has the type 200, which its port refuses. -/
def refusedLogin : Reply :=
  (init samplePort).handleLoginRequest gimCodec.toCodec ⟨1, 1⟩ 5 (sampleEnv 25)
    (loginBytes [117] 200)

/-- The login is refused, and its id and its type stay in the connection. -/
theorem refused_login_stays :
    Refuses gimCodec.toCodec refusedLogin ∧ ¬NoTrace (init samplePort) refusedLogin ∧
      refusedLogin.con.sess.id = [117] ∧ refusedLogin.con.sess.type = 200 := by
  have recorded : refusedLogin.con.sess.type = 200 := by decide +kernel
  refine ⟨⟨invalidType, by decide, by decide +kernel, by decide +kernel⟩, ?_, by decide +kernel,
    recorded⟩
  intro untouched
  exact absurd (recorded.symm.trans untouched.type) (by decide)

end GPush.ConnectServer.CliCon
