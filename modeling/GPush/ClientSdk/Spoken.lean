import GPush.ClientSdk.Accounted

/-!
# The events of a connection

A user is to see a login that fails, or one that is accepted, its pushes and its end.  The
status of a connection says how far its events are, as long as the packets and the end come
in the order of the protocol.
-/

namespace GPush.ClientSdk

open GPush.ConnectServer

/-! ## The grammar -/

/-- The events published. -/
def published (acts : List Act) : List Published :=
  acts.filterMap fun
    | .publish event => some event
    | _ => none

/-- A push. -/
def Published.IsPush : Published → Prop
  | .push _ _ _ => True
  | _ => False

/-- The beginning of `LOGIN_FAIL`, or of `LOGIN_OK PUSH* LOGOUT`. -/
def Legal (events : List Published) : Prop :=
  (∃ cid code, events <+: [.loginFail cid code]) ∨
    ∃ cid pushes code, (∀ event ∈ pushes, event.IsPush) ∧
      events <+: .loginOk cid :: pushes ++ [.logout cid code]

/-- The events of a connection with a status. -/
def Phase (cid : Bytes) : LoginStatus → List Published → Prop
  | .doLogin, events => events = []
  | .login, events => ∃ pushes, (∀ event ∈ pushes, event.IsPush) ∧
      events = .loginOk cid :: pushes
  | .loginFail, events => ∃ code, events = [.loginFail cid code]
  | .disconnect, events => ∃ pushes code, (∀ event ∈ pushes, event.IsPush) ∧
      events = .loginOk cid :: pushes ++ [.logout cid code]

theorem legal_of_phase {cid : Bytes} {status : LoginStatus} {events : List Published}
    (phase : Phase cid status events) : Legal events := by
  cases status with
  | doLogin =>
      left
      rw [phase]
      exact ⟨cid, 0, List.nil_prefix⟩
  | login =>
      right
      rcases phase with ⟨pushes, arePushes, rfl⟩
      exact ⟨cid, pushes, 0, arePushes, List.prefix_append _ _⟩
  | loginFail =>
      left
      rcases phase with ⟨code, rfl⟩
      exact ⟨cid, code, List.prefix_refl _⟩
  | disconnect =>
      right
      rcases phase with ⟨pushes, code, arePushes, rfl⟩
      exact ⟨cid, pushes, code, arePushes, List.prefix_refl _⟩

theorem published_append (first second : List Act) :
    published (first ++ second) = published first ++ published second :=
  List.filterMap_append

theorem published_publish (net : Net) (event : Published) :
    published (publish net event) = [event] := by
  have calls : published (net.reaction.map fun c => .asynAddOp (.call c)) = [] := by
    simp [published, List.filterMap_map]
  rw [publish, published, List.filterMap_cons]
  exact congrArg (event :: ·) calls

/-- What is published when the socket is closed with another status. -/
theorem published_shut (status : LoginStatus) (net : Net) (event : Published) (cid : Bytes) :
    published (.enter status :: publish net event ++ [.asynAddOp (.delConn cid)]) = [event] := by
  rw [published_append, ← List.singleton_append, published_append, published_publish]
  rfl

/-! ## What a connection keeps -/

/-- The timer of a status: a login waits for its answer, and an accepted one is kept alive. -/
def timerOf : LoginStatus → TimerOp
  | .doLogin => .login
  | .loginFail => .login
  | .login => .keepalive
  | .disconnect => .keepalive

/-- The events are those of the status.  A login has an address and at most its timer, and
its end has closed the socket. -/
structure Spoken (c : CliConn) (past : List Act) : Prop where
  phase : Phase c.cid c.loginStatus (published past)
  closed : c.loginStatus = .loginFail ∨ c.loginStatus = .disconnect → c.fd = false
  address : c.svrlist.length ≤ 1
  listed : c.loginStatus = .doLogin → c.svrlist ≠ []
  fires : ∀ timer ∈ c.timers, timer.2 = timerOf c.loginStatus
  single : c.loginStatus = .doLogin → c.timers.length ≤ 1

/-- The connection is logged in, or was. -/
def CliConn.Accepted (c : CliConn) : Prop := c.loginStatus = .login ∨ c.loginStatus = .disconnect

instance (c : CliConn) : Decidable c.Accepted := inferInstanceAs (Decidable (_ ∨ _))

theorem accepted_iff (c : CliConn) : c.Accepted ↔ timerOf c.loginStatus = .keepalive := by
  rw [CliConn.Accepted]
  cases c.loginStatus <;> simp [timerOf]

theorem waits_iff (c : CliConn) :
    c.loginStatus = .doLogin ∨ c.loginStatus = .loginFail ↔ timerOf c.loginStatus = .login := by
  cases c.loginStatus <;> simp [timerOf]

section Spoken

variable {c : CliConn} {past : List Act} {net : Net}

/-- What publishes nothing and keeps the status, the addresses and the timers. -/
theorem Spoken.silent {c' : CliConn} {acts : List Act} (spoken : Spoken c past)
    (quiet : published acts = []) (cidEq : c'.cid = c.cid)
    (statusEq : c'.loginStatus = c.loginStatus) (fdEq : c.fd = false → c'.fd = false)
    (svrlistEq : c'.svrlist = c.svrlist)
    (fires : ∀ timer ∈ c'.timers, timer.2 = timerOf c.loginStatus)
    (single : c.loginStatus = .doLogin → c'.timers.length ≤ 1) : Spoken c' (past ++ acts) := by
  constructor
  · rw [cidEq, statusEq, published_append, quiet, List.append_nil]
    exact spoken.phase
  · rw [statusEq]
    exact fun ended => fdEq (spoken.closed ended)
  · rw [svrlistEq]
    exact spoken.address
  · rw [statusEq, svrlistEq]
    exact spoken.listed
  · rw [statusEq]
    exact fires
  · rw [statusEq]
    exact single

/-- A call leaves the connection in order, with the timers of its status. -/
structure Speaks (c : CliConn) (past : List Act) (out : Out) : Prop where
  spoken : Spoken out.con (past ++ out.acts)
  timers : timerOf out.con.loginStatus = timerOf c.loginStatus

theorem Speaks.andThen {out : Out} {next : CliConn → Out} (speaks : Speaks c past out)
    (later : Speaks out.con (past ++ out.acts) (next out.con)) :
    Speaks c past (out.andThen next) := by
  constructor
  · have spoken := later.spoken
    rw [List.append_assoc] at spoken
    exact spoken
  · exact later.timers.trans speaks.timers

/-- The first event is that the login has failed. -/
theorem onLoginFail_first (other : LoginStatus.loginFail ≠ c.loginStatus)
    (quiet : published past = []) (address : c.svrlist.length ≤ 1)
    (fires : ∀ timer ∈ c.timers, timer.2 = .login) (net : Net) (code : Int) :
    Spoken (c.onLoginFail net code).con (past ++ (c.onLoginFail net code).acts) ∧
      (c.onLoginFail net code).con.loginStatus = .loginFail := by
  have eventEq : { c.closefd with
      loginStatus := .loginFail, loginStatusCode := code }.statusEvent =
        some (.loginFail c.cid code) := rfl
  rw [CliConn.onLoginFail, shut_of_other other eventEq]
  refine ⟨⟨⟨code, ?_⟩, fun _ => rfl, address, by simp, fires, by simp⟩, rfl⟩
  rw [published_append, quiet, published_shut]
  rfl

/-- A login that fails. -/
theorem Spoken.onLoginFail (spoken : Spoken c past) (waits : timerOf c.loginStatus = .login)
    (net : Net) (code : Int) : Speaks c past (c.onLoginFail net code) := by
  by_cases same : LoginStatus.loginFail = c.loginStatus
  · rw [CliConn.onLoginFail, shut_of_same same]
    exact ⟨spoken.silent rfl rfl rfl (fun _ => rfl) rfl spoken.fires spoken.single, rfl⟩
  · have doLogin : c.loginStatus = .doLogin :=
      ((waits_iff c).mpr waits).resolve_right (Ne.symm same)
    have phase := spoken.phase
    rw [doLogin] at phase
    have fires := spoken.fires
    rw [waits] at fires
    rcases onLoginFail_first same phase spoken.address fires net code with ⟨spoken', statusEq⟩
    exact ⟨spoken', (congrArg timerOf statusEq).trans waits.symm⟩

/-- The end of a login that was accepted. -/
theorem Spoken.onDisconnect (spoken : Spoken c past) (accepted : c.Accepted) (net : Net)
    (code : Int) : Speaks c past (c.onDisconnect net code) := by
  have keptAlive := (accepted_iff c).mp accepted
  rw [CliConn.onDisconnect]
  by_cases same : LoginStatus.disconnect = c.loginStatus
  · rw [shut_of_same same]
    exact ⟨spoken.silent rfl rfl rfl (fun _ => rfl) rfl spoken.fires spoken.single, rfl⟩
  · have login : c.loginStatus = .login := accepted.resolve_right (Ne.symm same)
    have phase := spoken.phase
    rw [login] at phase
    rcases phase with ⟨pushes, arePushes, eventsEq⟩
    have eventEq : { c.closefd with
        loginStatus := .disconnect, loginStatusCode := code }.statusEvent =
          some (.logout c.cid code) := rfl
    rw [shut_of_other same eventEq]
    refine ⟨⟨⟨pushes, code, arePushes, ?_⟩, fun _ => rfl, spoken.address, by simp, ?_, by simp⟩,
      keptAlive.symm⟩
    · rw [published_append, eventsEq, published_shut]
      rfl
    · have fires := spoken.fires
      rw [keptAlive] at fires
      exact fires

/-- A packet is sent, or the socket is closed. -/
theorem Spoken.sendPacket (spoken : Spoken c past) (net : Net) (cmd : Int) (body : Bytes) :
    Speaks c past (c.sendPacket net cmd body) ∧
      (c.sendPacket net cmd body).con.loginStatus = c.loginStatus := by
  rw [CliConn.sendPacket, CliConn.send]
  split_ifs
  · exact ⟨⟨spoken.silent rfl rfl rfl id rfl spoken.fires spoken.single, rfl⟩, rfl⟩
  · exact ⟨⟨spoken.silent rfl rfl rfl (fun _ => rfl) rfl spoken.fires spoken.single, rfl⟩, rfl⟩
  · exact ⟨⟨spoken.silent rfl rfl rfl id rfl spoken.fires spoken.single, rfl⟩, rfl⟩

theorem Spoken.addKeepaliveTimer (spoken : Spoken c past) (accepted : c.Accepted) (net : Net) :
    Spoken (c.addKeepaliveTimer net) past := by
  have keptAlive := (accepted_iff c).mp accepted
  refine ⟨spoken.phase, spoken.closed, spoken.address, spoken.listed, ?_, ?_⟩
  · intro timer member
    rcases mem_insertTimer member with rfl | member
    · exact keptAlive.symm
    · exact spoken.fires timer member
  · intro waiting
    have waits := (waits_iff c).mp (Or.inl waiting)
    exact absurd (waits.symm.trans keptAlive) (by decide)

/-- A timer of the status. -/
theorem Spoken.onTimeout (spoken : Spoken c past) (net : Net) {op : TimerOp}
    (fires : op = timerOf c.loginStatus) : Speaks c past (c.onTimeout net op) := by
  cases op with
  | login => exact spoken.onLoginFail fires.symm net timeoutError
  | keepalive =>
      have accepted := (accepted_iff c).mpr fires.symm
      rw [CliConn.onTimeout, CliConn.keepalive]
      split_ifs with late
      · exact spoken.onDisconnect accepted net timeoutError
      · rcases (spoken.addKeepaliveTimer accepted net).sendPacket net keepaliveReq [] with
          ⟨⟨spoken', timersEq⟩, -⟩
        exact ⟨spoken', timersEq⟩

theorem Spoken.runTimers (nets : Nat → Net) (timers : List (Int × TimerOp)) (n : Nat)
    (spoken : Spoken c past) (fire : ∀ timer ∈ timers, timer.2 = timerOf c.loginStatus) :
    Speaks c past (CliConn.runTimers nets n c timers) := by
  induction timers generalizing n c past with
  | nil =>
      refine ⟨?_, rfl⟩
      rw [CliConn.runTimers, List.append_nil]
      exact spoken
  | cons timer timers ih =>
      have first := spoken.onTimeout (nets n) (fire timer List.mem_cons_self)
      apply first.andThen
      apply ih (n + 1) first.spoken
      intro later member
      rw [first.timers]
      exact fire later (List.mem_cons_of_mem _ member)

theorem Spoken.processTimers (spoken : Spoken c past) (now : Int) (nets : Nat → Net) :
    Speaks c past (c.processTimers now nets) := by
  have popped : Spoken { c with timers := c.timers.dropWhile fun timer => timer.1 ≤ now } past := by
    refine ⟨spoken.phase, spoken.closed, spoken.address, spoken.listed, ?_, ?_⟩
    · exact fun timer member => spoken.fires timer ((List.dropWhile_sublist _).subset member)
    · intro waiting
      exact Nat.le_trans (List.dropWhile_sublist _).length_le (spoken.single waiting)
  have ran := popped.runTimers nets (c.timers.takeWhile fun timer => timer.1 ≤ now) 0
    fun timer member => spoken.fires timer ((List.takeWhile_sublist _).subset member)
  exact ⟨ran.spoken, ran.timers⟩

/-! ## Logging in -/

variable {codec : PeerCodec}

theorem sendPacket_con (c : CliConn) (net : Net) (cmd : Int) (body : Bytes) :
    (c.sendPacket net cmd body).con = c ∨ (c.sendPacket net cmd body).con = c.closefd := by
  rw [CliConn.sendPacket, CliConn.send]
  split_ifs
  · exact Or.inl rfl
  · exact Or.inr rfl
  · exact Or.inl rfl

variable (codec) in
/-- A connection that has been made waits for the answer to its login, or has failed. -/
theorem connectAndLogin_init (net : Net) (op : LoginOp) :
    Spoken ((CliConn.init net op).connectAndLogin codec net).con
        ((CliConn.init net op).connectAndLogin codec net).acts ∧
      ((CliConn.init net op).connectAndLogin codec net).con.timers = [] ∧
      (((CliConn.init net op).connectAndLogin codec net).ret = 0 →
        ((CliConn.init net op).connectAndLogin codec net).con.loginStatus = .doLogin) := by
  cases connected : net.connects 0 with
  | true =>
      let opened : CliConn := { CliConn.init net op with
        fd := true, loginStatus := .doLogin, loginTime := net.ms }
      let sent := opened.sendPacket net loginReq
        (codec.serializeLoginRequest ⟨op.cid, -1, some op.cliver⟩)
      have outEq : (CliConn.init net op).connectAndLogin codec net =
          ⟨if 0 ≤ sent.ret then 0 else -1, sent.con, .enter .doLogin :: sent.acts⟩ := by
        have connects : (CliConn.init net op).connectServer net =
            ⟨0, { CliConn.init net op with fd := true }, []⟩ := by
          simp [CliConn.connectServer, CliConn.init, connectLoop, connected]
        rw [CliConn.connectAndLogin, if_pos (by simp [CliConn.init]), connects]
        rfl
      have waiting : Spoken opened [.enter .doLogin] :=
        ⟨rfl, by simp [opened], by simp [opened, CliConn.init], by simp [opened, CliConn.init],
          by simp [opened, CliConn.init], by simp [opened, CliConn.init]⟩
      rcases waiting.sendPacket net loginReq
        (codec.serializeLoginRequest ⟨op.cid, -1, some op.cliver⟩) with ⟨⟨spoken, -⟩, statusEq⟩
      rw [outEq]
      refine ⟨spoken, ?_, fun _ => statusEq⟩
      rcases sendPacket_con opened net loginReq
        (codec.serializeLoginRequest ⟨op.cid, -1, some op.cliver⟩) with conEq | conEq
      · exact congrArg CliConn.timers conEq
      · exact congrArg CliConn.timers conEq
  | false =>
      let refused : CliConn := { CliConn.init net op with svrlist := [] }
      have outEq : (CliConn.init net op).connectAndLogin codec net =
          { refused.onLoginFail net networkError with ret := -1 } := by
        simp [CliConn.connectAndLogin, CliConn.connectServer, CliConn.init, connectLoop, connected,
          refused]
      have other : LoginStatus.loginFail ≠ refused.loginStatus := by simp [refused, CliConn.init]
      have fires : ∀ timer ∈ refused.timers, timer.2 = .login := by simp [refused, CliConn.init]
      have quiet : published [] = [] := rfl
      rcases onLoginFail_first other quiet (Nat.zero_le 1) fires net networkError with ⟨spoken, -⟩
      have eventEq : { refused.closefd with
          loginStatus := .loginFail, loginStatusCode := networkError }.statusEvent =
            some (.loginFail refused.cid networkError) := rfl
      rw [outEq]
      refine ⟨spoken, ?_, fun zero => absurd zero (by simp)⟩
      rw [CliConn.onLoginFail, shut_of_other other eventEq]
      rfl

/-- The timer of the login. -/
theorem Spoken.addLoginTimer (spoken : Spoken c past) (doLogin : c.loginStatus = .doLogin)
    (none : c.timers = []) (net : Net) (seconds : Int) :
    Spoken (c.addTimer net .login seconds) past := by
  refine ⟨spoken.phase, spoken.closed, spoken.address, spoken.listed, ?_, ?_⟩
  · intro timer member
    rw [CliConn.addTimer, none] at member
    obtain rfl := List.mem_singleton.mp member
    change _ = timerOf c.loginStatus
    rw [doLogin]
    rfl
  · intro _
    rw [CliConn.addTimer, none]
    exact Nat.le_refl 1

/-! ## Packets -/

theorem Spoken.popTimer (spoken : Spoken c past) : Spoken (c.popTimer .login) past := by
  have sublist : (c.popTimer .login).timers.Sublist c.timers := by
    have reversed := (List.eraseP_sublist (p := fun timer => timer.2 = TimerOp.login)
      (l := c.timers.reverse)).reverse
    rw [List.reverse_reverse] at reversed
    exact reversed
  refine ⟨spoken.phase, spoken.closed, spoken.address, spoken.listed, ?_, ?_⟩
  · exact fun timer member => spoken.fires timer (sublist.subset member)
  · exact fun waiting => Nat.le_trans sublist.length_le (spoken.single waiting)

/-- The timer of the login is the only one. -/
theorem Spoken.popTimer_timers (spoken : Spoken c past) (doLogin : c.loginStatus = .doLogin) :
    (c.popTimer .login).timers = [] := by
  have single := spoken.single doLogin
  have fires := spoken.fires
  rw [CliConn.popTimer]
  rcases timersEq : c.timers with _ | ⟨timer, _ | ⟨_, _⟩⟩
  · rfl
  · have isLogin : timer.2 = .login := by
      rw [fires timer (timersEq ▸ List.mem_singleton_self _), doLogin]
      rfl
    simp [isLogin]
  · rw [timersEq] at single
    simp at single

/-- A login that is accepted, or has been. -/
theorem Spoken.enterLogin (spoken : Spoken c past)
    (awaited : c.loginStatus = .doLogin ∨ c.loginStatus = .login)
    (none : c.loginStatus = .doLogin → c.timers = []) (net : Net) (code : Int) :
    Spoken (c.setStatus net .login code true).con
        (past ++ (c.setStatus net .login code true).acts) ∧
      (c.setStatus net .login code true).con.loginStatus = .login := by
  rcases awaited with doLogin | login
  · have phase := spoken.phase
    rw [doLogin] at phase
    have outEq : c.setStatus net .login code true =
        ⟨0, { c with loginStatus := .login, loginStatusCode := code },
          .enter .login :: publish net (.loginOk c.cid)⟩ := by
      simp [CliConn.setStatus, doLogin, CliConn.statusEvent]
    have eventsEq : published (.enter .login :: publish net (.loginOk c.cid)) = [.loginOk c.cid] :=
      published_publish net (.loginOk c.cid)
    rw [outEq]
    refine ⟨⟨⟨[], by simp, ?_⟩, by simp, spoken.address, by simp, ?_, by simp⟩, rfl⟩
    · rw [published_append, phase, eventsEq]
      rfl
    · intro timer member
      rw [none doLogin] at member
      cases member
  · have outEq : c.setStatus net .login code true = ⟨0, c, []⟩ := by
      simp [CliConn.setStatus, login]
    rw [outEq, List.append_nil]
    exact ⟨spoken, login⟩

theorem Spoken.push (spoken : Spoken c past) (login : c.loginStatus = .login) (net : Net)
    (sn payload : Bytes) : Spoken c (past ++ publish net (.push c.cid sn payload)) := by
  refine ⟨?_, spoken.closed, spoken.address, spoken.listed, spoken.fires, spoken.single⟩
  have phase := spoken.phase
  rw [login] at phase ⊢
  rcases phase with ⟨pushes, arePushes, eventsEq⟩
  refine ⟨pushes ++ [.push c.cid sn payload], ?_, ?_⟩
  · intro event member
    rcases List.mem_append.mp member with earlier | new
    · exact arePushes event earlier
    · rw [List.mem_singleton.mp new]
      trivial
  · rw [published_append, eventsEq, published_publish]
    rfl

variable (codec) in
/-- The status behind a packet that comes in the order of the protocol: the answer to a login
while that waits for it, and what follows a login that is accepted. -/
def inOrder (status : LoginStatus) (r : Received) : Option LoginStatus :=
  if r.cmd = loginResp then
    match codec.parseLoginResponse r.body with
    | none => some status
    | some lgresp =>
        if 0 ≤ lgresp.status then
          if status = .doLogin ∨ status = .login then some .login else none
        else
          if status = .doLogin then some .loginFail else none
  else if r.cmd = pushReq ∧ (codec.parsePushRequest r.body).isSome then
    if status = .login then some .login else none
  else
    some status

theorem Spoken.handleLoginResponse {resp : Bytes} {status : LoginStatus} {cmd : Int}
    (spoken : Spoken c past) (isAnswer : cmd = loginResp)
    (order : inOrder codec c.loginStatus ⟨cmd, resp, net⟩ = some status) :
    ∃ out, c.handleLoginResponse codec net resp = some out ∧
      Spoken out.con (past ++ out.acts) ∧ out.con.loginStatus = status := by
  have popped := spoken.popTimer
  have poppedTimers := spoken.popTimer_timers
  have statusEq : (c.popTimer .login).loginStatus = c.loginStatus := rfl
  rw [inOrder, if_pos isAnswer] at order
  rw [CliConn.handleLoginResponse]
  rw [← statusEq] at order poppedTimers
  generalize c.popTimer .login = c' at popped poppedTimers order
  cases parsed : codec.parseLoginResponse resp with
  | none =>
      simp only [parsed] at order
      refine ⟨_, rfl, ?_, Option.some.inj order⟩
      rw [List.append_nil]
      exact popped
  | some lgresp =>
      simp only [parsed] at order ⊢
      split_ifs at order with accepted awaited doLogin
      · rw [if_pos accepted]
        have named : Spoken { c' with sessid := lgresp.sessid } past :=
          ⟨popped.phase, popped.closed, popped.address, popped.listed, popped.fires, popped.single⟩
        rcases named.enterLogin awaited poppedTimers net lgresp.status with ⟨entered, login⟩
        refine ⟨_, rfl, ?_, login.trans (Option.some.inj order)⟩
        exact entered.addKeepaliveTimer (Or.inl login) net
      · rw [if_neg accepted]
        have phase := popped.phase
        rw [doLogin] at phase
        have other : LoginStatus.loginFail ≠ c'.loginStatus := by
          rw [doLogin]
          decide
        rcases listed : c'.svrlist with _ | ⟨item, _ | ⟨_, _⟩⟩
        · exact absurd listed (popped.listed doLogin)
        · have fires : ∀ timer ∈ c'.timers, timer.2 = .login := by
            simp [poppedTimers doLogin]
          rcases onLoginFail_first (c := { c' with svrlist := [] }) other phase (Nat.zero_le 1)
            fires net lgresp.status with ⟨spoken', failed⟩
          exact ⟨_, rfl, spoken', failed.trans (Option.some.inj order)⟩
        · have address := popped.address
          rw [listed] at address
          simp at address

theorem Spoken.handleServiceRequest (net : Net) {reqbody : Bytes} (spoken : Spoken c past)
    (order : (codec.parsePushRequest reqbody).isSome → c.loginStatus = .login) :
    Spoken (c.handleServiceRequest codec net reqbody).con
        (past ++ (c.handleServiceRequest codec net reqbody).acts) ∧
      (c.handleServiceRequest codec net reqbody).con.loginStatus = c.loginStatus := by
  rw [CliConn.handleServiceRequest]
  cases parsed : codec.parsePushRequest reqbody with
  | none =>
      refine ⟨?_, rfl⟩
      rw [List.append_nil]
      exact spoken
  | some svreq =>
      have login := order (by rw [parsed]; rfl)
      have told := spoken.push login net svreq.sn svreq.payload
      rcases told.sendPacket net pushResp (codec.serializePushResponse
        ⟨svreq.toSessid, some svreq.fromSessid, svreq.sn, 0⟩) with ⟨⟨spoken', -⟩, statusEq⟩
      rw [List.append_assoc] at spoken'
      exact ⟨spoken', statusEq⟩

theorem Spoken.handlePacket {r : Received} {status : LoginStatus} (spoken : Spoken c past)
    (order : inOrder codec c.loginStatus r = some status) :
    ∃ out, c.handlePacket codec r = some out ∧ Spoken out.con (past ++ out.acts) ∧
      out.con.loginStatus = status := by
  rcases r with ⟨cmd, body, net⟩
  rw [CliConn.handlePacket]
  by_cases isAnswer : cmd = loginResp
  · rw [if_pos isAnswer]
    exact spoken.handleLoginResponse isAnswer order
  · rw [if_neg isAnswer]
    rw [inOrder, if_neg isAnswer] at order
    by_cases isPush : cmd = pushReq
    · rw [if_pos isPush]
      have keeps : c.loginStatus = status ∧
          ((codec.parsePushRequest body).isSome → c.loginStatus = .login) := by
        split_ifs at order with whole login
        · exact ⟨login.trans (Option.some.inj order), fun _ => login⟩
        · exact ⟨Option.some.inj order, fun parsed => absurd ⟨isPush, parsed⟩ whole⟩
      rcases spoken.handleServiceRequest net keeps.2 with ⟨spoken', statusEq⟩
      exact ⟨_, rfl, spoken', statusEq.trans keeps.1⟩
    · rw [if_neg isPush]
      rw [if_neg fun both => isPush both.1] at order
      refine ⟨_, rfl, ?_, Option.some.inj order⟩
      rw [List.append_nil]
      exact spoken

/-- Packets in order are handled, and leave the connection in order. -/
theorem Spoken.handlePackets {packets : List Received} (spoken : Spoken c past)
    (order : (packets.foldlM (inOrder codec) c.loginStatus).isSome) :
    ∃ out, c.handlePackets codec packets = some out ∧ out.ret = 0 ∧
      Spoken out.con (past ++ out.acts) := by
  induction packets generalizing c past with
  | nil =>
      refine ⟨_, rfl, rfl, ?_⟩
      rw [List.append_nil]
      exact spoken
  | cons r rest ih =>
      rw [List.foldlM_cons] at order
      rcases Option.isSome_iff_exists.mp order with ⟨last, lastEq⟩
      rcases Option.bind_eq_some_iff.mp lastEq with ⟨status, statusEq, restEq⟩
      rcases spoken.handlePacket statusEq with ⟨first, firstEq, spoken', rfl⟩
      rcases ih spoken' (Option.isSome_of_eq_some restEq) with ⟨later, laterEq, retEq, spoken''⟩
      refine ⟨first.andThen fun _ => later, ?_, retEq, ?_⟩
      · rw [CliConn.handlePackets, firstEq, Option.bind_some, laterEq, Option.map_some]
      · rw [List.append_assoc] at spoken''
        exact spoken''

variable (codec) in
/-- What is read from a connection comes in order: packets of the protocol, or the end of a
login that was accepted. -/
def Expected (c : CliConn) (received : Option (List Received)) : Prop :=
  if c.fd = false ∨ received = none then
    c.Accepted
  else
    ((received.getD []).foldlM (inOrder codec) c.loginStatus).isSome

instance (received : Option (List Received)) : Decidable (Expected codec c received) :=
  inferInstanceAs (Decidable (if c.fd = false ∨ received = none then c.Accepted else _))

/-- What is expected is no undefined behaviour, and where it fails the login was accepted. -/
theorem Spoken.handleRead (net : Net) {received : Option (List Received)} (spoken : Spoken c past)
    (expected : Expected codec c received) :
    ∃ out, c.handleRead codec net received = some out ∧ Spoken out.con (past ++ out.acts) ∧
      (out.ret < 0 → out.con.Accepted) := by
  rw [Expected] at expected
  rw [CliConn.handleRead]
  have active : Spoken { c with activeTime := net.ms } past :=
    ⟨spoken.phase, spoken.closed, spoken.address, spoken.listed, spoken.fires, spoken.single⟩
  by_cases closed : c.fd = false
  · rw [if_pos (Or.inl closed)] at expected
    rw [if_pos closed]
    refine ⟨_, rfl, ?_, fun _ => expected⟩
    rw [List.append_nil]
    exact spoken
  · rw [if_neg closed]
    cases received with
    | none =>
        rw [if_pos (Or.inr rfl)] at expected
        refine ⟨_, rfl, ?_, fun _ => expected⟩
        rw [List.append_nil]
        exact active
    | some packets =>
        rw [if_neg (by simp [closed])] at expected
        rcases active.handlePackets expected with ⟨out, handled, retEq, spoken'⟩
        refine ⟨out, handled, spoken', fun negative => ?_⟩
        rw [retEq] at negative
        exact absurd negative (by decide)

end Spoken

end GPush.ClientSdk
