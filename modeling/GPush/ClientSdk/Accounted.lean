import GPush.ClientSdk.CliConn

/-!
# Accounting for a login

What a connection does between the beginning of a login and its end, which is an event for
the user.  While every packet can be sent, a connection without a socket, and one whose
status is that of an end, has published it.
-/

namespace GPush.ClientSdk

open GPush.ConnectServer

/-! ## Events that end a login -/

/-- The end of a login is published. -/
def Act.Ends : Act → Prop
  | .publish (.loginFail _ _) => True
  | .publish (.logout _ _) => True
  | _ => False

/-- Since a connection has entered `STATUS_DO_LOGIN`, the end has been published. -/
def Accounted : List Act → Prop
  | [] => True
  | act :: later => (act = .enter .doLogin → ∃ act ∈ later, act.Ends) ∧ Accounted later

instance decidableEnds : (act : Act) → Decidable act.Ends
  | .publish (.loginFail _ _) => isTrue trivial
  | .publish (.logout _ _) => isTrue trivial
  | .publish (.loginOk _) => isFalse not_false
  | .publish (.push _ _ _) => isFalse not_false
  | .enter _ => isFalse not_false
  | .asynAddOp _ => isFalse not_false
  | .tcpSend _ => isFalse not_false

instance decidableAccounted : (acts : List Act) → Decidable (Accounted acts)
  | [] => isTrue trivial
  | act :: later =>
      have := decidableAccounted later
      inferInstanceAs (Decidable ((act = .enter .doLogin → ∃ act ∈ later, act.Ends) ∧ _))

/-- No login is begun. -/
def Quiet (acts : List Act) : Prop := .enter .doLogin ∉ acts

theorem quiet_append {first second : List Act} (quiet : Quiet first) (quiet' : Quiet second) :
    Quiet (first ++ second) := by
  intro member
  rcases List.mem_append.mp member with early | late
  · exact quiet early
  · exact quiet' late

theorem accounted_of_quiet {acts : List Act} (quiet : Quiet acts) : Accounted acts := by
  induction acts with
  | nil => trivial
  | cons act later ih =>
      rcases not_or.mp (mt List.mem_cons.mpr quiet) with ⟨other, quiet⟩
      constructor
      · exact fun begins => absurd begins.symm other
      · exact ih quiet

/-- What does not begin a login leaves it accounted for. -/
theorem Accounted.append {past later : List Act} (accounted : Accounted past)
    (quiet : Quiet later) : Accounted (past ++ later) := by
  induction past with
  | nil => exact accounted_of_quiet quiet
  | cons act past ih =>
      constructor
      · intro begins
        rcases accounted.1 begins with ⟨finish, member, ends⟩
        exact ⟨finish, List.mem_append_left _ member, ends⟩
      · exact ih accounted.2

/-- After the end, everything before is accounted for. -/
theorem accounted_of_ends {past later : List Act} (quiet : Quiet later)
    (ends : ∃ act ∈ later, act.Ends) : Accounted (past ++ later) := by
  induction past with
  | nil => exact accounted_of_quiet quiet
  | cons act past ih =>
      constructor
      · intro _
        rcases ends with ⟨finish, member, ends⟩
        exact ⟨finish, List.mem_append_right _ member, ends⟩
      · exact ih

/-! ## What a connection keeps -/

/-- A connection that has failed, has been disconnected or has no socket is accounted
for. -/
structure Sound (c : CliConn) (past : List Act) : Prop where
  status : c.loginStatus = .loginFail ∨ c.loginStatus = .disconnect → Accounted past
  closed : c.fd = false → Accounted past

/-- A call of the connection `c` keeps its id, and leaves it sound. -/
structure Keeps (c : CliConn) (past : List Act) (out : Out) : Prop where
  cid : out.con.cid = c.cid
  sound : Sound out.con (past ++ out.acts)

section Keeps

variable {c : CliConn} {past : List Act} {net : Net}

theorem keeps_nil {c' : CliConn} {ret : Int} (cid : c'.cid = c.cid) (sound : Sound c' past) :
    Keeps c past ⟨ret, c', []⟩ := by
  constructor
  · exact cid
  · simpa using sound

/-- Calls in turn. -/
theorem Keeps.andThen {out : Out} {next : CliConn → Out} (cid : out.con.cid = c.cid)
    (later : Keeps out.con (past ++ out.acts) (next out.con)) :
    Keeps c past (out.andThen next) := by
  constructor
  · exact later.cid.trans cid
  · have sound := later.sound
    rw [List.append_assoc] at sound
    exact sound

/-- Everything accounted for is sound. -/
theorem sound_of_accounted (accounted : Accounted past) : Sound c past :=
  ⟨fun _ => accounted, fun _ => accounted⟩

theorem quiet_publish (net : Net) (event : Published) : Quiet (publish net event) := by
  intro member
  rcases List.mem_cons.mp member with isEvent | isCall
  · cases isEvent
  · rcases List.mem_map.mp isCall with ⟨call, -, other⟩
    cases other

/-- A status that ends a login has an event that says so. -/
theorem statusEvent_of_ending {status : LoginStatus}
    (ending : status = .loginFail ∨ status = .disconnect) (statusEq : c.loginStatus = status) :
    ∃ event, c.statusEvent = some event ∧ (Act.publish event).Ends := by
  rcases ending with rfl | rfl
  · exact ⟨.loginFail c.cid c.loginStatusCode, by rw [CliConn.statusEvent, statusEq], trivial⟩
  · exact ⟨.logout c.cid c.loginStatusCode, by rw [CliConn.statusEvent, statusEq], trivial⟩

/-- A status that is there already is not notified again. -/
theorem shut_of_same {status : LoginStatus} (same : status = c.loginStatus) (net : Net)
    (code : Int) : c.shut net status code = ⟨0, c.closefd, [.asynAddOp (.delConn c.cid)]⟩ := by
  simp [CliConn.shut, CliConn.setStatus, CliConn.closefd, CliConn.asynDestroy, Out.andThen, same]

/-- Another one is, before the connection asks to be destroyed. -/
theorem shut_of_other {status : LoginStatus} {code : Int} {event : Published}
    (other : status ≠ c.loginStatus) (eventEq : { c.closefd with
      loginStatus := status, loginStatusCode := code }.statusEvent = some event) (net : Net) :
    c.shut net status code = ⟨0, { c.closefd with
      loginStatus := status, loginStatusCode := code },
      .enter status :: publish net event ++ [.asynAddOp (.delConn c.cid)]⟩ := by
  have entered : status ≠ c.closefd.loginStatus := other
  rw [CliConn.shut, CliConn.setStatus, if_pos entered]
  simp only [if_true, eventEq]
  rfl

/-- Closing the socket with the end of a login accounts for it. -/
theorem shut_keeps {status : LoginStatus} {code : Int}
    (ending : status = .loginFail ∨ status = .disconnect)
    (already : c.loginStatus = status → Accounted past) :
    Keeps c past (c.shut net status code) := by
  have quietDestroy : Quiet [.asynAddOp (.delConn c.cid)] := by simp [Quiet]
  by_cases same : status = c.loginStatus
  · rw [shut_of_same same]
    constructor
    · rfl
    · exact sound_of_accounted ((already same.symm).append quietDestroy)
  · rcases statusEvent_of_ending (c := { c.closefd with
      loginStatus := status, loginStatusCode := code }) ending rfl with ⟨event, eventEq, ends⟩
    rw [shut_of_other same eventEq]
    constructor
    · rfl
    · apply sound_of_accounted
      apply accounted_of_ends
      · apply quiet_append _ quietDestroy
        intro member
        rcases List.mem_cons.mp member with isEnter | published
        · rcases ending with rfl | rfl <;> cases isEnter
        · exact quiet_publish net event published
      · exact ⟨.publish event, by simp [publish], ends⟩

theorem shut_closed (c : CliConn) (net : Net) (status : LoginStatus) (code : Int) :
    (c.shut net status code).con.fd = false := by
  simp only [CliConn.shut, CliConn.setStatus]
  split_ifs <;> rfl

theorem Sound.onLoginFail (sound : Sound c past) (net : Net) (code : Int) :
    Keeps c past (c.onLoginFail net code) :=
  shut_keeps (Or.inl rfl) fun failed => sound.status (Or.inl failed)

theorem Sound.onDisconnect (sound : Sound c past) (net : Net) (code : Int) :
    Keeps c past (c.onDisconnect net code) :=
  shut_keeps (Or.inr rfl) fun disconnected => sound.status (Or.inr disconnected)

/-- The other fields do not matter. -/
theorem Sound.congr {c' : CliConn} (sound : Sound c past)
    (statusEq : c'.loginStatus = c.loginStatus) (fdEq : c'.fd = c.fd) : Sound c' past := by
  constructor
  · intro ended
    rw [statusEq] at ended
    exact sound.status ended
  · intro closed
    rw [fdEq] at closed
    exact sound.closed closed

theorem Sound.append {later : List Act} (sound : Sound c past) (quiet : Quiet later) :
    Sound c (past ++ later) := by
  constructor
  · exact fun ended => (sound.status ended).append quiet
  · exact fun closed => (sound.closed closed).append quiet

/-- A packet that can be sent changes nothing. -/
theorem sendPacket_spec (works : 0 < net.sent) (cmd : Int) (body : Bytes) :
    (c.sendPacket net cmd body).con = c ∧ Quiet (c.sendPacket net cmd body).acts := by
  rw [CliConn.sendPacket, CliConn.send, if_neg (Int.not_le.mpr works)]
  split_ifs
  · exact ⟨rfl, List.not_mem_nil⟩
  · exact ⟨rfl, by simp [Quiet]⟩

theorem Sound.sendPacket (sound : Sound c past) (works : 0 < net.sent) (cmd : Int)
    (body : Bytes) : Keeps c past (c.sendPacket net cmd body) := by
  rcases sendPacket_spec (c := c) works cmd body with ⟨conEq, quiet⟩
  constructor
  · rw [conEq]
  · rw [conEq]
    exact sound.append quiet

theorem Sound.keepalive (sound : Sound c past) (works : 0 < net.sent) :
    Keeps c past (c.keepalive net) := by
  rw [CliConn.keepalive]
  split_ifs
  · exact sound.onDisconnect net timeoutError
  · have timed : Sound (c.addKeepaliveTimer net) past := sound.congr rfl rfl
    have sent := timed.sendPacket works keepaliveReq []
    exact ⟨sent.cid, sent.sound⟩

theorem Sound.onTimeout (sound : Sound c past) (works : 0 < net.sent) (op : TimerOp) :
    Keeps c past (c.onTimeout net op) := by
  cases op with
  | login => exact sound.onLoginFail net timeoutError
  | keepalive => exact sound.keepalive works

theorem Sound.runTimers {nets : Nat → Net} (works : ∀ n, 0 < (nets n).sent)
    (timers : List (Int × TimerOp)) (n : Nat) (sound : Sound c past) :
    Keeps c past (CliConn.runTimers nets n c timers) := by
  induction timers generalizing n c past with
  | nil => exact keeps_nil rfl sound
  | cons timer timers ih =>
      have first := sound.onTimeout (works n) timer.2
      exact Keeps.andThen first.cid (ih (n + 1) first.sound)

theorem Sound.processTimers {nets : Nat → Net} (sound : Sound c past)
    (works : ∀ n, 0 < (nets n).sent) (now : Int) :
    Keeps c past (c.processTimers now nets) := by
  have popped : Sound { c with timers := c.timers.dropWhile fun timer => timer.1 ≤ now } past :=
    sound.congr rfl rfl
  have ran := popped.runTimers works (c.timers.takeWhile fun timer => timer.1 ≤ now) 0
  exact ⟨ran.cid, ran.sound⟩

/-! ## Logging in -/

variable {codec : PeerCodec}

/-- A status that is entered without an event. -/
theorem setStatus_silent (c : CliConn) (net : Net) (status : LoginStatus) (code : Int) :
    (c.setStatus net status code false).con.loginStatus = status ∧
      (c.setStatus net status code false).con.fd = c.fd ∧
      (c.setStatus net status code false).con.cid = c.cid := by
  by_cases same : c.loginStatus = status
  · simp [CliConn.setStatus, same]
  · simp [CliConn.setStatus, Ne.symm same]

/-- A login that can be sent waits for its answer. -/
theorem login_keeps (opened : c.fd = true) (works : 0 < net.sent) :
    Keeps c past (c.login codec net) := by
  rcases setStatus_silent c net .doLogin 0 with ⟨statusEq, fdEq, cidEq⟩
  apply Keeps.andThen cidEq
  generalize (c.setStatus net .doLogin 0 false).con = c' at statusEq fdEq
  rcases sendPacket_spec (c := { c' with loginTime := net.ms }) works loginReq
    (codec.serializeLoginRequest ⟨c'.cid, -1, some c'.cliVer⟩) with ⟨conEq, -⟩
  have sentCid := congrArg CliConn.cid conEq
  have sentStatus := (congrArg CliConn.loginStatus conEq).trans statusEq
  have sentFd := ((congrArg CliConn.fd conEq).trans fdEq).trans opened
  constructor
  · exact sentCid
  · constructor
    · rintro (failed | disconnected)
      · exact absurd (sentStatus.symm.trans failed) (by decide)
      · exact absurd (sentStatus.symm.trans disconnected) (by decide)
    · intro closed
      exact absurd (sentFd.symm.trans closed) (by decide)

/-- Either the socket is open and nothing is published, or the login has failed. -/
theorem connectServer_spec (c : CliConn) (net : Net) :
    ∃ c' : CliConn, c'.cid = c.cid ∧ c'.loginStatus = c.loginStatus ∧
      (c'.fd = true ∧ c.connectServer net = ⟨0, c', []⟩ ∨
        c.connectServer net = { c'.onLoginFail net networkError with ret := -1 }) := by
  refine ⟨{ c with
    svrlist := connectLoop net.connects 0 c.svrlist
    fd := if c.svrlist = [] then c.fd else !(connectLoop net.connects 0 c.svrlist).isEmpty },
    rfl, rfl, ?_⟩
  rw [CliConn.connectServer]
  generalize connectLoop net.connects 0 c.svrlist = left
  dsimp only
  generalize (if c.svrlist = [] then c.fd else !left.isEmpty) = opened
  cases opened with
  | true => exact Or.inl ⟨rfl, rfl⟩
  | false => exact Or.inr rfl

/-- Logging in again from `STATUS_DISCONNECT`, whether or not that was notified. -/
theorem connectAndLogin_keeps (disconnected : c.loginStatus = .disconnect)
    (works : 0 < net.sent) : Keeps c past (c.connectAndLogin codec net) := by
  rw [CliConn.connectAndLogin, if_pos (by simp [disconnected])]
  rcases connectServer_spec c net with ⟨c', cidEq, statusEq, ⟨opened, outEq⟩ | outEq⟩
  · rw [outEq, if_pos rfl]
    have loggedIn : Keeps c' (past ++ []) (c'.login codec net) := login_keeps opened works
    exact Keeps.andThen cidEq loggedIn
  · rw [outEq, if_neg (by simp)]
    have failed : Keeps c' past (c'.onLoginFail net networkError) := by
      apply shut_keeps (Or.inl rfl)
      intro already
      exact absurd (disconnected.symm.trans (statusEq.symm.trans already)) (by decide)
    exact ⟨failed.cid.trans cidEq, failed.sound⟩

/-- The next address is tried after `STATUS_DISCONNECT` without an event. -/
theorem retry_keeps (works : 0 < net.sent) :
    Keeps c past ((c.setStatus net .disconnect 0 false).andThen fun c =>
      c.connectAndLogin codec net) := by
  rcases setStatus_silent c net .disconnect 0 with ⟨statusEq, -, cidEq⟩
  apply Keeps.andThen cidEq
  exact connectAndLogin_keeps statusEq works

/-! ## Packets -/

/-- A connection that is logged in has a socket, or was accounted for before. -/
theorem Sound.enterLogin (sound : Sound c past) (net : Net) (code : Int) :
    Keeps c past (c.setStatus net .login code true) := by
  by_cases same : c.loginStatus = .login
  · have outEq : c.setStatus net .login code true = ⟨0, c, []⟩ := by
      simp [CliConn.setStatus, same]
    rw [outEq]
    exact keeps_nil rfl sound
  · rw [CliConn.setStatus, if_pos (Ne.symm same)]
    constructor
    · rfl
    · constructor
      · rintro (failed | disconnected)
        · cases failed
        · cases disconnected
      · intro closed
        apply (sound.closed closed).append
        intro member
        rcases List.mem_cons.mp member with isEnter | published
        · cases isEnter
        · exact quiet_publish net (.loginOk c.cid) published

/-- The answer to a login. -/
theorem Sound.handleLoginResponse {resp : Bytes} {out : Out} (sound : Sound c past)
    (works : 0 < net.sent) (handled : c.handleLoginResponse codec net resp = some out) :
    Keeps c past out := by
  have popped : Sound (c.popTimer .login) past := sound.congr rfl rfl
  have cidEq : (c.popTimer .login).cid = c.cid := rfl
  rw [CliConn.handleLoginResponse] at handled
  generalize c.popTimer .login = c' at handled popped cidEq
  cases parsed : codec.parseLoginResponse resp with
  | none =>
      simp only [parsed] at handled
      rw [← Option.some.inj handled]
      exact keeps_nil cidEq popped
  | some lgresp =>
      simp only [parsed] at handled
      split_ifs at handled with accepted
      · have named : Sound { c' with sessid := lgresp.sessid } past := popped.congr rfl rfl
        have entered := named.enterLogin net lgresp.status
        rw [← Option.some.inj handled]
        exact ⟨entered.cid.trans cidEq, entered.sound.congr rfl rfl⟩
      · cases listed : c'.svrlist with
        | nil => simp [listed] at handled
        | cons item svrlist =>
            simp only [listed] at handled
            have left : Sound { c' with svrlist := svrlist } past := popped.congr rfl rfl
            split_ifs at handled with last
            · rw [← Option.some.inj handled]
              have failed := left.onLoginFail net lgresp.status
              exact ⟨failed.cid.trans cidEq, failed.sound⟩
            · rw [← Option.some.inj handled]
              rcases retry_keeps (c := { c' with svrlist := svrlist }) works with ⟨cid, again⟩
              exact ⟨cid.trans cidEq, again⟩

/-- A push is answered. -/
theorem Sound.handleServiceRequest (sound : Sound c past) (works : 0 < net.sent)
    (reqbody : Bytes) : Keeps c past (c.handleServiceRequest codec net reqbody) := by
  rw [CliConn.handleServiceRequest]
  cases codec.parsePushRequest reqbody with
  | none => exact keeps_nil rfl sound
  | some svreq =>
      rcases sendPacket_spec (c := c) works pushResp (codec.serializePushResponse
        ⟨svreq.toSessid, some svreq.fromSessid, svreq.sn, 0⟩) with ⟨conEq, quiet⟩
      constructor
      · exact congrArg CliConn.cid conEq
      · have told := sound.append (quiet_append
          (quiet_publish net (.push c.cid svreq.sn svreq.payload)) quiet)
        exact told.congr (congrArg CliConn.loginStatus conEq) (congrArg CliConn.fd conEq)

theorem Sound.handlePacket {r : Received} {out : Out} (sound : Sound c past)
    (works : 0 < r.net.sent) (handled : c.handlePacket codec r = some out) : Keeps c past out := by
  rw [CliConn.handlePacket] at handled
  split_ifs at handled
  · exact sound.handleLoginResponse works handled
  · rw [← Option.some.inj handled]
    exact sound.handleServiceRequest works r.body
  · rw [← Option.some.inj handled]
    exact keeps_nil rfl sound

theorem Sound.handlePackets {packets : List Received} {out : Out} (sound : Sound c past)
    (works : ∀ r ∈ packets, 0 < r.net.sent)
    (handled : c.handlePackets codec packets = some out) : Keeps c past out := by
  induction packets generalizing c past out with
  | nil =>
      rw [← Option.some.inj handled]
      exact keeps_nil rfl sound
  | cons r rest ih =>
      rcases Option.bind_eq_some_iff.mp handled with ⟨first, firstEq, restEq⟩
      rcases Option.map_eq_some_iff.mp restEq with ⟨later, laterEq, rfl⟩
      have kept := sound.handlePacket (works r List.mem_cons_self) firstEq
      apply Keeps.andThen kept.cid
      exact ih kept.sound (fun r' member => works r' (List.mem_cons_of_mem _ member)) laterEq

theorem Sound.handleRead {received : Option (List Received)} {out : Out} (sound : Sound c past)
    (works : ∀ packets, received = some packets → ∀ r ∈ packets, 0 < r.net.sent)
    (handled : c.handleRead codec net received = some out) : Keeps c past out := by
  rw [CliConn.handleRead] at handled
  split_ifs at handled with closed
  · rw [← Option.some.inj handled]
    exact keeps_nil rfl sound
  · have active : Sound { c with activeTime := net.ms } past := sound.congr rfl rfl
    cases received with
    | none =>
        rw [← Option.some.inj handled]
        exact keeps_nil rfl active
    | some packets =>
        have kept := active.handlePackets (works packets rfl) handled
        exact ⟨kept.cid, kept.sound⟩

end Keeps

end GPush.ClientSdk
