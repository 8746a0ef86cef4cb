import GPush.ClientSdk.SmartLoop

/-!
# Calls that leave the timers alone

Most member functions of a connection neither look at its timers nor change them.  The loop
calls these on connections whose timers it keeps as nodes.
-/

namespace GPush.ClientSdk

open GPush.ConnectServer GPush.Connection

/-- The connection with other timers. -/
def CliConn.setTimers (c : CliConn) (timers : List (Int × TimerOp)) : CliConn :=
  { c with timers := timers }

/-- The same call of the connection with other timers. -/
def Out.setTimers (out : Out) (timers : List (Int × TimerOp)) : Out :=
  { out with con := out.con.setTimers timers }

/-- The call neither looks at the timers nor changes them. -/
def Blind (f : CliConn → Out) : Prop :=
  ∀ c timers, f (c.setTimers timers) = (f c).setTimers timers

namespace Blind

variable {f g : CliConn → Out}

/-- A blind call leaves the timers as they are. -/
theorem timers (blind : Blind f) (c : CliConn) : (f c).con.timers = c.timers :=
  congrArg (fun out => out.con.timers) (blind c c.timers)

/-- Blind calls one after the other. -/
theorem andThen (first : Blind f) (second : Blind g) : Blind fun c => (f c).andThen g := by
  intro c timers
  simp only [first c timers, Out.andThen, Out.setTimers, second (f c).con timers]

/-- The result is replaced. -/
theorem setRet (blind : Blind f) (ret : Int → Int) :
    Blind fun c => { f c with ret := ret (f c).ret } := by
  intro c timers
  simp only [blind c timers, Out.setTimers]

theorem ite {p : CliConn → Prop} [DecidablePred p]
    (same : ∀ c timers, p (c.setTimers timers) ↔ p c) (blind : Blind f) (blind' : Blind g) :
    Blind fun c => if p c then f c else g c := by
  intro c timers
  dsimp only
  by_cases holds : p c
  · rw [if_pos ((same c timers).mpr holds), if_pos holds, blind]
  · rw [if_neg (mt (same c timers).mp holds), if_neg holds, blind']

end Blind

/-! ## The calls -/

section Calls

variable (net : Net)

theorem blind_asynDestroy : Blind CliConn.asynDestroy := fun _ _ => rfl

/-- A status is entered without the timers. -/
theorem blind_setStatus (status : LoginStatus) (code : Int) (notify : Bool) :
    Blind fun c => c.setStatus net status code notify := by
  intro c timers
  simp only [CliConn.setStatus, show (c.setTimers timers).loginStatus = c.loginStatus from rfl]
  split_ifs
  · rfl
  · rfl
  · rfl

theorem blind_shut (status : LoginStatus) (code : Int) :
    Blind fun c => c.shut net status code := by
  have closes : Blind fun c => c.closefd.setStatus net status code true := fun c timers =>
    blind_setStatus net status code true c.closefd timers
  exact closes.andThen blind_asynDestroy

theorem blind_send (m : Bytes) : Blind fun c => c.send net m := by
  intro c timers
  simp only [CliConn.send, show (c.setTimers timers).fd = c.fd from rfl]
  split_ifs
  · rfl
  · rfl
  · rfl

theorem blind_sendPacket (cmd : Int) (body : Bytes) :
    Blind fun c => c.sendPacket net cmd body := blind_send net _

/-- The addresses are tried without the timers. -/
theorem blind_connectServer : Blind fun c => c.connectServer net := by
  have connects : Blind fun c => if c.fd then (⟨0, c, []⟩ : Out) else
      { c.onLoginFail net networkError with ret := -1 } :=
    .ite (fun _ _ => Iff.rfl) (fun _ _ => rfl)
      ((blind_shut net .loginFail networkError).setRet fun _ => -1)
  intro c timers
  let left := connectLoop net.connects 0 c.svrlist
  exact connects { c with
    svrlist := left, fd := if c.svrlist = [] then c.fd else !left.isEmpty } timers

variable (codec : PeerCodec)

theorem blind_login : Blind fun c => c.login codec net := by
  have sends : Blind fun c => ({ c with loginTime := net.ms } : CliConn).sendPacket net loginReq
      (codec.serializeLoginRequest ⟨c.cid, -1, some c.cliVer⟩) := fun c timers =>
    blind_send net _ { c with loginTime := net.ms } timers
  exact (blind_setStatus net .doLogin 0 false).andThen
    (sends.setRet fun ret => if 0 ≤ ret then 0 else -1)

/-- A login uses no timers until it has been sent. -/
theorem blind_connectAndLogin : Blind fun c => c.connectAndLogin codec net := by
  have connects : Blind fun c => if (c.connectServer net).ret = 0 then
      (c.connectServer net).andThen fun c => c.login codec net
      else { c.connectServer net with ret := -1 } := by
    refine .ite ?_ ((blind_connectServer net).andThen (blind_login net codec))
      ((blind_connectServer net).setRet fun _ => -1)
    intro c timers
    have same := congrArg (fun out : Out => out.ret = 0) (blind_connectServer net c timers)
    exact iff_of_eq same
  exact .ite (fun _ _ => Iff.rfl) connects fun _ _ => rfl

theorem blind_handleServiceRequest (reqbody : Bytes) :
    Blind fun c => c.handleServiceRequest codec net reqbody := by
  intro c timers
  simp only [CliConn.handleServiceRequest]
  cases codec.parsePushRequest reqbody with
  | none => rfl
  | some svreq =>
      simp only [blind_sendPacket net _ _ c timers]
      rfl

/-- A refused login tries the next address without the timers. -/
theorem blind_refused (status : Int) : Blind (SmartLoop.refused codec net status) := by
  have retries : Blind fun c => (c.setStatus net .disconnect 0 false).andThen fun c =>
      c.connectAndLogin codec net :=
    (blind_setStatus net .disconnect 0 false).andThen (blind_connectAndLogin net codec)
  have refuses : Blind fun c => if c.svrlist = [] then c.onLoginFail net status else
      (c.setStatus net .disconnect 0 false).andThen fun c => c.connectAndLogin codec net :=
    .ite (fun _ _ => Iff.rfl) (blind_shut net .loginFail status) retries
  exact fun c timers => refuses { c with svrlist := c.svrlist.tail } timers

end Calls

/-! ## Maps of timers -/

/-- The deadlines in order. -/
def Sorted (timers : List (Int × TimerOp)) : Prop :=
  timers.Pairwise fun timer timer' => timer.1 < timer'.1

variable {deadline : Int} {op : TimerOp} {timers : List (Int × TimerOp)}

/-- A deadline that is there keeps its operation. -/
theorem insertTimer_of_mem (sorted : Sorted timers)
    (isThere : ∃ timer ∈ timers, timer.1 = deadline) :
    insertTimer deadline op timers = timers := by
  induction timers with
  | nil => simp at isThere
  | cons first timers ih =>
      obtain ⟨least, sorted'⟩ := List.pairwise_cons.mp sorted
      obtain ⟨timer, member, rfl⟩ := isThere
      rw [insertTimer]
      rcases List.mem_cons.mp member with rfl | later
      · rw [if_neg (Int.lt_irrefl _), if_pos rfl]
      · have before := least timer later
        rw [if_neg (by omega), if_neg (by omega), ih sorted' ⟨timer, later, rfl⟩]

theorem sorted_insertTimer (sorted : Sorted timers) : Sorted (insertTimer deadline op timers) := by
  induction timers with
  | nil => exact List.pairwise_singleton _ _
  | cons first timers ih =>
      obtain ⟨least, sorted'⟩ := List.pairwise_cons.mp sorted
      rw [insertTimer]
      split_ifs with before isThere
      · refine List.pairwise_cons.mpr ⟨?_, sorted⟩
        intro timer member
        rcases List.mem_cons.mp member with rfl | later
        · exact before
        · exact before.trans (least timer later)
      · exact sorted
      · refine List.pairwise_cons.mpr ⟨?_, ih sorted'⟩
        intro timer member
        rcases mem_insertTimer member with rfl | later
        · dsimp only
          omega
        · exact least timer later

/-- A new deadline has the same place among the nodes of the timers. -/
theorem forall₂_insertTimer {stands : TimerNode → Int × TimerOp → Prop} {nodes : List TimerNode}
    (agree : ∀ node timer, stands node timer → node.deadline = timer.1)
    (related : List.Forall₂ stands nodes timers)
    (fresh : ∀ node ∈ nodes, node.deadline ≠ deadline) {new : TimerNode}
    (isNew : stands new (deadline, op)) :
    List.Forall₂ stands
      (nodes.orderedInsert (fun node node' => node.deadline ≤ node'.deadline) new)
      (insertTimer deadline op timers) := by
  have newEq := agree new _ isNew
  induction related with
  | nil => exact .cons isNew .nil
  | @cons node timer nodes timers first rest ih =>
      rw [List.forall_mem_cons] at fresh
      have nodeEq := agree node timer first
      rw [List.orderedInsert_cons, insertTimer]
      by_cases before : deadline < timer.1
      · rw [if_pos before, if_pos (by dsimp only at newEq; omega)]
        exact .cons isNew (.cons first rest)
      · have later : ¬new.deadline ≤ node.deadline := by
          dsimp only at newEq
          have differs := fresh.1
          omega
        rw [if_neg before, if_neg later, if_neg fun same => fresh.1 (nodeEq.trans same.symm)]
        exact .cons first (ih fresh.2)

end GPush.ClientSdk
