import GPush.ClientSdk.CliConn
import GPush.Connection.Send

/-!
# Sending from the client SDK

`tcp_send` calls `send` until everything is taken, the socket would block, or it fails.  It
moves its pointer and its offset by every count, so a second count is taken from twice as far
on, and a socket that would block ends it with what was taken before.
-/

namespace GPush.ClientSdk

open GPush.ConnectServer GPush.Connection

/-- The value that a 32-bit signed parameter takes. -/
def toInt32 (n : Int) : Int := n.bmod (2 ^ 32)

/-- The memory from the first byte of the message on; `beyond` is what stands behind it. -/
def memory (m : Bytes) (beyond : Nat → UInt8) (i : Nat) : UInt8 := m.getD i (beyond i)

/-- `len` bytes of memory. -/
def window (mem : Nat → UInt8) (pos len : Nat) : Bytes := (List.range' pos len).map mem

/-- The loop of `tcp_send`, with its pointer, its offset and the length that is left.  A
script that ends too early, or takes more than it is offered, is no behaviour of the socket. -/
def tcpSendLoop (mem : Nat → UInt8) : Nat → Nat → Nat → List SysSend → Option Outcome
  | _, _, _, [] => none
  | rcvbuf, readLen, bufsize, call :: script =>
      if (bufsize : Int) < call.ret then
        none
      else if 0 < call.ret then
        let ret := call.ret.toNat
        let out := window mem (rcvbuf + readLen) ret
        if 0 < bufsize - ret then
          (tcpSendLoop mem (rcvbuf + ret) (readLen + ret) (bufsize - ret) script).map fun later =>
            { later with out := out ++ later.out }
        else
          some ⟨(readLen + ret : Nat), out, script⟩
      else
        match call.errno with
        | .eintr => tcpSendLoop mem rcvbuf readLen bufsize script
        | .eagain => some ⟨readLen, [], script⟩
        | .other => some ⟨-1, [], script⟩

/-- `tcp_send`. -/
def tcpSend (mem : Nat → UInt8) (bufsize : Int) (script : List SysSend) : Option Outcome :=
  if bufsize ≤ 0 then some ⟨-1, [], script⟩ else tcpSendLoop mem 0 0 bufsize.toNat script

/-- `CliConn::send_`, with the bytes that it hands to the socket. -/
def CliConn.sendOver (c : CliConn) (net : Net) (m : Bytes) (beyond : Nat → UInt8)
    (script : List SysSend) : Option (Out × Outcome) :=
  if m = [] ∨ c.fd = false then
    some (c.send net m, ⟨-1, [], script⟩)
  else
    (tcpSend (memory m beyond) (toInt32 m.length) script).map fun sent =>
      (c.send { net with sent := sent.ret } m, sent)

deriving instance DecidableEq for SysSend, Outcome

/-! ## What is handed to the socket -/

/-- The counts of the calls that took something. -/
def counts (script : List SysSend) : List Nat :=
  script.filterMap fun call => if 0 < call.ret then some call.ret.toNat else none

/-- The last call fails, and not because the socket would block. -/
def Refused (script : List SysSend) : Prop :=
  ∃ call, script.getLast? = some call ∧ call.ret ≤ 0 ∧ call.errno = .other

/-- The bytes that are handed over with these counts. -/
def handed (mem : Nat → UInt8) : Nat → List Nat → Bytes
  | _, [] => []
  | taken, n :: ns => window mem (taken + taken) n ++ handed mem (taken + n) ns

theorem counts_cons_of_pos {call : SysSend} (took : 0 < call.ret) (script : List SysSend) :
    counts (call :: script) = call.ret.toNat :: counts script :=
  List.filterMap_cons_some (if_pos took)

theorem counts_cons_of_not_pos {call : SysSend} (took : ¬0 < call.ret) (script : List SysSend) :
    counts (call :: script) = counts script :=
  List.filterMap_cons_none (if_neg took)

theorem refused_single {call : SysSend} : Refused [call] ↔ call.ret ≤ 0 ∧ call.errno = .other := by
  simp [Refused]

theorem refused_cons {call : SysSend} {script : List SysSend} (more : script ≠ []) :
    Refused (call :: script) ↔ Refused script := by
  cases script with
  | nil => exact absurd rfl more
  | cons next script => rw [Refused, Refused, List.getLast?_cons_cons]

/-- What the loop of `tcp_send` does with a script that holds exactly its calls. -/
structure Answers (taken bufsize : Nat) (script : List SysSend) (ret : Int) : Prop where
  loop : ∀ mem, tcpSendLoop mem taken taken bufsize script =
    some ⟨ret, handed mem taken (counts script), []⟩
  refused : Refused script → ret = -1
  took : ¬Refused script → ret = (taken + (counts script).sum : Nat)
  bound : (counts script).sum ≤ bufsize

namespace Answers

variable {taken bufsize : Nat} {call : SysSend} {script : List SysSend} {ret : Int}

/-- A count that leaves something to send. -/
theorem count (offered : ¬(bufsize : Int) < call.ret) (took : 0 < call.ret)
    (more : 0 < bufsize - call.ret.toNat) (nonempty : script ≠ [])
    (later : Answers (taken + call.ret.toNat) (bufsize - call.ret.toNat) script ret) :
    Answers taken bufsize (call :: script) ret := by
  have last : Refused (call :: script) ↔ Refused script := refused_cons nonempty
  have sumEq : (counts (call :: script)).sum = call.ret.toNat + (counts script).sum := by
    rw [counts_cons_of_pos took, List.sum_cons]
  constructor
  · intro mem
    rw [tcpSendLoop, if_neg offered, if_pos took]
    simp only [if_pos more, later.loop mem, Option.map_some, counts_cons_of_pos took, handed]
  · exact fun refused => later.refused (last.mp refused)
  · intro notRefused
    rw [later.took (mt last.mpr notRefused), sumEq, Nat.add_assoc]
  · have bound := later.bound
    omega

/-- A count that takes the rest. -/
theorem whole (offered : ¬(bufsize : Int) < call.ret) (took : 0 < call.ret)
    (all : ¬0 < bufsize - call.ret.toNat) :
    Answers taken bufsize [call] (taken + call.ret.toNat : Nat) := by
  have countsEq : counts [call] = [call.ret.toNat] := counts_cons_of_pos took []
  constructor
  · intro mem
    rw [tcpSendLoop, if_neg offered, if_pos took, countsEq]
    simp only [if_neg all, handed, List.append_nil]
  · exact fun refused => absurd took (Int.not_lt.mpr (refused_single.mp refused).1)
  · intro _
    rw [countsEq, List.sum_singleton]
  · rw [countsEq, List.sum_singleton]
    omega

/-- A call that is interrupted. -/
theorem interrupted (offered : ¬(bufsize : Int) < call.ret) (took : ¬0 < call.ret)
    (errnoEq : call.errno = .eintr) (nonempty : script ≠ [])
    (later : Answers taken bufsize script ret) : Answers taken bufsize (call :: script) ret := by
  have last : Refused (call :: script) ↔ Refused script := refused_cons nonempty
  have countsEq := counts_cons_of_not_pos took script
  constructor
  · intro mem
    rw [tcpSendLoop, if_neg offered, if_neg took, errnoEq, countsEq]
    exact later.loop mem
  · exact fun refused => later.refused (last.mp refused)
  · rw [countsEq]
    exact fun notRefused => later.took (mt last.mpr notRefused)
  · rw [countsEq]
    exact later.bound

/-- A call that would block. -/
theorem blocked (offered : ¬(bufsize : Int) < call.ret) (took : ¬0 < call.ret)
    (errnoEq : call.errno = .eagain) : Answers taken bufsize [call] taken := by
  have countsEq : counts [call] = [] := counts_cons_of_not_pos took []
  constructor
  · intro mem
    rw [tcpSendLoop, if_neg offered, if_neg took, errnoEq, countsEq]
    rfl
  · intro refused
    cases errnoEq.symm.trans (refused_single.mp refused).2
  · intro _
    rw [countsEq]
    rfl
  · rw [countsEq]
    exact Nat.zero_le _

/-- A call that fails. -/
theorem failed (offered : ¬(bufsize : Int) < call.ret) (took : ¬0 < call.ret)
    (errnoEq : call.errno = .other) : Answers taken bufsize [call] (-1) := by
  have countsEq : counts [call] = [] := counts_cons_of_not_pos took []
  constructor
  · intro mem
    rw [tcpSendLoop, if_neg offered, if_neg took, errnoEq, countsEq]
    rfl
  · exact fun _ => rfl
  · exact fun notRefused => absurd (refused_single.mpr ⟨Int.not_lt.mp took, errnoEq⟩) notRefused
  · rw [countsEq]
    exact Nat.zero_le _

end Answers

theorem ne_nil_of_returned {mem : Nat → UInt8} {rcvbuf readLen bufsize : Nat}
    {script : List SysSend} {sent : Outcome}
    (returned : tcpSendLoop mem rcvbuf readLen bufsize script = some sent) : script ≠ [] := by
  rintro rfl
  cases returned

/-- The loop lemma. -/
theorem tcpSendLoop_spec {mem : Nat → UInt8} {taken bufsize : Nat} {script : List SysSend}
    {sent : Outcome} (returned : tcpSendLoop mem taken taken bufsize script = some sent)
    (exact : sent.rest = []) : ∃ ret, Answers taken bufsize script ret := by
  induction script generalizing taken bufsize sent with
  | nil => cases returned
  | cons call script ih =>
      rw [tcpSendLoop] at returned
      dsimp only at returned
      split_ifs at returned with offered took more
      · rcases Option.map_eq_some_iff.mp returned with ⟨later, laterEq, rfl⟩
        rcases ih laterEq exact with ⟨ret, answers⟩
        exact ⟨ret, answers.count offered took more (ne_nil_of_returned laterEq)⟩
      · obtain rfl := Option.some.inj returned
        obtain rfl : script = [] := exact
        exact ⟨_, Answers.whole offered took more⟩
      · cases errnoEq : call.errno with
        | eintr =>
            rw [errnoEq] at returned
            rcases ih returned exact with ⟨ret, answers⟩
            exact ⟨ret, answers.interrupted offered took errnoEq (ne_nil_of_returned returned)⟩
        | eagain =>
            rw [errnoEq] at returned
            obtain rfl := Option.some.inj returned
            obtain rfl : script = [] := exact
            exact ⟨_, Answers.blocked offered took errnoEq⟩
        | other =>
            rw [errnoEq] at returned
            obtain rfl := Option.some.inj returned
            obtain rfl : script = [] := exact
            exact ⟨_, Answers.failed offered took errnoEq⟩

/-! ## What arrives -/

theorem length_window (mem : Nat → UInt8) (pos len : Nat) : (window mem pos len).length = len := by
  simp [window]

theorem length_handed (mem : Nat → UInt8) (taken : Nat) (ns : List Nat) :
    (handed mem taken ns).length = ns.sum := by
  induction ns generalizing taken with
  | nil => rfl
  | cons n ns ih => rw [handed, List.length_append, length_window, ih, List.sum_cons]

/-- A message that one call takes arrives. -/
theorem window_memory (m : Bytes) (beyond : Nat → UInt8) :
    window (memory m beyond) 0 m.length = m := by
  apply List.ext_getElem (length_window _ _ _)
  intro i _ inside
  simp [window, memory, List.getD_eq_getElem?_getD, inside]

/-- The last byte of a later count stands at least as far on as everything that has been
taken by then. -/
theorem getLast?_handed {taken : Nat} (started : 0 < taken) {ns : List Nat} (nonempty : ns ≠ [])
    (positive : ∀ n ∈ ns, 0 < n) :
    ∃ i, taken + ns.sum ≤ i ∧ ∀ mem, (handed mem taken ns).getLast? = some (mem i) := by
  induction ns generalizing taken with
  | nil => exact absurd rfl nonempty
  | cons n ns ih =>
      rw [List.forall_mem_cons] at positive
      cases ns with
      | nil =>
          refine ⟨taken + taken + (n - 1), ?_, ?_⟩
          · have := positive.1
            simp only [List.sum_cons, List.sum_nil]
            omega
          · intro mem
            rcases Nat.exists_eq_succ_of_ne_zero (Nat.ne_zero_of_lt positive.1) with ⟨k, rfl⟩
            simp [handed, window, List.range'_concat]
      | cons next rest =>
          rcases ih (Nat.add_pos_left started n) (List.cons_ne_nil _ _) positive.2 with
            ⟨i, far, lastEq⟩
          refine ⟨i, ?_, ?_⟩
          · rw [List.sum_cons]
            omega
          · intro mem
            rw [handed, List.getLast?_append, lastEq mem]
            rfl

theorem counts_pos (script : List SysSend) : ∀ n ∈ counts script, 0 < n := by
  intro n member
  rcases List.mem_filterMap.mp member with ⟨call, -, isCount⟩
  split_ifs at isCount with took
  rw [← Option.some.inj isCount]
  omega

/-- A byte string is handed over as it is, whatever stands behind it, only in one piece. -/
theorem handed_eq_iff {m : Bytes} {ns : List Nat} (nonempty : ns ≠ [])
    (positive : ∀ n ∈ ns, 0 < n) :
    (∀ beyond, handed (memory m beyond) 0 ns = m) ↔ ns = [m.length] := by
  constructor
  · intro exact
    have total : m.length = ns.sum := by
      rw [← length_handed (memory m fun _ => 0) 0 ns, exact]
    rcases ns with _ | ⟨n, _ | ⟨next, rest⟩⟩
    · exact absurd rfl nonempty
    · rw [total, List.sum_singleton]
    · rw [List.forall_mem_cons] at positive
      rcases getLast?_handed (Nat.add_pos_right 0 positive.1) (List.cons_ne_nil next rest)
        positive.2 with ⟨i, far, lastEq⟩
      have outside : m.length ≤ i := by
        rw [total, List.sum_cons]
        omega
      have last : ∀ a : UInt8, m.getLast? = some a := by
        intro a
        have byteEq : memory m (fun _ => a) i = a := by
          simp [memory, List.getD_eq_getElem?_getD, outside]
        rw [← exact fun _ => a, handed, List.getLast?_append, lastEq, byteEq]
        rfl
      have clash := (last 0).symm.trans (last 1)
      simp at clash
  · rintro rfl beyond
    rw [handed, handed, List.append_nil]
    exact window_memory m beyond

namespace CliConn

variable (c : CliConn) (net : Net) (m : Bytes) (script : List SysSend)

/-- The script holds exactly the results of the calls of `send` that are made. -/
def Makes : Prop :=
  ∃ beyond out sent, c.sendOver net m beyond script = some (out, sent) ∧ sent.rest = []

/-- If the result is positive, the message has been handed to the socket, whatever stands
behind it in memory. -/
def SendsWhole : Prop :=
  ∀ beyond out sent, c.sendOver net m beyond script = some (out, sent) → 0 < out.ret → sent.out = m

variable {c net m script}

theorem ret_send (sends : ¬(m = [] ∨ c.fd = false)) (ret : Int) :
    0 < (c.send { net with sent := ret } m).ret ↔ 0 < ret := by
  rw [send, if_neg sends]
  dsimp only
  split_ifs with failed
  · simp only
    omega
  · rfl

/-- What the calls made say about `send_`: nothing is taken, or they are those of the loop. -/
theorem makes_cases (makes : c.Makes net m script) :
    counts script = [] ∧ c.SendsWhole net m script ∨
      ∃ ret bufsize, Answers 0 bufsize script ret ∧
        (c.SendsWhole net m script ↔
          (0 < ret → ∀ beyond, handed (memory m beyond) 0 (counts script) = m)) := by
  rcases makes with ⟨beyond, out, sent, returned, exact⟩
  by_cases early : m = [] ∨ c.fd = false
  · rw [sendOver, if_pos early] at returned
    rcases Prod.mk.inj (Option.some.inj returned) with ⟨-, rfl⟩
    obtain rfl : script = [] := exact
    refine Or.inl ⟨rfl, ?_⟩
    intro beyond out sent returned success
    rw [sendOver, if_pos early] at returned
    rcases Prod.mk.inj (Option.some.inj returned) with ⟨rfl, -⟩
    simp [send, if_pos early] at success
  · by_cases noLength : toInt32 m.length ≤ 0
    · have overEq : ∀ beyond, c.sendOver net m beyond script =
          some (c.send { net with sent := -1 } m, ⟨-1, [], script⟩) := by
        intro beyond
        rw [sendOver, if_neg early, tcpSend, if_pos noLength, Option.map_some]
      rw [overEq] at returned
      rcases Prod.mk.inj (Option.some.inj returned) with ⟨-, rfl⟩
      obtain rfl : script = [] := exact
      refine Or.inl ⟨rfl, ?_⟩
      intro beyond out sent returned success
      rw [overEq] at returned
      rcases Prod.mk.inj (Option.some.inj returned) with ⟨rfl, -⟩
      cases (ret_send early _).mp success
    · rw [sendOver, if_neg early, tcpSend, if_neg noLength] at returned
      rcases Option.map_eq_some_iff.mp returned with ⟨looped, loopEq, pairEq⟩
      rcases Prod.mk.inj pairEq with ⟨-, rfl⟩
      rcases tcpSendLoop_spec loopEq exact with ⟨ret, answers⟩
      have overEq : ∀ beyond, c.sendOver net m beyond script =
          some (c.send { net with sent := ret } m,
            ⟨ret, handed (memory m beyond) 0 (counts script), []⟩) := by
        intro beyond
        rw [sendOver, if_neg early, tcpSend, if_neg noLength, answers.loop, Option.map_some]
      refine Or.inr ⟨ret, _, answers, ?_⟩
      constructor
      · intro whole positive beyond
        exact whole beyond _ _ (overEq beyond) ((ret_send early ret).mpr positive)
      · intro whole beyond out sent returned success
        rw [overEq] at returned
        rcases Prod.mk.inj (Option.some.inj returned) with ⟨rfl, rfl⟩
        exact whole ((ret_send early ret).mp success) beyond

end CliConn

/-- A call of `sendPacket`. -/
structure Sending where
  con : CliConn
  net : Net
  cmd : Int
  body : Bytes
  beyond : Nat → UInt8
  script : List SysSend

namespace Sending

/-- The packet. -/
def packet (s : Sending) : Bytes := CliConn.constructPacket s.cmd s.body

/-- What `sendPacket` answers. -/
def result (s : Sending) : Option (Out × Outcome) :=
  s.con.sendOver s.net s.packet s.beyond s.script

/-- It reports success. -/
def Succeeds (s : Sending) : Prop := ∃ out sent, s.result = some (out, sent) ∧ 0 < out.ret

/-- The bytes that the server receives. -/
def arrived (s : Sending) : Bytes := (s.result.map fun answer => answer.2.out).getD []

end Sending

/-- Nothing is taken, or the last call fails, or one call takes the whole message. -/
def AtOnce (m : Bytes) (script : List SysSend) : Prop :=
  counts script = [] ∨ Refused script ∨ counts script = [m.length]

theorem sendsWhole_iff_atOnce {c : CliConn} {net : Net} {m : Bytes} {script : List SysSend}
    (makes : c.Makes net m script) : c.SendsWhole net m script ↔ AtOnce m script := by
  rcases CliConn.makes_cases makes with ⟨noCount, whole⟩ | ⟨ret, bufsize, answers, wholeIff⟩
  · exact iff_of_true whole (Or.inl noCount)
  · by_cases refused : Refused script
    · have failed := answers.refused refused
      refine iff_of_true (wholeIff.mpr ?_) (Or.inr (Or.inl refused))
      intro positive
      omega
    · have retEq := answers.took refused
      by_cases noCount : counts script = []
      · rw [noCount] at retEq
        refine iff_of_true (wholeIff.mpr ?_) (Or.inl noCount)
        intro positive
        simp [retEq] at positive
      · have positive : 0 < ret := by
          rcases List.exists_cons_of_ne_nil noCount with ⟨n, ns, countsEq⟩
          have first : 0 < n := counts_pos script n (by rw [countsEq]; exact List.mem_cons_self)
          rw [countsEq, List.sum_cons] at retEq
          omega
        rw [wholeIff, forall_prop_of_true positive, handed_eq_iff noCount (counts_pos script)]
        constructor
        · exact fun once => Or.inr (Or.inr once)
        · rintro (none | last | once)
          · exact absurd none noCount
          · exact absurd last refused
          · exact once

/-- A positive result means that the message has been sent exactly when the socket takes it at
once, unless it takes nothing or fails in the end.  Packets that are sent so arrive one after
the other. -/
theorem sends_whole_iff {c : CliConn} {net : Net} {m : Bytes} {script : List SysSend}
    (makes : c.Makes net m script) :
    (c.SendsWhole net m script ↔ AtOnce m script) ∧
    ∀ sendings : List Sending,
      (∀ s ∈ sendings, s.con.Makes s.net s.packet s.script ∧ s.Succeeds ∧
        AtOnce s.packet s.script) →
      sendings.flatMap Sending.arrived = sendings.flatMap Sending.packet := by
  refine ⟨sendsWhole_iff_atOnce makes, ?_⟩
  intro sendings
  induction sendings with
  | nil => exact fun _ => rfl
  | cons s sendings ih =>
      intro all
      rw [List.forall_mem_cons] at all
      rcases all.1 with ⟨makes, ⟨out, sent, returned, success⟩, once⟩
      have whole := (sendsWhole_iff_atOnce makes).mpr once _ _ _ returned success
      have arrivedEq : s.arrived = s.packet := by
        rw [Sending.arrived, returned]
        exact whole
      rw [List.flatMap_cons, List.flatMap_cons, arrivedEq, ih all.2]

/-- An open connection. -/
def openConn : CliConn where
  fd := true
  cid := [99]
  cliVer := []
  sessid := []
  keepaliveTimeout := 300
  loginStatus := .login
  loginStatusCode := 0
  loginTime := 0
  activeTime := 0
  svrlist := []
  timers := []

/-- What it finds apart from the results of `send`. -/
def openNet : Net := ⟨0, fun _ => true, 0, []⟩

/-- A keep-alive packet that the socket takes at once, after an interruption. -/
def wholeKeepalive : Sending where
  con := openConn
  net := openNet
  cmd := keepaliveReq
  body := []
  beyond := fun _ => 0
  script := [⟨none, .eintr⟩, ⟨some 12, .other⟩]

/-- What `sendPacket` answers for it. -/
def keepaliveAnswer : Out × Outcome :=
  (⟨12, openConn, [.tcpSend wholeKeepalive.packet]⟩, ⟨12, wholeKeepalive.packet, []⟩)

theorem sends_whole_iff_keepalive :
    wholeKeepalive.con.SendsWhole wholeKeepalive.net wholeKeepalive.packet
        wholeKeepalive.script ∧
      [wholeKeepalive, wholeKeepalive].flatMap Sending.arrived =
        [wholeKeepalive, wholeKeepalive].flatMap Sending.packet := by
  have answered : wholeKeepalive.result = some keepaliveAnswer := by decide +kernel
  have makes : wholeKeepalive.con.Makes wholeKeepalive.net wholeKeepalive.packet
      wholeKeepalive.script := ⟨_, _, _, answered, rfl⟩
  have succeeds : wholeKeepalive.Succeeds := ⟨_, _, answered, by decide⟩
  have once : AtOnce wholeKeepalive.packet wholeKeepalive.script := Or.inr (Or.inr (by decide))
  constructor
  · exact (sends_whole_iff makes).1.mpr once
  · apply (sends_whole_iff makes).2
    intro s member
    obtain rfl : s = wholeKeepalive := by simpa using member
    exact ⟨makes, succeeds, once⟩

/-- Four bytes that the socket takes two at a time: the last two are read behind the
message.  When it takes two and would block, the others are not sent.  Both calls report
success. -/
theorem send_skips_bytes :
    (openConn.sendOver openNet [1, 2, 3, 4] (fun _ => 0)
        [⟨some 2, .other⟩, ⟨some 2, .other⟩]).map
      (fun answer => (answer.1.ret, answer.2.out)) = some (4, [1, 2, 0, 0]) ∧
    (openConn.sendOver openNet [1, 2, 3, 4] (fun _ => 0)
        [⟨some 2, .other⟩, ⟨none, .eagain⟩]).map
      (fun answer => (answer.1.ret, answer.2.out)) = some (2, [1, 2]) ∧
    ¬openConn.SendsWhole openNet [1, 2, 3, 4] [⟨some 2, .other⟩, ⟨some 2, .other⟩] := by
  refine ⟨by decide +kernel, by decide +kernel, ?_⟩
  intro whole
  have answered : openConn.sendOver openNet [1, 2, 3, 4] (fun _ => 0)
      [⟨some 2, .other⟩, ⟨some 2, .other⟩] =
        some (⟨4, openConn, [.tcpSend [1, 2, 3, 4]]⟩, ⟨4, [1, 2, 0, 0], []⟩) := by
    decide +kernel
  have sent := whole _ _ _ answered (by decide)
  simp at sent

end GPush.ClientSdk
