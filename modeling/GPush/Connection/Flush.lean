import GPush.Connection.Send

/-!
# Progress of the flush

A flush offers the socket the first frame and stops at an empty one.  It makes
progress as long as no empty frame comes to lie before the write position, and
the one step that puts one there is a flush that drains the frame at the write
position while the list has other frames.
-/

namespace GPush.Connection

open GPush.LoopBuf GPush.Transition

/-! ## System calls -/

/-- `send_` answers with what the socket has taken, or with a non-positive value
when it has taken nothing. -/
theorem send_spec {len : Nat} {script rest : List SysSend} {ret : Int}
    (answered : send_ len script = some (ret, rest)) :
    ∃ used, script = used ++ rest ∧ ret ≤ len ∧ accepted used = ret.toNat := by
  induction script with
  | nil => simp [send_] at answered
  | cons call script ih =>
      have nothing : ¬ 0 < call.ret → accepted [call] = 0 := by
        intro notPos
        rcases call with ⟨taken, errno⟩
        cases taken with
        | none => rfl
        | some n =>
            simp only [SysSend.ret] at notPos
            simp only [accepted, List.map_cons, List.map_nil, List.sum_cons, List.sum_nil,
              Option.getD_some]
            omega
      rw [send_] at answered
      split_ifs at answered with tooMuch positive
      · rcases Prod.mk.inj (Option.some.inj answered) with ⟨rfl, rfl⟩
        refine ⟨[call], rfl, by omega, ?_⟩
        rcases call with ⟨taken, errno⟩
        cases taken with
        | none => simp [SysSend.ret] at positive
        | some n => simp [accepted, SysSend.ret]
      · cases errnoEq : call.errno with
        | eintr =>
            rw [errnoEq] at answered
            rcases ih answered with ⟨used, splitEq, bound, count⟩
            refine ⟨call :: used, by rw [splitEq, List.cons_append], bound, ?_⟩
            rw [← List.singleton_append, accepted_append, nothing positive, Nat.zero_add, count]
        | eagain =>
            rw [errnoEq] at answered
            rcases Prod.mk.inj (Option.some.inj answered) with ⟨rfl, rfl⟩
            exact ⟨[call], rfl, by omega, nothing positive⟩
        | other =>
            rw [errnoEq] at answered
            rcases Prod.mk.inj (Option.some.inj answered) with ⟨rfl, rfl⟩
            exact ⟨[call], rfl, by omega, nothing positive⟩

/-- The socket takes at least one byte when it is first offered some; interrupted
calls are repeated. -/
def Accepts : List SysSend → Prop
  | [] => False
  | call :: script =>
      match call.taken with
      | some n => 0 < n
      | none => call.errno = .eintr ∧ Accepts script

theorem send_pos_of_accepts {len : Nat} {script rest : List SysSend} {ret : Int}
    (accepts : Accepts script) (answered : send_ len script = some (ret, rest)) : 0 < ret := by
  induction script with
  | nil => exact accepts.elim
  | cons call script ih =>
      rw [send_] at answered
      rcases call with ⟨taken, errno⟩
      cases taken with
      | some n =>
          have positive : 0 < SysSend.ret ⟨some n, errno⟩ := Int.ofNat_lt.mpr accepts
          rw [if_pos positive] at answered
          split_ifs at answered with tooMuch
          rcases Prod.mk.inj (Option.some.inj answered) with ⟨rfl, -⟩
          exact positive
      | none =>
          rcases accepts with ⟨interrupted, later⟩
          change errno = .eintr at interrupted
          subst interrupted
          have notOver : ¬ (len : Int) < SysSend.ret ⟨none, .eintr⟩ := by
            simp only [SysSend.ret]
            omega
          have notPos : ¬ 0 < SysSend.ret ⟨none, .eintr⟩ := by decide
          rw [if_neg notOver, if_neg notPos] at answered
          exact ih later answered

theorem send_took {len n : Nat} (positive : 0 < n) (inside : n ≤ len) {errno : Errno}
    {script : List SysSend} : send_ len (⟨some n, errno⟩ :: script) = some ((n : Int), script) := by
  have notOver : ¬ (len : Int) < SysSend.ret ⟨some n, errno⟩ := by
    simp only [SysSend.ret]
    omega
  have enters : 0 < SysSend.ret ⟨some n, errno⟩ := Int.ofNat_lt.mpr positive
  rw [send_, if_neg notOver, if_pos enters]
  rfl

theorem send_blocked {len : Nat} {script : List SysSend} :
    send_ len (⟨none, .eagain⟩ :: script) = some (0, script) := by
  have notOver : ¬ (len : Int) < SysSend.ret ⟨none, .eagain⟩ := by
    simp only [SysSend.ret]
    omega
  rw [send_, if_neg notOver, if_neg (by decide)]

/-! ## The buffer over a flush -/

/-- The buffer after its first `n` bytes have been removed. -/
structure Drained (b : LoopBuf) (pre post : List Ptr) (q : Bytes) (n : Nat) (b' : LoopBuf)
    (pre' post' : List Ptr) : Prop where
  layout : Layout b' pre' post' (q.drop n)
  size : b'.size = (q.drop n).length
  length : pre'.length + post'.length = pre.length + post.length
  atWPos : (b'.mem b'.wPos).size ≤ (b.mem b.wPos).size
  flowing : Flowing b pre →
    n < q.length ∨ (b.mem b.wPos).size = 0 ∨ pre = [] ∧ post = [] → Flowing b' pre'

namespace Drained

variable {b b' b'' : LoopBuf} {pre post pre' post' pre'' post'' : List Ptr} {q : Bytes} {m n : Nat}

theorem refl (layout : Layout b pre post q) (sizeEq : b.size = q.length) :
    Drained b pre post q 0 b pre post :=
  ⟨layout, sizeEq, rfl, Nat.le_refl _, fun flow _ => flow⟩

theorem trans (first : Drained b pre post q m b' pre' post')
    (second : Drained b' pre' post' (q.drop m) n b'' pre'' post'') :
    Drained b pre post q (m + n) b'' pre'' post'' := by
  refine ⟨?_, ?_, second.length.trans first.length,
    Nat.le_trans second.atWPos first.atWPos, ?_⟩
  · rw [← List.drop_drop]
    exact second.layout
  · rw [← List.drop_drop]
    exact second.size
  · intro flow condition
    have single : pre = [] ∧ post = [] → pre' = [] ∧ post' = [] := by
      rintro ⟨rfl, rfl⟩
      have := first.length
      simpa using this
    apply second.flowing
    · apply first.flowing flow
      rcases condition with short | rest
      · exact Or.inl (by omega)
      · exact Or.inr rest
    · rcases condition with short | empty | alone
      · left
        rw [List.length_drop]
        omega
      · exact Or.inr (Or.inl (Nat.le_zero.mp (empty ▸ first.atWPos)))
      · exact Or.inr (Or.inr (single alone))

end Drained

section Layout

variable {b : LoopBuf} {pre post : List Ptr} {q : Bytes}

/-- The first frame holds a prefix of the queue. -/
theorem firstFrame_prefix (layout : Layout b pre post q) :
    ∃ rest, q = (b.mem b.head).data ++ rest := by
  rcases List.head?_eq_some_iff.mp layout.chain.head with ⟨tail, listEq⟩
  exact ⟨contents b.mem tail, by rw [← layout.holds, listEq, contents_cons]⟩

theorem firstFrameLen_le (layout : Layout b pre post q) : b.firstFrameLen ≤ q.length := by
  rcases firstFrame_prefix layout with ⟨rest, splitEq⟩
  rw [splitEq, List.length_append, Frame.length_data]
  exact Nat.le_add_right _ _

theorem firstFrameData_eq (layout : Layout b pre post q) {n : Nat} (inside : n ≤ b.firstFrameLen) :
    b.firstFrameData n = q.take n := by
  rcases firstFrame_prefix layout with ⟨rest, splitEq⟩
  have dataEq : (b.mem b.head).data.take n = b.firstFrameData n := by
    rw [Frame.data, List.take_take, firstFrameData]
    exact congrArg (List.take · _) (Nat.min_eq_left inside)
  have short : n ≤ (b.mem b.head).data.length := by
    rw [Frame.length_data]
    exact inside
  rw [splitEq, List.take_append_of_le_length short, dataEq]

/-- While no empty frame is before the write position, a buffer with data shows
some of it in its first frame. -/
theorem firstFrameLen_pos (layout : Layout b pre post q) (flow : Flowing b pre)
    (nonempty : 0 < q.length) : 0 < b.firstFrameLen := by
  cases pre with
  | nil =>
      have headEq : b.wPos = b.head := by simpa using layout.chain.head
      have dataEq : (b.mem b.wPos).data = q := by simpa using layout.contents_written
      rw [firstFrameLen, ← headEq, ← Frame.length_data, dataEq]
      exact nonempty
  | cons p pre =>
      have headEq : p = b.head := by simpa using layout.chain.head
      rw [firstFrameLen, ← headEq]
      exact flow p List.mem_cons_self

/-- One round of a flush removes what the socket took. -/
theorem read_drained (layout : Layout b pre post q) (sizeEq : b.size = q.length) {n : Nat}
    (inside : n ≤ q.length) :
    ∃ b' pre' post', b.read n = some (b', q.take n) ∧ Drained b pre post q n b' pre' post' := by
  obtain ⟨b', pre', post', readEq, layout', size', lengthEq, atWPos, flow⟩ :=
    layout.read (Or.inl inside)
  refine ⟨b', pre', post', readEq, layout', ?_, lengthEq, atWPos, flow⟩
  rw [size', sizeEq, List.length_drop]
  omega

/-- The loop lemma: a flush that returns has handed the socket a prefix of the
queue, as long as the socket says, and has removed it. -/
theorem doSendLoop_spec (layout : Layout b pre post q) (sizeEq : b.size = q.length)
    {rounds : Nat} {ret sendlen : Int} {script : List SysSend} {b' : LoopBuf} {outcome : Outcome}
    (returned : doSendLoop rounds ret sendlen b script = some (b', outcome)) :
    ∃ used pre' post', script = used ++ outcome.rest ∧ outcome.out = q.take (accepted used) ∧
      accepted used ≤ q.length ∧ Drained b pre post q (accepted used) b' pre' post' ∧
      (0 < ret → Accepts script → 0 < accepted used) := by
  induction rounds generalizing ret sendlen b pre post q script b' outcome with
  | zero =>
      rw [doSendLoop] at returned
      split_ifs at returned with enters
      rcases Prod.mk.inj (Option.some.inj returned) with ⟨rfl, rfl⟩
      exact ⟨[], pre, post, rfl, rfl, Nat.zero_le _, Drained.refl layout sizeEq,
        fun positive => absurd positive enters⟩
  | succ rounds ih =>
      rw [doSendLoop] at returned
      split_ifs at returned with enters
      · rcases Option.bind_eq_some_iff.mp returned with ⟨⟨taken, rest⟩, sendEq, returned⟩
        rcases send_spec sendEq with ⟨used, splitEq, bound, count⟩
        have inFrame : taken.toNat ≤ b.firstFrameLen := by omega
        have inside := Nat.le_trans inFrame (firstFrameLen_le layout)
        have starts : Accepts script → 0 < taken :=
          fun accepts => send_pos_of_accepts accepts sendEq
        by_cases fails : taken < 0
        · simp only [if_pos fails] at returned
          rcases Prod.mk.inj (Option.some.inj returned) with ⟨rfl, rfl⟩
          have none : accepted used = 0 := by omega
          refine ⟨used, pre, post, splitEq, ?_, ?_, ?_, fun _ accepts => ?_⟩
          · rw [none]
            rfl
          · rw [none]
            exact Nat.zero_le _
          · rw [none]
            exact Drained.refl layout sizeEq
          · have := starts accepts
            omega
        · rcases read_drained layout sizeEq inside with ⟨b₁, pre₁, post₁, readEq, drained⟩
          simp only [if_neg fails, readEq, Option.bind_some] at returned
          by_cases ends : taken < b.firstFrameLen
          · rw [if_pos ends] at returned
            rcases Prod.mk.inj (Option.some.inj returned) with ⟨rfl, rfl⟩
            refine ⟨used, pre₁, post₁, splitEq, ?_, ?_, ?_, fun _ accepts => ?_⟩
            · rw [count]
              exact firstFrameData_eq layout inFrame
            · rw [count]
              exact inside
            · rw [count]
              exact drained
            · have := starts accepts
              omega
          · rw [if_neg ends] at returned
            rcases Option.map_eq_some_iff.mp returned with ⟨⟨b₂, later⟩, loopEq, resultEq⟩
            rcases Prod.mk.inj resultEq with ⟨rfl, rfl⟩
            obtain ⟨used₂, pre₂, post₂, split₂, out₂, inside₂, drained₂, -⟩ :=
              ih drained.layout drained.size loopEq
            have total : accepted (used ++ used₂) = taken.toNat + accepted used₂ := by
              rw [accepted_append, count]
            refine ⟨used ++ used₂, pre₂, post₂, ?_, ?_, ?_, ?_, fun _ accepts => ?_⟩
            · rw [splitEq, split₂, List.append_assoc]
            · rw [total, List.take_add, ← out₂, ← firstFrameData_eq layout inFrame]
            · rw [List.length_drop] at inside₂
              omega
            · rw [total]
              exact drained.trans drained₂
            · have := starts accepts
              omega
      · rcases Prod.mk.inj (Option.some.inj returned) with ⟨rfl, rfl⟩
        exact ⟨[], pre, post, rfl, rfl, Nat.zero_le _, Drained.refl layout sizeEq,
          fun positive => absurd positive enters⟩

end Layout

/-! ## Runs -/

/-- No empty frame lies before the write position. -/
def Flows (b : LoopBuf) : Prop :=
  ∃ pre post q, Layout b pre post q ∧ b.size = q.length ∧ Flowing b pre

/-- The flush does not drain the write position of a longer list: there is a
single frame, or the socket takes less than is queued, or the frame at the write
position is empty already. -/
def KeepsHead (b : LoopBuf) (script : List SysSend) : Prop :=
  b.head = b.tail ∨ accepted script < b.size ∨ (b.mem b.wPos).size = 0

/-- Every flush keeps the head. -/
def keepsHead (s : Sender) : Call → Prop
  | .sendMessage _ _ _ => True
  | .handleWrite script _ => KeepsHead s.sendBuf script
  | .safeClose script _ => KeepsHead s.sendBuf script

/-- A flush of a non-empty buffer hands over at least one byte when the socket
accepts one, and takes off the buffer what it hands over; and it returns when the
socket takes some bytes and then blocks. -/
structure Progress (b : LoopBuf) : Prop where
  offers : 0 < b.size → 0 < b.firstFrameLen
  sends : 0 < b.size → ∀ script b' outcome, Accepts script →
    doSend b script = some (b', outcome) →
      0 < outcome.out.length ∧ b'.size + outcome.out.length = b.size
  returns : ∀ n errno, 0 < n → n ≤ b.firstFrameLen →
    ∃ b' outcome, doSend b [⟨some n, errno⟩, ⟨none, .eagain⟩] = some (b', outcome)

namespace Flows

variable {b : LoopBuf}

theorem init : Flows LoopBuf.init := by
  rcases represents_init with ⟨⟨pre, post, layout⟩, sizeEq⟩
  rcases layout.single rfl with ⟨rfl, rfl⟩
  exact ⟨[], [], [], layout, sizeEq, fun p member => absurd member List.not_mem_nil⟩

theorem autoResizeWrite (flows : Flows b) (src : Bytes) : Flows (b.autoResizeWrite src) := by
  rcases flows with ⟨pre, post, q, layout, sizeEq, flow⟩
  rcases layout.autoResizeWrite src with ⟨pre', post', layout', size', flow'⟩
  refine ⟨pre', post', _, layout', ?_, flow' flow⟩
  rw [size', sizeEq, List.length_append, List.length_take]
  exact congrArg _ (Nat.min_eq_left (Nat.min_le_left _ _)).symm

/-- The step lemma for a flush. -/
theorem doSend (flows : Flows b) {script : List SysSend} {b' : LoopBuf} {outcome : Outcome}
    (keeps : KeepsHead b script) (returned : Connection.doSend b script = some (b', outcome))
    (exact' : outcome.rest = []) : Flows b' := by
  rcases flows with ⟨pre, post, q, layout, sizeEq, flow⟩
  rcases doSendLoop_spec layout sizeEq returned with ⟨used, pre', post', splitEq, -, -, drained, -⟩
  refine ⟨pre', post', _, drained.layout, drained.size, drained.flowing flow ?_⟩
  rw [exact', List.append_nil] at splitEq
  rw [← splitEq, ← sizeEq]
  rcases keeps with same | short | empty
  · exact Or.inr (Or.inr (layout.single same))
  · exact Or.inl short
  · exact Or.inr (Or.inl empty)

theorem progress (flows : Flows b) : Progress b := by
  rcases flows with ⟨pre, post, q, layout, sizeEq, flow⟩
  have offers : 0 < b.size → 0 < b.firstFrameLen := fun nonempty =>
    firstFrameLen_pos layout flow (sizeEq ▸ nonempty)
  refine ⟨offers, ?_, ?_⟩
  · intro nonempty script b' outcome accepts returned
    obtain ⟨used, pre', post', splitEq, outEq, inside, drained, positive⟩ :=
      doSendLoop_spec layout sizeEq returned
    have outLength : outcome.out.length = accepted used := by
      rw [outEq, List.length_take, Nat.min_eq_left inside]
    rw [outLength, drained.size, List.length_drop, sizeEq]
    refine ⟨positive ?_ accepts, Nat.sub_add_cancel inside⟩
    exact Int.natCast_pos.mpr (offers nonempty)
  · intro n errno positive inFrame
    obtain ⟨b₁, pre₁, post₁, readEq, drained⟩ := read_drained layout sizeEq
      (Nat.le_trans inFrame (firstFrameLen_le layout))
    obtain ⟨b₂, pre₂, post₂, restEq, -⟩ := read_drained drained.layout drained.size (Nat.zero_le _)
    have enters : 0 < (b.firstFrameLen : Int) := by omega
    have more : 0 < (n : Int) := by omega
    rw [Connection.doSend, List.length_cons, doSendLoop, if_pos enters,
      send_took positive inFrame, Option.bind_some]
    simp only [if_neg (Int.not_lt.mpr (Int.natCast_nonneg n)), Int.toNat_natCast, readEq,
      Option.bind_some]
    by_cases ends : (n : Int) < b.firstFrameLen
    · rw [if_pos ends]
      exact ⟨_, _, rfl⟩
    · rw [if_neg ends, List.length_singleton, doSendLoop, if_pos more, send_blocked,
        Option.bind_some]
      simp only [Int.lt_irrefl, if_false, Int.toNat_zero, restEq, Option.bind_some]
      by_cases offered : (0 : Int) < b₁.firstFrameLen
      · rw [if_pos offered]
        exact ⟨_, _, rfl⟩
      · rw [if_neg offered, doSendLoop, if_neg (Int.lt_irrefl 0)]
        exact ⟨_, _, rfl⟩

end Flows

/-- What `sendMessage` does to the buffer. -/
theorem sendBuf_sendMessage {s s' : Sender} {msg : Bytes} {script : List SysSend}
    {epollCtl : Bool} {outcome : Outcome}
    (returned : s.sendMessage msg script epollCtl = some (s', outcome)) :
    s'.sendBuf = s.sendBuf ∨ ∃ rest, s'.sendBuf = s.sendBuf.autoResizeWrite rest := by
  rw [Sender.sendMessage] at returned
  by_cases watched : s.noti &&& writeEvent ≠ 0
  · rw [if_pos watched] at returned
    rcases Prod.mk.inj (Option.some.inj returned) with ⟨rfl, -⟩
    exact Or.inr ⟨msg, rfl⟩
  · rw [if_neg watched] at returned
    rcases Option.map_eq_some_iff.mp returned with ⟨⟨ret, rest⟩, -, resultEq⟩
    simp only at resultEq
    split_ifs at resultEq with fails all
    · rcases Prod.mk.inj resultEq with ⟨rfl, -⟩
      exact Or.inl rfl
    · rcases Prod.mk.inj resultEq with ⟨rfl, -⟩
      exact Or.inl rfl
    · rcases Prod.mk.inj resultEq with ⟨rfl, -⟩
      refine Or.inr ⟨msg.drop ret.toNat, ?_⟩
      cases epollCtl <;> rfl

/-- What `handleWrite` does to the buffer. -/
theorem sendBuf_handleWrite {s s' : Sender} {script : List SysSend} {epollCtl : Bool}
    {outcome : Outcome} (returned : s.handleWrite script epollCtl = some (s', outcome)) :
    ∃ flushed, doSend s.sendBuf script = some (s'.sendBuf, flushed) ∧
      flushed.rest = outcome.rest := by
  rcases Option.map_eq_some_iff.mp returned with ⟨⟨b, flushed⟩, flushEq, resultEq⟩
  simp only at resultEq
  split_ifs at resultEq with fails empty closing
  · rcases Prod.mk.inj resultEq with ⟨rfl, rfl⟩
    exact ⟨flushed, flushEq, rfl⟩
  · rcases Prod.mk.inj resultEq with ⟨rfl, rfl⟩
    exact ⟨flushed, flushEq, rfl⟩
  · rcases Prod.mk.inj resultEq with ⟨rfl, rfl⟩
    refine ⟨flushed, ?_, rfl⟩
    cases epollCtl <;> exact flushEq
  · rcases Prod.mk.inj resultEq with ⟨rfl, rfl⟩
    exact ⟨flushed, flushEq, rfl⟩

/-- What `safeClose` does to the buffer. -/
theorem sendBuf_safeClose {s s' : Sender} {script : List SysSend} {epollCtl : Bool}
    {outcome : Outcome} (returned : s.safeClose script epollCtl = some (s', outcome)) :
    doSend s.sendBuf script = some (s'.sendBuf, outcome) := by
  rw [Sender.safeClose] at returned
  split_ifs at returned with empty
  rcases Option.map_eq_some_iff.mp returned with ⟨⟨b, flushed⟩, flushEq, resultEq⟩
  rcases Prod.mk.inj resultEq with ⟨rfl, rfl⟩
  cases epollCtl <;> exact flushEq

/-- The step lemma. -/
theorem flows_step {s s' : Sender} {call : Call} (flows : Flows s.sendBuf)
    (keeps : keepsHead s call) (taken : step s call s') : Flows s'.sendBuf := by
  rcases taken with ⟨outcome, returned, finished⟩
  cases call with
  | sendMessage msg script epollCtl =>
      rcases sendBuf_sendMessage returned with same | ⟨rest, queued⟩
      · rw [same]
        exact flows
      · rw [queued]
        exact flows.autoResizeWrite rest
  | handleWrite script epollCtl =>
      rcases sendBuf_handleWrite returned with ⟨flushed, flushEq, restEq⟩
      exact flows.doSend keeps flushEq (restEq.trans finished)
  | safeClose script epollCtl =>
      exact flows.doSend keeps (sendBuf_safeClose returned) finished

/-- In every run whose flushes keep the head, a connection with pending output
does not stall. -/
theorem progress_of_keepsHead {calls : List Call} {s : Sender}
    (run : Run step keepsHead Sender.init calls s) : Progress s.sendBuf := by
  have flows : Flows s.sendBuf := by
    induction run with
    | refl => exact Flows.init
    | snoc _ allowed taken ih => exact flows_step ih allowed taken
  exact flows.progress

/-! ## Executed runs -/

/-- The step of a call as a function. -/
def next (s : Sender) (call : Call) : Option Sender :=
  (s.exec call).bind fun (s', outcome) => if outcome.rest.isEmpty then some s' else none

theorem step_of_next {s s' : Sender} {call : Call} (executed : next s call = some s') :
    step s call s' := by
  rcases Option.bind_eq_some_iff.mp executed with ⟨⟨s₁, outcome⟩, execEq, kept⟩
  simp only at kept
  split_ifs at kept with finished
  obtain rfl := Option.some.inj kept
  exact ⟨outcome, execEq, List.isEmpty_iff.mp finished⟩

instance (b : LoopBuf) (script : List SysSend) : Decidable (KeepsHead b script) :=
  inferInstanceAs (Decidable (_ ∨ _ ∨ _))

instance (s : Sender) : (call : Call) → Decidable (keepsHead s call)
  | .sendMessage _ _ _ => inferInstanceAs (Decidable True)
  | .handleWrite script _ => inferInstanceAs (Decidable (KeepsHead s.sendBuf script))
  | .safeClose script _ => inferInstanceAs (Decidable (KeepsHead s.sendBuf script))

/-- Executing calls. -/
theorem run_of_foldlM {s : Sender} {calls : List Call}
    (executed : calls.foldlM next Sender.init = some s) : Run step anyStep Sender.init calls s := by
  refine Run.of_foldlM (fun s call s' executed => ?_) executed
  exact ⟨trivial, step_of_next executed⟩

/-- Executing calls that meet the guard. -/
theorem keptRun_of_foldlM {s : Sender} {calls : List Call}
    (executed : calls.foldlM (fun s call => if keepsHead s call then next s call else none)
      Sender.init = some s) : Run step keepsHead Sender.init calls s := by
  refine Run.of_foldlM (fun s call s' executed => ?_) executed
  split_ifs at executed with keeps
  exact ⟨keeps, step_of_next executed⟩

/-- Five bytes are queued and two of them flushed. -/
def partialFlush : List Call :=
  [.sendMessage [1, 2, 3, 4, 5] [⟨none, .eagain⟩] true, .handleWrite [⟨some 2, .eagain⟩] true]

theorem progress_of_keepsHead_partialFlush :
    ∃ s, Run step keepsHead Sender.init partialFlush s ∧ s.sendBuf.size = 3 ∧
      0 < s.sendBuf.firstFrameLen := by
  have played : (partialFlush.foldlM
      (fun s call => if keepsHead s call then next s call else none) Sender.init).any
      (fun s => s.sendBuf.size == 3) = true := by
    decide +kernel
  rcases (Option.any_eq_true _ _).mp played with ⟨s, executed, sizeEq⟩
  have run := keptRun_of_foldlM executed
  have size : s.sendBuf.size = 3 := beq_iff_eq.mp sizeEq
  exact ⟨s, run, size, (progress_of_keepsHead run).offers (by omega)⟩

/-- An empty first frame stops every flush. -/
theorem doSend_of_firstFrameLen_zero {b : LoopBuf} (empty : b.firstFrameLen = 0)
    (script : List SysSend) : doSend b script = some (b, ⟨0, [], script⟩) := by
  unfold doSend doSendLoop
  exact if_neg (by simp [empty])

/-- A message one byte longer than a frame is queued and flushed, which leaves the
write position in the second of two empty frames.  Then another message comes. -/
def drainedWrite : List Call :=
  [.sendMessage (List.replicate 2017 0) [⟨none, .eagain⟩] true,
    .handleWrite [⟨some 2016, .eagain⟩, ⟨some 1, .eagain⟩, ⟨some 0, .eagain⟩] true,
    .sendMessage [1, 2, 3, 4, 5] [⟨none, .eagain⟩] true]

/-- The second message is stuck. -/
theorem stalls_after_drainedWrite :
    ∃ s, Run step anyStep Sender.init drainedWrite s ∧ s.sendBuf.size = 5 ∧
      s.sendBuf.firstFrameLen = 0 ∧ ¬ Progress s.sendBuf ∧
      ∀ script, doSend s.sendBuf script = some (s.sendBuf, ⟨0, [], script⟩) := by
  have played : (drainedWrite.foldlM next Sender.init).any
      (fun s => s.sendBuf.size == 5 && s.sendBuf.firstFrameLen == 0) = true := by
    decide +kernel
  rcases (Option.any_eq_true _ _).mp played with ⟨s, executed, facts⟩
  rcases (Bool.and_eq_true _ _).mp facts with ⟨size, empty⟩
  rw [beq_iff_eq] at size empty
  refine ⟨s, run_of_foldlM executed, size, empty, fun progress => ?_,
    doSend_of_firstFrameLen_zero empty⟩
  have offered := progress.offers (by omega)
  omega

end GPush.Connection
