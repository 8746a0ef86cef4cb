import GPush.Connection.Flush
import GPush.LoopBuf.Termination

/-!
# The flush and `errno`

`send_` looks at `errno` whenever `send` does not return a positive number.  A
call that offers no byte returns 0 and leaves `errno` as it was, so what `send_`
then does depends on a value that an earlier call left behind.  Here `errno` is
part of the state, and `doSend` meets such a call after it has flushed all it
could.
-/

namespace GPush.Connection.StaleErrno

open GPush.LoopBuf GPush.Transition

/-! ## The model -/

/-- What `send` does when it is offered at least one byte: it takes as many as
there is room for, or fails. -/
inductive SysResult
  | room (n : Nat) (positive : 0 < n)
  | fails (errno : Errno)

/-- `send` of `len` bytes: what it returns, `errno` afterwards and the results of
later calls.  Behind the end of the script the socket has no room. -/
def sysSend (len : Nat) (errno : Errno) : List SysResult → Int × Errno × List SysResult
  | script =>
      if len = 0 then
        (0, errno, script)
      else
        match script with
        | [] => (-1, .eagain, [])
        | .room n _ :: script => (min n len, errno, script)
        | .fails errno :: script => (-1, errno, script)

/-- `Connection::send_` within a number of system calls. -/
def send_ (len : Nat) : Nat → Errno → List SysResult → Option (Int × Errno × List SysResult)
  | 0, _, _ => none
  | rounds + 1, errno, script =>
      let (ret, errno, script) := sysSend len errno script
      if 0 < ret then
        some (ret, errno, script)
      else
        match errno with
        | .eintr => send_ len rounds errno script
        | .eagain => some (0, errno, script)
        | .other => some (-1, errno, script)

/-- What a flush leaves: the send buffer, the value returned and the bytes that
the socket has taken. -/
structure Flush where
  buf : LoopBuf
  ret : Int
  out : Bytes

/-- The loop of `Connection::doSend`. -/
def doSendLoop : Nat → Int → Int → LoopBuf → Errno → List SysResult → Option Flush
  | rounds, ret, sendlen, b, errno, script =>
      if 0 < ret then
        match rounds with
        | 0 => none
        | rounds + 1 =>
            (send_ b.firstFrameLen rounds errno script).bind fun (ret, errno, script) =>
              if ret < 0 then
                some ⟨b, ret, []⟩
              else
                (b.read ret.toNat).bind fun (drained, _) =>
                  let out := b.firstFrameData ret.toNat
                  if ret < b.firstFrameLen then
                    some ⟨drained, sendlen + ret, out⟩
                  else
                    (doSendLoop rounds ret (sendlen + ret) drained errno script).map fun later =>
                      { later with out := out ++ later.out }
      else
        some ⟨b, sendlen, []⟩

/-- `Connection::doSend` within a number of rounds. -/
def doSend (rounds : Nat) (b : LoopBuf) (errno : Errno) (script : List SysResult) :
    Option Flush :=
  doSendLoop rounds b.firstFrameLen 0 b errno script

/-- `Connection::handleWrite`. -/
def handleWrite (rounds : Nat) (s : Sender) (errno : Errno) (script : List SysResult)
    (epollCtl : Bool) : Option (Sender × Int) :=
  (doSend rounds s.sendBuf errno script).map fun flush =>
    let flushed := { s with sendBuf := flush.buf }
    if flush.ret < 0 then
      (flushed, flush.ret)
    else if flush.buf.size = 0 then
      if s.flag = .safeClose then
        (flushed, -2)
      else
        (flushed.modifyNotify readEvent epollCtl, flush.ret)
    else
      (flushed, flush.ret)

/-- `Connection::safeClose` with data to send; `errno` is the value that its calls
before `doSend` leave. -/
def safeClose (rounds : Nat) (s : Sender) (errno : Errno) (script : List SysResult)
    (epollCtl : Bool) : Option (Sender × Int) :=
  let closing := { s.modifyNotify writeEvent epollCtl with flag := .safeClose }
  (doSend rounds closing.sendBuf errno script).map fun flush =>
    ({ closing with sendBuf := flush.buf }, flush.ret)

/-- The connection survives its flush: `doSend` ends and returns the number of
bytes sent, `handleWrite` closes the connection only when `safeClose` has asked
for that and everything is flushed, and `safeClose` does not report failure. -/
def SurvivesFlush (s : Sender) (errno : Errno) (script : List SysResult) (epollCtl : Bool) :
    Prop :=
  (∃ rounds flush, doSend rounds s.sendBuf errno script = some flush ∧
    flush.ret = flush.out.length) ∧
  (∃ rounds s' ret, handleWrite rounds s errno script epollCtl = some (s', ret) ∧
    (0 ≤ ret ∨ s.flag = .safeClose ∧ s'.sendBuf.size = 0)) ∧
  ∃ rounds s' ret, safeClose rounds s errno script epollCtl = some (s', ret) ∧ 0 ≤ ret

/-! ## The first frames -/

/-- The loop of `leading`. -/
def leadingLoop : Nat → Ptr → LoopBuf → List Nat
  | 0, _, _ => []
  | rounds + 1, f, b =>
      if f ≠ null ∧ 0 < (b.mem f).size then
        (b.mem f).size :: leadingLoop rounds (b.mem f).next b
      else
        []

/-- The sizes of the frames before the first empty one. -/
def leading (b : LoopBuf) : List Nat := leadingLoop b.brk b.head b

/-- The sizes of the frames at `ps` before the first empty one. -/
def filled (mem : Ptr → Frame) (ps : List Ptr) : List Nat :=
  (ps.map fun p => (mem p).size).takeWhile fun size => decide (0 < size)

theorem leadingLoop_eq {b : LoopBuf} (todo : List Ptr) {f : Ptr} (linked : Linked b.mem todo)
    (start : todo.headD null = f) (nonnull : ∀ p ∈ todo, p ≠ null) {rounds : Nat}
    (enough : todo.length ≤ rounds) : leadingLoop rounds f b = filled b.mem todo := by
  induction todo generalizing f rounds with
  | nil =>
      subst start
      cases rounds <;> rfl
  | cons p todo ih =>
      change p = f at start
      subst f
      obtain ⟨rounds, rfl⟩ := Nat.exists_eq_succ_of_ne_zero (Nat.ne_zero_of_lt enough)
      have rest := ih linked.2 linked.1.symm
        (fun r member => nonnull r (List.mem_cons_of_mem p member)) (Nat.succ_le_succ_iff.mp enough)
      by_cases positive : 0 < (b.mem p).size
      · rw [leadingLoop, if_pos ⟨nonnull p List.mem_cons_self, positive⟩, rest]
        simp [filled, positive]
      · rw [leadingLoop, if_neg fun both => positive both.2]
        simp [filled, positive]

section Layout

variable {b : LoopBuf} {pre post : List Ptr} {q : Bytes}

theorem leading_eq (layout : Layout b pre post q) :
    leading b = filled b.mem (pre ++ b.wPos :: post) := by
  have headEq := layout.chain.head
  apply leadingLoop_eq _ layout.chain.linked ?_ layout.chain.nonnull
    (Nat.le_of_lt layout.chain.length_lt_brk)
  rw [List.headD_eq_head?_getD, headEq, Option.getD_some]

/-- The first frame is empty exactly when no frame leads. -/
theorem leading_eq_nil_iff (layout : Layout b pre post q) :
    leading b = [] ↔ b.firstFrameLen = 0 := by
  obtain ⟨rest, listEq⟩ := List.head?_eq_some_iff.mp layout.chain.head
  rw [leading_eq layout, listEq, firstFrameLen]
  by_cases positive : 0 < (b.mem b.head).size
  · simp [filled, positive, Nat.ne_of_gt positive]
  · simp [filled, Nat.eq_zero_of_not_pos positive]

/-- A read of the whole first frame leaves the other leading frames. -/
theorem read_leading (layout : Layout b pre post q) (sizeEq : b.size = q.length) {size : Nat}
    {sizes : List Nat} (leads : leading b = size :: sizes) :
    b.firstFrameLen = size ∧ 0 < size ∧
      ∃ b' pre' post' q' out, b.read size = some (b', out) ∧ Layout b' pre' post' q' ∧
        b'.size = q'.length ∧ leading b' = sizes := by
  obtain ⟨rest, listEq⟩ := List.head?_eq_some_iff.mp layout.chain.head
  rw [leading_eq layout, listEq] at leads
  have positive : 0 < (b.mem b.head).size := by
    by_contra empty
    simp [filled, empty] at leads
  obtain ⟨rfl, restEq⟩ : (b.mem b.head).size = size ∧ filled b.mem rest = sizes := by
    simpa [filled, positive] using leads
  obtain ⟨b', pre', post', out, readEq, layout', size', newEq, drained, kept⟩ :=
    layout.read_firstFrame listEq positive
  refine ⟨rfl, positive, b', pre', post', _, out, readEq, layout', ?_, ?_⟩
  · rw [size', sizeEq, List.length_drop]
  · have others : rest.map (fun p => (b'.mem p).size) = rest.map fun p => (b.mem p).size := by
      apply List.map_congr_left
      intro p member
      apply kept
      rintro rfl
      exact (List.nodup_cons.mp (listEq ▸ layout.chain.nodup)).1 member
    rw [leading_eq layout', newEq, ← restEq, filled, filled, List.map_append, others,
      List.takeWhile_append]
    split
    · rename_i all
      have whole := (List.takeWhile_prefix _).eq_of_length all
      simp [drained, whole]
    · rfl

end Layout

/-! ## One call of `send_` -/

/-- What `send_` of at least one byte answers in the end. -/
def answer (len : Nat) : Errno → List SysResult → Int × Errno × List SysResult
  | _, [] => (0, .eagain, [])
  | errno, .room n _ :: script => (min n len, errno, script)
  | _, .fails .eintr :: script => answer len .eintr script
  | _, .fails .eagain :: script => (0, .eagain, script)
  | _, .fails .other :: script => (-1, .other, script)

theorem send_eq_answer {len : Nat} (positive : 0 < len) {rounds : Nat} (errno : Errno)
    {script : List SysResult} (enough : script.length < rounds) :
    send_ len rounds errno script = some (answer len errno script) := by
  induction script generalizing rounds errno with
  | nil =>
      obtain ⟨rounds, rfl⟩ := Nat.exists_eq_succ_of_ne_zero (Nat.ne_zero_of_lt enough)
      simp [send_, sysSend, answer, Nat.ne_of_gt positive]
  | cons result script ih =>
      obtain ⟨rounds, rfl⟩ := Nat.exists_eq_succ_of_ne_zero (Nat.ne_zero_of_lt enough)
      rcases result with ⟨n, roomy⟩ | errno
      · have takes : 0 < min (n : Int) len := by omega
        rw [send_, sysSend, if_neg (Nat.ne_of_gt positive)]
        simp only [if_pos takes, answer]
      · cases errno with
        | eintr =>
            have rest := ih .eintr (Nat.succ_lt_succ_iff.mp enough)
            simpa [send_, sysSend, answer, Nat.ne_of_gt positive] using rest
        | eagain => simp [send_, sysSend, answer, Nat.ne_of_gt positive]
        | other => simp [send_, sysSend, answer, Nat.ne_of_gt positive]

/-- A longer wait does not change what `send_` answers. -/
theorem send_mono {len rounds : Nat} {errno : Errno} {script : List SysResult}
    {result : Int × Errno × List SysResult} (answered : send_ len rounds errno script = some result) :
    send_ len (rounds + 1) errno script = some result := by
  induction rounds generalizing errno script with
  | zero => simp [send_] at answered
  | succ rounds ih =>
      rw [send_] at answered ⊢
      generalize sysSend len errno script = call at answered ⊢
      rcases call with ⟨ret, errno, script⟩
      by_cases positive : 0 < ret
      · simpa only [if_pos positive] using answered
      · simp only [if_neg positive] at answered ⊢
        cases errno with
        | eintr => exact ih answered
        | eagain => exact answered
        | other => exact answered

theorem send_of_some {len rounds : Nat} (positive : 0 < len) {errno : Errno}
    {script : List SysResult} {result : Int × Errno × List SysResult}
    (answered : send_ len rounds errno script = some result) : result = answer len errno script := by
  have later : ∀ more, send_ len (rounds + more) errno script = some result := by
    intro more
    induction more with
    | zero => exact answered
    | succ more ih => exact send_mono ih
  have settled : send_ len (rounds + (script.length + 1)) errno script =
      some (answer len errno script) := send_eq_answer positive errno (by omega)
  exact Option.some.inj ((later _).symm.trans settled)

/-- With no byte to offer, `send_` does what `errno` says, and an `EINTR` from
before keeps it calling for ever. -/
theorem send_nothing (rounds : Nat) (errno : Errno) (script : List SysResult) :
    send_ 0 (rounds + 1) errno script =
      match errno with
      | .eintr => none
      | .eagain => some (0, errno, script)
      | .other => some (-1, errno, script) := by
  cases errno with
  | eagain => rfl
  | other => rfl
  | eintr =>
      induction rounds with
      | zero => rfl
      | succ rounds ih =>
          rw [send_]
          exact ih

/-! ## Scripts -/

/-- No call fails with an error other than `EINTR`, `EAGAIN` or `EWOULDBLOCK`. -/
def Healthy (script : List SysResult) : Prop := ∀ result ∈ script, result ≠ .fails .other

/-- The socket takes frames of these sizes, one after the other, each whole. -/
def TakesEach : List Nat → List SysResult → Prop
  | [], _ => True
  | _ :: _, [] => False
  | size :: sizes, .room n _ :: script => size ≤ n ∧ TakesEach sizes script
  | size :: sizes, .fails errno :: script => errno = .eintr ∧ TakesEach (size :: sizes) script

@[simp]
theorem takesEach_nil (script : List SysResult) : TakesEach [] script := by
  simp [TakesEach]

/-- None of the first `count` calls is interrupted. -/
def Uninterrupted (count : Nat) (script : List SysResult) : Prop :=
  ∀ result ∈ script.take count, result ≠ .fails .eintr

/-- A flush of leading frames of these sizes does not come to an empty frame with
a stale `errno`: it stops before, or `errno` has been `EAGAIN` all the time. -/
def Spared (sizes : List Nat) (errno : Errno) (script : List SysResult) : Prop :=
  ¬ TakesEach sizes script ∨ errno = .eagain ∧ Uninterrupted sizes.length script

theorem answer_spec (len : Nat) (errno : Errno) {script : List SysResult}
    (healthy : Healthy script) :
    0 ≤ (answer len errno script).1 ∧ (answer len errno script).1 ≤ len ∧
      Healthy (answer len errno script).2.2 ∧
      (0 < (answer len errno script).1 → (answer len errno script).2.2.length < script.length) := by
  induction script generalizing errno with
  | nil => simp [answer, healthy]
  | cons result script ih =>
      have later : Healthy script := fun r member => healthy r (List.mem_cons_of_mem _ member)
      rcases result with ⟨n, roomy⟩ | failure
      · simp only [answer, List.length_cons]
        exact ⟨by omega, by omega, later, fun _ => Nat.lt_succ_self _⟩
      · cases failure with
        | eintr =>
            have ⟨nonneg, bound, healthy', shorter⟩ := ih .eintr later
            exact ⟨nonneg, bound, healthy', fun took => Nat.lt_succ_of_lt (shorter took)⟩
        | eagain => simp [answer, later]
        | other => exact absurd rfl (healthy _ List.mem_cons_self)

theorem takesEach_cons_iff {size : Nat} (positive : 0 < size) (sizes : List Nat) (errno : Errno)
    (script : List SysResult) :
    TakesEach (size :: sizes) script ↔ (answer size errno script).1 = size ∧
      TakesEach sizes (answer size errno script).2.2 := by
  induction script generalizing errno with
  | nil =>
      simp only [TakesEach, answer, false_iff, not_and]
      omega
  | cons result script ih =>
      rcases result with ⟨n, roomy⟩ | failure
      · simp only [TakesEach, answer]
        refine and_congr_left fun _ => ?_
        omega
      · cases failure with
        | eintr => simpa only [TakesEach, true_and, answer] using ih .eintr
        | eagain =>
            simp only [TakesEach, answer, reduceCtorEq, false_and, false_iff, not_and]
            omega
        | other => simp [TakesEach, answer]

/-- Over a call that takes bytes `errno` changes only to `EINTR`. -/
theorem answer_errno {size : Nat} (errno : Errno) {script : List SysResult}
    (took : 0 < (answer size errno script).1) :
    (answer size errno script).2.1 = errno ∨ (answer size errno script).2.1 = .eintr := by
  induction script generalizing errno with
  | nil => simp [answer] at took
  | cons result script ih =>
      rcases result with ⟨n, roomy⟩ | failure
      · exact Or.inl rfl
      · cases failure with
        | eintr => exact Or.inr ((ih .eintr took).elim id id)
        | eagain => simp [answer] at took
        | other => simp [answer] at took

theorem uninterrupted_cons_iff {size count : Nat} {errno : Errno} {script : List SysResult}
    (took : 0 < (answer size errno script).1) :
    (answer size errno script).2.1 = .eagain ∧
        Uninterrupted count (answer size errno script).2.2 ↔
      errno = .eagain ∧ Uninterrupted (count + 1) script := by
  cases script with
  | nil => simp [answer] at took
  | cons result script =>
      rcases result with ⟨n, roomy⟩ | failure
      · simp [answer, Uninterrupted]
      · cases failure with
        | eintr =>
            have stays : (answer size .eintr script).2.1 = .eintr :=
              (answer_errno .eintr took).elim id id
            simp [answer, Uninterrupted, stays]
        | eagain => simp [answer] at took
        | other => simp [answer] at took

/-- What is left to flush after a whole frame is spared when the whole is. -/
theorem spared_cons_iff {size : Nat} (positive : 0 < size) {sizes : List Nat} {errno : Errno}
    {script : List SysResult} (whole : (answer size errno script).1 = size) :
    Spared (size :: sizes) errno script ↔
      Spared sizes (answer size errno script).2.1 (answer size errno script).2.2 := by
  have took : 0 < (answer size errno script).1 := by omega
  rw [Spared, Spared, takesEach_cons_iff positive sizes errno, List.length_cons,
    uninterrupted_cons_iff took]
  simp [whole]

/-! ## The flush -/

section Layout

variable {b : LoopBuf} {pre post : List Ptr} {q : Bytes}

theorem length_firstFrameData {n : Nat} (inside : n ≤ b.firstFrameLen) :
    (b.firstFrameData n).length = n := by
  have fits := (b.mem b.head).fits
  rw [firstFrameLen] at inside
  rw [firstFrameData, List.length_take, List.length_drop]
  omega

/-- The round that offers the socket an empty frame. -/
private theorem doSendLoop_nothing (layout : Layout b pre post q) (empty : b.firstFrameLen = 0)
    {ret : Int} (sendlen : Int) (enters : 0 < ret) (errno : Errno) (script : List SysResult) :
    ∃ b', ∀ rounds, doSendLoop (rounds + 2) ret sendlen b errno script =
      match errno with
      | .eintr => none
      | .eagain => some ⟨b', sendlen, []⟩
      | .other => some ⟨b, -1, []⟩ := by
  obtain ⟨b', pre', post', readEq, -⟩ := layout.read (Or.inl (Nat.zero_le q.length))
  refine ⟨b', fun rounds => ?_⟩
  rw [doSendLoop, if_pos enters, empty]
  simp only [send_nothing]
  cases errno with
  | eintr => rfl
  | other => rfl
  | eagain =>
      simp only [Option.bind_some, Int.lt_irrefl, if_false, Int.toNat_zero, readEq,
        Int.add_zero, Int.ofNat_zero]
      rw [doSendLoop, if_neg (by decide)]
      simp [firstFrameData]

/-- The round that offers the socket a frame with data. -/
private theorem doSendLoop_frame (layout : Layout b pre post q) (sizeEq : b.size = q.length)
    {size : Nat} {sizes : List Nat} (leads : leading b = size :: sizes) {ret : Int} (sendlen : Int)
    (enters : 0 < ret) {errno : Errno} {script : List SysResult} (healthy : Healthy script) :
    ∃ b', (∃ pre' post' q', Layout b' pre' post' q' ∧ b'.size = q'.length ∧
        ((answer size errno script).1 = size → leading b' = sizes)) ∧
      ∀ rounds, send_ size rounds errno script = some (answer size errno script) →
        doSendLoop (rounds + 1) ret sendlen b errno script =
          if (answer size errno script).1 < size then
            some ⟨b', sendlen + (answer size errno script).1,
              b.firstFrameData (answer size errno script).1.toNat⟩
          else
            (doSendLoop rounds size (sendlen + size) b' (answer size errno script).2.1
              (answer size errno script).2.2).map fun later =>
                { later with out := b.firstFrameData size ++ later.out } := by
  obtain ⟨firstEq, positive, b₁, pre₁, post₁, q₁, out₁, readEq, layout₁, size₁, leads₁⟩ :=
    read_leading layout sizeEq leads
  obtain ⟨nonneg, bound, -, -⟩ := answer_spec size errno healthy
  by_cases short : (answer size errno script).1 < size
  · have inFrame : (answer size errno script).1.toNat ≤ b.firstFrameLen := by omega
    have inside := Nat.le_trans inFrame (firstFrameLen_le layout)
    obtain ⟨b', pre', post', readShort, drained⟩ := read_drained layout sizeEq inside
    refine ⟨b', ⟨pre', post', _, drained.layout, drained.size, fun whole => ?_⟩, ?_⟩
    · exact absurd whole (Int.ne_of_lt short)
    · intro rounds answered
      rw [doSendLoop, if_pos enters, firstEq, answered]
      simp only [Option.bind_some, if_neg (Int.not_lt.mpr nonneg), readShort, if_pos short]
  · have whole : (answer size errno script).1 = size := by omega
    refine ⟨b₁, ⟨pre₁, post₁, q₁, layout₁, size₁, fun _ => leads₁⟩, ?_⟩
    intro rounds answered
    rw [doSendLoop, if_pos enters, firstEq, answered]
    simp only [Option.bind_some, whole, if_neg (Int.not_lt.mpr (Int.natCast_nonneg size)),
      Int.toNat_natCast, readEq, Int.lt_irrefl, if_false]

/-- A spared flush ends with the number of bytes sent. -/
private theorem doSendLoop_of_spared (sizes : List Nat) (layout : Layout b pre post q)
    (sizeEq : b.size = q.length) (leads : leading b = sizes) {errno : Errno}
    {script : List SysResult} (healthy : Healthy script) (spared : Spared sizes errno script)
    {ret : Int} (sendlen : Int) (enters : 0 < ret) :
    ∃ flush, flush.ret = sendlen + flush.out.length ∧ ∀ rounds, script.length + 2 ≤ rounds →
      doSendLoop rounds ret sendlen b errno script = some flush := by
  induction sizes generalizing b pre post q errno script ret sendlen with
  | nil =>
      have empty := (leading_eq_nil_iff layout).mp leads
      have blocked : errno = .eagain :=
        (spared.resolve_left fun stops => stops (takesEach_nil script)).1
      subst blocked
      obtain ⟨b', endEq⟩ := doSendLoop_nothing layout empty sendlen enters .eagain script
      refine ⟨⟨b', sendlen, []⟩, by simp, fun rounds enough => ?_⟩
      obtain ⟨rounds, rfl⟩ := Nat.exists_eq_add_of_le' (Nat.le_trans (Nat.le_add_left 2 _) enough)
      exact endEq rounds
  | cons size sizes ih =>
      obtain ⟨firstEq, positive, -⟩ := read_leading layout sizeEq leads
      obtain ⟨nonneg, bound, healthy', shorter⟩ :=
        answer_spec size errno healthy
      obtain ⟨b', ⟨pre', post', q', layout', size', leads'⟩, roundEq⟩ :=
        doSendLoop_frame layout sizeEq leads sendlen enters healthy
      by_cases short : (answer size errno script).1 < size
      · refine ⟨⟨b', sendlen + (answer size errno script).1,
          b.firstFrameData (answer size errno script).1.toNat⟩, ?_, fun rounds enough => ?_⟩
        · rw [length_firstFrameData (by omega), Int.toNat_of_nonneg nonneg]
        · obtain ⟨rounds, rfl⟩ := Nat.exists_eq_succ_of_ne_zero (Nat.ne_zero_of_lt enough)
          rw [roundEq rounds (send_eq_answer positive errno (by omega)), if_pos short]
      · have whole : (answer size errno script).1 = size := by omega
        obtain ⟨later, laterRet, laterEq⟩ := ih layout' size' (leads' whole) healthy'
          ((spared_cons_iff positive whole).mp spared) (sendlen + size)
          (Int.natCast_pos.mpr positive)
        refine ⟨{ later with out := b.firstFrameData size ++ later.out }, ?_, fun rounds enough => ?_⟩
        · rw [List.length_append, length_firstFrameData (Nat.le_of_eq firstEq.symm), laterRet]
          omega
        · obtain ⟨rounds, rfl⟩ := Nat.exists_eq_succ_of_ne_zero (Nat.ne_zero_of_lt enough)
          have fewer := shorter (by omega)
          rw [roundEq rounds (send_eq_answer positive errno (by omega)), if_neg short,
            laterEq rounds (by omega)]
          rfl

/-- A flush that is not spared returns -1 or does not end. -/
private theorem doSendLoop_of_not_spared (sizes : List Nat) (layout : Layout b pre post q)
    (sizeEq : b.size = q.length) (leads : leading b = sizes) {errno : Errno}
    {script : List SysResult} (healthy : Healthy script) (stale : ¬ Spared sizes errno script)
    {ret sendlen : Int} (enters : 0 < ret) (rounds : Nat) {flush : Flush}
    (returned : doSendLoop rounds ret sendlen b errno script = some flush) : flush.ret = -1 := by
  induction sizes generalizing b pre post q errno script ret sendlen rounds flush with
  | nil =>
      have empty := (leading_eq_nil_iff layout).mp leads
      have notBlocked : errno ≠ .eagain := by
        rintro rfl
        exact stale (Or.inr ⟨rfl, by simp [Uninterrupted]⟩)
      rcases rounds with _ | _ | rounds
      · rw [doSendLoop, if_pos enters] at returned
        exact absurd returned (by simp)
      · rw [doSendLoop, if_pos enters, empty] at returned
        exact absurd returned (by simp [send_])
      · obtain ⟨b', endEq⟩ :=
          doSendLoop_nothing layout empty sendlen enters errno script
        rw [endEq] at returned
        cases errno with
        | eintr => exact absurd returned (by simp)
        | eagain => exact absurd rfl notBlocked
        | other => rw [← Option.some.inj returned]
  | cons size sizes ih =>
      obtain ⟨firstEq, positive, -⟩ := read_leading layout sizeEq leads
      obtain ⟨-, -, healthy', -⟩ := answer_spec size errno healthy
      obtain ⟨b', ⟨pre', post', q', layout', size', leads'⟩, roundEq⟩ :=
        doSendLoop_frame layout sizeEq leads sendlen enters healthy
      have whole : (answer size errno script).1 = size := by
        have takes : TakesEach (size :: sizes) script := by
          by_contra stops
          exact stale (Or.inl stops)
        exact ((takesEach_cons_iff positive sizes errno script).mp takes).1
      rcases rounds with _ | rounds
      · rw [doSendLoop, if_pos enters] at returned
        exact absurd returned (by simp)
      · cases answered : send_ size rounds errno script with
        | none =>
            rw [doSendLoop, if_pos enters, firstEq, answered] at returned
            exact absurd returned (by simp)
        | some result =>
            rw [send_of_some positive answered] at answered
            rw [roundEq rounds answered, if_neg (by omega)] at returned
            obtain ⟨later, laterEq, rfl⟩ := Option.map_eq_some_iff.mp returned
            have stillStale : ¬ Spared sizes (answer size errno script).2.1
                (answer size errno script).2.2 :=
              fun spared => stale ((spared_cons_iff positive whole).mpr spared)
            have failed : later.ret = -1 := ih layout' size' (leads' whole) healthy' stillStale
              (Int.natCast_pos.mpr positive) rounds laterEq
            exact failed

/-- `doSend` ends with the number of bytes sent exactly when the flush is spared;
otherwise what it returns, if anything, is -1. -/
theorem doSend_dichotomy (layout : Layout b pre post q) (sizeEq : b.size = q.length)
    (errno : Errno) {script : List SysResult} (healthy : Healthy script) :
    (b.firstFrameLen = 0 ∨ Spared (leading b) errno script →
      ∃ rounds flush, doSend rounds b errno script = some flush ∧
        flush.ret = flush.out.length) ∧
    (¬ (b.firstFrameLen = 0 ∨ Spared (leading b) errno script) →
      ∀ rounds flush, doSend rounds b errno script = some flush → flush.ret = -1) := by
  by_cases empty : b.firstFrameLen = 0
  · have ended : doSend 0 b errno script = some ⟨b, 0, []⟩ := by
      rw [doSend, empty, doSendLoop, if_neg (by decide)]
    exact ⟨fun _ => ⟨0, _, ended, rfl⟩, fun stale => absurd (Or.inl empty) stale⟩
  · have enters : 0 < (b.firstFrameLen : Int) := by omega
    constructor
    · intro holds
      obtain ⟨flush, retEq, ends⟩ := doSendLoop_of_spared _ layout sizeEq rfl healthy
        (holds.resolve_left empty) 0 enters
      exact ⟨script.length + 2, flush, ends _ (Nat.le_refl _), by simpa using retEq⟩
    · intro stale rounds flush returned
      exact doSendLoop_of_not_spared _ layout sizeEq rfl healthy
        (fun spared => stale (Or.inr spared)) enters rounds returned

end Layout

theorem survivesFlush_iff {s : Sender} (valid : Valid s.sendBuf) {errno : Errno}
    {script : List SysResult} (healthy : Healthy script) (epollCtl : Bool) :
    SurvivesFlush s errno script epollCtl ↔
      s.sendBuf.firstFrameLen = 0 ∨ Spared (leading s.sendBuf) errno script := by
  obtain ⟨q, ⟨pre, post, layout⟩, sizeEq⟩ := valid
  obtain ⟨ends, fails⟩ := doSend_dichotomy layout sizeEq errno healthy
  constructor
  · rintro ⟨⟨rounds, flush, returned, retEq⟩, -⟩
    by_contra stale
    have failed := fails stale rounds flush returned
    omega
  · intro holds
    obtain ⟨rounds, flush, returned, retEq⟩ := ends holds
    have nonneg : ¬ flush.ret < 0 := by omega
    have closing : (s.modifyNotify writeEvent epollCtl).sendBuf = s.sendBuf := by
      rw [Sender.modifyNotify]
      split <;> rfl
    have safe : ∃ rounds s' ret, safeClose rounds s errno script epollCtl = some (s', ret) ∧
        0 ≤ ret := by
      let closed := { s.modifyNotify writeEvent epollCtl with flag := .safeClose }
      refine ⟨rounds, { closed with sendBuf := flush.buf }, flush.ret, ?_, Int.not_lt.mp nonneg⟩
      rw [safeClose]
      simp only [closing, returned]
      rfl
    refine ⟨⟨rounds, flush, returned, retEq⟩, ⟨rounds, ?_⟩, safe⟩
    rw [handleWrite, returned, Option.map_some]
    simp only [if_neg nonneg]
    by_cases drained : flush.buf.size = 0
    · by_cases asked : s.flag = .safeClose
      · exact ⟨_, _, by rw [if_pos drained, if_pos asked], Or.inr ⟨asked, drained⟩⟩
      · exact ⟨_, _, by rw [if_pos drained, if_neg asked], Or.inl (Int.not_lt.mp nonneg)⟩
    · exact ⟨_, _, by rw [if_neg drained], Or.inl (Int.not_lt.mp nonneg)⟩

/-- For every send buffer that operations reach, every `errno` and every sequence
of results without a real failure, the connection survives its flush exactly when
the first frame is empty, or the socket does not take each leading frame whole, or
`errno` was `EAGAIN` and no call is interrupted. -/
theorem survivesFlush_iff_spared {operations : List Operation} {s : Sender}
    (run : Run operate safeOperation LoopBuf.init operations s.sendBuf) (errno : Errno)
    {script : List SysResult} (healthy : Healthy script) (epollCtl : Bool) :
    SurvivesFlush s errno script epollCtl ↔
      s.sendBuf.firstFrameLen = 0 ∨ ¬ TakesEach (leading s.sendBuf) script ∨
        errno = .eagain ∧ Uninterrupted (leading s.sendBuf).length script := by
  obtain ⟨edits, editRun⟩ := edits_of_operations run
  exact survivesFlush_iff (valid_of_run editRun) healthy epollCtl

/-- Three bytes that wait in the send buffer. -/
def waiting : Sender := { Sender.init with sendBuf := (LoopBuf.init.write (.bytes [1, 2, 3])).1 }

theorem waiting_reached : Run operate safeOperation LoopBuf.init
    [.edit (.call (.write [1, 2, 3]))] waiting.sendBuf :=
  Run.single trivial ⟨_, rfl⟩

theorem leading_waiting : leading waiting.sendBuf = [3] := by
  decide +kernel

/-- With `EAGAIN` from before, three bytes are flushed and the connection lives. -/
theorem survivesFlush_iff_spared_waiting :
    SurvivesFlush waiting .eagain [.room 8 (by decide)] true ↔
      waiting.sendBuf.firstFrameLen = 0 ∨ ¬ TakesEach (leading waiting.sendBuf)
        [.room 8 (by decide)] ∨ Errno.eagain = .eagain ∧
          Uninterrupted (leading waiting.sendBuf).length [.room 8 (by decide)] :=
  survivesFlush_iff_spared waiting_reached .eagain (by simp [Healthy]) true

/-- The socket takes all three bytes, and the connection is closed for an error
that some earlier call has left in `errno`. -/
theorem flush_fails_on_stale_errno :
    Run operate safeOperation LoopBuf.init [.edit (.call (.write [1, 2, 3]))] waiting.sendBuf ∧
      Healthy [.room 8 (by decide)] ∧
      ¬ SurvivesFlush waiting .other [.room 8 (by decide)] true := by
  have healthy : Healthy [.room 8 (by decide)] := by simp [Healthy]
  refine ⟨waiting_reached, healthy, fun survives => ?_⟩
  obtain ⟨edits, editRun⟩ := edits_of_operations waiting_reached
  have spared := (survivesFlush_iff (valid_of_run editRun) healthy true).mp survives
  rw [leading_waiting, Spared] at spared
  rcases spared with empty | stops | ⟨blocked, -⟩
  · exact absurd empty (by decide +kernel)
  · exact stops (by simp [TakesEach])
  · exact absurd blocked (by decide)

end GPush.Connection.StaleErrno
