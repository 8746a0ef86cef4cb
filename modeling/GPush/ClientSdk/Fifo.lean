import GPush.ClientSdk.LoopBuf
import GPush.Transition.Run

/-!
# The buffer of the client SDK as a queue

The abstract queue is a byte string with a capacity, and knows nothing of where the bytes
are stored.  Every run of the buffer from its construction is a run of the queue with the
same calls and the same answers.
-/

namespace GPush.ClientSdk

open GPush.Containers GPush.LoopBuf GPush.Transition

namespace LoopBuf

/-! ## The other operations -/

/-- `loop_buf::loop_buf`, with a capacity that is not zero. -/
def make (cap : Nat) (asserted : 0 < cap) : LoopBuf where
  buf := List.replicate cap 0
  size := 0
  start := 0
  positive := by
    rw [List.length_replicate]
    exact asserted
  sizeLe := Nat.zero_le _
  startLe := Nat.zero_le _

/-- The number of bytes that `write` takes of `len`. -/
def realwrite (b : LoopBuf) (len : Nat) : Nat := if len > b.cap - b.size then b.cap - b.size else len

/-- The storage after `write` has copied `src`. -/
def written (b : LoopBuf) (src : Bytes) : Bytes :=
  let firsthalf := b.cap - b.stop
  if firsthalf < b.realwrite src.length then
    memmove (memmove b.buf b.stop (src.take firsthalf)) 0
      ((src.drop firsthalf).take (b.realwrite src.length - firsthalf))
  else
    memmove b.buf b.stop (src.take (b.realwrite src.length))

theorem realwrite_eq_min (b : LoopBuf) (len : Nat) : b.realwrite len = min len (b.cap - b.size) := by
  unfold realwrite
  split <;> omega

@[simp]
theorem length_written (b : LoopBuf) (src : Bytes) : (b.written src).length = b.buf.length := by
  unfold written
  dsimp only
  split <;> simp only [length_memmove]

/-- `loop_buf::write` of bytes. -/
def writeBytes (b : LoopBuf) (src : Bytes) : LoopBuf where
  buf := b.written src
  size := b.size + b.realwrite src.length
  start := b.start
  positive := by
    rw [length_written]
    exact b.positive
  sizeLe := by
    have sizeLe : b.size ≤ b.cap := b.sizeLe
    rw [length_written, realwrite_eq_min]
    change _ ≤ b.cap
    omega
  startLe := by
    rw [length_written]
    exact b.startLe

/-- The capacity that `auto_resize_write` asks for. -/
def grown (b : LoopBuf) (len : Nat) : Nat := if b.cap > len then b.cap * 2 else len * 2

theorem grown_pos (b : LoopBuf) (len : Nat) : 0 < b.grown len := by
  have positive : 0 < b.cap := b.positive
  unfold grown
  split <;> omega

/-- `loop_buf::auto_resize_write`. -/
def autoResizeWrite (b : LoopBuf) (src : Bytes) : Nat × LoopBuf :=
  let b :=
    if b.size + src.length > b.cap then b.resize (b.grown src.length) (b.grown_pos src.length) else b
  (b.realwrite src.length, b.writeBytes src)

/-- `loop_buf::clear`. -/
def clear (b : LoopBuf) : LoopBuf :=
  { b with
    size := 0
    start := 0
    sizeLe := Nat.zero_le _
    startLe := Nat.zero_le _ }

/-! ## What they do to the window -/

variable (b : LoopBuf)

theorem data_make {cap : Nat} (asserted : 0 < cap) : (make cap asserted).data = [] :=
  window_zero _ _

theorem data_clear : b.clear.data = [] := window_zero _ _

/-- What is written is a prefix that there is room for.  What does not fit before the end of
the storage goes on at its front. -/
theorem data_writeBytes (src : Bytes) :
    (b.writeBytes src).data = b.data ++ src.take (b.realwrite src.length) := by
  have sizeLe : b.size ≤ b.cap := b.sizeLe
  have inside : b.stop < b.cap := Nat.mod_lt _ b.positive
  have bound := b.realwrite_eq_min src.length
  change window (b.written src) b.start (b.size + b.realwrite src.length) = _
  rw [written]
  split_ifs with wraps
  · have firstLength : (src.take (b.cap - b.stop)).length = b.cap - b.stop := by
      rw [List.length_take]
      omega
    have restLength : ((src.drop (b.cap - b.stop)).take
        (b.realwrite src.length - (b.cap - b.stop))).length =
          b.realwrite src.length - (b.cap - b.stop) := by
      rw [List.length_take, List.length_drop]
      omega
    have full : b.stop + (src.take (b.cap - b.stop)).length = b.buf.length := by
      rw [firstLength]
      exact Nat.add_sub_of_le (Nat.le_of_lt inside)
    have parts : src.take (b.realwrite src.length) = src.take (b.cap - b.stop) ++
        (src.drop (b.cap - b.stop)).take (b.realwrite src.length - (b.cap - b.stop)) := by
      rw [← List.take_add, Nat.add_sub_of_le (Nat.le_of_lt wraps)]
    generalize src.take (b.cap - b.stop) = first at firstLength full parts
    generalize (src.drop (b.cap - b.stop)).take _ = rest at restLength parts
    have room : b.size + first.length + rest.length ≤ b.buf.length := by
      change _ ≤ b.cap
      omega
    have around : 0 + rest.length ≤ (memmove b.buf b.stop first).length := by
      rw [length_memmove]
      omega
    have whole : b.size + b.realwrite src.length = b.size + first.length + rest.length := by omega
    rw [memmove_of_le around, memmove_of_le (Nat.le_of_eq full), parts, whole, ← List.append_assoc]
    exact window_overwrite_around room full
  · have takenLength : (src.take (b.realwrite src.length)).length = b.realwrite src.length := by
      rw [List.length_take]
      omega
    generalize src.take (b.realwrite src.length) = taken at takenLength
    rw [← takenLength] at bound wraps ⊢
    have fits : b.stop + taken.length ≤ b.buf.length := by
      change _ ≤ b.cap
      omega
    rw [memmove_of_le fits]
    apply window_overwrite _ fits
    change _ ≤ b.cap
    omega

theorem cap_writeBytes (src : Bytes) : (b.writeBytes src).cap = b.cap := b.length_written src

/-- `auto_resize_write` makes room for all of its bytes. -/
theorem data_autoResizeWrite (src : Bytes) :
    (b.autoResizeWrite src).1 = src.length ∧ (b.autoResizeWrite src).2.data = b.data ++ src := by
  have fits (b' : LoopBuf) (room : b'.size + src.length ≤ b'.cap) :
      b'.realwrite src.length = src.length := by
    rw [realwrite_eq_min]
    omega
  rw [autoResizeWrite]
  split_ifs with more
  · have sizeLe : b.size ≤ b.cap := b.sizeLe
    have enough : b.size + src.length ≤ b.grown src.length := by
      unfold grown
      split <;> omega
    have kept := b.data_resize (b.grown_pos src.length) (Nat.le_trans (Nat.le_add_right _ _) enough)
    have sameSize := congrArg List.length kept
    rw [length_data, length_data] at sameSize
    have all := fits (b.resize (b.grown src.length) (b.grown_pos src.length)) (by
      rw [sameSize, cap_resize]
      exact enough)
    dsimp only
    rw [data_writeBytes, all, kept, List.take_length]
    exact ⟨rfl, rfl⟩
  · have all := fits b (Nat.not_lt.mp more)
    dsimp only
    rw [data_writeBytes, all, List.take_length]
    exact ⟨rfl, rfl⟩

theorem cap_autoResizeWrite (src : Bytes) : b.cap ≤ (b.autoResizeWrite src).2.cap := by
  have sizeLe : b.size ≤ b.cap := b.sizeLe
  rw [autoResizeWrite]
  split_ifs with more
  · dsimp only
    rw [cap_writeBytes, cap_resize]
    unfold grown
    split <;> omega
  · exact Nat.le_of_eq (b.cap_writeBytes src).symm

/-! ## The calls -/

/-- The calls of the interface of `loop_buf`.  `writeFilled data` is `write(NULL, n)` after the
caller has put `data` into `next_part()`, and `drop len` is `read(NULL, len)`. -/
inductive Call
  | write (buf : Bytes)
  | writeFilled (data : Bytes)
  | read (len : Nat)
  | drop (len : Nat)
  | peek (len : Nat)
  | resize (cap : Nat)
  | autoResizeWrite (buf : Bytes)
  | clear

/-- What a call returns, and the bytes that it copies out. -/
structure Answer where
  ret : Nat
  out : Bytes

/-- The sums and the products that `auto_resize_write` computes are `int32`s: the size after
it, and the new capacity, or else where the old storage goes on. -/
def growsInInt32 (b : LoopBuf) (len : Nat) : Bool :=
  b.size + len < int32End &&
    if b.size + len > b.cap then b.grown len < int32End else b.start + b.size < int32End

/-- One call on the buffer.  `resize` asserts that the capacity is not zero.  What the calls
compute beyond `int32` is not defined. -/
def exec (b : LoopBuf) : Call → Option (LoopBuf × Answer)
  | .write buf =>
      if b.start + b.size < int32End then
        some (b.writeBytes buf, ⟨b.realwrite buf.length, []⟩)
      else
        none
  | .writeFilled data =>
      if b.start + b.size < int32End then
        some ((b.fillNextPart data).write data.length,
          ⟨(b.fillNextPart data).realwrite data.length, []⟩)
      else
        none
  | .read len => some (b.read len, ⟨b.realread len, b.peek len⟩)
  | .drop len => some (b.read len, ⟨b.realread len, []⟩)
  | .peek len => some (b, ⟨b.realread len, b.peek len⟩)
  | .resize cap =>
      if asserted : 0 < cap ∧ cap < int32End then
        some (b.resize cap asserted.1, ⟨b.realread cap, []⟩)
      else
        none
  | .autoResizeWrite buf =>
      if b.growsInInt32 buf.length then
        some ((b.autoResizeWrite buf).2, ⟨(b.autoResizeWrite buf).1, []⟩)
      else
        none
  | .clear => some (b.clear, ⟨b.size, []⟩)

/-- The calls that the interface allows, within `int32`. -/
def Allowed (b : LoopBuf) : Call → Prop
  | .write _ => b.start + b.size < int32End
  | .writeFilled data => b.start + b.size < int32End ∧ data.length ≤ b.nextPartLen
  | .resize cap => 0 < cap ∧ b.size ≤ cap ∧ cap < int32End
  | .autoResizeWrite buf => b.growsInInt32 buf.length = true
  | _ => True

/-- The buffer as a labelled transition system. -/
def step : LTS LoopBuf (Call × Answer) := fun b e b' => b.exec e.1 = some (b', e.2)

/-- The guard of the runs that respect the interface. -/
def allowedStep (b : LoopBuf) (e : Call × Answer) : Prop := Allowed b e.1

/-! ## The abstract queue -/

/-- A queue of bytes with room for `cap` of them. -/
structure Queue where
  content : Bytes
  cap : Nat

/-- The queue.  Only `auto_resize_write` has a choice: the capacity that it leaves. -/
inductive QueueStep : LTS Queue (Call × Answer)
  | write {q : Queue} {buf : Bytes} :
      QueueStep q (.write buf, ⟨min buf.length (q.cap - q.content.length), []⟩)
        { q with content := q.content ++ buf.take (min buf.length (q.cap - q.content.length)) }
  | writeFilled {q : Queue} {data : Bytes} :
      QueueStep q (.writeFilled data, ⟨data.length, []⟩) { q with content := q.content ++ data }
  | read {q : Queue} {len : Nat} :
      QueueStep q (.read len, ⟨min len q.content.length, q.content.take len⟩)
        { q with content := q.content.drop len }
  | drop {q : Queue} {len : Nat} :
      QueueStep q (.drop len, ⟨min len q.content.length, []⟩)
        { q with content := q.content.drop len }
  | peek {q : Queue} {len : Nat} :
      QueueStep q (.peek len, ⟨min len q.content.length, q.content.take len⟩) q
  | resize {q : Queue} {cap : Nat} :
      QueueStep q (.resize cap, ⟨q.content.length, []⟩) { q with cap := cap }
  | autoResizeWrite {q : Queue} {buf : Bytes} {cap : Nat} : q.cap ≤ cap →
      QueueStep q (.autoResizeWrite buf, ⟨buf.length, []⟩) ⟨q.content ++ buf, cap⟩
  | clear {q : Queue} : QueueStep q (.clear, ⟨q.content.length, []⟩) { q with content := [] }

/-! ## The refinement -/

/-- The buffer holds what is in the queue. -/
structure Holds (b : LoopBuf) (q : Queue) : Prop where
  content : b.data = q.content
  cap : b.cap = q.cap

namespace Holds

variable {b : LoopBuf} {q : Queue}

theorem size (holds : Holds b q) : b.size = q.content.length := by
  rw [← holds.content, length_data]

/-- The step lemma: an allowed call returns, and the queue does the same. -/
theorem exec (holds : Holds b q) {call : Call} (allowed : Allowed b call) :
    ∃ b' answer q', b.exec call = some (b', answer) ∧ QueueStep q (call, answer) q' ∧
      Holds b' q' := by
  have reads (len : Nat) : b.realread len = min len q.content.length := by
    rw [realread_eq_min, holds.size]
  have peeks (len : Nat) : b.peek len = q.content.take len := by
    rw [peek_eq, holds.content]
  have left (len : Nat) : Holds (b.read len) { q with content := q.content.drop len } := by
    constructor
    · rw [data_read, holds.content]
    · exact holds.cap
  cases call with
  | write buf =>
      have count : b.realwrite buf.length = min buf.length (q.cap - q.content.length) := by
        rw [realwrite_eq_min, holds.cap, holds.size]
      refine ⟨_, _, _, if_pos allowed, count ▸ QueueStep.write, ?_⟩
      constructor
      · rw [data_writeBytes, holds.content, count]
      · exact (b.cap_writeBytes buf).trans holds.cap
  | writeFilled data =>
      obtain ⟨inInt32, room⟩ := allowed
      obtain ⟨dataEq, sizeEq, capEq⟩ := b.data_write room
      have capEq' : (b.fillNextPart data).cap = b.cap := length_memmove _ _ _
      have count : (b.fillNextPart data).realwrite data.length = data.length := by
        rw [nextPartLen_eq_min] at room
        rw [realwrite_eq_min, capEq']
        exact Nat.min_eq_left (Nat.le_trans room (Nat.min_le_right _ _))
      refine ⟨_, _, _, if_pos inInt32, count ▸ QueueStep.writeFilled, ?_⟩
      constructor
      · rw [dataEq, holds.content]
      · exact capEq.trans holds.cap
  | read len =>
      refine ⟨_, _, _, rfl, ?_, left len⟩
      rw [reads, peeks]
      exact QueueStep.read
  | drop len =>
      refine ⟨_, _, _, rfl, ?_, left len⟩
      rw [reads]
      exact QueueStep.drop
  | peek len =>
      refine ⟨_, _, _, rfl, ?_, holds⟩
      rw [reads, peeks]
      exact QueueStep.peek
  | resize cap =>
      obtain ⟨asserted, enough, inInt32⟩ := allowed
      refine ⟨b.resize cap asserted, _, { q with cap := cap }, dif_pos ⟨asserted, inInt32⟩, ?_, ?_⟩
      · rw [realread_eq_min, Nat.min_eq_right enough, holds.size]
        exact QueueStep.resize
      · constructor
        · rw [data_resize b asserted enough, holds.content]
        · exact b.cap_resize asserted
  | autoResizeWrite buf =>
      obtain ⟨count, dataEq⟩ := b.data_autoResizeWrite buf
      refine ⟨_, _, ⟨q.content ++ buf, (b.autoResizeWrite buf).2.cap⟩, if_pos allowed, ?_, ?_⟩
      · rw [count]
        apply QueueStep.autoResizeWrite
        rw [← holds.cap]
        exact b.cap_autoResizeWrite buf
      · exact ⟨dataEq.trans (congrArg (· ++ buf) holds.content), rfl⟩
  | clear =>
      refine ⟨_, _, _, rfl, holds.size ▸ QueueStep.clear, ?_⟩
      exact ⟨b.data_clear, holds.cap⟩

end Holds

/-- Every run of the buffer that respects its interface and stays within `int32` is a run of
the queue.  At its end `size` is the length of the queue, every allowed call returns and does
what the queue does, and a buffer that is not full offers a part to write to. -/
theorem refines_fifo {cap : Nat} (positive : 0 < cap) {events : List (Call × Answer)} {b : LoopBuf}
    (run : Run step allowedStep (make cap positive) events b) :
    ∃ q, Run QueueStep anyStep ⟨[], cap⟩ events q ∧ b.size = q.content.length ∧ b.cap = q.cap ∧
      (∀ call, Allowed b call → ∃ b' answer q', b.exec call = some (b', answer) ∧
        QueueStep q (call, answer) q' ∧ b'.size = q'.content.length ∧ b'.cap = q'.cap) ∧
      (b.start + b.size < int32End → b.size < b.cap → 0 < b.nextPartLen) := by
  have matched : ∀ s t e s', Holds s t → allowedStep s e → step s e s' →
      ∃ t', QueueStep t e t' ∧ Holds s' t' := by
    intro s t e s' holds allowed taken
    obtain ⟨b', answer, q', execEq, queueStep, holds'⟩ := holds.exec allowed
    obtain ⟨rfl, answerEq⟩ := Prod.mk.inj (Option.some.inj (execEq.symm.trans taken))
    subst answerEq
    exact ⟨q', queueStep, holds'⟩
  have made : Holds (make cap positive) ⟨[], cap⟩ := ⟨data_make positive, List.length_replicate⟩
  obtain ⟨q, queueRun, holds⟩ := run.simulate made matched
  refine ⟨q, queueRun, holds.size, holds.cap, ?_, ?_⟩
  · intro call allowed
    obtain ⟨b', answer, q', execEq, queueStep, holds'⟩ := holds.exec allowed
    exact ⟨b', answer, q', execEq, queueStep, holds'.size, holds'.cap⟩
  · intro _ notFull
    apply Nat.pos_of_ne_zero
    rw [Ne, nextPartLen_eq_zero_iff]
    exact Nat.ne_of_lt notFull

/-- Two bytes are written behind the end of a storage of three. -/
def wrappingEvents : List (Call × Answer) :=
  [(.write [1, 2], ⟨2, []⟩), (.read 1, ⟨1, [1]⟩), (.write [3, 4, 5], ⟨2, []⟩),
    (.peek 4, ⟨3, [2, 3, 4]⟩)]

theorem refines_fifo_wrapping :
    ∃ b q, Run step allowedStep (make 3 (by decide)) wrappingEvents b ∧
      Run QueueStep anyStep ⟨[], 3⟩ wrappingEvents q ∧ b.size = q.content.length := by
  have run : ∃ b, Run step allowedStep (make 3 (by decide)) wrappingEvents b :=
    ⟨_, Run.cons (show 0 + 0 < int32End by decide) rfl <| Run.cons trivial rfl <|
      Run.cons (show 1 + 1 < int32End by decide) rfl <| Run.single trivial rfl⟩
  obtain ⟨b, run⟩ := run
  obtain ⟨q, queueRun, sizeEq, -⟩ := refines_fifo (by decide) run
  exact ⟨b, q, run, queueRun, sizeEq⟩

/-- A storage is filled, read but for its last byte and written again: the sum of its start
and its size grows to nearly twice its capacity. -/
theorem run_to_sum {cap : Nat} (positive : 0 < cap) (small : cap < int32End)
    (first second : Bytes) (fills : first.length = cap) (fits : second.length < cap) :
    ∃ b events, Run step allowedStep (make cap positive) events b ∧
      events.map Prod.fst = [.write first, .read (cap - 1), .write second] ∧
      b.cap = cap ∧ b.start = cap - 1 ∧ b.size = 1 + second.length := by
  have made : (make cap positive).cap = cap := List.length_replicate
  let full := (make cap positive).writeBytes first
  have fullCap : full.cap = cap := (cap_writeBytes _ first).trans made
  have fullSize : full.size = cap := by
    change 0 + (make cap positive).realwrite first.length = cap
    rw [realwrite_eq_min, made, fills]
    exact (Nat.zero_add _).trans (Nat.min_self cap)
  have fullStart : full.start = 0 := rfl
  let left := full.read (cap - 1)
  have leftCap : left.cap = cap := fullCap
  have leftSize : left.size = 1 := by
    rw [size_read, fullSize]
    omega
  have leftStart : left.start = cap - 1 := by
    change full.readStart (cap - 1) = cap - 1
    have taken : full.realread (cap - 1) = cap - 1 := by
      rw [realread_eq_min, fullSize]
      omega
    rw [readStart, taken, fullSize, fullCap, fullStart, if_neg (by omega), if_neg (by omega),
      Nat.zero_add]
  have firstSum : (make cap positive).start + (make cap positive).size < int32End :=
    Nat.lt_trans positive small
  have secondSum : left.start + left.size < int32End := by omega
  have run : Run step allowedStep (make cap positive)
      [(.write first, ⟨(make cap positive).realwrite first.length, []⟩),
        (.read (cap - 1), ⟨full.realread (cap - 1), full.peek (cap - 1)⟩),
        (.write second, ⟨left.realwrite second.length, []⟩)] (left.writeBytes second) := by
    refine Run.cons firstSum ?_ <| Run.cons trivial rfl <| Run.single secondSum ?_
    · rw [step, exec, if_pos firstSum]
    · rw [step, exec, if_pos secondSum]
  refine ⟨_, _, run, rfl, ?_, leftStart, ?_⟩
  · exact (cap_writeBytes _ second).trans leftCap
  · change left.size + left.realwrite second.length = _
    rw [realwrite_eq_min, leftCap, leftSize]
    omega

/-- Two thirds of the `int32`s are capacity enough: no number passed or returned is beyond
`int32`, but the place of the next byte is computed from one that is. -/
theorem write_leaves_int32 :
    ∃ b events, Run step allowedStep (make 1610612736 (by decide)) events b ∧
      b.size < b.cap ∧ b.cap < int32End ∧ int32End ≤ b.start + b.size ∧
      ∀ byte, b.exec (.write [byte]) = none := by
  obtain ⟨b, events, run, -, capEq, startEq, sizeEq⟩ :=
    run_to_sum (show 0 < 1610612736 by decide) (by decide) (List.replicate 1610612736 0)
      (List.replicate 1000000000 0) List.length_replicate
      (by rw [List.length_replicate]; decide)
  rw [List.length_replicate] at sizeEq
  have beyond : int32End ≤ b.start + b.size := by
    rw [startEq, sizeEq]
    decide
  refine ⟨b, events, run, ?_, ?_, beyond, fun byte => if_neg (Nat.not_lt.mpr beyond)⟩
  · rw [sizeEq, capEq]
    decide
  · rw [capEq]
    decide

end LoopBuf

end GPush.ClientSdk
