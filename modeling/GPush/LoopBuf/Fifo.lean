import GPush.LoopBuf.Write
import GPush.Transition.Run

/-!
# Refinement of a byte queue

The abstract queue is a byte string and knows nothing of frames.  Every run of
the buffer from its construction is a run of the queue with the same calls and
the same answers.
-/

namespace GPush.LoopBuf

open GPush.Transition

/-- The calls of the interface of `LoopBuf`. -/
inductive Call
  | write (buf : Bytes)
  | writeFilled (data : Bytes)
  | extend (sz : Int32)
  | peek (len : Nat)
  | read (len : Nat)
  | drop (len : Nat)
  | find (c : UInt8)
  | clear

/-- What a call answers: a number of bytes, the bytes it copied out, or an index. -/
inductive Answer
  | count (n : Nat)
  | bytes (out : Bytes)
  | index (i : Int)

/-- One call on the buffer.  `writeFilled data` is `write(NULL, n)` after the
caller has put `data` into the free part, and `drop len` is `read(NULL, len)`.
An `extend` whose aligned size is negative throws, and a size of zero has no room
for the header. -/
def exec (b : LoopBuf) : Call → Option (LoopBuf × Answer)
  | .write buf => some ((b.write (.bytes buf)).1, .count (b.write (.bytes buf)).2)
  | .writeFilled data =>
      let result := (b.fillFreeFrame data).write (.null data.length)
      some (result.1, .count result.2)
  | .extend sz =>
      if (alignSize sz).toInt < sizeofFrame then
        none
      else
        some ((b.extend sz.toNatClampNeg).1, .count (b.extend sz.toNatClampNeg).2)
  | .peek len => (b.peek len).map fun out => (b, .bytes out)
  | .read len => (b.read len).map fun result => (result.1, .bytes result.2)
  | .drop len => (b.read len).map fun result => (result.1, .count result.2.length)
  | .find c => (b.find c).map fun i => (b, .index i)
  | .clear => b.clear.map fun result => (result.1, .count result.2)

/-- The aligned size holds a header exactly where it is what `frameLen` says. -/
theorem sizeof_le_alignSize_iff {sz : Int32} :
    sizeofFrame ≤ (alignSize sz).toInt ↔ -2048 < sz.toInt ∧ sz.toInt < 2147481600 := by
  rcases alignSize_cases sz with ⟨inside, aligned⟩ | ⟨outside, aligned⟩
  · refine iff_of_true ?_ inside
    have wide : sizeofFrame ≤ frameLen sz.toNatClampNeg :=
      Nat.le_of_lt (Nat.lt_of_sub_pos (Nat.lt_of_lt_of_le (by decide) (minCap_le_frameLen _)))
    rw [aligned]
    exact Int.ofNat_le.mpr wide
  · refine iff_of_false ?_ outside
    simp only [sizeofFrame]
    omega

/-- The calls the interface allows.  The aligned size of an `extend` is an `int32`. -/
def Allowed (b : LoopBuf) : Call → Prop
  | .writeFilled data => data.length ≤ b.freeFrameLen
  | .extend sz => -2048 < sz.toInt ∧ sz.toInt < 2147481600
  | .read len => len ≤ b.size
  | .drop len => len ≤ b.size ∧ len ≤ b.firstFrameLen
  | _ => True

/-- The buffer as a labelled transition system. -/
def step : LTS LoopBuf (Call × Answer) := fun b e b' => b.exec e.1 = some (b', e.2)

/-- The guard of the runs that respect the interface. -/
def allowedStep (b : LoopBuf) (e : Call × Answer) : Prop := Allowed b e.1

/-! ## The abstract queue -/

/-- The position of the first `c`, or `-1`. -/
def firstIndex (q : Bytes) (c : UInt8) : Int :=
  match q.idxOf? c with
  | some i => (i : Nat)
  | none => -1

/-- The queue of bytes.  Only `write` has a choice: how many bytes it takes. -/
inductive QueueStep : LTS Bytes (Call × Answer)
  | write {q buf : Bytes} {k : Nat} :
      k ≤ buf.length → QueueStep q (.write buf, .count k) (q ++ buf.take k)
  | writeFilled {q data : Bytes} :
      QueueStep q (.writeFilled data, .count data.length) (q ++ data)
  | extend {q : Bytes} {sz : Int32} {cap : Nat} : QueueStep q (.extend sz, .count cap) q
  | peek {q : Bytes} {len : Nat} : QueueStep q (.peek len, .bytes (q.take len)) q
  | read {q : Bytes} {len : Nat} : QueueStep q (.read len, .bytes (q.take len)) (q.drop len)
  | drop {q : Bytes} {len : Nat} : QueueStep q (.drop len, .count len) (q.drop len)
  | find {q : Bytes} {c : UInt8} : QueueStep q (.find c, .index (firstIndex q c)) q
  | clear {q : Bytes} : QueueStep q (.clear, .count q.length) []

/-! ## The operations on a representation -/

namespace Represents

variable {b : LoopBuf} {q : Bytes}

theorem size_eq (rep : Represents b q) : b.size = q.length :=
  rep.2

theorem write (rep : Represents b q) (buf : Bytes) :
    (b.write (.bytes buf)).2 ≤ buf.length ∧
      Represents (b.write (.bytes buf)).1 (q ++ buf.take (b.write (.bytes buf)).2) := by
  obtain ⟨⟨pre, post, layout⟩, sizeEq⟩ := rep
  by_cases full : (b.mem b.wPos).full = true
  · rw [Layout.write_full full]
    refine ⟨Nat.zero_le _, ⟨pre, post, ?_⟩, ?_⟩
    · simpa using layout
    · simpa using sizeEq
  · obtain ⟨b', pre', post', writeEq, layout', size', -⟩ :=
      layout.write buf (Bool.not_eq_true _ ▸ full)
    rw [writeEq]
    refine ⟨Nat.min_le_left _ _, ⟨pre', post', layout'⟩, ?_⟩
    rw [size', sizeEq, List.length_append, List.length_take]
    omega

theorem writeFilled (rep : Represents b q) {data : Bytes} (room : data.length ≤ b.freeFrameLen) :
    ∃ b', (b.fillFreeFrame data).write (.null data.length) = (b', data.length) ∧
      Represents b' (q ++ data) := by
  obtain ⟨⟨pre, post, layout⟩, sizeEq⟩ := rep
  obtain ⟨b', pre', post', writeEq, layout', size', -⟩ := layout.writeFilled room
  refine ⟨b', writeEq, ⟨pre', post', layout'⟩, ?_⟩
  rw [size', sizeEq, List.length_append]

theorem extend (rep : Represents b q) (sz : Nat) :
    Represents (b.extend sz).1 q ∧ 0 < (b.extend sz).1.freeFrameLen := by
  obtain ⟨⟨pre, post, layout⟩, sizeEq⟩ := rep
  obtain ⟨b', pre', post', extendEq, layout', size', space, -⟩ := layout.extend sz
  rw [extendEq]
  exact ⟨⟨⟨pre', post', layout'⟩, size'.trans sizeEq⟩, (Frame.not_full_iff _).mp space⟩

/-- An `extend` that returns leaves room to write. -/
theorem of_extend (rep : Represents b q) {sz : Int32} {result : LoopBuf × Answer}
    (returned : b.exec (.extend sz) = some result) :
    Represents result.1 q ∧ 0 < result.1.freeFrameLen := by
  rw [LoopBuf.exec] at returned
  split_ifs at returned
  rw [← Option.some.inj returned]
  exact rep.extend _

theorem peek (rep : Represents b q) (len : Nat) : b.peek len = some (q.take len) := by
  obtain ⟨⟨pre, post, layout⟩, -⟩ := rep
  exact layout.peek len

theorem read (rep : Represents b q) {len : Nat} (inside : len ≤ b.size) :
    ∃ b', b.read len = some (b', q.take len) ∧ Represents b' (q.drop len) := by
  obtain ⟨⟨pre, post, layout⟩, sizeEq⟩ := rep
  rw [sizeEq] at inside
  obtain ⟨b', pre', post', readEq, layout', size', -⟩ := layout.read (Or.inl inside)
  refine ⟨b', readEq, ⟨pre', post', layout'⟩, ?_⟩
  rw [size', sizeEq, List.length_drop]
  omega

/-- A read that returns, whatever it asks for. -/
theorem of_read (rep : Represents b q) {len : Nat} {result : LoopBuf × Bytes}
    (returned : b.read len = some result) :
    result.2 = q.take len ∧ Represents result.1 (q.drop len) := by
  obtain ⟨⟨pre, post, layout⟩, sizeEq⟩ := rep
  obtain ⟨b', pre', post', readEq, layout', size', -⟩ :=
    layout.read (layout.inside_of_read returned)
  obtain rfl : (b', q.take len) = result := Option.some.inj (readEq.symm.trans returned)
  refine ⟨rfl, ⟨pre', post', layout'⟩, ?_⟩
  rw [size', sizeEq, List.length_drop]
  omega

theorem find (rep : Represents b q) (c : UInt8) : b.find c = some (firstIndex q c) := by
  obtain ⟨⟨pre, post, layout⟩, -⟩ := rep
  exact layout.find c

theorem clear (rep : Represents b q) : ∃ b', b.clear = some (b', q.length) ∧ Represents b' [] := by
  obtain ⟨⟨pre, post, layout⟩, sizeEq⟩ := rep
  obtain ⟨b', clearEq, layout', size'⟩ := layout.clear
  exact ⟨b', sizeEq ▸ clearEq, ⟨pre, post, layout'⟩, size'⟩

/-- The step lemma: an allowed call returns, and the queue can do the same. -/
theorem exec (rep : Represents b q) {call : Call} (allowed : Allowed b call) :
    ∃ b' answer q', b.exec call = some (b', answer) ∧ QueueStep q (call, answer) q' ∧
      Represents b' q' := by
  cases call with
  | write buf =>
      obtain ⟨bound, rep'⟩ := rep.write buf
      exact ⟨_, _, _, rfl, QueueStep.write bound, rep'⟩
  | writeFilled data =>
      obtain ⟨b', writeEq, rep'⟩ := rep.writeFilled allowed
      refine ⟨b', .count data.length, _, ?_, QueueStep.writeFilled, rep'⟩
      rw [LoopBuf.exec, writeEq]
  | extend sz =>
      have wide := Int.not_lt.mpr (sizeof_le_alignSize_iff.mpr allowed)
      refine ⟨_, .count (b.extend sz.toNatClampNeg).2, _, ?_, QueueStep.extend,
        (rep.extend sz.toNatClampNeg).1⟩
      rw [LoopBuf.exec, if_neg wide]
  | peek len =>
      refine ⟨b, .bytes (q.take len), q, ?_, QueueStep.peek, rep⟩
      rw [LoopBuf.exec, rep.peek, Option.map_some]
  | read len =>
      obtain ⟨b', readEq, rep'⟩ := rep.read allowed
      refine ⟨b', .bytes (q.take len), _, ?_, QueueStep.read, rep'⟩
      rw [LoopBuf.exec, readEq, Option.map_some]
  | drop len =>
      obtain ⟨b', readEq, rep'⟩ := rep.read allowed.1
      have taken : (q.take len).length = len := by
        rw [List.length_take, ← rep.size_eq]
        exact Nat.min_eq_left allowed.1
      refine ⟨b', .count len, _, ?_, QueueStep.drop, rep'⟩
      rw [LoopBuf.exec, readEq, Option.map_some, taken]
  | find c =>
      refine ⟨b, .index (firstIndex q c), q, ?_, QueueStep.find, rep⟩
      rw [LoopBuf.exec, rep.find, Option.map_some]
  | clear =>
      obtain ⟨b', clearEq, rep'⟩ := rep.clear
      refine ⟨b', .count q.length, [], ?_, QueueStep.clear, rep'⟩
      rw [LoopBuf.exec, clearEq, Option.map_some]

end Represents

/-- Every run of the buffer that respects its interface is a run of the byte
queue.  At its end `size` is the length of the queue, every allowed call returns
and does what the queue does, and an `extend` that returns leaves room to write. -/
theorem refines_queue {events : List (Call × Answer)} {b : LoopBuf}
    (run : Run step allowedStep init events b) :
    ∃ q, Run QueueStep anyStep [] events q ∧ b.size = q.length ∧
      (∀ call, Allowed b call → ∃ b' answer q', b.exec call = some (b', answer) ∧
        QueueStep q (call, answer) q' ∧ b'.size = q'.length) ∧
      ∀ sz b' answer, b.exec (.extend sz) = some (b', answer) → 0 < b'.freeFrameLen := by
  have matched : ∀ s t e s', Represents s t → allowedStep s e → step s e s' →
      ∃ t', QueueStep t e t' ∧ Represents s' t' := by
    intro s t e s' rep allowed taken
    obtain ⟨b', answer, q', execEq, queueStep, rep'⟩ := rep.exec allowed
    obtain ⟨rfl, answerEq⟩ := Prod.mk.inj (Option.some.inj (execEq.symm.trans taken))
    subst answerEq
    exact ⟨q', queueStep, rep'⟩
  obtain ⟨q, queueRun, rep⟩ := run.simulate represents_init matched
  refine ⟨q, queueRun, rep.size_eq, ?_, ?_⟩
  · intro call allowed
    obtain ⟨b', answer, q', execEq, queueStep, rep'⟩ := rep.exec allowed
    exact ⟨b', answer, q', execEq, queueStep, rep'.size_eq⟩
  · intro sz b' answer returned
    exact (rep.of_extend returned).2

/-- Three bytes in, two out. -/
theorem refines_queue_three :
    ∃ b q, Run step allowedStep init
        [(.writeFilled [1, 2, 3], .count 3), (.read 2, .bytes [1, 2])] b ∧
      Run QueueStep anyStep [] [(.writeFilled [1, 2, 3], .count 3), (.read 2, .bytes [1, 2])] q ∧
      b.size = q.length := by
  have room : ([1, 2, 3] : Bytes).length ≤ init.freeFrameLen := by
    obtain ⟨⟨pre, post, layout⟩, -⟩ := represents_init
    exact Nat.le_trans (by decide) (layout.freeSize_of_empty layout.wPos_mem rfl).2
  obtain ⟨b₁, writeEq, rep₁⟩ := represents_init.writeFilled room
  have inside : 2 ≤ b₁.size := by
    rw [rep₁.size_eq]
    decide
  obtain ⟨b₂, readEq, -⟩ := rep₁.read inside
  have run : Run step allowedStep init
      [(.writeFilled [1, 2, 3], .count 3), (.read 2, .bytes [1, 2])] b₂ := by
    refine Run.cons room ?_ (Run.single inside ?_)
    · rw [step, exec, writeEq]
      rfl
    · rw [step, exec, readEq]
      rfl
  obtain ⟨q, queueRun, sizeEq, -⟩ := refines_queue run
  exact ⟨b₂, q, run, queueRun, sizeEq⟩

/-- The largest `int32` is rounded up to a negative size, and a negative chunk to nothing: a
fresh buffer is not extended by either. -/
theorem extend_fails :
    Run step allowedStep init [] init ∧
      (alignSize 2147483647).toInt = -2147483648 ∧ init.exec (.extend 2147483647) = none ∧
      (alignSize (-2048)).toInt = 0 ∧ init.exec (.extend (-2048)) = none := by
  have throws {sz : Int32} (small : (alignSize sz).toInt < sizeofFrame) :
      init.exec (.extend sz) = none := by
    rw [exec, if_pos small]
  exact ⟨Run.refl, by decide, throws (by decide), by decide, throws (by decide)⟩

end GPush.LoopBuf
