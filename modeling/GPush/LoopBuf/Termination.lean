import GPush.LoopBuf.Append

/-!
# Termination of the loops

`peek` walks a list that nobody changes and always ends.  `read` puts drained
frames back behind the frame it is about to visit, so a read for more bytes than
the buffer holds goes round for ever as soon as there are two frames.

The runs are those of `edit` and, besides, of `write(NULL, len)` for any `len`:
the bytes that are then counted as content are whatever the frames hold.
-/

namespace GPush.LoopBuf

open GPush.Transition

/-! ## Writing from a null pointer -/

/-- Copying a slice onto itself changes nothing. -/
theorem memmove_slice (dst : Bytes) (pos n : Nat) :
    memmove dst pos ((dst.drop pos).take n) = dst := by
  by_cases inside : pos ≤ dst.length
  · have copied : pos + ((dst.drop pos).take n).length ≤ dst.length := by
      rw [List.length_take, List.length_drop]
      omega
    rw [memmove_of_le copied, List.append_assoc, ← List.drop_drop]
    have rest : (dst.drop pos).take n ++
        (dst.drop pos).drop ((dst.drop pos).take n).length = dst.drop pos := by
      rw [List.length_take]
      rcases Nat.le_total n (dst.drop pos).length with shorter | longer
      · rw [Nat.min_eq_left shorter, List.take_append_drop]
      · rw [Nat.min_eq_right longer, List.take_of_length_le longer, List.drop_length,
          List.append_nil]
    rw [rest, List.take_append_drop]
  · have outside : dst.length ≤ pos := Nat.le_of_not_le inside
    rw [List.drop_eq_nil_of_le outside, List.take_nil, memmove, List.append_nil,
      List.take_of_length_le outside, List.length_nil, Nat.add_zero,
      List.drop_eq_nil_of_le outside, List.append_nil, List.take_length]

/-- The bytes that `frame::write` of `len` bytes from a null pointer makes content. -/
def Frame.stale (f : Frame) (len : Nat) : Bytes :=
  (f.buf.drop (f.start + f.size)).take (f.realwrite len)

theorem Frame.length_stale (f : Frame) (len : Nat) : (f.stale len).length = f.realwrite len := by
  have inside := f.fits
  have bound := f.realwrite_eq_min len
  rw [Frame.stale, List.length_take, List.length_drop]
  simp only [Frame.freeSize, Frame.cap] at bound
  omega

/-- Counting stale bytes as content is writing them. -/
theorem Frame.write_null_eq (f : Frame) {len : Nat} {rest : Bytes}
    (lengthEq : (f.stale len ++ rest).length = len) :
    f.write (.null len) = f.write (.bytes (f.stale len ++ rest)) := by
  have stored : f.store (.bytes (f.stale len ++ rest)) = f.store (.null len) := by
    simp only [Frame.store, lengthEq]
    rw [← f.length_stale, List.take_left, Frame.stale, memmove_slice]
  simp only [Frame.write, stored, Src.len_bytes, Src.len_null, lengthEq]

private theorem writeLoop_null (rounds : Nat) (f : Ptr) (len : Nat) (b : LoopBuf) :
    ∃ buf : Bytes, buf.length = len ∧
      writeLoop rounds f (.null len) b = writeLoop rounds f (.bytes buf) b := by
  induction rounds generalizing f len b with
  | zero => exact ⟨List.replicate len 0, List.length_replicate, rfl⟩
  | succ rounds ih =>
      by_cases entered : 0 < len ∧ f ≠ null ∧ (b.mem f).full = false
      · have takes : (b.mem f).realwrite len ≤ len := by
          rw [Frame.realwrite_eq_min]
          exact Nat.min_le_right _ _
        let written := b.setFrame f ((b.mem f).write (.null len))
        let next := (b.mem f).next
        let later (src : Src) : LoopBuf × Nat :=
          if (written.mem f).full = true ∧ next ≠ null then
            writeLoop rounds next src { written with wPos := next }
          else
            writeLoop rounds f src written
        obtain ⟨rest, restLength, restEq⟩ : ∃ rest : Bytes,
            rest.length = len - (b.mem f).realwrite len ∧
              later (.null (len - (b.mem f).realwrite len)) = later (.bytes rest) := by
          by_cases moves : (written.mem f).full = true ∧ next ≠ null
          · simp only [later, if_pos moves]
            exact ih next _ _
          · simp only [later, if_neg moves]
            exact ih f _ _
        have lengthEq : ((b.mem f).stale len ++ rest).length = len := by
          rw [List.length_append, Frame.length_stale, restLength]
          omega
        have dropEq : ((b.mem f).stale len ++ rest).drop ((b.mem f).realwrite len) = rest := by
          rw [← Frame.length_stale, List.drop_left]
        refine ⟨(b.mem f).stale len ++ rest, lengthEq, ?_⟩
        rw [writeLoop, writeLoop, Src.len_null, Src.len_bytes, lengthEq, if_pos entered,
          if_pos entered, ← (b.mem f).write_null_eq lengthEq]
        simp only [Src.drop, dropEq]
        change ((later _).1, _ + (later _).2) = ((later _).1, _ + (later _).2)
        rw [restEq]
      · refine ⟨List.replicate len 0, List.length_replicate, ?_⟩
        rw [writeLoop, writeLoop, Src.len_null, Src.len_bytes, List.length_replicate,
          if_neg entered, if_neg entered]

/-- `write(NULL, len)` is a write of some `len` bytes. -/
theorem write_null (b : LoopBuf) (len : Nat) :
    ∃ buf : Bytes, b.write (.null len) = b.write (.bytes buf) := by
  obtain ⟨buf, lengthEq, loopEq⟩ := writeLoop_null len b.wPos len b
  refine ⟨buf, ?_⟩
  rw [LoopBuf.write, LoopBuf.write, Src.len_null, Src.len_bytes, lengthEq, loopEq]

/-! ## All runs -/

/-- The operations: an edit, or `write(NULL, len)` over whatever the frames hold. -/
inductive Operation
  | edit (edit : Edit)
  | writeNull (len : Nat)

/-- The steps of a buffer under its operations. -/
def operate : LTS LoopBuf Operation
  | b, .edit e, b' => edit b e b'
  | b, .writeNull len, b' => b' = (b.write (.null len)).1

/-- The memory safety that is left to the callers of the operations. -/
def safeOperation (b : LoopBuf) : Operation → Prop
  | .edit e => safeEdit b e
  | .writeNull _ => True

/-- Every state reached by operations is reached by edits. -/
theorem edits_of_operations {operations : List Operation} {b : LoopBuf}
    (run : Run operate safeOperation init operations b) :
    ∃ edits, Run edit safeEdit init edits b := by
  induction run with
  | refl => exact ⟨[], Run.refl⟩
  | @snoc operations middle target operation _ safe taken ih =>
      obtain ⟨edits, editRun⟩ := ih
      cases operation with
      | edit e => exact ⟨edits ++ [e], Run.snoc editRun safe taken⟩
      | writeNull len =>
          obtain ⟨buf, writeEq⟩ := middle.write_null len
          have sameStep : edit middle (.call (.write buf)) target := by
            refine ⟨.count (middle.write (.bytes buf)).2, ?_⟩
            obtain rfl : target = (middle.write (.null len)).1 := taken
            rw [LoopBuf.exec, writeEq]
          have safeStep : safeEdit middle (.call (.write buf)) := trivial
          exact ⟨edits ++ [.call (.write buf)], Run.snoc editRun safeStep sameStep⟩

/-- `read` ends after some number of rounds, and `peek` ends, and both return
`min(len, size())`. -/
def ReadsTerminate (b : LoopBuf) (len : Nat) : Prop :=
  (∃ rounds result, b.readWithin rounds len = some result ∧
    result.2.length = min len b.size) ∧
  ∃ out, b.peek len = some out ∧ out.length = min len b.size

/-- What is read of a queue has the expected length. -/
private theorem length_take_queue {b : LoopBuf} {q : Bytes} (sizeEq : b.size = q.length)
    (len : Nat) : (q.take len).length = min len b.size := by
  rw [List.length_take, sizeEq]

namespace Layout

variable {b : LoopBuf} {pre post : List Ptr} {q : Bytes}

/-- A buffer has one frame exactly when its first frame is its last one. -/
theorem single_iff (layout : Layout b pre post q) :
    b.head = b.tail ↔ pre = [] ∧ post = [] := by
  constructor
  · exact layout.single
  · rintro ⟨rfl, rfl⟩
    have first : b.wPos = b.head := by simpa using layout.chain.head
    have last : b.wPos = b.tail := by simpa using layout.chain.last
    exact first.symm.trans last

theorem readsTerminate_iff (layout : Layout b pre post q) (sizeEq : b.size = q.length)
    (len : Nat) : ReadsTerminate b len ↔ len ≤ b.size ∨ b.head = b.tail := by
  rw [layout.single_iff, sizeEq]
  constructor
  · rintro ⟨⟨rounds, result, returned, -⟩, -⟩
    by_contra outside
    rw [not_or, not_and_or] at outside
    rw [layout.read_diverges (Nat.lt_of_not_le outside.1) outside.2] at returned
    exact absurd returned (by simp)
  · intro inside
    obtain ⟨b', pre', post', readEq, -⟩ := layout.read inside
    refine ⟨⟨b.brk, (b', q.take len), readEq, length_take_queue sizeEq len⟩, ?_⟩
    exact ⟨q.take len, layout.peek len, length_take_queue sizeEq len⟩

end Layout

/-- In every state that operations reach, `read` ends with `min(len, size())`
bytes exactly when it is asked for no more than there is or the buffer has a
single frame; otherwise no number of rounds is enough. -/
theorem readsTerminate_iff_inside_or_single {operations : List Operation} {b : LoopBuf}
    (run : Run operate safeOperation init operations b) (len : Nat) :
    ReadsTerminate b len ↔ len ≤ b.size ∨ b.head = b.tail := by
  obtain ⟨edits, editRun⟩ := edits_of_operations run
  obtain ⟨q, ⟨pre, post, layout⟩, sizeEq⟩ := valid_of_run editRun
  exact layout.readsTerminate_iff sizeEq len

/-- A fresh buffer after `write(NULL, 3)`, asked for five bytes. -/
theorem readsTerminate_iff_inside_or_single_fresh :
    ReadsTerminate (init.write (.null 3)).1 5 ↔
      5 ≤ (init.write (.null 3)).1.size ∨
        (init.write (.null 3)).1.head = (init.write (.null 3)).1.tail := by
  have run : Run operate safeOperation init [.writeNull 3] (init.write (.null 3)).1 :=
    Run.single trivial rfl
  exact readsTerminate_iff_inside_or_single run 5

/-- After one extension an empty buffer has two frames, and a read for eight bytes
of it never ends. -/
theorem read_spins_after_extend :
    Run operate safeOperation init [.edit (.call (.extend 8))] (init.extend 8).1 ∧
      ¬ ReadsTerminate (init.extend 8).1 8 := by
  have returned : init.exec (.extend 8) = some ((init.extend 8).1, .count (init.extend 8).2) := by
    rw [exec, if_neg (by decide)]
    rfl
  have run : Run operate safeOperation init [.edit (.call (.extend 8))] (init.extend 8).1 :=
    Run.single trivial ⟨_, returned⟩
  refine ⟨run, ?_⟩
  obtain ⟨⟨pre, post, layout⟩, sizeEq⟩ := (represents_init.extend 8).1
  rw [layout.readsTerminate_iff sizeEq, sizeEq]
  rintro (inside | same)
  · exact absurd inside (by decide)
  · have tailEq : (init.extend 8).1.tail = init.brk := by
      rw [LoopBuf.extend]
      simp only
      split <;> rfl
    have headEq : (init.extend 8).1.head = init.head := by
      rw [LoopBuf.extend]
      simp only
      split <;> rfl
    exact absurd (headEq.symm.trans (same.trans tailEq)) (by decide)

end GPush.LoopBuf
