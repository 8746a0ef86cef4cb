import GPush.LoopBuf.Read
import Mathlib.Algebra.GroupWithZero.Nat

/-!
# Writing

A write fills the frame at the write position and moves on to the empty frames
behind it.  It stops early only at a full last frame.
-/

namespace GPush.LoopBuf

/-- The free bytes of the frames at `ps`. -/
def freeIn (mem : Ptr → Frame) (ps : List Ptr) : Nat := (ps.map fun p => (mem p).freeSize).sum

@[simp]
theorem freeIn_nil (mem : Ptr → Frame) : freeIn mem [] = 0 :=
  rfl

@[simp]
theorem freeIn_cons (mem : Ptr → Frame) (p : Ptr) (ps : List Ptr) :
    freeIn mem (p :: ps) = (mem p).freeSize + freeIn mem ps :=
  rfl

@[simp]
theorem freeIn_append (mem : Ptr → Frame) (ps qs : List Ptr) :
    freeIn mem (ps ++ qs) = freeIn mem ps + freeIn mem qs := by
  simp [freeIn]

theorem freeIn_congr {mem mem' : Ptr → Frame} {ps : List Ptr}
    (same : ∀ p ∈ ps, (mem' p).freeSize = (mem p).freeSize) : freeIn mem' ps = freeIn mem ps := by
  induction ps with
  | nil => rfl
  | cons p ps ih =>
      rw [freeIn_cons, freeIn_cons, same p List.mem_cons_self,
        ih fun q member => same q (List.mem_cons_of_mem p member)]

private theorem writeLoop_stop {b : LoopBuf} {rounds : Nat} {f : Ptr} {src : Src}
    (stop : src.len = 0 ∨ (b.mem f).full = true) : writeLoop rounds f src b = (b, 0) := by
  have out : ¬ (0 < src.len ∧ f ≠ null ∧ (b.mem f).full = false) := by
    rintro ⟨positive, -, space⟩
    rcases stop with empty | full
    · omega
    · exact absurd (full.symm.trans space) (by decide)
  cases rounds with
  | zero => rfl
  | succ rounds => rw [writeLoop, if_neg out]

namespace Layout

variable {b : LoopBuf} {pre post : List Ptr} {q : Bytes}

/-- The outcome of a write that takes `n` bytes of `src`. -/
structure WriteOutcome (b : LoopBuf) (pre post : List Ptr) (q src : Bytes) (b' : LoopBuf)
    (pre' post' : List Ptr) (n : Nat) : Prop where
  layout : Layout b' pre' post' (q ++ src.take n)
  size : b'.size = b.size
  frames : pre' ++ b'.wPos :: post' = pre ++ b.wPos :: post
  ended : n < src.length → post' = [] ∧ (b'.mem b'.wPos).full = true
  flowing : Flowing b pre → Flowing b' pre'

/-- A frame that is not full at the write position, after a write into it. -/
private theorem put_write (layout : Layout b pre post q) (src : Bytes) :
    Layout (b.setFrame b.wPos ((b.mem b.wPos).write (.bytes src))) pre post
      (q ++ src.take (b.mem b.wPos).freeSize) := by
  apply layout.put (Frame.next_write _ _) (Frame.cap_write _ _) (Frame.data_write_bytes _ _)
  intro empty
  rw [Frame.size_write] at empty
  exact layout.restarted _ layout.wPos_mem (Nat.eq_zero_of_add_eq_zero_right empty)

/-- Frames before the write position are not touched. -/
theorem flowing_setFrame (layout : Layout b pre post q) (flow : Flowing b pre) (f : Frame) :
    Flowing (b.setFrame b.wPos f) pre := by
  intro p member
  have distinct : p ≠ b.wPos := by
    rintro rfl
    exact List.disjoint_of_nodup_append layout.chain.nodup member List.mem_cons_self
  rw [mem_setFrame_of_ne distinct]
  exact flow p member

/-- The round that ends the write: the frame takes all, or it is the last one. -/
private theorem writeLoop_ends (layout : Layout b pre post q) {src : Bytes} (rounds : Nat)
    (positive : 0 < src.length) (space : (b.mem b.wPos).full = false)
    (ends : src.length < (b.mem b.wPos).freeSize ∨ post = []) :
    writeLoop (rounds + 1) b.wPos (.bytes src) b =
      (b.setFrame b.wPos ((b.mem b.wPos).write (.bytes src)),
        min src.length (b.mem b.wPos).freeSize) := by
  have entered : 0 < (Src.bytes src).len ∧ b.wPos ≠ null ∧ (b.mem b.wPos).full = false :=
    ⟨positive, layout.chain.nonnull _ layout.wPos_mem, space⟩
  have free := (b.mem b.wPos).freeSize_write (.bytes src)
  have taken := (b.mem b.wPos).realwrite_eq_min src.length
  rw [Src.len_bytes] at free
  have stays : ¬ (((b.mem b.wPos).write (.bytes src)).full = true ∧
      (b.mem b.wPos).next ≠ null) := by
    rintro ⟨full, notLast⟩
    rcases ends with short | rfl
    · rw [Frame.full_iff] at full
      omega
    · exact notLast layout.chain.linked.of_append.1
  have stop : (Src.drop ((b.mem b.wPos).realwrite src.length) (.bytes src)).len = 0 ∨
      ((b.setFrame b.wPos ((b.mem b.wPos).write (.bytes src))).mem b.wPos).full = true := by
    rw [mem_setFrame_self, Frame.full_iff, Src.len_drop, Src.len_bytes]
    omega
  rw [writeLoop, if_pos entered]
  simp only [mem_setFrame_self, stays, if_false, Src.len_bytes, writeLoop_stop stop]
  rw [taken, Nat.min_comm, Nat.add_zero]

/-- A round that fills a frame with another one behind it. -/
private theorem writeLoop_moves {p : Ptr} (layout : Layout b pre (p :: post) q) {src : Bytes}
    (rounds : Nat) (space : (b.mem b.wPos).full = false)
    (fills : (b.mem b.wPos).freeSize ≤ src.length) :
    ∃ b₁, writeLoop (rounds + 1) b.wPos (.bytes src) b =
        ((writeLoop rounds b₁.wPos (.bytes (src.drop (b.mem b.wPos).freeSize)) b₁).1,
          (b.mem b.wPos).freeSize +
            (writeLoop rounds b₁.wPos (.bytes (src.drop (b.mem b.wPos).freeSize)) b₁).2) ∧
      Layout b₁ (pre ++ [b.wPos]) post (q ++ src.take (b.mem b.wPos).freeSize) ∧
      b₁.wPos = p ∧ b₁.size = b.size ∧ (∀ r ∈ p :: post, b₁.mem r = b.mem r) ∧
      (Flowing b pre → Flowing b₁ (pre ++ [b.wPos])) := by
  have roomPos := (Frame.not_full_iff _).mp space
  have entered : 0 < (Src.bytes src).len ∧ b.wPos ≠ null ∧ (b.mem b.wPos).full = false :=
    ⟨Nat.lt_of_lt_of_le roomPos fills, layout.chain.nonnull _ layout.wPos_mem, space⟩
  have taken : (b.mem b.wPos).realwrite src.length = (b.mem b.wPos).freeSize := by
    rw [Frame.realwrite_eq_min, Nat.min_eq_left fills]
  have nextEq : (b.mem b.wPos).next = p := layout.chain.linked.of_append.1
  have full : ((b.mem b.wPos).write (.bytes src)).full = true := by
    rw [Frame.full_iff, Frame.freeSize_write, Src.len_bytes]
    omega
  have nonnull : p ≠ null := layout.chain.nonnull p (by simp)
  have written := layout.put_write src
  refine ⟨{ b.setFrame b.wPos ((b.mem b.wPos).write (.bytes src)) with wPos := p }, ?_,
    written.advance, rfl, rfl, ?_, ?_⟩
  · rw [writeLoop, if_pos entered]
    simp only [mem_setFrame_self, full, nextEq, nonnull, ne_eq, not_false_eq_true, and_self,
      if_true, Src.len_bytes, taken, Src.drop]
  · intro r member
    apply mem_setFrame_of_ne
    rintro rfl
    exact (List.nodup_cons.mp (List.Nodup.of_append_right layout.chain.nodup)).1 member
  · intro flow r member
    rcases List.mem_append.mp member with before | here
    · exact layout.flowing_setFrame flow _ r before
    · have atPos : r = b.wPos := List.mem_singleton.mp here
      subst r
      exact written.size_pos_of_full written.wPos_mem (by rw [mem_setFrame_self, full])

/-- A write of no bytes. -/
private theorem writeLoop_nothing (layout : Layout b pre post q) {src : Bytes}
    (empty : src.length = 0) (rounds : Nat) :
    ∃ b' pre' post', writeLoop rounds b.wPos (.bytes src) b =
        (b', min src.length (freeIn b.mem (b.wPos :: post))) ∧
      WriteOutcome b pre post q src b' pre' post'
        (min src.length (freeIn b.mem (b.wPos :: post))) := by
  have zero : min src.length (freeIn b.mem (b.wPos :: post)) = 0 := by omega
  rw [zero]
  refine ⟨b, pre, post, writeLoop_stop (Or.inl empty), ?_, rfl, rfl, fun short => ?_, id⟩
  · simpa using layout
  · omega

private theorem writeLoop_last (layout : Layout b pre post q) {src : Bytes} (rounds : Nat)
    (positive : 0 < src.length) (space : (b.mem b.wPos).full = false)
    (ends : src.length < (b.mem b.wPos).freeSize ∨ post = []) :
    ∃ b' pre' post', writeLoop (rounds + 1) b.wPos (.bytes src) b =
        (b', min src.length (freeIn b.mem (b.wPos :: post))) ∧
      WriteOutcome b pre post q src b' pre' post'
        (min src.length (freeIn b.mem (b.wPos :: post))) := by
  have count : min src.length (freeIn b.mem (b.wPos :: post)) =
      min src.length (b.mem b.wPos).freeSize := by
    rw [freeIn_cons]
    rcases ends with short | rfl
    · omega
    · rw [freeIn_nil, Nat.add_zero]
  rw [count, layout.writeLoop_ends rounds positive space ends]
  refine ⟨b.setFrame b.wPos ((b.mem b.wPos).write (.bytes src)), pre, post, rfl, ?_, rfl, rfl,
    fun short => ⟨?_, ?_⟩, fun flow => layout.flowing_setFrame flow _⟩
  · rw [Nat.min_comm, ← List.take_take, List.take_length]
    exact layout.put_write src
  · exact ends.resolve_left (by omega)
  · rw [wPos_setFrame, mem_setFrame_self, Frame.full_iff, Frame.freeSize_write, Src.len_bytes]
    omega

private theorem writeLoop_spec (layout : Layout b pre post q) (src : Bytes) {rounds : Nat}
    (enough : src.length ≤ rounds) (space : (b.mem b.wPos).full = false) :
    ∃ b' pre' post', writeLoop rounds b.wPos (.bytes src) b =
        (b', min src.length (freeIn b.mem (b.wPos :: post))) ∧
      WriteOutcome b pre post q src b' pre' post'
        (min src.length (freeIn b.mem (b.wPos :: post))) := by
  induction post generalizing b pre q src rounds with
  | nil =>
      rcases Nat.eq_zero_or_pos src.length with empty | positive
      · exact layout.writeLoop_nothing empty rounds
      obtain ⟨rounds, rfl⟩ := Nat.exists_eq_succ_of_ne_zero
        (Nat.ne_zero_of_lt (Nat.lt_of_lt_of_le positive enough))
      exact layout.writeLoop_last rounds positive space (Or.inr rfl)
  | cons p post ih =>
      rcases Nat.eq_zero_or_pos src.length with empty | positive
      · exact layout.writeLoop_nothing empty rounds
      obtain ⟨rounds, rfl⟩ := Nat.exists_eq_succ_of_ne_zero
        (Nat.ne_zero_of_lt (Nat.lt_of_lt_of_le positive enough))
      by_cases fills : (b.mem b.wPos).freeSize ≤ src.length
      · obtain ⟨b₁, roundEq, layout₁, atNext, size₁, same, flow₁⟩ :=
          layout.writeLoop_moves rounds space fills
        have roomPos := (Frame.not_full_iff _).mp space
        have space₁ : (b₁.mem b₁.wPos).full = false := by
          apply layout₁.not_full_of_empty layout₁.wPos_mem
          rw [atNext, same p List.mem_cons_self]
          exact layout.spare p List.mem_cons_self
        have enough₁ : (src.drop (b.mem b.wPos).freeSize).length ≤ rounds := by
          rw [List.length_drop]
          omega
        obtain ⟨b', pre', post', loopEq, outcome⟩ := ih layout₁ _ enough₁ space₁
        have freeEq : freeIn b₁.mem (b₁.wPos :: post) = freeIn b.mem (p :: post) := by
          rw [atNext]
          exact freeIn_congr fun r member => by rw [same r member]
        have count : min src.length (freeIn b.mem (b.wPos :: p :: post)) =
            (b.mem b.wPos).freeSize + min (src.drop (b.mem b.wPos).freeSize).length
              (freeIn b₁.mem (b₁.wPos :: post)) := by
          rw [freeEq, freeIn_cons, List.length_drop]
          omega
        rw [count]
        refine ⟨b', pre', post', ?_, ?_, outcome.size.trans size₁, ?_, ?_, ?_⟩
        · rw [roundEq, loopEq]
        · rw [List.take_add, ← List.append_assoc]
          exact outcome.layout
        · rw [outcome.frames, atNext]
          simp
        · intro short
          apply outcome.ended
          rw [List.length_drop] at short ⊢
          omega
        · exact fun flow => outcome.flowing (flow₁ flow)
      · exact layout.writeLoop_last rounds positive space (Or.inl (Nat.lt_of_not_le fills))

/-- What `write` does to a frame list that starts at a full frame: nothing. -/
theorem write_full (full : (b.mem b.wPos).full = true) (src : Src) : b.write src = (b, 0) := by
  rw [LoopBuf.write, writeLoop_stop (Or.inr full)]
  rfl

/-- `write` appends what the frames from the write position on take. -/
theorem write (layout : Layout b pre post q) (src : Bytes) (space : (b.mem b.wPos).full = false) :
    ∃ b' pre' post', b.write (.bytes src) =
        (b', min src.length (freeIn b.mem (b.wPos :: post))) ∧
      Layout b' pre' post' (q ++ src.take (min src.length (freeIn b.mem (b.wPos :: post)))) ∧
      b'.size = b.size + min src.length (freeIn b.mem (b.wPos :: post)) ∧
      pre' ++ b'.wPos :: post' = pre ++ b.wPos :: post ∧
      (freeIn b.mem (b.wPos :: post) < src.length → post' = [] ∧ (b'.mem b'.wPos).full = true) ∧
      (Flowing b pre → Flowing b' pre') := by
  obtain ⟨b', pre', post', loopEq, outcome⟩ := layout.writeLoop_spec src (Nat.le_refl _) space
  refine ⟨{ b' with size := b'.size + min src.length (freeIn b.mem (b.wPos :: post)) }, pre',
    post', ?_, outcome.layout.setSize _, ?_, outcome.frames, ?_, outcome.flowing⟩
  · rw [LoopBuf.write, Src.len_bytes, loopEq]
  · rw [outcome.size]
  · exact fun short => outcome.ended (by omega)

/-! ## Filling the free part in place -/

theorem fillFreeFrame_nil (b : LoopBuf) : b.fillFreeFrame [] = b := by
  have same : (b.mem b.wPos).fill [] = b.mem b.wPos := by
    have stored : memmove (b.mem b.wPos).buf ((b.mem b.wPos).start + (b.mem b.wPos).size) [] =
        (b.mem b.wPos).buf := by
      rw [memmove_of_le (b.mem b.wPos).fits]
      simp
    rw [Frame.fill]
    congr 1
  rw [fillFreeFrame, same, LoopBuf.setFrame, Function.update_eq_self]

@[simp] theorem wPos_fillFreeFrame (b : LoopBuf) (data : Bytes) :
    (b.fillFreeFrame data).wPos = b.wPos := rfl

private theorem writeLoop_filled (layout : Layout b pre post q) {data : Bytes}
    (room : data.length ≤ b.freeFrameLen) :
    ∃ b' pre' post', writeLoop data.length b.wPos (.null data.length) (b.fillFreeFrame data) =
        (b', data.length) ∧
      Layout b' pre' post' (q ++ data) ∧ b'.size = b.size ∧ (Flowing b pre → Flowing b' pre') := by
  rcases Nat.eq_zero_or_pos data.length with empty | positive
  · rw [List.eq_nil_of_length_eq_zero empty, fillFreeFrame_nil]
    exact ⟨b, pre, post, writeLoop_stop (Or.inl rfl), by simpa using layout, rfl, id⟩
  obtain ⟨rounds, lengthEq⟩ := Nat.exists_eq_succ_of_ne_zero (Nat.ne_zero_of_lt positive)
  have filledFree : ((b.mem b.wPos).fill data).freeSize = b.freeFrameLen := by
    simp only [Frame.freeSize, Frame.cap_fill, Frame.size_fill, Frame.start_fill, freeFrameLen]
  have space : ((b.mem b.wPos).fill data).full = false := by
    rw [Frame.not_full_iff, filledFree]
    exact Nat.lt_of_lt_of_le positive room
  have taken : ((b.mem b.wPos).fill data).realwrite data.length = data.length := by
    rw [Frame.realwrite_eq_min]
    omega
  have entered : 0 < (Src.null data.length).len ∧ b.wPos ≠ null ∧
      ((b.fillFreeFrame data).mem b.wPos).full = false := by
    refine ⟨positive, layout.chain.nonnull _ layout.wPos_mem, ?_⟩
    rw [fillFreeFrame, mem_setFrame_self, space]
  have storedEq : (b.fillFreeFrame data).setFrame b.wPos
      (((b.fillFreeFrame data).mem b.wPos).write (.null data.length)) =
      b.setFrame b.wPos (((b.mem b.wPos).fill data).write (.null data.length)) := by
    rw [fillFreeFrame, mem_setFrame_self]
    simp only [LoopBuf.setFrame, Function.update_idem]
  have stored : Layout (b.setFrame b.wPos (((b.mem b.wPos).fill data).write (.null data.length)))
      pre post (q ++ data) := by
    apply layout.put
    · rw [Frame.next_write, Frame.next_fill]
    · rw [Frame.cap_write, Frame.cap_fill]
    · exact Frame.data_write_null_fill _ room
    · intro empty
      rw [Frame.size_write, filledFree, Src.len_null] at empty
      omega
  have nextEq : ((b.fillFreeFrame data).mem b.wPos).next = (b.mem b.wPos).next := by
    rw [fillFreeFrame, mem_setFrame_self, Frame.next_fill]
  have stop : ∀ f (b' : LoopBuf), writeLoop rounds f (Src.drop data.length (.null data.length)) b' =
      (b', 0) := fun f b' => writeLoop_stop (Or.inl (by simp))
  have takenHere : ((b.fillFreeFrame data).mem b.wPos).realwrite data.length = data.length := by
    rw [fillFreeFrame, mem_setFrame_self, taken]
  nth_rewrite 1 [lengthEq]
  rw [writeLoop, if_pos entered]
  simp only [storedEq, nextEq, Src.len_null, takenHere, stop]
  by_cases moves : ((b.setFrame b.wPos (((b.mem b.wPos).fill data).write
      (.null data.length))).mem b.wPos).full = true ∧ (b.mem b.wPos).next ≠ null
  · obtain ⟨full, notLast⟩ := moves
    rw [if_pos ⟨full, notLast⟩]
    cases post with
    | nil => exact absurd layout.chain.linked.of_append.1 notLast
    | cons p post =>
        have nextIs : (b.mem b.wPos).next = p := layout.chain.linked.of_append.1
        rw [nextIs]
        refine ⟨_, pre ++ [b.wPos], post, rfl, stored.advance, rfl, ?_⟩
        intro flow r member
        rcases List.mem_append.mp member with before | here
        · exact layout.flowing_setFrame flow _ r before
        · rw [List.mem_singleton.mp here]
          exact stored.size_pos_of_full stored.wPos_mem full
  · rw [if_neg moves]
    exact ⟨_, pre, post, rfl, stored, rfl, fun flow => layout.flowing_setFrame flow _⟩

/-- Writing from `NULL` appends what a caller has put into the free part. -/
theorem writeFilled (layout : Layout b pre post q) {data : Bytes}
    (room : data.length ≤ b.freeFrameLen) :
    ∃ b' pre' post', (b.fillFreeFrame data).write (.null data.length) = (b', data.length) ∧
      Layout b' pre' post' (q ++ data) ∧ b'.size = b.size + data.length ∧
      (Flowing b pre → Flowing b' pre') := by
  obtain ⟨b', pre', post', loopEq, layout', sizeEq, flow⟩ := layout.writeLoop_filled room
  refine ⟨{ b' with size := b'.size + data.length }, pre', post', ?_, layout'.setSize _, ?_, flow⟩
  · rw [LoopBuf.write, Src.len_null, wPos_fillFreeFrame, loopEq]
  · rw [sizeEq]

/-! ## Extending -/

/-- `appendFrame` changes no other frame beyond its `m_next`. -/
theorem appendFrame_frame {α : Type*} (view : Frame → α)
    (blind : ∀ (g : Frame) (n : Ptr), view (g.setNext n) = view g) (sz : Nat) {r : Ptr}
    (old : r ≠ b.brk) : view ((b.appendFrame sz).mem r) = view (b.mem r) := by
  rw [appendFrame, link_frame _ _ _ view blind, allocFrame]
  exact congrArg view (mem_setFrame_of_ne old)

theorem appendFrame_fresh {α : Type*} (view : Frame → α)
    (blind : ∀ (g : Frame) (n : Ptr), view (g.setNext n) = view g) (b : LoopBuf) (sz : Nat) :
    view ((b.appendFrame sz).mem b.brk) = view (constructFrame (frameLen sz)) := by
  rw [appendFrame, link_frame _ _ _ view blind, allocFrame]
  exact congrArg view (mem_setFrame_self _ _ _)

/-- The new frame is one more empty frame behind the write position. -/
theorem appendFrame (layout : Layout b pre post q) (sz : Nat) :
    Layout (b.appendFrame sz) pre (post ++ [b.brk]) q := by
  have wPosEq : (b.appendFrame sz).wPos = b.wPos := rfl
  have listEq : pre ++ b.wPos :: (post ++ [b.brk]) = pre ++ b.wPos :: post ++ [b.brk] := by simp
  have old : ∀ r ∈ pre ++ b.wPos :: post, r ≠ b.brk := fun r member =>
    Nat.ne_of_lt (layout.chain.allocated r member)
  refine ⟨?_, ?_, ?_, ?_, ?_⟩
  · rw [wPosEq, listEq]
    exact layout.chain.appendFrame sz
  · rw [wPosEq, listEq]
    intro r member
    rcases List.mem_append.mp member with before | new
    · rw [appendFrame_frame Frame.cap (fun _ _ => rfl) sz (old r before)]
      exact layout.cap r before
    · rw [List.mem_singleton.mp new, appendFrame_fresh Frame.cap fun _ _ => rfl,
        cap_constructFrame]
      exact minCap_le_frameLen sz
  · rw [wPosEq, listEq]
    intro r member
    rcases List.mem_append.mp member with before | new
    · rw [appendFrame_frame Frame.size (fun _ _ => rfl) sz (old r before),
        appendFrame_frame Frame.start (fun _ _ => rfl) sz (old r before)]
      exact layout.restarted r before
    · rw [List.mem_singleton.mp new, appendFrame_fresh Frame.start fun _ _ => rfl]
      exact fun _ => rfl
  · intro r member
    rcases List.mem_append.mp member with before | new
    · rw [appendFrame_frame Frame.size (fun _ _ => rfl) sz (old r (by simp [before]))]
      exact layout.spare r before
    · rw [List.mem_singleton.mp new, appendFrame_fresh Frame.size fun _ _ => rfl]
      rfl
  · have freshData : ((b.appendFrame sz).mem b.brk).data = [] := by
      rw [appendFrame_fresh Frame.data fun _ _ => rfl]
      rfl
    rw [wPosEq, listEq, contents_append, contents_cons, freshData, contents_nil]
    simp only [List.append_nil]
    rw [contents_congr fun r member =>
      appendFrame_frame Frame.data (fun _ _ => rfl) sz (old r member)]
    exact layout.holds

/-- `extend` keeps the contents and leaves room at the write position. -/
theorem extend (layout : Layout b pre post q) (sz : Nat) :
    ∃ b' pre' post', b.extend sz = (b', frameLen sz - sizeofFrame) ∧ Layout b' pre' post' q ∧
      b'.size = b.size ∧ (b'.mem b'.wPos).full = false ∧
      freeIn b'.mem (b'.wPos :: post') =
        freeIn b.mem (b.wPos :: post) + (frameLen sz - sizeofFrame) ∧
      (Flowing b pre → Flowing b' pre') := by
  have appended := layout.appendFrame sz
  have old : ∀ r ∈ b.wPos :: post, r ≠ b.brk := fun r member =>
    Nat.ne_of_lt (layout.chain.allocated r (List.mem_append_right _ member))
  have capEq : ((b.appendFrame sz).mem b.brk).cap = frameLen sz - sizeofFrame := by
    rw [appendFrame_fresh Frame.cap fun _ _ => rfl, cap_constructFrame]
  have freeEq : freeIn (b.appendFrame sz).mem (b.wPos :: post ++ [b.brk]) =
      freeIn b.mem (b.wPos :: post) + (frameLen sz - sizeofFrame) := by
    have freshFree : ((b.appendFrame sz).mem b.brk).freeSize = frameLen sz - sizeofFrame := by
      rw [appendFrame_fresh Frame.freeSize fun _ _ => rfl, ← cap_constructFrame]
      rfl
    rw [freeIn_append, freeIn_cons _ b.brk, freshFree, freeIn_nil, Nat.add_zero,
      freeIn_congr fun r member =>
        appendFrame_frame Frame.freeSize (fun _ _ => rfl) sz (old r member)]
  have flowAppended : Flowing b pre → Flowing (b.appendFrame sz) pre := by
    intro flow p member
    have notFresh : p ≠ b.brk :=
      Nat.ne_of_lt (layout.chain.allocated p (List.mem_append_left _ member))
    rw [appendFrame_frame Frame.size (fun _ _ => rfl) sz notFresh]
    exact flow p member
  by_cases full : ((b.appendFrame sz).mem (b.appendFrame sz).wPos).full = true
  · obtain ⟨p, behind, splitEq⟩ : ∃ p behind, post ++ [b.brk] = p :: behind := by
      cases post <;> exact ⟨_, _, rfl⟩
    have nextEq : ((b.appendFrame sz).mem (b.appendFrame sz).wPos).next = p := by
      have linked := appended.chain.linked.of_append.1
      rw [splitEq] at linked
      exact linked
    have advanced := (splitEq ▸ appended).advance
    refine ⟨_, pre ++ [b.wPos], behind, ?_, advanced, rfl, ?_, ?_, ?_⟩
    · rw [LoopBuf.extend]
      simp only [full, if_true, nextEq, capEq]
    · apply advanced.not_full_of_empty advanced.wPos_mem
      exact appended.spare p (splitEq ▸ List.mem_cons_self)
    · rw [← freeEq, List.cons_append, splitEq]
      have noRoom := (Frame.full_iff _).mp full
      exact (Nat.zero_add _).symm.trans (congrArg (· + _) noRoom.symm)
    · intro flow p member
      rcases List.mem_append.mp member with before | here
      · exact flowAppended flow p before
      · rw [List.mem_singleton.mp here]
        exact appended.size_pos_of_full appended.wPos_mem full
  · refine ⟨b.appendFrame sz, pre, post ++ [b.brk], ?_, appended, rfl,
      Bool.not_eq_true _ ▸ full, freeEq, flowAppended⟩
    rw [LoopBuf.extend]
    simp only [full, Bool.false_eq_true, if_false, capEq]

end Layout

end GPush.LoopBuf
