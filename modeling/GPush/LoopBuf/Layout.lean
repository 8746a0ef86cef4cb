import GPush.LoopBuf.Chain

/-!
# The representation invariant

The write position splits the list of frames.  Frames behind it are empty; they
are the drained frames that `LoopBuf::read` has moved to the end.  Nothing is
asked of the frames before it: they may be full, partly read or empty.
-/

namespace GPush.LoopBuf

/-- The smallest capacity of an allocated frame. -/
def minCap : Nat := defaultAlignSize - sizeofFrame

/-- `b` holds the bytes `q`, in the frames `pre` before the write position, in the
frame at the write position, and in the empty frames `post` behind it. -/
structure Layout (b : LoopBuf) (pre post : List Ptr) (q : Bytes) : Prop where
  chain : Chain b (pre ++ b.wPos :: post)
  cap : ∀ p ∈ pre ++ b.wPos :: post, minCap ≤ (b.mem p).cap
  restarted : ∀ p ∈ pre ++ b.wPos :: post, (b.mem p).size = 0 → (b.mem p).start = 0
  spare : ∀ p ∈ post, (b.mem p).size = 0
  holds : contents b.mem (pre ++ b.wPos :: post) = q

/-- `b` represents the queue `q`. -/
def Represents (b : LoopBuf) (q : Bytes) : Prop :=
  (∃ pre post, Layout b pre post q) ∧ b.size = q.length

/-! ## Fresh frames -/

theorem minCap_le_frameLen (l : Nat) : minCap ≤ frameLen l - sizeofFrame := by
  have := Nat.mod_le l defaultAlignSize
  simp only [minCap, frameLen, defaultAlignSize, sizeofFrame] at *
  omega

theorem cap_constructFrame (len : Nat) : (constructFrame len).cap = len - sizeofFrame := by
  simp [constructFrame, Frame.cap]

theorem represents_init : Represents init [] := by
  refine ⟨⟨[], [], ?_⟩, rfl⟩
  refine ⟨⟨⟨rfl, trivial⟩, List.nodup_singleton _, rfl, rfl, ?_, ?_⟩, ?_, ?_, ?_, ?_⟩
  · intro p member
    rw [List.mem_singleton.mp member]
    decide
  · intro p member
    rw [List.mem_singleton.mp member]
    decide
  · intro p _
    change minCap ≤ (constructFrame (frameLen 1024)).cap
    rw [cap_constructFrame]
    exact minCap_le_frameLen 1024
  · intro p _ _
    rfl
  · intro p member
    exact absurd member List.not_mem_nil
  · apply contents_eq_nil
    intro p _
    rfl

namespace Layout

variable {b : LoopBuf} {pre post : List Ptr} {q : Bytes}

theorem wPos_mem (_ : Layout b pre post q) : b.wPos ∈ pre ++ b.wPos :: post := by
  simp

/-- The contents lie before and at the write position. -/
theorem contents_written (layout : Layout b pre post q) :
    contents b.mem (pre ++ [b.wPos]) = q := by
  rw [← layout.holds]
  simp [contents_eq_nil layout.spare]

/-- No frame that holds data is behind the write position. -/
theorem ne_next_wPos (layout : Layout b pre post q) {p : Ptr} (member : p ∈ pre ++ [b.wPos]) :
    p ≠ (b.mem b.wPos).next := by
  have linked : Linked b.mem (b.wPos :: post) := layout.chain.linked.of_append
  have inChain : p ∈ pre ++ b.wPos :: post := by
    simp only [List.mem_append, List.mem_cons, List.not_mem_nil, or_false] at member ⊢
    tauto
  rw [linked.1]
  cases post with
  | nil => exact layout.chain.nonnull p inChain
  | cons r post =>
      intro same
      change p = r at same
      subst p
      have nodup : (pre ++ [b.wPos] ++ r :: post).Nodup := by
        simpa using layout.chain.nodup
      exact List.disjoint_of_nodup_append nodup member List.mem_cons_self

/-- An empty frame of the list takes at least `minCap` bytes. -/
theorem freeSize_of_empty (layout : Layout b pre post q) {p : Ptr}
    (member : p ∈ pre ++ b.wPos :: post) (empty : (b.mem p).size = 0) :
    (b.mem p).freeSize = (b.mem p).cap ∧ minCap ≤ (b.mem p).freeSize := by
  have started := layout.restarted p member empty
  have large := layout.cap p member
  simp only [Frame.freeSize, empty, started, Nat.sub_zero]
  exact ⟨trivial, large⟩

/-- An empty frame takes bytes. -/
theorem not_full_of_empty (layout : Layout b pre post q) {p : Ptr}
    (member : p ∈ pre ++ b.wPos :: post) (empty : (b.mem p).size = 0) :
    (b.mem p).full = false := by
  rw [Frame.not_full_iff]
  have large : 0 < minCap := by decide
  exact Nat.lt_of_lt_of_le large (layout.freeSize_of_empty member empty).2

/-- A full frame holds data. -/
theorem size_pos_of_full (layout : Layout b pre post q) {p : Ptr}
    (member : p ∈ pre ++ b.wPos :: post) (full : (b.mem p).full = true) :
    0 < (b.mem p).size := by
  apply Nat.pos_of_ne_zero
  intro empty
  exact absurd (full.symm.trans (layout.not_full_of_empty member empty)) (by decide)

/-- A list whose first frame is its last one has no other. -/
theorem single (layout : Layout b pre post q) (same : b.head = b.tail) : pre = [] ∧ post = [] := by
  obtain ⟨rest, listEq⟩ := List.head?_eq_some_iff.mp layout.chain.head
  have noRest : rest = [] := by
    by_contra more
    obtain ⟨p, rest, rfl⟩ := List.exists_cons_of_ne_nil more
    have last := layout.chain.last
    have nodup := layout.chain.nodup
    rw [listEq] at last nodup
    rw [List.getLast?_cons_cons] at last
    exact (List.nodup_cons.mp nodup).1 (same ▸ List.mem_of_getLast? last)
  have count := congrArg List.length listEq
  rw [noRest] at count
  simp only [List.length_append, List.length_cons, List.length_nil] at count
  exact ⟨List.eq_nil_of_length_eq_zero (by omega), List.eq_nil_of_length_eq_zero (by omega)⟩

/-- Appending `d` to the frame at the write position. -/
theorem put (layout : Layout b pre post q) {f : Frame} {d : Bytes}
    (nextEq : f.next = (b.mem b.wPos).next) (capEq : f.cap = (b.mem b.wPos).cap)
    (dataEq : f.data = (b.mem b.wPos).data ++ d) (nonempty : f.size = 0 → f.start = 0) :
    Layout (b.setFrame b.wPos f) pre post (q ++ d) := by
  have nodup := layout.chain.nodup
  have split : contents b.mem pre ++ (b.mem b.wPos).data = q := by
    simpa using layout.contents_written
  have notPre : ∀ p ∈ pre, p ≠ b.wPos := by
    rintro p member rfl
    exact List.disjoint_of_nodup_append nodup member List.mem_cons_self
  have notPost : ∀ p ∈ post, p ≠ b.wPos := by
    rintro p member rfl
    exact (List.nodup_cons.mp (List.Nodup.of_append_right nodup)).1 member
  refine ⟨layout.chain.setFrame nextEq, ?_, ?_, ?_, ?_⟩
  · intro p member
    by_cases same : p = b.wPos
    · subst p
      rw [mem_setFrame_self, capEq]
      exact layout.cap _ member
    · rw [mem_setFrame_of_ne same]
      exact layout.cap _ member
  · intro p member
    by_cases same : p = b.wPos
    · subst p
      rw [mem_setFrame_self]
      exact nonempty
    · rw [mem_setFrame_of_ne same]
      exact layout.restarted _ member
  · intro p member
    rw [mem_setFrame_of_ne (notPost p member)]
    exact layout.spare p member
  · have preEq : contents (b.setFrame b.wPos f).mem pre = contents b.mem pre :=
      contents_congr fun p member => by rw [mem_setFrame_of_ne (notPre p member)]
    have postEq : contents (b.setFrame b.wPos f).mem post = [] :=
      contents_eq_nil fun p member => by
        rw [mem_setFrame_of_ne (notPost p member)]
        exact layout.spare p member
    rw [wPos_setFrame, contents_append, contents_cons, preEq, postEq, mem_setFrame_self, dataEq,
      ← split]
    simp

/-- Moving the write position to the next frame. -/
theorem advance {p : Ptr} (layout : Layout b pre (p :: post) q) :
    Layout { b with wPos := p } (pre ++ [b.wPos]) post q := by
  have listEq : pre ++ [b.wPos] ++ p :: post = pre ++ b.wPos :: p :: post := by simp
  refine ⟨?_, ?_, ?_, ?_, ?_⟩
  · rw [listEq]
    exact layout.chain.setWPos p
  · rw [listEq]
    exact layout.cap
  · rw [listEq]
    exact layout.restarted
  · intro r member
    exact layout.spare r (List.mem_cons_of_mem p member)
  · rw [listEq]
    exact layout.holds

end Layout

end GPush.LoopBuf
