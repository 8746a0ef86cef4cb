import GPush.LoopBuf.Core
import Mathlib.Data.List.Perm.Subperm
import Mathlib.Data.List.Nodup

/-!
# The list of frames

A well-formed buffer is a null-terminated list of distinct frames.  Only two
operations change the list: a new frame is put at its end, and a drained first
frame is moved to its end.  Both are instances of one lemma about appending.
-/

namespace GPush.LoopBuf

/-- The frames at `ps` are linked in this order and the last one ends the list. -/
def Linked (mem : Ptr → Frame) : List Ptr → Prop
  | [] => True
  | p :: rest => (mem p).next = rest.headD null ∧ Linked mem rest

/-- The bytes of the frames at `ps`, in list order. -/
def contents (mem : Ptr → Frame) (ps : List Ptr) : Bytes :=
  ps.flatMap fun p => (mem p).data

@[simp]
theorem contents_nil (mem : Ptr → Frame) : contents mem [] = [] :=
  rfl

@[simp]
theorem contents_cons (mem : Ptr → Frame) (p : Ptr) (ps : List Ptr) :
    contents mem (p :: ps) = (mem p).data ++ contents mem ps :=
  rfl

@[simp]
theorem contents_append (mem : Ptr → Frame) (ps qs : List Ptr) :
    contents mem (ps ++ qs) = contents mem ps ++ contents mem qs :=
  List.flatMap_append

theorem contents_congr {mem mem' : Ptr → Frame} {ps : List Ptr}
    (same : ∀ p ∈ ps, (mem' p).data = (mem p).data) : contents mem' ps = contents mem ps := by
  induction ps with
  | nil => rfl
  | cons p ps ih =>
      rw [contents_cons, contents_cons, same p List.mem_cons_self,
        ih fun q mem => same q (List.mem_cons_of_mem p mem)]

/-- Empty frames contribute nothing. -/
theorem contents_eq_nil {mem : Ptr → Frame} {ps : List Ptr}
    (empty : ∀ p ∈ ps, (mem p).size = 0) : contents mem ps = [] := by
  apply List.flatMap_eq_nil_iff.mpr
  intro p member
  apply List.eq_nil_of_length_eq_zero
  rw [Frame.length_data, empty p member]

theorem Linked.congr {mem mem' : Ptr → Frame} {ps : List Ptr} (linked : Linked mem ps)
    (same : ∀ p ∈ ps, (mem' p).next = (mem p).next) : Linked mem' ps := by
  induction ps with
  | nil => trivial
  | cons p ps ih =>
      obtain ⟨nextEq, rest⟩ := linked
      exact ⟨(same p List.mem_cons_self).trans nextEq,
        ih rest fun q member => same q (List.mem_cons_of_mem p member)⟩

/-- Linking a frame behind the last one extends the list. -/
theorem Linked.snoc {mem mem' : Ptr → Frame} {xs : List Ptr} {t p : Ptr}
    (linked : Linked mem (xs ++ [t])) (same : ∀ q ∈ xs, (mem' q).next = (mem q).next)
    (lastNext : (mem' t).next = p) (ended : (mem' p).next = null) :
    Linked mem' (xs ++ [t] ++ [p]) := by
  induction xs with
  | nil => exact ⟨lastNext, ended, trivial⟩
  | cons x xs ih =>
      obtain ⟨nextEq, rest⟩ := linked
      refine ⟨?_, ih rest fun q member => same q (List.mem_cons_of_mem x member)⟩
      rw [same x List.mem_cons_self, nextEq]
      cases xs <;> rfl

theorem Linked.of_append {mem : Ptr → Frame} {xs ys : List Ptr}
    (linked : Linked mem (xs ++ ys)) : Linked mem ys := by
  induction xs with
  | nil => exact linked
  | cons x xs ih => exact ih linked.2

/-! ## Heap accesses -/

section Heap

variable (b : LoopBuf) (p q : Ptr) (f : Frame)

@[simp]
theorem mem_setFrame_self : (b.setFrame p f).mem p = f :=
  Function.update_self ..

theorem mem_setFrame_of_ne {b : LoopBuf} {p q : Ptr} {f : Frame} (distinct : q ≠ p) :
    (b.setFrame p f).mem q = b.mem q :=
  Function.update_of_ne distinct ..

@[simp] theorem wPos_setFrame : (b.setFrame p f).wPos = b.wPos := rfl
@[simp] theorem tail_setFrame : (b.setFrame p f).tail = b.tail := rfl

@[simp]
theorem next_link_self : ((b.link p q).mem p).next = q := by
  simp [link]

theorem next_link_of_ne {b : LoopBuf} {p q r : Ptr} (distinct : r ≠ p) :
    ((b.link p q).mem r).next = (b.mem r).next := by
  rw [link, mem_setFrame_of_ne distinct]

/-- A property of frames that does not look at `m_next` is not touched by `link`. -/
theorem link_frame {α : Type*} (view : Frame → α)
    (blind : ∀ (g : Frame) (n : Ptr), view (g.setNext n) = view g) (r : Ptr) :
    view ((b.link p q).mem r) = view (b.mem r) := by
  by_cases same : r = p
  · subst r
    rw [link, mem_setFrame_self, blind]
  · rw [link, mem_setFrame_of_ne same]

/-- The same for a rotation. -/
theorem rotate_frame {α : Type*} (view : Frame → α)
    (blind : ∀ (g : Frame) (n : Ptr), view (g.setNext n) = view g) (r : Ptr) :
    view ((b.rotate p q).mem r) = view (b.mem r) := by
  rw [rotate, link_frame _ _ _ view blind]
  exact link_frame _ _ _ view blind r

end Heap

/-! ## Well-formed lists -/

/-- Distinct positive numbers below `n` are fewer than `n`. -/
theorem length_lt_of_nodup {ps : List Nat} {n : Nat} (nodup : ps.Nodup)
    (positive : ∀ p ∈ ps, p ≠ 0) (below : ∀ p ∈ ps, p < n) (nonempty : ps ≠ []) :
    ps.length < n := by
  obtain ⟨p, member⟩ := List.exists_mem_of_ne_nil ps nonempty
  have inRange : ps ⊆ List.range' 1 (n - 1) := by
    intro q member
    have := positive q member
    have := below q member
    rw [List.mem_range'_1]
    omega
  have counted := (nodup.subperm inRange).length_le
  have := below p member
  rw [List.length_range'] at counted
  omega

/-- The frames of `b` are those at `ps`, in list order. -/
structure Chain (b : LoopBuf) (ps : List Ptr) : Prop where
  linked : Linked b.mem ps
  nodup : ps.Nodup
  head : ps.head? = some b.head
  last : ps.getLast? = some b.tail
  nonnull : ∀ p ∈ ps, p ≠ null
  allocated : ∀ p ∈ ps, p < b.brk

namespace Chain

variable {b : LoopBuf} {ps : List Ptr}

/-- Updating a frame in place keeps the list. -/
theorem setFrame (chain : Chain b ps) {p : Ptr} {f : Frame}
    (keeps : f.next = (b.mem p).next) : Chain (b.setFrame p f) ps where
  linked := chain.linked.congr fun q _ => by
    by_cases same : q = p
    · subst q
      rw [mem_setFrame_self, keeps]
    · rw [mem_setFrame_of_ne same]
  nodup := chain.nodup
  head := chain.head
  last := chain.last
  nonnull := chain.nonnull
  allocated := chain.allocated

/-- The write position is not part of the list. -/
theorem setWPos (chain : Chain b ps) (p : Ptr) : Chain { b with wPos := p } ps :=
  ⟨chain.linked, chain.nodup, chain.head, chain.last, chain.nonnull, chain.allocated⟩

/-- The number of frames bounds the rounds of every loop over the list. -/
theorem length_lt_brk (chain : Chain b ps) : ps.length < b.brk := by
  have headMember : b.head ∈ ps := List.mem_of_head? chain.head
  exact length_lt_of_nodup chain.nodup chain.nonnull chain.allocated
    (List.ne_nil_of_mem headMember)

theorem tail_mem (chain : Chain b ps) : b.tail ∈ ps :=
  List.mem_of_getLast? chain.last

/-- The last frame split off. -/
theorem eq_append_tail (chain : Chain b ps) : ∃ xs, ps = xs ++ [b.tail] ∧ b.tail ∉ xs := by
  obtain ⟨xs, splitEq⟩ := List.getLast?_eq_some_iff.mp chain.last
  refine ⟨xs, splitEq, ?_⟩
  have nodup := chain.nodup
  rw [splitEq] at nodup
  intro member
  exact List.disjoint_of_nodup_append nodup member List.mem_cons_self

/-- Moving the drained first frame behind the last one. -/
theorem rotate {p q : Ptr} {rest : List Ptr} (chain : Chain b (p :: q :: rest)) :
    Chain (b.rotate p q) (q :: rest ++ [p]) := by
  obtain ⟨pNotIn, restNodup⟩ := List.nodup_cons.mp chain.nodup
  have lastEq : (q :: rest).getLast? = some b.tail := by
    rw [← chain.last, List.getLast?_cons_cons]
  obtain ⟨xs, splitEq⟩ := List.getLast?_eq_some_iff.mp lastEq
  have tailMember : b.tail ∈ q :: rest := List.mem_of_getLast? lastEq
  have tailNe : b.tail ≠ p := fun same => pNotIn (same ▸ tailMember)
  have others : ∀ r, r ≠ p → r ≠ b.tail → ((b.rotate p q).mem r).next = (b.mem r).next := by
    intro r notP notTail
    rw [LoopBuf.rotate, next_link_of_ne notP]
    exact next_link_of_ne notTail
  refine ⟨?_, ?_, rfl, List.getLast?_concat, ?_, ?_⟩
  · rw [splitEq]
    rw [splitEq] at restNodup pNotIn
    apply Linked.snoc (splitEq ▸ chain.linked.2)
    · intro r member
      apply others r
      · rintro rfl
        exact pNotIn (List.mem_append_left _ member)
      · rintro rfl
        exact List.disjoint_of_nodup_append restNodup member List.mem_cons_self
    · rw [LoopBuf.rotate, next_link_of_ne tailNe]
      exact next_link_self _ _ _
    · exact next_link_self _ _ _
  · exact List.nodup_append_comm.mp (List.nodup_cons.mpr ⟨pNotIn, restNodup⟩)
  · intro r member
    apply chain.nonnull r
    simp only [List.mem_append, List.mem_cons, List.not_mem_nil, or_false] at member ⊢
    tauto
  · intro r member
    apply chain.allocated r
    simp only [List.mem_append, List.mem_cons, List.not_mem_nil, or_false] at member ⊢
    tauto

/-- Linking a fresh frame behind the last one. -/
theorem appendFrame (chain : Chain b ps) (sz : Nat) :
    Chain (b.appendFrame sz) (ps ++ [b.brk]) := by
  obtain ⟨xs, splitEq, tailNotIn⟩ := chain.eq_append_tail
  have fresh : ∀ r ∈ ps, r ≠ b.brk := fun r member =>
    Nat.ne_of_lt (chain.allocated r member)
  have tailNe : b.tail ≠ b.brk := fresh _ chain.tail_mem
  have others : ∀ r, r ≠ b.brk → r ≠ b.tail →
      ((b.appendFrame sz).mem r).next = (b.mem r).next := by
    intro r notFresh notTail
    have linkEq : ((b.appendFrame sz).mem r).next = ((b.allocFrame sz).mem r).next :=
      next_link_of_ne notTail
    rw [linkEq, allocFrame]
    exact congrArg Frame.next (mem_setFrame_of_ne notFresh)
  refine ⟨?_, ?_, ?_, List.getLast?_concat, ?_, ?_⟩
  · rw [splitEq]
    apply Linked.snoc (splitEq ▸ chain.linked)
    · intro r member
      apply others r (fresh r (splitEq ▸ List.mem_append_left _ member))
      rintro rfl
      exact tailNotIn member
    · exact next_link_self _ _ _
    · have linkEq : ((b.appendFrame sz).mem b.brk).next = ((b.allocFrame sz).mem b.brk).next :=
        next_link_of_ne tailNe.symm
      rw [linkEq, allocFrame]
      exact congrArg Frame.next (mem_setFrame_self _ _ _)
  · refine List.nodup_append_comm.mp (List.nodup_cons.mpr ⟨?_, chain.nodup⟩)
    intro member
    exact fresh _ member rfl
  · rw [List.head?_append, chain.head]
    rfl
  · intro r member
    rcases List.mem_append.mp member with old | new
    · exact chain.nonnull r old
    · rw [List.mem_singleton.mp new]
      exact Nat.ne_zero_of_lt (chain.allocated _ chain.tail_mem)
  · intro r member
    rcases List.mem_append.mp member with old | new
    · exact Nat.lt_succ_of_lt (chain.allocated r old)
    · rw [List.mem_singleton.mp new]
      exact Nat.lt_succ_self _

end Chain

end GPush.LoopBuf
