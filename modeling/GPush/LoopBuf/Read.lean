import GPush.LoopBuf.Layout

/-!
# Reading

Specifications of the operations that look at or remove the front of the queue.
A read that stays within the contents walks over a prefix of the list, moving
every frame it drains to the end.  A read past the contents returns only when
there is a single frame: with two or more the drained frames are visited again.
-/

namespace GPush.LoopBuf

/-- The frames before the write position all hold data. -/
def Flowing (b : LoopBuf) (pre : List Ptr) : Prop := ∀ p ∈ pre, 0 < (b.mem p).size

namespace Layout

variable {b : LoopBuf} {pre post : List Ptr} {q : Bytes}

/-- The first frame is at or before the write position. -/
theorem head_written (layout : Layout b pre post q) :
    (pre ++ [b.wPos]).head? = some b.head := by
  rw [← layout.chain.head]
  cases pre <;> rfl

theorem length_pre_lt_brk (layout : Layout b pre post q) : pre.length < b.brk := by
  have bound := layout.chain.length_lt_brk
  simp only [List.length_append, List.length_cons] at bound
  omega

/-! ## Walking over the list -/

private theorem peekLoop_spec (layout : Layout b pre post q) (seen todo : List Ptr)
    (split : pre = seen ++ todo) {f : Ptr} (start : (todo ++ [b.wPos]).head? = some f)
    {rounds : Nat} (enough : todo.length < rounds) (len : Nat) :
    peekLoop rounds f len b = some ((contents b.mem (todo ++ [b.wPos])).take len) := by
  induction todo generalizing seen f rounds len with
  | nil =>
      have same : b.wPos = f := by simpa using start
      subst f
      obtain ⟨rounds, rfl⟩ := Nat.exists_eq_succ_of_ne_zero (Nat.ne_zero_of_lt enough)
      by_cases positive : 0 < len
      · have inside : 0 < len ∧ b.wPos ≠ null ∧ b.wPos ≠ (b.mem b.wPos).next :=
          ⟨positive, layout.chain.nonnull _ layout.wPos_mem, layout.ne_next_wPos (by simp)⟩
        have stopped : ∀ rounds len, peekLoop rounds (b.mem b.wPos).next len b = some [] := by
          intro rounds len
          unfold peekLoop
          simp
        rw [peekLoop, if_pos inside]
        simp only [stopped, Option.map_some, Frame.peek_eq_take]
        simp
      · have zero : len = 0 := by omega
        subst len
        unfold peekLoop
        simp
  | cons p todo ih =>
      have same : p = f := by simpa using start
      subst f
      obtain ⟨rounds, rfl⟩ := Nat.exists_eq_succ_of_ne_zero (Nat.ne_zero_of_lt enough)
      by_cases positive : 0 < len
      · have member : p ∈ pre := by simp [split]
        have inside : 0 < len ∧ p ≠ null ∧ p ≠ (b.mem b.wPos).next :=
          ⟨positive, layout.chain.nonnull _ (List.mem_append_left _ member),
            layout.ne_next_wPos (List.mem_append_left _ member)⟩
        have whole : Linked b.mem (seen ++ p :: (todo ++ b.wPos :: post)) := by
          simpa [split] using layout.chain.linked
        have linked : Linked b.mem (p :: (todo ++ b.wPos :: post)) := whole.of_append
        have nextStart : (todo ++ [b.wPos]).head? = some (b.mem p).next := by
          rw [linked.1]
          cases todo <;> rfl
        have rest := ih (seen ++ [p]) (by simp [split]) nextStart
          (Nat.succ_lt_succ_iff.mp enough) (len - ((b.mem p).peek len).length)
        rw [peekLoop, if_pos inside]
        simp only [rest, Option.map_some]
        simp only [List.cons_append, contents_cons, List.take_append, Frame.peek_eq_take,
          List.length_take]
        congr 3
        omega
      · have zero : len = 0 := by omega
        subst len
        unfold peekLoop
        simp

/-- `peek` yields a prefix of the queue. -/
theorem peek (layout : Layout b pre post q) (len : Nat) : b.peek len = some (q.take len) := by
  rw [LoopBuf.peek, layout.peekLoop_spec [] pre rfl layout.head_written layout.length_pre_lt_brk,
    layout.contents_written]

private theorem findLoop_spec (todo : List Ptr) {f : Ptr} (linked : Linked b.mem todo)
    (start : todo.headD null = f) (nonnull : ∀ p ∈ todo, p ≠ null) {rounds : Nat}
    (enough : todo.length ≤ rounds) (ret : Nat) (c : UInt8) :
    findLoop rounds f ret c b =
      some (match (contents b.mem todo).idxOf? c with
        | some i => (ret + i : Nat)
        | none => -1) := by
  induction todo generalizing f rounds ret with
  | nil =>
      subst start
      unfold findLoop
      simp
  | cons p todo ih =>
      change p = f at start
      subst f
      obtain ⟨rounds, rfl⟩ := Nat.exists_eq_succ_of_ne_zero (Nat.ne_zero_of_lt enough)
      have rest := ih linked.2 linked.1.symm
        (fun r member => nonnull r (List.mem_cons_of_mem p member))
        (Nat.succ_le_succ_iff.mp enough) (ret + (b.mem p).size)
      have appended : (contents b.mem (p :: todo)).idxOf? c =
          ((b.mem p).data.idxOf? c).or
            (((contents b.mem todo).idxOf? c).map (· + (b.mem p).size)) := by
        simp [List.idxOf?, List.findIdx?_append]
      rw [findLoop, if_pos (nonnull p List.mem_cons_self), appended]
      cases here : (b.mem p).data.idxOf? c with
      | some i => rfl
      | none =>
          simp only [Option.none_or]
          rw [rest]
          cases (contents b.mem todo).idxOf? c with
          | none => rfl
          | some i => simp [Nat.add_assoc, Nat.add_comm i]

/-- `find` yields the index of the first occurrence. -/
theorem find (layout : Layout b pre post q) (c : UInt8) :
    b.find c = some (match q.idxOf? c with
      | some i => (i : Nat)
      | none => -1) := by
  have start : (pre ++ b.wPos :: post).headD null = b.head := by
    rw [List.headD_eq_head?_getD, layout.chain.head]
    rfl
  rw [LoopBuf.find, findLoop_spec _ layout.chain.linked start layout.chain.nonnull
    (Nat.le_of_lt layout.chain.length_lt_brk), layout.holds]
  simp

private theorem clearLoop_spec (todo : List Ptr) {f : Ptr} (linked : Linked b.mem todo)
    (start : todo.headD null = f) (nonnull : ∀ p ∈ todo, p ≠ null) {rounds : Nat}
    (enough : todo.length ≤ rounds) :
    clearLoop rounds f b =
      some { b with mem := fun p => if p ∈ todo then (b.mem p).clear else b.mem p } := by
  induction todo generalizing f rounds b with
  | nil =>
      subst start
      unfold clearLoop
      simp
  | cons p todo ih =>
      change p = f at start
      subst f
      obtain ⟨rounds, rfl⟩ := Nat.exists_eq_succ_of_ne_zero (Nat.ne_zero_of_lt enough)
      have kept : Linked (b.setFrame p (b.mem p).clear).mem todo := by
        apply linked.2.congr
        intro r _
        by_cases same : r = p
        · subst r
          rw [mem_setFrame_self, Frame.next_clear]
        · rw [mem_setFrame_of_ne same]
      rw [clearLoop, if_pos (nonnull p List.mem_cons_self)]
      change clearLoop rounds (b.mem p).next (b.setFrame p (b.mem p).clear) = _
      rw [ih kept linked.1.symm (fun r member => nonnull r (List.mem_cons_of_mem p member))
        (Nat.succ_le_succ_iff.mp enough)]
      simp only [setFrame, List.mem_cons]
      congr 2
      funext r
      by_cases same : r = p
      · subst r
        by_cases later : p ∈ todo <;> simp [later, Frame.clear]
      · simp [same]

/-- `clear` empties every frame and leaves the list and the write position alone. -/
theorem clear (layout : Layout b pre post q) :
    ∃ b', b.clear = some (b', b.size) ∧ Layout b' pre post [] ∧ b'.size = 0 := by
  have start : (pre ++ b.wPos :: post).headD null = b.head := by
    rw [List.headD_eq_head?_getD, layout.chain.head]
    rfl
  have looped := clearLoop_spec _ layout.chain.linked start layout.chain.nonnull
    (Nat.le_of_lt layout.chain.length_lt_brk)
  refine ⟨_, by rw [LoopBuf.clear, looped]; exact rfl, ?_, rfl⟩
  have cleared : ∀ p ∈ pre ++ b.wPos :: post,
      (if p ∈ pre ++ b.wPos :: post then (b.mem p).clear else b.mem p) = (b.mem p).clear :=
    fun p member => if_pos member
  refine ⟨⟨?_, layout.chain.nodup, layout.chain.head, layout.chain.last, layout.chain.nonnull,
    layout.chain.allocated⟩, ?_, ?_, ?_, ?_⟩
  · apply layout.chain.linked.congr
    intro p member
    simp only [cleared p member, Frame.next_clear]
  · intro p member
    simp only [cleared p member, Frame.cap_clear]
    exact layout.cap p member
  · intro p member _
    simp only [cleared p member, Frame.start_clear]
  · intro p member
    have inChain : p ∈ pre ++ b.wPos :: post := by simp [member]
    simp only [cleared p inChain, Frame.size_clear]
  · apply contents_eq_nil
    intro p member
    simp only [cleared p member, Frame.size_clear]

/-! ## Reading -/

/-- One round of `read`: the first frame loses a prefix. -/
theorem readHead (layout : Layout b pre post q) {p : Ptr} {rest : List Ptr}
    (listEq : pre ++ b.wPos :: post = p :: rest) (len : Nat) :
    Layout (b.setFrame p ((b.mem p).read len)) pre post
      ((b.mem p).data.drop len ++ contents b.mem rest) := by
  have notRest : ∀ r ∈ rest, r ≠ p := by
    rintro r member rfl
    have nodup := listEq ▸ layout.chain.nodup
    exact (List.nodup_cons.mp nodup).1 member
  refine ⟨layout.chain.setFrame rfl, ?_, ?_, ?_, ?_⟩
  · intro r member
    by_cases same : r = p
    · subst same
      rw [mem_setFrame_self, Frame.cap_read]
      exact layout.cap r member
    · rw [mem_setFrame_of_ne same]
      exact layout.cap r member
  · intro r member
    by_cases same : r = p
    · subst same
      rw [mem_setFrame_self]
      exact Frame.start_read_of_drained
    · rw [mem_setFrame_of_ne same]
      exact layout.restarted r member
  · intro r member
    by_cases same : r = p
    · subst same
      rw [mem_setFrame_self, Frame.size_read, layout.spare r member, Nat.zero_sub]
    · rw [mem_setFrame_of_ne same]
      exact layout.spare r member
  · rw [wPos_setFrame, listEq, contents_cons, mem_setFrame_self, Frame.data_read]
    congr 1
    exact contents_congr fun r member => by rw [mem_setFrame_of_ne (notRest r member)]

/-- Moving a drained first frame to the end keeps the contents. -/
theorem rotate (layout : Layout b pre post q) {p n : Ptr} {rest pre' post' : List Ptr}
    (listEq : pre ++ b.wPos :: post = p :: n :: rest) (drained : (b.mem p).size = 0)
    (newEq : pre' ++ b.wPos :: post' = n :: rest ++ [p])
    (spare : ∀ r ∈ post', (b.mem r).size = 0) : Layout (b.rotate p n) pre' post' q := by
  have wPosEq : (b.rotate p n).wPos = b.wPos := rfl
  have same : ∀ r ∈ pre' ++ b.wPos :: post', r ∈ pre ++ b.wPos :: post := by
    intro r member
    rw [newEq] at member
    rw [listEq]
    simp only [List.mem_append, List.mem_cons, List.not_mem_nil, or_false] at member ⊢
    tauto
  have held : (b.mem p).data = [] := by
    apply List.eq_nil_of_length_eq_zero
    rw [Frame.length_data, drained]
  refine ⟨?_, ?_, ?_, ?_, ?_⟩
  · rw [wPosEq, newEq]
    exact (listEq ▸ layout.chain).rotate
  · intro r member
    rw [rotate_frame _ _ _ Frame.cap fun _ _ => rfl]
    exact layout.cap r (same r member)
  · intro r member
    rw [rotate_frame _ _ _ Frame.size fun _ _ => rfl, rotate_frame _ _ _ Frame.start fun _ _ => rfl]
    exact layout.restarted r (same r member)
  · intro r member
    rw [rotate_frame _ _ _ Frame.size fun _ _ => rfl]
    exact spare r member
  · have dataEq : contents (b.rotate p n).mem (n :: rest ++ [p]) =
        contents b.mem (n :: rest ++ [p]) :=
      contents_congr fun r _ => rotate_frame _ _ _ Frame.data (fun _ _ => rfl) r
    rw [wPosEq, newEq, dataEq, ← layout.holds, listEq, contents_append]
    simp [held]

private theorem readLoop_stop {rounds : Nat} {f : Ptr} {len : Nat} (stop : len = 0 ∨ f = null) :
    readLoop rounds f len b = some (b, []) := by
  unfold readLoop
  rcases stop with rfl | rfl <;> simp

/-- The outcome of a read of `len` bytes that returns: the list keeps its length,
and unless the last bytes of a longer list go from the write position, no empty
frame comes to lie before it. -/
structure ReadOutcome (b : LoopBuf) (pre post : List Ptr) (q : Bytes) (len : Nat)
    (b' : LoopBuf) (pre' post' : List Ptr) : Prop where
  layout : Layout b' pre' post' (q.drop len)
  size : b'.size = b.size
  length : pre'.length + post'.length = pre.length + post.length
  atWPos : (b'.mem b'.wPos).size ≤ (b.mem b.wPos).size
  flowing : Flowing b pre →
    len < q.length ∨ (b.mem b.wPos).size = 0 ∨ pre = [] ∧ post = [] → Flowing b' pre'

private theorem head_eq (layout : Layout b pre post q) {p : Ptr} {rest : List Ptr}
    (listEq : pre ++ b.wPos :: post = p :: rest) : b.head = p := by
  have head := layout.chain.head
  rw [listEq] at head
  exact (Option.some.inj head).symm

private theorem contents_split (layout : Layout b pre post q) {p : Ptr} {rest : List Ptr}
    (listEq : pre ++ b.wPos :: post = p :: rest) :
    q = (b.mem p).data ++ contents b.mem rest := by
  rw [← layout.holds, listEq, contents_cons]

/-- The first of several frames, with its successor. -/
private theorem cons_split {a : Ptr} (layout : Layout b (a :: pre) post q) :
    ∃ n rest, a :: pre ++ b.wPos :: post = a :: n :: rest ∧ pre ++ b.wPos :: post = n :: rest ∧
      b.head = a ∧ (b.mem a).next = n ∧ q = (b.mem a).data ++ contents b.mem (n :: rest) := by
  obtain ⟨n, rest, restEq⟩ : ∃ n rest, pre ++ b.wPos :: post = n :: rest := by
    cases pre with
    | nil => exact ⟨_, _, rfl⟩
    | cons n pre => exact ⟨_, _, rfl⟩
  have listEq : a :: pre ++ b.wPos :: post = a :: n :: rest := congrArg (a :: ·) restEq
  have linked := listEq ▸ layout.chain.linked
  exact ⟨n, rest, listEq, restEq, layout.head_eq listEq, linked.1,
    layout.contents_split listEq⟩

/-- A round that drains the first of several frames moves it to the end. -/
private theorem readLoop_rotate (layout : Layout b pre post q) {a n : Ptr}
    {rest pre' post' : List Ptr} (listEq : pre ++ b.wPos :: post = a :: n :: rest)
    (written : a ∈ pre ++ [b.wPos]) (newEq : pre' ++ b.wPos :: post' = n :: rest ++ [a])
    (spare : ∀ r ∈ post', r ∈ post ∨ r = a) (rounds : Nat) {len : Nat} (positive : 0 < len)
    (drains : (b.mem a).size ≤ len) :
    ∃ b₁, readLoop (rounds + 1) b.head len b =
        (readLoop rounds b₁.head (len - (b.mem a).size) b₁).map
          (fun result => (result.1, q.take (b.mem a).size ++ result.2)) ∧
      Layout b₁ pre' post' (q.drop (b.mem a).size) ∧ b₁.size = b.size ∧ b₁.wPos = b.wPos ∧
      (b₁.mem a).size = 0 ∧ ∀ p, p ≠ a → (b₁.mem p).size = (b.mem p).size := by
  have headEq : b.head = a := layout.head_eq listEq
  have nextEq : (b.mem a).next = n := (listEq ▸ layout.chain.linked).1
  have splitEq := layout.contents_split listEq
  have entered : 0 < len ∧ a ≠ null ∧ a ≠ (b.mem b.wPos).next :=
    ⟨positive, layout.chain.nonnull a (by simp [listEq]), layout.ne_next_wPos written⟩
  have dataEq : (b.mem a).data = q.take (b.mem a).size := by
    rw [splitEq]
    exact (List.take_left' (Frame.length_data _)).symm
  have outEq : (b.mem a).peek len = q.take (b.mem a).size := by
    rw [Frame.peek_eq_take, ← dataEq]
    exact List.take_of_length_le (by simpa using drains)
  have outLength : (q.take (b.mem a).size).length = (b.mem a).size := by
    rw [← dataEq, Frame.length_data]
  have tailNe : b.tail ≠ a := by
    rintro rfl
    have nodup := listEq ▸ layout.chain.nodup
    have lastEq : (n :: rest).getLast? = some b.tail := by
      rw [← layout.chain.last, listEq, List.getLast?_cons_cons]
    exact (List.nodup_cons.mp nodup).1 (List.mem_of_getLast? lastEq)
  have drained : ((b.mem a).read len).size = 0 := by
    rw [Frame.size_read]
    omega
  have readLayout := layout.readHead listEq len
  have moved : Layout ((b.setFrame a ((b.mem a).read len)).rotate a n) pre' post'
      ((b.mem a).data.drop len ++ contents b.mem (n :: rest)) := by
    apply readLayout.rotate listEq
    · rw [mem_setFrame_self, drained]
    · exact newEq
    · intro r member
      rcases spare r member with old | rfl
      · exact readLayout.spare r old
      · rw [mem_setFrame_self, drained]
  refine ⟨(b.setFrame a ((b.mem a).read len)).rotate a n, ?_, ?_, rfl, rfl, ?_, ?_⟩
  · rw [headEq, readLoop, if_pos entered, outEq, nextEq]
    simp only [mem_setFrame_self, drained, tail_setFrame, ne_eq, tailNe, not_false_eq_true,
      and_self, if_true, outLength]
    rfl
  · have restQ : q.drop (b.mem a).size =
        (b.mem a).data.drop len ++ contents b.mem (n :: rest) := by
      rw [List.drop_of_length_le (l := (b.mem a).data) (by simpa using drains), List.nil_append]
      calc
        q.drop (b.mem a).size =
            ((b.mem a).data ++ contents b.mem (n :: rest)).drop (b.mem a).size := by rw [← splitEq]
        _ = contents b.mem (n :: rest) := List.drop_left' (Frame.length_data _)
    rw [restQ]
    exact moved
  · rw [rotate_frame _ _ _ Frame.size fun _ _ => rfl, mem_setFrame_self, drained]
  · intro p distinct
    rw [rotate_frame _ _ _ Frame.size fun _ _ => rfl, mem_setFrame_of_ne distinct]

/-- A round that drains a frame before the write position. -/
private theorem readLoop_drain {a : Ptr} (layout : Layout b (a :: pre) post q) (rounds : Nat)
    {len : Nat} (positive : 0 < len) (drains : (b.mem a).size ≤ len) :
    ∃ b₁, readLoop (rounds + 1) b.head len b =
        (readLoop rounds b₁.head (len - (b.mem a).size) b₁).map
          (fun result => (result.1, q.take (b.mem a).size ++ result.2)) ∧
      Layout b₁ pre (post ++ [a]) (q.drop (b.mem a).size) ∧ b₁.size = b.size ∧
      b₁.wPos = b.wPos ∧ ∀ p ∈ pre ++ [b.wPos], (b₁.mem p).size = (b.mem p).size := by
  obtain ⟨n, rest, listEq, restEq, -⟩ := layout.cons_split
  have newEq : pre ++ b.wPos :: (post ++ [a]) = n :: rest ++ [a] := by simp [← restEq]
  obtain ⟨b₁, roundEq, layout₁, sizeEq, wPosEq, -, sizes⟩ :=
    layout.readLoop_rotate listEq (by simp) newEq (by simp) rounds positive drains
  refine ⟨b₁, roundEq, layout₁, sizeEq, wPosEq, fun p member => sizes p ?_⟩
  rintro rfl
  have later : p ∈ pre ++ b.wPos :: post := by
    simp only [List.mem_append, List.mem_cons, List.not_mem_nil, or_false] at member ⊢
    tauto
  exact (List.nodup_cons.mp layout.chain.nodup).1 later

/-- A round that drains the frame at the write position while others are behind it. -/
private theorem readLoop_drain_wPos {r : Ptr} (layout : Layout b [] (r :: post) q) (rounds : Nat)
    {len : Nat} (positive : 0 < len) (drains : q.length ≤ len) :
    ∃ b₁, readLoop (rounds + 1) b.head len b =
        (readLoop rounds b₁.head (len - q.length) b₁).map
          (fun result => (result.1, q ++ result.2)) ∧
      Layout b₁ (r :: post) [] [] ∧ b₁.size = b.size ∧ (b₁.mem b₁.wPos).size = 0 := by
  have sizeEq : (b.mem b.wPos).size = q.length := by
    rw [← Frame.length_data, ← layout.contents_written]
    simp
  have newEq : (r :: post) ++ b.wPos :: [] = r :: post ++ [b.wPos] := rfl
  obtain ⟨b₁, roundEq, layout₁, kept, wPosEq, drained, -⟩ :=
    layout.readLoop_rotate rfl (by simp) newEq (by simp) rounds positive (sizeEq ▸ drains)
  rw [sizeEq] at roundEq layout₁
  simp only [List.take_length, List.drop_length] at roundEq layout₁
  exact ⟨b₁, roundEq, layout₁, kept, wPosEq ▸ drained⟩

/-- The round that reaches the write position. -/
private theorem readLoop_last (layout : Layout b [] post q) (rounds : Nat) {len : Nat}
    (positive : 0 < len) (inside : len ≤ q.length ∨ post = []) :
    ∃ b' pre' post', readLoop (rounds + 1) b.head len b = some (b', q.take len) ∧
      ReadOutcome b [] post q len b' pre' post' := by
  have headEq : b.wPos = b.head := by simpa using layout.chain.head
  have dataEq : (b.mem b.wPos).data = q := by simpa using layout.contents_written
  have sizeEq : (b.mem b.wPos).size = q.length := by rw [← dataEq, Frame.length_data]
  by_cases rotates : q.length ≤ len ∧ post ≠ []
  · obtain ⟨drains, behind⟩ := rotates
    obtain ⟨r, post, rfl⟩ := List.exists_cons_of_ne_nil behind
    have bounded : len ≤ q.length := inside.resolve_right behind
    obtain rfl : len = q.length := Nat.le_antisymm bounded drains
    obtain ⟨b₁, roundEq, layout₁, kept, drained⟩ :=
      layout.readLoop_drain_wPos rounds positive drains
    refine ⟨b₁, r :: post, [], ?_, ?_⟩
    · rw [roundEq, readLoop_stop (Or.inl (Nat.sub_self _))]
      simp
    · refine ⟨?_, kept, Nat.add_comm _ _, ?_, fun _ short => ?_⟩
      · rw [List.drop_length]
        exact layout₁
      · rw [drained]
        exact Nat.zero_le _
      · rw [sizeEq] at short
        simp only [List.cons_ne_nil, and_false, or_false] at short
        omega
  · have entered : 0 < len ∧ b.wPos ≠ null ∧ b.wPos ≠ (b.mem b.wPos).next :=
      ⟨positive, layout.chain.nonnull _ layout.wPos_mem, layout.ne_next_wPos (by simp)⟩
    have outEq : (b.mem b.wPos).peek len = q.take len := by rw [Frame.peek_eq_take, dataEq]
    have readLayout := layout.readHead (p := b.wPos) rfl len
    rw [contents_eq_nil layout.spare, dataEq, List.append_nil] at readLayout
    have stays : ¬ (((b.mem b.wPos).read len).size = 0 ∧ b.tail ≠ b.wPos) := by
      rintro ⟨drained, tailNe⟩
      apply rotates
      rw [Frame.size_read, sizeEq] at drained
      refine ⟨Nat.le_of_sub_eq_zero drained, ?_⟩
      rintro rfl
      have tailEq : b.wPos = b.tail := by simpa using layout.chain.last
      exact tailNe tailEq.symm
    have stop : len - (q.take len).length = 0 ∨ (b.mem b.wPos).next = null := by
      rcases inside with bounded | rfl
      · left
        rw [List.length_take]
        omega
      · right
        exact layout.chain.linked.1
    refine ⟨_, [], post, ?_, readLayout, rfl, rfl, ?_, fun _ _ p member => ?_⟩
    · rw [← headEq, readLoop, if_pos entered, outEq]
      simp only [mem_setFrame_self, tail_setFrame, stays, if_false]
      rw [readLoop_stop stop]
      simp
    · rw [wPos_setFrame, mem_setFrame_self, Frame.size_read]
      exact Nat.sub_le _ _
    · exact absurd member List.not_mem_nil

/-- A round that leaves data in a frame before the write position is the last one. -/
private theorem readLoop_partial {a : Ptr} (layout : Layout b (a :: pre) post q) (rounds : Nat)
    {len : Nat} (positive : 0 < len) (remains : len < (b.mem a).size) :
    ∃ b', readLoop (rounds + 1) b.head len b = some (b', q.take len) ∧
      ReadOutcome b (a :: pre) post q len b' (a :: pre) post := by
  obtain ⟨n, rest, listEq, restEq, headEq, nextEq, splitEq⟩ := layout.cons_split
  have entered : 0 < len ∧ a ≠ null ∧ a ≠ (b.mem b.wPos).next :=
    ⟨positive, layout.chain.nonnull a (by simp), layout.ne_next_wPos (by simp)⟩
  have short : len ≤ (b.mem a).data.length := by
    rw [Frame.length_data]
    omega
  have outEq : (b.mem a).peek len = q.take len := by
    rw [Frame.peek_eq_take, splitEq, List.take_append_of_le_length short]
  have exhausted : len - (q.take len).length = 0 := by
    rw [splitEq, List.take_append_of_le_length short, List.length_take]
    omega
  have kept : ¬ ((b.mem a).read len).size = 0 := by
    rw [Frame.size_read]
    omega
  have readLayout := layout.readHead listEq len
  have aside : b.wPos ≠ a := by
    rintro rfl
    exact (List.nodup_cons.mp layout.chain.nodup).1 (by simp)
  refine ⟨b.setFrame a ((b.mem a).read len), ?_, ?_, rfl, rfl, ?_, ?_⟩
  · rw [headEq, readLoop, if_pos entered, outEq, nextEq]
    simp only [mem_setFrame_self, kept, false_and, if_false, exhausted]
    rw [readLoop_stop (Or.inl rfl)]
    simp
  · have restQ : q.drop len = (b.mem a).data.drop len ++ contents b.mem (n :: rest) := by
      rw [splitEq, List.drop_append_of_le_length short]
    rw [restQ]
    exact readLayout
  · exact Nat.le_of_eq (by rw [wPos_setFrame, mem_setFrame_of_ne aside])
  · intro flow _ p member
    by_cases same : p = a
    · subst same
      rw [mem_setFrame_self, Frame.size_read]
      omega
    · rw [mem_setFrame_of_ne same]
      exact flow p member

private theorem readLoop_spec (layout : Layout b pre post q) {len rounds : Nat}
    (inside : len ≤ q.length ∨ pre = [] ∧ post = []) (enough : pre.length < rounds) :
    ∃ b' pre' post', readLoop rounds b.head len b = some (b', q.take len) ∧
      ReadOutcome b pre post q len b' pre' post' := by
  induction pre generalizing b post q len rounds with
  | nil =>
      rcases Nat.eq_zero_or_pos len with rfl | positive
      · exact ⟨b, [], post, readLoop_stop (Or.inl rfl), layout, rfl, rfl, Nat.le_refl _,
          fun flow _ => flow⟩
      · obtain ⟨rounds, rfl⟩ := Nat.exists_eq_succ_of_ne_zero (Nat.ne_zero_of_lt enough)
        exact layout.readLoop_last rounds positive (inside.imp_right And.right)
  | cons a pre ih =>
      have bounded : len ≤ q.length := by simpa using inside
      rcases Nat.eq_zero_or_pos len with rfl | positive
      · exact ⟨b, a :: pre, post, readLoop_stop (Or.inl rfl), layout, rfl, rfl, Nat.le_refl _,
          fun flow _ => flow⟩
      obtain ⟨rounds, rfl⟩ := Nat.exists_eq_succ_of_ne_zero (Nat.ne_zero_of_lt enough)
      by_cases drains : (b.mem a).size ≤ len
      · obtain ⟨b₁, roundEq, layout₁, size₁, wPos₁, sizes⟩ :=
          layout.readLoop_drain rounds positive drains
        have atWPos₁ : (b₁.mem b₁.wPos).size = (b.mem b.wPos).size := by
          rw [wPos₁]
          exact sizes b.wPos (by simp)
        have rest : len - (b.mem a).size ≤ (q.drop (b.mem a).size).length := by
          rw [List.length_drop]
          omega
        obtain ⟨b', pre', post', loopEq, outcome⟩ := ih layout₁ (Or.inl rest)
          (Nat.succ_lt_succ_iff.mp enough)
        refine ⟨b', pre', post', ?_, ?_, outcome.size.trans size₁, ?_, atWPos₁ ▸ outcome.atWPos,
          ?_⟩
        · rw [roundEq, loopEq, Option.map_some, ← List.take_add, Nat.add_sub_cancel' drains]
        · have dropEq := outcome.layout
          rw [List.drop_drop] at dropEq
          rwa [Nat.add_sub_cancel' drains] at dropEq
        · have := outcome.length
          simp only [List.length_append, List.length_cons, List.length_nil] at this ⊢
          omega
        · intro flow short
          simp only [List.cons_ne_nil, false_and, or_false] at short
          apply outcome.flowing
          · intro p member
            rw [sizes p (List.mem_append_left _ member)]
            exact flow p (List.mem_cons_of_mem a member)
          · rw [List.length_drop, atWPos₁]
            omega
      · obtain ⟨b', loopEq, outcome⟩ := layout.readLoop_partial rounds positive
          (Nat.lt_of_not_le drains)
        exact ⟨b', _, _, loopEq, outcome⟩

/-- A loop over several frames that wants more than there is does not stop. -/
private theorem readLoop_diverges (layout : Layout b pre post q) {len : Nat}
    (past : q.length < len) (several : pre ≠ [] ∨ post ≠ []) (rounds : Nat) :
    readLoop rounds b.head len b = none := by
  induction rounds generalizing b pre post q len with
  | zero =>
      have written : b.head ∈ pre ++ [b.wPos] := List.mem_of_mem_head? layout.head_written
      have inChain : b.head ∈ pre ++ b.wPos :: post := List.mem_of_mem_head? layout.chain.head
      rw [readLoop, if_pos ⟨Nat.zero_lt_of_lt past, layout.chain.nonnull _ inChain,
        layout.ne_next_wPos written⟩]
  | succ rounds ih =>
      have positive : 0 < len := Nat.zero_lt_of_lt past
      cases pre with
      | nil =>
          obtain ⟨r, post, rfl⟩ := List.exists_cons_of_ne_nil (several.resolve_left (by simp))
          obtain ⟨b₁, roundEq, layout₁, -⟩ :=
            layout.readLoop_drain_wPos rounds positive (Nat.le_of_lt past)
          rw [roundEq, ih layout₁ (Nat.sub_pos_of_lt past) (by simp), Option.map_none]
      | cons a pre =>
          have sizeLe : (b.mem a).size ≤ q.length := by
            rw [← layout.holds, List.cons_append, contents_cons, List.length_append,
              Frame.length_data]
            omega
          obtain ⟨b₁, roundEq, layout₁, -⟩ := layout.readLoop_drain rounds positive
            (Nat.le_of_lt (Nat.lt_of_le_of_lt sizeLe past))
          have still : (q.drop (b.mem a).size).length < len - (b.mem a).size := by
            rw [List.length_drop]
            omega
          rw [roundEq, ih layout₁ still (by simp), Option.map_none]

/-- The counter of bytes is not part of the list. -/
theorem setSize (layout : Layout b pre post q) (n : Nat) :
    Layout { b with size := n } pre post q :=
  ⟨⟨layout.chain.linked, layout.chain.nodup, layout.chain.head, layout.chain.last,
    layout.chain.nonnull, layout.chain.allocated⟩, layout.cap, layout.restarted, layout.spare,
    layout.holds⟩

/-- `read` hands out and removes a prefix of the queue. -/
theorem read (layout : Layout b pre post q) {len : Nat}
    (inside : len ≤ q.length ∨ pre = [] ∧ post = []) :
    ∃ b' pre' post', b.read len = some (b', q.take len) ∧
      Layout b' pre' post' (q.drop len) ∧ b'.size = b.size - min len q.length ∧
      pre'.length + post'.length = pre.length + post.length ∧
      (b'.mem b'.wPos).size ≤ (b.mem b.wPos).size ∧
      (Flowing b pre →
        len < q.length ∨ (b.mem b.wPos).size = 0 ∨ pre = [] ∧ post = [] → Flowing b' pre') := by
  obtain ⟨b', pre', post', loopEq, outcome⟩ :=
    layout.readLoop_spec inside layout.length_pre_lt_brk
  refine ⟨{ b' with size := b'.size - (q.take len).length }, pre', post', ?_,
    outcome.layout.setSize _, ?_, outcome.length, outcome.atWPos, outcome.flowing⟩
  · rw [LoopBuf.read, readWithin, loopEq]
    rfl
  · rw [outcome.size, List.length_take]

/-- A read of all that a single frame has leaves it where it is. -/
private theorem read_onlyFrame (layout : Layout b [] [] q) (positive : 0 < (b.mem b.wPos).size) :
    ∃ b' out, b.read (b.mem b.wPos).size = some (b', out) ∧
      Layout b' [] [] (q.drop (b.mem b.wPos).size) ∧
      b'.size = b.size - (b.mem b.wPos).size ∧ b'.wPos = b.wPos ∧ (b'.mem b.wPos).size = 0 ∧
      ∀ r, r ≠ b.wPos → (b'.mem r).size = (b.mem r).size := by
  obtain ⟨rounds, brkEq⟩ :=
    Nat.exists_eq_succ_of_ne_zero (Nat.ne_zero_of_lt layout.length_pre_lt_brk)
  have written : b.wPos ∈ [] ++ [b.wPos] := List.mem_singleton_self _
  have entered : 0 < (b.mem b.wPos).size ∧ b.wPos ≠ null ∧ b.wPos ≠ (b.mem b.wPos).next :=
    ⟨positive, layout.chain.nonnull _ layout.wPos_mem, layout.ne_next_wPos written⟩
  have tailEq : b.wPos = b.tail := by simpa using layout.chain.last
  have readLayout := layout.readHead rfl (b.mem b.wPos).size
  have outEq : ((b.mem b.wPos).peek (b.mem b.wPos).size).length = (b.mem b.wPos).size := by
    rw [Frame.peek_eq_take, List.length_take, Frame.length_data, Nat.min_self]
  have drained : ((b.mem b.wPos).read (b.mem b.wPos).size).size = 0 := by
    rw [Frame.size_read, Nat.sub_self]
  have restQ : q.drop (b.mem b.wPos).size =
      (b.mem b.wPos).data.drop (b.mem b.wPos).size ++ contents b.mem [] := by
    rw [layout.contents_split rfl, contents_nil, List.append_nil, List.append_nil]
  let drainedBuf := b.setFrame b.wPos ((b.mem b.wPos).read (b.mem b.wPos).size)
  refine ⟨{ drainedBuf with size := b.size - (b.mem b.wPos).size },
    (b.mem b.wPos).peek (b.mem b.wPos).size, ?_, (restQ ▸ readLayout).setSize _, rfl, rfl, ?_, ?_⟩
  · rw [LoopBuf.read, readWithin, layout.head_eq rfl, brkEq, readLoop, if_pos entered]
    simp only [mem_setFrame_self, tail_setFrame, tailEq.symm, ne_eq, not_true_eq_false,
      and_false, if_false]
    rw [outEq, readLoop_stop (Or.inl (Nat.sub_self _))]
    simp [outEq, drainedBuf, LoopBuf.setFrame]
  · exact (congrArg Frame.size (mem_setFrame_self _ _ _)).trans drained
  · intro r distinct
    exact congrArg Frame.size (mem_setFrame_of_ne distinct)

/-- A read of all that the first of several frames has puts it behind the others. -/
private theorem read_rotates (layout : Layout b pre post q) {p n : Ptr} {rest : List Ptr}
    (listEq : pre ++ b.wPos :: post = p :: n :: rest) (positive : 0 < (b.mem p).size) :
    ∃ b' pre' post' out, b.read (b.mem p).size = some (b', out) ∧
      Layout b' pre' post' (q.drop (b.mem p).size) ∧ b'.size = b.size - (b.mem p).size ∧
      pre' ++ b'.wPos :: post' = n :: rest ++ [p] ∧ (b'.mem p).size = 0 ∧
      ∀ r, r ≠ p → (b'.mem r).size = (b.mem r).size := by
  obtain ⟨rounds, brkEq⟩ :=
    Nat.exists_eq_succ_of_ne_zero (Nat.ne_zero_of_lt layout.length_pre_lt_brk)
  have outLength : (q.take (b.mem p).size).length = (b.mem p).size := by
    rw [layout.contents_split listEq, List.take_left' (Frame.length_data _), Frame.length_data]
  have written : p ∈ pre ++ [b.wPos] :=
    layout.head_eq listEq ▸ List.mem_of_mem_head? layout.head_written
  obtain ⟨pre', post', newEq, spare⟩ : ∃ pre' post',
      pre' ++ b.wPos :: post' = n :: rest ++ [p] ∧ ∀ r ∈ post', r ∈ post ∨ r = p := by
    cases pre with
    | nil =>
        obtain ⟨rfl, rfl⟩ := List.cons.inj listEq
        exact ⟨n :: rest, [], rfl, by simp⟩
    | cons r pre =>
        obtain ⟨rfl, restEq⟩ := List.cons.inj listEq
        refine ⟨pre, post ++ [r], ?_, by simp⟩
        rw [← restEq]
        exact (List.append_assoc pre (b.wPos :: post) [r]).symm
  obtain ⟨b₁, roundEq, layout₁, sizeEq, wPosEq, drained, kept⟩ :=
    layout.readLoop_rotate listEq written newEq spare rounds positive (Nat.le_refl _)
  rw [Nat.sub_self, readLoop_stop (Or.inl rfl)] at roundEq
  refine ⟨{ b₁ with size := b₁.size - (b.mem p).size }, pre', post', q.take (b.mem p).size, ?_,
    layout₁.setSize _, by rw [sizeEq], ?_, drained, kept⟩
  · rw [LoopBuf.read, readWithin, brkEq, roundEq]
    simp [outLength]
  · change pre' ++ b₁.wPos :: post' = _
    rw [wPosEq, newEq]

/-- A read of exactly the first frame empties it and puts it behind the others. -/
theorem read_firstFrame (layout : Layout b pre post q) {p : Ptr} {rest : List Ptr}
    (listEq : pre ++ b.wPos :: post = p :: rest) (positive : 0 < (b.mem p).size) :
    ∃ b' pre' post' out, b.read (b.mem p).size = some (b', out) ∧
      Layout b' pre' post' (q.drop (b.mem p).size) ∧ b'.size = b.size - (b.mem p).size ∧
      pre' ++ b'.wPos :: post' = rest ++ [p] ∧ (b'.mem p).size = 0 ∧
      ∀ r, r ≠ p → (b'.mem r).size = (b.mem r).size := by
  cases rest with
  | nil =>
      have alone : pre = [] ∧ post = [] ∧ b.wPos = p := by
        cases pre with
        | nil => simpa [and_comm] using listEq
        | cons r pre => simp at listEq
      obtain ⟨rfl, rfl, rfl⟩ := alone
      obtain ⟨b', out, readEq, layout', sizeEq, wPosEq, drained, kept⟩ :=
        layout.read_onlyFrame positive
      refine ⟨b', [], [], out, readEq, layout', sizeEq, ?_, drained, kept⟩
      simp [wPosEq]
  | cons n rest => exact layout.read_rotates listEq positive

/-- A read past the contents of several frames does not return, however many
rounds it is given. -/
theorem read_diverges (layout : Layout b pre post q) {len : Nat} (past : q.length < len)
    (several : pre ≠ [] ∨ post ≠ []) (rounds : Nat) : b.readWithin rounds len = none := by
  rw [readWithin, layout.readLoop_diverges past several, Option.map_none]

/-- A read that returns stays within the contents or has a single frame to look at. -/
theorem inside_of_read (layout : Layout b pre post q) {len : Nat} {result : LoopBuf × Bytes}
    (returned : b.read len = some result) : len ≤ q.length ∨ pre = [] ∧ post = [] := by
  by_contra outside
  rw [not_or, not_and_or] at outside
  rw [LoopBuf.read, layout.read_diverges (Nat.lt_of_not_le outside.1) outside.2] at returned
  exact absurd returned (by simp)

end Layout

end GPush.LoopBuf
