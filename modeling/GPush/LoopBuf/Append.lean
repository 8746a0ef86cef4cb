import GPush.LoopBuf.Fifo

/-!
# Writing with extension

`autoResizeWrite` writes, extends the buffer by a frame for the rest and writes
again.  The header of the new frame comes out of the aligned allocation, so the
second write falls short for the remainders just below a multiple of the
alignment.
-/

namespace GPush.LoopBuf

open GPush.Transition

/-! ## How much the two writes take -/

/-- The capacity of the frame that `extend need` adds. -/
def extension (need : Nat) : Nat := frameLen need - sizeofFrame

/-- The new frame takes the bytes it was allocated for unless they leave less
than a header below a multiple of the alignment. -/
theorem le_extension_iff (need : Nat) :
    need ≤ extension need ↔ need % defaultAlignSize ≤ defaultAlignSize - sizeofFrame := by
  have := Nat.mod_lt need (y := defaultAlignSize) (by decide)
  simp only [extension, frameLen, defaultAlignSize, sizeofFrame] at *
  omega

/-- The loop of `room`. -/
def roomLoop : Nat → Ptr → LoopBuf → Nat
  | 0, _, _ => 0
  | rounds + 1, f, b =>
      if f ≠ null then (b.mem f).freeSize + roomLoop rounds (b.mem f).next b else 0

/-- The bytes that one `write` can take: none at a full frame, else the free bytes
of all frames from the write position on. -/
def room (b : LoopBuf) : Nat := if (b.mem b.wPos).full = true then 0 else roomLoop b.brk b.wPos b

theorem roomLoop_eq {b : LoopBuf} (todo : List Ptr) {f : Ptr} (linked : Linked b.mem todo)
    (start : todo.headD null = f) (nonnull : ∀ p ∈ todo, p ≠ null) {rounds : Nat}
    (enough : todo.length ≤ rounds) : roomLoop rounds f b = freeIn b.mem todo := by
  induction todo generalizing f rounds with
  | nil =>
      subst start
      cases rounds <;> rfl
  | cons p todo ih =>
      change p = f at start
      subst f
      obtain ⟨rounds, rfl⟩ := Nat.exists_eq_succ_of_ne_zero (Nat.ne_zero_of_lt enough)
      rw [roomLoop, if_pos (nonnull p List.mem_cons_self), freeIn_cons,
        ih linked.2 linked.1.symm (fun r member => nonnull r (List.mem_cons_of_mem p member))
          (Nat.succ_le_succ_iff.mp enough)]

namespace Layout

variable {b : LoopBuf} {pre post : List Ptr} {q : Bytes}

theorem room_eq (layout : Layout b pre post q) (space : (b.mem b.wPos).full = false) :
    b.room = freeIn b.mem (b.wPos :: post) := by
  have enough : (b.wPos :: post).length ≤ b.brk := by
    have bound := layout.chain.length_lt_brk
    rw [List.length_append] at bound
    omega
  rw [room, if_neg (by simp [space])]
  exact roomLoop_eq _ layout.chain.linked.of_append rfl
    (fun p member => layout.chain.nonnull p (List.mem_append_right _ member)) enough

/-- How many of `len` bytes `autoResizeWrite` appends. -/
def appended (b : LoopBuf) (post : List Ptr) (len : Nat) : Nat :=
  min len (freeIn b.mem (b.wPos :: post) + extension (len - b.room))

/-- The second write of `autoResizeWrite`, after an extension. -/
private theorem extend_write (layout : Layout b pre post q) (src : Bytes) (sz : Nat) :
    ∃ b' pre' post', ((b.extend sz).1.write (.bytes src)).1 = b' ∧
      Layout b' pre' post'
        (q ++ src.take (min src.length (freeIn b.mem (b.wPos :: post) + extension sz))) ∧
      b'.size = b.size + min src.length (freeIn b.mem (b.wPos :: post) + extension sz) ∧
      (Flowing b pre → Flowing b' pre') := by
  obtain ⟨b₁, pre₁, post₁, extendEq, layout₁, size₁, space₁, freeEq, flow₁⟩ := layout.extend sz
  obtain ⟨b₂, pre₂, post₂, writeEq, layout₂, size₂, -, -, flow₂⟩ := layout₁.write src space₁
  rw [freeEq] at writeEq layout₂ size₂
  refine ⟨b₂, pre₂, post₂, ?_, layout₂, ?_, fun flow => flow₂ (flow₁ flow)⟩
  · rw [extendEq, writeEq]
  · rw [size₂, size₁]
    rfl

/-- `autoResizeWrite` appends a prefix of its argument. -/
theorem autoResizeWrite (layout : Layout b pre post q) (src : Bytes) :
    ∃ pre' post', Layout (b.autoResizeWrite src) pre' post'
        (q ++ src.take (appended b post src.length)) ∧
      (b.autoResizeWrite src).size = b.size + appended b post src.length ∧
      (Flowing b pre → Flowing (b.autoResizeWrite src) pre') := by
  by_cases full : (b.mem b.wPos).full = true
  · have noRoom : b.room = 0 := if_pos full
    obtain ⟨b', pre', post', resultEq, layout', sizeEq, flow⟩ :=
      layout.extend_write src src.length
    rw [appended, noRoom, Nat.sub_zero]
    by_cases empty : src.length = 0
    · have written : b.autoResizeWrite src = b := by
        rw [LoopBuf.autoResizeWrite, write_full full]
        simp [empty]
      rw [written, empty, Nat.zero_min, Nat.add_zero]
      exact ⟨pre, post, by simpa using layout, rfl, id⟩
    · have written : b.autoResizeWrite src = b' := by
        rw [← resultEq, LoopBuf.autoResizeWrite, write_full full]
        simp [Nat.pos_of_ne_zero empty]
      rw [written]
      exact ⟨pre', post', layout', sizeEq, flow⟩
  · have space : (b.mem b.wPos).full = false := Bool.not_eq_true _ ▸ full
    have roomEq := layout.room_eq space
    obtain ⟨b₁, pre₁, post₁, writeEq, layout₁, size₁, -, ended, flow₁⟩ := layout.write src space
    rw [← roomEq] at writeEq layout₁ size₁ ended
    rw [appended, ← roomEq]
    by_cases short : b.room < src.length
    · have least : min src.length b.room = b.room := Nat.min_eq_right (Nat.le_of_lt short)
      rw [least] at writeEq layout₁ size₁
      obtain ⟨b₂, pre₂, post₂, resultEq, layout₂, size₂, flow₂⟩ :=
        layout₁.extend_write (src.drop b.room) (src.length - b.room)
      have noneLeft : freeIn b₁.mem (b₁.wPos :: post₁) = 0 := by
        obtain ⟨rfl, full₁⟩ := ended short
        rw [freeIn_cons, freeIn_nil, (Frame.full_iff _).mp full₁]
      have written : b.autoResizeWrite src = b₂ := by
        rw [← resultEq, LoopBuf.autoResizeWrite, writeEq]
        simp [short]
      have count : min src.length (b.room + extension (src.length - b.room)) =
          b.room + min (src.length - b.room) (extension (src.length - b.room)) := by
        omega
      rw [noneLeft, Nat.zero_add, List.length_drop] at layout₂ size₂
      rw [written, count, List.take_add, ← List.append_assoc]
      refine ⟨pre₂, post₂, layout₂, ?_, fun flow => flow₂ (flow₁ flow)⟩
      rw [size₂, size₁, Nat.add_assoc]
    · have all : min src.length b.room = src.length := Nat.min_eq_left (Nat.le_of_not_lt short)
      have count : min src.length (b.room + extension (src.length - b.room)) = src.length := by
        omega
      have written : b.autoResizeWrite src = b₁ := by
        rw [LoopBuf.autoResizeWrite, writeEq, all]
        simp
      rw [all] at layout₁ size₁
      rw [written, count]
      exact ⟨pre₁, post₁, layout₁, size₁, flow₁⟩

/-- The write position is the last frame exactly when nothing is behind it. -/
theorem wPos_ne_tail_iff (layout : Layout b pre post q) : b.wPos ≠ b.tail ↔ post ≠ [] := by
  have last := layout.chain.last
  cases post with
  | nil =>
      have same : b.wPos = b.tail := by simpa using last
      simp [same]
  | cons p post =>
      have lastEq : (p :: post).getLast? = some b.tail := by
        rw [← last, List.getLast?_append_cons, List.getLast?_cons_cons]
      have distinct : b.wPos ≠ b.tail := by
        intro same
        have nodup := List.Nodup.of_append_right layout.chain.nodup
        exact (List.nodup_cons.mp nodup).1 (same ▸ List.mem_of_getLast? lastEq)
      simp [distinct]

end Layout

/-- `autoResizeWrite` can take `len` bytes: they fit into the present frames, or
there is an empty frame behind a full write position, or the frame allocated for
the rest has room for it. -/
def Fits (b : LoopBuf) (len : Nat) : Prop :=
  len ≤ b.room ∨ ((b.mem b.wPos).full = true ∧ b.wPos ≠ b.tail) ∨
    (len - b.room) % defaultAlignSize ≤ defaultAlignSize - sizeofFrame

namespace Layout

variable {b : LoopBuf} {pre post : List Ptr} {q : Bytes}

theorem appended_eq_iff (layout : Layout b pre post q) (len : Nat) :
    appended b post len = len ↔ Fits b len := by
  have shortage := le_extension_iff (len - b.room)
  have leastIff : ∀ m n : Nat, min m n = m ↔ m ≤ n := fun m n => by omega
  rw [appended, leastIff, Fits, layout.wPos_ne_tail_iff]
  by_cases full : (b.mem b.wPos).full = true
  · have noRoom : b.room = 0 := if_pos full
    have noFree : (b.mem b.wPos).freeSize = 0 := (Frame.full_iff _).mp full
    rw [noRoom, Nat.sub_zero] at shortage ⊢
    rw [freeIn_cons, noFree, Nat.zero_add, ← shortage]
    cases post with
    | nil =>
        simp only [freeIn_nil, Nat.zero_add, ne_eq, not_true_eq_false, and_false, false_or]
        exact ⟨Or.inr, fun either => either.elim (fun none => by omega) id⟩
    | cons p post =>
        -- an empty frame takes at least what a new frame falls short of
        have spareFree : minCap ≤ (b.mem p).freeSize :=
          (layout.freeSize_of_empty (by simp) (layout.spare p List.mem_cons_self)).2
        have missing : len ≤ minCap + extension len := by
          have := Nat.mod_lt len (y := defaultAlignSize) (by decide)
          simp only [minCap, extension, frameLen, defaultAlignSize, sizeofFrame] at *
          omega
        rw [freeIn_cons]
        simp only [full, ne_eq, List.cons_ne_nil, not_false_eq_true, and_self, true_or, or_true,
          iff_true]
        omega
  · have space : (b.mem b.wPos).full = false := Bool.not_eq_true _ ▸ full
    have never : ¬ ((b.mem b.wPos).full = true ∧ post ≠ []) := fun both => full both.1
    rw [← layout.room_eq space, ← shortage]
    simp only [never, false_or]
    omega

end Layout

/-! ## Reachable buffers -/

/-- The bytes a buffer holds, as a caller sees them. -/
def content (b : LoopBuf) : Option Bytes := b.peek b.size

theorem Represents.content_eq {b : LoopBuf} {q : Bytes} (rep : Represents b q) :
    b.content = some q := by
  rw [content, rep.peek, rep.size_eq, List.take_length]

/-- `autoResizeWrite` appends all of `src`. -/
def AppendsAll (b : LoopBuf) (src : Bytes) : Prop :=
  (b.autoResizeWrite src).size = b.size + src.length ∧
    (b.autoResizeWrite src).content = b.content.map (· ++ src)

/-- What a user of the buffer does with it: any call that returns, or
`autoResizeWrite`. -/
inductive Edit
  | call (call : Call)
  | autoResizeWrite (buf : Bytes)

/-- The steps of a buffer under edits. -/
def edit : LTS LoopBuf Edit
  | b, .call call, b' => ∃ answer, b.exec call = some (b', answer)
  | b, .autoResizeWrite buf, b' => b' = b.autoResizeWrite buf

/-- The memory safety that the interface leaves to its callers: they fill no more
than the free part of the frame. -/
def safeEdit (b : LoopBuf) : Edit → Prop
  | .call (.writeFilled data) => data.length ≤ b.freeFrameLen
  | _ => True

theorem Represents.autoResizeWrite {b : LoopBuf} {q : Bytes} (rep : Represents b q) (src : Bytes) :
    ∃ k ≤ src.length, Represents (b.autoResizeWrite src) (q ++ src.take k) ∧
      (k = src.length ↔ Fits b src.length) := by
  obtain ⟨⟨pre, post, layout⟩, sizeEq⟩ := rep
  obtain ⟨pre', post', layout', size', -⟩ := layout.autoResizeWrite src
  refine ⟨Layout.appended b post src.length, Nat.min_le_left _ _, ⟨⟨pre', post', layout'⟩, ?_⟩,
    layout.appended_eq_iff src.length⟩
  rw [size', sizeEq, List.length_append, List.length_take]
  exact congrArg _ (Nat.min_eq_left (Nat.min_le_left _ _)).symm

/-- `b` represents some queue. -/
def Valid (b : LoopBuf) : Prop := ∃ q, Represents b q

/-- A call that returns keeps the representation, whatever it asks for. -/
theorem Represents.of_exec {b b' : LoopBuf} {q : Bytes} {call : Call} {answer : Answer}
    (rep : Represents b q) (safe : safeEdit b (.call call))
    (returned : b.exec call = some (b', answer)) : Valid b' := by
  have allowedCase : Allowed b call → Valid b' := by
    intro allowed
    obtain ⟨b₁, answer₁, q', execEq, -, rep'⟩ := rep.exec allowed
    obtain ⟨rfl, -⟩ := Prod.mk.inj (Option.some.inj (execEq.symm.trans returned))
    exact ⟨q', rep'⟩
  cases call with
  | writeFilled data => exact allowedCase safe
  | read len =>
      obtain ⟨result, readEq, resultEq⟩ := Option.map_eq_some_iff.mp returned
      obtain ⟨rfl, -⟩ := Prod.mk.inj resultEq
      exact ⟨_, (rep.of_read readEq).2⟩
  | drop len =>
      obtain ⟨result, readEq, resultEq⟩ := Option.map_eq_some_iff.mp returned
      obtain ⟨rfl, -⟩ := Prod.mk.inj resultEq
      exact ⟨_, (rep.of_read readEq).2⟩
  | write buf => exact allowedCase trivial
  | extend sz => exact ⟨q, (rep.of_extend returned).1⟩
  | peek len => exact allowedCase trivial
  | find c => exact allowedCase trivial
  | clear => exact allowedCase trivial

/-- The run lemma: every reachable buffer represents a queue. -/
theorem valid_of_run {events : List Edit} {b : LoopBuf}
    (run : Run edit safeEdit init events b) : Valid b := by
  refine run.invariant ⟨[], represents_init⟩ ?_
  rintro b (call | buf) b' ⟨q, rep⟩ safe taken
  · obtain ⟨answer, returned⟩ := taken
    exact rep.of_exec safe returned
  · obtain rfl : b' = b.autoResizeWrite buf := taken
    obtain ⟨k, -, rep', -⟩ := rep.autoResizeWrite buf
    exact ⟨_, rep'⟩

theorem Represents.appendsAll_iff {b : LoopBuf} {q : Bytes} (rep : Represents b q) (src : Bytes) :
    AppendsAll b src ↔ Fits b src.length := by
  obtain ⟨k, bound, rep', allIff⟩ := rep.autoResizeWrite src
  have taken : (src.take k).length = k := by
    rw [List.length_take, Nat.min_eq_left bound]
  rw [← allIff, AppendsAll, rep'.size_eq, rep'.content_eq, rep.size_eq, rep.content_eq,
    List.length_append, taken]
  constructor
  · rintro ⟨sizeEq, -⟩
    omega
  · rintro rfl
    rw [List.take_length]
    exact ⟨rfl, rfl⟩

/-- `autoResizeWrite` on a reachable buffer appends its whole argument exactly
when it fits, and the frame that `extend` adds has room for what it was added for
exactly when the header does not eat into it. -/
theorem appendsAll_iff_fits {events : List Edit} {b : LoopBuf}
    (run : Run edit safeEdit init events b) (src : Bytes) :
    (AppendsAll b src ↔ Fits b src.length) ∧
      ∀ need, need ≤ (b.extend need).2 ↔
        need % defaultAlignSize ≤ defaultAlignSize - sizeofFrame := by
  obtain ⟨q, rep⟩ := valid_of_run run
  refine ⟨rep.appendsAll_iff src, fun need => ?_⟩
  obtain ⟨⟨pre, post, layout⟩, -⟩ := rep
  obtain ⟨b', pre', post', extendEq, -⟩ := layout.extend need
  rw [extendEq]
  exact le_extension_iff need

/-- Two appends in a row. -/
theorem appendsAll_iff_fits_second :
    AppendsAll (init.autoResizeWrite [1, 2, 3]) [4] ↔ Fits (init.autoResizeWrite [1, 2, 3]) 1 := by
  have run : Run edit safeEdit init [.autoResizeWrite [1, 2, 3]]
      (init.autoResizeWrite [1, 2, 3]) := Run.single trivial rfl
  exact (appendsAll_iff_fits run [4]).1

theorem room_init : init.room = 2016 := by
  obtain ⟨⟨pre, post, layout⟩, -⟩ := represents_init
  have free : (init.mem init.wPos).freeSize = 2016 := by
    rw [(layout.freeSize_of_empty layout.wPos_mem rfl).1]
    exact cap_constructFrame _
  have space : (init.mem init.wPos).full = false := by
    rw [Frame.not_full_iff, free]
    decide
  have ended : (init.mem init.wPos).next = null := rfl
  rw [room, if_neg (by simp [space])]
  change roomLoop 2 init.wPos init = 2016
  rw [roomLoop, if_pos (by decide), free, ended]
  rfl

/-- A fresh buffer loses the last byte of a string of 4033: the first write takes
2016 bytes, and the frame for the other 2017 takes 2016 as well. -/
theorem autoResizeWrite_loses_tail :
    Run edit safeEdit init [] init ∧ ¬ AppendsAll init (List.replicate 4033 0) := by
  refine ⟨Run.refl, ?_⟩
  rw [represents_init.appendsAll_iff, Fits, room_init, List.length_replicate]
  rintro (fits | ⟨-, behind⟩ | aligned)
  · exact absurd fits (by decide)
  · exact behind rfl
  · exact absurd aligned (by decide)

end GPush.LoopBuf
