import GPush.LoopBuf.Frame
import Mathlib.Logic.Function.Basic

/-!
# The segmented buffer

`LoopBuf` is a singly linked list of frames with pointers to the first frame, to
the frame that is being written and to the last frame.  The model keeps the
pointers: frames live at addresses of a heap, and every operation does the
pointer assignments of the source.

The loops over the list are bounded by an explicit number of rounds.  A loop
that is still running when its rounds are used up yields `none`; that the bound
is never reached on a well-formed list is proved with the specifications.
-/

namespace GPush

/-- `LoopBuf`, with the heap its frames live in and the next unused address. -/
structure LoopBuf where
  mem : LoopBuf.Ptr → LoopBuf.Frame
  brk : LoopBuf.Ptr
  head : LoopBuf.Ptr
  wPos : LoopBuf.Ptr
  tail : LoopBuf.Ptr
  size : Nat

namespace LoopBuf

/-- `DEFAUTLT_ALIGN_SIZE`. -/
def defaultAlignSize : Nat := 2048

/-- `sizeof(frame)` on LP64. -/
def sizeofFrame : Nat := 32

/-- `LoopBuf::alignSize`. -/
def alignSize (l : Int32) : Int32 := l + .ofNat defaultAlignSize - l % .ofNat defaultAlignSize

/-- What `alignSize` computes where nothing overflows. -/
def frameLen (l : Nat) : Nat := l + defaultAlignSize - l % defaultAlignSize

theorem toInt_alignSize (l : Int32) :
    (alignSize l).toInt = (l.toInt + 2048 - l.toInt.tmod 2048).bmod 4294967296 := by
  rw [alignSize, Int32.toInt_sub, Int32.toInt_add, Int32.toInt_mod, Int.bmod_sub_bmod]
  rfl

/-- A negative request rounds up to zero and gets a chunk.  Below a chunk less than zero the
result is not positive, and behind the last whole chunk it wraps around. -/
theorem alignSize_cases (l : Int32) :
    (-2048 < l.toInt ∧ l.toInt < 2147481600) ∧ (alignSize l).toInt = frameLen l.toNatClampNeg ∨
      ¬(-2048 < l.toInt ∧ l.toInt < 2147481600) ∧ (alignSize l).toInt ≤ 0 := by
  have lower := l.le_toInt
  have upper := l.toInt_lt
  rw [toInt_alignSize, Int32.toNatClampNeg]
  generalize l.toInt = n at lower upper
  cases n with
  | ofNat n =>
      have rest : (Int.ofNat n).tmod 2048 = (n % 2048 : Nat) := rfl
      rw [rest]
      simp only [Int.ofNat_eq_natCast, Int.toNat_natCast, frameLen, defaultAlignSize] at *
      by_cases small : n < 2147481600
      · rw [Int.bmod_eq_of_le (by omega) (by omega)]
        omega
      · have last : (n : Int) + 2048 - (n % 2048 : Nat) = 2147483648 := by omega
        have wraps : (2147483648 : Int).bmod 4294967296 = -2147483648 := by decide
        rw [last, wraps]
        omega
  | negSucc n =>
      have rest : (Int.negSucc n).tmod 2048 = -((n + 1) % 2048 : Nat) := rfl
      rw [rest, Int.bmod_eq_of_le (by omega) (by omega), Int.toNat_negSucc]
      simp only [frameLen, defaultAlignSize]
      omega

/-- `LoopBuf::constructFrame` on a fresh allocation of `len` bytes, whose first
bytes become the header. -/
def constructFrame (len : Nat) : Frame where
  buf := List.replicate (len - sizeofFrame) 0
  size := 0
  start := 0
  next := null
  fits := by omega

/-- Store a frame at its address. -/
def setFrame (b : LoopBuf) (p : Ptr) (f : Frame) : LoopBuf :=
  { b with mem := Function.update b.mem p f }

/-- `p->m_next = q`. -/
def link (b : LoopBuf) (p q : Ptr) : LoopBuf := b.setFrame p ((b.mem p).setNext q)

/-- `LoopBuf::allocFrame`, where nothing overflows: the new frame is at the old `brk`. -/
def allocFrame (b : LoopBuf) (l : Nat) : LoopBuf :=
  { b.setFrame b.brk (constructFrame (frameLen l)) with brk := b.brk + 1 }

/-- `LoopBuf::LoopBuf`. -/
def init : LoopBuf where
  mem _ := constructFrame (frameLen 1024)
  brk := 2
  head := 1
  wPos := 1
  tail := 1
  size := 0

/-- `LoopBuf::firstFrameLen`. -/
def firstFrameLen (b : LoopBuf) : Nat := (b.mem b.head).size

/-- The first `len` bytes at `LoopBuf::firstFrameData`. -/
def firstFrameData (b : LoopBuf) (len : Nat) : Bytes :=
  ((b.mem b.head).buf.drop (b.mem b.head).start).take len

/-- `LoopBuf::freeFrameLen`. -/
def freeFrameLen (b : LoopBuf) : Nat := (b.mem b.wPos).freeSize

/-- A caller's `memmove` of `data` to `LoopBuf::freeFrameBuf`. -/
def fillFreeFrame (b : LoopBuf) (data : Bytes) : LoopBuf :=
  b.setFrame b.wPos ((b.mem b.wPos).fill data)

/-- The loop of `LoopBuf::write`.  `src` stands for the pair
`buf + wlen, len - wlen`; the result counts the bytes of this and later rounds.
Every round that is entered takes a byte, so `src.len` rounds are enough. -/
def writeLoop : Nat → Ptr → Src → LoopBuf → LoopBuf × Nat
  | 0, _, _, b => (b, 0)
  | rounds + 1, f, src, b =>
      if 0 < src.len ∧ f ≠ null ∧ (b.mem f).full = false then
        let ret := (b.mem f).realwrite src.len
        let written := b.setFrame f ((b.mem f).write src)
        let next := (b.mem f).next
        let rest :=
          if (written.mem f).full = true ∧ next ≠ null then
            writeLoop rounds next (src.drop ret) { written with wPos := next }
          else
            writeLoop rounds f (src.drop ret) written
        (rest.1, ret + rest.2)
      else
        (b, 0)

/-- `LoopBuf::write`. -/
def write (b : LoopBuf) (src : Src) : LoopBuf × Nat :=
  let result := writeLoop src.len b.wPos src b
  ({ result.1 with size := result.1.size + result.2 }, result.2)

/-- The allocation of `LoopBuf::extend` and its `m_tail->m_next = f; m_tail = f`. -/
def appendFrame (b : LoopBuf) (sz : Nat) : LoopBuf :=
  { (b.allocFrame sz).link b.tail b.brk with tail := b.brk }

/-- `LoopBuf::extend`, where nothing overflows; it returns the capacity of the new frame. -/
def extend (b : LoopBuf) (sz : Nat) : LoopBuf × Nat :=
  let appended := b.appendFrame sz
  let placed : LoopBuf :=
    if (appended.mem appended.wPos).full = true then
      { appended with wPos := (appended.mem appended.wPos).next }
    else
      appended
  (placed, (placed.mem b.brk).cap)

/-- `LoopBuf::autoResizeWrite`; it always returns `len`. -/
def autoResizeWrite (b : LoopBuf) (src : Bytes) : LoopBuf :=
  let first := b.write (.bytes src)
  if src.length > first.2 then
    ((first.1.extend (src.length - first.2)).1.write (.bytes (src.drop first.2))).1
  else
    first.1

/-- The loop of `LoopBuf::peek`: the bytes it copies. -/
def peekLoop : Nat → Ptr → Nat → LoopBuf → Option Bytes
  | rounds, f, len, b =>
      if 0 < len ∧ f ≠ null ∧ f ≠ (b.mem b.wPos).next then
        match rounds with
        | 0 => none
        | rounds + 1 =>
            let out := (b.mem f).peek len
            (peekLoop rounds (b.mem f).next (len - out.length) b).map (out ++ ·)
      else
        some []

/-- `LoopBuf::peek`. -/
def peek (b : LoopBuf) (len : Nat) : Option Bytes := peekLoop b.brk b.head len b

/-- The four assignments of `LoopBuf::read` that move the drained frame `f`,
whose successor was `n`, behind the last frame. -/
def rotate (b : LoopBuf) (f n : Ptr) : LoopBuf :=
  ({ { b with head := n }.link b.tail f with tail := f } : LoopBuf).link f null

/-- The loop of `LoopBuf::read`: the buffer afterwards and the bytes handed out. -/
def readLoop : Nat → Ptr → Nat → LoopBuf → Option (LoopBuf × Bytes)
  | rounds, f, len, b =>
      if 0 < len ∧ f ≠ null ∧ f ≠ (b.mem b.wPos).next then
        match rounds with
        | 0 => none
        | rounds + 1 =>
            let n := (b.mem f).next
            let out := (b.mem f).peek len
            let drained := b.setFrame f ((b.mem f).read len)
            let moved :=
              if (drained.mem f).size = 0 ∧ drained.tail ≠ f then drained.rotate f n
              else drained
            (readLoop rounds n (len - out.length) moved).map fun result =>
              (result.1, out ++ result.2)
      else
        some (b, [])

/-- `LoopBuf::read` within a number of rounds. -/
def readWithin (rounds : Nat) (b : LoopBuf) (len : Nat) : Option (LoopBuf × Bytes) :=
  (readLoop rounds b.head len b).map fun result =>
    ({ result.1 with size := result.1.size - result.2.length }, result.2)

/-- `LoopBuf::read`.  With a null `buf` the bytes are dropped, and `NULL + rlen`
is a null pointer only in the first round. -/
def read (b : LoopBuf) (len : Nat) : Option (LoopBuf × Bytes) := b.readWithin b.brk len

/-- The loop of `LoopBuf::find`; `ret` counts the bytes passed so far. -/
def findLoop : Nat → Ptr → Nat → UInt8 → LoopBuf → Option Int
  | rounds, f, ret, c, b =>
      if f ≠ null then
        match rounds with
        | 0 => none
        | rounds + 1 =>
            match (b.mem f).data.idxOf? c with
            | some i => some (ret + i : Nat)
            | none => findLoop rounds (b.mem f).next (ret + (b.mem f).size) c b
      else
        some (-1)

/-- `LoopBuf::find`. -/
def find (b : LoopBuf) (c : UInt8) : Option Int := findLoop b.brk b.head 0 c b

/-- The loop of `LoopBuf::clear`. -/
def clearLoop : Nat → Ptr → LoopBuf → Option LoopBuf
  | rounds, f, b =>
      if f ≠ null then
        match rounds with
        | 0 => none
        | rounds + 1 =>
            clearLoop rounds (b.mem f).next (b.setFrame f (b.mem f).clear)
      else
        some b

/-- `LoopBuf::clear`; it returns the number of bytes dropped. -/
def clear (b : LoopBuf) : Option (LoopBuf × Nat) :=
  (clearLoop b.brk b.head b).map fun cleared => ({ cleared with size := 0 }, cleared.size)

end LoopBuf

end GPush
