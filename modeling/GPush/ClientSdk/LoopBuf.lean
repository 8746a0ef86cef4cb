import GPush.Containers.Ring
import GPush.LoopBuf.Frame

/-!
# The receive buffer of the client SDK

`loop_buf`, one circular storage.  What it holds is a window of the storage, and every
operation that `CliConn` uses is an operation on that window.
-/

namespace GPush.ClientSdk

open GPush.Containers GPush.LoopBuf

/-- The first number behind the `int32`s. -/
def int32End : Nat := 2147483648

/-- `loop_buf`.  The storage `buf` has `m_cap` bytes. -/
structure LoopBuf where
  buf : Bytes
  size : Nat
  start : Nat
  positive : 0 < buf.length
  sizeLe : size ≤ buf.length
  startLe : start ≤ buf.length

namespace LoopBuf

/-- `loop_buf::loop_buf`, with the default capacity. -/
def init : LoopBuf where
  buf := List.replicate 1024 0
  size := 0
  start := 0
  positive := by
    rw [List.length_replicate]
    decide
  sizeLe := Nat.zero_le _
  startLe := Nat.zero_le _

/-- `loop_buf::capacity`. -/
def cap (b : LoopBuf) : Nat := b.buf.length

/-- The bytes that the buffer holds. -/
def data (b : LoopBuf) : Bytes := window b.buf b.start b.size

/-- Where the next byte is written, as long as the sum is an `int32`. -/
def stop (b : LoopBuf) : Nat := (b.start + b.size) % b.cap

/-- `loop_buf::next_part_len`, under the condition of `stop`. -/
def nextPartLen (b : LoopBuf) : Nat :=
  let leftsize := b.cap - b.size
  let nextpart := b.cap - b.stop
  if nextpart < leftsize then nextpart else leftsize

/-- The number of bytes that `peek` and `read` take of a request for `len`. -/
def realread (b : LoopBuf) (len : Nat) : Nat := if b.size ≤ len then b.size else len

/-- `loop_buf::peek`: the bytes copied to its argument. -/
def peek (b : LoopBuf) (len : Nat) : Bytes :=
  let firsthalf := b.cap - b.start
  if firsthalf < b.realread len then
    (b.buf.drop b.start).take firsthalf ++ b.buf.take (b.realread len - firsthalf)
  else
    (b.buf.drop b.start).take (b.realread len)

theorem realread_eq_min (b : LoopBuf) (len : Nat) : b.realread len = min len b.size := by
  unfold realread
  split <;> omega

/-- The start that `read` leaves. -/
def readStart (b : LoopBuf) (len : Nat) : Nat :=
  if b.size - b.realread len ≤ 0 then
    0
  else if b.cap - b.start < b.realread len then
    b.realread len - (b.cap - b.start)
  else
    b.start + b.realread len

theorem readStart_le (b : LoopBuf) (len : Nat) : b.readStart len ≤ b.cap := by
  have bound := b.realread_eq_min len
  have sizeLe : b.size ≤ b.cap := b.sizeLe
  have startLe : b.start ≤ b.cap := b.startLe
  unfold readStart
  split_ifs <;> omega

/-- `loop_buf::read`: the buffer afterwards.  The bytes copied are those of `peek`. -/
def read (b : LoopBuf) (len : Nat) : LoopBuf where
  buf := b.buf
  size := b.size - b.realread len
  start := b.readStart len
  positive := b.positive
  sizeLe := Nat.le_trans (Nat.sub_le _ _) b.sizeLe
  startLe := b.readStart_le len

/-- `loop_buf::write` of `NULL`: the number of bytes written is only counted. -/
def write (b : LoopBuf) (len : Nat) : LoopBuf where
  buf := b.buf
  size := b.size + min len (b.cap - b.size)
  start := b.start
  positive := b.positive
  sizeLe := by
    have sizeLe := b.sizeLe
    rw [cap]
    omega
  startLe := b.startLe

/-- A caller's copy of bytes to `loop_buf::next_part`. -/
def fillNextPart (b : LoopBuf) (bytes : Bytes) : LoopBuf where
  buf := memmove b.buf b.stop bytes
  size := b.size
  start := b.start
  positive := by
    rw [length_memmove]
    exact b.positive
  sizeLe := by
    rw [length_memmove]
    exact b.sizeLe
  startLe := by
    rw [length_memmove]
    exact b.startLe

/-- The storage that `resize` allocates, with what it reads from the old one. -/
def resized (b : LoopBuf) (cap : Nat) : Bytes :=
  memmove (List.replicate cap 0) 0 (b.peek cap)

/-- `loop_buf::resize` to a capacity that is not zero. -/
def resize (b : LoopBuf) (cap : Nat) (asserted : 0 < cap) : LoopBuf where
  buf := b.resized cap
  size := b.realread cap
  start := 0
  positive := by
    rw [resized, length_memmove, List.length_replicate]
    exact asserted
  sizeLe := by
    rw [resized, length_memmove, List.length_replicate, realread_eq_min]
    exact Nat.min_le_left _ _
  startLe := Nat.zero_le _

/-! ## The window -/

variable (b : LoopBuf)

@[simp]
theorem length_data : b.data.length = b.size := length_window b.sizeLe

theorem data_init : init.data = [] := window_zero _ _

theorem peek_eq (len : Nat) : b.peek len = b.data.take len := by
  have bound := b.realread_eq_min len
  have sizeLe := b.sizeLe
  have fits : b.realread len ≤ b.buf.length := by omega
  have dropLength : (b.buf.drop b.start).length = b.cap - b.start := List.length_drop
  have parts : b.data.take len = (b.buf.drop b.start).take (b.realread len) ++
      b.buf.take (b.realread len - (b.cap - b.start)) := by
    rw [data, take_window, ← realread_eq_min, window_parts b.startLe fits, cap]
  rw [parts, peek]
  split_ifs with wraps
  · rw [List.take_of_length_le (by omega : _ ≤ b.cap - b.start),
      List.take_of_length_le (by omega : _ ≤ b.realread len)]
  · rw [Nat.sub_eq_zero_of_le (Nat.le_of_not_lt wraps), List.take_zero, List.append_nil]

theorem data_read (len : Nat) : (b.read len).data = b.data.drop len := by
  have bound := b.realread_eq_min len
  have sizeLe : b.size ≤ b.cap := b.sizeLe
  have startLe : b.start ≤ b.buf.length := b.startLe
  by_cases all : b.size ≤ len
  · have none : (b.read len).size = 0 := by
      simp only [read]
      omega
    rw [data, none, window_zero, List.drop_of_length_le (by rw [length_data]; exact all)]
  · have some : b.realread len = len := by omega
    have left : ¬b.size - len ≤ 0 := by omega
    rw [data, data, drop_window (by omega) b.sizeLe]
    simp only [read, readStart, some, if_neg left]
    split_ifs with wraps
    · have startEq : len - (b.cap - b.start) = b.start + len - b.buf.length := by
        change len - (b.buf.length - b.start) = _
        omega
      rw [startEq, window_sub]
      change b.cap ≤ _
      omega
    · rfl

theorem size_read (len : Nat) : (b.read len).size = b.size - len := by
  rw [← length_data, data_read, List.length_drop, length_data]

theorem cap_resize {cap : Nat} (asserted : 0 < cap) : (b.resize cap asserted).cap = cap := by
  simp only [LoopBuf.cap, resize, resized, length_memmove, List.length_replicate]

theorem data_resize {cap : Nat} (asserted : 0 < cap) (enough : b.size ≤ cap) :
    (b.resize cap asserted).data = b.data := by
  have peekEq : b.peek cap = b.data := by
    rw [peek_eq, List.take_of_length_le (by rw [length_data]; exact enough)]
  have sizeEq : (b.resize cap asserted).size = b.data.length := by
    change b.realread cap = _
    rw [realread_eq_min, length_data, Nat.min_eq_right enough]
  have room : 0 + b.data.length ≤ (List.replicate cap (0 : UInt8)).length := by
    rw [List.length_replicate, length_data]
    omega
  have bufEq : (b.resize cap asserted).buf =
      b.data ++ (List.replicate cap 0).drop b.data.length := by
    change memmove _ 0 (b.peek cap) = _
    rw [peekEq, memmove_of_le room, List.take_zero, List.nil_append, Nat.zero_add]
  have startEq : (b.resize cap asserted).start = 0 := rfl
  rw [data, startEq, sizeEq, bufEq, window, List.rotate_zero]
  exact List.take_left

theorem nextPartLen_eq_min : b.nextPartLen = min (b.cap - b.stop) (b.cap - b.size) := by
  unfold nextPartLen
  dsimp only
  split <;> omega

/-- The buffer offers no bytes only when it is full. -/
theorem nextPartLen_eq_zero_iff : b.nextPartLen = 0 ↔ b.size = b.cap := by
  have sizeLe : b.size ≤ b.cap := b.sizeLe
  have inside : b.stop < b.cap := Nat.mod_lt _ b.positive
  rw [nextPartLen_eq_min]
  omega

/-- What is received into the next part is held behind the rest. -/
theorem data_write {bytes : Bytes} (room : bytes.length ≤ b.nextPartLen) :
    ((b.fillNextPart bytes).write bytes.length).data = b.data ++ bytes ∧
      ((b.fillNextPart bytes).write bytes.length).size = b.size + bytes.length ∧
      ((b.fillNextPart bytes).write bytes.length).cap = b.cap := by
  have sizeLe : b.size ≤ b.cap := b.sizeLe
  have inside : b.stop < b.cap := Nat.mod_lt _ b.positive
  rw [nextPartLen_eq_min] at room
  have leftsize : bytes.length ≤ b.cap - b.size := by omega
  have nextpart : b.stop + bytes.length ≤ b.buf.length := by
    change b.stop + bytes.length ≤ b.cap
    omega
  have moved : memmove b.buf b.stop bytes = overwrite b.buf b.stop bytes := memmove_of_le nextpart
  have count : min bytes.length ((b.fillNextPart bytes).cap - b.size) = bytes.length := by
    rw [cap, fillNextPart, length_memmove]
    exact Nat.min_eq_left leftsize
  have sizeEq : ((b.fillNextPart bytes).write bytes.length).size = b.size + bytes.length :=
    congrArg (b.size + ·) count
  refine ⟨?_, sizeEq, length_memmove _ _ _⟩
  rw [data, sizeEq, data]
  change window (memmove b.buf b.stop bytes) b.start (b.size + bytes.length) = _
  rw [moved]
  have fits : b.size + bytes.length ≤ b.buf.length := by
    change b.size + bytes.length ≤ b.cap
    omega
  exact window_overwrite fits nextpart

end LoopBuf

end GPush.ClientSdk
