import Mathlib.Data.List.Basic

/-!
# Frames

One allocation unit of `LoopBuf`: a header followed by its storage.  Sizes are
`int32` in the source and natural numbers here; the bound that keeps the used
part inside the storage is a field of the structure.
-/

namespace GPush

/-- Byte strings, also used for the source's `std::string`. -/
abbrev Bytes := List UInt8

namespace LoopBuf

/-- Addresses of frames.  As in the source, `0` is the null pointer. -/
abbrev Ptr := Nat

/-- The null pointer. -/
def null : Ptr := 0

/-- `memmove(dst + pos, src, src.size())` as seen by the `dst.length` bytes at
`dst`; what would land behind them is not theirs. -/
def memmove (dst : Bytes) (pos : Nat) (src : Bytes) : Bytes :=
  (dst.take pos ++ src ++ dst.drop (pos + src.length)).take dst.length

@[simp]
theorem length_memmove (dst : Bytes) (pos : Nat) (src : Bytes) :
    (memmove dst pos src).length = dst.length := by
  simp only [memmove, List.length_take, List.length_append, List.length_drop]
  omega

/-- A copy that stays inside the destination is not truncated. -/
theorem memmove_of_le {dst src : Bytes} {pos : Nat} (inside : pos + src.length ≤ dst.length) :
    memmove dst pos src = dst.take pos ++ src ++ dst.drop (pos + src.length) := by
  apply List.take_of_length_le
  simp only [List.length_append, List.length_take, List.length_drop]
  omega

/-- The arguments `buf, len` of a write: a pointer to `len` bytes, or `NULL`. -/
inductive Src
  | bytes (data : Bytes)
  | null (len : Nat)

namespace Src

/-- The argument `len`. -/
def len : Src → Nat
  | bytes data => data.length
  | null len => len

/-- The arguments `buf + n, len - n`.  For a null `buf` the source computes
`NULL + n`, which is a null pointer only for `n = 0`; the callers pass `NULL` only
for lengths that one frame takes. -/
def drop (n : Nat) : Src → Src
  | bytes data => bytes (data.drop n)
  | null len => null (len - n)

@[simp]
theorem len_bytes (data : Bytes) : (bytes data).len = data.length :=
  rfl

@[simp]
theorem len_null (n : Nat) : (null n).len = n :=
  rfl

@[simp]
theorem len_drop (src : Src) (n : Nat) : (src.drop n).len = src.len - n := by
  cases src <;> simp [drop, len]

end Src

/-- `struct frame`.  The storage `buf` has `m_cap` bytes. -/
structure Frame where
  buf : Bytes
  size : Nat
  start : Nat
  next : Ptr
  fits : start + size ≤ buf.length

namespace Frame

/-- `m_cap`. -/
def cap (f : Frame) : Nat := f.buf.length

/-- The bytes a frame holds. -/
def data (f : Frame) : Bytes := (f.buf.drop f.start).take f.size

/-- `frame::freeSize`. -/
def freeSize (f : Frame) : Nat := f.cap - f.size - f.start

/-- `frame::full`. -/
def full (f : Frame) : Bool := f.size + f.start == f.cap

/-- The number of bytes `frame::peek` and `frame::read` take of a request for `len`. -/
def realread (f : Frame) (len : Nat) : Nat := if f.size ≤ len then f.size else len

/-- `frame::peek`: the bytes copied to `buf`. -/
def peek (f : Frame) (len : Nat) : Bytes := (f.buf.drop f.start).take (f.realread len)

theorem realread_eq_min (f : Frame) (len : Nat) : f.realread len = min f.size len := by
  unfold realread
  split <;> omega

/-- `frame::read`: the frame afterwards; the bytes handed out are those of `peek`. -/
def read (f : Frame) (len : Nat) : Frame where
  buf := f.buf
  size := f.size - f.realread len
  start := if f.size - f.realread len ≤ 0 then 0 else f.start + f.realread len
  next := f.next
  fits := by
    have inside := f.fits
    have bound := f.realread_eq_min len
    split <;> omega

/-- The number of bytes `frame::write` takes of `len`. -/
def realwrite (f : Frame) (len : Nat) : Nat := if len > f.freeSize then f.freeSize else len

theorem realwrite_eq_min (f : Frame) (len : Nat) : f.realwrite len = min f.freeSize len := by
  unfold realwrite
  split <;> omega

/-- The storage after `frame::write`: a null `buf` leaves it alone. -/
def store (f : Frame) : Src → Bytes
  | .bytes data => memmove f.buf (f.start + f.size) (data.take (f.realwrite data.length))
  | .null _ => f.buf

@[simp]
theorem length_store (f : Frame) (src : Src) : (f.store src).length = f.buf.length := by
  cases src <;> simp [store]

/-- `frame::write`: the frame afterwards; it takes `realwrite src.len` bytes. -/
def write (f : Frame) (src : Src) : Frame where
  buf := f.store src
  size := f.size + f.realwrite src.len
  start := f.start
  next := f.next
  fits := by
    have inside := f.fits
    have bound := f.realwrite_eq_min src.len
    simp only [length_store, freeSize, cap] at bound ⊢
    omega

/-- `frame::clear`. -/
def clear (f : Frame) : Frame where
  buf := f.buf
  size := 0
  start := 0
  next := f.next
  fits := by omega

/-- A caller's `memmove` of `data` to the free part of the frame. -/
def fill (f : Frame) (data : Bytes) : Frame where
  buf := memmove f.buf (f.start + f.size) data
  size := f.size
  start := f.start
  next := f.next
  fits := by simpa using f.fits

/-- `f->m_next = p`. -/
def setNext (f : Frame) (p : Ptr) : Frame where
  buf := f.buf
  size := f.size
  start := f.start
  next := p
  fits := f.fits

/-! ## What the operations leave alone -/

@[simp] theorem next_write (f : Frame) (src : Src) : (f.write src).next = f.next := rfl
@[simp] theorem next_clear (f : Frame) : f.clear.next = f.next := rfl
@[simp] theorem next_fill (f : Frame) (data : Bytes) : (f.fill data).next = f.next := rfl
@[simp] theorem next_setNext (f : Frame) (p : Ptr) : (f.setNext p).next = p := rfl
@[simp] theorem cap_read (f : Frame) (len : Nat) : (f.read len).cap = f.cap := rfl
@[simp] theorem cap_clear (f : Frame) : f.clear.cap = f.cap := rfl
@[simp] theorem size_clear (f : Frame) : f.clear.size = 0 := rfl
@[simp] theorem start_clear (f : Frame) : f.clear.start = 0 := rfl
@[simp] theorem size_fill (f : Frame) (data : Bytes) : (f.fill data).size = f.size := rfl
@[simp] theorem start_fill (f : Frame) (data : Bytes) : (f.fill data).start = f.start := rfl

@[simp]
theorem cap_write (f : Frame) (src : Src) : (f.write src).cap = f.cap :=
  f.length_store src

@[simp]
theorem cap_fill (f : Frame) (data : Bytes) : (f.fill data).cap = f.cap :=
  length_memmove f.buf _ data

/-! ## Contents -/

@[simp]
theorem length_data (f : Frame) : f.data.length = f.size := by
  have inside := f.fits
  simp only [data, List.length_take, List.length_drop]
  omega

theorem full_iff (f : Frame) : f.full = true ↔ f.freeSize = 0 := by
  have inside := f.fits
  simp only [full, freeSize, cap, beq_iff_eq]
  omega

theorem not_full_iff (f : Frame) : f.full = false ↔ 0 < f.freeSize := by
  rw [← Bool.not_eq_true, full_iff]
  omega

theorem peek_eq_take (f : Frame) (len : Nat) : f.peek len = f.data.take len := by
  rw [peek, realread_eq_min, data, List.take_take, Nat.min_comm]

theorem size_read (f : Frame) (len : Nat) : (f.read len).size = f.size - len := by
  have bound := f.realread_eq_min len
  simp only [read]
  omega

theorem start_read_of_drained {f : Frame} {len : Nat} (drained : (f.read len).size = 0) :
    (f.read len).start = 0 := by
  simp only [read] at drained ⊢
  simp [drained]

/-- Reading removes a prefix of the contents. -/
theorem data_read (f : Frame) (len : Nat) : (f.read len).data = f.data.drop len := by
  by_cases all : f.size ≤ len
  · have emptied : (f.read len).data.length = 0 := by
      rw [length_data, size_read]
      omega
    rw [List.eq_nil_of_length_eq_zero emptied, List.drop_of_length_le (by simpa using all)]
  · have taken : f.realread len = len := by
      rw [realread_eq_min]
      omega
    have kept : ¬ f.size - len ≤ 0 := by omega
    simp only [data, read, taken, if_neg kept, List.drop_take, List.drop_drop]

/-- Copying right behind a slice extends the slice. -/
theorem slice_memmove {dst src : Bytes} {start len : Nat}
    (inside : start + len + src.length ≤ dst.length) :
    ((memmove dst (start + len) src).drop start).take (len + src.length) =
      (dst.drop start).take len ++ src := by
  have startLength : (dst.take start).length = start := by
    simp only [List.length_take]
    omega
  have sliceLength : ((dst.drop start).take len ++ src).length = len + src.length := by
    simp only [List.length_append, List.length_take, List.length_drop]
    omega
  have splitEq : dst.take (start + len) = dst.take start ++ (dst.drop start).take len :=
    List.take_add
  rw [memmove_of_le inside, splitEq, List.append_assoc, List.append_assoc,
    List.drop_left' startLength, ← List.append_assoc, List.take_left' sliceLength]

/-- Writing appends what fits of the source. -/
theorem data_write_bytes (f : Frame) (src : Bytes) :
    (f.write (.bytes src)).data = f.data ++ src.take f.freeSize := by
  have inside := f.fits
  have bound := f.realwrite_eq_min src.length
  have prefixEq : src.take (f.realwrite src.length) = src.take f.freeSize := by
    rw [bound, ← List.take_take, List.take_length]
  have taken : f.realwrite src.length = (src.take f.freeSize).length := by
    rw [← prefixEq, List.length_take]
    omega
  simp only [data, write, store, Src.len_bytes, prefixEq]
  rw [taken]
  apply slice_memmove
  simp only [List.length_take, freeSize, cap]
  omega

/-- Filling the free part and then writing from `NULL` appends what was filled in. -/
theorem data_write_null_fill (f : Frame) {data : Bytes} (room : data.length ≤ f.freeSize) :
    ((f.fill data).write (.null data.length)).data = f.data ++ data := by
  have inside := f.fits
  have taken : (f.fill data).realwrite data.length = data.length := by
    rw [realwrite_eq_min]
    simp only [freeSize, cap_fill, size_fill, start_fill] at room ⊢
    omega
  simp only [Frame.data, write, store, Src.len_null, taken, size_fill, start_fill]
  apply slice_memmove
  simp only [freeSize, cap] at room
  omega

theorem size_write (f : Frame) (src : Src) :
    (f.write src).size = f.size + min f.freeSize src.len := by
  rw [← realwrite_eq_min]
  rfl

theorem freeSize_write (f : Frame) (src : Src) :
    (f.write src).freeSize = f.freeSize - src.len := by
  have inside := f.fits
  have sizeEq := f.size_write src
  have startEq : (f.write src).start = f.start := rfl
  simp only [freeSize, cap_write, startEq] at sizeEq ⊢
  omega

end Frame

end LoopBuf

end GPush
