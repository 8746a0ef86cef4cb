import GPush.Codec.Base64
import Mathlib.Algebra.Group.Nat.Defs
import Mathlib.Algebra.Group.Int.Defs

/-!
# Base64 in its buffers

The two functions of `ef_base64.cpp` with their `int` arithmetic and their buffers.  A
string whose size is an `int` with room to spare is coded as the functions on lists code
it: every character has its place in the buffer, and all places are filled.
-/

namespace GPush.Codec

/-- A number stored in an `int`. -/
def wrapInt (n : Int) : Int := n.bmod (2 ^ 32)

theorem wrapInt_eq {n : Int} (lower : -2 ^ 31 ≤ n) (upper : n < 2 ^ 31) : wrapInt n = n := by
  apply Int.bmod_eq_of_le <;> omega

theorem wrapInt_bounds (n : Int) : -2 ^ 31 ≤ wrapInt n ∧ wrapInt n < 2 ^ 31 :=
  ⟨Int.le_bmod (by omega), Int.bmod_lt (by omega)⟩

theorem wrapInt_natCast_le (n : Nat) : wrapInt n ≤ n := by
  rw [wrapInt, Int.bmod_eq_emod]
  split <;> omega

/-- `std::string::resize`.  A negative number is a size beyond `max_size`, and the call
throws. -/
def resize (buf : Bytes) (n : Int) : Option Bytes :=
  if n < 0 then none else some (buf.take n.toNat ++ List.replicate (n.toNat - buf.length) 0)

theorem resize_of_neg {buf : Bytes} {n : Int} (negative : n < 0) : resize buf n = none :=
  if_pos negative

theorem resize_length_append (kept cut : Bytes) :
    resize (kept ++ cut) kept.length = some kept := by
  rw [resize, if_neg (by omega), Int.toNat_natCast, List.take_left, List.length_append,
    Nat.sub_eq_zero_of_le (Nat.le_add_right _ _), List.replicate_zero, List.append_nil]

theorem resize_nil (n : Nat) : resize [] n = some (List.replicate n 0) := by
  rw [resize, if_neg (by omega), Int.toNat_natCast]
  simp

theorem eq_zero_of_resize_nil {n : Int} {buf : Bytes} (sized : resize [] n = some buf) {p : UInt8}
    (member : p ∈ buf) : p = 0 := by
  rw [resize] at sized
  split at sized
  · cases sized
  · rw [← Option.some.inj sized, List.take_nil, List.nil_append] at member
    exact List.eq_of_mem_replicate member

/-- Consecutive bytes written into a buffer from the place `k` on.  A write behind its end
is not made. -/
def storeAll : Bytes → Nat → Bytes → Option Bytes
  | buf, _, [] => some buf
  | buf, k, b :: bytes => if k < buf.length then storeAll (buf.set k b) (k + 1) bytes else none

/-- Writing where there is room. -/
theorem storeAll_append (done bytes hole : Bytes) {k : Nat} (place : k = done.length)
    (room : bytes.length ≤ hole.length) :
    storeAll (done ++ hole) k bytes = some (done ++ bytes ++ hole.drop bytes.length) := by
  subst place
  induction bytes generalizing done hole with
  | nil => simp [storeAll]
  | cons b bytes ih =>
      cases hole with
      | nil => exact absurd room (Nat.not_succ_le_zero _)
      | cons h hole =>
          have written : (done ++ h :: hole).set done.length b = (done ++ [b]) ++ hole := by
            simp
          have next := ih (done ++ [b]) hole (Nat.le_of_succ_le_succ room)
          rw [List.length_append, List.length_singleton] at next
          rw [storeAll, if_pos (by simp), written, next]
          simp

namespace Buffer

/-! ## Encoding -/

/-- The loop of `base64Encode`, with the number `i` of bytes read and the place `dst` of the
next character. -/
def encodeLoop (s : Bytes) (n : Int) (i dst : Nat) (ret : Bytes) : Option (Nat × Bytes) :=
  if i ≤ n - 3 then do
    let a ← s[i]?
    let b ← s[i + 1]?
    let c ← s[i + 2]?
    let ret ← storeAll ret dst [char64 ((a &&& 0xFC) >>> 2),
      char64 (((a &&& 0x03) <<< 4) + ((b &&& 0xF0) >>> 4)),
      char64 (((b &&& 0x0F) <<< 2) + ((c &&& 0xC0) >>> 6)), char64 (c &&& 0x3F)]
    encodeLoop s n (i + 3) (dst + 4) ret
  else
    some (dst, ret)
termination_by (n - i).toNat

/-- The rest of `base64Encode`, after the loop. -/
def encodeTail (s : Bytes) (n : Int) (dst : Nat) (ret : Bytes) : Option Bytes :=
  if n.tmod 3 ≠ 0 then do
    let i := (n - n.tmod 3).toNat
    let a ← s[i]?
    if n.tmod 3 > 1 then do
      let b ← s[i + 1]?
      storeAll ret dst [char64 (a >>> 2), char64 (((a &&& 0x03) <<< 4) + (b >>> 4)),
        char64 ((b &&& 0x0F) <<< 2), pad]
    else
      storeAll ret dst [char64 (a >>> 2), char64 ((a &&& 0x03) <<< 4), pad, pad]
  else
    some ret

/-- `base64Encode`. -/
def base64Encode (s : Bytes) : Option Bytes := do
  let n := wrapInt s.length
  let buflen := if n.tmod 3 ≠ 0 then wrapInt (n + 3 - n.tmod 3) else n
  let ret ← resize [] ((wrapInt (buflen * 4)).tdiv 3)
  let (dst, ret) ← encodeLoop s n 0 0 ret
  encodeTail s n dst ret

theorem natCast_tmod_three (m : Nat) : (m : Int).tmod 3 = (m % 3 : Nat) := rfl

theorem natCast_tdiv_three (m : Nat) : (m : Int).tdiv 3 = (m / 3 : Nat) := rfl

theorem encodeLoop_of_short {s : Bytes} {n : Int} {i dst : Nat} {ret : Bytes}
    (short : n < i + 3) : encodeLoop s n i dst ret = some (dst, ret) := by
  rw [encodeLoop, if_neg (by omega)]

/-- Of `rest`, which stands behind whole groups of three bytes, all characters are written. -/
theorem encodeLoop_append : ∀ front rest done hole : Bytes, front.length % 3 = 0 →
    hole.length = (rest.length + 2) / 3 * 4 →
    ((encodeLoop (front ++ rest) (front ++ rest).length front.length done.length
      (done ++ hole)).bind fun p => encodeTail (front ++ rest) (front ++ rest).length p.1 p.2) =
        some (done ++ Codec.base64Encode rest)
  | front, a :: b :: c :: rest, done, hole, whole, room => by
      have roomEq : hole.length = (rest.length + 2) / 3 * 4 + 4 := by
        rw [room]
        simp only [List.length_cons]
        omega
      have next := encodeLoop_append (front ++ [a, b, c]) rest (done ++ [
        char64 ((a &&& 0xFC) >>> 2), char64 (((a &&& 0x03) <<< 4) + ((b &&& 0xF0) >>> 4)),
        char64 (((b &&& 0x0F) <<< 2) + ((c &&& 0xC0) >>> 6)), char64 (c &&& 0x3F)]) (hole.drop 4)
        (by simp; omega) (by simp [roomEq])
      have moved : front ++ [a, b, c] ++ rest = front ++ a :: b :: c :: rest := by simp
      rw [moved] at next
      rw [encodeLoop, if_pos (by simp; omega)]
      simp only [List.getElem?_append_right (Nat.le_add_right _ _), List.getElem?_append_right
        (Nat.le_refl _), Nat.sub_self, Nat.add_sub_cancel_left, List.getElem?_cons_zero,
        List.getElem?_cons_succ, Option.bind_eq_bind, Option.bind_some]
      rw [storeAll_append _ _ _ rfl (by simp; omega), Option.bind_some]
      simpa [Codec.base64Encode] using next
  | front, [a, b], done, hole, whole, room => by
      have two : (((front ++ [a, b]).length : Nat) : Int).tmod 3 = 2 := by
        rw [natCast_tmod_three, List.length_append]
        simp only [List.length_cons, List.length_nil]
        omega
      have place : (((front ++ [a, b]).length : Int) - 2).toNat = front.length := by
        simp
      have roomEq : hole.length = 4 := by simpa using room
      have full : hole.drop 4 = [] := List.drop_eq_nil_of_le (Nat.le_of_eq roomEq)
      rw [encodeLoop_of_short (by simp), Option.bind_some, encodeTail, two]
      simp only [place, List.getElem?_append_right (Nat.le_add_right _ _),
        List.getElem?_append_right (Nat.le_refl _), Nat.sub_self, Nat.add_sub_cancel_left,
        List.getElem?_cons_zero, List.getElem?_cons_succ, Option.bind_eq_bind, Option.bind_some]
      rw [if_pos (by decide), if_pos (by decide), storeAll_append _ _ _ rfl (by simp [roomEq])]
      simp [full, Codec.base64Encode]
  | front, [a], done, hole, whole, room => by
      have one : (((front ++ [a]).length : Nat) : Int).tmod 3 = 1 := by
        rw [natCast_tmod_three, List.length_append]
        simp only [List.length_cons, List.length_nil]
        omega
      have place : (((front ++ [a]).length : Int) - 1).toNat = front.length := by
        simp
      have roomEq : hole.length = 4 := by simpa using room
      have full : hole.drop 4 = [] := List.drop_eq_nil_of_le (Nat.le_of_eq roomEq)
      rw [encodeLoop_of_short (by simp), Option.bind_some, encodeTail, one]
      simp only [place, List.getElem?_append_right (Nat.le_refl _), Nat.sub_self,
        List.getElem?_cons_zero, Option.bind_eq_bind, Option.bind_some]
      rw [if_pos (by decide), if_neg (by decide), storeAll_append _ _ _ rfl (by simp [roomEq])]
      simp [full, Codec.base64Encode]
  | front, [], done, hole, whole, room => by
      have noHole : hole = [] := List.length_eq_zero_iff.mp room
      have zero : (((front ++ []).length : Nat) : Int).tmod 3 = 0 := by
        rw [natCast_tmod_three, List.append_nil, whole]
        rfl
      have short : ((front ++ []).length : Int) < (front.length : Int) + 3 := by
        rw [List.append_nil]
        omega
      rw [encodeLoop_of_short short, Option.bind_some, encodeTail, zero]
      simp [Codec.base64Encode, noHole]

/-- The size of the buffer is computed without an overflow. -/
theorem base64Encode_eq {s : Bytes} (small : s.length < 2 ^ 28) :
    base64Encode s = some (Codec.base64Encode s) := by
  have n : wrapInt s.length = s.length := wrapInt_eq (by omega) (by omega)
  have buflen : (if (s.length : Int).tmod 3 ≠ 0 then
      wrapInt (s.length + 3 - (s.length : Int).tmod 3) else s.length) =
        ((s.length + 2) / 3 * 3 : Nat) := by
    rw [natCast_tmod_three]
    split_ifs with partly
    · rw [wrapInt_eq (by omega) (by omega)]
      omega
    · omega
  have size : (wrapInt (((s.length + 2) / 3 * 3 : Nat) * 4)).tdiv 3 =
      ((s.length + 2) / 3 * 4 : Nat) := by
    have wide : (((s.length + 2) / 3 * 3 : Nat) * 4 : Int) = ((s.length + 2) / 3 * 3 * 4 : Nat) :=
      rfl
    rw [wrapInt_eq (by omega) (by omega), wide, natCast_tdiv_three]
    omega
  have looped := encodeLoop_append [] s [] (List.replicate ((s.length + 2) / 3 * 4) 0) rfl (by simp)
  rw [base64Encode]
  simp only [n, buflen, size, resize_nil, Option.bind_eq_bind, Option.bind_some]
  simpa using looped

/-- What is in a buffer was there or was written. -/
theorem mem_storeAll {buf stored bytes : Bytes} {k : Nat} {p : UInt8}
    (done : storeAll buf k bytes = some stored) (member : p ∈ stored) : p ∈ buf ∨ p ∈ bytes := by
  induction bytes generalizing buf k with
  | nil =>
      rw [storeAll] at done
      exact Or.inl (Option.some.inj done ▸ member)
  | cons b bytes ih =>
      rw [storeAll] at done
      split at done
      · rcases ih done with before | later
        · rcases List.mem_or_eq_of_mem_set before with old | new
          · exact Or.inl old
          · exact Or.inr (List.mem_cons.mpr (Or.inl new))
        · exact Or.inr (List.mem_cons_of_mem _ later)
      · cases done

/-- The characters that the encoder leaves in its buffer. -/
def Written (p : UInt8) : Prop := p = 0 ∨ p = pad ∨ ∃ i, p = char64 i

theorem written_encodeLoop {s : Bytes} {n : Int} {i dst : Nat} {ret : Bytes}
    (before : ∀ p ∈ ret, Written p) {dst' : Nat} {ret' : Bytes}
    (done : encodeLoop s n i dst ret = some (dst', ret')) : ∀ p ∈ ret', Written p := by
  induction i, dst, ret using encodeLoop.induct n with
  | case1 i dst ret more ih =>
      rw [encodeLoop, if_pos more] at done
      simp only [Option.bind_eq_bind, Option.bind_eq_some_iff] at done
      obtain ⟨a, -, b, -, c, -, stored, storing, later⟩ := done
      apply ih stored _ later
      intro p member
      rcases mem_storeAll storing member with old | new
      · exact before p old
      · simp only [List.mem_cons, List.not_mem_nil, or_false] at new
        rcases new with rfl | rfl | rfl | rfl <;> exact Or.inr (Or.inr ⟨_, rfl⟩)
  | case2 i dst ret less =>
      rw [encodeLoop, if_neg less] at done
      cases done
      exact before

theorem written_encodeTail {s : Bytes} {n : Int} {dst : Nat} {ret : Bytes}
    (before : ∀ p ∈ ret, Written p) {ret' : Bytes}
    (done : encodeTail s n dst ret = some ret') : ∀ p ∈ ret', Written p := by
  intro p member
  rw [encodeTail] at done
  split at done
  · simp only [Option.bind_eq_bind, Option.bind_eq_some_iff] at done
    obtain ⟨a, -, done⟩ := done
    split at done
    · simp only [Option.bind_eq_some_iff] at done
      obtain ⟨b, -, storing⟩ := done
      rcases mem_storeAll storing member with old | new
      · exact before p old
      · simp only [List.mem_cons, List.not_mem_nil, or_false] at new
        rcases new with rfl | rfl | rfl | rfl
        · exact Or.inr (Or.inr ⟨_, rfl⟩)
        · exact Or.inr (Or.inr ⟨_, rfl⟩)
        · exact Or.inr (Or.inr ⟨_, rfl⟩)
        · exact Or.inr (Or.inl rfl)
    · rcases mem_storeAll done member with old | new
      · exact before p old
      · simp only [List.mem_cons, List.not_mem_nil, or_false] at new
        rcases new with rfl | rfl | rfl | rfl
        · exact Or.inr (Or.inr ⟨_, rfl⟩)
        · exact Or.inr (Or.inr ⟨_, rfl⟩)
        · exact Or.inr (Or.inl rfl)
        · exact Or.inr (Or.inl rfl)
  · cases done
    exact before p member

/-- Whatever the size is. -/
theorem written_base64Encode {s encoded : Bytes} (done : base64Encode s = some encoded) :
    ∀ p ∈ encoded, Written p := by
  rw [base64Encode] at done
  simp only [Option.bind_eq_bind, Option.bind_eq_some_iff] at done
  obtain ⟨ret, sized, ⟨dst, looped⟩, looping, tail⟩ := done
  apply written_encodeTail _ tail
  apply written_encodeLoop _ looping
  exact fun p member => Or.inl (eq_zero_of_resize_nil sized member)

/-! ## Decoding -/

/-- The loop of `base64Decode`, with the number `i` of characters read and the number `j` of
bytes written. -/
def decodeLoop (s : Bytes) (l : Int) (i j pandcnt : Nat) (ret : Bytes) : Option Bytes :=
  if i ≤ l - 4 then do
    let p0 ← s[i]?
    let p1 ← s[i + 1]?
    let p2 ← s[i + 2]?
    let p3 ← s[i + 3]?
    let a := reverse64 p0
    let b := reverse64 p1
    let c := if p2 ≠ pad then reverse64 p2 else 0
    let pandcnt := if p2 ≠ pad then pandcnt else 2
    let d := if pandcnt = 0 then (if p3 ≠ pad then reverse64 p3 else 0) else 0
    let pandcnt := if pandcnt = 0 then (if p3 ≠ pad then 0 else 1) else pandcnt
    if a < 0 ∨ b < 0 ∨ c < 0 ∨ d < 0 then
      resize ret j
    else
      let ret ← storeAll ret j [toByte ((a.toNat <<< 2) + ((b.toNat &&& 0x30) >>> 4)),
        toByte (((b.toNat &&& 0x0F) <<< 4) + ((c.toNat &&& 0x3C) >>> 2)),
        toByte (((c.toNat &&& 0x03) <<< 6) + d.toNat)]
      decodeLoop s l (i + 4) (j + 3) pandcnt ret
  else
    resize ret (j - pandcnt)
termination_by (l - i).toNat

/-- `base64Decode`. -/
def base64Decode (s : Bytes) : Option Bytes := do
  let l := wrapInt s.length
  let n := if l.tmod 4 ≠ 0 then l - l.tmod 4 else l
  let ret ← resize [] (wrapInt (n.tdiv 4 * 3))
  decodeLoop s l 0 0 0 ret

theorem resize_shrink (done : Bytes) {cut : Nat} (few : cut ≤ done.length) :
    resize done (done.length - cut) = some (done.take (done.length - cut)) := by
  rw [resize, if_neg (by omega)]
  have size : ((done.length : Int) - cut).toNat = done.length - cut := by omega
  rw [size, Nat.sub_eq_zero_of_le (Nat.sub_le _ _), List.replicate_zero, List.append_nil]

theorem decodeLoop_of_short {front rest done hole : Bytes} {pandcnt : Nat} (more : Bytes)
    (few : pandcnt ≤ done.length) (short : rest.length < 4)
    (room : hole.length = rest.length / 4 * 3) :
    decodeLoop (front ++ rest ++ more) (front ++ rest).length front.length done.length pandcnt
      (done ++ hole) = some (Codec.decodeLoop pandcnt done rest) := by
  have noHole : hole = [] := by
    rw [Nat.div_eq_of_lt short] at room
    exact List.length_eq_zero_iff.mp room
  rw [decodeLoop, if_neg (by rw [List.length_append]; omega), noHole, List.append_nil,
    resize_shrink done few, decodeLoop_of_length_lt short]

/-- Of `rest`, which stands behind whole groups of four characters, all bytes are written.
What follows is not looked at. -/
theorem decodeLoop_append (more : Bytes) : ∀ front rest done hole : Bytes,
    ∀ pandcnt ≤ done.length, hole.length = rest.length / 4 * 3 →
    decodeLoop (front ++ rest ++ more) (front ++ rest).length front.length done.length pandcnt
      (done ++ hole) = some (Codec.decodeLoop pandcnt done rest)
  | front, p0 :: p1 :: p2 :: p3 :: rest, done, hole, pandcnt, few, room => by
      have roomEq : hole.length = rest.length / 4 * 3 + 3 := by
        rw [room]
        simp only [List.length_cons]
        omega
      have moved : front ++ [p0, p1, p2, p3] ++ rest = front ++ p0 :: p1 :: p2 :: p3 :: rest := by
        simp
      have next : ∀ pandcnt ≤ done.length + 3, ∀ x y z : UInt8,
          decodeLoop (front ++ p0 :: p1 :: p2 :: p3 :: rest ++ more)
              (front ++ p0 :: p1 :: p2 :: p3 :: rest).length (front.length + 4) (done.length + 3)
              pandcnt (done ++ [x, y, z] ++ hole.drop 3) =
            some (Codec.decodeLoop pandcnt (done ++ [x, y, z]) rest) := by
        intro pandcnt few x y z
        have looped := decodeLoop_append more (front ++ [p0, p1, p2, p3]) rest (done ++ [x, y, z])
          (hole.drop 3) pandcnt (by simpa using few) (by simp [roomEq])
        rw [moved] at looped
        simpa using looped
      rw [decodeLoop, if_pos (by simp; omega), Codec.decodeLoop]
      simp only [List.append_assoc] at next ⊢
      simp only [List.cons_append] at next ⊢
      simp only [List.getElem?_append_right (Nat.le_add_right _ _), List.getElem?_append_right
        (Nat.le_refl _), Nat.sub_self, Nat.add_sub_cancel_left, List.getElem?_cons_zero,
        List.getElem?_cons_succ, Option.bind_eq_bind, Option.bind_some]
      split_ifs
      all_goals first
        | exact resize_length_append done hole
        | rw [storeAll_append _ _ _ rfl (by simp; omega), Option.bind_some]
          simpa using next _ (by omega) _ _ _
  | front, [p0, p1, p2], done, hole, pandcnt, few, room =>
      decodeLoop_of_short more few (by simp) room
  | front, [p0, p1], done, hole, pandcnt, few, room =>
      decodeLoop_of_short more few (by simp) room
  | front, [p0], done, hole, pandcnt, few, room => decodeLoop_of_short more few (by simp) room
  | front, [], done, hole, pandcnt, few, room => decodeLoop_of_short more few (by simp) room

/-- With a size that is no negative `int`, that many characters are decoded. -/
theorem base64Decode_append {s : Bytes} (more : Bytes) (small : s.length < 2 ^ 31)
    (size : wrapInt (s ++ more).length = s.length) :
    base64Decode (s ++ more) = some (Codec.base64Decode s) := by
  have n : (if (s.length : Int).tmod 4 ≠ 0 then s.length - (s.length : Int).tmod 4
      else s.length) = (s.length / 4 * 4 : Nat) := by
    have mod : (s.length : Int).tmod 4 = (s.length % 4 : Nat) := rfl
    rw [mod]
    split_ifs <;> omega
  have room : wrapInt (((s.length / 4 * 4 : Nat) : Int).tdiv 4 * 3) = (s.length / 4 * 3 : Nat) := by
    have div : ((s.length / 4 * 4 : Nat) : Int).tdiv 4 = (s.length / 4 * 4 / 4 : Nat) := rfl
    rw [div, wrapInt_eq (by omega) (by omega)]
    omega
  have looped := decodeLoop_append more [] s [] (List.replicate (s.length / 4 * 3) 0) 0
    (Nat.le_refl _) (by simp)
  rw [base64Decode]
  simp only [size, n, room, resize_nil, Option.bind_eq_bind, Option.bind_some]
  simpa [Codec.base64Decode] using looped

/-- The sizes are computed without an overflow. -/
theorem base64Decode_eq {s : Bytes} (small : s.length < 2 ^ 31) :
    base64Decode s = some (Codec.base64Decode s) := by
  simpa using base64Decode_append [] small (by simpa using wrapInt_eq (by omega) (by omega))

/-- A size that is a negative `int` is no size for the buffer, except for the last three,
which are rounded up to nothing. -/
theorem base64Decode_of_neg {s : Bytes} (negative : wrapInt s.length < 0) :
    base64Decode s = if wrapInt s.length ≤ -4 then none else some [] := by
  have lower := (wrapInt_bounds s.length).1
  generalize sizeEq : wrapInt s.length = l at negative lower
  have rest : l.tmod 4 = -((-l) % 4) := by
    rw [← Int.neg_neg l, Int.neg_tmod, Int.tmod_eq_emod_of_nonneg (by omega), Int.neg_neg]
  have rounded : (if l.tmod 4 ≠ 0 then l - l.tmod 4 else l) = -((-l) / 4 * 4) := by
    split_ifs <;> omega
  have quarter : (-((-l) / 4 * 4)).tdiv 4 = -((-l) / 4) := by
    rw [Int.neg_tdiv, Int.mul_tdiv_cancel _ (by omega)]
  rw [base64Decode]
  simp only [sizeEq, rounded, quarter, Option.bind_eq_bind]
  rw [wrapInt_eq (by omega) (by omega)]
  split
  · rw [resize_of_neg (by omega)]
    rfl
  · have nothing : -(-l / 4) * 3 = ((0 : Nat) : Int) := by omega
    rw [nothing, resize_nil, Option.bind_some, decodeLoop, if_neg (by omega)]
    rfl

/-- Of any string as many characters are decoded as its size is as an `int`, unless that is
a negative number that `resize` refuses. -/
theorem base64Decode_exact (s : Bytes) :
    base64Decode s = if wrapInt s.length ≤ -4 then none
      else some (Codec.base64Decode (s.take (wrapInt s.length).toNat)) := by
  by_cases negative : wrapInt s.length < 0
  · rw [base64Decode_of_neg negative, Int.toNat_of_nonpos (by omega), List.take_zero]
    rfl
  · have upper := (wrapInt_bounds s.length).2
    have fits := wrapInt_natCast_le s.length
    have length : (s.take (wrapInt s.length).toNat).length = (wrapInt s.length).toNat := by
      rw [List.length_take]
      omega
    have decoded := base64Decode_append (s.drop (wrapInt s.length).toNat) (by omega)
      (s := s.take (wrapInt s.length).toNat)
      (by rw [List.take_append_drop, length]; omega)
    rw [List.take_append_drop] at decoded
    rw [decoded, if_neg (by omega)]

/-- Three bytes for a group, at most. -/
theorem length_decodeLoop_le : ∀ rest out : Bytes, ∀ pandcnt : Nat,
    (Codec.decodeLoop pandcnt out rest).length ≤ out.length + rest.length / 4 * 3
  | p0 :: p1 :: p2 :: p3 :: rest, out, pandcnt => by
      by_cases decodes : Decodes pandcnt p0 p1 p2 p3
      · have later := length_decodeLoop_le rest (out ++ stored (reverse64 p0).toNat
          (reverse64 p1).toNat (if p2 = pad then 0 else (reverse64 p2).toNat)
          (if cutAfter pandcnt p2 p3 = 0 then (reverse64 p3).toNat else 0)) (cutAfter pandcnt p2 p3)
        rw [List.length_append, length_stored] at later
        rw [decodeLoop_of_decodes decodes]
        simp only [List.length_cons]
        omega
      · rw [decodeLoop_of_not_decodes decodes]
        omega
  | [_, _, _], out, pandcnt | [_, _], out, pandcnt | [_], out, pandcnt | [], out, pandcnt => by
      rw [decodeLoop_of_length_lt (by simp), List.length_take]
      omega

/-- What was decoded is short enough to be decoded once more. -/
theorem length_base64Decode_lt {s decoded : Bytes} (read : base64Decode s = some decoded) :
    decoded.length < 2 ^ 31 := by
  have upper := (wrapInt_bounds s.length).2
  rw [base64Decode_exact] at read
  split at read
  · exact absurd read nofun
  · have bound := length_decodeLoop_le (s.take (wrapInt s.length).toNat) [] 0
    rw [← Option.some.inj read, Codec.base64Decode]
    rw [List.length_take, List.length_nil] at bound
    omega

end Buffer

end GPush.Codec
