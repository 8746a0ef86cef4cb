import GPush.Crypt.Layers

/-!
# The key schedules

The key schedule of decryption has the round keys of encryption from the last to the first, with
the inverse `MixColumn` of those in the middle.
-/

namespace GPush.Crypt

open GPush.Codec

/-! ## Words of a schedule -/

theorem wordAt_set {rk : List UInt32} {i : Nat} (inside : i < rk.length) (w : UInt32) (p : Nat) :
    wordAt (rk.set i w) p = if p = i then w else wordAt rk p := by
  rw [wordAt, wordAt, List.getD_eq_getElem?_getD, List.getD_eq_getElem?_getD, List.getElem?_set]
  by_cases same : p = i
  · subst same
    simp [inside]
  · rw [if_neg (Ne.symm same), if_neg same]

/-- Two words change places. -/
theorem wordAt_swapWords {rk : List UInt32} {i j : Nat} (iInside : i < rk.length)
    (jInside : j < rk.length) (p : Nat) :
    wordAt (swapWords rk i j) p =
      if p = j then wordAt rk i else if p = i then wordAt rk j else wordAt rk p := by
  rw [swapWords, wordAt_set (by rwa [List.length_set]), wordAt_set iInside]

theorem length_swapWords (rk : List UInt32) (i j : Nat) :
    (swapWords rk i j).length = rk.length := by
  rw [swapWords, List.length_set, List.length_set]

/-- The first `m` words of two round keys change places. -/
def swapFirst (rk : List UInt32) (i j : Nat) : Nat → List UInt32
  | 0 => rk
  | m + 1 => swapWords (swapFirst rk i j m) (i + m) (j + m)

theorem swapKeys_eq (rk : List UInt32) (i j : Nat) : swapKeys rk i j = swapFirst rk i j 4 := rfl

theorem length_swapFirst (rk : List UInt32) (i j m : Nat) :
    (swapFirst rk i j m).length = rk.length := by
  induction m with
  | zero => rfl
  | succ m ih => rw [swapFirst, length_swapWords, ih]

/-- The first words of two keys that do not overlap change places. -/
theorem wordAt_swapFirst {rk : List UInt32} {i j m : Nat} (apart : i + m ≤ j)
    (inside : j + m ≤ rk.length) (p : Nat) :
    wordAt (swapFirst rk i j m) p =
      if i ≤ p ∧ p < i + m then wordAt rk (p - i + j)
      else if j ≤ p ∧ p < j + m then wordAt rk (p - j + i)
      else wordAt rk p := by
  induction m generalizing p with
  | zero =>
      rw [if_neg (by omega), if_neg (by omega)]
      rfl
  | succ m ih =>
      have before := ih (by omega) (by omega)
      have first : wordAt (swapFirst rk i j m) (i + m) = wordAt rk (i + m) := by
        rw [before, if_neg (by omega), if_neg (by omega)]
      have second : wordAt (swapFirst rk i j m) (j + m) = wordAt rk (j + m) := by
        rw [before, if_neg (by omega), if_neg (by omega)]
      rw [swapFirst, wordAt_swapWords (by rw [length_swapFirst]; omega)
        (by rw [length_swapFirst]; omega), first, second, before]
      by_cases atSecond : p = j + m
      · rw [if_pos atSecond, if_neg (by omega), if_pos (by omega)]
        exact congrArg _ (by omega)
      · by_cases atFirst : p = i + m
        · rw [if_neg atSecond, if_pos atFirst, if_pos (by omega)]
          exact congrArg _ (by omega)
        · rw [if_neg atSecond, if_neg atFirst]
          congr 1
          · exact propext (by omega)
          · congr 1
            exact propext (by omega)

theorem length_swapKeys (rk : List UInt32) (i j : Nat) : (swapKeys rk i j).length = rk.length :=
  length_swapFirst rk i j 4

/-! ## Round keys -/

/-- Keys with the same four words are the same. -/
theorem roundKey_congr {rk rk' : List UInt32} {i j : Nat}
    (same : ∀ t < 4, wordAt rk (i + t) = wordAt rk' (j + t)) : roundKey rk i = roundKey rk' j :=
  Words.ext (same 0 (by decide)) (same 1 (by decide)) (same 2 (by decide)) (same 3 (by decide))

/-- Two round keys change places. -/
theorem roundKey_swapKeys {rk : List UInt32} {a b : Nat} (before : a < b)
    (inside : 4 * (b + 1) ≤ rk.length) (q : Nat) :
    roundKey (swapKeys rk (4 * a) (4 * b)) (4 * q) =
      if q = a then roundKey rk (4 * b) else if q = b then roundKey rk (4 * a)
      else roundKey rk (4 * q) := by
  have words := fun p => @wordAt_swapFirst rk (4 * a) (4 * b) 4 (by omega) (by omega) p
  rw [swapKeys_eq]
  by_cases atFirst : q = a
  · rw [if_pos atFirst]
    apply roundKey_congr
    intro t small
    rw [words, if_pos (by omega)]
    exact congrArg _ (by omega)
  · by_cases atSecond : q = b
    · rw [if_neg atFirst, if_pos atSecond]
      apply roundKey_congr
      intro t small
      rw [words, if_neg (by omega), if_pos (by omega)]
      exact congrArg _ (by omega)
    · rw [if_neg atFirst, if_neg atSecond]
      apply roundKey_congr
      intro t small
      rw [words, if_neg (by omega), if_neg (by omega)]

theorem length_invertOrder (rk : List UInt32) (i j : Nat) :
    (invertOrder rk i j).length = rk.length := by
  induction rk, i, j using invertOrder.induct with
  | case1 rk i j before ih => rw [invertOrder, if_pos before, ih, length_swapKeys]
  | case2 rk i j met => rw [invertOrder, if_neg met]

/-- The loop that swaps from both ends turns the order of the keys round. -/
theorem roundKey_invertOrder {rk : List UInt32} {a b : Nat} (inside : 4 * (b + 1) ≤ rk.length)
    (q : Nat) :
    roundKey (invertOrder rk (4 * a) (4 * b)) (4 * q) =
      if a ≤ q ∧ q ≤ b then roundKey rk (4 * (a + b - q)) else roundKey rk (4 * q) := by
  obtain ⟨n, size⟩ : ∃ n, b - a ≤ n := ⟨b - a, Nat.le_refl _⟩
  induction n generalizing rk a b with
  | zero =>
      rw [invertOrder, if_neg (by omega)]
      split
      · exact congrArg _ (by omega)
      · rfl
  | succ n ih =>
      rw [invertOrder]
      by_cases before : a < b
      · have later := @ih (swapKeys rk (4 * a) (4 * b)) (a + 1) (b - 1)
          (by rw [length_swapKeys]; omega) (by omega)
        have shorter : 4 * (b - 1) = 4 * b - 4 := by omega
        rw [if_pos (by omega), ← shorter]
        refine later.trans ?_
        rw [roundKey_swapKeys before inside, roundKey_swapKeys before inside]
        split_ifs <;> first | omega | rfl | exact congrArg _ (by omega)
      · rw [if_neg (by omega)]
        split
        · exact congrArg _ (by omega)
        · rfl

/-- The inverse `MixColumn` of a round key. -/
def Words.unmix (k : Words) : Words :=
  ⟨unmixWord k.s0, unmixWord k.s1, unmixWord k.s2, unmixWord k.s3⟩

/-- The look-ups behind the substitution unmix the columns. -/
theorem Words.square_unmix (k : Words) : k.unmix.square = k.square.unmixColumns := by
  funext c
  fin_cases c <;> exact column_unmixWord _

theorem wordAt_modify {rk : List UInt32} {i : Nat} (inside : i < rk.length) (f : UInt32 → UInt32)
    (p : Nat) : wordAt (rk.modify i f) p = if p = i then f (wordAt rk p) else wordAt rk p := by
  rw [wordAt, wordAt, List.getD_eq_getElem?_getD, List.getD_eq_getElem?_getD, List.getElem?_modify]
  by_cases same : p = i
  · subst same
    simp [inside]
  · simp [same, Ne.symm same]

theorem length_unmixKey (rk : List UInt32) (i : Nat) : (unmixKey rk i).length = rk.length := by
  simp only [unmixKey, List.length_modify]

/-- One key is unmixed, and the others stay. -/
theorem roundKey_unmixKey {rk : List UInt32} {i : Nat} (inside : 4 * (i + 1) ≤ rk.length)
    (q : Nat) :
    roundKey (unmixKey rk i) (4 * q) =
      if q = i then (roundKey rk (4 * q)).unmix else roundKey rk (4 * q) := by
  have words : ∀ p, wordAt (unmixKey rk i) p =
      if 4 * i ≤ p ∧ p < 4 * i + 4 then unmixWord (wordAt rk p) else wordAt rk p := by
    intro p
    rw [unmixKey, wordAt_modify (by simp only [List.length_modify]; omega),
      wordAt_modify (by simp only [List.length_modify]; omega),
      wordAt_modify (by rw [List.length_modify]; omega), wordAt_modify (by omega)]
    split_ifs <;> first | omega | rfl
  by_cases same : q = i
  · subst same
    rw [if_pos rfl]
    apply Words.ext <;> refine (words _).trans ?_ <;> rw [if_pos (by omega)] <;> rfl
  · rw [if_neg same]
    apply Words.ext <;> refine (words _).trans ?_ <;> rw [if_neg (by omega)] <;> rfl

theorem length_foldl_unmixKey (rk : List UInt32) (keys : List Nat) :
    (keys.foldl unmixKey rk).length = rk.length := by
  induction keys generalizing rk with
  | nil => rfl
  | cons i keys ih => rw [List.foldl_cons, ih, length_unmixKey]

/-- All keys but the first and the last one are unmixed. -/
theorem roundKey_foldl_unmixKey {rk : List UInt32} {n : Nat} (inside : 4 * (n + 1) ≤ rk.length)
    (q : Nat) :
    roundKey ((List.range' 1 n).foldl unmixKey rk) (4 * q) =
      if 1 ≤ q ∧ q ≤ n then (roundKey rk (4 * q)).unmix else roundKey rk (4 * q) := by
  induction n with
  | zero => rw [if_neg (by omega)]; rfl
  | succ n ih =>
      rw [List.range'_1_concat, List.foldl_append, List.foldl_cons, List.foldl_nil,
        roundKey_unmixKey (by rw [length_foldl_unmixKey]; omega), ih (by omega)]
      split_ifs <;> first | omega | rfl

end GPush.Crypt
