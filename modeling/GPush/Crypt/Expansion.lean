import GPush.Crypt.Schedule

/-!
# The expansion of a key

Each of the three loops of `rijndaelKeySetupEnc` makes the words that the standard makes one by one.
-/

namespace GPush.Crypt

open GPush.Codec Square

/-- The words of a schedule as columns. -/
def columns (rk : List UInt32) : List (Fin 4 → Gf256) := rk.map column

/-- The columns of a key schedule are those of its words. -/
theorem getD_columns (rk : List UInt32) (p : Nat) : (columns rk).getD p 0 = column (wordAt rk p) := by
  have zero : column 0 = 0 := by decide
  rw [columns, wordAt, List.getD_eq_getElem?_getD, List.getD_eq_getElem?_getD, List.getElem?_map]
  cases rk[p]? with
  | none => exact zero.symm
  | some w => rfl

theorem length_columns (rk : List UInt32) : (columns rk).length = rk.length := List.length_map _

theorem columns_append (rk : List UInt32) (w : UInt32) :
    columns (rk ++ [w]) = columns rk ++ [column w] := List.map_append

theorem wordAt_append {rk : List UInt32} {p : Nat} (inside : p < rk.length) (rest : List UInt32) :
    wordAt (rk ++ rest) p = wordAt rk p := by
  rw [wordAt, wordAt, List.getD_eq_getElem?_getD, List.getD_eq_getElem?_getD,
    List.getElem?_append_left inside]

/-- The word that was added last. -/
theorem wordAt_last (rk : List UInt32) (w : UInt32) : wordAt (rk ++ [w]) rk.length = w := by
  rw [wordAt, List.getD_eq_getElem?_getD, List.getElem?_concat_length]
  rfl

/-- A look-up in the masked table substitutes the bytes of a word. -/
theorem column_substituted (w : UInt32) :
    column (substituted te4 w w w w) = fun r => subByte (column w r) := by
  refine (column_maskedBytes te4_same _ _ _ _).trans ?_
  funext r
  fin_cases r <;> exact substitution_eq _

/-- The first word of a round has its bytes turned, too. -/
theorem column_turnedSubstituted (w : UInt32) :
    column (turnedSubstituted w) = fun r => subByte (column w (r + 1)) := by
  refine (column_maskedBytes te4_same _ _ _ _).trans ?_
  funext r
  fin_cases r <;> exact substitution_eq _

theorem column_rcon {i : Nat} (few : i < 10) : column (wordAt rcon i) = roundConstant (i + 1) := by
  revert i
  decide +kernel

/-! ## Words -/

/-- The word at the end of a key's length. -/
theorem expand_turned {rk : List UInt32} {nk i : Nat} (some : 0 < nk)
    (length : rk.length = nk * (i + 1)) (few : i < 10) :
    expand nk (columns rk) = columns (rk ++ [wordAt rk (nk * i) ^^^
      turnedSubstituted (wordAt rk (nk * i + nk - 1)) ^^^ wordAt rcon i]) := by
  have whole : rk.length % nk = 0 := by rw [length, Nat.mul_mod_right]
  have count : rk.length / nk = i + 1 := by rw [length, Nat.mul_div_cancel_left _ some]
  have first : rk.length - nk = nk * i := by rw [length, Nat.mul_succ, Nat.add_sub_cancel]
  have before : rk.length - 1 = nk * i + nk - 1 := by rw [length, Nat.mul_succ]
  rw [columns_append, expand, entering, length_columns, if_pos whole, count, first, before,
    getD_columns, getD_columns, column_xor, column_xor, column_turnedSubstituted, column_rcon few,
    add_assoc]

/-- The word in the middle of a key's length, for long keys. -/
theorem expand_substituted {rk ws : List UInt32} {w : UInt32} {i : Nat}
    (length : rk.length = 8 * (i + 1)) (middle : ws.length = 3) :
    expand 8 (columns (rk ++ (ws ++ [w]))) =
      columns (rk ++ (ws ++ [w] ++ [wordAt rk (8 * i + 4) ^^^ substituted te4 w w w w])) := by
  have size : (rk ++ ws).length = rk.length + 3 := by rw [List.length_append, middle]
  have last := wordAt_last (rk ++ ws) w
  rw [size, List.append_assoc] at last
  have first : rk.length + 4 - 8 = 8 * i + 4 := by omega
  have inside : 8 * i + 4 < rk.length := by omega
  have count : (rk ++ (ws ++ [w])).length = rk.length + 4 := by
    rw [← List.append_assoc, List.length_append, size]
    rfl
  rw [← List.append_assoc rk (ws ++ [w]), columns_append (rk ++ (ws ++ [w])), expand, entering,
    length_columns, count, if_neg (by omega), if_pos ⟨by decide, by omega⟩, first, getD_columns, getD_columns,
    wordAt_append inside, Nat.add_sub_assoc (by decide), last, column_xor, column_substituted]

/-- Any other word. -/
theorem expand_plain {rk ws : List UInt32} {w : UInt32} {nk i : Nat}
    (length : rk.length = nk * (i + 1)) (inner : ws.length + 1 < nk)
    (same : ¬(6 < nk ∧ ws.length + 1 = 4)) :
    expand nk (columns (rk ++ (ws ++ [w]))) =
      columns (rk ++ (ws ++ [w]) ++ [wordAt rk (nk * i + ws.length + 1) ^^^ w]) := by
  have size : (rk ++ ws).length = rk.length + ws.length := List.length_append
  have last := wordAt_last (rk ++ ws) w
  rw [size, List.append_assoc] at last
  have whole : nk * (i + 1) = nk * i + nk := Nat.mul_succ nk i
  have first : rk.length + ws.length + 1 - nk = nk * i + ws.length + 1 := by omega
  have inside : nk * i + ws.length + 1 < rk.length := by omega
  have count : (rk ++ (ws ++ [w])).length = rk.length + ws.length + 1 := by
    rw [← List.append_assoc, List.length_append, size]
    rfl
  have rest : (rk.length + ws.length + 1) % nk = ws.length + 1 := by
    rw [length, Nat.add_assoc, Nat.mul_add_mod, Nat.mod_eq_of_lt inner]
  rw [columns_append (rk ++ (ws ++ [w])), expand, entering, length_columns, count, rest,
    if_neg (Nat.succ_ne_zero _), if_neg same, first, getD_columns, getD_columns,
    wordAt_append inside, Nat.add_sub_cancel, last, column_xor]

/-! ## Rounds of the loops -/

/-- Words of which each is added to the one before. -/
def chained (rk : List UInt32) : Nat → Nat → UInt32 → List UInt32
  | 0, _, w => [w]
  | m + 1, p, w => w :: chained rk m (p + 1) (wordAt rk p ^^^ w)

/-- The words of a round after the first one, each from the one before. -/
theorem iterate_expand_chained {rk ws : List UInt32} {w : UInt32} {nk i m : Nat}
    (length : rk.length = nk * (i + 1)) (inner : ws.length + m < nk)
    (same : nk ≤ 6 ∨ ws.length + m < 4 ∨ 4 ≤ ws.length) :
    (expand nk)^[m] (columns (rk ++ (ws ++ [w]))) =
      columns (rk ++ (ws ++ chained rk m (nk * i + ws.length + 1) w)) := by
  induction m generalizing ws w with
  | zero => rfl
  | succ m ih =>
      have size : (ws ++ [w]).length = ws.length + 1 := List.length_append
      rw [Function.iterate_succ_apply, expand_plain length (by omega) (by omega),
        List.append_assoc, ih (by omega) (by omega), size, chained, List.append_assoc]
      rfl

/-- The words of a round, the first one with its bytes turned and the constant added. -/
theorem iterate_expand_turned {rk : List UInt32} {nk i m : Nat} (length : rk.length = nk * (i + 1))
    (few : i < 10) (inner : m < nk) (same : nk ≤ 6 ∨ m < 4) :
    (expand nk)^[m + 1] (columns rk) = columns (rk ++ chained rk m (nk * i + 1)
      (wordAt rk (nk * i) ^^^ turnedSubstituted (wordAt rk (nk * i + nk - 1)) ^^^
        wordAt rcon i)) := by
  have later := fun w => @iterate_expand_chained rk [] w nk i m length (by simpa using inner)
    (same.imp_right fun short => Or.inl (by simpa using short))
  rw [Function.iterate_succ_apply, expand_turned (by omega) length few]
  exact later _

/-- A round of the loop for 128 bits makes four columns of the standard. -/
theorem columns_expand128 {rk : List UInt32} {i : Nat} (length : rk.length = 4 * (i + 1))
    (few : i < 10) : columns (expand128 rk i) = (expand 4)^[4] (columns rk) :=
  (@iterate_expand_turned rk 4 i 3 length few (by decide) (by decide)).symm

/-- A round for 192 bits makes six, and the last one four. -/
theorem columns_expand192 {rk : List UInt32} {i : Nat} (length : rk.length = 6 * (i + 1))
    (few : i < 8) :
    columns (expand192 rk i) = (expand 6)^[if i + 1 = 8 then 4 else 6] (columns rk) := by
  rw [expand192]
  split
  · exact (@iterate_expand_turned rk 6 i 3 length (by omega) (by decide) (by decide)).symm
  · exact (@iterate_expand_turned rk 6 i 5 length (by omega) (by decide) (by decide)).symm

/-- A round for 256 bits makes eight, and the last one four. -/
theorem columns_expand256 {rk : List UInt32} {i : Nat} (length : rk.length = 8 * (i + 1))
    (few : i < 7) :
    columns (expand256 rk i) = (expand 8)^[if i + 1 = 7 then 4 else 8] (columns rk) := by
  have front := @iterate_expand_turned rk 8 i 3 length (by omega) (by decide) (by decide)
  rw [expand256]
  split
  · exact front.symm
  · have eight : (expand 8)^[8] (columns rk) = (expand 8)^[3 + 1] ((expand 8)^[3 + 1] (columns rk)) :=
      rfl
    rw [eight, front, Function.iterate_succ_apply]
    have middle := fun w8 w9 w10 w11 => @expand_substituted rk [w8, w9, w10] w11 i length rfl
    have back := fun w8 w9 w10 w11 w12 =>
      @iterate_expand_chained rk [w8, w9, w10, w11] w12 8 i 3 length (by simp) (by simp)
    exact ((congrArg _ (middle _ _ _ _)).trans (back _ _ _ _ _)).symm

/-! ## The loops -/

theorem length_of_columns {rk rk' : List UInt32} {nk m : Nat}
    (same : columns rk' = (expand nk)^[m] (columns rk)) : rk'.length = rk.length + m := by
  rw [← length_columns, same]
  clear same
  induction m with
  | zero => exact length_columns rk
  | succ m ih =>
      rw [Function.iterate_succ_apply', expand, List.length_append, ih]
      rfl

/-- A loop whose rounds make `nk` words each, but the last one four words. -/
theorem columns_foldl {f : List UInt32 → Nat → List UInt32} {nk n : Nat} {key : List UInt32}
    (step : ∀ rk i, rk.length = nk * (i + 1) → i < n + 1 →
      columns (f rk i) = (expand nk)^[if i + 1 = n + 1 then 4 else nk] (columns rk))
    (length : key.length = nk) :
    columns ((List.range (n + 1)).foldl f key) = (expand nk)^[nk * n + 4] (columns key) := by
  have before : ∀ m ≤ n, columns ((List.range m).foldl f key) =
      (expand nk)^[nk * m] (columns key) := by
    intro m
    induction m with
    | zero => exact fun _ => rfl
    | succ m ih =>
        intro below
        have front := ih (by omega)
        have size : ((List.range m).foldl f key).length = nk * (m + 1) := by
          rw [length_of_columns front, length, Nat.mul_succ, Nat.add_comm]
        rw [List.range_succ, List.foldl_append, List.foldl_cons, List.foldl_nil,
          step _ m size (by omega), if_neg (by omega), front, Nat.mul_succ, Nat.add_comm,
          Function.iterate_add_apply]
  have size : ((List.range n).foldl f key).length = nk * (n + 1) := by
    rw [length_of_columns (before n (Nat.le_refl n)), length, Nat.mul_succ, Nat.add_comm]
  rw [List.range_succ, List.foldl_append, List.foldl_cons, List.foldl_nil,
    step _ n size (Nat.lt_succ_self n), if_pos rfl, before n (Nat.le_refl n), Nat.add_comm,
    Function.iterate_add_apply]

theorem length_keyWords (cipherKey : Bytes) (n : Nat) : (keyWords cipherKey n).length = n := by
  rw [keyWords, List.length_map, List.length_range]

/-- The key schedule is the expansion of the standard. -/
theorem columns_rijndaelKeySetupEnc (cipherKey : Bytes) {nk : Nat}
    (valid : nk = 4 ∨ nk = 6 ∨ nk = 8) :
    columns (rijndaelKeySetupEnc cipherKey (32 * nk)).1 =
      (expand nk)^[3 * nk + 28] (columns (keyWords cipherKey nk)) ∧
        (rijndaelKeySetupEnc cipherKey (32 * nk)).2 = nk + 6 := by
  obtain rfl | rfl | rfl := valid
  · refine ⟨@columns_foldl expand128 4 9 _ ?_ (length_keyWords cipherKey 4), rfl⟩
    intro rk i length few
    rw [ite_self]
    exact columns_expand128 length few
  · exact ⟨@columns_foldl expand192 6 7 _ (fun _ _ => columns_expand192)
      (length_keyWords cipherKey 6), rfl⟩
  · exact ⟨@columns_foldl expand256 8 6 _ (fun _ _ => columns_expand256)
      (length_keyWords cipherKey 8), rfl⟩

end GPush.Crypt
