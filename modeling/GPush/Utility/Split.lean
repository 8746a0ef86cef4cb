import GPush.Containers.Runs
import GPush.Utility.Search

/-!
# Splitting

`split` of `ef_utility.cpp` and of `ef_crypt.cpp`, which leaves empty fields out.  The search for
the first field takes the separator as a set of characters.  With an empty separator the loop
would not end.
-/

namespace GPush.Utility

open GPush.Containers GPush.LoopBuf

/-- `ret_.push_back(tmp)`, for a field that is not empty. -/
def pushField (ret : List Bytes) (tmp : Bytes) : List Bytes :=
  if tmp = [] then ret else ret ++ [tmp]

/-- The loop of `split`, from the place `posBegin` on. -/
def splitFrom (str sep : Bytes) (nonempty : sep ≠ []) (ret : List Bytes) (posBegin : Nat) :
    List Bytes :=
  match _found : find str sep posBegin with
  | some commaPos =>
      splitFrom str sep nonempty
        (pushField ret ((str.drop posBegin).take (commaPos - posBegin))) (commaPos + sep.length)
  | none => pushField ret (str.drop posBegin)
termination_by str.length - posBegin
decreasing_by
  have bound := find_length _found nonempty
  have behind := (find_eq_some _found).1
  have long := List.length_pos_iff.mpr nonempty
  omega

/-- `split`, for what the vector holds before. -/
def split (str : Bytes) (ret : List Bytes) (sep : Bytes) (nonempty : sep ≠ []) : List Bytes :=
  if str = [] then
    ret
  else
    match findFirstNotOf str sep with
    | some posBegin => splitFrom str sep nonempty ret posBegin
    | none => ret

/-- `std::string::substr`, which throws when the place is behind the end. -/
def substr (str : Bytes) (pos len : Nat) : Option Bytes :=
  if pos ≤ str.length then some ((str.drop pos).take len) else none

/-- The loop in at most `n` rounds, with the exceptions of `substr`.  The place `npos` is
`none`. -/
def splitLoop (str sep : Bytes) : Nat → List Bytes → Option Nat → Option (List Bytes)
  | _, ret, none => some ret
  | 0, _, some _ => none
  | n + 1, ret, some posBegin =>
      match find str sep posBegin with
      | some commaPos => do
          let tmp ← substr str posBegin (commaPos - posBegin)
          splitLoop str sep n (pushField ret tmp) (some (commaPos + sep.length))
      | none => do
          let tmp ← substr str posBegin (str.length - posBegin)
          splitLoop str sep n (pushField ret tmp) none

/-- `split` in at most `n` rounds. -/
def splitIn (n : Nat) (str : Bytes) (ret : List Bytes) (sep : Bytes) : Option (List Bytes) :=
  if str = [] then some ret else splitLoop str sep n ret (findFirstNotOf str sep)

/-- The fields between the separators, without the empty ones. -/
def fields (str : Bytes) (c : UInt8) : List Bytes := (str.splitOn c).filter fun tmp => tmp ≠ []

variable {str : Bytes} {c : UInt8} {ret : List Bytes} {pos i : Nat}

/-! ## Fields -/

theorem fields_nil (c : UInt8) : fields [] c = [] := rfl

theorem fields_eq_pieces (str : Bytes) (c : UInt8) : fields str c = pieces c str := rfl

theorem pushField_eq (ret : List Bytes) (tmp : Bytes) :
    pushField ret tmp = ret ++ [tmp].filter fun tmp => tmp ≠ [] := by
  rw [pushField]
  split_ifs with empty
  · simp [empty]
  · simp [empty]

theorem fields_separator_cons (c : UInt8) (back : Bytes) : fields (c :: back) c = fields back c :=
  pieces_append_cons List.not_mem_nil back

/-- Separators at the beginning are passed over. -/
theorem fields_drop_of_separators {n : Nat} (before : ∀ a ∈ str.take n, a = c) :
    fields str c = fields (str.drop n) c := by
  induction n generalizing str with
  | zero => rfl
  | succ n ih =>
      cases str with
      | nil => rfl
      | cons a str =>
          rw [List.take_succ_cons, List.forall_mem_cons] at before
          obtain ⟨rfl, before⟩ := before
          rw [fields_separator_cons, ih before, List.drop_succ_cons]

/-- There is a field when there is another character than the separator. -/
theorem fields_ne_nil_iff : fields str c ≠ [] ↔ ∃ a ∈ str, a ≠ c := by
  induction str with
  | nil => simp [fields_nil]
  | cons a str ih =>
      by_cases isSeparator : a = c
      · subst isSeparator
        rw [fields_separator_cons, ih]
        simp
      · have first : ∃ tmp ∈ fields (a :: str) c, tmp ≠ [] := by
          obtain ⟨head, rest, split⟩ := List.exists_cons_of_ne_nil (List.splitOn_ne_nil c str)
          refine ⟨a :: head, ?_, List.cons_ne_nil a head⟩
          rw [fields, List.mem_filter, List.splitOn_cons_eq_if_modifyHead,
            if_neg (by simpa using isSeparator), split]
          simp
        obtain ⟨tmp, member, -⟩ := first
        exact iff_of_true (List.ne_nil_of_mem member) ⟨a, List.mem_cons_self, isSeparator⟩

/-! ## The loop -/

theorem singleton_prefix_drop_iff {j : Nat} : [c] <+: str.drop j ↔ str[j]? = some c := by
  rw [← List.head?_drop]
  cases str.drop j with
  | nil => simp
  | cons a rest => simp [List.cons_prefix_cons, eq_comm]

/-- No separator stands before the one that is found. -/
theorem notMem_of_find (found : find str [c] pos = some i) :
    c ∉ (str.drop pos).take (i - pos) := by
  intro member
  obtain ⟨-, -, before⟩ := find_eq_some found
  obtain ⟨j, isHere⟩ := List.mem_iff_getElem?.mp member
  have short : j < i - pos := by
    have inside := (List.getElem?_eq_some_iff.mp isHere).1
    rw [List.length_take] at inside
    omega
  rw [List.getElem?_take_of_lt short, List.getElem?_drop] at isHere
  exact before (pos + j) (by omega) (by omega) (singleton_prefix_drop_iff.mpr isHere)

theorem notMem_of_find_eq_none (missed : find str [c] pos = none) : c ∉ str.drop pos := by
  intro member
  obtain ⟨j, isHere⟩ := List.mem_iff_getElem?.mp member
  rw [List.getElem?_drop] at isHere
  have short := (List.getElem?_eq_some_iff.mp isHere).1
  exact find_eq_none missed (by omega) short.le (singleton_prefix_drop_iff.mpr isHere)

theorem drop_of_find (found : find str [c] pos = some i) :
    str.drop pos = (str.drop pos).take (i - pos) ++ c :: str.drop (i + 1) := by
  obtain ⟨behind, ⟨rest, stands⟩, -⟩ := find_eq_some found
  have after : str.drop (i + 1) = rest := by
    rw [← List.drop_drop, ← stands]
    rfl
  have whole := List.take_append_drop (i - pos) (str.drop pos)
  rw [List.drop_drop, Nat.add_sub_cancel' behind, ← stands] at whole
  rw [after]
  exact whole.symm

theorem splitFrom_of_find {sep : Bytes} (nonempty : sep ≠ []) (ret : List Bytes)
    (found : find str sep pos = some i) :
    splitFrom str sep nonempty ret pos =
      splitFrom str sep nonempty (pushField ret ((str.drop pos).take (i - pos)))
        (i + sep.length) := by
  rw [splitFrom]
  split
  · next other same =>
      rw [found, Option.some.injEq] at same
      rw [same]
  · next other =>
      rw [found] at other
      cases other

theorem splitFrom_of_find_eq_none {sep : Bytes} (nonempty : sep ≠ []) (ret : List Bytes)
    (missed : find str sep pos = none) :
    splitFrom str sep nonempty ret pos = pushField ret (str.drop pos) := by
  rw [splitFrom]
  split
  · next other same =>
      rw [missed] at same
      cases same
  · rfl

theorem splitFrom_singleton (nonempty : [c] ≠ []) (ret : List Bytes) (pos : Nat) :
    splitFrom str [c] nonempty ret pos = ret ++ fields (str.drop pos) c := by
  induction ret, pos using splitFrom.induct str [c] nonempty with
  | case1 ret pos i found ih =>
      have behind := pieces_append_cons (notMem_of_find found) (str.drop (i + 1))
      rw [← drop_of_find found] at behind
      rw [splitFrom_of_find nonempty ret found, ih, pushField_eq, fields_eq_pieces (str.drop pos),
        behind, List.append_assoc]
      rfl
  | case2 ret pos missed =>
      rw [splitFrom_of_find_eq_none nonempty ret missed, pushField_eq, fields_eq_pieces,
        pieces_of_notMem (notMem_of_find_eq_none missed)]

/-- Splitting at a character appends the fields that are not empty, in order. -/
theorem split_singleton (str : Bytes) (ret : List Bytes) (c : UInt8) (nonempty : [c] ≠ []) :
    split str ret [c] nonempty = ret ++ fields str c := by
  rw [split]
  split_ifs with empty
  · rw [empty, fields_nil, List.append_nil]
  · cases firstEq : findFirstNotOf str [c] with
    | some pos =>
        dsimp only
        rw [findFirstNotOf, List.findIdx?_eq_some_iff_getElem] at firstEq
        obtain ⟨short, -, before⟩ := firstEq
        have separators : ∀ a ∈ str.take pos, a = c := by
          intro a member
          obtain ⟨j, inside, rfl⟩ := List.getElem_of_mem member
          rw [List.length_take] at inside
          have isSeparator := before j (by omega)
          rw [List.getElem_take]
          simpa using isSeparator
        rw [splitFrom_singleton, fields_drop_of_separators separators]
    | none =>
        dsimp only
        rw [findFirstNotOf, List.findIdx?_eq_none_iff] at firstEq
        have noFields : fields str c = [] := by
          by_contra someField
          obtain ⟨a, member, other⟩ := fields_ne_nil_iff.mp someField
          have isSeparator := firstEq a member
          exact other (by simpa using isSeparator)
        rw [noFields, List.append_nil]

/-! ## The rounds of the loop -/

theorem splitLoop_npos (str sep : Bytes) (n : Nat) (ret : List Bytes) :
    splitLoop str sep n ret none = some ret := by
  cases n <;> rfl

/-- Every round begins in the string, and leaves fewer rounds than there are characters. -/
theorem splitLoop_eq (sep : Bytes) (nonempty : sep ≠ []) {n : Nat} (ret : List Bytes)
    (inside : pos ≤ str.length) (rounds : str.length - pos < n) :
    splitLoop str sep n ret (some pos) = some (splitFrom str sep nonempty ret pos) := by
  induction ret, pos using splitFrom.induct str sep nonempty generalizing n with
  | case1 ret pos i found ih =>
      have bound := find_length found nonempty
      have behind := (find_eq_some found).1
      have long := List.length_pos_iff.mpr nonempty
      obtain ⟨n, rfl⟩ := Nat.exists_eq_add_one_of_ne_zero (Nat.ne_zero_of_lt rounds)
      have fewer : str.length - (i + sep.length) < n := by omega
      rw [splitLoop, found, splitFrom_of_find nonempty ret found, ← ih bound fewer]
      simp [substr, inside]
  | case2 ret pos missed =>
      obtain ⟨n, rfl⟩ := Nat.exists_eq_add_one_of_ne_zero (Nat.ne_zero_of_lt rounds)
      rw [splitLoop, missed, splitFrom_of_find_eq_none nonempty ret missed]
      have rest : (str.drop pos).take (str.length - pos) = str.drop pos :=
        List.take_of_length_le (List.length_drop ..).le
      simp [substr, inside, splitLoop_npos, rest]

theorem splitIn_eq (str : Bytes) (ret : List Bytes) {sep : Bytes} (nonempty : sep ≠ []) :
    splitIn (str.length + 1) str ret sep = some (split str ret sep nonempty) := by
  rw [splitIn, split]
  split_ifs
  · rfl
  · cases first : findFirstNotOf str sep with
    | none => rfl
    | some pos =>
        have inside := (List.findIdx?_eq_some_iff_getElem.mp first).1
        exact splitLoop_eq sep nonempty ret inside.le (by omega)

/-- Within as many rounds as there are characters, and one, `split` appends the longest
substrings without the separator, in order.  Joined they are the string without the
separators outside, and with one for each run of them inside. -/
theorem split_appends_longestRuns (str : Bytes) (ret : List Bytes) (c : UInt8) :
    ∃ runs, LongestRuns c str runs ∧
      splitIn (str.length + 1) str ret [c] = some (ret ++ runs.map (stretch str)) ∧
      [c].intercalate (runs.map (stretch str)) = collapsed c (trimmed c str) := by
  obtain ⟨runs, longest, elements⟩ := exists_longestRuns c str
  refine ⟨runs, longest, ?_, ?_⟩
  · rw [splitIn_eq str ret (List.cons_ne_nil c []), split_singleton, elements]
    rfl
  · rw [elements]
    exact intercalate_pieces c str

end GPush.Utility
