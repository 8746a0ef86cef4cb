import GPush.Utility.Search
import Mathlib.Data.List.SplitBy

/-!
# Paths of nodes

`zkPath` joins two paths with a slash, and replaces the first pair of slashes by a single one
until there is no pair left.
-/

namespace GPush.Discovery

open GPush.LoopBuf GPush.Utility

/-- The character `'/'`. -/
def slash : UInt8 := 47

/-- The loop of `zkPath`. -/
def replaceSlashes (path : Bytes) : Bytes :=
  match _found : find path [slash, slash] 0 with
  | some pos => replaceSlashes (replace path pos [slash, slash].length [slash])
  | none => path
termination_by path.length
decreasing_by
  have bound := find_length _found (by simp)
  simp only [replace, List.length_append, List.length_take, List.length_drop, List.length_cons,
    List.length_nil] at bound ⊢
  omega

/-- `zkPath`. -/
def zkPath (parent child : Bytes) : Bytes := replaceSlashes (parent ++ [slash] ++ child)

/-- Both characters are slashes. -/
def slashes (a b : UInt8) : Bool := a == slash && b == slash

/-- The string with every run of slashes replaced by one slash.  A run that is as long as it
can be, or another character, is a group. -/
def collapse (s : Bytes) : Bytes := (s.splitBy slashes).filterMap List.head?

theorem slashes_iff {a b : UInt8} : slashes a b = true ↔ a = slash ∧ b = slash := by
  rw [slashes, Bool.and_eq_true, beq_iff_eq, beq_iff_eq]

/-! ## Runs of slashes -/

/-- The string without the slashes that another slash follows. -/
def dropPaired : Bytes → Bytes
  | [] => []
  | [a] => [a]
  | a :: b :: rest => if slashes a b then dropPaired (b :: rest) else a :: dropPaired (b :: rest)

theorem dropPaired_cons (a b : UInt8) (rest : Bytes) :
    dropPaired (a :: b :: rest) =
      if slashes a b then dropPaired (b :: rest) else a :: dropPaired (b :: rest) :=
  rfl

/-- Of a pair of slashes the first one is left out, wherever the pair stands. -/
theorem dropPaired_pair (front back : Bytes) :
    dropPaired (front ++ slash :: slash :: back) = dropPaired (front ++ slash :: back) := by
  induction front with
  | nil => exact if_pos rfl
  | cons a front ih =>
      cases front with
      | nil =>
          simp only [List.nil_append] at ih
          simp only [List.cons_append, List.nil_append]
          rw [dropPaired_cons a, dropPaired_cons a, ih]
      | cons b front =>
          simp only [List.cons_append] at ih ⊢
          rw [dropPaired_cons a, dropPaired_cons a, ih]

/-- A run of slashes becomes one slash, wherever it stands. -/
theorem dropPaired_run (front back : Bytes) (n : Nat) :
    dropPaired (front ++ List.replicate (n + 1) slash ++ back) =
      dropPaired (front ++ [slash] ++ back) := by
  induction n with
  | zero => rfl
  | succ n ih =>
      rw [← ih, List.append_assoc, List.append_assoc, List.replicate_succ, List.replicate_succ]
      exact dropPaired_pair _ _

/-- A string without a pair of slashes stays as it is. -/
theorem dropPaired_eq_self {s : Bytes} (single : ¬ [slash, slash] <:+: s) :
    dropPaired s = s := by
  induction s with
  | nil => rfl
  | cons a s ih =>
      have rest := ih fun inside => single (inside.trans (List.suffix_cons a s).isInfix)
      cases s with
      | nil => rfl
      | cons b s =>
          rw [dropPaired, if_neg, rest]
          intro both
          obtain ⟨rfl, rfl⟩ := slashes_iff.mp both
          exact single ⟨[], s, rfl⟩

/-- The first character stays. -/
theorem head?_dropPaired (s : Bytes) : (dropPaired s).head? = s.head? := by
  induction s with
  | nil => rfl
  | cons a s ih =>
      cases s with
      | nil => rfl
      | cons b s =>
          rw [dropPaired]
          split_ifs with both
          · obtain ⟨rfl, rfl⟩ := slashes_iff.mp both
            exact ih
          · rfl

/-- No pair of slashes is left. -/
theorem not_pair_dropPaired (s : Bytes) : ¬ [slash, slash] <:+: dropPaired s := by
  induction s with
  | nil => simp [dropPaired]
  | cons a s ih =>
      cases s with
      | nil => simp [dropPaired, List.infix_cons_iff]
      | cons b s =>
          rw [dropPaired]
          split_ifs with both
          · exact ih
          · intro pair
            rcases List.infix_cons_iff.mp pair with first | later
            · rw [List.cons_prefix_cons] at first
              obtain ⟨isSlash, rest, whole⟩ := first
              have next := head?_dropPaired (b :: s)
              rw [← whole, List.head?_cons, List.singleton_append, List.head?_cons,
                Option.some.injEq] at next
              exact both (slashes_iff.mpr ⟨isSlash.symm, next.symm⟩)
            · exact ih later

/-! ## Groups -/

/-- Of a group the first character is left. -/
theorem dropPaired_group {g : Bytes} (nonempty : g ≠ []) (chain : g.IsChain (slashes · ·))
    (back : Bytes) (ends : ∀ b ∈ back.head?, slashes (g.getLast nonempty) b = false) :
    dropPaired (g ++ back) = g.head nonempty :: dropPaired back := by
  induction g with
  | nil => exact absurd rfl nonempty
  | cons a g ih =>
      cases g with
      | nil =>
          cases back with
          | nil => rfl
          | cons b back =>
              have apart := ends b rfl
              rw [List.getLast_singleton] at apart
              rw [List.singleton_append, dropPaired, apart]
              rfl
      | cons b g =>
          rw [List.isChain_cons_cons] at chain
          rw [List.getLast_cons (List.cons_ne_nil b g)] at ends
          have rest := ih (List.cons_ne_nil b g) chain.2 ends
          obtain ⟨rfl, rfl⟩ := slashes_iff.mp chain.1
          rw [List.cons_append, List.cons_append, dropPaired, if_pos chain.1, ← List.cons_append,
            rest]
          rfl

/-- Of groups that could not be longer the first characters are left. -/
theorem dropPaired_flatten {groups : List Bytes} (nonempty : [] ∉ groups)
    (chains : ∀ g ∈ groups, g.IsChain (slashes · ·))
    (ends : groups.IsChain fun g h => ∃ hg hh, slashes (g.getLast hg) (h.head hh) = false) :
    dropPaired groups.flatten = groups.filterMap List.head? := by
  induction groups with
  | nil => rfl
  | cons g groups ih =>
      rw [List.mem_cons, not_or] at nonempty
      rw [List.forall_mem_cons] at chains
      have rest := ih nonempty.2 chains.2 ends.tail
      have first : g ≠ [] := Ne.symm nonempty.1
      have apart : ∀ b ∈ groups.flatten.head?, slashes (g.getLast first) b = false := by
        intro b isHead
        cases groups with
        | nil => cases isHead
        | cons h groups =>
            obtain ⟨_, notNil, apart⟩ := (List.isChain_cons_cons.mp ends).1
            rw [List.flatten_cons, List.head?_append_of_ne_nil _ notNil,
              List.head?_eq_some_head notNil, Option.mem_some_iff] at isHead
            rw [← isHead]
            exact apart
      rw [List.flatten_cons, dropPaired_group first chains.1 _ apart, rest, List.filterMap_cons,
        List.head?_eq_some_head first]

theorem dropPaired_eq_collapse (s : Bytes) : dropPaired s = collapse s := by
  have whole := dropPaired_flatten (List.nil_notMem_splitBy slashes s)
    (fun g member => List.isChain_of_mem_splitBy member)
    (List.isChain_getLast_head_splitBy slashes s)
  rw [List.flatten_splitBy] at whole
  exact whole

/-! ## The loop -/

/-- What a round takes away is the first slash of a pair. -/
theorem dropPaired_replace {path : Bytes} {pos : Nat}
    (found : find path [slash, slash] 0 = some pos) :
    dropPaired (replace path pos [slash, slash].length [slash]) = dropPaired path := by
  have parts := find_split found
  rw [replace, List.append_assoc]
  conv_rhs => rw [parts, List.append_assoc]
  exact (dropPaired_pair _ _).symm

theorem replaceSlashes_eq_dropPaired (path : Bytes) : replaceSlashes path = dropPaired path := by
  induction path using replaceSlashes.induct with
  | case1 path pos found ih =>
      rw [replaceSlashes]
      split
      · rename_i other
        rw [found, Option.some.injEq] at other
        rw [← other, ih, dropPaired_replace found]
      · rename_i other
        rw [found] at other
        cases other
  | case2 path missed =>
      rw [replaceSlashes]
      split
      · rename_i other
        rw [missed] at other
        cases other
      · symm
        apply dropPaired_eq_self
        rintro ⟨front, back, rfl⟩
        apply find_eq_none missed (Nat.zero_le front.length)
        · simp
        · rw [List.append_assoc, List.drop_left]
          exact List.prefix_append _ _

/-- The loop ends, with the runs of slashes in the joined path replaced by single ones.  So no
two slashes stand side by side, and more slashes between the two paths change nothing. -/
theorem zkPath_collapses (parent child : Bytes) :
    zkPath parent child = collapse (parent ++ [slash] ++ child) ∧
      ¬ [slash, slash] <:+: zkPath parent child ∧
      ∀ n m, zkPath (parent ++ List.replicate n slash) (List.replicate m slash ++ child) =
        zkPath parent child := by
  have result : ∀ parent child, zkPath parent child = dropPaired (parent ++ [slash] ++ child) :=
    fun parent child => replaceSlashes_eq_dropPaired _
  refine ⟨?_, ?_, fun n m => ?_⟩
  · rw [result, dropPaired_eq_collapse]
  · rw [result]
    exact not_pair_dropPaired _
  · have run : List.replicate n slash ++ [slash] ++ List.replicate m slash =
        List.replicate (n + m + 1) slash := by
      rw [← List.replicate_one, ← List.replicate_add, ← List.replicate_add]
      congr 1
      omega
    rw [result, result, ← dropPaired_run parent child (n + m), ← run]
    simp only [List.append_assoc]

end GPush.Discovery
