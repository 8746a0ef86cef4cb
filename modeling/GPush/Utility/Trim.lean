import GPush.LoopBuf.Frame
import Mathlib.Data.List.DropRight

/-!
# Trimming

`trim` of `ef_utility.cpp`.  Each of its loops has moved past the character that ends it, and
the step back behind the loop is made as well when it ended at the other end of the string.
-/

namespace GPush.Utility

variable (iswspace : UInt8 → Bool)

/-- The first loop of `trim`, from the place `c` on, with the characters that are left. -/
def scanFront (c : Nat) : Bytes → Nat
  | [] => c
  | a :: rest => if iswspace a then scanFront (c + 1) rest else c + 1

/-- The second loop, with the characters before the place `c`, the last one first. -/
def scanBack (c : Nat) : Bytes → Nat
  | [] => c
  | a :: rest => if iswspace a then scanBack (c - 1) rest else c - 1

/-- `trim`. -/
def trim (s : Bytes) : Bytes :=
  if s = [] then
    s
  else
    let s := s.drop (scanFront iswspace 0 s - 1)
    s.take (scanBack iswspace s.length s.reverse + 1)

/-- What is left without the whitespace at the two ends. -/
def strip (s : Bytes) : Bytes := (s.dropWhile iswspace).rdropWhile iswspace

/-- The string has a character that is no whitespace. -/
def HasText (s : Bytes) : Prop := ∃ a ∈ s, iswspace a = false

variable {iswspace} {s : Bytes}

/-! ## The two loops -/

theorem scanFront_spaces {spaces : Bytes} (all : ∀ a ∈ spaces, iswspace a = true) (c : Nat)
    (rest : Bytes) :
    scanFront iswspace c (spaces ++ rest) = scanFront iswspace (c + spaces.length) rest := by
  induction spaces generalizing c with
  | nil => rfl
  | cons a spaces ih =>
      rw [List.forall_mem_cons] at all
      rw [List.cons_append, scanFront, if_pos all.1, ih all.2, List.length_cons]
      congr 1
      omega

theorem scanBack_spaces {spaces : Bytes} (all : ∀ a ∈ spaces, iswspace a = true) (c : Nat)
    (rest : Bytes) :
    scanBack iswspace c (spaces ++ rest) = scanBack iswspace (c - spaces.length) rest := by
  induction spaces generalizing c with
  | nil => rfl
  | cons a spaces ih =>
      rw [List.forall_mem_cons] at all
      rw [List.cons_append, scanBack, if_pos all.1, ih all.2, List.length_cons]
      congr 1
      omega

/-! ## Strings with text -/

/-- The text stands between whitespace, and begins and ends with characters that are none. -/
theorem exists_core (text : HasText iswspace s) :
    ∃ front back, s = front ++ strip iswspace s ++ back ∧ (∀ a ∈ front, iswspace a = true) ∧
      (∀ a ∈ back, iswspace a = true) ∧
      (∃ a rest, strip iswspace s = a :: rest ∧ iswspace a = false) ∧
      ∃ rest a, strip iswspace s = rest ++ [a] ∧ iswspace a = false := by
  have nonempty : strip iswspace s ≠ [] := by
    intro nothing
    obtain ⟨a, member, noSpace⟩ := text
    rw [← List.takeWhile_append_dropWhile (p := iswspace) (l := s), List.mem_append] at member
    rcases member with before | behind
    · rw [List.mem_takeWhile_imp before] at noSpace
      cases noSpace
    · rw [List.rdropWhile_eq_nil_iff.mp nothing a behind] at noSpace
      cases noSpace
  refine ⟨s.takeWhile iswspace, (s.dropWhile iswspace).rtakeWhile iswspace, ?_, ?_, ?_, ?_, ?_⟩
  · rw [List.append_assoc, strip, List.rdropWhile_append_rtakeWhile,
      List.takeWhile_append_dropWhile]
  · exact fun a member => List.mem_takeWhile_imp member
  · exact fun a member => List.mem_rtakeWhile_imp member
  · obtain ⟨tail, whole⟩ : strip iswspace s <+: s.dropWhile iswspace := List.rdropWhile_prefix _ _
    have notSpace := List.head?_dropWhile_not iswspace s
    cases stripEq : strip iswspace s with
    | nil => exact absurd stripEq nonempty
    | cons a rest =>
        rw [← whole, stripEq] at notSpace
        exact ⟨a, rest, rfl, notSpace⟩
  · refine ⟨_, _, (List.dropLast_concat_getLast nonempty).symm, ?_⟩
    exact Bool.eq_false_iff.mpr (List.rdropWhile_last_not _ _ nonempty)

theorem trim_of_hasText (text : HasText iswspace s) : trim iswspace s = strip iswspace s := by
  obtain ⟨front, back, parts, frontSpaces, backSpaces, ⟨a, rest, first, noSpace⟩,
    rest', a', last, noSpace'⟩ := exists_core text
  have nonempty : s ≠ [] := by
    rintro rfl
    obtain ⟨a, member, -⟩ := text
    cases member
  have start : scanFront iswspace 0 s - 1 = front.length := by
    rw [parts, List.append_assoc, scanFront_spaces frontSpaces, first, List.cons_append, scanFront,
      noSpace, if_neg (by decide)]
    omega
  have dropped : s.drop front.length = strip iswspace s ++ back := by
    conv_lhs => rw [parts, List.append_assoc, List.drop_left]
  have stop : scanBack iswspace (strip iswspace s ++ back).length
      (strip iswspace s ++ back).reverse + 1 = (strip iswspace s).length := by
    have reversed : (strip iswspace s).reverse = a' :: rest'.reverse := by
      rw [last, List.reverse_append]
      rfl
    have long : 0 < (strip iswspace s).length := by
      rw [first]
      exact Nat.succ_pos _
    rw [List.reverse_append, scanBack_spaces (by simpa using backSpaces), reversed, scanBack,
      noSpace', if_neg (by decide), List.length_append, List.length_reverse]
    omega
  rw [trim, if_neg nonempty]
  dsimp only
  rw [start, dropped, stop, List.take_left]

/-- What is left has nothing more to lose. -/
theorem strip_strip (text : HasText iswspace s) :
    strip iswspace (strip iswspace s) = strip iswspace s := by
  obtain ⟨-, -, -, -, -, ⟨a, rest, first, noSpace⟩, -⟩ := exists_core text
  have front : (strip iswspace s).dropWhile iswspace = strip iswspace s := by
    rw [first, List.dropWhile_cons_of_neg (by simp [noSpace])]
  rw [strip, front, strip, List.rdropWhile_idempotent]

/-! ## Whitespace alone -/

/-- The last character stays. -/
theorem trim_of_spaces {spaces : Bytes} {a : UInt8}
    (all : ∀ b ∈ spaces ++ [a], iswspace b = true) : trim iswspace (spaces ++ [a]) = [a] := by
  have scanned : scanFront iswspace 0 (spaces ++ [a]) - 1 = spaces.length := by
    have front := scanFront_spaces all 0 []
    rw [List.append_nil] at front
    rw [front, scanFront, List.length_append, List.length_singleton]
    omega
  have space : iswspace a = true := all a (by simp)
  rw [trim, if_neg (by simp)]
  dsimp only
  rw [scanned, List.drop_left]
  simp [scanBack, space]

/-! ## The result -/

/-- A string without text is empty or whitespace to its last character. -/
theorem spaces_of_not_hasText (blank : ¬ HasText iswspace s) :
    ∀ a ∈ s, iswspace a = true := by
  intro a member
  by_contra noSpace
  exact blank ⟨a, member, Bool.eq_false_iff.mpr noSpace⟩

/-- Trimming twice is trimming once. -/
theorem trim_trim (iswspace : UInt8 → Bool) (s : Bytes) :
    trim iswspace (trim iswspace s) = trim iswspace s := by
  by_cases text : HasText iswspace s
  · obtain ⟨-, -, -, -, -, ⟨a, rest, first, noSpace⟩, -⟩ := exists_core text
    have still : HasText iswspace (strip iswspace s) := by
      rw [first]
      exact ⟨a, List.mem_cons_self, noSpace⟩
    rw [trim_of_hasText text, trim_of_hasText still, strip_strip text]
  · have all := spaces_of_not_hasText text
    rcases List.eq_nil_or_concat s with rfl | ⟨spaces, a, rfl⟩
    · rfl
    · rw [List.concat_eq_append] at all ⊢
      rw [trim_of_spaces all]
      have single : ∀ b ∈ [] ++ [a], iswspace b = true := by simpa using all a (by simp)
      exact trim_of_spaces single

/-- `trim` leaves what is left without the whitespace at the two ends, and the same when it is
done again, exactly when the string is empty or has something besides whitespace. -/
theorem trim_strips_iff (iswspace : UInt8 → Bool) (s : Bytes) :
    (trim iswspace s = strip iswspace s ∧ trim iswspace (trim iswspace s) = trim iswspace s) ↔
      s = [] ∨ HasText iswspace s := by
  constructor
  · rintro ⟨trimmed, -⟩
    by_contra neither
    rw [not_or] at neither
    have all := spaces_of_not_hasText neither.2
    have nothing : strip iswspace s = [] := by
      rw [strip, List.dropWhile_eq_nil_iff.mpr all]
      rfl
    rcases List.eq_nil_or_concat s with rfl | ⟨spaces, a, rfl⟩
    · exact neither.1 rfl
    · rw [List.concat_eq_append] at all trimmed nothing
      rw [trim_of_spaces all, nothing] at trimmed
      cases trimmed
  · intro condition
    refine ⟨?_, trim_trim iswspace s⟩
    rcases condition with rfl | text
    · rfl
    · exact trim_of_hasText text

/-- `iswspace` of the "C" locale. -/
def iswspaceC (a : UInt8) : Bool := a == 32 || (9 ≤ a && a ≤ 13)

/-- Of three spaces one is left. -/
theorem trim_leaves_a_space :
    ¬ (trim iswspaceC [32, 32, 32] = strip iswspaceC [32, 32, 32] ∧
      trim iswspaceC (trim iswspaceC [32, 32, 32]) = trim iswspaceC [32, 32, 32]) := by
  decide

end GPush.Utility
