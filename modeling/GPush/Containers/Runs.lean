import Mathlib.Data.List.Destutter
import Mathlib.Data.List.DropRight
import Mathlib.Order.Interval.Basic
import Mathlib.Order.Minimal

/-!
# Runs between separators

A stretch of a list is given by the places of its first and its last element.  The longest
stretches without a separator are, from left to right, the pieces that are not empty when the
list is split at the separator.  Joined by it they are the list without the separators
outside and with one separator for each run of them inside.
-/

namespace GPush.Containers

universe u

section Stretches

variable {β : Type u} [PartialOrder β] {P Q : β → Prop} {b : β}

/-- Of two kinds without comparable elements, what is maximal in one of them is maximal. -/
theorem maximal_or (apart : ∀ a b, P a → Q b → ¬ a ≤ b ∧ ¬ b ≤ a) :
    Maximal (fun a => P a ∨ Q a) b ↔ Maximal P b ∨ Maximal Q b := by
  constructor
  · rintro ⟨here | here, largest⟩
    · exact .inl ⟨here, fun a other => largest (.inl other)⟩
    · exact .inr ⟨here, fun a other => largest (.inr other)⟩
  · rintro (⟨here, largest⟩ | ⟨here, largest⟩)
    · refine ⟨.inl here, ?_⟩
      rintro a (same | other) above
      · exact largest same above
      · exact absurd above (apart b a here other).1
    · refine ⟨.inr here, ?_⟩
      rintro a (other | same) above
      · exact absurd above (apart a b other here).2
      · exact largest same above

end Stretches

variable {α : Type u} {sep : α} {as first back : List α} {I J : NonemptyInterval ℕ}

/-- The stretch lies in the list, and no separator in it. -/
def FreeOf (sep : α) (as : List α) (I : NonemptyInterval ℕ) : Prop :=
  I.snd < as.length ∧ ∀ i ∈ I, as[i]? ≠ some sep

/-- The elements of a stretch. -/
def stretch (as : List α) (I : NonemptyInterval ℕ) : List α :=
  (as.drop I.fst).take (I.snd + 1 - I.fst)

/-- These are the longest stretches without a separator, from left to right. -/
structure LongestRuns (sep : α) (as : List α) (runs : List (NonemptyInterval ℕ)) : Prop where
  inOrder : runs.Pairwise fun I J => I.snd < J.fst
  mem_iff : ∀ I, I ∈ runs ↔ Maximal (FreeOf sep as) I

/-! ## A stretch before a separator, and one behind it -/

/-- The whole of a list with `n` elements, if it has any. -/
def whole : ℕ → List (NonemptyInterval ℕ)
  | 0 => []
  | n + 1 => [⟨(0, n), Nat.zero_le n⟩]

/-- The stretch `n` places further on. -/
def shift (n : ℕ) (I : NonemptyInterval ℕ) : NonemptyInterval ℕ :=
  ⟨(n + I.fst, n + I.snd), Nat.add_le_add_left I.fst_le_snd n⟩

theorem mem_whole_iff {n : ℕ} :
    I ∈ whole n ↔ Maximal (fun J : NonemptyInterval ℕ => J.snd < n) I := by
  cases n with
  | zero => exact iff_of_false List.not_mem_nil fun largest => Nat.not_lt_zero _ largest.prop
  | succ n =>
      rw [whole, List.mem_singleton]
      constructor
      · rintro rfl
        refine ⟨Nat.lt_succ_self n, fun J inside _ => ?_⟩
        exact NonemptyInterval.le_def.mpr ⟨Nat.zero_le _, Nat.lt_succ_iff.mp inside⟩
      · intro largest
        have above : I ≤ ⟨(0, n), Nat.zero_le n⟩ :=
          NonemptyInterval.le_def.mpr ⟨Nat.zero_le _, Nat.lt_succ_iff.mp largest.prop⟩
        exact largest.eq_of_le (Nat.lt_succ_self n) above

theorem shift_le_shift {n : ℕ} : shift n I ≤ shift n J ↔ I ≤ J := by
  simp only [NonemptyInterval.le_def, shift, Nat.add_le_add_iff_left]

/-- A stretch that begins far enough is another one further on. -/
theorem exists_shift_eq {n : ℕ} (later : n ≤ I.fst) : ∃ J, shift n J = I := by
  refine ⟨⟨(I.fst - n, I.snd - n), Nat.sub_le_sub_right I.fst_le_snd n⟩, ?_⟩
  ext
  · exact Nat.add_sub_cancel' later
  · exact Nat.add_sub_cancel' (later.trans I.fst_le_snd)

theorem getElem?_behind (first back : List α) (sep : α) (i : ℕ) :
    (first ++ sep :: back)[first.length + 1 + i]? = back[i]? := by
  have place : first.length + 1 + i = first.length + (i + 1) := by omega
  rw [place, List.getElem?_append_right (Nat.le_add_right _ _), Nat.add_sub_cancel_left,
    List.getElem?_cons_succ]

theorem freeOf_of_sooner (single : sep ∉ first) (sooner : I.snd < first.length) :
    FreeOf sep (first ++ sep :: back) I := by
  refine ⟨?_, fun i here => ?_⟩
  · rw [List.length_append]
    exact sooner.trans_le (Nat.le_add_right _ _)
  · have short : i < first.length := (NonemptyInterval.mem_def.mp here).2.trans_lt sooner
    rw [List.getElem?_append_left short]
    exact fun isSep => single (List.mem_of_getElem? isSep)

theorem freeOf_shift_iff :
    FreeOf sep (first ++ sep :: back) (shift (first.length + 1) J) ↔ FreeOf sep back J := by
  have inside : (shift (first.length + 1) J).snd < (first ++ sep :: back).length ↔
      J.snd < back.length := by
    simp only [shift, List.length_append, List.length_cons]
    omega
  rw [FreeOf, FreeOf, inside]
  refine and_congr_right fun _ => ⟨fun free i here => ?_, fun free i here => ?_⟩
  · rw [← getElem?_behind first back sep]
    refine free _ ?_
    rw [NonemptyInterval.mem_def] at here ⊢
    exact ⟨Nat.add_le_add_left here.1 _, Nat.add_le_add_left here.2 _⟩
  · rw [NonemptyInterval.mem_def] at here
    simp only [shift] at here
    obtain ⟨j, rfl⟩ := Nat.exists_eq_add_of_le ((Nat.le_add_right _ _).trans here.1)
    rw [getElem?_behind]
    refine free j (NonemptyInterval.mem_def.mpr ?_)
    exact ⟨Nat.le_of_add_le_add_left here.1, Nat.le_of_add_le_add_left here.2⟩

/-- A stretch without separators ends before the first separator, or begins behind it. -/
theorem freeOf_append_cons_iff (single : sep ∉ first) :
    FreeOf sep (first ++ sep :: back) I ↔
      I.snd < first.length ∨ ∃ J, FreeOf sep back J ∧ shift (first.length + 1) J = I := by
  constructor
  · intro free
    have notHere : first.length ∉ I := fun here => free.2 _ here (by simp)
    rw [NonemptyInterval.mem_def, not_and_or, not_le, not_le] at notHere
    rcases notHere with later | sooner
    · obtain ⟨J, rfl⟩ := exists_shift_eq later
      exact .inr ⟨J, freeOf_shift_iff.mp free, rfl⟩
    · exact .inl sooner
  · rintro (sooner | ⟨J, free, rfl⟩)
    · exact freeOf_of_sooner single sooner
    · exact freeOf_shift_iff.mpr free

/-- The longest one is the whole of what stands before the first separator, or it is a longest
one behind it. -/
theorem maximal_append_cons_iff (single : sep ∉ first) :
    Maximal (FreeOf sep (first ++ sep :: back)) I ↔
      I ∈ whole first.length ∨
        ∃ J, Maximal (FreeOf sep back) J ∧ shift (first.length + 1) J = I := by
  have kinds : FreeOf sep (first ++ sep :: back) = fun I => I.snd < first.length ∨
      ∃ J, FreeOf sep back J ∧ shift (first.length + 1) J = I :=
    funext fun I => propext (freeOf_append_cons_iff single)
  have shifted := Set.ext_iff.mp (image_monotone_setOfPred_maximal (P := FreeOf sep back)
    fun J K _ _ => shift_le_shift (n := first.length + 1) (I := J) (J := K)) I
  rw [kinds, maximal_or, mem_whole_iff]
  · exact or_congr_right shifted.symm
  · rintro a b sooner ⟨J, -, rfl⟩
    have order := a.fst_le_snd
    simp only [NonemptyInterval.le_def, shift]
    omega

theorem pairwise_whole (n : ℕ) : (whole n).Pairwise fun I J => I.snd < J.fst := by
  cases n with
  | zero => exact .nil
  | succ n => exact List.pairwise_singleton _ _

theorem longestRuns_of_notMem (single : sep ∉ as) : LongestRuns sep as (whole as.length) := by
  have kinds : FreeOf sep as = fun I => I.snd < as.length := by
    funext I
    refine propext ⟨And.left, fun inside => ⟨inside, fun i _ isSep => ?_⟩⟩
    exact single (List.mem_of_getElem? isSep)
  refine ⟨pairwise_whole _, fun I => ?_⟩
  rw [kinds]
  exact mem_whole_iff

theorem LongestRuns.append_cons {runs : List (NonemptyInterval ℕ)}
    (longest : LongestRuns sep back runs) (single : sep ∉ first) :
    LongestRuns sep (first ++ sep :: back)
      (whole first.length ++ runs.map (shift (first.length + 1))) := by
  constructor
  · refine List.pairwise_append.mpr ⟨pairwise_whole _, ?_, ?_⟩
    · refine List.pairwise_map.mpr (longest.inOrder.imp fun {I J} before => ?_)
      exact Nat.add_lt_add_left before _
    · intro I member K behind
      obtain ⟨J, -, rfl⟩ := List.mem_map.mp behind
      have inside := (mem_whole_iff.mp member).prop
      simp only [shift]
      omega
  · intro I
    rw [List.mem_append, List.mem_map, maximal_append_cons_iff single]
    simp only [longest.mem_iff]

/-! ## The pieces are the longest runs -/

theorem stretch_shift (first back : List α) (sep : α) (J : NonemptyInterval ℕ) :
    stretch (first ++ sep :: back) (shift (first.length + 1) J) = stretch back J := by
  have length : first.length + 1 + J.snd + 1 - (first.length + 1 + J.fst) = J.snd + 1 - J.fst := by
    omega
  have begins : (first ++ sep :: back).drop (first.length + 1) = back := by
    rw [List.append_cons, List.drop_left' (by simp)]
  simp only [stretch, shift, length]
  rw [← List.drop_drop, begins]

/-- The whole of what stands before something is a piece if it is not empty. -/
theorem map_stretch_whole (as rest : List α) :
    (whole as.length).map (stretch (as ++ rest)) = [as].filter fun piece => piece ≠ [] := by
  cases as with
  | nil => rfl
  | cons a as => simp [whole, stretch]

theorem rdropWhile_append (p : α → Bool) (first back : List α) :
    (first ++ back).rdropWhile p =
      if back.rdropWhile p = [] then first.rdropWhile p else first ++ back.rdropWhile p := by
  simp only [List.rdropWhile, List.reverse_append, List.dropWhile_append, List.reverse_eq_nil_iff,
    List.isEmpty_iff]
  split_ifs
  · rfl
  · rw [List.reverse_append, List.reverse_reverse]

variable [DecidableEq α]

/-- The pieces between the separators, without the empty ones. -/
def pieces (sep : α) (as : List α) : List (List α) :=
  (as.splitOn sep).filter fun piece => piece ≠ []

theorem pieces_of_notMem (single : sep ∉ as) :
    pieces sep as = [as].filter fun piece => piece ≠ [] := by
  rw [pieces, List.splitOn_eq_singleton single]

theorem pieces_append_cons (single : sep ∉ first) (back : List α) :
    pieces sep (first ++ sep :: back) =
      ([first].filter fun piece => piece ≠ []) ++ pieces sep back := by
  rw [pieces, List.splitOn_append_cons_self_of_not_mem single, ← List.singleton_append,
    List.filter_append]
  rfl

/-- A property of lists holds when it holds of those without separators, and goes on from what
stands behind the first separator. -/
@[elab_as_elim]
theorem separatedInduction {motive : List α → Prop} (sep : α)
    (plain : ∀ as, sep ∉ as → motive as)
    (separated : ∀ first back, sep ∉ first → motive back → motive (first ++ sep :: back))
    (as : List α) : motive as := by
  induction length : as.length using Nat.strong_induction_on generalizing as with
  | h n ih =>
      by_cases member : sep ∈ as
      · obtain ⟨first, back, rfl, single⟩ := List.eq_append_cons_of_mem member
        refine separated first back single (ih back.length ?_ back rfl)
        simp only [List.length_append, List.length_cons] at length
        omega
      · exact plain as member

/-- No separator stands in a piece. -/
theorem notMem_of_mem_pieces {piece : List α} (member : piece ∈ pieces sep as) : sep ∉ piece := by
  induction as using separatedInduction sep with
  | plain as single =>
      rw [pieces_of_notMem single] at member
      rwa [List.mem_singleton.mp (List.mem_of_mem_filter member)]
  | separated first back single ih =>
      rw [pieces_append_cons single, List.mem_append] at member
      rcases member with here | later
      · rwa [List.mem_singleton.mp (List.mem_of_mem_filter here)]
      · exact ih later

/-- A piece stands somewhere in the list. -/
theorem infix_of_mem_pieces {piece : List α} (member : piece ∈ pieces sep as) :
    piece <:+: as := by
  induction as using separatedInduction sep with
  | plain as single =>
      rw [pieces_of_notMem single] at member
      obtain rfl := List.mem_singleton.mp (List.mem_of_mem_filter member)
      exact List.infix_refl piece
  | separated first back single ih =>
      rw [pieces_append_cons single, List.mem_append] at member
      rcases member with here | later
      · rw [List.mem_singleton.mp (List.mem_of_mem_filter here)]
        exact (List.prefix_append first _).isInfix
      · have behind : back <:+ first ++ sep :: back :=
          (List.suffix_cons sep back).trans (List.suffix_append first _)
        exact (ih later).trans behind.isInfix

/-- The pieces are the elements of the longest runs. -/
theorem exists_longestRuns (sep : α) (as : List α) :
    ∃ runs, LongestRuns sep as runs ∧ runs.map (stretch as) = pieces sep as := by
  induction as using separatedInduction sep with
  | plain as single =>
      refine ⟨whole as.length, longestRuns_of_notMem single, ?_⟩
      have elements := map_stretch_whole as []
      rw [List.append_nil] at elements
      rw [elements, pieces_of_notMem single]
  | separated first back single ih =>
      obtain ⟨runs, longest, elements⟩ := ih
      refine ⟨_, longest.append_cons single, ?_⟩
      have later : stretch (first ++ sep :: back) ∘ shift (first.length + 1) = stretch back :=
        funext fun J => stretch_shift first back sep J
      rw [List.map_append, List.map_map, map_stretch_whole, later, elements,
        pieces_append_cons single]

/-! ## Joining the pieces -/

/-- The list without the separators at its ends. -/
def trimmed (sep : α) (as : List α) : List α := (as.rdropWhile (· = sep)).dropWhile (· = sep)

/-- The list with one separator for each run of them. -/
def collapsed (sep : α) (as : List α) : List α := as.destutter fun a b => ¬(a = sep ∧ b = sep)

theorem collapsed_cons_of_ne {a : α} (other : a ≠ sep) (as : List α) :
    collapsed sep (a :: as) = a :: collapsed sep as := by
  cases as with
  | nil => rfl
  | cons b as =>
      rw [collapsed, List.destutter_cons_cons, if_pos fun both => other both.1]
      rfl

theorem collapsed_append (single : sep ∉ first) (back : List α) :
    collapsed sep (first ++ back) = first ++ collapsed sep back := by
  induction first with
  | nil => rfl
  | cons a first ih =>
      rw [List.mem_cons, not_or] at single
      rw [List.cons_append, collapsed_cons_of_ne (Ne.symm single.1), ih single.2]
      rfl

theorem collapsed_of_notMem (single : sep ∉ as) : collapsed sep as = as := by
  have unchanged := collapsed_append single []
  rwa [List.append_nil, show collapsed sep [] = [] from rfl, List.append_nil] at unchanged

/-- A run of separators becomes one. -/
theorem collapsed_separator_cons (sep : α) (as : List α) :
    collapsed sep (sep :: as) = sep :: collapsed sep (as.dropWhile (· = sep)) := by
  induction as with
  | nil => rfl
  | cons a as ih =>
      by_cases isSep : a = sep
      · subst isSep
        rw [List.dropWhile_cons_of_pos (by simp), ← ih]
        rw [collapsed, List.destutter_cons_cons, if_neg (by simp)]
        rfl
      · rw [List.dropWhile_cons_of_neg (by simpa using isSep)]
        rw [collapsed, List.destutter_cons_cons, if_pos fun both => isSep both.2]
        rfl

/-- The last element that is left is no separator. -/
theorem trimmed_eq_nil_iff : trimmed sep as = [] ↔ as.rdropWhile (· = sep) = [] := by
  constructor
  · intro empty
    by_contra some
    have last := List.rdropWhile_last_not (· = sep) as some
    exact last (List.dropWhile_eq_nil_iff.mp empty _ (List.getLast_mem some))
  · intro empty
    rw [trimmed, empty]
    rfl

theorem rdropWhile_separator_cons (sep : α) (as : List α) :
    (sep :: as).rdropWhile (· = sep) =
      if as.rdropWhile (· = sep) = [] then [] else sep :: as.rdropWhile (· = sep) := by
  rw [← List.singleton_append, rdropWhile_append, List.rdropWhile_singleton,
    if_pos (decide_eq_true (Eq.refl sep))]
  rfl

theorem trimmed_separator_cons (sep : α) (as : List α) :
    trimmed sep (sep :: as) = trimmed sep as := by
  rw [trimmed, trimmed, rdropWhile_separator_cons]
  split_ifs with empty
  · rw [empty]
  · rw [List.dropWhile_cons_of_pos (by simp)]

theorem trimmed_of_notMem (single : sep ∉ as) : trimmed sep as = as := by
  have lastIs : as.rdropWhile (· = sep) = as := by
    rw [List.rdropWhile_eq_self_iff]
    intro some isSep
    exact single (of_decide_eq_true isSep ▸ List.getLast_mem some)
  rw [trimmed, lastIs, List.dropWhile_eq_self_iff]
  intro some isSep
  exact single (of_decide_eq_true isSep ▸ List.getElem_mem some)

/-- Behind the first piece, the separators at the end are left out. -/
theorem trimmed_append_cons {a : α} (single : sep ∉ a :: first) (back : List α) :
    trimmed sep (a :: first ++ sep :: back) =
      if trimmed sep back = [] then a :: first
      else a :: first ++ sep :: back.rdropWhile (· = sep) := by
  have other : ¬ a = sep := fun isSep => single (isSep ▸ List.mem_cons_self)
  simp only [trimmed_eq_nil_iff]
  rw [trimmed, rdropWhile_append, rdropWhile_separator_cons]
  by_cases empty : back.rdropWhile (· = sep) = []
  · rw [if_pos empty, if_pos rfl, if_pos empty]
    exact trimmed_of_notMem single
  · rw [if_neg empty, if_neg (List.cons_ne_nil _ _), if_neg empty, List.cons_append,
      List.dropWhile_cons_of_neg (by simpa using other)]

theorem pieces_eq_nil_iff : pieces sep as = [] ↔ trimmed sep as = [] := by
  induction as using separatedInduction sep with
  | plain as single =>
      rw [pieces_of_notMem single, trimmed_of_notMem single]
      cases as <;> simp
  | separated first back single ih =>
      rw [pieces_append_cons single]
      cases first with
      | nil => exact ih.trans (by rw [List.nil_append, trimmed_separator_cons])
      | cons a first =>
          rw [trimmed_append_cons single]
          split_ifs <;> simp

/-- The pieces joined by the separator. -/
theorem intercalate_pieces (sep : α) (as : List α) :
    [sep].intercalate (pieces sep as) = collapsed sep (trimmed sep as) := by
  induction as using separatedInduction sep with
  | plain as single =>
      rw [pieces_of_notMem single, trimmed_of_notMem single, collapsed_of_notMem single]
      cases as <;> simp
  | separated first back single ih =>
      rw [pieces_append_cons single]
      cases first with
      | nil => exact ih.trans (congrArg _ (trimmed_separator_cons sep back).symm)
      | cons a first =>
          have isPiece : ([a :: first].filter fun piece => piece ≠ []) = [a :: first] := rfl
          rw [isPiece, List.singleton_append, trimmed_append_cons single]
          by_cases empty : pieces sep back = []
          · rw [empty, if_pos (pieces_eq_nil_iff.mp empty), collapsed_of_notMem single]
            exact List.intercalate_singleton
          · rw [if_neg fun trim => empty (pieces_eq_nil_iff.mpr trim),
              List.intercalate_cons_of_ne_nil empty, ih, collapsed_append single,
              collapsed_separator_cons, List.append_assoc]
            rfl

end GPush.Containers
