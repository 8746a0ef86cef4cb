import Mathlib.Data.List.Basic
import Mathlib.Order.Defs.Unbundled
import Mathlib.Tactic.SplitIfs

/-!
# Sets of pointers

A set of pointers is kept in the order of the keys of what they point to.  An update
behind a pointer can disturb it, so the keys are a parameter of every operation.
-/

namespace GPush.Containers.PointerSet

universe u v

variable {α : Type u} {κ : Type v} (less : κ → κ → Prop)

/-- The pointers stand in the order of their keys. -/
def InOrder (key : α → κ) (as : List α) : Prop :=
  as.Pairwise fun a b => less (key a) (key b)

/-- `std::set::insert`: a pointer that is equivalent to one in the set is not added. -/
def insert [DecidableRel less] (key : α → κ) (a : α) : List α → List α
  | [] => [a]
  | b :: bs =>
      if less (key a) (key b) then
        a :: b :: bs
      else if less (key b) (key a) then
        b :: insert key a bs
      else
        b :: bs

/-- `std::set::erase` with a pointer: what is equivalent to it leaves the set. -/
def erase [DecidableRel less] (key : α → κ) (a : α) (as : List α) : List α :=
  as.filter fun b => less (key b) (key a) ∨ less (key a) (key b)

variable {less} {key : α → κ} {a : α} {as : List α}

/-- Only the keys of its elements matter for the order. -/
theorem InOrder.congr {other : α → κ} (inOrder : InOrder less key as)
    (same : ∀ b ∈ as, other b = key b) : InOrder less other as := by
  apply List.Pairwise.imp_of_mem _ inOrder
  intro b c memberB memberC before
  rwa [same b memberB, same c memberC]

theorem InOrder.filter (inOrder : InOrder less key as) (keep : α → Bool) :
    InOrder less key (as.filter keep) :=
  List.Pairwise.filter keep inOrder

variable [IsStrictTotalOrder κ less]

/-- No element is before the first one. -/
theorem InOrder.first_least {first : α} {rest : List α}
    (inOrder : InOrder less key (first :: rest)) {b : α} (member : b ∈ first :: rest) :
    ¬less (key b) (key first) := by
  rcases List.mem_cons.mp member with rfl | later
  · exact irrefl_of less _
  · exact asymm_of less ((List.pairwise_cons.mp inOrder).1 b later)

/-- The first element stands only once. -/
theorem InOrder.first_notMem {first : α} {rest : List α}
    (inOrder : InOrder less key (first :: rest)) : first ∉ rest := by
  intro member
  exact irrefl_of less _ ((List.pairwise_cons.mp inOrder).1 first member)

variable [DecidableRel less]

theorem mem_insert (injective : Function.Injective key) {b : α} :
    b ∈ insert less key a as ↔ b = a ∨ b ∈ as := by
  induction as with
  | nil => simp [insert]
  | cons first rest ih =>
      rw [insert]
      split_ifs with before after
      · exact List.mem_cons
      · rw [List.mem_cons, ih, List.mem_cons]
        tauto
      · have same : a = first := injective <| by
          rcases trichotomous_of less (key a) (key first) with isBefore | same | isAfter
          · exact absurd isBefore before
          · exact same
          · exact absurd isAfter after
        rw [same, List.mem_cons]
        tauto

theorem InOrder.insert (inOrder : InOrder less key as) (injective : Function.Injective key)
    (a : α) : InOrder less key (insert less key a as) := by
  induction as with
  | nil => exact List.pairwise_singleton _ _
  | cons first rest ih =>
      rcases List.pairwise_cons.mp inOrder with ⟨least, restInOrder⟩
      rw [PointerSet.insert]
      split_ifs with before after
      · apply List.pairwise_cons.mpr
        constructor
        · intro b member
          rcases List.mem_cons.mp member with rfl | later
          · exact before
          · exact trans_of less before (least b later)
        · exact inOrder
      · apply List.pairwise_cons.mpr
        constructor
        · intro b member
          rcases (mem_insert injective).mp member with rfl | later
          · exact after
          · exact least b later
        · exact ih restInOrder
      · exact inOrder

/-- With distinct keys a pointer is equivalent to itself alone, whatever the order. -/
theorem erase_eq_filter [DecidableEq α] (injective : Function.Injective key) :
    erase less key a as = as.filter (· ≠ a) := by
  apply List.filter_congr
  intro b _
  rw [decide_eq_decide]
  constructor
  · rintro apart rfl
    rcases apart with before | after
    · exact irrefl_of less _ before
    · exact irrefl_of less _ after
  · intro distinct
    rcases trichotomous_of less (key b) (key a) with before | same | after
    · exact Or.inl before
    · exact absurd (injective same) distinct
    · exact Or.inr after

end GPush.Containers.PointerSet
