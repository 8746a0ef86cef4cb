import Mathlib.Data.List.Basic
import Mathlib.Data.List.Perm.Basic
import Mathlib.Data.List.Induction

/-!
# Ordered maps and first occurrences

A map is a list of keys with values, in the order of a comparison of the keys.  The
first occurrences of a list are its elements whose key no earlier element has.
-/

namespace GPush.Containers

universe u v

section Maps

variable {κ : Type u} {ν : Type v} [DecidableEq κ]

/-- Setting the value of a key, which takes the place that its order gives it. -/
def assign (less : κ → κ → Bool) (key : κ) (value : ν) : List (κ × ν) → List (κ × ν)
  | [] => [(key, value)]
  | first :: rest =>
      if less key first.1 then
        (key, value) :: first :: rest
      else if key = first.1 then
        (key, value) :: rest
      else
        first :: assign less key value rest

/-- The map with the entries of a list, assigned one after the other. -/
def ofEntries (less : κ → κ → Bool) (entries : List (κ × ν)) : List (κ × ν) :=
  entries.foldl (fun map entry => assign less entry.1 entry.2 map) []

/-- A comparison that orders the keys. -/
structure Orders (less : κ → κ → Bool) : Prop where
  trans : ∀ {a b c}, less a b = true → less b c = true → less a c = true
  total : ∀ {a b}, less a b = false → a ≠ b → less b a = true

/-- The keys stand in order. -/
def InOrder (less : κ → κ → Bool) (map : List (κ × ν)) : Prop :=
  map.Pairwise fun first second => less first.1 second.1 = true

variable {less : κ → κ → Bool}

theorem assign_perm {key : κ} {value : ν} {map : List (κ × ν)} (absent : key ∉ map.map Prod.fst) :
    (assign less key value map).Perm ((key, value) :: map) := by
  induction map with
  | nil => exact List.Perm.refl _
  | cons first rest ih =>
      rw [List.map_cons, List.mem_cons, not_or] at absent
      rw [assign, if_neg absent.1]
      split_ifs
      · exact List.Perm.refl _
      · exact ((ih absent.2).cons first).trans (List.Perm.swap _ _ _)

theorem mem_assign {key : κ} {value : ν} {map : List (κ × ν)} {entry : κ × ν}
    (member : entry ∈ assign less key value map) : entry = (key, value) ∨ entry ∈ map := by
  induction map with
  | nil => exact Or.inl (List.mem_singleton.mp member)
  | cons first rest ih =>
      rw [assign] at member
      split_ifs at member
      · exact List.mem_cons.mp member
      · rcases List.mem_cons.mp member with new | old
        · exact Or.inl new
        · exact Or.inr (List.mem_cons_of_mem _ old)
      · rcases List.mem_cons.mp member with atFirst | later
        · exact Or.inr (atFirst ▸ List.mem_cons_self)
        · rcases ih later with new | old
          · exact Or.inl new
          · exact Or.inr (List.mem_cons_of_mem _ old)

theorem mem_keys_assign {key : κ} {value : ν} {map : List (κ × ν)} {k : κ} :
    k ∈ (assign less key value map).map Prod.fst ↔ k = key ∨ k ∈ map.map Prod.fst := by
  induction map with
  | nil => simp [assign]
  | cons first rest ih =>
      rw [assign]
      split_ifs with isLess isEq
      · simp
      · simp [isEq]
      · rw [List.map_cons, List.mem_cons, ih, List.map_cons, List.mem_cons]
        exact or_left_comm

theorem InOrder.assign {map : List (κ × ν)} (inOrder : InOrder less map) (orders : Orders less)
    (key : κ) (value : ν) : InOrder less (assign less key value map) := by
  induction map with
  | nil => exact List.pairwise_singleton _ _
  | cons first rest ih =>
      rcases List.pairwise_cons.mp inOrder with ⟨before, restInOrder⟩
      rw [Containers.assign]
      split_ifs with isLess isEq
      · apply List.pairwise_cons.mpr
        constructor
        · intro entry member
          rcases List.mem_cons.mp member with rfl | later
          · exact isLess
          · exact orders.trans isLess (before entry later)
        · exact inOrder
      · apply List.pairwise_cons.mpr
        constructor
        · intro entry member
          rw [isEq]
          exact before entry member
        · exact restInOrder
      · apply List.pairwise_cons.mpr
        constructor
        · intro entry member
          rcases mem_assign member with rfl | later
          · exact orders.total (Bool.eq_false_iff.mpr isLess) isEq
          · exact before entry later
        · exact ih restInOrder

omit [DecidableEq κ] in
theorem InOrder.nodup {map : List (κ × ν)} (inOrder : InOrder less map)
    (irrefl : ∀ a, less a a = false) : (map.map Prod.fst).Nodup := by
  rw [List.nodup_iff_pairwise_ne, List.pairwise_map]
  apply inOrder.imp
  intro first second before same
  rw [same, irrefl] at before
  exact absurd before (by decide)

theorem inOrder_ofEntries (orders : Orders less) (entries : List (κ × ν)) :
    InOrder less (ofEntries less entries) := by
  have kept : ∀ map : List (κ × ν), InOrder less map →
      InOrder less (entries.foldl (fun map entry => assign less entry.1 entry.2 map) map) := by
    induction entries with
    | nil => exact fun _ inOrder => inOrder
    | cons entry entries ih => exact fun _ inOrder => ih _ (inOrder.assign orders _ _)
  exact kept [] List.Pairwise.nil

theorem mem_of_mem_ofEntries {entries : List (κ × ν)} {entry : κ × ν}
    (member : entry ∈ ofEntries less entries) : entry ∈ entries := by
  have kept : ∀ map : List (κ × ν),
      entry ∈ entries.foldl (fun map entry => assign less entry.1 entry.2 map) map →
        entry ∈ map ∨ entry ∈ entries := by
    clear member
    induction entries with
    | nil => exact fun _ => Or.inl
    | cons first entries ih =>
        intro map member
        rcases ih _ member with assigned | later
        · rcases mem_assign assigned with rfl | before
          · exact Or.inr List.mem_cons_self
          · exact Or.inl before
        · exact Or.inr (List.mem_cons_of_mem _ later)
  exact (kept [] member).resolve_left List.not_mem_nil

/-- With distinct keys nothing is overwritten. -/
theorem ofEntries_perm {entries : List (κ × ν)} (distinct : (entries.map Prod.fst).Nodup) :
    (ofEntries less entries).Perm entries := by
  have kept : ∀ map : List (κ × ν), ((map ++ entries).map Prod.fst).Nodup →
      (entries.foldl (fun map entry => assign less entry.1 entry.2 map) map).Perm
        (map ++ entries) := by
    clear distinct
    induction entries with
    | nil => exact fun map _ => by simp
    | cons entry entries ih =>
        intro map distinct
        have moved : (map ++ entry :: entries).Perm (entry :: map ++ entries) :=
          List.perm_middle
        rw [(moved.map Prod.fst).nodup_iff] at distinct
        have absent : entry.1 ∉ map.map Prod.fst := by
          intro member
          rw [List.cons_append, List.map_cons, List.nodup_cons, List.map_append,
            List.mem_append] at distinct
          exact distinct.1 (Or.inl member)
        have assigned : (assign less entry.1 entry.2 map ++ entries).Perm
            (entry :: map ++ entries) :=
          (assign_perm absent).append_right entries
        rw [List.foldl_cons]
        apply (ih _ _).trans (assigned.trans moved.symm)
        rwa [(assigned.map Prod.fst).nodup_iff]
  exact kept [] distinct

/-- An assignment replaces the value of the key and keeps the other entries. -/
theorem mem_assign_iff (orders : Orders less) (irrefl : ∀ a, less a a = false) {key : κ}
    {value : ν} {map : List (κ × ν)} (inOrder : InOrder less map) {entry : κ × ν} :
    entry ∈ assign less key value map ↔
      entry = (key, value) ∨ entry.1 ≠ key ∧ entry ∈ map := by
  have differs : ∀ {a b : κ}, less a b = true → b ≠ a := by
    rintro a _ before rfl
    rw [irrefl] at before
    cases before
  induction map with
  | nil => simp [assign]
  | cons first rest ih =>
      rcases List.pairwise_cons.mp inOrder with ⟨before, restInOrder⟩
      rw [assign]
      split_ifs with isLess isEq
      · rw [List.mem_cons]
        refine or_congr_right (and_iff_right_of_imp fun member => ?_).symm
        rcases List.mem_cons.mp member with rfl | later
        · exact differs isLess
        · exact differs (orders.trans isLess (before entry later))
      · subst isEq
        rw [List.mem_cons, List.mem_cons]
        refine or_congr_right ⟨fun later => ⟨differs (before entry later), Or.inr later⟩, ?_⟩
        rintro ⟨other, rfl | later⟩
        · exact absurd rfl other
        · exact later
      · rw [List.mem_cons, List.mem_cons]
        refine (or_congr_right (ih restInOrder)).trans ?_
        constructor
        · rintro (rfl | new | old)
          · exact Or.inr ⟨Ne.symm isEq, Or.inl rfl⟩
          · exact Or.inl new
          · exact Or.inr ⟨old.1, Or.inr old.2⟩
        · rintro (new | ⟨other, rfl | later⟩)
          · exact Or.inr (Or.inl new)
          · exact Or.inl rfl
          · exact Or.inr (Or.inr ⟨other, later⟩)

/-- A key has the value that was assigned to it last. -/
theorem mem_ofEntries_iff (orders : Orders less) (irrefl : ∀ a, less a a = false)
    {entries : List (κ × ν)} {entry : κ × ν} :
    entry ∈ ofEntries less entries ↔
      ∃ front back, entries = front ++ entry :: back ∧ ∀ later ∈ back, later.1 ≠ entry.1 := by
  induction entries using List.reverseRecOn with
  | nil => simp [ofEntries]
  | append_singleton entries last ih =>
      have assigned : ofEntries less (entries ++ [last]) =
          assign less last.1 last.2 (ofEntries less entries) := by
        rw [ofEntries, List.foldl_append]
        rfl
      rw [assigned, mem_assign_iff orders irrefl (inOrder_ofEntries orders entries), ih]
      constructor
      · rintro (rfl | ⟨other, front, back, rfl, notLater⟩)
        · exact ⟨entries, [], rfl, fun _ member => absurd member List.not_mem_nil⟩
        · refine ⟨front, back ++ [last], by rw [List.append_assoc, List.cons_append], ?_⟩
          intro later member
          rcases List.mem_append.mp member with inBack | isLast
          · exact notLater later inBack
          · rw [List.mem_singleton.mp isLast]
            exact Ne.symm other
      · rintro ⟨front, back, split, notLater⟩
        rcases List.eq_nil_or_concat back with rfl | ⟨back, isLast, rfl⟩
        · exact Or.inl (List.append_inj_right' split rfl |> List.singleton_inj.mp).symm
        · rw [List.concat_eq_append, ← List.cons_append, ← List.append_assoc] at split
          obtain ⟨rfl, sameLast⟩ := List.append_inj' split rfl
          obtain rfl := List.singleton_inj.mp sameLast
          rw [List.concat_eq_append] at notLater
          refine Or.inr ⟨Ne.symm (notLater last (by simp)), front, back, rfl, ?_⟩
          exact fun later member => notLater later (List.mem_append_left _ member)

end Maps

section Firsts

variable {α : Type u} {κ : Type v} [DecidableEq κ]

/-- The elements whose key is neither in `seen` nor that of an earlier element. -/
def firsts (key : α → κ) (seen : List κ) : List α → List α
  | [] => []
  | a :: as => if key a ∈ seen then firsts key seen as else a :: firsts key (key a :: seen) as

variable {key : α → κ}

/-- Of the elements with one key, the first one is kept. -/
theorem mem_firsts_iff {seen : List κ} {as : List α} {a : α} :
    a ∈ firsts key seen as ↔ key a ∉ seen ∧ as.find? (key · = key a) = some a := by
  induction as generalizing seen with
  | nil => simp [firsts]
  | cons first as ih =>
      rw [firsts, List.find?_cons]
      by_cases sameKey : key first = key a
      · simp only [sameKey, decide_true, Option.some.injEq]
        by_cases known : key a ∈ seen
        · simp [known, ih]
        · rw [if_neg known, List.mem_cons, ih]
          simp [known, eq_comm]
      · simp only [sameKey, decide_false]
        have distinct : a ≠ first := by
          rintro rfl
          exact sameKey rfl
        split_ifs
        · exact ih
        · rw [List.mem_cons, ih, List.mem_cons, not_or]
          simp [distinct, Ne.symm sameKey]

/-- They stand in the order in which their keys first occur. -/
theorem pairwise_firsts (seen : List κ) (as : List α) :
    (firsts key seen as).Pairwise fun a b =>
      as.findIdx (key · = key a) < as.findIdx (key · = key b) := by
  induction as generalizing seen with
  | nil => exact List.Pairwise.nil
  | cons first as ih =>
      have shifted : ∀ seen : List κ, key first ∈ seen →
          (firsts key seen as).Pairwise fun a b =>
            (first :: as).findIdx (key · = key a) < (first :: as).findIdx (key · = key b) := by
        intro seen known
        apply (ih seen).imp_of_mem
        intro a b memberA memberB before
        have otherA : key first ≠ key a := fun same => (mem_firsts_iff.mp memberA).1 (same ▸ known)
        have otherB : key first ≠ key b := fun same => (mem_firsts_iff.mp memberB).1 (same ▸ known)
        simpa [List.findIdx_cons, otherA, otherB] using before
      rw [firsts]
      split_ifs with known
      · exact shifted seen known
      · apply List.pairwise_cons.mpr
        constructor
        · intro b member
          have other : key first ≠ key b := by
            intro same
            exact (mem_firsts_iff.mp member).1 (same ▸ List.mem_cons_self)
          simp [List.findIdx_cons, other]
        · exact shifted _ List.mem_cons_self

/-- The first element that meets `p` is the one that is erased. -/
theorem perm_of_find? {p : α → Bool} {as : List α} {a : α} (found : as.find? p = some a) :
    as.Perm (a :: as.eraseP p) := by
  induction as with
  | nil => cases found
  | cons first as ih =>
      cases meets : p first with
      | true =>
          rw [List.find?_cons_of_pos meets] at found
          obtain rfl := Option.some.inj found
          rw [List.eraseP_cons_of_pos meets]
      | false =>
          have misses : ¬ p first = true := by simp [meets]
          rw [List.find?_cons_of_neg misses] at found
          rw [List.eraseP_cons_of_neg misses]
          exact ((ih found).cons first).trans (List.Perm.swap _ _ _)

end Firsts

end GPush.Containers
