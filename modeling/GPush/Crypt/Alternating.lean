import Mathlib.Algebra.Group.Equiv.Basic

/-!
# Ciphers that alternate

A cipher that adds a key, substitutes and mixes in turn is undone by the cipher of the same shape
whose layers are the inverse ones and whose keys are taken from the last to the first.  Mixing is
additive, so that it can be moved from the sum to the key.
-/

namespace GPush.Crypt

universe u

/-- What happens to a state between two keys. -/
structure Layers (S : Type u) [AddCommGroup S] where
  substitute : Equiv.Perm S
  mix : S ≃+ S

/-- The keys that are added, in turn. -/
structure RoundKeys (S : Type u) where
  first : S
  inner : List S
  last : S

namespace Layers

variable {S : Type u} [AddCommGroup S] (layers : Layers S)

/-- A round in the middle. -/
def round (s key : S) : S := layers.mix (layers.substitute s) + key

/-- All rounds, the last one without mixing. -/
def run (keys : RoundKeys S) (s : S) : S :=
  layers.substitute (keys.inner.foldl layers.round (s + keys.first)) + keys.last

/-- The inverse layers. -/
def symm : Layers S := ⟨layers.substitute.symm, layers.mix.symm⟩

/-- The key with which a round of the inverse layers undoes a round. -/
def undoKey (key : S) : S := layers.mix.symm (-key)

/-- The keys with which the inverse layers undo all rounds. -/
def undo (keys : RoundKeys S) : RoundKeys S :=
  ⟨-keys.last, keys.inner.reverse.map layers.undoKey, -keys.first⟩

/-- A round of the inverse layers undoes a round, behind a substitution. -/
theorem symm_round_undoKey (s key : S) :
    layers.symm.round (layers.substitute (layers.round s key)) (layers.undoKey key) =
      layers.substitute s := by
  rw [round, symm, undoKey]
  simp only [Equiv.symm_apply_apply]
  rw [← map_add, round, add_neg_cancel_right, AddEquiv.symm_apply_apply]

/-- The inner rounds are undone from the last one to the first. -/
theorem foldl_undo (inner : List S) (s : S) :
    (inner.reverse.map layers.undoKey).foldl layers.symm.round
      (layers.substitute (inner.foldl layers.round s)) = layers.substitute s := by
  induction inner generalizing s with
  | nil => rfl
  | cons key inner ih =>
      rw [List.foldl_cons, List.reverse_cons, List.map_append, List.foldl_append, ih]
      exact layers.symm_round_undoKey s key

/-- What is run with some keys is undone with the keys of the inverse layers. -/
theorem symm_run_undo (keys : RoundKeys S) (s : S) :
    layers.symm.run (layers.undo keys) (layers.run keys s) = s := by
  rw [run, run, undo]
  simp only [add_neg_cancel_right, foldl_undo]
  rw [symm]
  simp only [Equiv.symm_apply_apply, add_neg_cancel_right]

theorem symm_undoKey_undoKey (key : S) : layers.symm.undoKey (layers.undoKey key) = key := by
  rw [undoKey, undoKey, symm, ← map_neg, neg_neg]
  exact layers.mix.apply_symm_apply key

theorem symm_undo_undo (keys : RoundKeys S) : layers.symm.undo (layers.undo keys) = keys := by
  have inner : ((keys.inner.reverse.map layers.undoKey).reverse.map layers.symm.undoKey) =
      keys.inner := by
    rw [← List.map_reverse, List.reverse_reverse, List.map_map]
    conv_rhs => rw [← List.map_id keys.inner]
    exact List.map_congr_left fun key _ => layers.symm_undoKey_undoKey key
  rw [undo, undo]
  simp only [neg_neg, inner]

/-- What is undone can be run again. -/
theorem run_symm_run (keys : RoundKeys S) (s : S) :
    layers.run keys (layers.symm.run (layers.undo keys) s) = s := by
  have back := layers.symm.symm_run_undo (layers.undo keys) s
  rwa [symm_undo_undo] at back

end Layers

end GPush.Crypt
