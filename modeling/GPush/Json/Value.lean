import GPush.LoopBuf.Frame
import Mathlib.Data.List.TakeWhile

/-!
# JSON values

The part of `Json::Value` that reads and builds documents.  An access that the class
asserts against answers `none`.
-/

namespace GPush.Json

open GPush.LoopBuf

/-- `Json::Value`.  A string is kept as a C string; the elements of an array that were
never set are `null`. -/
inductive Value
  | null
  | int (n : Int)
  | uint (n : Nat)
  | real (bits : UInt64)
  | string (chars : Bytes)
  | bool (b : Bool)
  | array (elements : List Value)
  | object (members : List (String × Value))

/-- A string up to its first zero byte. -/
def cString (s : Bytes) : Bytes := s.takeWhile (· ≠ 0)

/-- A member set, at its place or behind the others. -/
def putMember (key : String) (x : Value) : List (String × Value) → List (String × Value)
  | [] => [(key, x)]
  | (k, y) :: members =>
      if k = key then (k, x) :: members else (k, y) :: putMember key x members

/-- A member with the same name is replaced where it is. -/
theorem putMember_append {key : String} {x y : Value} {front : List (String × Value)}
    (absent : key ∉ front.map Prod.fst) (back : List (String × Value)) :
    putMember key x (front ++ (key, y) :: back) = front ++ (key, x) :: back := by
  induction front with
  | nil => exact if_pos rfl
  | cons member front ih =>
      rw [List.map_cons, List.mem_cons, not_or] at absent
      rw [List.cons_append, putMember, if_neg (Ne.symm absent.1), ih absent.2, List.cons_append]

/-- A new member comes last. -/
theorem putMember_of_absent {key : String} {x : Value} {members : List (String × Value)}
    (absent : key ∉ members.map Prod.fst) : putMember key x members = members ++ [(key, x)] := by
  induction members with
  | nil => rfl
  | cons member members ih =>
      rw [List.map_cons, List.mem_cons, not_or] at absent
      rw [putMember, if_neg (Ne.symm absent.1), ih absent.2, List.cons_append]

namespace Value

/-- `Value(const std::string&)`. -/
def ofString (s : Bytes) : Value := .string (cString s)

/-- `isNull`. -/
def isNull : Value → Bool
  | null => true
  | _ => false

/-- `isArray`, which a null value is as well. -/
def isArray : Value → Bool
  | null => true
  | array _ => true
  | _ => false

/-- `isObject`, which a null value is as well. -/
def isObject : Value → Bool
  | null => true
  | object _ => true
  | _ => false

/-- `asInt` where `isInt` holds. -/
def asInt? : Value → Option Int
  | int n => some n
  | _ => none

/-- `isString`. -/
def isString : Value → Bool
  | string _ => true
  | _ => false

/-- `asInt`; `realToInt` is the conversion of a `double` in the range of `Int`. -/
def asInt (realToInt : UInt64 → Option Int) : Value → Option Int
  | null => some 0
  | int n => some n
  | uint n => if n < 2147483647 then some n else none
  | real bits => realToInt bits
  | bool b => some (if b then 1 else 0)
  | _ => none

/-- `"true"` and `"false"`. -/
def boolText (b : Bool) : Bytes := if b then [116, 114, 117, 101] else [102, 97, 108, 115, 101]

/-- `asString`. -/
def asString : Value → Option Bytes
  | null => some []
  | string chars => some chars
  | bool b => some (boolText b)
  | _ => none

/-- `size`. -/
def size : Value → Nat
  | array elements => elements.length
  | object members => members.length
  | _ => 0

/-- `operator[](const char*) const`. -/
def get (key : String) : Value → Option Value
  | null => some null
  | object members => some ((members.lookup key).getD null)
  | _ => none

/-- `operator[](UInt) const`. -/
def index (i : Nat) : Value → Option Value
  | null => some null
  | array elements => some (elements[i]?.getD null)
  | _ => none

/-- `f` applied to the reference that `operator[](const char*)` gives. -/
def modifyMember (key : String) (f : Value → Option Value) : Value → Option Value
  | null => do return object [(key, ← f null)]
  | object members => do
      let x ← f ((members.lookup key).getD null)
      return object (putMember key x members)
  | _ => none

/-- `f` applied to the reference that `operator[](UInt)` gives. -/
def modifyIndex (i : Nat) (f : Value → Option Value) : Value → Option Value
  | null => do return array (List.replicate i null ++ [← f null])
  | array elements => do
      let x ← f (elements[i]?.getD null)
      return array ((elements ++ List.replicate (i + 1 - elements.length) null).set i x)
  | _ => none

/-- An assignment to a member. -/
def setMember (v : Value) (key : String) (x : Value) : Option Value :=
  v.modifyMember key fun _ => some x

theorem lookup_append_of_absent {key : String} {front : List (String × Value)}
    (absent : key ∉ front.map Prod.fst) (back : List (String × Value)) :
    (front ++ back).lookup key = back.lookup key := by
  induction front with
  | nil => rfl
  | cons member front ih =>
      rw [List.map_cons, List.mem_cons, not_or] at absent
      rw [List.cons_append, List.lookup_cons, beq_false_of_ne absent.1]
      exact ih absent.2

theorem setMember_of_absent {key : String} {x : Value} {members : List (String × Value)}
    (absent : key ∉ members.map Prod.fst) :
    (object members).setMember key x = some (object (members ++ [(key, x)])) := by
  simp only [setMember, modifyMember, Option.pure_def, Option.bind_eq_bind, Option.bind_some,
    putMember_of_absent absent]

/-- An index behind the last element appends one. -/
theorem modifyIndex_length {ys : List Value} {f : Value → Option Value} {x : Value}
    (isNew : f null = some x) :
    modifyIndex ys.length f (array ys) = some (array (ys ++ [x])) := by
  simp [modifyIndex, isNew]

/-- Setting the elements of an array one after the other, through a member. -/
theorem foldlM_modifyIndex {α : Type*} {f : α → Value → Option Value} {x : α → Value}
    (isNew : ∀ a, f a null = some (x a)) {key : String} {members : List (String × Value)}
    (absent : key ∉ members.map Prod.fst) (as : List α) (ys : List Value) :
    (as.zipIdx ys.length).foldlM
        (fun v (entry : α × Nat) => v.modifyMember key (modifyIndex entry.2 (f entry.1)))
        (object (members ++ [(key, array ys)])) =
      some (object (members ++ [(key, array (ys ++ as.map x))])) := by
  induction as generalizing ys with
  | nil => simp
  | cons a as ih =>
      have found : (members ++ [(key, array ys)]).lookup key = some (array ys) := by
        rw [lookup_append_of_absent absent]
        simp
      have grows : modifyMember key (modifyIndex ys.length (f a))
          (object (members ++ [(key, array ys)])) =
          some (object (members ++ [(key, array (ys ++ [x a]))])) := by
        simp only [modifyMember, found, Option.getD_some, modifyIndex_length (isNew a),
          putMember_append absent, Option.pure_def, Option.bind_eq_bind, Option.bind_some]
      have next := ih (ys ++ [x a])
      rw [List.length_append, List.length_singleton] at next
      rw [List.zipIdx_cons, List.foldlM_cons, grows, Option.bind_eq_bind, Option.bind_some, next,
        List.map_cons, List.append_assoc, List.singleton_append]

/-- The same, from the first element on. -/
theorem foldlM_modifyIndex_of_absent {α : Type*} {f : α → Value → Option Value} {x : α → Value}
    (isNew : ∀ a, f a null = some (x a)) {key : String} {members : List (String × Value)}
    (absent : key ∉ members.map Prod.fst) (as : List α) :
    as.zipIdx.foldlM
        (fun v (entry : α × Nat) => v.modifyMember key (modifyIndex entry.2 (f entry.1)))
        (object members) =
      some (object (members ++ if as = [] then [] else [(key, array (as.map x))])) := by
  cases as with
  | nil => simp
  | cons a as =>
      have missing : members.lookup key = none := by
        have looked := lookup_append_of_absent absent []
        rwa [List.append_nil] at looked
      have starts : modifyMember key (modifyIndex 0 (f a)) (object members) =
          some (object (members ++ [(key, array [x a])])) := by
        simp only [modifyMember, missing, Option.getD_none, modifyIndex, isNew,
          putMember_of_absent absent, List.replicate_zero, List.nil_append, Option.pure_def,
          Option.bind_eq_bind, Option.bind_some]
      have rest := foldlM_modifyIndex isNew absent as [x a]
      rw [List.length_singleton] at rest
      rw [List.zipIdx_cons, List.foldlM_cons, starts, Option.bind_eq_bind, Option.bind_some, rest,
        List.singleton_append, if_neg (List.cons_ne_nil a as), List.map_cons]

/-- Reading the first elements of an array by their index, behind others. -/
theorem foldlM_index_append {β : Type} (g : β → Value → Option β) (front rest : List Value)
    {n : Nat} (inside : n ≤ rest.length) (acc : β) :
    (List.range' front.length n).foldlM
        (fun acc i => do g acc (← (array (front ++ rest)).index i)) acc =
      (rest.take n).foldlM g acc := by
  induction n generalizing front rest acc with
  | zero => rfl
  | succ n ih =>
      cases rest with
      | nil => exact absurd inside (Nat.not_succ_le_zero n)
      | cons x rest =>
          have next := ih (front ++ [x]) rest (Nat.le_of_succ_le_succ inside)
          rw [List.length_append, List.length_singleton, List.append_assoc,
            List.singleton_append] at next
          rw [List.range'_succ, List.foldlM_cons, List.take_succ_cons, List.foldlM_cons]
          simp only [index, List.getElem?_append_right (Nat.le_refl _), Nat.sub_self,
            List.getElem?_cons_zero, Option.getD_some, Option.bind_eq_bind, Option.bind_some]
          apply Option.bind_congr
          intro acc' _
          exact next acc'

/-- Reading the first elements of an array by their index. -/
theorem foldlM_index {β : Type} (g : β → Value → Option β) (elements : List Value) {n : Nat}
    (inside : n ≤ elements.length) (acc : β) :
    (List.range n).foldlM (fun acc i => do g acc (← (array elements).index i)) acc =
      (elements.take n).foldlM g acc := by
  rw [List.range_eq_range']
  exact foldlM_index_append g [] elements inside acc

theorem isNull_iff {v : Value} : v.isNull = true ↔ v = null := by
  cases v <;> simp [isNull]

/-- A C string is the whole string when no byte of that is zero. -/
theorem cString_eq_self_iff {s : Bytes} : cString s = s ↔ 0 ∉ s := by
  rw [cString, List.takeWhile_eq_self_iff]
  constructor
  · intro nonzero zero
    exact absurd (nonzero 0 zero) (by decide)
  · intro noZero c member
    apply decide_eq_true
    rintro rfl
    exact noZero member

end Value

end GPush.Json
