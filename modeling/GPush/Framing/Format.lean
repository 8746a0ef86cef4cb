import Mathlib.Data.List.Basic

/-!
# Length-prefixed streams

A format looks at the front of a stream and finds that it is incomplete, that it
is invalid, or that a packet of some length starts it.  More input changes only
the first of these answers, and a packet is recognised once it is there.  Then
parsing a stream does not depend on the pieces in which it arrives.
-/

namespace GPush.Framing

universe u

/-- What the front of a stream says. -/
inductive Verdict
  | incomplete
  | invalid
  | frame (len : Nat)
  deriving DecidableEq, Repr

/-- A format of packets over `α`. -/
structure Format (α : Type u) where
  header : List α → Verdict
  frame_bounds : ∀ {q : List α} {n : Nat}, header q = .frame n → 0 < n ∧ n ≤ q.length
  frame_append : ∀ {q : List α} {n : Nat} (c : List α),
    header q = .frame n → header (q ++ c) = .frame n
  frame_of_append : ∀ {q c : List α} {n : Nat},
    header (q ++ c) = .frame n → n ≤ q.length → header q = .frame n
  invalid_append : ∀ {q : List α} (c : List α), header q = .invalid → header (q ++ c) = .invalid

/-- The packets at the front of a stream, what is behind them, and whether it
starts with an invalid header. -/
structure Parse (α : Type u) where
  packets : List (List α)
  rest : List α
  invalid : Bool
  deriving DecidableEq, Repr

namespace Format

variable {α : Type u} (format : Format α)

/-- Parsing within a number of packets. -/
def parseLoop : Nat → List α → Parse α
  | 0, q => ⟨[], q, false⟩
  | rounds + 1, q =>
      match format.header q with
      | .incomplete => ⟨[], q, false⟩
      | .invalid => ⟨[], q, true⟩
      | .frame n =>
          let later := parseLoop rounds (q.drop n)
          ⟨q.take n :: later.packets, later.rest, later.invalid⟩

/-- Parsing a stream; every packet takes an element of it. -/
def parse (q : List α) : Parse α := format.parseLoop (q.length + 1) q

variable {format}

/-- More rounds than the stream has elements change nothing. -/
private theorem parseLoop_congr (q : List α) {m n : Nat} (enoughM : q.length < m)
    (enoughN : q.length < n) : format.parseLoop m q = format.parseLoop n q := by
  induction m generalizing q n with
  | zero => omega
  | succ m ih =>
      obtain ⟨n, rfl⟩ := Nat.exists_eq_succ_of_ne_zero (Nat.ne_zero_of_lt enoughN)
      rw [parseLoop, parseLoop]
      cases headerEq : format.header q with
      | incomplete => rfl
      | invalid => rfl
      | frame len =>
          obtain ⟨positive, inside⟩ := format.frame_bounds headerEq
          have shorter : (q.drop len).length < q.length := by
            rw [List.length_drop]
            omega
          have sameLater : format.parseLoop m (q.drop len) = format.parseLoop n (q.drop len) :=
            ih (q.drop len) (by omega) (by omega)
          simp only [sameLater]

/-! ## One packet at a time -/

theorem parse_incomplete {q : List α} (headerEq : format.header q = .incomplete) :
    format.parse q = ⟨[], q, false⟩ := by
  rw [parse, parseLoop, headerEq]

theorem parse_invalid {q : List α} (headerEq : format.header q = .invalid) :
    format.parse q = ⟨[], q, true⟩ := by
  rw [parse, parseLoop, headerEq]

theorem parse_frame {q : List α} {n : Nat} (headerEq : format.header q = .frame n) :
    format.parse q = ⟨q.take n :: (format.parse (q.drop n)).packets,
      (format.parse (q.drop n)).rest, (format.parse (q.drop n)).invalid⟩ := by
  obtain ⟨positive, inside⟩ := format.frame_bounds headerEq
  have shorter : (q.drop n).length < q.length := by
    rw [List.length_drop]
    omega
  have same : format.parseLoop q.length (q.drop n) = format.parse (q.drop n) :=
    parseLoop_congr _ shorter (Nat.lt_succ_self _)
  rw [parse, parseLoop, headerEq]
  simp only [same]

/-- The induction rule over the packets of a stream. -/
theorem induction {motive : List α → Prop}
    (incomplete : ∀ q, format.header q = .incomplete → motive q)
    (invalid : ∀ q, format.header q = .invalid → motive q)
    (frame : ∀ q n, format.header q = .frame n → motive (q.drop n) → motive q) (q : List α) :
    motive q := by
  induction lengthEq : q.length using Nat.strongRecOn generalizing q with
  | ind length ih =>
      cases headerEq : format.header q with
      | incomplete => exact incomplete q headerEq
      | invalid => exact invalid q headerEq
      | frame n =>
          obtain ⟨positive, inside⟩ := format.frame_bounds headerEq
          have shorter : (q.drop n).length < length := by
            rw [List.length_drop]
            omega
          exact frame q n headerEq (ih _ shorter _ rfl)

/-! ## More input -/

/-- A valid stream is parsed on from what is behind its packets. -/
theorem parse_append (q c : List α) (valid : (format.parse q).invalid = false) :
    format.parse (q ++ c) =
      ⟨(format.parse q).packets ++ (format.parse ((format.parse q).rest ++ c)).packets,
        (format.parse ((format.parse q).rest ++ c)).rest,
        (format.parse ((format.parse q).rest ++ c)).invalid⟩ := by
  induction q using format.induction with
  | incomplete q headerEq =>
      rw [parse_incomplete headerEq]
      rfl
  | invalid q headerEq =>
      rw [parse_invalid headerEq] at valid
      exact absurd valid Bool.noConfusion
  | frame q n headerEq ih =>
      obtain ⟨positive, inside⟩ := format.frame_bounds headerEq
      rw [parse_frame headerEq] at valid ⊢
      rw [parse_frame (format.frame_append c headerEq), List.take_append_of_le_length inside,
        List.drop_append_of_le_length inside, ih valid]
      rfl

/-- An invalid header ends the parse, whatever follows. -/
theorem parse_append_of_invalid (q c : List α) (invalid : (format.parse q).invalid = true) :
    (format.parse (q ++ c)).packets = (format.parse q).packets ∧
      (format.parse (q ++ c)).invalid = true := by
  induction q using format.induction with
  | incomplete q headerEq =>
      rw [parse_incomplete headerEq] at invalid
      exact absurd invalid Bool.noConfusion
  | invalid q headerEq =>
      rw [parse_invalid (format.invalid_append c headerEq), parse_invalid headerEq]
      exact ⟨rfl, rfl⟩
  | frame q n headerEq ih =>
      obtain ⟨positive, inside⟩ := format.frame_bounds headerEq
      rw [parse_frame headerEq] at invalid ⊢
      rw [parse_frame (format.frame_append c headerEq), List.take_append_of_le_length inside,
        List.drop_append_of_le_length inside]
      obtain ⟨packetsEq, stays⟩ := ih invalid
      exact ⟨congrArg (q.take n :: ·) packetsEq, stays⟩

/-- Parsing what is left over finds nothing new. -/
theorem parse_rest (q : List α) (valid : (format.parse q).invalid = false) :
    format.parse (format.parse q).rest = ⟨[], (format.parse q).rest, false⟩ := by
  induction q using format.induction with
  | incomplete q headerEq =>
      rw [parse_incomplete headerEq]
      exact parse_incomplete headerEq
  | invalid q headerEq =>
      rw [parse_invalid headerEq] at valid
      exact absurd valid Bool.noConfusion
  | frame q n headerEq ih =>
      rw [parse_frame headerEq] at valid ⊢
      exact ih valid

/-- The packets and the rest make up the stream. -/
theorem flatten_parse (q : List α) :
    (format.parse q).packets.flatten ++ (format.parse q).rest = q := by
  induction q using format.induction with
  | incomplete q headerEq => rw [parse_incomplete headerEq]; rfl
  | invalid q headerEq => rw [parse_invalid headerEq]; rfl
  | frame q n headerEq ih =>
      rw [parse_frame headerEq, List.flatten_cons, List.append_assoc, ih, List.take_append_drop]

/-- More input adds packets exactly when the packets do not end before it. -/
theorem packets_append_iff (q c : List α) :
    (format.parse (q ++ c)).packets = (format.parse q).packets ↔
      (format.parse (q ++ c)).packets.flatten.length ≤ q.length := by
  have split := congrArg List.length (format.flatten_parse q)
  rw [List.length_append] at split
  constructor
  · intro same
    rw [same]
    omega
  · intro within
    by_cases invalid : (format.parse q).invalid = true
    · exact (parse_append_of_invalid q c invalid).1
    · have valid : (format.parse q).invalid = false := Bool.not_eq_true _ ▸ invalid
      have left := parse_rest q valid
      rw [parse_append q c valid] at within ⊢
      simp only [List.flatten_append, List.length_append] at within ⊢
      -- a further packet would end within what the first parse had left over
      cases headerEq : format.header ((format.parse q).rest ++ c) with
      | incomplete => rw [parse_incomplete headerEq, List.append_nil]
      | invalid => rw [parse_invalid headerEq, List.append_nil]
      | frame n =>
          obtain ⟨positive, inside⟩ := format.frame_bounds headerEq
          rw [parse_frame headerEq, List.flatten_cons, List.length_append, List.length_take]
            at within
          have alone := format.frame_of_append headerEq (by omega)
          rw [parse_frame alone] at left
          exact absurd (congrArg Parse.packets left) (List.cons_ne_nil _ _)

end Format

end GPush.Framing
