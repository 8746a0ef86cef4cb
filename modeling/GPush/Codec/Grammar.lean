import GPush.Codec.Buffer

/-!
# The grammar of base64

A text is a sequence of groups of four characters of the alphabet, the last of which may
end with one or two characters of padding.  A group stands for 24 bits, and a padded group
for the first two bytes or the first byte of them.  A decoder reads the longest prefix that
is a text.
-/

namespace GPush.Codec

/-- The alphabet: the six bits that a character stands for. -/
def sextet (p : UInt8) : Option Nat :=
  let n := p.toNat
  if 65 ≤ n ∧ n ≤ 90 then
    some (n - 65)
  else if 97 ≤ n ∧ n ≤ 122 then
    some (n - 97 + 26)
  else if 48 ≤ n ∧ n ≤ 57 then
    some (n - 48 + 52)
  else if n = 43 then
    some 62
  else if n = 47 then
    some 63
  else
    none

/-- The three bytes of a group. -/
def groupBytes (a b c d : Nat) : Bytes :=
  let n := a * 2 ^ 18 + b * 2 ^ 12 + c * 2 ^ 6 + d
  [UInt8.ofNat (n / 2 ^ 16), UInt8.ofNat (n / 2 ^ 8 % 2 ^ 8), UInt8.ofNat (n % 2 ^ 8)]

/-- A text and the bytes it stands for. -/
inductive StandsFor : Bytes → Bytes → Prop
  | nil : StandsFor [] []
  | group {p0 p1 p2 p3 : UInt8} {a b c d : Nat} {text bytes : Bytes} : sextet p0 = some a →
      sextet p1 = some b → sextet p2 = some c → sextet p3 = some d → StandsFor text bytes →
      StandsFor (p0 :: p1 :: p2 :: p3 :: text) (groupBytes a b c d ++ bytes)
  | padOne {p0 p1 p2 : UInt8} {a b c : Nat} : sextet p0 = some a → sextet p1 = some b →
      sextet p2 = some c → StandsFor [p0, p1, p2, pad] ((groupBytes a b c 0).take 2)
  | padTwo {p0 p1 : UInt8} {a b : Nat} : sextet p0 = some a → sextet p1 = some b →
      StandsFor [p0, p1, pad, pad] ((groupBytes a b 0 0).take 1)

/-- `bytes` is what the longest prefix of `s` that is a text stands for. -/
def LongestPrefix (s bytes : Bytes) : Prop :=
  ∃ text, text <+: s ∧ StandsFor text bytes ∧
    ∀ text' bytes', text' <+: s → StandsFor text' bytes' → text'.length ≤ text.length

/-! ## The alphabet -/

theorem sextet_pad : sextet pad = none := by
  decide

/-- The table has the six bits of every character of the alphabet, and -1 for the others. -/
theorem reverse64_eq (p : UInt8) : reverse64 p = (sextet p).elim (-1) fun n => (n : Int) := by
  revert p
  apply forall_uInt8
  decide +kernel

theorem sextet_lt {p : UInt8} {a : Nat} (found : sextet p = some a) : a < 64 := by
  simp only [sextet] at found
  split_ifs at found <;>
    · cases found
      omega

theorem reverse64_of_some {p : UInt8} {a : Nat} (found : sextet p = some a) : reverse64 p = a := by
  rw [reverse64_eq, found]
  rfl

theorem reverse64_of_none {p : UInt8} (missing : sextet p = none) : reverse64 p = -1 := by
  rw [reverse64_eq, missing]
  rfl

/-- A number that is too large has the character `A`. -/
theorem sextet_char64 (i : UInt8) : (sextet (char64 i)).isSome = true := by
  by_cases small : i.toNat < 64
  · have code := (reverse64_char64 small).1
    cases found : sextet (char64 i) with
    | none =>
        rw [reverse64_of_none found] at code
        omega
    | some a => rfl
  · have default : char64 i = 65 := by
      rw [char64, List.getD_eq_getElem?_getD, List.getElem?_eq_none (Nat.not_lt.mp small)]
      rfl
    rw [default]
    rfl

/-- What the loop stores for a group. -/
theorem stored_eq {a b c d : Nat} (second : b < 64) (third : c < 64) (fourth : d < 64) :
    stored a b c d = groupBytes a b c d := by
  obtain ⟨byte0, byte1, byte2⟩ := toByte_sextets (p := a) (s := d) second third
  rw [stored, byte0, byte1, byte2]
  simp only [groupBytes, List.cons.injEq, and_true]
  refine ⟨?_, ?_, ?_⟩
  all_goals
    congr 1
    omega

/-! ## What the encoder writes -/

/-- Characters of the alphabet, and at the end what a last group of one or two bytes lacks. -/
theorem base64Encode_chars : ∀ s : Bytes, ∃ body : Bytes,
    base64Encode s = body ++ List.replicate ((s.length + 2) / 3 * 3 - s.length) pad ∧
      ∀ p ∈ body, (sextet p).isSome = true
  | a :: b :: c :: rest => by
      obtain ⟨body, restEq, inAlphabet⟩ := base64Encode_chars rest
      have same : ((a :: b :: c :: rest).length + 2) / 3 * 3 - (a :: b :: c :: rest).length =
          (rest.length + 2) / 3 * 3 - rest.length := by
        simp only [List.length_cons]
        omega
      refine ⟨char64 ((a &&& 0xFC) >>> 2) :: char64 (((a &&& 0x03) <<< 4) + ((b &&& 0xF0) >>> 4)) ::
        char64 (((b &&& 0x0F) <<< 2) + ((c &&& 0xC0) >>> 6)) :: char64 (c &&& 0x3F) :: body, ?_, ?_⟩
      · rw [base64Encode, restEq, same]
        simp
      · simpa [sextet_char64] using inAlphabet
  | [a, b] => ⟨[char64 (a >>> 2), char64 (((a &&& 0x03) <<< 4) + (b >>> 4)),
      char64 ((b &&& 0x0F) <<< 2)], by simp [base64Encode], by simp [sextet_char64]⟩
  | [a] => ⟨[char64 (a >>> 2), char64 ((a &&& 0x03) <<< 4)], by simp [base64Encode],
      by simp [sextet_char64]⟩
  | [] => ⟨[], rfl, by simp⟩

/-- What is encoded is decoded again, and it has the length and the characters of base64. -/
theorem base64_decodes_encoded (s : Bytes) (small : s.length < 2 ^ 28) :
    ∃ encoded, Buffer.base64Encode s = some encoded ∧ Buffer.base64Decode encoded = some s ∧
      encoded.length = 4 * ((s.length + 2) / 3) ∧
      ∃ body k, encoded = body ++ List.replicate k pad ∧ k ≤ 2 ∧
        ∀ p ∈ body, (sextet p).isSome = true := by
  have lengthEq := length_base64Encode s
  have decoded := Buffer.base64Decode_eq (s := base64Encode s) (by omega)
  obtain ⟨body, charsEq, inAlphabet⟩ := base64Encode_chars s
  refine ⟨base64Encode s, Buffer.base64Encode_eq small, ?_, by omega,
    body, _, charsEq, by omega, inAlphabet⟩
  rw [decoded, base64Decode_base64Encode]

/-- Two bytes. -/
theorem base64_decodes_encoded_two :
    ∃ encoded, Buffer.base64Encode [77, 97] = some encoded ∧
      Buffer.base64Decode encoded = some [77, 97] ∧
      encoded.length = 4 * ((([77, 97] : Bytes).length + 2) / 3) ∧
      ∃ body k, encoded = body ++ List.replicate k pad ∧ k ≤ 2 ∧
        ∀ p ∈ body, (sextet p).isSome = true :=
  base64_decodes_encoded [77, 97] (by decide)

/-- No group of the alphabet, with padding or without, begins with these characters. -/
def Stops (p0 p1 p2 p3 : UInt8) : Prop :=
  sextet p0 = none ∨ sextet p1 = none ∨
    p2 ≠ pad ∧ (sextet p2 = none ∨ p3 ≠ pad ∧ sextet p3 = none)

/-! ## Texts -/

/-- How a text begins that is a prefix of four characters and others. -/
inductive Begins (p0 p1 p2 p3 : UInt8) (rest : Bytes) : Bytes → Bytes → Prop
  | nil : Begins p0 p1 p2 p3 rest [] []
  | group {a b c d : Nat} {text bytes : Bytes} : sextet p0 = some a → sextet p1 = some b →
      sextet p2 = some c → sextet p3 = some d → text <+: rest → StandsFor text bytes →
      Begins p0 p1 p2 p3 rest (p0 :: p1 :: p2 :: p3 :: text) (groupBytes a b c d ++ bytes)
  | padOne {a b c : Nat} : sextet p0 = some a → sextet p1 = some b → sextet p2 = some c →
      p3 = pad → Begins p0 p1 p2 p3 rest [p0, p1, p2, pad] ((groupBytes a b c 0).take 2)
  | padTwo {a b : Nat} : sextet p0 = some a → sextet p1 = some b → p2 = pad → p3 = pad →
      Begins p0 p1 p2 p3 rest [p0, p1, pad, pad] ((groupBytes a b 0 0).take 1)

theorem StandsFor.begins {p0 p1 p2 p3 : UInt8} {rest text bytes : Bytes}
    (stands : StandsFor text bytes) (front : text <+: p0 :: p1 :: p2 :: p3 :: rest) :
    Begins p0 p1 p2 p3 rest text bytes := by
  cases stands with
  | nil => exact .nil
  | group first second third fourth later =>
      simp only [List.cons_prefix_cons] at front
      obtain ⟨rfl, rfl, rfl, rfl, front⟩ := front
      exact .group first second third fourth front later
  | padOne first second third =>
      simp only [List.cons_prefix_cons] at front
      obtain ⟨rfl, rfl, rfl, fourth, -⟩ := front
      exact .padOne first second third fourth.symm
  | padTwo first second =>
      simp only [List.cons_prefix_cons] at front
      obtain ⟨rfl, rfl, third, fourth, -⟩ := front
      exact .padTwo first second third.symm fourth.symm

/-- Where all other texts that begin `s` are shorter than one of them, this one is read. -/
theorem longestPrefix_iff {s text bytes bytes' : Bytes} (front : text <+: s)
    (stands : StandsFor text bytes)
    (shorter : ∀ text' bytes', text' <+: s → StandsFor text' bytes' →
      text' = text ∧ bytes' = bytes ∨ text'.length < text.length) :
    LongestPrefix s bytes' ↔ bytes' = bytes := by
  constructor
  · rintro ⟨text', front', stands', longest⟩
    rcases shorter text' bytes' front' stands' with ⟨-, same⟩ | less
    · exact same
    · exact absurd less (Nat.not_lt.mpr (longest text bytes front stands))
  · rintro rfl
    refine ⟨text, front, stands, ?_⟩
    intro text' bytes'' front' stands'
    rcases shorter text' bytes'' front' stands' with ⟨rfl, -⟩ | less
    · exact Nat.le_refl _
    · exact Nat.le_of_lt less

section Group

variable {p0 p1 p2 p3 : UInt8} {a b c d : Nat} {rest bytes : Bytes}

theorem longestPrefix_group (first : sextet p0 = some a) (second : sextet p1 = some b)
    (third : sextet p2 = some c) (fourth : sextet p3 = some d) :
    LongestPrefix (p0 :: p1 :: p2 :: p3 :: rest) (groupBytes a b c d ++ bytes) ↔
      LongestPrefix rest bytes := by
  constructor
  · rintro ⟨text, front, stands, longest⟩
    have one := longest [p0, p1, p2, p3] _ (by simp) (.group first second third fourth .nil)
    generalize bytesEq : groupBytes a b c d ++ bytes = all at stands
    cases stands.begins front with
    | nil => simp at one
    | padOne _ _ _ fourth' => simp [fourth', sextet_pad] at fourth
    | padTwo _ _ third' => simp [third', sextet_pad] at third
    | @group _ _ _ _ text bytes' first' second' third' fourth' front' stands' =>
        obtain rfl := Option.some.inj (first.symm.trans first')
        obtain rfl := Option.some.inj (second.symm.trans second')
        obtain rfl := Option.some.inj (third.symm.trans third')
        obtain rfl := Option.some.inj (fourth.symm.trans fourth')
        obtain rfl := List.append_cancel_left bytesEq
        refine ⟨text, front', stands', ?_⟩
        intro text' bytes' front'' stands''
        have bound := longest (p0 :: p1 :: p2 :: p3 :: text') _ (by simpa using front'')
          (.group first second third fourth stands'')
        simpa using bound
  · rintro ⟨text, front, stands, longest⟩
    refine ⟨p0 :: p1 :: p2 :: p3 :: text, by simpa using front,
      .group first second third fourth stands, ?_⟩
    intro text' bytes' front' stands'
    cases stands'.begins front' with
    | nil => exact Nat.zero_le _
    | padOne | padTwo => simp
    | group _ _ _ _ front'' stands'' => simpa using longest _ _ front'' stands''

theorem longestPrefix_padOne (first : sextet p0 = some a) (second : sextet p1 = some b)
    (third : sextet p2 = some c) :
    LongestPrefix (p0 :: p1 :: p2 :: pad :: rest) bytes ↔ bytes = (groupBytes a b c 0).take 2 := by
  have front : [p0, p1, p2, pad] <+: p0 :: p1 :: p2 :: pad :: rest := by simp
  apply longestPrefix_iff front (.padOne first second third)
  intro text' bytes' front stands
  cases stands.begins front with
  | nil => exact Or.inr (Nat.zero_lt_succ _)
  | group _ _ _ fourth => simp [sextet_pad] at fourth
  | padTwo _ _ third' => simp [third', sextet_pad] at third
  | padOne first' second' third' =>
      obtain rfl := Option.some.inj (first.symm.trans first')
      obtain rfl := Option.some.inj (second.symm.trans second')
      obtain rfl := Option.some.inj (third.symm.trans third')
      exact Or.inl ⟨rfl, rfl⟩

theorem longestPrefix_padTwo (first : sextet p0 = some a) (second : sextet p1 = some b) :
    LongestPrefix (p0 :: p1 :: pad :: pad :: rest) bytes ↔
      bytes = (groupBytes a b 0 0).take 1 := by
  have front : [p0, p1, pad, pad] <+: p0 :: p1 :: pad :: pad :: rest := by simp
  apply longestPrefix_iff front (.padTwo first second)
  intro text' bytes' front stands
  cases stands.begins front with
  | nil => exact Or.inr (Nat.zero_lt_succ _)
  | group _ _ third => simp [sextet_pad] at third
  | padOne _ _ third => simp [sextet_pad] at third
  | padTwo first' second' =>
      obtain rfl := Option.some.inj (first.symm.trans first')
      obtain rfl := Option.some.inj (second.symm.trans second')
      exact Or.inl ⟨rfl, rfl⟩

theorem longestPrefix_stops (stops : Stops p0 p1 p2 p3) :
    LongestPrefix (p0 :: p1 :: p2 :: p3 :: rest) bytes ↔ bytes = [] := by
  apply longestPrefix_iff List.nil_prefix .nil
  intro text' bytes' front stands
  rcases stops with none | none | ⟨notPad, none | ⟨notPad', none⟩⟩
  all_goals cases stands.begins front with
    | nil => exact Or.inl ⟨rfl, rfl⟩
    | group | padOne | padTwo => simp_all

/-- A third character of padding needs a fourth. -/
theorem longestPrefix_halfPadded (notPad : p3 ≠ pad) :
    LongestPrefix (p0 :: p1 :: pad :: p3 :: rest) bytes ↔ bytes = [] := by
  apply longestPrefix_iff List.nil_prefix .nil
  intro text' bytes' front stands
  cases stands.begins front with
  | nil => exact Or.inl ⟨rfl, rfl⟩
  | group _ _ third => simp [sextet_pad] at third
  | padOne _ _ third => simp [sextet_pad] at third
  | padTwo _ _ _ fourth => exact absurd fourth notPad

theorem longestPrefix_short {s : Bytes} (short : s.length < 4) :
    LongestPrefix s bytes ↔ bytes = [] := by
  apply longestPrefix_iff List.nil_prefix .nil
  intro text' bytes' front stands
  have bound := front.length_le
  cases stands with
  | nil => exact Or.inl ⟨rfl, rfl⟩
  | group | padOne | padTwo =>
      simp only [List.length_cons] at bound
      omega

end Group

/-! ## What the loop reads -/

theorem short_or_group (s : Bytes) :
    s.length < 4 ∨ ∃ p0 p1 p2 p3 rest, s = p0 :: p1 :: p2 :: p3 :: rest := by
  match s with
  | [] | [_] | [_, _] | [_, _, _] => simp
  | p0 :: p1 :: p2 :: p3 :: rest => exact Or.inr ⟨p0, p1, p2, p3, rest, rfl⟩

/-- What has been decoded before stays. -/
theorem decodeLoop_front : ∀ rest front out : Bytes, ∀ pandcnt ≤ 2, pandcnt ≤ out.length →
    decodeLoop pandcnt (front ++ out) rest = front ++ decodeLoop pandcnt out rest
  | p0 :: p1 :: p2 :: p3 :: rest, front, out, pandcnt, cut, few => by
      by_cases decodes : Decodes pandcnt p0 p1 p2 p3
      · have cut' := cutAfter_le cut p2 p3
        rw [decodeLoop_of_decodes decodes, decodeLoop_of_decodes decodes, List.append_assoc]
        apply decodeLoop_front rest front _ _ cut'
        rw [List.length_append, length_stored]
        omega
      · rw [decodeLoop_of_not_decodes decodes, decodeLoop_of_not_decodes decodes]
  | [_, _, _], front, out, pandcnt, _, few | [_, _], front, out, pandcnt, _, few
  | [_], front, out, pandcnt, _, few | [], front, out, pandcnt, _, few => by
      rw [decodeLoop_of_length_lt (by simp), decodeLoop_of_length_lt (by simp),
        List.length_append, Nat.add_sub_assoc few, List.take_length_add_append]

/-- No more than the padding is lost. -/
theorem length_decodeLoop : ∀ rest out : Bytes, ∀ pandcnt ≤ 2,
    out.length ≤ (decodeLoop pandcnt out rest).length + 2
  | p0 :: p1 :: p2 :: p3 :: rest, out, pandcnt, cut => by
      by_cases decodes : Decodes pandcnt p0 p1 p2 p3
      · have later := length_decodeLoop rest (out ++ stored (reverse64 p0).toNat
          (reverse64 p1).toNat (if p2 = pad then 0 else (reverse64 p2).toNat)
          (if cutAfter pandcnt p2 p3 = 0 then (reverse64 p3).toNat else 0)) _
          (cutAfter_le cut p2 p3)
        rw [List.length_append, length_stored] at later
        rw [decodeLoop_of_decodes decodes]
        omega
      · rw [decodeLoop_of_not_decodes decodes]
        omega
  | [_, _, _], out, pandcnt, cut | [_, _], out, pandcnt, cut | [_], out, pandcnt, cut
  | [], out, pandcnt, cut => by
      rw [decodeLoop_of_length_lt (by simp), List.length_take]
      omega

/-- With another group nothing is lost. -/
theorem length_decodeLoop_group {pandcnt : Nat} (cut : pandcnt ≤ 2) (out : Bytes)
    {rest : Bytes} (more : 4 ≤ rest.length) :
    out.length ≤ (decodeLoop pandcnt out rest).length := by
  obtain short | ⟨p0, p1, p2, p3, rest, rfl⟩ := short_or_group rest
  · exact absurd more (Nat.not_le.mpr short)
  · by_cases decodes : Decodes pandcnt p0 p1 p2 p3
    · rw [decodeLoop_of_decodes decodes]
      have later := length_decodeLoop rest (out ++ stored (reverse64 p0).toNat
        (reverse64 p1).toNat (if p2 = pad then 0 else (reverse64 p2).toNat)
        (if cutAfter pandcnt p2 p3 = 0 then (reverse64 p3).toNat else 0)) _
        (cutAfter_le cut p2 p3)
      rw [List.length_append, length_stored] at later
      omega
    · exact Nat.le_of_eq (congrArg List.length (decodeLoop_of_not_decodes decodes).symm)

section Decode

variable {p0 p1 p2 p3 : UInt8} {a b c d : Nat} {rest : Bytes}

theorem base64Decode_group (first : sextet p0 = some a) (second : sextet p1 = some b)
    (third : sextet p2 = some c) (fourth : sextet p3 = some d) :
    base64Decode (p0 :: p1 :: p2 :: p3 :: rest) = groupBytes a b c d ++ base64Decode rest := by
  have thirdPad : p2 ≠ pad := by
    rintro rfl
    simp [sextet_pad] at third
  have fourthPad : p3 ≠ pad := by
    rintro rfl
    simp [sextet_pad] at fourth
  have decodes : Decodes 0 p0 p1 p2 p3 := by
    simp [Decodes, reverse64_of_some first, reverse64_of_some second, reverse64_of_some third,
      reverse64_of_some fourth]
  have front := decodeLoop_front rest (groupBytes a b c d) [] 0 (Nat.zero_le _) (Nat.zero_le _)
  rw [base64Decode, decodeLoop_of_decodes decodes]
  simp only [cutAfter, thirdPad, fourthPad, if_false, and_false, if_true, List.nil_append,
    reverse64_of_some first, reverse64_of_some second, reverse64_of_some third,
    reverse64_of_some fourth, Int.toNat_natCast]
  rw [stored_eq (sextet_lt second) (sextet_lt third) (sextet_lt fourth)]
  simpa [base64Decode] using front

theorem base64Decode_padOne (first : sextet p0 = some a) (second : sextet p1 = some b)
    (third : sextet p2 = some c) :
    base64Decode (p0 :: p1 :: p2 :: pad :: rest) = decodeLoop 1 (groupBytes a b c 0) rest := by
  have thirdPad : p2 ≠ pad := by
    rintro rfl
    simp [sextet_pad] at third
  have decodes : Decodes 0 p0 p1 p2 pad := by
    simp [Decodes, reverse64_of_some first, reverse64_of_some second, reverse64_of_some third]
  rw [base64Decode, decodeLoop_of_decodes decodes]
  simp only [cutAfter, thirdPad, if_false, and_self, if_true, List.nil_append, Nat.one_ne_zero,
    reverse64_of_some first, reverse64_of_some second, reverse64_of_some third, Int.toNat_natCast]
  rw [stored_eq (sextet_lt second) (sextet_lt third) (by decide)]

theorem base64Decode_padTwo (first : sextet p0 = some a) (second : sextet p1 = some b) :
    base64Decode (p0 :: p1 :: pad :: p3 :: rest) = decodeLoop 2 (groupBytes a b 0 0) rest := by
  have decodes : Decodes 0 p0 p1 pad p3 := by
    simp [Decodes, reverse64_of_some first, reverse64_of_some second]
  rw [base64Decode, decodeLoop_of_decodes decodes]
  simp only [cutAfter, if_true, List.nil_append, Nat.succ_ne_zero, if_false,
    reverse64_of_some first, reverse64_of_some second, Int.toNat_natCast]
  rw [stored_eq (sextet_lt second) (by decide) (by decide)]

theorem base64Decode_stops (stops : Stops p0 p1 p2 p3) :
    base64Decode (p0 :: p1 :: p2 :: p3 :: rest) = [] := by
  apply decodeLoop_of_not_decodes
  rintro ⟨first, second, third, fourth⟩
  rcases stops with none | none | ⟨notPad, none | ⟨notPad', none⟩⟩
  · simp [reverse64_of_none none] at first
  · simp [reverse64_of_none none] at second
  · simp [reverse64_of_none none, notPad] at third
  · simp [reverse64_of_none none, notPad, notPad'] at fourth

end Decode

/-- After a padded group the loop ends as it should when no other group follows. -/
theorem decodeLoop_eq_take_iff {pandcnt : Nat} (padded : 0 < pandcnt) (cut : pandcnt ≤ 2)
    (a b c d : Nat) (rest : Bytes) :
    decodeLoop pandcnt (groupBytes a b c d) rest = (groupBytes a b c d).take (3 - pandcnt) ↔
      rest.length < 4 := by
  have three : (groupBytes a b c d).length = 3 := rfl
  constructor
  · intro same
    by_contra more
    have longer := length_decodeLoop_group cut (groupBytes a b c d) (Nat.not_lt.mp more)
    rw [same, List.length_take] at longer
    omega
  · intro short
    rw [decodeLoop_of_length_lt short, three]

/-- Nothing that can be read follows padding: the first group that ends with padding behind
characters of the alphabet ends with one or two characters of it, and less than a group
follows.  What stands behind a group with another character does not matter. -/
def PaddedLast : Bytes → Prop
  | p0 :: p1 :: p2 :: p3 :: rest =>
      sextet p0 ≠ none → sextet p1 ≠ none →
        if p2 = pad then
          p3 = pad ∧ rest.length < 4
        else
          sextet p2 ≠ none →
            if p3 = pad then rest.length < 4 else sextet p3 ≠ none → PaddedLast rest
  | _ => True

theorem paddedLast_stops {p0 p1 p2 p3 : UInt8} (stops : Stops p0 p1 p2 p3) (rest : Bytes) :
    PaddedLast (p0 :: p1 :: p2 :: p3 :: rest) := by
  rw [PaddedLast]
  intro first second
  rcases stops with none | none | ⟨notPad, stops⟩
  · exact absurd none first
  · exact absurd none second
  · rw [if_neg notPad]
    intro third
    rcases stops with none | ⟨notPad', none⟩
    · exact absurd none third
    · rw [if_neg notPad']
      exact fun fourth => absurd none fourth

/-- On lists the decoder reads the longest prefix that is a text exactly when nothing follows
padding. -/
theorem longestPrefix_base64Decode_iff : ∀ s : Bytes,
    LongestPrefix s (base64Decode s) ↔ PaddedLast s
  | p0 :: p1 :: p2 :: p3 :: rest => by
      by_cases stops : Stops p0 p1 p2 p3
      · rw [base64Decode_stops stops, longestPrefix_stops stops]
        exact iff_of_true rfl (paddedLast_stops stops rest)
      simp only [Stops, not_or, not_and] at stops
      obtain ⟨firstIs, secondIs, others⟩ := stops
      obtain ⟨a, first⟩ := Option.ne_none_iff_exists'.mp firstIs
      obtain ⟨b, second⟩ := Option.ne_none_iff_exists'.mp secondIs
      rw [PaddedLast, imp_iff_right firstIs, imp_iff_right secondIs]
      by_cases thirdPad : p2 = pad
      · subst thirdPad
        rw [base64Decode_padTwo first second, if_pos rfl]
        by_cases fourthPad : p3 = pad
        · subst fourthPad
          rw [longestPrefix_padTwo first second, and_iff_right rfl]
          exact decodeLoop_eq_take_iff Nat.two_pos (Nat.le_refl _) a b 0 0 rest
        · -- The code decodes a byte, and the group is none.
          have read : 3 ≤ (decodeLoop 2 (groupBytes a b 0 0) rest).length + 2 :=
            length_decodeLoop rest (groupBytes a b 0 0) 2 (Nat.le_refl _)
          rw [longestPrefix_halfPadded fourthPad]
          apply iff_of_false
          · intro nothing
            rw [nothing] at read
            exact absurd read (by decide)
          · exact fun both => fourthPad both.1
      · obtain ⟨thirdIs, fourthIs⟩ := others thirdPad
        obtain ⟨c, third⟩ := Option.ne_none_iff_exists'.mp thirdIs
        rw [if_neg thirdPad, imp_iff_right thirdIs]
        by_cases fourthPad : p3 = pad
        · subst fourthPad
          rw [base64Decode_padOne first second third, longestPrefix_padOne first second third,
            if_pos rfl]
          exact decodeLoop_eq_take_iff Nat.one_pos (by decide) a b c 0 rest
        · obtain ⟨d, fourth⟩ := Option.ne_none_iff_exists'.mp (fourthIs fourthPad)
          rw [base64Decode_group first second third fourth,
            longestPrefix_group first second third fourth, if_neg fourthPad,
            imp_iff_right (fourthIs fourthPad)]
          exact longestPrefix_base64Decode_iff rest
  | [_, _, _] | [_, _] | [_] | [] => by
      rw [longestPrefix_short (by simp)]
      exact iff_of_true (decodeLoop_of_length_lt (by simp)) (by simp [PaddedLast])

/-- The decoder reads the longest prefix that is a text exactly when nothing that can be read
follows padding. -/
theorem reads_longestPrefix_iff (s : Bytes) (small : s.length < 2 ^ 29) :
    ∃ bytes, Buffer.base64Decode s = some bytes ∧ (LongestPrefix s bytes ↔ PaddedLast s) :=
  ⟨base64Decode s, Buffer.base64Decode_eq (by omega), longestPrefix_base64Decode_iff s⟩

/-- A padded group at the end. -/
theorem reads_longestPrefix_iff_padded :
    ∃ bytes, Buffer.base64Decode [81, 81, 61, 61] = some bytes ∧
      (LongestPrefix [81, 81, 61, 61] bytes ↔ PaddedLast [81, 81, 61, 61]) :=
  reads_longestPrefix_iff [81, 81, 61, 61] (by decide)

/-- `QQ==QUJD` is decoded to four bytes, `QQ==????` to three and `QQ=A` to one.  The longest
texts are `QQ==`, which stands for one byte, and the empty one. -/
theorem reads_behind_padding :
    (Buffer.base64Decode [81, 81, 61, 61, 81, 85, 74, 68] = some [65, 0, 0, 65] ∧
        ¬LongestPrefix [81, 81, 61, 61, 81, 85, 74, 68] [65, 0, 0, 65]) ∧
      (Buffer.base64Decode [81, 81, 61, 61, 63, 63, 63, 63] = some [65, 0, 0] ∧
        ¬LongestPrefix [81, 81, 61, 61, 63, 63, 63, 63] [65, 0, 0]) ∧
      Buffer.base64Decode [81, 81, 61, 65] = some [65] ∧
        ¬LongestPrefix [81, 81, 61, 65] [65] := by
  have first : sextet 81 = some 16 := rfl
  refine ⟨⟨?_, ?_⟩, ⟨?_, ?_⟩, ?_, ?_⟩
  · rw [Buffer.base64Decode_eq (by decide)]
    decide
  · rw [show (61 : UInt8) = pad from rfl, longestPrefix_padTwo first first]
    decide
  · rw [Buffer.base64Decode_eq (by decide)]
    decide
  · rw [show (61 : UInt8) = pad from rfl, longestPrefix_padTwo first first]
    decide
  · rw [Buffer.base64Decode_eq (by decide)]
    decide
  · rw [show (61 : UInt8) = pad from rfl, longestPrefix_halfPadded (by decide)]
    decide

end GPush.Codec
