import GPush.Json.Value

/-!
# Strings in texts

A string is written between quotes, with escapes where it cannot stand as it is.  The reader
looks for the end of the string first, and then undoes the escapes.
-/

namespace GPush.Json

open GPush.LoopBuf

/-- The character `"`. -/
def quote : UInt8 := 34

/-- The character `\`. -/
def backslash : UInt8 := 92

/-! ## Writing -/

/-- `isControlCharacter`.  Bytes from 128 on are negative characters. -/
def isControlCharacter (ch : UInt8) : Bool := decide (0 < ch) && decide (ch ≤ 0x1f)

/-- `containsControlCharacter`. -/
def containsControlCharacter (str : Bytes) : Bool := str.any isControlCharacter

/-- A hexadecimal digit with `std::uppercase`. -/
def upperHex (d : Nat) : UInt8 := UInt8.ofNat (if d ≤ 9 then 48 + d else 55 + d)

/-- `std::hex` with four digits. -/
def fourDigits (n : Nat) : Bytes :=
  [upperHex (n / 4096 % 16), upperHex (n / 256 % 16), upperHex (n / 16 % 16), upperHex (n % 16)]

/-- The escape of a number of 16 bits. -/
def unicodeEscape (n : Nat) : Bytes := backslash :: 117 :: fourDigits n

/-- What the loop of `valueToQuotedString` appends for a character. -/
def escaped (c : UInt8) : Bytes :=
  if c = quote then [backslash, quote]
  else if c = backslash then [backslash, backslash]
  else if c = 8 then [backslash, 98]
  else if c = 12 then [backslash, 102]
  else if c = 10 then [backslash, 110]
  else if c = 13 then [backslash, 114]
  else if c = 9 then [backslash, 116]
  else if isControlCharacter c then unicodeEscape c.toNat
  else [c]

/-- The characters that `strpbrk` looks for. -/
def special : Bytes := [quote, backslash, 8, 12, 10, 13, 9]

/-- `valueToQuotedString`. -/
def valueToQuotedString (value : Bytes) : Bytes :=
  let chars := cString value
  if !chars.any special.contains && !containsControlCharacter chars then
    quote :: (chars ++ [quote])
  else
    quote :: (chars.flatMap escaped ++ [quote])

example : valueToQuotedString [97, 10, 1, 34] =
    [34, 97, 92, 110, 92, 117, 48, 48, 48, 49, 92, 34, 34] := by
  decide

/-! ## Reading -/

/-- `getNextChar`, and what follows the character. -/
def getNextChar : Bytes → UInt8 × Bytes
  | [] => (0, [])
  | c :: rest => (c, rest)

/-- The position never goes back. -/
theorem length_getNextChar_le (current : Bytes) :
    (getNextChar current).2.length ≤ current.length := by
  cases current with
  | nil => exact Nat.le_refl 0
  | cons c rest => exact Nat.le_succ rest.length

/-- The loop of `readString`, with the last character. -/
def readStringLoop (c : UInt8) (current : Bytes) : Bool × Bytes :=
  match current with
  | [] => (c == quote, [])
  | c :: rest =>
      if c = backslash then
        readStringLoop c (getNextChar rest).2
      else if c = quote then
        (c == quote, rest)
      else
        readStringLoop c rest
  termination_by current.length
  decreasing_by
    · exact Nat.lt_succ_of_le (length_getNextChar_le rest)
    · exact Nat.lt_succ_self rest.length

/-- `readString`: whether the string ends, and what follows. -/
def readString (current : Bytes) : Bool × Bytes := readStringLoop 0 current

/-- `readToken` at a quote: whether the string ends, the token, and what follows. -/
def stringToken (current : Bytes) : Bool × Bytes × Bytes :=
  let (ok, rest) := readString (getNextChar current).2
  (ok, current.take (current.length - rest.length), rest)

/-- The value of a digit in `decodeUnicodeEscapeSequence`. -/
def digitValue (c : UInt8) : Option UInt32 :=
  if 48 ≤ c ∧ c ≤ 57 then
    some (c.toUInt32 - 48)
  else if 97 ≤ c ∧ c ≤ 102 then
    some (c.toUInt32 - 97 + 10)
  else if 65 ≤ c ∧ c ≤ 70 then
    some (c.toUInt32 - 65 + 10)
  else
    none

/-- The loop of `decodeUnicodeEscapeSequence` with `n` digits to go. -/
def digitLoop : Nat → UInt32 → Bytes → Except String (UInt32 × Bytes)
  | 0, unicode, current => .ok (unicode, current)
  | n + 1, unicode, current =>
      match digitValue (getNextChar current).1 with
      | none =>
          .error "Bad unicode escape sequence in string: hexadecimal digit expected."
      | some d => digitLoop n (unicode * 16 + d) (getNextChar current).2

/-- `decodeUnicodeEscapeSequence`. -/
def decodeUnicodeEscapeSequence (current : Bytes) : Except String (UInt32 × Bytes) :=
  if current.length < 4 then
    .error "Bad unicode escape sequence in string: four digits expected."
  else
    digitLoop 4 0 current

/-- `decodeUnicodeCodePoint`. -/
def decodeUnicodeCodePoint (current : Bytes) : Except String (UInt32 × Bytes) :=
  match decodeUnicodeEscapeSequence current with
  | .error message => .error message
  | .ok (unicode, current) =>
      if 0xd800 ≤ unicode ∧ unicode ≤ 0xdbff then
        if current.length < 6 then
          .error "additional six characters expected to parse unicode surrogate pair."
        else if (getNextChar current).1 = backslash ∧
            (getNextChar (getNextChar current).2).1 = 117 then
          match decodeUnicodeEscapeSequence (current.drop 2) with
          | .error message => .error message
          | .ok (surrogatePair, current) =>
              .ok ((0x10000 : UInt32) + ((unicode &&& 0x3ff) <<< 10) + (surrogatePair &&& 0x3ff),
                current)
        else
          .error
            "expecting another \\u token to begin the second half of a unicode surrogate pair"
      else
        .ok (unicode, current)

/-- `codePointToUTF8`. -/
def codePointToUTF8 (cp : UInt32) : Bytes :=
  let part (mask shift : UInt32) : UInt32 := mask &&& (cp >>> shift)
  let last : UInt32 := (0x3f : UInt32) &&& cp
  if cp ≤ 0x7f then
    [cp.toUInt8]
  else if cp ≤ 0x7ff then
    [(0xc0 ||| part 0x1f 6).toUInt8, (0x80 ||| last).toUInt8]
  else if cp ≤ 0xffff then
    [0xe0 ||| (part 0xf 12).toUInt8, 0x80 ||| (part 0x3f 6).toUInt8, (0x80 ||| last).toUInt8]
  else if cp ≤ 0x10ffff then
    [(0xf0 ||| part 0x7 18).toUInt8, (0x80 ||| part 0x3f 12).toUInt8,
      (0x80 ||| part 0x3f 6).toUInt8, (0x80 ||| last).toUInt8]
  else
    []

theorem length_digitLoop_le {n : Nat} {unicode result : UInt32} {current rest : Bytes}
    (done : digitLoop n unicode current = .ok (result, rest)) : rest.length ≤ current.length := by
  induction n generalizing unicode current with
  | zero =>
      cases done
      exact Nat.le_refl _
  | succ n ih =>
      rw [digitLoop] at done
      split at done
      · cases done
      · exact Nat.le_trans (ih done) (length_getNextChar_le current)

theorem length_decodeUnicodeEscapeSequence_le {current rest : Bytes} {result : UInt32}
    (done : decodeUnicodeEscapeSequence current = .ok (result, rest)) :
    rest.length ≤ current.length := by
  rw [decodeUnicodeEscapeSequence] at done
  split at done
  · cases done
  · exact length_digitLoop_le done

theorem length_decodeUnicodeCodePoint_le {current rest : Bytes} {result : UInt32}
    (done : decodeUnicodeCodePoint current = .ok (result, rest)) :
    rest.length ≤ current.length := by
  rw [decodeUnicodeCodePoint] at done
  split at done
  · cases done
  · next unicode middle first =>
      have firstLe := length_decodeUnicodeEscapeSequence_le first
      split at done
      · split at done
        · cases done
        · split at done
          · split at done
            · cases done
            · next second =>
                have secondLe := length_decodeUnicodeEscapeSequence_le second
                rw [List.length_drop] at secondLe
                cases done
                omega
          · cases done
      · cases done
        exact firstLe

/-- What an escape of one character stands for. -/
def simpleEscape (escape : UInt8) : Option UInt8 :=
  if escape = quote then some quote
  else if escape = 47 then some 47
  else if escape = backslash then some backslash
  else if escape = 98 then some 8
  else if escape = 102 then some 12
  else if escape = 110 then some 10
  else if escape = 114 then some 13
  else if escape = 116 then some 9
  else none

/-- The loop of `decodeString`, between the quotes. -/
def decodeLoop (decoded current : Bytes) : Except String Bytes :=
  match current with
  | [] => .ok decoded
  | c :: current =>
      if c = quote then
        .ok decoded
      else if c = backslash then
        match current with
        | [] => .error "Empty escape sequence in string"
        | escape :: current =>
            match simpleEscape escape with
            | some char => decodeLoop (decoded ++ [char]) current
            | none =>
                if escape = 117 then
                  match _ : decodeUnicodeCodePoint current with
                  | .error message => .error message
                  | .ok (unicode, rest) => decodeLoop (decoded ++ codePointToUTF8 unicode) rest
                else
                  .error "Bad escape sequence in string"
      else
        decodeLoop (decoded ++ [c]) current
  termination_by current.length
  decreasing_by
    · exact Nat.lt_succ_of_lt (Nat.lt_succ_self _)
    · exact Nat.lt_succ_of_lt (Nat.lt_succ_of_le (length_decodeUnicodeCodePoint_le ‹_›))
    · exact Nat.lt_succ_self _

/-- `decodeString` of a token with its quotes. -/
def decodeString (token : Bytes) : Except String Bytes := decodeLoop [] (token.drop 1).dropLast

/-! ## The end of a string -/

/-- What `readString` passes over. -/
inductive Scanned : Bytes → Prop
  | nil : Scanned []
  | plain {c : UInt8} {body : Bytes} : c ≠ quote → c ≠ backslash → Scanned body →
      Scanned (c :: body)
  | escape {c : UInt8} {body : Bytes} : Scanned body → Scanned (backslash :: c :: body)

/-- What the reader passes over may be put together. -/
theorem Scanned.append {front back : Bytes} (first : Scanned front) (second : Scanned back) :
    Scanned (front ++ back) := by
  induction first with
  | nil => exact second
  | plain notQuote notBackslash _ ih => exact .plain notQuote notBackslash ih
  | escape _ ih => exact .escape ih

theorem scanned_flatMap {α : Type} {f : α → Bytes} {l : List α}
    (each : ∀ a ∈ l, Scanned (f a)) : Scanned (l.flatMap f) := by
  induction l with
  | nil => exact .nil
  | cons a l ih =>
      rw [List.forall_mem_cons] at each
      exact each.1.append (ih each.2)

/-- The reader passes over the characters up to the quote. -/
theorem readStringLoop_of_scanned {body : Bytes} (scanned : Scanned body) (c : UInt8)
    (rest : Bytes) : readStringLoop c (body ++ quote :: rest) = (true, rest) := by
  induction scanned generalizing c with
  | nil =>
      rw [List.nil_append, readStringLoop, if_neg (by decide), if_pos rfl]
      rfl
  | plain notQuote notBackslash _ ih =>
      rw [List.cons_append, readStringLoop, if_neg notBackslash, if_neg notQuote]
      exact ih _
  | escape _ ih =>
      rw [List.cons_append, List.cons_append, readStringLoop, if_pos rfl]
      exact ih _

/-- A quoted string is one token, whatever follows. -/
theorem stringToken_of_scanned {body : Bytes} (scanned : Scanned body) (rest : Bytes) :
    stringToken (quote :: (body ++ [quote]) ++ rest) =
      (true, quote :: (body ++ [quote]), rest) := by
  have text : body ++ [quote] ++ rest = body ++ quote :: rest := by
    rw [List.append_assoc, List.singleton_append]
  have read : readString (getNextChar (quote :: (body ++ [quote]) ++ rest)).2 = (true, rest) := by
    rw [List.cons_append, getNextChar, text]
    exact readStringLoop_of_scanned scanned 0 rest
  have length : (quote :: (body ++ [quote]) ++ rest).length - rest.length =
      (quote :: (body ++ [quote])).length := by
    rw [List.length_append, Nat.add_sub_cancel]
  rw [stringToken, read]
  simp only [length, List.take_left]

/-! ## Digits -/

/-- The digits that are written are read with their values. -/
theorem digitValue_upperHex {d : Nat} (isDigit : d < 16) :
    digitValue (upperHex d) = some (UInt32.ofNat d) := by
  revert d
  decide

theorem upperHex_plain {d : Nat} (isDigit : d < 16) :
    upperHex d ≠ quote ∧ upperHex d ≠ backslash := by
  revert d
  decide

theorem scanned_unicodeEscape (n : Nat) : Scanned (unicodeEscape n) := by
  have digit : ∀ {m : Nat} {body : Bytes}, Scanned body →
      Scanned (upperHex (m % 16) :: body) := by
    intro m body scanned
    have plain := upperHex_plain (Nat.mod_lt m (by decide : 0 < 16))
    exact .plain plain.1 plain.2 scanned
  exact .escape (digit (digit (digit (digit .nil))))

/-- Four digits give their number. -/
theorem decodeUnicodeEscapeSequence_fourDigits {n : Nat} (small : n < 65536) (current : Bytes) :
    decodeUnicodeEscapeSequence (fourDigits n ++ current) = .ok (UInt32.ofNat n, current) := by
  have value : (((0 * 16 + UInt32.ofNat (n / 4096 % 16)) * 16 + UInt32.ofNat (n / 256 % 16)) * 16 +
      UInt32.ofNat (n / 16 % 16)) * 16 + UInt32.ofNat (n % 16) = UInt32.ofNat n := by
    apply UInt32.toNat_inj.mp
    simp only [UInt32.toNat_add, UInt32.toNat_mul, UInt32.toNat_ofNat', UInt32.reduceToNat]
    omega
  have digit : ∀ m, digitValue (upperHex (m % 16)) = some (UInt32.ofNat (m % 16)) := fun m =>
    digitValue_upperHex (Nat.mod_lt m (by decide))
  rw [decodeUnicodeEscapeSequence, if_neg (by simp [fourDigits])]
  simp only [fourDigits, List.cons_append, List.nil_append, digitLoop, getNextChar, digit, value]

/-- A number that is no high surrogate stands for itself. -/
theorem decodeUnicodeCodePoint_fourDigits {n : Nat} (small : n < 65536)
    (notHigh : n < 0xd800 ∨ 0xdbff < n) (current : Bytes) :
    decodeUnicodeCodePoint (fourDigits n ++ current) = .ok (UInt32.ofNat n, current) := by
  have notSurrogate : ¬(0xd800 ≤ UInt32.ofNat n ∧ UInt32.ofNat n ≤ 0xdbff) := by
    rw [UInt32.le_iff_toNat_le, UInt32.le_iff_toNat_le, UInt32.toNat_ofNat',
      Nat.mod_eq_of_lt (by omega)]
    simp only [UInt32.reduceToNat]
    omega
  rw [decodeUnicodeCodePoint, decodeUnicodeEscapeSequence_fourDigits small]
  simp only
  rw [if_neg notSurrogate]

theorem and_low (n high : Nat) {low : Nat} (small : low < 1024)
    (isSum : n = high * 1024 + low) (below : n < 4294967296) :
    (UInt32.ofNat n &&& 0x3ff) = UInt32.ofNat low := by
  apply UInt32.toNat_inj.mp
  rw [UInt32.toNat_and, UInt32.toNat_ofNat', UInt32.toNat_ofNat', Nat.mod_eq_of_lt below,
    Nat.mod_eq_of_lt (by omega)]
  exact (Nat.and_two_pow_sub_one_eq_mod n 10).trans (by omega)

/-- Two escapes that stand for one character. -/
theorem decodeUnicodeCodePoint_pair {high low : Nat} (smallHigh : high < 1024)
    (smallLow : low < 1024) (current : Bytes) :
    decodeUnicodeCodePoint
        (fourDigits (0xd800 + high) ++ (unicodeEscape (0xdc00 + low) ++ current)) =
      .ok (UInt32.ofNat (0x10000 + high * 1024 + low), current) := by
  have isSurrogate : 0xd800 ≤ UInt32.ofNat (0xd800 + high) ∧
      UInt32.ofNat (0xd800 + high) ≤ 0xdbff := by
    rw [UInt32.le_iff_toNat_le, UInt32.le_iff_toNat_le, UInt32.toNat_ofNat',
      Nat.mod_eq_of_lt (by omega)]
    simp only [UInt32.reduceToNat]
    omega
  have value : (0x10000 : UInt32) + ((UInt32.ofNat (0xd800 + high) &&& 0x3ff) <<< 10) +
      (UInt32.ofNat (0xdc00 + low) &&& 0x3ff) = UInt32.ofNat (0x10000 + high * 1024 + low) := by
    rw [and_low _ 54 smallHigh (by omega) (by omega), and_low _ 55 smallLow (by omega) (by omega)]
    apply UInt32.toNat_inj.mp
    simp only [UInt32.toNat_add, UInt32.toNat_shiftLeft, UInt32.toNat_ofNat', UInt32.reduceToNat,
      Nat.shiftLeft_eq, Nat.reduceMod, Nat.reducePow]
    omega
  have second : (unicodeEscape (0xdc00 + low) ++ current).drop 2 =
      fourDigits (0xdc00 + low) ++ current := rfl
  have long : ¬(unicodeEscape (0xdc00 + low) ++ current).length < 6 := by
    simp [unicodeEscape, fourDigits]
  rw [decodeUnicodeCodePoint, decodeUnicodeEscapeSequence_fourDigits (by omega)]
  simp only
  rw [if_pos isSurrogate, if_neg long, if_pos ⟨rfl, rfl⟩, second,
    decodeUnicodeEscapeSequence_fourDigits (by omega)]
  simp only [value]

/-- The four branches of `codePointToUTF8` are those of UTF-8. -/
theorem codePointToUTF8_char (c : Char) : codePointToUTF8 c.val = String.utf8EncodeChar c := by
  have below : c.val ≤ 0x10ffff := by
    rw [UInt32.le_iff_toNat_le]
    have valid := c.valid
    simp only [UInt32.isValidChar, Nat.isValidChar] at valid
    simp only [UInt32.reduceToNat]
    omega
  rw [String.utf8EncodeChar_eq_utf8EncodeCharFast, codePointToUTF8, String.utf8EncodeCharFast,
    if_pos below]
  simp only [UInt32.toUInt8_or, UInt32.toUInt8_and, UInt32.toUInt8_ofNat]
  simp only [UInt8.or_comm, UInt8.and_comm]

/-! ## The escapes undone -/

/-- A character that is not special stands for itself. -/
theorem decodeLoop_plain {c : UInt8} (notQuote : c ≠ quote) (notBackslash : c ≠ backslash)
    (decoded current : Bytes) :
    decodeLoop decoded (c :: current) = decodeLoop (decoded ++ [c]) current := by
  rw [decodeLoop.eq_def]
  simp only
  rw [if_neg notQuote, if_neg notBackslash]

theorem decodeLoop_simple {escape char : UInt8} (simple : simpleEscape escape = some char)
    (decoded current : Bytes) :
    decodeLoop decoded (backslash :: escape :: current) =
      decodeLoop (decoded ++ [char]) current := by
  rw [decodeLoop.eq_def]
  simp only
  rw [if_neg (by decide), if_pos trivial]
  simp only [simple]

/-- An escape with digits gives the UTF-8 of its character. -/
theorem decodeLoop_unicode {current rest : Bytes} {unicode : UInt32}
    (done : decodeUnicodeCodePoint current = .ok (unicode, rest)) (decoded : Bytes) :
    decodeLoop decoded (backslash :: 117 :: current) =
      decodeLoop (decoded ++ codePointToUTF8 unicode) rest := by
  have notSimple : simpleEscape 117 = none := by decide
  rw [decodeLoop.eq_def]
  simp only
  rw [if_neg (by decide), if_pos trivial]
  simp only [notSimple, if_true]
  split
  · next failed => rw [done] at failed; cases failed
  · next same =>
      rw [done] at same
      cases same
      rfl

/-- What was put together piece by piece is decoded piece by piece. -/
theorem decodeLoop_flatMap {α : Type} {f g : α → Bytes} {l : List α}
    (each : ∀ a ∈ l, ∀ decoded current,
      decodeLoop decoded (f a ++ current) = decodeLoop (decoded ++ g a) current) (decoded : Bytes) :
    decodeLoop decoded (l.flatMap f) = .ok (decoded ++ l.flatMap g) := by
  induction l generalizing decoded with
  | nil => rw [List.flatMap_nil, List.flatMap_nil, List.append_nil, decodeLoop.eq_def]
  | cons a l ih =>
      rw [List.forall_mem_cons] at each
      rw [List.flatMap_cons, List.flatMap_cons, each.1, ih each.2, List.append_assoc]

theorem decodeString_quoted (body : Bytes) :
    decodeString (quote :: (body ++ [quote])) = decodeLoop [] body := by
  rw [decodeString, List.drop_one, List.tail_cons, List.dropLast_concat]

theorem codePointToUTF8_control {c : UInt8} (isControl : isControlCharacter c) :
    codePointToUTF8 (UInt32.ofNat c.toNat) = [c] := by
  have small : c.toNat ≤ 0x1f := by
    rw [isControlCharacter, Bool.and_eq_true, decide_eq_true_eq, decide_eq_true_eq,
      UInt8.le_iff_toNat_le] at isControl
    exact isControl.2
  have ascii : UInt32.ofNat c.toNat ≤ 0x7f := by
    rw [UInt32.le_iff_toNat_le, UInt32.toNat_ofNat', Nat.mod_eq_of_lt (by omega)]
    exact Nat.le_trans small (by decide)
  rw [codePointToUTF8, if_pos ascii, List.singleton_inj]
  apply UInt8.toNat_inj.mp
  rw [UInt32.toNat_toUInt8, UInt32.toNat_ofNat', Nat.mod_eq_of_lt (by omega),
    Nat.mod_eq_of_lt (by omega)]

/-- A character is written with a backslash, as a number, or as it is. -/
theorem escaped_cases (c : UInt8) :
    (∃ escape, escaped c = [backslash, escape] ∧ simpleEscape escape = some c) ∨
    (isControlCharacter c ∧ escaped c = unicodeEscape c.toNat) ∨
    (c ≠ quote ∧ c ≠ backslash ∧ escaped c = [c]) := by
  rw [escaped]
  split_ifs with isQuote isBackslash isB isF isN isR isT isControl
  · exact .inl ⟨quote, rfl, by rw [isQuote]; rfl⟩
  · exact .inl ⟨backslash, rfl, by rw [isBackslash]; rfl⟩
  · exact .inl ⟨98, rfl, isB ▸ rfl⟩
  · exact .inl ⟨102, rfl, isF ▸ rfl⟩
  · exact .inl ⟨110, rfl, isN ▸ rfl⟩
  · exact .inl ⟨114, rfl, isR ▸ rfl⟩
  · exact .inl ⟨116, rfl, isT ▸ rfl⟩
  · exact .inr (.inl ⟨isControl, rfl⟩)
  · exact .inr (.inr ⟨isQuote, isBackslash, rfl⟩)

theorem scanned_escaped (c : UInt8) : Scanned (escaped c) := by
  rcases escaped_cases c with ⟨escape, text, -⟩ | ⟨-, text⟩ | ⟨notQuote, notBackslash, text⟩
  · exact text ▸ .escape .nil
  · exact text ▸ scanned_unicodeEscape c.toNat
  · exact text ▸ .plain notQuote notBackslash .nil

/-- Each escape that is written is read as the byte it was written for. -/
theorem decodeLoop_escaped (c : UInt8) (decoded current : Bytes) :
    decodeLoop decoded (escaped c ++ current) = decodeLoop (decoded ++ [c]) current := by
  rcases escaped_cases c with ⟨escape, text, simple⟩ | ⟨isControl, text⟩ |
    ⟨notQuote, notBackslash, text⟩
  · rw [text]
    exact decodeLoop_simple simple decoded current
  · have small := c.toNat_lt
    have done := decodeUnicodeCodePoint_fourDigits (n := c.toNat) (by omega) (Or.inl (by omega))
      current
    rw [text]
    exact (decodeLoop_unicode done decoded).trans (by rw [codePointToUTF8_control isControl])
  · rw [text]
    exact decodeLoop_plain notQuote notBackslash decoded current

/-- A written string is read to its end, whatever follows, and decoded to what was written. -/
theorem stringToken_valueToQuotedString (value rest : Bytes) :
    stringToken (valueToQuotedString value ++ rest) = (true, valueToQuotedString value, rest) ∧
      decodeString (valueToQuotedString value) = .ok (cString value) := by
  rw [valueToQuotedString]
  split_ifs with asItIs
  · rw [Bool.and_eq_true, Bool.not_eq_true', List.any_eq_false] at asItIs
    have plain : ∀ c ∈ cString value, c ≠ quote ∧ c ≠ backslash := fun c mem =>
      ⟨fun same => asItIs.1 c mem (same ▸ by decide),
        fun same => asItIs.1 c mem (same ▸ by decide)⟩
    have scanned : Scanned ((cString value).flatMap ([·])) :=
      scanned_flatMap fun c mem => .plain (plain c mem).1 (plain c mem).2 .nil
    have decoded := decodeLoop_flatMap (f := ([·])) (g := ([·])) (l := cString value)
      (fun c mem decoded current =>
        decodeLoop_plain (plain c mem).1 (plain c mem).2 decoded current) []
    rw [List.flatMap_singleton'] at scanned decoded
    exact ⟨stringToken_of_scanned scanned rest, (decodeString_quoted _).trans decoded⟩
  · have scanned : Scanned ((cString value).flatMap escaped) :=
      scanned_flatMap fun c _ => scanned_escaped c
    have decoded := decodeLoop_flatMap (f := escaped) (g := ([·])) (l := cString value)
      (fun c _ => decodeLoop_escaped c) []
    rw [List.flatMap_singleton'] at decoded
    exact ⟨stringToken_of_scanned scanned rest, (decodeString_quoted _).trans decoded⟩

/-! ## Characters as escapes -/

/-- The escapes of a character: its code in 16 bits, or two surrogates. -/
def utf16Escapes (c : Char) : Bytes :=
  if c.toNat < 0x10000 then
    unicodeEscape c.toNat
  else
    unicodeEscape (0xd800 + (c.toNat - 0x10000) / 1024) ++
      unicodeEscape (0xdc00 + (c.toNat - 0x10000) % 1024)

theorem scanned_utf16Escapes (c : Char) : Scanned (utf16Escapes c) := by
  rw [utf16Escapes]
  split_ifs
  · exact scanned_unicodeEscape _
  · exact (scanned_unicodeEscape _).append (scanned_unicodeEscape _)

/-- A pair of surrogates is put together. -/
theorem decodeUnicodeCodePoint_utf16Escapes (c : Char) (current : Bytes) :
    decodeUnicodeCodePoint ((utf16Escapes c).drop 2 ++ current) = .ok (c.val, current) := by
  have valid := c.valid
  have code : UInt32.ofNat c.toNat = c.val := UInt32.ofNat_toNat
  simp only [UInt32.isValidChar, Nat.isValidChar] at valid
  have isCode : c.toNat = c.val.toNat := rfl
  rw [utf16Escapes]
  split_ifs with small
  · exact (decodeUnicodeCodePoint_fourDigits small (by omega) current).trans (by rw [code])
  · have high : (c.toNat - 0x10000) / 1024 < 1024 := by omega
    have low : (c.toNat - 0x10000) % 1024 < 1024 := Nat.mod_lt _ (by decide)
    have sum : 0x10000 + (c.toNat - 0x10000) / 1024 * 1024 + (c.toNat - 0x10000) % 1024 =
        c.toNat := by omega
    exact (decodeUnicodeCodePoint_pair high low current).trans (by rw [sum, code])

theorem decodeLoop_utf16Escapes (c : Char) (decoded current : Bytes) :
    decodeLoop decoded (utf16Escapes c ++ current) =
      decodeLoop (decoded ++ String.utf8EncodeChar c) current := by
  have starts : utf16Escapes c = backslash :: 117 :: (utf16Escapes c).drop 2 := by
    rw [utf16Escapes]
    split_ifs <;> rfl
  have done := decodeUnicodeCodePoint_utf16Escapes c current
  rw [← codePointToUTF8_char, ← decodeLoop_unicode done, ← List.cons_append, ← List.cons_append,
    ← starts]

/-- Any text can be sent as escapes alone; it is decoded to its UTF-8. -/
theorem decodeString_utf16Escapes (chars : List Char) (rest : Bytes) :
    let token := quote :: (chars.flatMap utf16Escapes ++ [quote])
    stringToken (token ++ rest) = (true, token, rest) ∧
      decodeString token = .ok (chars.flatMap String.utf8EncodeChar) := by
  have decoded := decodeLoop_flatMap (l := chars)
    (fun c _ decoded current => decodeLoop_utf16Escapes c decoded current) []
  have scanned : Scanned (chars.flatMap utf16Escapes) :=
    scanned_flatMap fun c _ => scanned_utf16Escapes c
  exact ⟨stringToken_of_scanned scanned rest, (decodeString_quoted _).trans decoded⟩

end GPush.Json
