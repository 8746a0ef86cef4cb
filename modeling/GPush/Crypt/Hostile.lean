import GPush.Crypt.Token

/-!
# Input from elsewhere

A body of fewer than four bytes makes `aesDecrypt` read before its start, and one that ends
in a negative length makes it throw.  `checkToken` and `decrypt` hand such bodies on.
-/

namespace GPush.Crypt

open GPush.Codec GPush.PushServer

variable {cipher : Rijndael} {md5 : Bytes → Block}

/-- The fields of a token or of a text. -/
def fieldsOf (s : Bytes) : List Bytes :=
  split (base64Decode (s.take (wrapInt s.length).toNat))

/-- A token without a stamp and a body that can be decrypted. -/
def MalformedToken (cipher : Rijndael) (md5 : Bytes → Block) (token : Bytes) : Prop :=
  ∀ stamp body, fieldsOf token = [stamp, body] →
    ¬cipher.Accepts (md5 (rawkey ++ stamp)) (base64Decode body)

/-- A text without a stamp, a number and a body that can be decrypted. -/
def MalformedText (cipher : Rijndael) (md5 : Bytes → Block) (enctext : Bytes) : Prop :=
  ∀ stamp number body, fieldsOf enctext = [stamp, number, body] →
    ¬cipher.Accepts (md5 stamp) (base64Decode body)

/-- The size of a token is a size as an `int`, and if its body is decrypted, that can be
done. -/
def TameToken (cipher : Rijndael) (md5 : Bytes → Block) (timeout now : Int) (token : Bytes) :
    Prop :=
  -4 < wrapInt token.length ∧ ∀ stamp body, fieldsOf token = [stamp, body] →
    age now stamp ≤ timeout → cipher.Tame (md5 (rawkey ++ stamp)) (base64Decode body)

/-- The same for a text. -/
def TameText (cipher : Rijndael) (md5 : Bytes → Block) (timeout now : Int) (enctext : Bytes) :
    Prop :=
  -4 < wrapInt enctext.length ∧ ∀ stamp number body, fieldsOf enctext = [stamp, number, body] →
    age now stamp ≤ timeout → cipher.Tame (md5 stamp) (base64Decode body)

/-! ## The fields -/

theorem decode64_of_le {s : Bytes} (negative : wrapInt s.length ≤ -4) :
    decode64 s = .error .base64 := by
  rw [decode64, Buffer.base64Decode_exact, if_pos negative]
  rfl

theorem decode64_of_lt {s : Bytes} (size : -4 < wrapInt s.length) :
    decode64 s = .ok (base64Decode (s.take (wrapInt s.length).toNat)) := by
  rw [decode64, Buffer.base64Decode_exact, if_neg (Int.not_le.mpr size)]
  rfl

/-- A string of no size has no fields. -/
theorem fieldsOf_of_le {s : Bytes} (negative : wrapInt s.length ≤ -4) : fieldsOf s = [] := by
  rw [fieldsOf, Int.toNat_of_nonpos (by omega), List.take_zero]
  rfl

/-- Every field is decoded. -/
theorem decode64_field {s field : Bytes} (size : -4 < wrapInt s.length)
    (member : field ∈ fieldsOf s) : decode64 field = .ok (base64Decode field) := by
  have short := Buffer.length_base64Decode_lt
    ((Buffer.base64Decode_exact s).trans (if_neg (Int.not_le.mpr size)))
  rw [fieldsOf, split_eq_pieces] at member
  have bound := (Containers.infix_of_mem_pieces member).length_le
  rw [decode64, Buffer.base64Decode_eq (Nat.lt_of_le_of_lt bound short)]
  rfl

theorem tame_of_accepts {keyist : Block} {src : Bytes} (accepts : cipher.Accepts keyist src) :
    cipher.Tame keyist src := ⟨accepts.1, Or.inl accepts.2.1⟩

/-- What is tame but cannot be decrypted is refused. -/
theorem aesDecrypt_of_tame {src key : Bytes} (tame : cipher.Tame (md5 key) src)
    (malformed : ¬cipher.Accepts (md5 key) src) (dst : Bytes) :
    ∃ ret dst', aesDecrypt cipher md5 src key dst = .ok (ret, dst') ∧ ret < 0 := by
  obtain ⟨long, positive | rejects⟩ := tame
  · apply aesDecrypt_of_rejects long
    by_contra passes
    exact malformed ⟨long, positive, passes⟩
  · exact aesDecrypt_of_rejects long rejects dst

theorem aesDecrypt_of_not_tame {src key : Bytes} (wild : ¬cipher.Tame (md5 key) src)
    (dst : Bytes) : ∃ fault, aesDecrypt cipher md5 src key dst = .error fault := by
  by_cases long : 4 ≤ src.length
  · rw [Rijndael.Tame, not_and, not_or] at wild
    obtain ⟨negative, passes⟩ := wild long
    exact ⟨_, aesDecrypt_of_negative long passes (Int.not_le.mp negative) dst⟩
  · exact ⟨_, aesDecrypt_of_short (Nat.not_le.mp long) key dst⟩

/-- An error code. -/
def Refused {α : Type} (run : Except Fault (Int × α)) : Prop :=
  ∃ code left, run = .ok (code, left) ∧ code < 0

/-- Where everything depends on the body, a malformed one is refused exactly when it is
tame. -/
theorem refused_iff_tame {α : Type} {malformed : Prop} {key src dst : Bytes}
    {next : Int × Bytes → Except Fault (Int × α)}
    (refuses : ∀ ret dst, ret < 0 → Refused (next (ret, dst)))
    (malformedIff : malformed ↔ ¬cipher.Accepts (md5 key) src) :
    (malformed → Refused (aesDecrypt cipher md5 src key dst >>= next)) ↔
      cipher.Tame (md5 key) src := by
  constructor
  · intro refused
    by_contra wild
    obtain ⟨fault, raised⟩ := aesDecrypt_of_not_tame wild dst
    have malformed := malformedIff.mpr fun accepts => wild (tame_of_accepts accepts)
    obtain ⟨code, left, run, -⟩ := refused malformed
    rw [raised] at run
    cases run
  · intro tame malformed
    obtain ⟨ret, dst', run, negative⟩ := aesDecrypt_of_tame tame (malformedIff.mp malformed) dst
    rw [run, ok_bind]
    exact refuses ret dst' negative

/-! ## Tokens -/

section Tokens

variable {timeout now : Int} {token stamp body : Bytes} {minfo : List (Bytes × Bytes)}

theorem checkToken_of_not_two (size : -4 < wrapInt token.length)
    (other : ∀ stamp body, fieldsOf token ≠ [stamp, body]) :
    checkToken cipher md5 timeout now token minfo = .ok (autherrDecfail, minfo) := by
  rw [checkToken, decode64_of_lt size, ok_bind]
  split
  · next two => exact absurd two (other _ _)
  · rfl

theorem checkToken_of_late (size : -4 < wrapInt token.length)
    (two : fieldsOf token = [stamp, body]) (late : timeout < age now stamp) :
    checkToken cipher md5 timeout now token minfo = .ok (autherrTimeout, minfo) := by
  rw [checkToken, decode64_of_lt size, ok_bind, ← fieldsOf, two]
  exact if_pos late

theorem checkToken_of_inTime (size : -4 < wrapInt token.length)
    (two : fieldsOf token = [stamp, body]) (inTime : age now stamp ≤ timeout) :
    checkToken cipher md5 timeout now token minfo =
      aesDecrypt cipher md5 (base64Decode body) (rawkey ++ stamp) [] >>= fun (ret, rawbody) =>
        if ret < 0 then
          .ok (autherrDecfail, minfo)
        else
          .ok (autherrOk, (split rawbody).foldl (fun minfo field =>
            Containers.assign SessCache.stringLess (entry field).1 (entry field).2 minfo)
              minfo) := by
  have member : body ∈ fieldsOf token := by simp [two]
  have decoded := decode64_field size member
  rw [checkToken, decode64_of_lt size, ok_bind, ← fieldsOf, two]
  simp only
  rw [if_neg (Int.not_lt.mpr inTime), decoded, ok_bind]
  rfl

theorem malformedToken_iff (two : fieldsOf token = [stamp, body]) :
    MalformedToken cipher md5 token ↔
      ¬cipher.Accepts (md5 (rawkey ++ stamp)) (base64Decode body) := by
  constructor
  · exact fun malformed => malformed stamp body two
  · intro malformed stamp' body' two'
    rw [two] at two'
    cases two'
    exact malformed

theorem tameToken_iff (size : -4 < wrapInt token.length) (two : fieldsOf token = [stamp, body]) :
    TameToken cipher md5 timeout now token ↔
      (age now stamp ≤ timeout → cipher.Tame (md5 (rawkey ++ stamp)) (base64Decode body)) := by
  constructor
  · exact fun tame => tame.2 stamp body two
  · refine fun tame => ⟨size, fun stamp' body' two' => ?_⟩
    rw [two] at two'
    cases two'
    exact tame

/-- A malformed token gets an error code exactly when it is tame. -/
theorem refuses_checkToken_iff : (MalformedToken cipher md5 token →
    Refused (checkToken cipher md5 timeout now token minfo)) ↔
      TameToken cipher md5 timeout now token := by
  by_cases size : -4 < wrapInt token.length
  · by_cases two : ∃ stamp body, fieldsOf token = [stamp, body]
    · obtain ⟨stamp, body, two⟩ := two
      rw [tameToken_iff size two]
      by_cases inTime : age now stamp ≤ timeout
      · rw [checkToken_of_inTime size two inTime, refused_iff_tame _ (malformedToken_iff two)]
        · exact ⟨fun tame _ => tame, fun tame => tame inTime⟩
        · exact fun ret dst negative => ⟨autherrDecfail, minfo, if_pos negative, by decide⟩
      · rw [checkToken_of_late size two (Int.not_le.mp inTime)]
        exact iff_of_true (fun _ => ⟨autherrTimeout, minfo, rfl, by decide⟩) fun h => absurd h inTime
    · rw [checkToken_of_not_two size fun stamp body is => two ⟨stamp, body, is⟩]
      exact iff_of_true (fun _ => ⟨autherrDecfail, minfo, rfl, by decide⟩)
        ⟨size, fun stamp body is => absurd ⟨stamp, body, is⟩ two⟩
  · rw [checkToken, decode64_of_le (Int.not_lt.mp size)]
    apply iff_of_false
    · intro refused
      obtain ⟨code, left, run, -⟩ := refused fun stamp body two => by
        rw [fieldsOf_of_le (Int.not_lt.mp size)] at two
        cases two
      cases run
    · exact fun tameToken => size tameToken.1

end Tokens

/-! ## Texts -/

section Texts

variable {timeout now : Int} {enctext stamp number body text : Bytes}

theorem decrypt_of_not_three (size : -4 < wrapInt enctext.length)
    (other : ∀ stamp number body, fieldsOf enctext ≠ [stamp, number, body]) :
    decrypt cipher md5 timeout now enctext text = .ok (autherrDecfail, text) := by
  rw [decrypt, decode64_of_lt size, ok_bind]
  split
  · next three => exact absurd three (other _ _ _)
  · rfl

theorem decrypt_of_late (size : -4 < wrapInt enctext.length)
    (three : fieldsOf enctext = [stamp, number, body]) (late : timeout < age now stamp) :
    decrypt cipher md5 timeout now enctext text = .ok (autherrTimeout, text) := by
  rw [decrypt, decode64_of_lt size, ok_bind, ← fieldsOf, three]
  exact if_pos late

theorem decrypt_of_inTime (size : -4 < wrapInt enctext.length)
    (three : fieldsOf enctext = [stamp, number, body]) (inTime : age now stamp ≤ timeout) :
    decrypt cipher md5 timeout now enctext text =
      aesDecrypt cipher md5 (base64Decode body) stamp text >>= fun (ret, text) =>
        if ret < 0 then .ok (autherrDecfail, text) else .ok (autherrOk, text) := by
  have member : body ∈ fieldsOf enctext := by simp [three]
  have decoded := decode64_field size member
  rw [decrypt, decode64_of_lt size, ok_bind, ← fieldsOf, three]
  simp only
  rw [if_neg (Int.not_lt.mpr inTime), decoded, ok_bind]
  rfl

theorem malformedText_iff (three : fieldsOf enctext = [stamp, number, body]) :
    MalformedText cipher md5 enctext ↔ ¬cipher.Accepts (md5 stamp) (base64Decode body) := by
  constructor
  · exact fun malformed => malformed stamp number body three
  · intro malformed stamp' number' body' three'
    rw [three] at three'
    cases three'
    exact malformed

theorem tameText_iff (size : -4 < wrapInt enctext.length)
    (three : fieldsOf enctext = [stamp, number, body]) :
    TameText cipher md5 timeout now enctext ↔
      (age now stamp ≤ timeout → cipher.Tame (md5 stamp) (base64Decode body)) := by
  constructor
  · exact fun tame => tame.2 stamp number body three
  · refine fun tame => ⟨size, fun stamp' number' body' three' => ?_⟩
    rw [three] at three'
    cases three'
    exact tame

/-- A malformed text gets an error code exactly when it is tame. -/
theorem refuses_decrypt_iff : (MalformedText cipher md5 enctext →
    Refused (decrypt cipher md5 timeout now enctext text)) ↔
      TameText cipher md5 timeout now enctext := by
  by_cases size : -4 < wrapInt enctext.length
  · by_cases three : ∃ stamp number body, fieldsOf enctext = [stamp, number, body]
    · obtain ⟨stamp, number, body, three⟩ := three
      rw [tameText_iff size three]
      by_cases inTime : age now stamp ≤ timeout
      · rw [decrypt_of_inTime size three inTime, refused_iff_tame _ (malformedText_iff three)]
        · exact ⟨fun tame _ => tame, fun tame => tame inTime⟩
        · exact fun ret dst negative => ⟨autherrDecfail, dst, if_pos negative, by decide⟩
      · rw [decrypt_of_late size three (Int.not_le.mp inTime)]
        exact iff_of_true (fun _ => ⟨autherrTimeout, text, rfl, by decide⟩) fun h => absurd h inTime
    · rw [decrypt_of_not_three size fun stamp number body is => three ⟨stamp, number, body, is⟩]
      exact iff_of_true (fun _ => ⟨autherrDecfail, text, rfl, by decide⟩)
        ⟨size, fun stamp number body is => absurd ⟨stamp, number, body, is⟩ three⟩
  · rw [decrypt, decode64_of_le (Int.not_lt.mp size)]
    apply iff_of_false
    · intro refused
      obtain ⟨code, left, run, -⟩ := refused fun stamp number body three => by
        rw [fieldsOf_of_le (Int.not_lt.mp size)] at three
        cases three
      cases run
    · exact fun tameText => size tameText.1

end Texts

/-! ## Any input -/

/-- The bodies that `aesDecrypt` copes with, and the tokens and texts that are refused if
they are malformed. -/
theorem copes_with_input_iff (cipher : Rijndael) (md5 : Bytes → Block) :
    (∀ src key dst, Safe src (aesDecrypt cipher md5 src key dst) ↔ cipher.Tame (md5 key) src) ∧
    (∀ timeout now token minfo, (MalformedToken cipher md5 token →
      Refused (checkToken cipher md5 timeout now token minfo)) ↔
        TameToken cipher md5 timeout now token) ∧
    ∀ timeout now enctext text, (MalformedText cipher md5 enctext →
      Refused (decrypt cipher md5 timeout now enctext text)) ↔
        TameText cipher md5 timeout now enctext :=
  ⟨safe_aesDecrypt_iff, fun _ _ _ _ => refuses_checkToken_iff, fun _ _ _ _ => refuses_decrypt_iff⟩

/-- The body `FF FF FF FF` claims a length of minus one. -/
theorem wild_minusOne (cipher : Rijndael) (keyist : Block) :
    ¬cipher.Tame keyist [255, 255, 255, 255] := by
  rintro ⟨-, positive | more | ⟨-, nonempty, -⟩⟩
  · exact absurd positive (by decide)
  · exact absurd more (by decide +kernel)
  · exact absurd nonempty (by decide +kernel)

/-- That body, a body of one byte, and the token with the stamp 1000 and the first body,
whatever the cipher and the hash are. -/
theorem wild_inputs (cipher : Rijndael) (md5 : Bytes → Block) :
    ¬Safe [255, 255, 255, 255] (aesDecrypt cipher md5 [255, 255, 255, 255] [] []) ∧
    aesDecrypt cipher md5 [1] [] [] = .error .readsBefore ∧
    MalformedToken cipher md5 (ascii "MTAwMCYvLy8vL3c9PQ==") ∧
    ¬Refused (checkToken cipher md5 7200 1000 (ascii "MTAwMCYvLy8vL3c9PQ==") []) := by
  have two : fieldsOf (ascii "MTAwMCYvLy8vL3c9PQ==") = [ascii "1000", ascii "/////w=="] := by
    decide +kernel
  have body : base64Decode (ascii "/////w==") = [255, 255, 255, 255] := by decide +kernel
  have malformed : MalformedToken cipher md5 (ascii "MTAwMCYvLy8vL3c9PQ==") := by
    rw [malformedToken_iff two, body]
    exact fun accepts => wild_minusOne _ _ (tame_of_accepts accepts)
  refine ⟨?_, aesDecrypt_of_short (by decide) _ _, malformed, ?_⟩
  · rw [safe_aesDecrypt_iff]
    exact wild_minusOne _ _
  · intro refused
    have tame := (tameToken_iff (by decide +kernel) two).mp
      (refuses_checkToken_iff.mp fun _ => refused) (by decide)
    rw [body] at tame
    exact wild_minusOne _ _ tame

/-- With a cipher that changes nothing. -/
theorem copes_not_with_all_input :
    ¬(∀ src key dst : Bytes, Safe src
      (aesDecrypt ⟨fun _ b => b, fun _ b => b⟩ (fun _ => .read []) src key dst)) ∧
    ¬(∀ (timeout now : Int) (token : Bytes) (minfo : List (Bytes × Bytes)),
      MalformedToken ⟨fun _ b => b, fun _ b => b⟩ (fun _ => .read []) token →
        Refused (checkToken ⟨fun _ b => b, fun _ b => b⟩ (fun _ => .read []) timeout now token
          minfo)) := by
  obtain ⟨raised, -, malformed, notRefused⟩ :=
    wild_inputs ⟨fun _ b => b, fun _ b => b⟩ fun _ => .read []
  exact ⟨fun safe => raised (safe _ _ _), fun refuses => notRefused (refuses _ _ _ _ malformed)⟩

end GPush.Crypt
