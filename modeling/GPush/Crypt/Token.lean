import GPush.Crypt.Aes
import GPush.PushServer.Decimal
import GPush.SessCache.Group
import GPush.Utility.Split

/-!
# Tokens and texts

`ef_crypt.cpp`: the time, in a text also a random number, and the encrypted body, joined by
`'&'` and coded in base64.  The body of a token lists the entries of a map.
-/

namespace GPush.Crypt

open GPush.Codec GPush.Containers GPush.PushServer GPush.SessCache

/-- `AUTHERR_OK`. -/
def autherrOk : Int := 0

/-- `AUTHERR_TIMEOUT`. -/
def autherrTimeout : Int := -1

/-- `AUTHERR_DECFAIL`. -/
def autherrDecfail : Int := -2

/-- `AUTHERR_ENCFAIL`. -/
def autherrEncfail : Int := -3

/-- `rawkey`. -/
def rawkey : Bytes := ascii "7ddcef8769474e099310ec8e71d181e1"

/-- The separator of fields. -/
def ampersand : UInt8 := 38

/-- The separator of a key and its value. -/
def equals : UInt8 := 61

/-! ## Fields -/

/-- The loop of `split`, where `tmp` holds the characters from `pos_begin` on. -/
def fields (tmp : Bytes) : Bytes → List Bytes
  | [] => if tmp = [] then [] else [tmp]
  | c :: str =>
      if c = ampersand then
        if tmp = [] then fields [] str else tmp :: fields [] str
      else
        fields (tmp ++ [c]) str

/-- `split` at `"&"`. -/
def split (str : Bytes) : List Bytes := fields [] (str.dropWhile (· = ampersand))

/-- The key and the value of a field.  Without an equals sign `find` returns `npos`, and
`pos + 1` is zero. -/
def entry (field : Bytes) : Bytes × Bytes :=
  if equals ∈ field then
    (field.takeWhile (· ≠ equals), (field.dropWhile (· ≠ equals)).tail)
  else
    (field, field)

/-- The text for a map in `generateToken`. -/
def flatten (minfo : List (Bytes × Bytes)) : Bytes :=
  minfo.flatMap fun e => e.1 ++ equals :: e.2 ++ [ampersand]

/-! ## The four functions -/

/-- `base64Encode`. -/
def encode64 (s : Bytes) : Except Fault Bytes := (Buffer.base64Encode s).elim (.error .base64) .ok

/-- `base64Decode`. -/
def decode64 (s : Bytes) : Except Fault Bytes := (Buffer.base64Decode s).elim (.error .base64) .ok

/-- How far the time of a stamp is from `now`. -/
def age (now : Int) (stamp : Bytes) : Int := (now - atoi stamp).natAbs

section Functions

variable (cipher : Rijndael) (md5 : Bytes → Block)

/-- `checkToken` at the time `now`. -/
def checkToken (timeout now : Int) (token : Bytes) (minfo : List (Bytes × Bytes)) :
    Except Fault (Int × List (Bytes × Bytes)) := do
  let decstr ← decode64 token
  match split decstr with
  | [stamp, body] =>
      if timeout < age now stamp then
        return (autherrTimeout, minfo)
      else
        let body ← decode64 body
        let (ret, rawbody) ← aesDecrypt cipher md5 body (rawkey ++ stamp) []
        if ret < 0 then
          return (autherrDecfail, minfo)
        else
          return (autherrOk, (split rawbody).foldl (fun minfo field =>
            assign stringLess (entry field).1 (entry field).2 minfo) minfo)
  | _ => return (autherrDecfail, minfo)

/-- `generateToken` at the time `now`. -/
def generateToken (now : Int) (minfo : List (Bytes × Bytes)) (token : Bytes) :
    Except Fault (Int × Bytes) := do
  let tm := decimal now
  let (ret, enctext) ← aesEncrypt cipher md5 (flatten minfo) (rawkey ++ tm) []
  if ret < 0 then
    return (-1, token)
  else
    let body ← encode64 enctext
    let token ← encode64 (tm ++ ampersand :: body)
    return (autherrOk, token)

/-- `encrypt` at the time `now`, with the result `number` of `rand`. -/
def encrypt (now number : Int) (text enctext : Bytes) : Except Fault (Int × Bytes) := do
  let tm := decimal now
  let (ret, encbody) ← aesEncrypt cipher md5 text tm []
  if ret < 0 then
    return (autherrEncfail, enctext)
  else
    let body ← encode64 encbody
    let enctext ← encode64 (tm ++ ampersand :: (decimal number ++ ampersand :: body))
    return (autherrOk, enctext)

/-- `decrypt` at the time `now`. -/
def decrypt (timeout now : Int) (enctext text : Bytes) : Except Fault (Int × Bytes) := do
  let decstr ← decode64 enctext
  match split decstr with
  | [stamp, _, body] =>
      if timeout < age now stamp then
        return (autherrTimeout, text)
      else
        let body ← decode64 body
        let (ret, text) ← aesDecrypt cipher md5 body stamp text
        if ret < 0 then
          return (autherrDecfail, text)
        else
          return (autherrOk, text)
  | _ => return (autherrDecfail, text)

end Functions

/-! ## Splitting -/

/-- The splitter stops at the first separator, and drops an empty field. -/
theorem fields_append {f : Bytes} (plain : ampersand ∉ f) (tmp rest : Bytes) :
    fields tmp (f ++ ampersand :: rest) =
      if tmp ++ f = [] then fields [] rest else (tmp ++ f) :: fields [] rest := by
  induction f generalizing tmp with
  | nil => rw [List.nil_append, fields, if_pos rfl, List.append_nil]
  | cons c f ih =>
      rw [List.mem_cons, not_or] at plain
      rw [List.cons_append, fields, if_neg (Ne.symm plain.1), ih plain.2, List.append_assoc]
      rfl

theorem fields_last {f : Bytes} (plain : ampersand ∉ f) (tmp : Bytes) :
    fields tmp f = if tmp ++ f = [] then [] else [tmp ++ f] := by
  induction f generalizing tmp with
  | nil => rw [fields, List.append_nil]
  | cons c f ih =>
      rw [List.mem_cons, not_or] at plain
      rw [fields, if_neg (Ne.symm plain.1), ih plain.2, List.append_assoc]
      rfl

/-- Separators at the front make no difference. -/
theorem split_eq (str : Bytes) : split str = fields [] str := by
  induction str with
  | nil => rfl
  | cons c str ih =>
      by_cases separator : c = ampersand
      · rw [split, List.dropWhile_cons_of_pos (by simpa using separator), ← split, ih, fields,
          if_pos separator, if_pos rfl]
      · rw [split, List.dropWhile_cons_of_neg (by simpa using separator)]

/-- The loop of the splitter finds the nonempty pieces. -/
theorem fields_eq_pieces (str : Bytes) : fields [] str = pieces ampersand str := by
  induction str using separatedInduction ampersand with
  | plain str single =>
      rw [fields_last single, pieces_of_notMem single, List.nil_append]
      split <;> simp [*]
  | separated first back single ih =>
      rw [fields_append single, pieces_append_cons single, List.nil_append, ih]
      split <;> simp [*]

theorem split_eq_pieces (str : Bytes) : split str = pieces ampersand str := by
  rw [split_eq, fields_eq_pieces]

/-- The function is the one of `ef_utility.cpp`. -/
theorem split_eq_split (str : Bytes) :
    split str = Utility.split str [] [ampersand] (List.cons_ne_nil _ _) := by
  rw [split_eq_pieces, Utility.split_singleton]
  rfl

theorem split_two {first second : Bytes} (someFirst : first ≠ []) (someSecond : second ≠ [])
    (plainFirst : ampersand ∉ first) (plainSecond : ampersand ∉ second) :
    split (first ++ ampersand :: second) = [first, second] := by
  rw [split_eq_pieces, pieces_append_cons plainFirst, pieces_of_notMem plainSecond]
  simp [someFirst, someSecond]

/-- Three nonempty fields are found again. -/
theorem split_three {first second third : Bytes} (someFirst : first ≠ [])
    (someSecond : second ≠ []) (someThird : third ≠ []) (plainFirst : ampersand ∉ first)
    (plainSecond : ampersand ∉ second) (plainThird : ampersand ∉ third) :
    split (first ++ ampersand :: (second ++ ampersand :: third)) = [first, second, third] := by
  rw [split_eq_pieces, pieces_append_cons plainFirst, ← split_eq_pieces,
    split_two someSecond someThird plainSecond plainThird]
  simp [someFirst]

/-! ## What is joined has no separators -/

theorem ampersand_not_mem_decimal (n : Int) : ampersand ∉ decimal n := by
  intro member
  rcases mem_decimal member with sign | digit
  · exact absurd sign (by decide)
  · exact absurd digit (by decide)

/-- The alphabet of the encoding has no separator. -/
theorem char64_ne_ampersand (i : UInt8) : char64 i ≠ ampersand := by
  revert i
  apply forall_uInt8
  decide +kernel

theorem ampersand_not_mem_encoded {s encoded : Bytes} (done : encode64 s = .ok encoded) :
    ampersand ∉ encoded := by
  rw [encode64] at done
  cases run : Buffer.base64Encode s with
  | none =>
      rw [run] at done
      cases done
  | some bytes =>
      rw [run] at done
      obtain rfl : bytes = encoded := Except.ok.inj done
      intro member
      rcases Buffer.written_base64Encode run _ member with zero | padding | ⟨i, char⟩
      · exact absurd zero (by decide)
      · exact absurd padding (by decide)
      · exact char64_ne_ampersand i char.symm

/-- Short strings are coded and decoded. -/
theorem decode64_encode64 {s : Bytes} (small : s.length < 2 ^ 28) :
    ∃ encoded, encode64 s = .ok encoded ∧ decode64 encoded = .ok s ∧
      encoded.length = (s.length + 2) / 3 * 4 := by
  have length := length_base64Encode s
  refine ⟨base64Encode s, ?_, ?_, length⟩
  · rw [encode64, Buffer.base64Encode_eq small]
    rfl
  · rw [decode64, Buffer.base64Decode_eq (by omega), base64Decode_base64Encode]
    rfl

end GPush.Crypt
