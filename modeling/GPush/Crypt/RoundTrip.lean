import GPush.Crypt.Token

/-!
# What was encrypted comes back

A string below `2 ^ 27` bytes comes back from `aesDecrypt`, and from `decrypt` in time.  A map
comes back from `checkToken` exactly when its keys and values have no separators in them.
-/

namespace GPush.Crypt

open GPush.Codec GPush.Containers GPush.PushServer GPush.SessCache

variable {cipher : Rijndael} {md5 : Bytes → Block}

/-! ## Texts -/

/-- The age of a stamp that fits in an `int`. -/
theorem age_decimal {stamp : Int} (lower : -2 ^ 31 ≤ stamp) (upper : stamp < 2 ^ 31) (now : Int) :
    age now (decimal stamp) = (now - stamp).natAbs := by
  rw [age, atoi_decimal_int lower upper]

theorem decrypt_encrypt (inverts : cipher.Inverts) {s : Bytes} (small : s.length < 2 ^ 27)
    {stamp number : Int} (isLong : -2 ^ 63 ≤ stamp ∧ stamp < 2 ^ 63)
    (isRandom : 0 ≤ number ∧ number < 2 ^ 31) (timeout now : Int) (enctext text : Bytes) :
    ∃ sent, encrypt cipher md5 stamp number s enctext = .ok (autherrOk, sent) ∧
      decrypt cipher md5 timeout now sent text =
        .ok (if timeout < age now (decimal stamp) then (autherrTimeout, text)
          else (autherrOk, s)) := by
  obtain ⟨ret, body, encrypted, four, least, decrypted⟩ :=
    aesDecrypt_aesEncrypt inverts md5 small (decimal stamp) []
  obtain ⟨inner, innerEq, innerBack, innerLength⟩ := decode64_encode64 (s := body) (by omega)
  have stampLength := length_decimal_le isLong.1 isLong.2
  have numberLength := length_decimal_le (n := number) (by omega) (by omega)
  obtain ⟨sent, sentEq, sentBack, -⟩ := decode64_encode64
    (s := decimal stamp ++ ampersand :: (decimal number ++ ampersand :: inner))
    (by simp only [List.length_append, List.length_cons]; omega)
  have someInner : inner ≠ [] := by
    rw [← List.length_pos_iff]
    omega
  have three := split_three (decimal_ne_nil stamp) (decimal_ne_nil number) someInner
    (ampersand_not_mem_decimal stamp) (ampersand_not_mem_decimal number)
    (ampersand_not_mem_encoded innerEq)
  refine ⟨sent, ?_, ?_⟩
  · rw [encrypt, encrypted, ok_bind]
    simp only
    rw [if_neg (by omega), innerEq, ok_bind, sentEq, ok_bind]
    rfl
  · rw [decrypt, sentBack, ok_bind, three]
    simp only
    split
    · rfl
    · rw [innerBack, ok_bind, decrypted, ok_bind]
      simp only
      rw [if_neg (by omega)]
      rfl

/-- Every string and every key.  The age of a stamp is the time that has passed, as long as
the stamp fits in an `int`. -/
theorem encrypted_comes_back (inverts : cipher.Inverts) (md5 : Bytes → Block) (s : Bytes)
    (small : s.length < 2 ^ 27) :
    (∀ key dst dst', ∃ (ret ret' : Nat) (body : Bytes),
      aesEncrypt cipher md5 s key dst = .ok (ret, body) ∧
        aesDecrypt cipher md5 body key dst' = .ok (ret', s)) ∧
    (∀ stamp number timeout now : Int, -2 ^ 63 ≤ stamp ∧ stamp < 2 ^ 63 →
      0 ≤ number ∧ number < 2 ^ 31 → ∀ enctext text, ∃ sent,
        encrypt cipher md5 stamp number s enctext = .ok (autherrOk, sent) ∧
          decrypt cipher md5 timeout now sent text =
            .ok (if timeout < age now (decimal stamp) then (autherrTimeout, text)
              else (autherrOk, s))) ∧
    ∀ stamp now : Int, -2 ^ 31 ≤ stamp ∧ stamp < 2 ^ 31 →
      age now (decimal stamp) = (now - stamp).natAbs := by
  refine ⟨?_, ?_, ?_⟩
  · intro key dst dst'
    obtain ⟨ret, body, encrypted, -, -, decrypted⟩ :=
      aesDecrypt_aesEncrypt inverts md5 small key dst
    exact ⟨ret, s.length, body, encrypted, decrypted dst'⟩
  · intro stamp number timeout now isLong isRandom enctext text
    exact decrypt_encrypt inverts small isLong isRandom timeout now enctext text
  · intro stamp now fits
    exact age_decimal fits.1 fits.2 now

/-- A cipher that exchanges two blocks. -/
def Rijndael.exchanging (p c : Block) : Rijndael where
  encrypt _ b := if b = p then c else if b = c then p else b
  decrypt _ b := if b = p then c else if b = c then p else b

theorem inverts_exchanging (p c : Block) : (Rijndael.exchanging p c).Inverts := by
  intro k b
  simp only [Rijndael.exchanging]
  split_ifs <;> simp_all

/-- `GPush` under the key `1000`, with its hash and its block as MD5 and AES give them. -/
theorem encrypted_comes_back_block :
    ∃ sent, encrypt
      (.exchanging ⟨[71, 80, 117, 115, 104, 11, 11, 11, 11, 11, 11, 11, 11, 11, 11, 11], rfl⟩
        ⟨[253, 81, 145, 40, 221, 79, 186, 6, 41, 103, 66, 144, 107, 149, 11, 179], rfl⟩)
      (fun _ => ⟨[169, 183, 186, 112, 120, 59, 97, 126, 153, 152, 220, 77, 216, 46, 179, 197], rfl⟩)
      1000 7 [71, 80, 117, 115, 104] [] = .ok (autherrOk, sent) ∧
    decrypt
      (.exchanging ⟨[71, 80, 117, 115, 104, 11, 11, 11, 11, 11, 11, 11, 11, 11, 11, 11], rfl⟩
        ⟨[253, 81, 145, 40, 221, 79, 186, 6, 41, 103, 66, 144, 107, 149, 11, 179], rfl⟩)
      (fun _ => ⟨[169, 183, 186, 112, 120, 59, 97, 126, 153, 152, 220, 77, 216, 46, 179, 197], rfl⟩)
      30 1010 sent [] = .ok (autherrOk, [71, 80, 117, 115, 104]) := by
  obtain ⟨-, texts, ages⟩ := encrypted_comes_back (inverts_exchanging
      ⟨[71, 80, 117, 115, 104, 11, 11, 11, 11, 11, 11, 11, 11, 11, 11, 11], rfl⟩
      ⟨[253, 81, 145, 40, 221, 79, 186, 6, 41, 103, 66, 144, 107, 149, 11, 179], rfl⟩)
    (fun _ => ⟨[169, 183, 186, 112, 120, 59, 97, 126, 153, 152, 220, 77, 216, 46, 179, 197], rfl⟩)
    [71, 80, 117, 115, 104] (by decide)
  obtain ⟨sent, encrypted, decrypted⟩ := texts 1000 7 30 1010 (by decide) (by decide) [] []
  rw [ages 1000 1010 (by decide)] at decrypted
  exact ⟨sent, encrypted, decrypted⟩

/-! ## Maps -/

theorem entry_plain (field : Bytes) : equals ∉ (entry field).1 := by
  rw [entry]
  split
  · intro member
    simpa using List.mem_takeWhile_imp member
  · assumption

theorem mem_of_mem_entry {field : Bytes} {p : UInt8}
    (member : p ∈ (entry field).1 ∨ p ∈ (entry field).2) : p ∈ field := by
  rw [entry] at member
  split at member
  · rcases member with key | value
    · exact (List.takeWhile_sublist _).subset key
    · exact (List.dropWhile_sublist _).subset (List.mem_of_mem_tail value)
  · exact member.elim id id

/-- The first equals sign ends the key. -/
theorem entry_joined {k : Bytes} (plain : equals ∉ k) (v : Bytes) :
    entry (k ++ equals :: v) = (k, v) := by
  have all : ∀ p ∈ k, decide (p ≠ equals) = true := by
    intro p member
    rw [decide_eq_true_eq]
    rintro rfl
    exact plain member
  have none : ∀ l : Bytes, (equals :: l).takeWhile (fun p => decide (p ≠ equals)) = [] := by
    intro l
    rw [List.takeWhile_cons_of_neg (by simp)]
  rw [entry, if_pos (by simp)]
  rw [List.takeWhile_append_of_pos all, List.dropWhile_append_of_pos all, none,
    List.dropWhile_cons_of_neg (by simp), List.append_nil]
  rfl

theorem split_flatten {m : List (Bytes × Bytes)}
    (plain : ∀ e ∈ m, ampersand ∉ e.1 ∧ ampersand ∉ e.2) :
    split (flatten m) = m.map fun e => e.1 ++ equals :: e.2 := by
  rw [split_eq_pieces]
  induction m with
  | nil => rfl
  | cons e m ih =>
      rw [List.forall_mem_cons] at plain
      have noSeparator : ampersand ∉ e.1 ++ equals :: e.2 := by
        rw [List.mem_append, List.mem_cons, not_or, not_or]
        exact ⟨plain.1.1, by decide, plain.1.2⟩
      have front : flatten (e :: m) = (e.1 ++ equals :: e.2) ++ ampersand :: flatten m := by
        simp [flatten]
      rw [front, pieces_append_cons noSeparator, ih plain.2]
      simp

/-- A map is what its own entries make. -/
theorem ofEntries_of_inOrder {m : List (Bytes × Bytes)} (isMap : InOrder stringLess m) :
    ofEntries stringLess m = m := by
  have asymm (first second : Bytes × Bytes) (less : stringLess first.1 second.1 = true)
      (more : stringLess second.1 first.1 = true) : first = second := by
    have cycle := stringLess_trans less more
    rw [stringLess_irrefl] at cycle
    cases cycle
  exact (ofEntries_perm (isMap.nodup stringLess_irrefl)).eq_of_pairwise
    (fun first second _ _ => asymm first second) (inOrder_ofEntries orders_stringLess m) isMap

/-- The map that `checkToken` reads from the decrypted body. -/
def readBody (rawbody : Bytes) : List (Bytes × Bytes) :=
  (split rawbody).foldl (fun minfo field =>
    assign stringLess (entry field).1 (entry field).2 minfo) []

theorem readBody_eq (rawbody : Bytes) :
    readBody rawbody = ofEntries stringLess ((split rawbody).map entry) := by
  rw [readBody, ofEntries, List.foldl_map]

/-- No separator gets into a map. -/
theorem readBody_plain {rawbody : Bytes} {e : Bytes × Bytes} (member : e ∈ readBody rawbody) :
    equals ∉ e.1 ∧ ampersand ∉ e.1 ∧ ampersand ∉ e.2 := by
  rw [readBody_eq] at member
  obtain ⟨field, isField, rfl⟩ := List.mem_map.mp (mem_of_mem_ofEntries member)
  rw [split_eq_pieces] at isField
  have plain := notMem_of_mem_pieces isField
  exact ⟨entry_plain field, fun key => plain (mem_of_mem_entry (Or.inl key)),
    fun value => plain (mem_of_mem_entry (Or.inr value))⟩

/-- Reading what was written gives the same map exactly when it has no separators. -/
theorem readBody_flatten_iff {m : List (Bytes × Bytes)} (isMap : InOrder stringLess m) :
    readBody (flatten m) = m ↔ ∀ e ∈ m, equals ∉ e.1 ∧ ampersand ∉ e.1 ∧ ampersand ∉ e.2 := by
  constructor
  · intro same e member
    rw [← same] at member
    exact readBody_plain member
  · intro plain
    have entries : (m.map fun e => e.1 ++ equals :: e.2).map entry = m := by
      rw [List.map_map]
      refine (List.map_congr_left fun e member => ?_).trans (List.map_id m)
      exact entry_joined (plain e member).1 e.2
    rw [readBody_eq, split_flatten fun e member => (plain e member).2, entries,
      ofEntries_of_inOrder isMap]

/-- What the two pairs of functions do with the strings that a token for `text` is made of:
the second one undoes the first. -/
def Undone (cipher : Rijndael) (md5 : Bytes → Block) (stamp text : Bytes) : Prop :=
  ∃ (ret ret' : Nat) (body inner token : Bytes),
    aesEncrypt cipher md5 text (rawkey ++ stamp) [] = .ok (ret, body) ∧
    aesDecrypt cipher md5 body (rawkey ++ stamp) [] = .ok (ret', text) ∧
    encode64 body = .ok inner ∧ decode64 inner = .ok body ∧
    encode64 (stamp ++ ampersand :: inner) = .ok token ∧
    decode64 token = .ok (stamp ++ ampersand :: inner)

theorem decode64_nil : decode64 [] = .ok [] := by
  rw [decode64, Buffer.base64Decode_eq (by decide)]
  rfl

/-- The token of a map is accepted in time. -/
theorem checkToken_generateToken {m : List (Bytes × Bytes)} {stamp timeout now : Int}
    (undone : Undone cipher md5 (decimal stamp) (flatten m))
    (inTime : age now (decimal stamp) ≤ timeout) (before : Bytes) :
    ∃ token, generateToken cipher md5 stamp m before = .ok (autherrOk, token) ∧
      checkToken cipher md5 timeout now token [] = .ok (autherrOk, readBody (flatten m)) := by
  obtain ⟨ret, ret', body, inner, token, encrypted, decrypted, innerEq, innerBack, tokenEq,
    tokenBack⟩ := undone
  have someInner : inner ≠ [] := by
    rintro rfl
    have long := length_aesEncrypt (Int.natCast_nonneg ret) encrypted
    rw [decode64_nil] at innerBack
    cases innerBack
    exact absurd long (by decide)
  have two := split_two (decimal_ne_nil stamp) someInner (ampersand_not_mem_decimal stamp)
    (ampersand_not_mem_encoded innerEq)
  refine ⟨token, ?_, ?_⟩
  · rw [generateToken, encrypted, ok_bind]
    simp only
    rw [if_neg (by omega), innerEq, ok_bind, tokenEq, ok_bind]
    rfl
  · rw [checkToken, tokenBack, ok_bind, two]
    simp only
    rw [if_neg (by omega), innerBack, ok_bind, decrypted, ok_bind]
    simp only
    rw [if_neg (by omega)]
    rfl

/-- For every map. -/
theorem token_roundTrip_iff {m : List (Bytes × Bytes)} (isMap : InOrder stringLess m)
    {stamp timeout now : Int} (undone : Undone cipher md5 (decimal stamp) (flatten m))
    (inTime : age now (decimal stamp) ≤ timeout) (before : Bytes) :
    ∃ token m', generateToken cipher md5 stamp m before = .ok (autherrOk, token) ∧
      checkToken cipher md5 timeout now token [] = .ok (autherrOk, m') ∧
      (m' = m ↔ ∀ e ∈ m, equals ∉ e.1 ∧ ampersand ∉ e.1 ∧ ampersand ∉ e.2) := by
  obtain ⟨token, generated, checked⟩ := checkToken_generateToken undone inTime before
  exact ⟨token, _, generated, checked, readBody_flatten_iff isMap⟩

/-- For maps of a length that the functions can cope with. -/
theorem undone_of_length_lt (inverts : cipher.Inverts) (md5 : Bytes → Block) {text : Bytes}
    (small : text.length < 2 ^ 27) {stamp : Int} (isLong : -2 ^ 63 ≤ stamp ∧ stamp < 2 ^ 63) :
    Undone cipher md5 (decimal stamp) text := by
  obtain ⟨ret, body, encrypted, -, least, decrypted⟩ :=
    aesDecrypt_aesEncrypt inverts md5 small (rawkey ++ decimal stamp) []
  obtain ⟨inner, innerEq, innerBack, innerLength⟩ := decode64_encode64 (s := body) (by omega)
  have stampLength := length_decimal_le isLong.1 isLong.2
  obtain ⟨token, tokenEq, tokenBack, -⟩ := decode64_encode64
    (s := decimal stamp ++ ampersand :: inner)
    (by simp only [List.length_append, List.length_cons]; omega)
  exact ⟨ret, text.length, body, inner, token, encrypted, decrypted [], innerEq, innerBack,
    tokenEq, tokenBack⟩

/-- The map from `u` to `7`, with the hash and the block that MD5 and AES give. -/
theorem token_roundTrip_iff_single :
    ∃ token m', generateToken
        (.exchanging ⟨[117, 61, 55, 38, 12, 12, 12, 12, 12, 12, 12, 12, 12, 12, 12, 12], rfl⟩
          ⟨[156, 136, 27, 181, 130, 52, 36, 52, 95, 78, 171, 251, 202, 112, 10, 15], rfl⟩)
        (fun _ =>
          ⟨[130, 220, 71, 176, 117, 34, 184, 91, 179, 138, 49, 141, 216, 169, 206, 137], rfl⟩)
        1000 [([117], [55])] [] = .ok (autherrOk, token) ∧
      checkToken
        (.exchanging ⟨[117, 61, 55, 38, 12, 12, 12, 12, 12, 12, 12, 12, 12, 12, 12, 12], rfl⟩
          ⟨[156, 136, 27, 181, 130, 52, 36, 52, 95, 78, 171, 251, 202, 112, 10, 15], rfl⟩)
        (fun _ =>
          ⟨[130, 220, 71, 176, 117, 34, 184, 91, 179, 138, 49, 141, 216, 169, 206, 137], rfl⟩)
        7200 1010 token [] = .ok (autherrOk, m') ∧
      (m' = [([117], [55])] ↔ ∀ e ∈ [(([117] : Bytes), ([55] : Bytes))],
        equals ∉ e.1 ∧ ampersand ∉ e.1 ∧ ampersand ∉ e.2) :=
  token_roundTrip_iff (List.pairwise_singleton _ _)
    (undone_of_length_lt (inverts_exchanging _ _) _ (by decide) (by decide))
    (by rw [age_decimal (by decide) (by decide)]; decide) []

end GPush.Crypt
