import GPush.Codec.Base64
import Mathlib.Algebra.Group.Int.Defs
import Mathlib.Algebra.Group.Nat.Defs

/-!
# Ids

A connection id carries the index of its event loop above the last six digits of
the process counter.  A session id is the base64 form of the server id and the
connection id, followed by the id of the user.  An `int32` is an `Int` here.
-/

namespace GPush.ConnectServer

open GPush.Codec

/-- The fields of a port configuration that the dispatcher and the login read. -/
structure CliConfig where
  startThreadIdx : Int
  threadCnt : Int
  minType : Int
  maxType : Int
  deriving DecidableEq, Repr

/-- The fields of the server configuration that the handlers read. -/
structure ServerConfig where
  ID : Int
  threadCount : Int
  deriving DecidableEq, Repr

/-- `EVENT_LOOP_ID_MASK`. -/
def eventLoopIdMask : Int := 1000000

/-- `getConnectionId`. -/
def getConnectionId (evlpid conid : Int) : Int :=
  evlpid * eventLoopIdMask + conid.tmod eventLoopIdMask

/-- `getEventLoopId`. -/
def getEventLoopId (conid : Int) : Int := conid.tdiv eventLoopIdMask

/-- The bytes of an `int32` in memory, lowest first. -/
def int32Bytes (n : Int) : Bytes :=
  let u := (n % 2 ^ 32).toNat
  [UInt8.ofNat u, UInt8.ofNat (u / 2 ^ 8), UInt8.ofNat (u / 2 ^ 16), UInt8.ofNat (u / 2 ^ 24)]

/-- The `int32` in four bytes of memory. -/
def readInt32 (bytes : Bytes) : Int :=
  let u : Nat := (bytes.take 4).foldr (fun byte acc => byte.toNat + 256 * acc) 0
  if u < 2 ^ 31 then u else (u : Int) - 2 ^ 32

/-- The first twelve characters of a session id. -/
def sessPrefix (svid conid : Int) : Bytes := base64Encode (int32Bytes svid ++ int32Bytes conid)

/-- `decorationName`. -/
def decorationName (svid conid : Int) (n : Bytes) : Bytes := sessPrefix svid conid ++ n

/-- What `getDecorationInfo` reads off a session id. -/
structure Decoration where
  svid : Int
  conid : Int
  n : Bytes
  deriving DecidableEq, Repr

/-- `getDecorationInfo`; `none` is the `std::out_of_range` of `dn.substr(12)`.  The two
numbers are read from the decoded buffer whatever its length, so `beyond` stands
for the bytes behind it. -/
def getDecorationInfo (beyond dn : Bytes) : Option Decoration :=
  let buf := base64Decode (dn.take 12) ++ beyond
  if dn.length < 12 then
    none
  else
    some ⟨readInt32 buf, readInt32 (buf.drop 4), dn.drop 12⟩

/-- Writing an `int32` undoes reading it. -/
theorem int32Bytes_readInt32 {bytes : Bytes} (long : 4 ≤ bytes.length) :
    int32Bytes (readInt32 bytes) = bytes.take 4 := by
  obtain ⟨a, b, c, d, rest, rfl⟩ : ∃ a b c d rest, bytes = a :: b :: c :: d :: rest := by
    match bytes, long with
    | a :: b :: c :: d :: rest, _ => exact ⟨a, b, c, d, rest, rfl⟩
  have boundA := a.toNat_lt
  have boundB := b.toNat_lt
  have boundC := c.toNat_lt
  have boundD := d.toNat_lt
  have unsigned : (readInt32 (a :: b :: c :: d :: rest) % 2 ^ 32).toNat =
      a.toNat + 256 * (b.toNat + 256 * (c.toNat + 256 * d.toNat)) := by
    simp only [readInt32, List.take_succ_cons, List.take_zero, List.foldr_cons, List.foldr_nil]
    split_ifs <;> omega
  rw [int32Bytes, unsigned]
  simp only [List.take_succ_cons, List.take_zero]
  rw [ofNat_eq_of_toNat (a := a) (by omega), ofNat_eq_of_toNat (a := b) (by omega),
    ofNat_eq_of_toNat (a := c) (by omega), ofNat_eq_of_toNat (a := d) (by omega)]

theorem readInt32_int32Bytes {n : Int} (lower : -2 ^ 31 ≤ n) (upper : n < 2 ^ 31)
    (rest : Bytes) : readInt32 (int32Bytes n ++ rest) = n := by
  simp [readInt32, int32Bytes]
  omega

theorem length_sessPrefix (svid conid : Int) : (sessPrefix svid conid).length = 12 := by
  rw [sessPrefix, length_base64Encode]
  simp [int32Bytes]

/-- A string is the session id of a user at a connection exactly when its first
twelve characters are the encoded numbers and the others the user. -/
theorem decorationName_eq_iff {svid conid : Int} {n dn : Bytes} :
    decorationName svid conid n = dn ↔ dn.take 12 = sessPrefix svid conid ∧ dn.drop 12 = n := by
  have lengthEq := length_sessPrefix svid conid
  constructor
  · rintro rfl
    rw [decorationName]
    exact ⟨List.take_left' lengthEq, List.drop_left' lengthEq⟩
  · rintro ⟨first, second⟩
    rw [decorationName, ← first, ← second, List.take_append_drop]

/-- Where the first twelve characters are the base64 form of eight bytes, they are
those of the two numbers read from them. -/
theorem sessPrefix_of_decoded {beyond dn bytes : Bytes} {info : Decoration}
    (decoded : getDecorationInfo beyond dn = some info) (eight : bytes.length = 8)
    (canonical : dn.take 12 = base64Encode bytes) :
    sessPrefix info.svid info.conid = dn.take 12 := by
  rw [getDecorationInfo, canonical, base64Decode_base64Encode] at decoded
  split_ifs at decoded with short
  obtain rfl := Option.some.inj decoded
  have first : int32Bytes (readInt32 (bytes ++ beyond)) = bytes.take 4 := by
    rw [int32Bytes_readInt32 (by simp; omega), List.take_append_of_le_length (by omega)]
  have second : int32Bytes (readInt32 ((bytes ++ beyond).drop 4)) = bytes.drop 4 := by
    rw [int32Bytes_readInt32 (by simp; omega), List.drop_append_of_le_length (by omega),
      List.take_left' (by simp; omega)]
  rw [sessPrefix, first, second, List.take_append_drop, canonical]

end GPush.ConnectServer
