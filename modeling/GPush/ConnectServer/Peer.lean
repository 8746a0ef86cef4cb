import GPush.ConnectServer.CliCon

/-!
# The peers of a connect server

What a push server and the client SDK share with it: the other halves of the message
classes, and the packets of their `constructPacket`, whose header is in network order
throughout.
-/

namespace GPush.ConnectServer

open GPush.Connection

/-- The fields of a `LoginRequest` that the peers set; a push server sets no version. -/
structure LoginFields where
  id : Bytes
  type : Int
  version : Option Bytes
  deriving DecidableEq, Repr

/-- The message classes with what a peer uses of them. -/
structure PeerCodec extends Codec where
  serializeLoginRequest : LoginFields → Bytes
  parseLoginResponse : Bytes → Option LoginResponse
  serializePushRequest : PushRequest → Bytes

/-- `LOGIN_RESP`. -/
def loginResp : Int := 101

/-- What `constructPacket` of a peer builds. -/
def peerBytes (cmd : Int) (body : Bytes) : Bytes :=
  htonl magicNumber ++ htonl (sizeofHead + body.length) ++ htonl cmd ++ body

theorem length_htonl (n : Int) : (htonl n).length = 4 := rfl

theorem length_peerBytes (cmd : Int) (body : Bytes) :
    (peerBytes cmd body).length = sizeofHead + body.length := by
  simp only [peerBytes, List.length_append, length_htonl, sizeofHead]

/-- The packet that arrives. -/
def peerPacket (cmd : Int) (body : Bytes) (small : sizeofHead + body.length ≤ maxLen) : Packet where
  bytes := peerBytes cmd body
  long := by
    rw [length_peerBytes]
    exact Nat.le_add_right _ _
  short := by
    rw [length_peerBytes]
    exact small

theorem beInt32_htonl {n : Int} (lower : -2 ^ 31 ≤ n) (upper : n < 2 ^ 31) :
    beInt32 (htonl n) = n := by
  simp [beInt32, htonl, int32Bytes]
  omega

theorem cmd_peerBytes {cmd : Int} (lower : -2 ^ 31 ≤ cmd) (upper : cmd < 2 ^ 31) (body : Bytes) :
    beInt32 (((peerBytes cmd body).drop 8).take 4) = cmd := by
  have eight : (htonl magicNumber ++ htonl (sizeofHead + body.length)).length = 8 := rfl
  rw [peerBytes, List.append_assoc, List.drop_left' eight, List.take_left' (length_htonl cmd),
    beInt32_htonl lower upper]

theorem body_peerBytes (cmd : Int) (body : Bytes) : (peerBytes cmd body).drop sizeofHead = body := by
  have twelve : (htonl magicNumber ++ htonl (sizeofHead + body.length) ++ htonl cmd).length =
    sizeofHead := rfl
  rw [peerBytes, List.drop_left' twelve]

end GPush.ConnectServer
