import GPush.Connection.Send
import GPush.Framing.Format
import Mathlib.Algebra.Group.Int.Defs

/-!
# The receiving side of a connection

`handleRead` receives into the free part of the buffer and passes every complete
packet to `handlePacket`.  The results of the system call `recv` are an input, one
script for each call of `handleRead`.  `checkPackLen` and `handlePacket` are the
virtual functions of the class; `checkLen` is what the connect server and the
link of the push server use for the first one.
-/

namespace GPush.Connection

open GPush.LoopBuf GPush.Framing

/-- One return of `recv`: some bytes, the end of the stream, or `-1`. -/
inductive SysRecv
  | data (bytes : Bytes)
  | closed
  | fail (errno : Errno)
  deriving DecidableEq, Repr

/-- The bytes received over a script. -/
def received (script : List SysRecv) : Bytes :=
  script.flatMap fun
    | .data bytes => bytes
    | _ => []

/-- The loop of `tcpNbReceive` after it has received `got`: its result, the bytes it
leaves in the buffer, and the calls left.  A call that returns no bytes, or more
than fit, is no behaviour of the socket. -/
def recvLoop : Nat → Bytes → List SysRecv → Option (Int × Bytes × List SysRecv)
  | _, _, [] => none
  | bufsize, got, .data bytes :: script =>
      if bytes.length = 0 ∨ bufsize < bytes.length then
        none
      else if 0 < bufsize - bytes.length then
        recvLoop (bufsize - bytes.length) (got ++ bytes) script
      else
        some ((got ++ bytes).length, got ++ bytes, script)
  | _, got, .closed :: script => some (-1, got, script)
  | bufsize, got, .fail .eintr :: script => recvLoop bufsize got script
  | _, got, .fail .eagain :: script => some (got.length, got, script)
  | _, got, .fail .other :: script => some (-1, got, script)

/-- `tcpNbReceive` into `bufsize` bytes. -/
def tcpNbReceive (bufsize : Nat) (script : List SysRecv) : Option (Int × Bytes × List SysRecv) :=
  if bufsize = 0 then some (-1, [], script) else recvLoop bufsize [] script

/-- The buffer as `handleRead` offers it to the socket. -/
def offer (b : LoopBuf) : LoopBuf := if b.freeFrameLen = 0 then (b.extend (16 * 1024)).1 else b

/-- What `handleRead` answers and leaves behind, and the packets it has passed to
`handlePacket`. -/
structure Reading (σ : Type*) where
  ret : Int
  buf : LoopBuf
  state : σ
  packets : List Bytes

section HandleRead

variable {σ : Type*} (checkPackLen : LoopBuf → Option Int) (handlePacket : σ → Bytes → Int × σ)

/-- The inner loop of `Connection::handleRead`.  A negative result ends it, and the
connection is recycled by its event loop. -/
def packLoop : Nat → Int → LoopBuf → σ → Option (Reading σ)
  | rounds, ret, b, s =>
      (checkPackLen b).bind fun len =>
        if len < 0 then
          some ⟨len, b, s, []⟩
        else if len = 0 then
          some ⟨ret, b, s, []⟩
        else
          match rounds with
          | 0 => none
          | rounds + 1 =>
              (b.read len.toNat).bind fun (b', out) =>
                let req := out ++ List.replicate (len.toNat - out.length) 0
                let (ret, s') := handlePacket s req
                if ret < 0 then
                  some ⟨ret, b', s', [req]⟩
                else
                  (packLoop rounds ret b' s').map fun later =>
                    { later with packets := req :: later.packets }

/-- `Connection::handleRead` without `READ_ALL`. -/
def handleRead (b : LoopBuf) (s : σ) (script : List SysRecv) :
    Option (Reading σ × List SysRecv) :=
  (tcpNbReceive (offer b).freeFrameLen script).bind fun (ret, data, rest) =>
    let filled := (offer b).fillFreeFrame data
    if ret < 0 ∨ data.length = 0 then
      some (⟨-1, filled, s, []⟩, rest)
    else
      let written := (filled.write (.null data.length)).1
      (packLoop checkPackLen handlePacket (written.size + 1) ret written s).map (·, rest)

/-- Successive calls of `handleRead`, up to the first negative result. -/
def readAll : LoopBuf → σ → List (List SysRecv) → Option (List (Reading σ))
  | _, _, [] => some []
  | b, s, script :: scripts =>
      (handleRead checkPackLen handlePacket b s script).bind fun (reading, _) =>
        if reading.ret < 0 then
          some [reading]
        else
          (readAll reading.buf reading.state scripts).map (reading :: ·)

end HandleRead

/-! ## The packet header -/

/-- `sizeof(head)`. -/
def sizeofHead : Nat := 12

/-- The largest length of a packet. -/
def maxLen : Nat := 1024 * 1024

/-- A big-endian `int32`. -/
def beInt32 (bytes : Bytes) : Int :=
  let n : Nat := bytes.foldl (fun acc byte => acc * 256 + byte.toNat) 0
  if n < 2 ^ 31 then n else (n : Int) - 2 ^ 32

/-- `head::len` in host order. -/
def headLen (h : Bytes) : Int := beInt32 ((h.drop 4).take 4)

/-- `checkLen`. -/
def checkLen (b : LoopBuf) : Option Int :=
  if b.size < sizeofHead then
    some 0
  else
    (b.peek sizeofHead).map fun h =>
      if headLen h < sizeofHead ∨ (maxLen : Int) < headLen h then
        -1
      else if headLen h ≤ b.size then
        headLen h
      else
        0

end GPush.Connection
