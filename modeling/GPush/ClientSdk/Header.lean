import GPush.ClientSdk.Framing
import GPush.PushServer.Relay

/-!
# The header in four programs

Three `constructPacket` write the twelve bytes and four handlers read them.  All put the
length and the command in network order.  The connect server neither converts the magic number
when it writes nor when it reads, so it agrees with itself only.
-/

namespace GPush.Header

open GPush.Codec GPush.Connection GPush.ConnectServer GPush.Framing

/-! ## Encoders and decoders -/

/-- `constructPacket` of the push server. -/
def pushServerPacket (magic cmd : Int) (body : Bytes) : Bytes :=
  htonl magic ++ htonl (sizeofHead + body.length) ++ htonl cmd ++ body

/-- The header and the body in `CliCon::handlePacket`, where `h.magic` stays as it is. -/
def cliConReads (req : Bytes) : ClientSdk.Head × Bytes :=
  (⟨readInt32 (req.take 4), headLen req, beInt32 ((req.drop 8).take 4)⟩, req.drop sizeofHead)

/-- The header and the body in `SvCon::handlePacket`. -/
def svConReads (req : Bytes) : ClientSdk.Head × Bytes :=
  (ClientSdk.headOf (req.take sizeofHead), req.drop sizeofHead)

/-- The header and the body in `ListenCon::handlePacket`. -/
def listenConReads (req : Bytes) : ClientSdk.Head × Bytes :=
  (ClientSdk.headOf (req.take sizeofHead), req.drop sizeofHead)

/-- `CliConn::handleRead` passes this header and body to `handlePacket` when `msg` is at the
front of its buffer, whatever is behind. -/
def CliConnReads (msg : Bytes) (packet : ClientSdk.Head × Bytes) : Prop :=
  ∀ (σ : Type) (handlePacket : σ → ClientSdk.Head → Bytes → σ) (s : σ) (b : ClientSdk.LoopBuf)
    (behind : Bytes) (rounds : Nat) (reading : ClientSdk.Reading σ), b.data = msg ++ behind →
    ClientSdk.dispatchLoop handlePacket (rounds + 1) b s = some reading →
      reading.packets.head? = some packet

/-- What the four read off `msg`: `CliCon`, and the three that convert the magic number. -/
structure ReadAs (msg : Bytes) (plain converted : ClientSdk.Head × Bytes) : Prop where
  cliCon : cliConReads msg = plain
  svCon : svConReads msg = converted
  listenCon : listenConReads msg = converted
  cliConn : CliConnReads msg converted

/-- What a reader should find. -/
def intended (cmd : Int) (body : Bytes) : ClientSdk.Head × Bytes :=
  (⟨magicNumber, sizeofHead + body.length, cmd⟩, body)

/-- The same with the bytes of the magic number the other way round. -/
def swapped (cmd : Int) (body : Bytes) : ClientSdk.Head × Bytes :=
  (⟨0x28121420, sizeofHead + body.length, cmd⟩, body)

/-- The three encoders agree, and every decoder recovers what they were given. -/
structure OneFormat (cmd : Int) (body : Bytes) : Prop where
  pushServer : pushServerPacket magicNumber cmd body = constructPacket cmd body
  sdk : ClientSdk.CliConn.constructPacket cmd body = constructPacket cmd body
  decoders : ReadAs (constructPacket cmd body) (intended cmd body) (intended cmd body)

/-! ## What is read -/

/-- A packet whose first four bytes are `magic`. -/
def packetWith (magic : Bytes) (cmd : Int) (body : Bytes) : Bytes :=
  magic ++ htonl (sizeofHead + body.length) ++ htonl cmd ++ body

section Fields

variable {magic : Bytes} {cmd : Int} {body : Bytes}

theorem length_packetWith (four : magic.length = 4) :
    (packetWith magic cmd body).length = sizeofHead + body.length := by
  simp only [packetWith, List.length_append, four, length_htonl, sizeofHead]

theorem take_packetWith (four : magic.length = 4) : (packetWith magic cmd body).take 4 = magic := by
  rw [packetWith, List.append_assoc, List.append_assoc, List.take_left' four]

theorem headLen_packetWith (four : magic.length = 4) (short : body.length ≤ maxLen - sizeofHead) :
    headLen (packetWith magic cmd body) = sizeofHead + body.length := by
  simp only [maxLen, sizeofHead] at short
  rw [headLen, packetWith, List.append_assoc, List.append_assoc, List.drop_left' four,
    List.take_left' (length_htonl _), beInt32_htonl]
  · omega
  · simp only [sizeofHead]
    omega

theorem cmd_packetWith (four : magic.length = 4) (lower : -2 ^ 31 ≤ cmd) (upper : cmd < 2 ^ 31) :
    beInt32 (((packetWith magic cmd body).drop 8).take 4) = cmd := by
  have eight : (magic ++ htonl (sizeofHead + body.length)).length = 8 := by
    rw [List.length_append, four, length_htonl]
  rw [packetWith, List.append_assoc, List.drop_left' eight, List.take_left' (length_htonl cmd),
    beInt32_htonl lower upper]

theorem drop_packetWith (four : magic.length = 4) :
    (packetWith magic cmd body).drop sizeofHead = body := by
  have twelve : (magic ++ htonl (sizeofHead + body.length) ++ htonl cmd).length = sizeofHead := by
    rw [List.length_append, List.length_append, four, length_htonl, length_htonl, sizeofHead]
  rw [packetWith, List.drop_left' twelve]

theorem headOf_packetWith (four : magic.length = 4) (lower : -2 ^ 31 ≤ cmd) (upper : cmd < 2 ^ 31)
    (short : body.length ≤ maxLen - sizeofHead) :
    ClientSdk.headOf ((packetWith magic cmd body).take sizeofHead) =
      ⟨beInt32 magic, sizeofHead + body.length, cmd⟩ := by
  have long : sizeofHead ≤ (packetWith magic cmd body).length := by
    rw [length_packetWith four]
    exact Nat.le_add_right _ _
  have first : ((packetWith magic cmd body).take sizeofHead).take 4 = magic := by
    rw [List.take_take, Nat.min_eq_left (by decide), take_packetWith four]
  obtain ⟨lenEq, cmdEq⟩ := ClientSdk.headOf_take long
  rw [headLen_packetWith four short] at lenEq
  rw [cmd_packetWith four lower upper] at cmdEq
  rw [ClientSdk.headOf, ClientSdk.Head.mk.injEq]
  exact ⟨congrArg beInt32 first, lenEq, cmdEq⟩

theorem cliConnReads_packetWith (four : magic.length = 4) (lower : -2 ^ 31 ≤ cmd)
    (upper : cmd < 2 ^ 31) (short : body.length ≤ maxLen - sizeofHead) :
    CliConnReads (packetWith magic cmd body)
      (⟨beInt32 magic, sizeofHead + body.length, cmd⟩, body) := by
  intro σ handlePacket s b behind rounds reading dataEq loopEq
  have lengthEq : (packetWith magic cmd body).length = sizeofHead + body.length :=
    length_packetWith four
  have long : sizeofHead ≤ (packetWith magic cmd body).length := by omega
  have lenEq : headLen b.data = ((sizeofHead + body.length : Nat) : Int) := by
    rw [dataEq, headLen_append long, headLen_packetWith four short, Int.natCast_add]
  have there : sizeofHead + body.length ≤ b.data.length := by
    rw [dataEq, List.length_append]
    omega
  obtain ⟨next, -, packetEq⟩ := @ClientSdk.dispatchLoop_packet σ handlePacket b _ lenEq
    (Nat.le_add_right _ _) there
  rw [packetEq] at loopEq
  obtain ⟨later, -, rfl⟩ := Option.map_eq_some_iff.mp loopEq
  have front : b.data.take sizeofHead = (packetWith magic cmd body).take sizeofHead := by
    rw [dataEq, List.take_append_of_le_length long]
  have whole : b.data.take (sizeofHead + body.length) = packetWith magic cmd body := by
    rw [dataEq, List.take_left' lengthEq]
  rw [ClientSdk.Reading.cons, List.head?_cons, front, whole,
    headOf_packetWith four lower upper short, drop_packetWith four]

/-- Length, command and body are read the same way by all. -/
theorem readAs_packetWith (four : magic.length = 4) (lower : -2 ^ 31 ≤ cmd)
    (upper : cmd < 2 ^ 31) (short : body.length ≤ maxLen - sizeofHead) :
    ReadAs (packetWith magic cmd body) (⟨readInt32 magic, sizeofHead + body.length, cmd⟩, body)
      (⟨beInt32 magic, sizeofHead + body.length, cmd⟩, body) := by
  have headEq := headOf_packetWith four lower upper short
  have bodyEq : (packetWith magic cmd body).drop sizeofHead = body := drop_packetWith four
  refine ⟨?_, ?_, ?_, cliConnReads_packetWith four lower upper short⟩
  · rw [cliConReads, take_packetWith four, headLen_packetWith four short,
      cmd_packetWith four lower upper, bodyEq]
  · rw [svConReads, headEq, bodyEq]
  · rw [listenConReads, headEq, bodyEq]

end Fields

/-- The magic number in the two orders, as the two kinds of readers see it. -/
theorem magicNumber_orders :
    readInt32 (int32Bytes magicNumber) = magicNumber ∧
      beInt32 (int32Bytes magicNumber) = 0x28121420 ∧
      readInt32 (htonl magicNumber) = 0x28121420 ∧ beInt32 (htonl magicNumber) = magicNumber := by
  decide +kernel

theorem oneFormat_false (cmd : Int) (body : Bytes) : ¬ OneFormat cmd body := by
  intro format
  have first := congrArg (List.take 4) format.pushServer
  have network : (pushServerPacket magicNumber cmd body).take 4 = htonl magicNumber :=
    take_packetWith (length_htonl magicNumber)
  have host : (constructPacket cmd body).take 4 = int32Bytes magicNumber := take_packetWith rfl
  rw [network, host] at first
  exact absurd first (by decide +kernel)

/-- For no command and no body are the three packets equal.  The packet of the connect server
is read in full by `CliCon` only, and those of its peers by the other three readers only; what
the others get is right but for the magic number. -/
theorem oneFormat_never (cmd : Int32) {body : Bytes} (short : body.length ≤ maxLen - sizeofHead) :
    ¬ OneFormat cmd.toInt body ∧
      pushServerPacket magicNumber cmd.toInt body =
        ClientSdk.CliConn.constructPacket cmd.toInt body ∧
      ReadAs (constructPacket cmd.toInt body) (intended cmd.toInt body)
        (swapped cmd.toInt body) ∧
      ReadAs (pushServerPacket magicNumber cmd.toInt body) (swapped cmd.toInt body)
        (intended cmd.toInt body) := by
  obtain ⟨plainHost, beHost, plainNetwork, beNetwork⟩ := magicNumber_orders
  refine ⟨oneFormat_false _ _, rfl, ?_, ?_⟩
  · have four : (int32Bytes magicNumber).length = 4 := rfl
    have read := readAs_packetWith four cmd.le_toInt cmd.toInt_lt short
    rw [plainHost, beHost] at read
    exact read
  · have read := readAs_packetWith (length_htonl magicNumber) cmd.le_toInt cmd.toInt_lt short
    rw [plainNetwork, beNetwork] at read
    exact read

theorem oneFormat_never_keepalive :
    ¬ OneFormat (0 : Int32).toInt [] ∧
      pushServerPacket magicNumber (0 : Int32).toInt [] =
        ClientSdk.CliConn.constructPacket (0 : Int32).toInt [] ∧
      ReadAs (constructPacket (0 : Int32).toInt []) (intended (0 : Int32).toInt [])
        (swapped (0 : Int32).toInt []) ∧
      ReadAs (pushServerPacket magicNumber (0 : Int32).toInt []) (swapped (0 : Int32).toInt [])
        (intended (0 : Int32).toInt []) :=
  oneFormat_never 0 (by decide)

/-- The request for a keepalive is another string in the connect server than in the push
server. -/
theorem keepalive_packets_differ :
    pushServerPacket magicNumber keepaliveReq [] ≠ constructPacket keepaliveReq [] ∧
      ¬ ∀ (cmd : Int32) (body : Bytes), body.length ≤ maxLen - sizeofHead →
        OneFormat cmd.toInt body := by
  refine ⟨by decide +kernel, fun all => ?_⟩
  exact oneFormat_false _ _ (all 0 [] (by decide))

end GPush.Header
