import GPush.PushServer.SessionId

/-!
# Session ids that nobody has issued

Any client can send any string as the target of a push.  Decoding twelve
characters gives nine bytes less the padding, and a third character that is
padding, or any character outside the alphabet, leaves fewer than the eight bytes
that `getDecorationInfo` goes on to read.  The version of the connect server does
not look at the length of the string either.
-/

namespace GPush.Codec

/-- Groups of four characters that decode to three bytes each, less one byte in
all: the first three characters are in the alphabet, and the fourth is too unless
it is padding or an earlier fourth one was. -/
def Groups : Bool → Bytes → Prop
  | padded, p0 :: p1 :: p2 :: p3 :: rest =>
      (0 ≤ reverse64 p0 ∧ 0 ≤ reverse64 p1 ∧ 0 ≤ reverse64 p2 ∧
        (padded = true ∨ p3 = pad ∨ 0 ≤ reverse64 p3)) ∧
      Groups (padded || p3 == pad) rest
  | _, _ => True

/-- The next groups are `Groups` when the first one decodes and leaves at most one byte to
cut off. -/
theorem groups_cons_iff {pandcnt : Nat} {p0 p1 p2 p3 : UInt8} {rest : Bytes} :
    pandcnt ≤ 1 ∧ Groups (pandcnt == 1) (p0 :: p1 :: p2 :: p3 :: rest) ↔
      Decodes pandcnt p0 p1 p2 p3 ∧ cutAfter pandcnt p2 p3 ≤ 1 ∧
        Groups (cutAfter pandcnt p2 p3 == 1) rest := by
  rw [Groups, Decodes, cutAfter]
  by_cases thirdPad : p2 = pad
  · simp [thirdPad, reverse64_pad]
  · rcases Nat.lt_trichotomy pandcnt 1 with none | rfl | many
    · obtain rfl : pandcnt = 0 := Nat.lt_one_iff.mp none
      by_cases fourthPad : p3 = pad
      · simp [thirdPad, fourthPad, and_assoc]
      · have notPad : (p3 == pad) = false := beq_eq_false_iff_ne.mpr fourthPad
        simp [thirdPad, fourthPad, notPad, and_assoc]
    · simp [thirdPad, and_assoc]
    · have tooMany : ¬pandcnt ≤ 1 := Nat.not_le.mpr many
      simp [thirdPad, tooMany, Nat.ne_of_gt (Nat.lt_trans Nat.one_pos many)]

theorem exists_group {k : Nat} {s : Bytes} (lengthEq : s.length = 4 * (k + 1)) :
    ∃ p0 p1 p2 p3 rest, s = p0 :: p1 :: p2 :: p3 :: rest ∧ rest.length = 4 * k := by
  rcases s with _ | ⟨p0, _ | ⟨p1, _ | ⟨p2, _ | ⟨p3, rest⟩⟩⟩⟩
  case cons.cons.cons.cons =>
    simp only [List.length_cons] at lengthEq
    exact ⟨p0, p1, p2, p3, rest, rfl, by omega⟩
  all_goals
    simp only [List.length_cons, List.length_nil] at lengthEq
    omega

/-- Decoding whole groups loses at most one byte exactly when they are `Groups`. -/
theorem le_length_decodeLoop_iff (k : Nat) {s : Bytes} (lengthEq : s.length = 4 * k)
    {pandcnt : Nat} (cut : pandcnt ≤ 2) {out : Bytes} (begun : pandcnt = 0 ∨ 3 ≤ out.length) :
    out.length + 3 * k ≤ (decodeLoop pandcnt out s).length + 1 ↔
      pandcnt ≤ 1 ∧ Groups (pandcnt == 1) s := by
  induction k generalizing s pandcnt out with
  | zero =>
      obtain rfl : s = [] := List.eq_nil_of_length_eq_zero lengthEq
      simp only [decodeLoop, Groups, List.length_take, and_true]
      omega
  | succ k ih =>
      obtain ⟨p0, p1, p2, p3, rest, rfl, restLength⟩ := exists_group lengthEq
      rw [groups_cons_iff]
      by_cases decodes : Decodes pandcnt p0 p1 p2 p3
      · obtain ⟨bytes, three, roundEq⟩ : ∃ bytes : Bytes, bytes.length = 3 ∧
            decodeLoop pandcnt out (p0 :: p1 :: p2 :: p3 :: rest) =
              decodeLoop (cutAfter pandcnt p2 p3) (out ++ bytes) rest :=
          ⟨_, length_stored _ _ _ _, decodeLoop_of_decodes decodes out rest⟩
        have begun' : cutAfter pandcnt p2 p3 = 0 ∨ 3 ≤ (out ++ bytes).length :=
          Or.inr (by simp [three])
        have later := ih restLength (cutAfter_le cut p2 p3) begun'
        rw [roundEq, ← later, List.length_append, three]
        simp only [decodes, true_and]
        omega
      · rw [decodeLoop_of_not_decodes decodes]
        simp only [decodes, false_and, iff_false]
        omega

/-- Twelve characters give at least eight bytes exactly when they are `Groups`. -/
theorem eight_le_length_base64Decode_iff {s : Bytes} (twelve : s.length = 12) :
    8 ≤ (base64Decode s).length ↔ Groups false s := by
  have begun : 0 = 0 ∨ 3 ≤ ([] : Bytes).length := Or.inl rfl
  have decoded := le_length_decodeLoop_iff 3 twelve (Nat.zero_le 2) begun
  rw [base64Decode]
  simpa using decoded

end GPush.Codec

namespace GPush.ConnectServer

open GPush.Codec

/-- The first twelve characters of `dn` decode to the id of this server and to the
id of a connection of one of its event loops. -/
def WellFormed (serv : ServerConfig) (dn : Bytes) : Prop :=
  let decoded := base64Decode (dn.take 12)
  let evlpid := getEventLoopId (readInt32 (decoded.drop 4))
  readInt32 decoded = serv.ID ∧ 0 ≤ evlpid ∧ evlpid < serv.threadCount

/-- How a push to `dn` is refused: a sender that may push gets `INVALID_SESSION_ID`
as the answer, an answer to `dn` is dropped with that status, and what
`handlePacket` returns is what `sendMessage` does, or 0. -/
structure Refuses (codec : Codec) (serv : ServerConfig) (dn : Bytes) : Prop where
  request : ∀ (id : Int) (c : CliCon) (env : Env) (p : Packet) (svreq : PushRequest),
    p.cmd = pushReq → codec.parsePushRequest p.body = some svreq → svreq.toSessid = dn →
    0 ≤ c.sess.type →
    c.handlePacket codec serv id env p = ⟨env.sent, c.touch env.now,
      [.sendMessage (constructPacket (pushReq + 1) (codec.serializePushResponse
        ⟨CliCon.upperNull, some svreq.fromSessid, svreq.sn, invalidSessionId⟩))]⟩
  response : ∀ (id : Int) (c : CliCon) (env : Env) (p : Packet) (svresp : PushResponse),
    p.cmd = pushResp → codec.parsePushResponse p.body = some svresp → svresp.toSessid = some dn →
    getConFromSessid serv env.beyond dn = some (.error invalidSessionId) ∧
    c.handlePacket codec serv id env p =
      ⟨0, c.touch env.now, (c.updateSession env.now).2.2⟩

/-- A malformed id is refused and not fatal: neither version of `getDecorationInfo`
raises or reads behind the decoded bytes, and what is no id of this server is
refused. -/
structure RefusedNotFatal (codec : Codec) (serv : ServerConfig) (dn : Bytes) : Prop where
  connect : (∀ beyond, getDecorationInfo beyond dn ≠ none) ∧
    8 ≤ (base64Decode (dn.take 12)).length
  push : (∀ beyond, PushServer.getDecorationInfo beyond dn = none) ∨
    8 ≤ (base64Decode (dn.take 12)).length
  refuses : ¬ WellFormed serv dn → Refuses codec serv dn

/-- The first four bytes of a longer buffer do not depend on what follows. -/
theorem readInt32_append {bytes : Bytes} (long : 4 ≤ bytes.length) (beyond : Bytes) :
    readInt32 (bytes ++ beyond) = readInt32 bytes := by
  rw [readInt32, readInt32, List.take_append_of_le_length long]

theorem getDecorationInfo_of_decoded {dn : Bytes} (long : 12 ≤ dn.length)
    (eight : 8 ≤ (base64Decode (dn.take 12)).length) (beyond : Bytes) :
    getDecorationInfo beyond dn = some ⟨readInt32 (base64Decode (dn.take 12)),
      readInt32 ((base64Decode (dn.take 12)).drop 4), dn.drop 12⟩ := by
  rw [getDecorationInfo]
  simp only [if_neg (Nat.not_lt.mpr long)]
  rw [readInt32_append (by omega), List.drop_append_of_le_length (by omega),
    readInt32_append (by rw [List.length_drop]; omega)]

/-- A string that decodes but is no id of this server leads nowhere. -/
theorem getConFromSessid_of_not_wellFormed {serv : ServerConfig} {dn : Bytes}
    (long : 12 ≤ dn.length) (eight : 8 ≤ (base64Decode (dn.take 12)).length)
    (foreign : ¬ WellFormed serv dn) (beyond : Bytes) :
    getConFromSessid serv beyond dn = some (.error invalidSessionId) := by
  rw [getConFromSessid, getDecorationInfo_of_decoded long eight, Option.map_some]
  rw [WellFormed] at foreign
  by_cases other : readInt32 (base64Decode (dn.take 12)) ≠ serv.ID
  · rw [if_pos other]
  · rw [if_neg other]
    have outside : getEventLoopId (readInt32 ((base64Decode (dn.take 12)).drop 4)) < 0 ∨
        serv.threadCount ≤ getEventLoopId (readInt32 ((base64Decode (dn.take 12)).drop 4)) := by
      by_contra inside
      rw [not_or, Int.not_lt, Int.not_le] at inside
      exact foreign ⟨not_not.mp other, inside⟩
    simp only [if_pos outside]

section Handlers

variable {codec : Codec} {serv : ServerConfig} {dn : Bytes}

/-- Where the string leads nowhere without an exception, the push is refused. -/
theorem refuses_of_invalid (answers : ∀ svresp, codec.serializePushResponse svresp ≠ [])
    (nonempty : dn ≠ [])
    (invalid : ∀ beyond, getConFromSessid serv beyond dn = some (.error invalidSessionId)) :
    Refuses codec serv dn := by
  constructor
  · intro id c env p svreq isPush parsed target server
    have notLogin : ¬ p.cmd = loginReq := by
      rw [isPush]
      decide
    have notNegative : ¬ (c.touch env.now).sess.type < 0 := Int.not_lt.mpr server
    have sameType : 0 ≤ (c.touch env.now).sess.type := server
    have silent : (c.updateSession env.now).2.2 = [] := by
      simp only [CliCon.updateSession, if_pos sameType]
    obtain ⟨-, touchEq, -⟩ := CliCon.updateSession_spec c env.now
    have replies : c.handleCmd codec serv id env p = ⟨some invalidSessionId, c.touch env.now,
        codec.serializePushResponse
          ⟨CliCon.upperNull, some svreq.fromSessid, svreq.sn, invalidSessionId⟩, []⟩ := by
      rw [CliCon.handleCmd, if_neg notLogin, if_pos isPush, CliCon.refreshing]
      simp only [touchEq, silent, CliCon.handlePushRequest, parsed, if_neg notNegative, target,
        invalid, CliCon.exitPush, List.append_nil]
      rfl
    rw [CliCon.handlePacket, replies]
    simp only [answers, ne_eq, not_false_eq_true, true_or, if_true, List.nil_append, isPush]
  · intro id c env p svresp isResp parsed target
    refine ⟨invalid env.beyond, ?_⟩
    have notLogin : ¬ p.cmd = loginReq := by
      rw [isResp]
      decide
    have notPush : ¬ p.cmd = pushReq := by
      rw [isResp]
      decide
    have notKeepalive : ¬ p.cmd = keepaliveReq := by
      rw [isResp]
      decide
    obtain ⟨-, touchEq, -⟩ := CliCon.updateSession_spec c env.now
    obtain ⟨first, rest, rfl⟩ := List.exists_cons_of_ne_nil nonempty
    have replies : c.handleCmd codec serv id env p =
        ⟨some 0, c.touch env.now, [], (c.updateSession env.now).2.2⟩ := by
      rw [CliCon.handleCmd, if_neg notLogin, if_neg notPush, if_pos isResp, CliCon.refreshing]
      simp only [touchEq, CliCon.handlePushResponse, parsed, target, invalid,
        CliCon.exitPushResponse, List.append_nil]
      rfl
    rw [CliCon.handlePacket, replies]
    simp only [ne_eq, not_true_eq_false, notKeepalive, or_self, if_false]

end Handlers

/-- The property holds of a string exactly when it has twelve characters and these
are `Groups`. -/
theorem refusedNotFatal_iff_groups {codec : Codec}
    (answers : ∀ svresp, codec.serializePushResponse svresp ≠ []) (serv : ServerConfig)
    (dn : Bytes) : RefusedNotFatal codec serv dn ↔ 12 ≤ dn.length ∧ Groups false (dn.take 12) := by
  constructor
  · rintro ⟨⟨total, eight⟩, -, -⟩
    have long : 12 ≤ dn.length := by
      by_contra short
      exact total [] (by simp [getDecorationInfo, Nat.not_le.mp short])
    have twelve : (dn.take 12).length = 12 := by
      rw [List.length_take, Nat.min_eq_left long]
    exact ⟨long, (eight_le_length_base64Decode_iff twelve).mp eight⟩
  · rintro ⟨long, groups⟩
    have twelve : (dn.take 12).length = 12 := by
      rw [List.length_take, Nat.min_eq_left long]
    have eight := (eight_le_length_base64Decode_iff twelve).mpr groups
    have nonempty : dn ≠ [] := by
      rintro rfl
      exact absurd long (by decide)
    refine ⟨⟨fun beyond => ?_, eight⟩, Or.inr eight, fun foreign => ?_⟩
    · rw [getDecorationInfo_of_decoded long eight]
      simp
    · exact refuses_of_invalid answers nonempty
        (getConFromSessid_of_not_wellFormed long eight foreign)

/-- The session id of another server is refused. -/
theorem refusedNotFatal_iff_groups_foreign :
    RefusedNotFatal wireCodec.toCodec ⟨7, 4⟩ (decorationName 8 1000001 [117]) ↔
      12 ≤ (decorationName 8 1000001 [117]).length ∧
        Groups false ((decorationName 8 1000001 [117]).take 12) :=
  refusedNotFatal_iff_groups serializePushResponse_ne_nil ⟨7, 4⟩ _

/-- A server that is logged in. -/
def pusher : CliCon :=
  { CliCon.init samplePort with status := .login, sess := { Sess.init with type := 3 } }

/-- Three characters raise an exception, and the connection that sent them is
closed.  Twelve characters with two of padding decode to seven bytes. -/
theorem malformed_sessid_is_fatal :
    (¬ RefusedNotFatal gimCodec.toCodec ⟨7, 4⟩ [97, 98, 99] ∧
      (pusher.handlePacket gimCodec.toCodec ⟨7, 4⟩ 1000001 (sampleEnv 1)
        (packetOf pushReq (pushBytes [97, 98, 99] [49] 0) (by decide +kernel))).ret = -1) ∧
    ¬ RefusedNotFatal gimCodec.toCodec ⟨7, 4⟩
      [65, 65, 65, 65, 65, 65, 65, 65, 65, 65, 61, 61] := by
  refine ⟨⟨fun holds => ?_, by decide +kernel⟩, fun holds => ?_⟩
  · exact holds.connect.1 [] (by decide +kernel)
  · exact absurd holds.connect.2 (by decide +kernel)

end GPush.ConnectServer
