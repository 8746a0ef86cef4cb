import GPush.Connection.Serve
import GPush.PushServer.Relay

/-!
# Pipelined pushes

`ListenCon` answers the requests of a stream one after the other.  What its handler answers
to `handleRead` is the status of the push, and a negative one closes the connection.
-/

namespace GPush.PushServer

open GPush.Connection GPush.ConnectServer GPush.Framing GPush.Json GPush.LoopBuf

namespace ListenCon

/-- `JSON_PUSH_RESP`. -/
def jsonPushResp : Int := 200 + 1

/-- What the handler finds for the targets of one request: the session cache, the
connections to connect servers, and the results of their `sendMessage`. -/
structure Targets where
  cache : Option (Bytes → List Sess)
  servers : Int → Option SvCon
  sendMessage : Nat → Int

/-- What stays the same: the message classes, `Json::Reader::parse`, the conversion of a
`double`, and `Json::Value::toStyledString`. -/
structure Library where
  codec : PeerCodec
  parse : Bytes → Option Value
  realToInt : UInt64 → Option Int
  toStyledString : Value → Bytes

/-- What the handler finds for a request. -/
def Library.services (lib : Library) (targets : Targets) : Services :=
  ⟨lib.parse, lib.realToInt, targets.cache, targets.servers, targets.sendMessage⟩

/-- What the handler reads of a request, whatever the targets. -/
def Library.readRequest (lib : Library) (v : Value) : Option (PushRequest × Value) :=
  (lib.services ⟨none, fun _ => none, fun _ => 0⟩).readRequest v

/-- The requests that were handled, and the messages sent to the client. -/
structure State where
  handled : Nat
  messages : List Bytes
  deriving DecidableEq, Repr

/-- A new connection. -/
def State.init : State := ⟨0, []⟩

/-- `ListenCon::sendJsonResponse`. -/
def sendJsonResponse (lib : Library) (s : State) (v : Value) : State :=
  { s with messages := s.messages ++ [peerBytes jsonPushResp (lib.toStyledString v)] }

/-- `ListenCon::handlePacket`, where the `n`th request finds `targets n`.  An assertion of
`Json::Value` ends everything. -/
def handlePacket (lib : Library) (targets : Nat → Targets) (s : State) (req : Bytes) :
    Int × State :=
  if beInt32 ((req.drop 8).take 4) = jsonPushReq then
    match (lib.services (targets s.handled)).handlePushReqeust lib.codec
        (req.drop sizeofHead) with
    | none => (-1, s)
    | some handled =>
        (handled.ret, sendJsonResponse lib { s with handled := s.handled + 1 } handled.resp)
  else
    (0, s)

/-! ## The property -/

/-- The body is a push request: its members have the types that the handler reads, it has a
target, and it fits in a packet. -/
structure WellFormed (lib : Library) (body : Bytes) : Prop where
  request : ∃ v preq sn id, lib.parse body = some v ∧ lib.readRequest v = some (preq, sn) ∧
    v.get "to_id" = some (.string id)
  fits : body.length ≤ maxLen - sizeofHead

/-- The message is a response that has the `sn` of the request. -/
def Answers (lib : Library) (body msg : Bytes) : Prop :=
  ∃ v sn resp, lib.parse body = some v ∧ v.get "sn" = some sn ∧ resp.get "sn" = some sn ∧
    msg = peerBytes jsonPushResp (lib.toStyledString resp)

/-- The packets of some requests. -/
def requests (bodies : List Bytes) : List Bytes := bodies.map (peerBytes jsonPushReq)

/-- The requests are answered one by one, and the connection stays open. -/
def AllAnswered (lib : Library) (targets : Nat → Targets) (bodies : List Bytes)
    (scripts : List (List SysRecv)) : Prop :=
  ∃ readings, readAll checkLen (handlePacket lib targets) LoopBuf.init State.init scripts =
      some readings ∧
    readings.length = scripts.length ∧ (∀ reading ∈ readings, 0 ≤ reading.ret) ∧
    List.Forall₂ (Answers lib) bodies (finalState State.init readings).messages

/-- The session cache is there, and it has a session of the user. -/
def Online (lib : Library) (targets : Targets) (body : Bytes) : Prop :=
  ∃ v id getSession, lib.parse body = some v ∧ v.get "to_id" = some (.string id) ∧
    targets.cache = some getSession ∧ getSession id ≠ []

/-- Each of the requests, the first of which is the `n`th, finds its user online. -/
def AllOnline (lib : Library) (targets : Nat → Targets) : Nat → List Bytes → Prop
  | _, [] => True
  | n, body :: bodies => Online lib (targets n) body ∧ AllOnline lib targets (n + 1) bodies

/-! ## One request -/

section Request

variable {lib : Library} {targets : Targets} {body : Bytes}

theorem relayLoop_nonneg (codec : PeerCodec) (svc : Services) (preq : PushRequest) (n : Nat)
    (sv : List Sess) : 0 ≤ (svc.relayLoop codec preq n sv).1 := by
  induction sv generalizing n with
  | nil => exact Int.le_refl 0
  | cons ss sv ih =>
      have later := ih (n + 1)
      rw [Services.relayLoop]
      simp only
      split_ifs
      · omega
      · exact later

theorem get_sn_of_readRequest {v : Value} {preq : PushRequest} {sn : Value}
    (readEq : lib.readRequest v = some (preq, sn)) : v.get "sn" = some sn := by
  simp only [Library.readRequest, Services.readRequest, Option.bind_eq_bind,
    Option.bind_eq_some_iff, Option.pure_def, Option.some.injEq, Prod.mk.injEq] at readEq
  obtain ⟨sn', snEq, _, _, _, _, _, _, _, _, _, _, _, rfl⟩ := readEq
  exact snEq

/-- What the handler answers to a request, by the session cache. -/
theorem handlePushReqeust_eq (targets : Targets) {v : Value} {preq : PushRequest} {sn : Value}
    {id : Bytes} (parsed : lib.parse body = some v) (readEq : lib.readRequest v = some (preq, sn))
    (toIdEq : v.get "to_id" = some (.string id)) :
    (lib.services targets).handlePushReqeust lib.codec body =
      match targets.cache with
      | none => some ⟨-2, errorResp [("status", .int 0), ("sn", sn)] (-2) "get sess cache fail", []⟩
      | some getSession =>
          if getSession id = [] then
            some ⟨-3, errorResp [("status", .int 0), ("sn", sn)] (-3) "user offline", []⟩
          else
            let (count, sent) :=
              (lib.services targets).relayLoop lib.codec preq 0 (getSession id)
            some ⟨count, .object (putMember "count" (.int count) [("status", .int 0), ("sn", sn)]),
              sent⟩ := by
  have parsed' : (lib.services targets).parse body = some v := parsed
  have readEq' : (lib.services targets).readRequest v = some (preq, sn) := readEq
  have cacheEq : (lib.services targets).cache = targets.cache := rfl
  rw [Services.handlePushReqeust, parsed']
  simp only [readEq', Option.bind_some, cacheEq]
  cases targets.cache with
  | none => rfl
  | some getSession =>
      simp only [toIdEq, Option.bind_some, Value.isString, Value.asString, Bool.true_eq_false,
        if_false]

/-- A user who is online is pushed to; the count of the sessions is the answer. -/
theorem handled_of_online (wellFormed : WellFormed lib body) (online : Online lib targets body) :
    ∃ handled, (lib.services targets).handlePushReqeust lib.codec body = some handled ∧
      0 ≤ handled.ret ∧ ∃ v sn, lib.parse body = some v ∧ v.get "sn" = some sn ∧
        handled.resp.get "sn" = some sn := by
  obtain ⟨v, preq, sn, id, parsed, readEq, toIdEq⟩ := wellFormed.request
  obtain ⟨v', id', getSession, parsed', toIdEq', cacheEq, found⟩ := online
  cases parsed.symm.trans parsed'
  cases toIdEq.symm.trans toIdEq'
  have handledEq := handlePushReqeust_eq targets parsed readEq toIdEq
  rw [cacheEq] at handledEq
  simp only [if_neg found] at handledEq
  refine ⟨_, handledEq, relayLoop_nonneg _ _ _ _ _, v, sn, parsed, get_sn_of_readRequest readEq, ?_⟩
  simp [putMember, Value.get, List.lookup_cons]

/-- Otherwise the answer is negative. -/
theorem handled_of_offline (wellFormed : WellFormed lib body)
    (offline : ¬Online lib targets body) :
    ∃ handled, (lib.services targets).handlePushReqeust lib.codec body = some handled ∧
      handled.ret < 0 := by
  obtain ⟨v, preq, sn, id, parsed, readEq, toIdEq⟩ := wellFormed.request
  have handledEq := handlePushReqeust_eq targets parsed readEq toIdEq
  cases cacheEq : targets.cache with
  | none =>
      rw [cacheEq] at handledEq
      exact ⟨_, handledEq, Int.negSucc_lt_zero _⟩
  | some getSession =>
      rw [cacheEq] at handledEq
      by_cases found : getSession id = []
      · simp only [if_pos found] at handledEq
        exact ⟨_, handledEq, Int.negSucc_lt_zero _⟩
      · exact absurd ⟨v, id, getSession, parsed, toIdEq, cacheEq, found⟩ offline

theorem read_request (body : Bytes) :
    beInt32 (((peerBytes jsonPushReq body).drop 8).take 4) = jsonPushReq ∧
      (peerBytes jsonPushReq body).drop sizeofHead = body := by
  exact ⟨cmd_peerBytes (by decide) (by decide) body, body_peerBytes jsonPushReq body⟩

end Request

/-! ## A stream of requests -/

section Stream

variable {lib : Library} {targets : Nat → Targets} {bodies : List Bytes} {s : State}

theorem handlePacket_request {body : Bytes} {handled : Handled}
    (handledEq : (lib.services (targets s.handled)).handlePushReqeust lib.codec body =
      some handled) :
    handlePacket lib targets s (peerBytes jsonPushReq body) =
      (handled.ret, sendJsonResponse lib { s with handled := s.handled + 1 } handled.resp) := by
  obtain ⟨cmdEq, bodyEq⟩ := read_request body
  rw [handlePacket, if_pos cmdEq, bodyEq, handledEq]

/-- While the users are online the requests are answered in order. -/
theorem serve_of_online (wellFormed : ∀ body ∈ bodies, WellFormed lib body)
    (online : AllOnline lib targets s.handled bodies) :
    ∃ s' msgs, Connection.serve (handlePacket lib targets) s (requests bodies) = some s' ∧
      s'.messages = s.messages ++ msgs ∧ List.Forall₂ (Answers lib) bodies msgs := by
  induction bodies generalizing s with
  | nil => exact ⟨s, [], rfl, (List.append_nil _).symm, List.Forall₂.nil⟩
  | cons body bodies ih =>
      obtain ⟨here, later⟩ := online
      obtain ⟨handled, handledEq, nonneg, v, sn, parsed, snEq, respEq⟩ :=
        handled_of_online (wellFormed body List.mem_cons_self) here
      have packetEq := handlePacket_request handledEq
      obtain ⟨s', msgs, served, messagesEq, answers⟩ :=
        ih (s := sendJsonResponse lib { s with handled := s.handled + 1 } handled.resp)
          (fun other member => wellFormed other (List.mem_cons_of_mem _ member)) later
      refine ⟨s', peerBytes jsonPushResp (lib.toStyledString handled.resp) :: msgs, ?_, ?_, ?_⟩
      · rw [requests, List.map_cons, Connection.serve, packetEq, if_neg (Int.not_lt.mpr nonneg)]
        exact served
      · rw [messagesEq, sendJsonResponse, List.append_assoc, List.singleton_append]
      · exact List.Forall₂.cons ⟨v, sn, handled.resp, parsed, snEq, respEq, rfl⟩ answers

/-- The first user who is offline ends the connection. -/
theorem serve_of_offline (wellFormed : ∀ body ∈ bodies, WellFormed lib body)
    (offline : ¬AllOnline lib targets s.handled bodies) :
    Connection.serve (handlePacket lib targets) s (requests bodies) = none := by
  induction bodies generalizing s with
  | nil => exact absurd trivial offline
  | cons body bodies ih =>
      have here := wellFormed body List.mem_cons_self
      rw [requests, List.map_cons, Connection.serve]
      by_cases online : Online lib (targets s.handled) body
      · obtain ⟨handled, handledEq, nonneg, _⟩ := handled_of_online here online
        rw [handlePacket_request handledEq, if_neg (Int.not_lt.mpr nonneg)]
        apply ih fun other member => wellFormed other (List.mem_cons_of_mem _ member)
        intro later
        exact offline ⟨online, later⟩
      · obtain ⟨handled, handledEq, negative⟩ := handled_of_offline here online
        rw [handlePacket_request handledEq, if_pos negative]

theorem framesOf_requests (wellFormed : ∀ body ∈ bodies, WellFormed lib body) :
    framesOf (requests bodies).flatten = ⟨requests bodies, [], false⟩ := by
  apply framesOf_flatten
  intro packet member
  obtain ⟨body, bodyMem, rfl⟩ := List.mem_map.mp member
  exact (fits_peerBytes_iff.mpr (wellFormed body bodyMem).fits).2

end Stream

/-- Take any well-formed requests, sent back to back and received in any chunks, and any
targets.  Each request is answered, in order and with its `sn`, and the connection stays open,
exactly when the session cache is there and has a session of the user, for every request. -/
theorem allAnswered_iff_online (lib : Library) (targets : Nat → Targets) {bodies : List Bytes}
    {scripts : List (List SysRecv)} (wellFormed : ∀ body ∈ bodies, WellFormed lib body)
    (chunks : stream scripts = (requests bodies).flatten)
    (supplied : Supplied (handlePacket lib targets) LoopBuf.init State.init scripts) :
    AllAnswered lib targets bodies scripts ↔ AllOnline lib targets 0 bodies := by
  have frames := framesOf_requests wellFormed
  have valid : (framesOf (stream scripts)).invalid = false := by
    rw [chunks, frames]
  obtain ⟨readings, readEq, done⟩ := readAll_serves_init supplied valid
  rw [chunks, frames] at done
  constructor
  · rintro ⟨readings', readEq', _, nonneg, _⟩
    by_contra offline
    rw [serve_of_offline wellFormed offline] at done
    obtain ⟨reading, member, negative⟩ := done
    cases readEq.symm.trans readEq'
    exact absurd negative (Int.not_lt.mpr (nonneg reading member))
  · intro online
    obtain ⟨s', msgs, served, messagesEq, answers⟩ :=
      serve_of_online (s := State.init) wellFormed online
    rw [served] at done
    obtain ⟨lengthEq, nonneg, finalEq⟩ := done
    refine ⟨readings, readEq, lengthEq, nonneg, ?_⟩
    rw [finalEq, messagesEq]
    exact answers

/-- The library on the request to the user `u` and on its two responses. -/
def sampleLibrary : Library where
  codec := wireCodec
  parse := (servicesOf 3).parse
  realToInt _ := none
  toStyledString v :=
    match v.get "count" with
    | some (.int _) =>
        ascii "\x7b\n   \"count\" : 1,\n   \"sn\" : \"1\",\n   \"status\" : 0\n\x7d\n"
    | _ =>
        ascii "\x7b\n   \"message\" : \"user offline\",\n   \"sn\" : \"1\",\n" ++
          ascii "   \"status\" : -3\n\x7d\n"

/-- The user `u` has a session. -/
def onlineTargets : Targets := ⟨(servicesOf 3).cache, (servicesOf 3).servers, fun _ => 0⟩

/-- Nobody has a session. -/
def offlineTargets : Targets := ⟨some fun _ => [], (servicesOf 3).servers, fun _ => 0⟩

/-- The bytes of a request, in one chunk. -/
def oneChunk : List (List SysRecv) :=
  [[.data (peerBytes jsonPushReq (jsonText 3)), .fail .eagain]]

/-- The document of the request. -/
def sampleValue : Value :=
  .object [("payload", .string (payloadOf 3)), ("sn", .string [49]), ("to_id", .string [117])]

theorem parse_sample : sampleLibrary.parse (jsonText 3) = some sampleValue := by
  simp [sampleLibrary, servicesOf, sampleValue]

theorem toId_sample : sampleValue.get "to_id" = some (.string [117]) := by
  simp [sampleValue, Value.get, List.lookup_cons]

theorem wellFormed_sample : ∀ body ∈ [jsonText 3], WellFormed sampleLibrary body := by
  intro body member
  obtain rfl := List.mem_singleton.mp member
  refine ⟨⟨_, pushOf 3, .string [49], _, parse_sample, readRequest_sample 3, toId_sample⟩, ?_⟩
  rw [length_jsonText]
  decide

theorem supplied_sample (targets : Nat → Targets) :
    Supplied (handlePacket sampleLibrary targets) LoopBuf.init State.init oneChunk :=
  ⟨by decide +kernel, fun _ _ _ _ => trivial⟩

theorem chunks_sample : stream oneChunk = (requests [jsonText 3]).flatten := by
  decide +kernel

theorem allAnswered_iff_online_sample :
    AllAnswered sampleLibrary (fun _ => onlineTargets) [jsonText 3] oneChunk := by
  apply (allAnswered_iff_online sampleLibrary _ wellFormed_sample chunks_sample
    (supplied_sample _)).mpr
  refine ⟨⟨_, _, _, parse_sample, toId_sample, rfl, ?_⟩, trivial⟩
  simp

/-- A push to a user who is offline is answered, and the connection closed. -/
theorem offline_push_closes :
    (∀ body ∈ [jsonText 3], WellFormed sampleLibrary body) ∧
      stream oneChunk = (requests [jsonText 3]).flatten ∧
      Supplied (handlePacket sampleLibrary fun _ => offlineTargets) LoopBuf.init State.init
        oneChunk ∧
      ¬AllAnswered sampleLibrary (fun _ => offlineTargets) [jsonText 3] oneChunk := by
  refine ⟨wellFormed_sample, chunks_sample, supplied_sample _, ?_⟩
  rintro ⟨readings, readEq, _, nonneg, _⟩
  have negative : (readAll checkLen (handlePacket sampleLibrary fun _ => offlineTargets)
      LoopBuf.init State.init oneChunk).any (·.any fun reading => decide (reading.ret < 0)) =
        true := by
    decide +kernel
  rw [readEq, Option.any_some, List.any_eq_true] at negative
  obtain ⟨reading, member, isNegative⟩ := negative
  exact absurd (of_decide_eq_true isNegative) (Int.not_lt.mpr (nonneg reading member))

end ListenCon

end GPush.PushServer
