import GPush.PushServer.Relay
import GPush.Transition.Traced

/-!
# Requests that nobody checks

`handlePushReqeust` reads the members of whatever `Json::Reader` has parsed.  An array or a
number has no members, and an array is neither a number nor a string, so such a request
ends in an exception, and nothing from there up to the thread of the event loop catches it.
-/

namespace GPush.Json.Value

/-! ## What the accessors take -/

/-- The values that `asInt` converts. -/
def TakesInt (realToInt : UInt64 → Option Int) : Value → Prop
  | null | int _ | bool _ => True
  | uint n => n < 2147483647
  | real bits => (realToInt bits).isSome
  | string _ | array _ | object _ => False

/-- The values that `asString` converts. -/
def TakesString : Value → Prop
  | null | string _ | bool _ => True
  | int _ | uint _ | real _ | array _ | object _ => False

/-- The members that `operator[]` with a string looks at. -/
def members : Value → Option (List (String × Value))
  | null => some []
  | object members => some members
  | _ => none

theorem asInt_isSome_iff {realToInt : UInt64 → Option Int} {v : Value} :
    (v.asInt realToInt).isSome ↔ v.TakesInt realToInt := by
  cases v with
  | uint n =>
      rw [asInt, TakesInt]
      split_ifs with small <;> simp [small]
  | _ => simp [asInt, TakesInt]

theorem asString_isSome_iff {v : Value} : v.asString.isSome ↔ v.TakesString := by
  cases v <;> simp [asString, TakesString]

theorem get_eq (key : String) (v : Value) :
    v.get key = v.members.map fun members => (members.lookup key).getD null := by
  cases v <;> rfl

theorem asString_isSome_of_isString {v : Value} (string : v.isString = true) :
    v.asString.isSome := by
  cases v <;> simp_all [isString, asString]

end GPush.Json.Value

namespace GPush.PushServer

open GPush.ConnectServer GPush.Json GPush.Transition

/-! ## The calls of the handler -/

/-- A response to the client, or a packet for a connect server. -/
inductive Call
  | sendJsonResponse (v : Value)
  | sendPushRequest (msg : Bytes)

/-- The responses among some calls. -/
def responses (calls : List Call) : List Value :=
  calls.filterMap fun
    | .sendJsonResponse v => some v
    | .sendPushRequest _ => none

namespace Services

variable (codec : PeerCodec) (svc : Services)

/-- `ListenCon::sendToServer`, the `n`th time. -/
def tracedSendToServer (n : Nat) (svid : Int) (preq : PushRequest) : Traced Call Int :=
  match svc.servers svid with
  | none => return -1
  | some s => do
      .call (.sendPushRequest (s.sendPushRequest codec preq))
      return svc.sendMessage n

/-- The loop over the sessions, from the `n`th on. -/
def tracedRelayLoop (preq : PushRequest) : Nat → List Sess → Traced Call Int
  | _, [] => return 0
  | n, ss :: sv => do
      let ret ← svc.tracedSendToServer codec n ss.consvid { preq with toSessid := ss.sessid }
      let count ← tracedRelayLoop preq (n + 1) sv
      return if 0 ≤ ret then count + 1 else count

/-- An answer with an error. -/
def refuse (respv : List (String × Value)) (status : Int) (message : String) : Traced Call Int := do
  .call (.sendJsonResponse (errorResp respv status message))
  return status

/-- `ListenCon::handlePushReqeust`, call by call. -/
def tracedHandlePushReqeust (req : Bytes) : Traced Call Int :=
  match svc.parse req with
  | none => refuse [("status", .int 0)] (-1) "parse req fail"
  | some v => do
      let (preq, sn) ← .ofOption (svc.readRequest v)
      let respv := [("status", .int 0), ("sn", sn)]
      match svc.cache with
      | none => refuse respv (-2) "get sess cache fail"
      | some getSession => do
          let toId : Value ← .ofOption (v.get "to_id")
          if toId.isString = false then
            refuse respv (-4) "to_id is empty"
          else do
            let id ← .ofOption toId.asString
            if getSession id = [] then
              refuse respv (-3) "user offline"
            else do
              let count ← svc.tracedRelayLoop codec preq 0 (getSession id)
              .call (.sendJsonResponse (.object (putMember "count" (.int count) respv)))
              return count

end Services

/-! ## The handler of the results -/

section Refinement

variable {codec : PeerCodec} {svc : Services}

theorem tracedSendToServer_eq (n : Nat) (svid : Int) (preq : PushRequest) :
    svc.tracedSendToServer codec n svid preq =
      ⟨(svc.sendToServer codec n svid preq).2.map .sendPushRequest,
        some (svc.sendToServer codec n svid preq).1⟩ := by
  rw [Services.tracedSendToServer, Services.sendToServer]
  cases svc.servers svid with
  | none => rfl
  | some s => rfl

theorem tracedRelayLoop_eq (preq : PushRequest) (n : Nat) (sv : List Sess) :
    svc.tracedRelayLoop codec preq n sv =
      ⟨(svc.relayLoop codec preq n sv).2.map .sendPushRequest,
        some (svc.relayLoop codec preq n sv).1⟩ := by
  induction sv generalizing n with
  | nil => rfl
  | cons ss sv ih =>
      rw [Services.tracedRelayLoop, Services.relayLoop, tracedSendToServer_eq, ih]
      simp only [Traced.some_bind, Traced.pure_eq, List.append_nil, List.map_append]

/-- The calls of a request that is handled: the packets, and then the response. -/
def Handled.traced (handled : Handled) : Traced Call Int :=
  ⟨handled.sent.map .sendPushRequest ++ [.sendJsonResponse handled.resp], some handled.ret⟩

/-- A request that is not handled to its end has made no call. -/
theorem tracedHandlePushReqeust_eq (req : Bytes) :
    svc.tracedHandlePushReqeust codec req =
      ((svc.handlePushReqeust codec req).map Handled.traced).getD ⟨[], none⟩ := by
  rw [Services.tracedHandlePushReqeust, Services.handlePushReqeust]
  cases svc.parse req with
  | none => rfl
  | some v =>
      simp only
      cases svc.readRequest v with
      | none => rfl
      | some request =>
          obtain ⟨preq, sn⟩ := request
          simp only [Traced.ofOption_some_bind, Option.bind_some]
          cases svc.cache with
          | none => rfl
          | some getSession =>
              simp only
              cases v.get "to_id" with
              | none => rfl
              | some toId =>
                  simp only [Traced.ofOption_some_bind, Option.bind_some]
                  by_cases noString : toId.isString = false
                  · rw [if_pos noString, if_pos noString]
                    rfl
                  · rw [if_neg noString, if_neg noString]
                    cases toId.asString with
                    | none => rfl
                    | some id =>
                        simp only [Traced.ofOption_some_bind, Option.bind_some]
                        by_cases offline : getSession id = []
                        · rw [if_pos offline, if_pos offline]
                          rfl
                        · rw [if_neg offline, if_neg offline, tracedRelayLoop_eq, Traced.some_bind]
                          rfl

end Refinement

/-! ## When it returns -/

/-- The request is an object, or null, and its type, its payload and its `sn`, null where
they are missing, convert. -/
def Services.Converts (svc : Services) (v : Value) : Prop :=
  ∃ members, v.members = some members ∧
    ((members.lookup "type").getD .null).TakesInt svc.realToInt ∧
    ((members.lookup "payload").getD .null).TakesString ∧
    ((members.lookup "sn").getD .null).TakesString

/-- The handler returns after exactly one response. -/
def Services.Returns (codec : PeerCodec) (svc : Services) (req : Bytes) : Prop :=
  ∃ ret resp, (svc.tracedHandlePushReqeust codec req).result = some ret ∧
    responses (svc.tracedHandlePushReqeust codec req).calls = [resp]

section Total

variable {codec : PeerCodec} {svc : Services} {req : Bytes}

theorem responses_traced (handled : Handled) : responses handled.traced.calls = [handled.resp] := by
  have silent : responses (handled.sent.map .sendPushRequest) = [] := by
    rw [responses, List.filterMap_map]
    exact List.filterMap_eq_nil_iff.mpr fun _ _ => rfl
  rw [Handled.traced, responses, List.filterMap_append]
  exact congrArg (· ++ [handled.resp]) silent

theorem returns_iff_handled :
    svc.Returns codec req ↔ (svc.handlePushReqeust codec req).isSome := by
  rw [Services.Returns, tracedHandlePushReqeust_eq]
  cases svc.handlePushReqeust codec req with
  | none => simp
  | some handled =>
      simp only [Option.map_some, Option.getD_some, responses_traced, Option.isSome_some, iff_true]
      exact ⟨handled.ret, handled.resp, rfl, rfl⟩

theorem readRequest_isSome_iff {v : Value} : (svc.readRequest v).isSome ↔ svc.Converts v := by
  simp only [Services.readRequest, Services.Converts, Value.get_eq]
  cases v.members with
  | none => simp
  | some members =>
      simp only [Option.map_some, Option.bind_eq_bind, Option.bind_some, Option.some.injEq,
        exists_eq_left', ← Value.asInt_isSome_iff, ← Value.asString_isSome_iff]
      cases ((members.lookup "type").getD .null).asInt svc.realToInt with
      | none => simp
      | some type =>
          cases ((members.lookup "payload").getD .null).asString with
          | none => simp
          | some payload => cases ((members.lookup "sn").getD .null).asString <;> simp

/-- Behind the reading of the request nothing raises: `to_id` is looked up in the same
value, and converted only when it is a string. -/
theorem handled_of_read {v : Value} (parsed : svc.parse req = some v)
    (read : (svc.readRequest v).isSome) : (svc.handlePushReqeust codec req).isSome := by
  obtain ⟨members, membersEq, -⟩ := readRequest_isSome_iff.mp read
  obtain ⟨⟨preq, sn⟩, readEq⟩ := Option.isSome_iff_exists.mp read
  simp only [Services.handlePushReqeust, parsed, readEq, Option.bind_some, Value.get_eq, membersEq,
    Option.map_some]
  cases svc.cache with
  | none => rfl
  | some getSession =>
      simp only
      by_cases noString : ((members.lookup "to_id").getD .null).isString = false
      · rw [if_pos noString]
        rfl
      · obtain ⟨id, idEq⟩ := Option.isSome_iff_exists.mp
          (Value.asString_isSome_of_isString ((Bool.not_eq_false _).mp noString))
        rw [if_neg noString, idEq, Option.bind_some]
        split_ifs <;> rfl

end Total

/-- The handler returns after one response exactly when the body does not parse, or it is an
object or null whose type, payload and `sn` convert. -/
theorem returns_iff_converts (codec : PeerCodec) (svc : Services) (req : Bytes) :
    svc.Returns codec req ↔ ∀ v, svc.parse req = some v → svc.Converts v := by
  rw [returns_iff_handled]
  constructor
  · intro handled v parsed
    rw [Services.handlePushReqeust, parsed] at handled
    apply readRequest_isSome_iff.mp
    by_contra unread
    rw [Option.not_isSome_iff_eq_none] at unread
    simp [unread] at handled
  · intro converts
    cases parsed : svc.parse req with
    | none => simp [Services.handlePushReqeust, parsed]
    | some v => exact handled_of_read parsed (readRequest_isSome_iff.mpr (converts v parsed))

/-- A server that gets the body `[]`, or one whose `sn` is an array. -/
def arrayServices : Services where
  parse req :=
    if req = ascii "[]" then some (.array [])
    else if req = ascii "\x7b\"sn\":[]\x7d" then some (.object [("sn", .array [])])
    else none
  realToInt _ := none
  cache := some fun _ => []
  servers _ := none
  sendMessage _ := 0

/-- Both bodies end in an exception before any response. -/
theorem array_bodies_raise :
    arrayServices.tracedHandlePushReqeust wireCodec (ascii "[]") = ⟨[], none⟩ ∧
      ¬arrayServices.Returns wireCodec (ascii "[]") ∧
      arrayServices.tracedHandlePushReqeust wireCodec (ascii "\x7b\"sn\":[]\x7d") = ⟨[], none⟩ ∧
      ¬arrayServices.Returns wireCodec (ascii "\x7b\"sn\":[]\x7d") := by
  have raised : ∀ {req}, arrayServices.handlePushReqeust wireCodec req = none →
      arrayServices.tracedHandlePushReqeust wireCodec req = ⟨[], none⟩ ∧
        ¬arrayServices.Returns wireCodec req := by
    intro req unhandled
    rw [tracedHandlePushReqeust_eq, returns_iff_handled, unhandled]
    exact ⟨rfl, Bool.noConfusion⟩
  have root : arrayServices.handlePushReqeust wireCodec (ascii "[]") = none := by
    simp [Services.handlePushReqeust, arrayServices, Services.readRequest, Value.get]
  have member : arrayServices.handlePushReqeust wireCodec (ascii "\x7b\"sn\":[]\x7d") = none := by
    have other : ascii "\x7b\"sn\":[]\x7d" ≠ ascii "[]" := by decide
    simp [Services.handlePushReqeust, arrayServices, other, Services.readRequest, Value.get,
      List.lookup_cons, Value.asInt, Value.asString]
  exact ⟨(raised root).1, (raised root).2, (raised member).1, (raised member).2⟩

end GPush.PushServer
