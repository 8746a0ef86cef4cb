import GPush.ClientSdk.EventLoop
import GPush.ClientSdk.Spoken

/-!
# The events that the event loop publishes

The event loop keeps every connection in order while its packets and its end come in order.
The code does not check that they do: it handles every packet in any status.
-/

namespace GPush.ClientSdk

open GPush.ConnectServer GPush.Transition

namespace EventLoop

variable {codec : PeerCodec} {el : EventLoop} {cid : Bytes} {o : Obj}

/-- What every connection has published is legal, also of one that has been destroyed. -/
def Grammatical (el : EventLoop) : Prop :=
  (∀ cid o, el.conns cid = some o → Legal (published o.past)) ∧
    ∀ o ∈ el.dead, Legal (published o.past)

/-- The connection that an operation of the user disconnects. -/
def disconnects : Op → Option Bytes
  | .call (.disconnect cid) => some cid
  | _ => none

variable (codec) in
/-- The user disconnects a connection only while it is logged in, or later, and what is read
comes in order. -/
def InOrder (el : EventLoop) : Event → Prop
  | .call _ => True
  | .process _ => ∀ op ∈ el.ops.head?, ∀ cid ∈ disconnects op, ∀ o ∈ el.conns cid, o.con.Accepted
  | .timers _ _ _ => True
  | .read cid _ received => ∀ o ∈ el.conns cid, Expected codec o.con received

instance : (event : Event) → Decidable (InOrder codec el event)
  | .call _ => isTrue trivial
  | .process _ => inferInstanceAs (Decidable
      (∀ op ∈ el.ops.head?, ∀ cid ∈ disconnects op, ∀ o ∈ el.conns cid, o.con.Accepted))
  | .timers _ _ _ => isTrue trivial
  | .read cid _ received =>
      inferInstanceAs (Decidable (∀ o ∈ el.conns cid, Expected codec o.con received))

/-- The invariant. -/
structure AllSpoken (el : EventLoop) : Prop where
  conns : ∀ cid o, el.conns cid = some o → Spoken o.con o.past
  dead : ∀ o ∈ el.dead, Legal (published o.past)

theorem allSpoken_init : AllSpoken init := by
  constructor
  · intro cid o found
    cases found
  · intro o member
    cases member

namespace AllSpoken

theorem grammatical (all : AllSpoken el) : el.Grammatical :=
  ⟨fun cid o found => legal_of_phase (all.conns cid o found).phase, all.dead⟩

theorem ops (all : AllSpoken el) (ops : List Op) : AllSpoken { el with ops := ops } :=
  ⟨all.conns, all.dead⟩

theorem call {out : Out} (all : AllSpoken el) (spoken : Spoken out.con (o.past ++ out.acts)) :
    AllSpoken (el.call cid o out) := by
  constructor
  · intro cid' o' found
    rcases Table.update_eq_some.mp found with ⟨-, new⟩ | ⟨-, old⟩
    · rw [← Option.some.inj new]
      exact spoken
    · exact all.conns cid' o' old
  · exact all.dead

theorem destroy (all : AllSpoken el) (found : el.conns cid = some o) : AllSpoken { el with
    conns := Function.update el.conns cid none, dead := el.dead ++ [o] } := by
  constructor
  · intro cid' o' found
    rcases Table.update_eq_some.mp found with ⟨-, gone⟩ | ⟨-, old⟩
    · cases gone
    · exact all.conns cid' o' old
  · intro o' member
    rcases List.mem_append.mp member with earlier | new
    · exact all.dead o' earlier
    · rw [List.mem_singleton.mp new]
      exact legal_of_phase (all.conns cid o found).phase

theorem delConn (all : AllSpoken el) (cid : Bytes) : AllSpoken (el.delConn cid) := by
  rw [EventLoop.delConn]
  cases found : el.conns cid with
  | none => exact all
  | some o => exact all.destroy found

theorem processOp (all : AllSpoken el) (net : Net) (op : Op)
    (order : ∀ cid ∈ disconnects op, ∀ o ∈ el.conns cid, o.con.Accepted) :
    AllSpoken (el.processOp codec net op) := by
  cases op with
  | delConn cid => exact all.delConn cid
  | call c =>
      cases c with
      | login op =>
          rw [EventLoop.processOp, EventLoop.processLogin]
          cases el.conns op.cid with
          | some o => exact all
          | none =>
              rcases connectAndLogin_init codec net op with ⟨spoken, none, waits⟩
              apply all.call
              dsimp only
              split_ifs with zero
              · exact spoken.addLoginTimer (waits zero) none net opDefaultTimeout
              · exact spoken
      | disconnect cid =>
          rw [EventLoop.processOp]
          cases found : el.conns cid with
          | none => exact all
          | some o =>
              have accepted := order cid rfl o found
              exact all.call ((all.conns cid o found).onDisconnect accepted net 0).spoken

theorem visit (all : AllSpoken el) (found : el.conns cid = some o) (now : Int) (nets : Nat → Net) :
    AllSpoken (el.visit cid o now nets) := by
  rw [EventLoop.visit]
  split_ifs with closed
  · exact all.destroy found
  · exact all.call ((all.conns cid o found).processTimers now nets).spoken

/-- A read that is expected is no undefined behaviour. -/
theorem read (net : Net) {received : Option (List Received)} (all : AllSpoken el)
    (found : el.conns cid = some o) (expected : Expected codec o.con received) :
    ∃ el', el.read codec cid o net received = some el' ∧ AllSpoken el' := by
  rcases (all.conns cid o found).handleRead net expected with
    ⟨out, handled, spoken, accepted⟩
  refine ⟨_, by rw [EventLoop.read, handled, Option.map_some], ?_⟩
  split_ifs with failed
  · apply AllSpoken.delConn
    apply all.call
    have ended := (spoken.onDisconnect (accepted failed) net networkError).spoken
    rw [List.append_assoc] at ended
    exact ended
  · exact all.call spoken

/-- The step lemma. -/
theorem step {event : Event} {el' : EventLoop} (all : AllSpoken el)
    (order : InOrder codec el event) (taken : Step codec el event el') : AllSpoken el' := by
  cases event with
  | call c =>
      rw [← Option.some.inj taken]
      exact all.ops _
  | process net =>
      rcases step_process taken with ⟨op, rest, waiting, rfl⟩
      apply (all.ops rest).processOp
      exact order op (by rw [waiting]; rfl)
  | timers cid now nets =>
      rcases Option.map_eq_some_iff.mp taken with ⟨o, found, rfl⟩
      exact all.visit found now nets
  | read cid net received =>
      rcases Option.bind_eq_some_iff.mp taken with ⟨o, found, readEq⟩
      rcases all.read net found (order o found) with ⟨last, lastEq, spoken⟩
      rw [lastEq] at readEq
      rw [← Option.some.inj readEq]
      exact spoken

end AllSpoken

/-- In every run whose packets and ends come in order, what every connection publishes is
legal, and no packet that comes in order next is undefined behaviour. -/
theorem grammatical_of_inOrder {events : List Event} {el : EventLoop}
    (run : Run (Step codec) (InOrder codec) init events el) :
    el.Grammatical ∧ ∀ cid net received, el.conns cid ≠ none →
      InOrder codec el (.read cid net received) →
        el.next codec (.read cid net received) ≠ none := by
  have all : AllSpoken el := run.invariant allSpoken_init fun _ _ _ all order taken =>
    all.step order taken
  refine ⟨all.grammatical, fun cid net received made order => ?_⟩
  rcases Option.ne_none_iff_exists'.mp made with ⟨o, found⟩
  rcases all.read net found (order o found) with ⟨el', readEq, -⟩
  rw [next, found, Option.bind_some, readEq]
  exact Option.some_ne_none el'

/-- The login is accepted, a push arrives, and the user disconnects. -/
def wholeSession : List Event :=
  acceptLogin ++ [.read [99] working (some [⟨pushReq, gimCodec.serializePushRequest ownPush, working⟩]),
    .call (.disconnect [99]), .process working]

theorem grammatical_of_inOrder_wholeSession :
    ∃ el, Run (Step gimCodec) (InOrder gimCodec) init wholeSession el ∧
      (el.conns [99]).map (fun o => published o.past) =
        some [.loginOk [99], .push [99] [49] [], .logout [99] 0] ∧ el.Grammatical := by
  have played : (wholeSession.foldlM (fun el event =>
      if InOrder gimCodec el event then next gimCodec el event else none) init).map
        (fun el => (el.conns [99]).map fun o => published o.past) =
          some (some [.loginOk [99], .push [99] [49] [], .logout [99] 0]) := by
    decide +kernel
  rcases Option.map_eq_some_iff.mp played with ⟨el, executed, eventsEq⟩
  have run : Run (Step gimCodec) (InOrder gimCodec) init wholeSession el := by
    apply Run.of_foldlM _ executed
    intro s event t taken
    split_ifs at taken with order
    exact ⟨order, taken⟩
  exact ⟨el, run, eventsEq, (grammatical_of_inOrder run).1⟩

/-- A login is sent. -/
def sendLogin : List Event := [.call (.login ownLogin), .process working]

/-- Its refusal. -/
def refusal : Received := ⟨loginResp, gimCodec.serializeLoginResponse ⟨-1, []⟩, working⟩

/-- A push arrives behind it. -/
def refusedAndPushed : List Event :=
  sendLogin ++
    [.read [99] working (some [refusal, ⟨pushReq, gimCodec.serializePushRequest ownPush, working⟩])]

/-- A push behind the refusal is published, and a second refusal takes an address from the
empty list. -/
theorem refusal_breaks_grammar :
    (∃ el, Run (Step gimCodec) anyStep init refusedAndPushed el ∧
      (el.conns [99]).map (fun o => published o.past) =
        some [.loginFail [99] (-1), .push [99] [49] []] ∧ ¬el.Grammatical) ∧
      ∃ el, Run (Step gimCodec) anyStep init sendLogin el ∧ el.conns [99] ≠ none ∧
        el.next gimCodec (.read [99] working (some [refusal, refusal])) = none := by
  have anyRun : ∀ {events : List Event} {el : EventLoop},
      events.foldlM (next gimCodec) init = some el →
        Run (Step gimCodec) anyStep init events el :=
    fun executed => Run.of_foldlM (fun _ _ _ taken => ⟨trivial, taken⟩) executed
  constructor
  · have played : (refusedAndPushed.foldlM (next gimCodec) init).map
        (fun el => (el.conns [99]).map fun o => published o.past) =
          some (some [.loginFail [99] (-1), .push [99] [49] []]) := by
      decide +kernel
    rcases Option.map_eq_some_iff.mp played with ⟨el, executed, eventsEq⟩
    refine ⟨el, anyRun executed, eventsEq, fun grammatical => ?_⟩
    rcases Option.map_eq_some_iff.mp eventsEq with ⟨o, found, publishedEq⟩
    have legal := grammatical.1 [99] o found
    rw [publishedEq] at legal
    rcases legal with ⟨cid, code, starts⟩ | ⟨cid, pushes, code, -, starts⟩
    · exact absurd starts.length_le (by simp)
    · cases (List.cons_prefix_cons.mp starts).1
  · have played : (sendLogin.foldlM (next gimCodec) init).map (fun el =>
        ((el.conns [99]).isSome, (el.next gimCodec
          (.read [99] working (some [refusal, refusal]))).isSome)) = some (true, false) := by
      decide +kernel
    rcases Option.map_eq_some_iff.mp played with ⟨el, executed, pairEq⟩
    rcases Prod.mk.inj pairEq with ⟨made, undefined⟩
    refine ⟨el, anyRun executed, ?_, ?_⟩
    · exact Option.isSome_iff_ne_none.mp made
    · exact Option.isNone_iff_eq_none.mp (Option.isSome_eq_false_iff.mp undefined)

end EventLoop

end GPush.ClientSdk
