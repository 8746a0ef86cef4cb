import GPush.ConnectServer.Lookup
import GPush.ConnectServer.Session

/-!
# Delivering pushes

A push is queued at the event loop of its target as a `SendMsgOp` with the target's
connection id, and the loop processes it later.  `SendMsgOp::process` looks the id up
and asks neither whether the connection is logged in nor as whom.
-/

namespace GPush.ConnectServer

open GPush.Codec GPush.Transition

/-- `SendMsgOp::process` at the loop `l`: the connection it sends on and the packet. -/
def SendMsgOp.process (op : SendMsgOp) (t : Table CliCon) (l : Nat) : Option (Handle × Bytes) :=
  (t.getConnection l op.conid).map fun h => (h, constructPacket op.cmd op.body)

/-- The connections of the server, and the operations each loop has still to process,
oldest first. -/
structure Server where
  table : Table CliCon
  ops : Nat → List SendMsgOp

namespace Server

/-- A server that has just started. -/
def init : Server := ⟨Table.init, fun _ => []⟩

/-- What happens at a server: the events in the life of its connections, a packet, and a
loop that processes an operation. -/
inductive Event
  | life (event : Table.Event CliCon)
  | packet (h : Handle) (v : Visit)
  | process (l : Nat)

/-- A connection is constructed for a port, and dispatched by that port. -/
def Fitting (t : Table CliCon) : Table.Event CliCon → Prop
  | .construct _ data => ∃ conf, data = CliCon.init conf
  | .dispatch h conf => ∀ e, t.conns h = some e → conf = e.data.conf
  | _ => True

/-- The operations queued after some others. -/
def enqueue (ops : Nat → List SendMsgOp) (added : List (Int × SendMsgOp)) :
    Nat → List SendMsgOp :=
  added.foldl (fun ops (l, op) => Function.update ops l.toNat (ops l.toNat ++ [op])) ops

/-- The connection `e` at `h` with other data. -/
def setData (s : Server) (h : Handle) (e : Entry CliCon) (data : CliCon) : Table CliCon :=
  { s.table with conns := Function.update s.table.conns h (some { e with data := data }) }

section Steps

variable (codec : Codec) (serv : ServerConfig)

/-- The server after a packet of the connection `e` at `h`. -/
def handle (s : Server) (h : Handle) (e : Entry CliCon) (v : Visit) : Server :=
  let handled := (turn codec serv e.id e.data v).handled
  ⟨s.setData h e handled.con, enqueue s.ops (queued handled.effects)⟩

/-- The step relation of a server.  What the result of `handlePacket` leads to is left
open: the connection may close or go on. -/
inductive Step : LTS Server Event
  | life {s : Server} {event : Table.Event CliCon} {t : Table CliCon} :
      Fitting s.table event → Table.Step serv.threadCount.toNat s.table event t →
      Step s (.life event) { s with table := t }
  | packet {s : Server} {h : Handle} {e : Entry CliCon} {l : Nat} {v : Visit} :
      s.table.conns h = some e → e.place = .added l →
      Step s (.packet h v) (s.handle codec serv h e v)
  | process {s : Server} {l : Nat} {op : SendMsgOp} {rest : List SendMsgOp} :
      s.ops l = op :: rest → Step s (.process l) { s with ops := Function.update s.ops l rest }

/-- A packet is handled, and the connection stays where it is. -/
theorem exists_step {s : Server} {h : Handle} {e : Entry CliCon} {l : Nat}
    (found : s.table.conns h = some e) (added : e.place = .added l) (v : Visit) :
    ∃ s' e', Step codec serv s (.packet h v) s' ∧ s'.table.conns h = some e' ∧
      e'.place = .added l :=
  ⟨_, _, .packet found added, Function.update_self h _ _, added⟩

/-! ## The invariant -/

/-- What holds of a server between its steps: the maps list live connections under
their ids, a connection that is logged in has the session id of its user, and a push
that waits was let through by `getConFromSessid`. -/
structure Sound (s : Server) : Prop where
  listed : s.table.Listed
  named : ∀ h e, s.table.conns h = some e → e.data.status = .login →
    e.place ≠ .constructed ∧ e.data.sess.sessid = decorationName serv.ID e.id e.data.sess.id
  waiting : ∀ l op, op ∈ s.ops l → op.cmd = pushReq →
    ∃ svreq beyond route, codec.parsePushRequest op.body = some svreq ∧
      getConFromSessid serv beyond svreq.toSessid = some (.ok route) ∧ route.conid = op.conid

variable {codec serv} {s : Server}

theorem sound_init : Sound codec serv init := by
  refine ⟨?_, ?_, ?_⟩
  · intro l id h found
    simp [init, Table.init] at found
  · intro h e found
    simp [init, Table.init] at found
  · intro l op waits
    exact absurd waits List.not_mem_nil

theorem mem_update {ops : Nat → List SendMsgOp} {queue : List SendMsgOp} {l l' : Nat}
    {op : SendMsgOp} (waits : op ∈ Function.update ops l queue l') :
    l' = l ∧ op ∈ queue ∨ op ∈ ops l' := by
  by_cases same : l' = l
  · subst same
    rw [Function.update_self] at waits
    exact Or.inl ⟨rfl, waits⟩
  · rw [Function.update_of_ne same] at waits
    exact Or.inr waits

theorem mem_enqueue {ops : Nat → List SendMsgOp} {added : List (Int × SendMsgOp)} {l : Nat}
    {op : SendMsgOp} (waits : op ∈ enqueue ops added l) : op ∈ ops l ∨ ∃ l', (l', op) ∈ added := by
  induction added generalizing ops with
  | nil => exact Or.inl waits
  | cons first added ih =>
      rcases ih waits with earlier | ⟨l', later⟩
      · rcases mem_update earlier with ⟨rfl, inQueue⟩ | old
        · rcases List.mem_append.mp inQueue with old | new
          · exact Or.inl old
          · obtain rfl := List.mem_singleton.mp new
            exact Or.inr ⟨first.1, List.mem_cons_self⟩
        · exact Or.inl old
      · exact Or.inr ⟨l', List.mem_cons_of_mem _ later⟩

namespace Sound

theorem life {event : Table.Event CliCon} {t : Table CliCon} (sound : Sound codec serv s)
    (fitting : Fitting s.table event) {loops : Nat} (taken : Table.Step loops s.table event t) :
    Sound codec serv { s with table := t } := by
  refine ⟨sound.listed.step taken, ?_, sound.waiting⟩
  · intro h' e' found' loggedIn
    cases taken with
    | construct =>
        obtain ⟨conf, rfl⟩ := fitting
        rcases Table.update_eq_some.mp found' with ⟨-, new⟩ | ⟨-, old⟩
        · rw [← Option.some.inj new] at loggedIn
          simp [CliCon.init] at loggedIn
        · exact sound.named h' e' old loggedIn
    | dispatch found atStart =>
        rcases Table.update_eq_some.mp found' with ⟨-, new⟩ | ⟨-, old⟩
        · rw [← Option.some.inj new] at loggedIn
          exact absurd atStart (sound.named _ _ found loggedIn).1
        · exact sound.named h' e' old loggedIn
    | add found =>
        rcases Table.update_eq_some.mp found' with ⟨-, new⟩ | ⟨-, old⟩
        · rw [← Option.some.inj new] at loggedIn ⊢
          exact ⟨by simp, (sound.named _ _ found loggedIn).2⟩
        · exact sound.named h' e' old loggedIn
    | close =>
        rcases Table.update_eq_some.mp found' with ⟨-, new⟩ | ⟨-, old⟩
        · exact absurd new (by simp)
        · exact sound.named h' e' old loggedIn

theorem packet {h : Handle} {e : Entry CliCon} {l : Nat} {v : Visit} (sound : Sound codec serv s)
    (found : s.table.conns h = some e) (added : e.place = .added l) :
    Sound codec serv (s.handle codec serv h e v) := by
  have visited := turn_visited codec serv e.id e.data v
  refine ⟨?_, ?_, ?_⟩
  · intro l' id h' inMap
    obtain ⟨e', found', added', idEq⟩ := sound.listed l' id h' inMap
    by_cases same : h' = h
    · subst same
      obtain rfl := Option.some.inj (found.symm.trans found')
      exact ⟨_, Table.update_eq_some.mpr (Or.inl ⟨rfl, rfl⟩), added', idEq⟩
    · exact ⟨e', Table.update_eq_some.mpr (Or.inr ⟨same, found'⟩), added', idEq⟩
  · intro h' e' found' loggedIn
    rcases Table.update_eq_some.mp found' with ⟨-, new⟩ | ⟨-, old⟩
    · rw [← Option.some.inj new] at loggedIn ⊢
      refine ⟨by simp [added], ?_⟩
      exact visited.named (fun wasLoggedIn => (sound.named h e found wasLoggedIn).2) loggedIn
    · exact sound.named h' e' old loggedIn
  · intro l' op waits isPush
    rcases mem_enqueue waits with old | ⟨l'', new⟩
    · exact sound.waiting l' op old isPush
    · obtain ⟨-, -, svreq, route, parsed, routed, -, opEq⟩ := visited.mem_ops_iff.mp ⟨new, isPush⟩
      rw [opEq]
      exact ⟨svreq, v.env.beyond, route, parsed, routed, rfl⟩

theorem process {l : Nat} {op : SendMsgOp} {rest : List SendMsgOp} (sound : Sound codec serv s)
    (waits : s.ops l = op :: rest) :
    Sound codec serv { s with ops := Function.update s.ops l rest } := by
  refine ⟨sound.listed, sound.named, ?_⟩
  intro l' op' waits' isPush
  refine sound.waiting l' op' ?_ isPush
  rcases mem_update waits' with ⟨rfl, inRest⟩ | old
  · rw [waits]
    exact List.mem_cons_of_mem _ inRest
  · exact old

/-- The step lemma. -/
theorem step {event : Event} {s' : Server} (sound : Sound codec serv s)
    (taken : Step codec serv s event s') : Sound codec serv s' := by
  cases taken with
  | life fitting taken => exact sound.life fitting taken
  | packet found added => exact sound.packet found added
  | process waits => exact sound.process waits

end Sound

theorem sound_of_reachable (reachable : Reachable (Step codec serv) init s) : Sound codec serv s :=
  reachable.invariant sound_init fun _ _ _ sound taken => sound.step taken

/-! ## Delivery -/

/-- The connection is logged in with the session id `sessid`. -/
def HasSession (c : CliCon) (sessid : Bytes) : Prop := c.status = .login ∧ c.sess.sessid = sessid

/-- The first twelve characters of `sessid` are the base64 form of eight bytes, and the
connection is logged in as the user after them. -/
def Addresses (c : CliCon) (sessid : Bytes) : Prop :=
  (∃ bytes, bytes.length = 8 ∧ sessid.take 12 = base64Encode bytes) ∧ c.status = .login ∧
    c.sess.id = sessid.drop 12

theorem decoded_of_routed {beyond sessid : Bytes} {route : Route}
    (routed : getConFromSessid serv beyond sessid = some (.ok route)) :
    ∃ info, getDecorationInfo beyond sessid = some info ∧ info.svid = serv.ID ∧
      info.conid = route.conid := by
  obtain ⟨info, decoded, resultEq⟩ := Option.map_eq_some_iff.mp routed
  refine ⟨info, decoded, ?_⟩
  dsimp only at resultEq
  split_ifs at resultEq with otherServer
  obtain rfl := Except.ok.inj resultEq
  exact ⟨not_not.mp otherServer, rfl⟩

/-- When a loop processes a push, the connection it sends on has the session that the
push names exactly when that name is written as session ids are and the connection is
logged in as its user; the server and the connection are the ones named. -/
theorem push_reaches_session_iff {l : Nat} {op : SendMsgOp} {h : Handle} {msg : Bytes}
    (reachable : Reachable (Step codec serv) init s) (next : (s.ops l).head? = some op)
    (isPush : op.cmd = pushReq) (sends : op.process s.table l = some (h, msg)) :
    ∃ e svreq, s.table.conns h = some e ∧ codec.parsePushRequest op.body = some svreq ∧
      msg = constructPacket pushReq op.body ∧
      (HasSession e.data svreq.toSessid ↔ Addresses e.data svreq.toSessid) := by
  have sound := sound_of_reachable reachable
  obtain ⟨h', inMap, pairEq⟩ := Option.map_eq_some_iff.mp sends
  obtain ⟨rfl, rfl⟩ := Prod.mk.inj pairEq
  obtain ⟨e, found, -, idEq⟩ := sound.listed l op.conid h' inMap
  obtain ⟨svreq, beyond, route, parsed, routed, conidEq⟩ :=
    sound.waiting l op (List.mem_of_head? next) isPush
  obtain ⟨info, decoded, svidEq, infoEq⟩ := decoded_of_routed routed
  refine ⟨e, svreq, found, parsed, by rw [isPush], ?_⟩
  have named := fun loggedIn => (sound.named h' e found loggedIn).2
  constructor
  · rintro ⟨loggedIn, sessidEq⟩
    obtain ⟨first, second⟩ := decorationName_eq_iff.mp ((named loggedIn).symm.trans sessidEq)
    exact ⟨⟨_, by simp [int32Bytes], first⟩, loggedIn, second.symm⟩
  · rintro ⟨⟨bytes, eight, canonical⟩, loggedIn, userEq⟩
    have prefixEq := sessPrefix_of_decoded decoded eight canonical
    rw [svidEq, infoEq, conidEq, ← idEq] at prefixEq
    refine ⟨loggedIn, (named loggedIn).trans ?_⟩
    exact decorationName_eq_iff.mpr ⟨prefixEq.symm, userEq.symm⟩

/-- The events of connections alone make a run of the server. -/
theorem run_life (codec : Codec) (serv : ServerConfig) {t t' : Table CliCon}
    {events : List (Table.Event CliCon)}
    (run : Run (Table.Step serv.threadCount.toNat) Fitting t events t')
    (ops : Nat → List SendMsgOp) :
    Run (Step codec serv) anyStep ⟨t, ops⟩ (events.map .life) ⟨t', ops⟩ := by
  induction run with
  | refl => exact Run.refl
  | snoc _ fitting taken ih =>
      rw [List.map_append]
      exact ih.snoc trivial (.life fitting taken)

end Steps

/-! ## Runs of one connection -/

/-- The only connection of the server 1, with the id 1, in the loop 0. -/
def onlyConnection (c : CliCon) : Entry CliCon := ⟨1, .added 0, c⟩

/-- The server with that connection and some operations of its loop. -/
def withOnly (c : CliCon) (ops : List SendMsgOp) : Server where
  table := ⟨1, Function.update (fun _ => none) 0 (some (onlyConnection c)),
    Function.update (fun _ _ => none) 0 (Function.update (fun _ => none) 1 (some 0))⟩
  ops := Function.update (fun _ => []) 0 ops

theorem run_withOnly (codec : Codec) :
    Run (Step codec ⟨1, 1⟩) anyStep init
      ([.construct 0 (.init samplePort), .dispatch 0 samplePort, .add 0].map .life)
      (withOnly (.init samplePort) []) := by
  have run : Run (Table.Step 1) Fitting Table.init
      [.construct 0 (.init samplePort), .dispatch 0 samplePort, .add 0]
      (Table.opened Table.init 0 (.init samplePort) samplePort) := by
    refine Table.run_opened rfl ⟨by decide, by decide, by decide, by decide⟩ ⟨samplePort, rfl⟩ ?_
      fun _ => trivial
    intro e found
    rw [← Option.some.inj found]
    rfl
  have opsEq : Function.update (fun _ => []) 0 [] = fun _ : Nat => ([] : List SendMsgOp) :=
    Function.update_eq_self 0 _
  have idEq : getConnectionId (Table.dispatchIdx samplePort 1) 1 = 1 := by decide
  have unlisted : (Table.init : Table CliCon).conMap 0 1 = none := rfl
  rw [Table.opened_eq (l := 0) (by decide) idEq, if_pos unlisted] at run
  rw [withOnly, opsEq]
  exact run_life codec ⟨1, 1⟩ run fun _ => []

theorem enqueue_own (ops added : List SendMsgOp) :
    enqueue (Function.update (fun _ => []) 0 ops) (added.map fun op => (0, op)) =
      Function.update (fun _ => []) 0 (ops ++ added) := by
  induction added generalizing ops with
  | nil => simp [enqueue]
  | cons op added ih =>
      have next := ih (ops ++ [op])
      rw [List.append_assoc] at next
      simpa [enqueue] using next

/-- A packet that queues for the loop of the connection at most. -/
theorem step_withOnly {codec : Codec} {c : CliCon} (v : Visit) {ops : List SendMsgOp}
    (added : List SendMsgOp)
    (queuedEq : queued (turn codec ⟨1, 1⟩ 1 c v).handled.effects = added.map fun op => (0, op)) :
    Step codec ⟨1, 1⟩ (withOnly c ops) (.packet 0 v)
      (withOnly (turn codec ⟨1, 1⟩ 1 c v).handled.con (ops ++ added)) := by
  have found : (withOnly c ops).table.conns 0 = some (onlyConnection c) := by
    simp [withOnly]
  have handledEq : (withOnly c ops).handle codec ⟨1, 1⟩ 0 (onlyConnection c) v =
      withOnly (turn codec ⟨1, 1⟩ 1 c v).handled.con (ops ++ added) := by
    simp only [handle, withOnly, setData, onlyConnection, queuedEq, enqueue_own,
      Function.update_idem]
  rw [← handledEq]
  exact .packet found rfl

/-- The session id of the user `u` at the connection 1 of the server 1. -/
def ownSessid : Bytes := decorationName 1 1 [117]

/-- A push to it. -/
def pushToOwn : Visit :=
  ⟨sampleEnv 0, packetOf pushReq (pushBytes ownSessid [49] 0) (by decide +kernel)⟩

/-- The operation that it queues. -/
def ownOp : SendMsgOp := ⟨1, pushReq, pushBytes ownSessid [49] 0⟩

/-- The user logs in, with the type `0`, and pushes to itself. -/
theorem push_reaches_session_login :
    ∃ s e h msg, Reachable (Step gimCodec.toCodec ⟨1, 1⟩) init s ∧
      (s.ops 0).head? = some ownOp ∧ ownOp.process s.table 0 = some (h, msg) ∧
      s.table.conns h = some e ∧ HasSession e.data ownSessid := by
  have login := (run_withOnly gimCodec.toCodec).snoc trivial
    (step_withOnly ⟨sampleEnv 29, packetOf loginReq (loginBytes [117] 0) (by decide +kernel)⟩ []
      (by decide +kernel))
  have push := login.snoc trivial
    (step_withOnly pushToOwn [ownOp] (by decide +kernel))
  obtain ⟨e, svreq, found, parsed, -, reachesIff⟩ :=
    push_reaches_session_iff push.reachable (l := 0) (h := 0) rfl rfl rfl
  obtain rfl := Option.some.inj found
  have parsedOwn : gimCodec.toCodec.parsePushRequest ownOp.body =
      some ⟨[], ownSessid, [49], 0, []⟩ := by
    decide +kernel
  obtain rfl := Option.some.inj (parsed.symm.trans parsedOwn)
  refine ⟨_, _, 0, _, push.reachable, rfl, rfl, rfl, reachesIff.mpr ?_⟩
  exact ⟨⟨[1, 0, 0, 0, 1, 0, 0, 0], by decide, by decide +kernel⟩, by decide +kernel,
    by decide +kernel⟩

/-- A push is sent on a connection that has not logged in. -/
theorem push_reaches_stranger :
    ∃ s e h msg, Reachable (Step gimCodec.toCodec ⟨1, 1⟩) init s ∧
      (s.ops 0).head? = some ownOp ∧ ownOp.cmd = pushReq ∧
      (gimCodec.toCodec.parsePushRequest ownOp.body).map (·.toSessid) =
        some ownSessid ∧
      ownOp.process s.table 0 = some (h, msg) ∧ s.table.conns h = some e ∧
      ¬HasSession e.data ownSessid := by
  have push := (run_withOnly gimCodec.toCodec).snoc trivial
    (step_withOnly pushToOwn [ownOp] (by decide +kernel))
  refine ⟨_, _, 0, _, push.reachable, rfl, rfl, by decide +kernel, rfl, rfl, ?_⟩
  intro has
  exact absurd has.1 (by decide +kernel)

end Server

end GPush.ConnectServer
