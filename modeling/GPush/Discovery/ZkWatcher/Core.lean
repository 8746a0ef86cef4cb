import GPush.Transition.Run

/-!
# Watching a ZooKeeper node

A watcher with its event mask, the session of its client, and the watched node.  A watch
fires once, so the watcher has to set it again: `handleEvent` does so for the events of
its mask, and `checkExists` waits for the creation of a node that is gone.  The callbacks run
in the completion thread, beside the thread that calls `addWatch`.
-/

namespace GPush.Discovery

open GPush.Transition

namespace ZkWatcher

/-- The events of a watcher. -/
inductive Kind
  | create
  | delete
  | change
  | child
  deriving DecidableEq, Repr

/-- The requests of a client, by the function that sends them.  Those of `watchExists` and
`watchCreate` are the same for ZooKeeper. -/
inductive Request
  | watchData
  | watchChildren
  | watchExists
  | watchCreate
  deriving DecidableEq, Repr

/-- The watches that requests leave: of `get`, of `get_children` and of `exists`. -/
inductive Watch
  | data
  | children
  | existence
  deriving DecidableEq, Repr

/-- The watch of a request. -/
def Request.watch : Request → Watch
  | .watchData => .data
  | .watchChildren => .children
  | .watchExists => .existence
  | .watchCreate => .existence

/-- The request is an `exists`. -/
def Request.isExists : Request → Bool
  | .watchExists => true
  | .watchCreate => true
  | _ => false

/-- How a request completes: `ZOK`, `ZNONODE` or another error. -/
inductive Rc
  | ok
  | noNode
  | other
  deriving DecidableEq, Repr

/-- What ZooKeeper sends: the completion of a request, or the event of a watch. -/
inductive Message
  | complete (r : Request) (rc : Rc)
  | event (k : Kind)
  deriving DecidableEq, Repr

/-- A call of `ZKWatcher::addWatch` under way: its flags, and the requests that it has still to
send.  Then it sets the mask. -/
structure Call where
  flags : Kind → Bool
  requests : List Request
  some : ∃ k, flags k = true

/-- The node, the watches that are set, the watcher's `m_event_mask` and `m_check_exists`,
the requests on their way, the messages on their way back, oldest first, and the call of
`addWatch`. -/
structure State where
  node : Bool
  armed : List Watch
  mask : Kind → Bool
  latch : Bool
  outbox : List Request
  inbox : List Message
  call : Option Call

/-- A watcher that is registered with a connected client. -/
def init (node : Bool) : State := ⟨node, [], fun _ => false, false, [], [], none⟩

/-- Both masks together. -/
def union (mask flags : Kind → Bool) : Kind → Bool := fun k => mask k || flags k

/-! ## The watcher -/

namespace State

/-- Requests are sent. -/
def send (s : State) (requests : List Request) : State :=
  { s with outbox := s.outbox ++ requests }

/-- The requests of `ZKWatcher::addWatch` and `ZKWatcher::nodeExists`. -/
def requestsFor (flags : Kind → Bool) : List Request :=
  (if flags .change then [.watchData] else []) ++
    (if flags .child then [.watchChildren] else []) ++
    (if flags .create || flags .delete then [.watchExists] else [])

/-- `ZKWatcher::addWatch` in a callback. -/
def addWatch (s : State) (flags : Kind → Bool) : State :=
  { s.send (requestsFor flags) with mask := union s.mask flags }

/-- `ZKWatcher::checkExists`. -/
def checkExists (s : State) : State :=
  if s.latch then s else { s.send [.watchCreate] with latch := true }

/-- `ZKWatcher::nodeExists`. -/
def nodeExists (s : State) : State := { s.send (requestsFor s.mask) with latch := false }

/-- One flag. -/
def only (k : Kind) : Kind → Bool := fun k' => decide (k' = k)

/-- `ZKWatcher::handleEvent`. -/
def handleEvent (s : State) (k : Kind) : State :=
  let s := if s.mask k then s.addWatch (only k) else s
  match k with
  | .delete => if s.mask .delete then s else s.checkExists
  | .create => if s.mask .create then s else s.nodeExists
  | _ => s

/-- The completions of `ZKClient`.  That of an `exists` sends nothing. -/
def complete (s : State) : Request → Rc → State
  | .watchData, .noNode => s.checkExists
  | .watchChildren, .noNode => s.checkExists
  | _, _ => s

/-- The callback for a message. -/
def handle (s : State) : Message → State
  | .complete r rc => s.complete r rc
  | .event k => s.handleEvent k

/-! ## ZooKeeper -/

end State

/-- The events on which a watch fires. -/
def fires : Kind → Watch → Bool
  | .create, .existence => true
  | .delete, _ => true
  | .change, .data => true
  | .change, .existence => true
  | .child, .children => true
  | _, _ => false

namespace State

/-- The node changes, and the watches that are set for that fire. -/
def fire (s : State) (k : Kind) : State :=
  { s with
    armed := s.armed.filter fun w => !fires k w
    inbox := s.inbox ++ (s.armed.filter (fires k)).map fun _ => .event k }

/-- A request is carried out.  An `exists` leaves its watch also when there is no node. -/
def serve (s : State) (r : Request) : State :=
  { s with
    armed := s.armed ++ if s.node || r.isExists then [r.watch] else []
    inbox := s.inbox ++ [.complete r (if s.node then .ok else .noNode)] }

/-- The session has expired: `ZKClient::reinit` starts another one, and
`ZKClient::watchAll` calls `nodeExists`. -/
def expire (s : State) : State := { s with armed := [], outbox := [], inbox := [] }.nodeExists

end State

/-- What happens. -/
inductive Event
  | create
  | delete
  | set
  | childChange
  | serve
  | fail
  | deliver
  | addWatch (flags : Kind → Bool)
  | send
  | setMask
  | expire

/-- The step relation. -/
inductive Step : LTS State Event
  | create {s : State} : s.node = false → Step s .create { s.fire .create with node := true }
  | delete {s : State} : s.node = true → Step s .delete { s.fire .delete with node := false }
  | set {s : State} : s.node = true → Step s .set (s.fire .change)
  | childChange {s : State} : s.node = true → Step s .childChange (s.fire .child)
  | serve {s : State} {r : Request} {rest : List Request} : s.outbox = r :: rest →
      Step s .serve ({ s with outbox := rest }.serve r)
  | fail {s : State} {r : Request} {rest : List Request} : s.outbox = r :: rest →
      Step s .fail { s with outbox := rest, inbox := s.inbox ++ [.complete r .other] }
  | deliver {s : State} {m : Message} {rest : List Message} : s.inbox = m :: rest →
      Step s .deliver ({ s with inbox := rest }.handle m)
  | addWatch {s : State} {flags : Kind → Bool} (some : ∃ k, flags k = true) : s.call = none →
      Step s (.addWatch flags)
        { s with call := Option.some ⟨flags, State.requestsFor flags, some⟩ }
  | send {s : State} {c : Call} {r : Request} {rest : List Request} : s.call = some c →
      c.requests = r :: rest →
      Step s .send { s.send [r] with call := some { c with requests := rest } }
  | setMask {s : State} {c : Call} : s.call = some c → c.requests = [] →
      Step s .setMask { s with mask := union s.mask c.flags, call := none }
  | expire {s : State} : Step s .expire s.expire

/-! ## Being deaf -/

/-- The changes that matter: a creation or a deletion, and those of the mask. -/
def Relevant (s : State) : Kind → Prop
  | .create => s.node = false
  | .delete => s.node = true
  | .change => s.node = true ∧ s.mask .change = true
  | .child => s.node = true ∧ s.mask .child = true

/-- Handling the message sends a request. -/
def Sends (s : State) (m : Message) : Prop := (s.handle m).outbox ≠ s.outbox

/-- At the next relevant change a watch fires whose event leads to a request. -/
def Hears (s : State) : Prop :=
  ∀ k, Relevant s k → (∃ w ∈ s.armed, fires k w = true) ∧ Sends s (.event k)

/-- What is on its way arrives, and nothing else happens. -/
def arrives (_ : State) : Event → Prop
  | .serve => True
  | .deliver => True
  | _ => False

/-- The second state is what is left when everything that is on its way has arrived, with the
requests and the messages that this leads to. -/
structure Settles (s t : State) : Prop where
  run : ∃ events, Run Step arrives s events t
  outbox : t.outbox = []
  inbox : t.inbox = []

/-- A watcher with a mask hears of the next relevant change, as soon as what is on its way has
arrived. -/
def NotDeaf (s : State) : Prop :=
  (∃ k, s.mask k = true) → (∃ t, Settles s t) ∧ ∀ t, Settles s t → Hears t

end ZkWatcher

end GPush.Discovery
