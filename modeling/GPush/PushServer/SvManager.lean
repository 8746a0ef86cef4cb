import GPush.Discovery.ListWatcher
import GPush.PushServer.Decimal
import GPush.PushServer.Relay

/-!
# The list of connect servers

`SvManager::init` watches the children of a node, lists them, and stores the servers that
it reads.  The completion thread of ZooKeeper does the same for every listing that a watch
request brings, and sets the watch again when it has fired.  Both store into `m_datasrc`.
It drops an event that it gets before `init` has set the event mask.
-/

namespace GPush.PushServer

open GPush.ConnectServer GPush.Containers GPush.Discovery GPush.Json GPush.LoopBuf
  GPush.SessCache GPush.Transition

/-- `StatusMap`. -/
abbrev StatusMap := List (Int × ServerStatus)

namespace SvManager

/-- `MainConfig::Type`, and how statuses are read. -/
structure Config where
  type : Int
  reader : StatusReader

/-- The port is for servers of this type. -/
def Config.accepts (conf : Config) (p : Discovery.PortConfig) : Bool :=
  decide (p.minType ≤ conf.type) && decide (conf.type < p.maxType)

/-- The data can be read, and has a port for this server's type. -/
def Config.takes (conf : Config) (data : Bytes) : Bool :=
  (conf.reader.parseFromString data).any fun s => s.ports.any conf.accepts

/-- A round of the loop of `SvManager::onSvListChange`. -/
def Config.addStatus (conf : Config) (m : StatusMap) (entry : Bytes × ServerStatus) : StatusMap :=
  let s1 := { entry.2 with ports := entry.2.ports.filter conf.accepts }
  if s1.ports.isEmpty then m else assign (fun i j => decide (i < j)) (atoi entry.1) s1 m

/-- The map that `SvManager::onSvListChange` stores. -/
def Config.onSvListChange (conf : Config) (notify : SvStatusMap) : StatusMap :=
  notify.foldl conf.addStatus []

/-- The threads that load and store a list. -/
inductive Thread
  | main
  | completion
  deriving DecidableEq, Repr

/-- What ZooKeeper sends: the completion of a watch request with the children, or the event
of a watch. -/
inductive Message
  | children (names : List Bytes)
  | event
  deriving DecidableEq, Repr

/-- The children of the node, the watches that are set on it, the watch requests on their
way, and the messages on their way back, oldest first; then how far `init` is, the lists that
are being loaded, and the map that was last stored in `m_datasrc`. -/
structure State where
  children : Children
  armed : Nat
  requests : Nat
  inbox : List Message
  /-- `init` has sent its watch request. -/
  requested : Bool
  /-- And set the event mask. -/
  watching : Bool
  /-- And listed the children. -/
  listed : Bool
  /-- A child with a port for this server's type has joined or departed since then. -/
  changed : Bool
  work : Thread → Option Loading
  datasrc : Option StatusMap

/-- A push server that has still to call `init`. -/
def State.start (children : Children) : State :=
  ⟨children, 0, 0, [], false, false, false, false, fun _ => none, none⟩

namespace State

/-- A child with this data joins or departs, and the watches fire. -/
def change (s : State) (conf : Config) (data : Bytes) (children : Children) : State :=
  { s with
    children := children
    armed := 0
    inbox := s.inbox ++ List.replicate s.armed .event
    changed := s.changed || conf.takes data }

/-- A watch request is sent. -/
def watchChildren (s : State) : State := { s with requests := s.requests + 1 }

/-- The list of a thread becomes another. -/
def setWork (s : State) (t : Thread) (l : Option Loading) : State :=
  { s with work := Function.update s.work t l }

/-- `DataSrc::setData` of `m_datasrc`. -/
def setData (s : State) (m : StatusMap) : State := { s with datasrc := some m }

/-- The callback for a message. -/
def handle (s : State) : Message → State
  | .children names => s.setWork .completion (some (.start names))
  | .event => if s.watching then s.watchChildren else s

end State

/-- What happens. -/
inductive Event
  | join (name data : Bytes)
  | depart (name : Bytes)
  | init
  | setMask
  | getChildren (names : List Bytes)
  | getNodeData (t : Thread)
  | onSvListChange (t : Thread)
  | serve (names : List Bytes)
  | deliver

/-- The step relation.  A synchronous call is one step, taken when it is answered. -/
inductive Step (conf : Config) : LTS State Event
  | join {s : State} {name data : Bytes} : s.children name = none → conf.reader.Readable data →
      Step conf s (.join name data)
        (s.change conf data (Function.update s.children name (some data)))
  | depart {s : State} {name data : Bytes} : s.children name = some data →
      Step conf s (.depart name) (s.change conf data (Function.update s.children name none))
  | init {s : State} : s.requested = false →
      Step conf s .init { s.watchChildren with requested := true }
  | setMask {s : State} : s.requested = true → s.watching = false →
      Step conf s .setMask { s with watching := true }
  | getChildren {s : State} {names : List Bytes} : s.watching = true → s.listed = false →
      Lists s.children names →
      Step conf s (.getChildren names)
        { s.setWork .main (some (.start names)) with listed := true, changed := false }
  | getNodeData {s : State} {t : Thread} {n : Bytes} {rest : List Bytes} {m : ChildrenMap} :
      s.work t = some ⟨n :: rest, m⟩ →
      Step conf s (.getNodeData t) (s.setWork t (Loading.round n rest m (s.children n)))
  | onSvListChange {s : State} {t : Thread} {m : ChildrenMap} : s.work t = some ⟨[], m⟩ →
      Step conf s (.onSvListChange t)
        ((s.setWork t none).setData (conf.onSvListChange (conf.reader.statusMap m)))
  | serve {s : State} {k : Nat} {names : List Bytes} : s.requests = k + 1 →
      Lists s.children names →
      Step conf s (.serve names) { s with
        requests := k
        armed := s.armed + 1
        inbox := s.inbox ++ [.children names] }
  | deliver {s : State} {msg : Message} {rest : List Message} : s.inbox = msg :: rest →
      s.work .completion = none → Step conf s .deliver ({ s with inbox := rest }.handle msg)

/-! ## The property -/

/-- An id of the nodes that are present and have a port for this server's type. -/
def Config.Accepting (conf : Config) (present : Bytes → Bytes → Prop) (id : Int) : Prop :=
  ∃ name data s, present name data ∧ conf.reader.parseFromString data = some s ∧
    (∃ p ∈ s.ports, conf.accepts p = true) ∧ atoi name = id

namespace State

/-- No request, completion or event is outstanding. -/
structure Settled (s : State) : Prop where
  requests : s.requests = 0
  inbox : s.inbox = []
  completion : s.work .completion = none

/-- The ids of the map are those of the children with a port for this server's type. -/
def Has (s : State) (conf : Config) (m : StatusMap) : Prop :=
  ∀ id, id ∈ m.map Prod.fst ↔ conf.Accepting (fun name data => s.children name = some data) id

/-- The map last stored has the ids of the children. -/
def Exact (s : State) (conf : Config) : Prop := ∃ m, s.datasrc = some m ∧ s.Has conf m

/-- No event comes before `init` has set the event mask; and when `init` stores its servers
while nothing is outstanding, no child with a port for this server's type has joined or departed
since it listed the children. -/
def Guard (s : State) : Event → Prop
  | .deliver => s.inbox.head? = some .event → s.watching = true
  | .onSvListChange .main => s.Settled → s.changed = false
  | _ => True

end State

/-! ## What is stored -/

section Stored

variable {conf : Config}

theorem mem_keys_addStatus {m : StatusMap} {entry : Bytes × ServerStatus} {id : Int} :
    id ∈ (conf.addStatus m entry).map Prod.fst ↔ id ∈ m.map Prod.fst ∨
      (∃ p ∈ entry.2.ports, conf.accepts p = true) ∧ atoi entry.1 = id := by
  have noPort : (entry.2.ports.filter conf.accepts).isEmpty = true ↔
      ¬∃ p ∈ entry.2.ports, conf.accepts p = true := by
    simp [List.filter_eq_nil_iff]
  rw [Config.addStatus]
  split_ifs with empty
  · simp only [noPort.mp empty, false_and, or_false]
  · rw [mem_keys_assign, or_comm, eq_comm]
    simp only [not_not.mp (noPort.not.mp empty), true_and]

theorem mem_keys_onSvListChange {notify : SvStatusMap} {id : Int} :
    id ∈ (conf.onSvListChange notify).map Prod.fst ↔
      ∃ entry ∈ notify, (∃ p ∈ entry.2.ports, conf.accepts p = true) ∧ atoi entry.1 = id := by
  have added : ∀ m : StatusMap, id ∈ (notify.foldl conf.addStatus m).map Prod.fst ↔
      id ∈ m.map Prod.fst ∨
        ∃ entry ∈ notify, (∃ p ∈ entry.2.ports, conf.accepts p = true) ∧ atoi entry.1 = id := by
    induction notify with
    | nil => simp
    | cons entry notify ih =>
        intro m
        rw [List.foldl_cons, ih, mem_keys_addStatus, List.exists_mem_cons_iff, or_assoc]
  exact (added []).trans (by simp)

/-- The ids that are stored for the nodes that have been read. -/
theorem mem_keys_stored {m : ChildrenMap} (inOrder : InOrder stringLess m) {id : Int} :
    id ∈ (conf.onSvListChange (conf.reader.statusMap m)).map Prod.fst ↔
      conf.Accepting (fun name data => (name, data) ∈ m) id := by
  rw [mem_keys_onSvListChange]
  constructor
  · rintro ⟨⟨name, s⟩, member, accepting, rfl⟩
    obtain ⟨data, member', parsed⟩ := (conf.reader.mem_statusMap inOrder).mp member
    exact ⟨name, data, s, member', parsed, accepting, rfl⟩
  · rintro ⟨name, data, s, member, parsed, accepting, rfl⟩
    exact ⟨(name, s), (conf.reader.mem_statusMap inOrder).mpr ⟨data, member, parsed⟩, accepting,
      rfl⟩

theorem takes_iff {data : Bytes} : conf.takes data = true ↔
    ∃ s, conf.reader.parseFromString data = some s ∧ ∃ p ∈ s.ports, conf.accepts p = true := by
  rw [Config.takes, Option.any_eq_true]
  simp only [List.any_eq_true]

end Stored

/-! ## What is loaded -/

section Loaded

/-- There is a child of this name with a port for this server's type. -/
def Config.Taken (conf : Config) (children : Children) (name : Bytes) : Prop :=
  ∃ data, children name = some data ∧ conf.takes data = true

/-- The servers among the nodes that have been read are children, and each other server that
is a child is still to be read. -/
structure Config.Follows (conf : Config) (children : Children) (l : Loading) : Prop where
  read : ∀ entry ∈ l.m, conf.takes entry.2 = true → conf.Taken children entry.1
  covers : ∀ name, conf.Taken children name →
    (∃ data, (name, data) ∈ l.m ∧ conf.takes data = true) ∨ name ∈ l.rest

variable {conf : Config} {children : Children} {name data : Bytes} {l : Loading}

/-- The child without such a port does not matter. -/
theorem taken_update (found : ∀ old, children name = some old → conf.takes old = false)
    {new : Option Bytes} (takes : ∀ data, new = some data → conf.takes data = false)
    (other : Bytes) :
    conf.Taken (Function.update children name new) other ↔ conf.Taken children other := by
  by_cases same : other = name
  · subst same
    rw [Config.Taken, Function.update_self]
    apply iff_of_false
    · rintro ⟨data, isNew, taken⟩
      exact absurd taken (ne_true_of_eq_false (takes data isNew))
    · rintro ⟨data, isOld, taken⟩
      exact absurd taken (ne_true_of_eq_false (found data isOld))
  · rw [Config.Taken, Function.update_of_ne same, Config.Taken]

theorem follows_of_matches (matching : l.Matches children) : conf.Follows children l := by
  constructor
  · exact fun entry member takes => ⟨entry.2, matching.read entry member, takes⟩
  · rintro name ⟨data, found, takes⟩
    apply ((matching.covers name).mp (Option.isSome_of_mem found)).imp_left
    intro member
    obtain ⟨⟨name', data'⟩, member', rfl⟩ := List.mem_map.mp member
    have same := (matching.read _ member').symm.trans found
    obtain rfl : data' = data := Option.some.inj same
    exact ⟨data', member', takes⟩

namespace Config.Follows

theorem of_taken_iff {children' : Children} (follows : conf.Follows children l)
    (same : ∀ name, conf.Taken children' name ↔ conf.Taken children name) :
    conf.Follows children' l := by
  constructor
  · exact fun entry member takes => (same entry.1).mpr (follows.read entry member takes)
  · exact fun name taken => follows.covers name ((same name).mp taken)

theorem round {n : Bytes} {rest : List Bytes} {m : ChildrenMap} {next : Loading}
    (follows : conf.Follows children ⟨n :: rest, m⟩) (ordered : Loading.Ordered ⟨n :: rest, m⟩)
    (found : Loading.round n rest m (children n) = some next) : conf.Follows children next := by
  obtain ⟨value, valueEq, rfl⟩ := Option.map_eq_some_iff.mp found
  have assigned {entry : Bytes × Bytes} : entry ∈ assign stringLess n value m ↔
      entry = (n, value) ∨ entry.1 ≠ n ∧ entry ∈ m :=
    mem_assign_iff orders_stringLess stringLess_irrefl ordered
  constructor
  · intro entry member takes
    rcases assigned.mp member with rfl | ⟨-, old⟩
    · exact ⟨value, valueEq, takes⟩
    · exact follows.read entry old takes
  · intro name taken
    by_cases same : name = n
    · obtain ⟨data, isValue, takes⟩ := taken
      subst same
      obtain rfl := Option.some.inj (valueEq.symm.trans isValue)
      exact Or.inl ⟨value, assigned.mpr (Or.inl rfl), takes⟩
    · rcases follows.covers name taken with ⟨data, member, takes⟩ | waits
      · exact Or.inl ⟨data, assigned.mpr (Or.inr ⟨same, member⟩), takes⟩
      · exact Or.inr ((List.mem_cons.mp waits).resolve_left same)

/-- The ids of what is stored at the end. -/
theorem accepting_iff {m : ChildrenMap} (follows : conf.Follows children ⟨[], m⟩) {id : Int} :
    conf.Accepting (fun name data => (name, data) ∈ m) id ↔
      conf.Accepting (fun name data => children name = some data) id := by
  constructor
  · rintro ⟨name, data, s, member, parsed, accepting, rfl⟩
    obtain ⟨data', found, takes⟩ :=
      follows.read _ member (takes_iff.mpr ⟨s, parsed, accepting⟩)
    obtain ⟨s', parsed', accepting'⟩ := takes_iff.mp takes
    exact ⟨name, data', s', found, parsed', accepting', rfl⟩
  · rintro ⟨name, data, s, found, parsed, accepting, rfl⟩
    have taken : conf.Taken children name :=
      ⟨data, found, takes_iff.mpr ⟨s, parsed, accepting⟩⟩
    obtain ⟨data', member, takes⟩ := (follows.covers name taken).resolve_right List.not_mem_nil
    obtain ⟨s', parsed', accepting'⟩ := takes_iff.mp takes
    exact ⟨name, data', s', member, parsed', accepting', rfl⟩

end Config.Follows

end Loaded

/-! ## The completion thread -/

namespace State

/-- A watch request is on its way, or an event that leads to one. -/
def Renewing (s : State) : Prop := 0 < s.requests ∨ .event ∈ s.inbox

/-- The last listing that was sent back is of the children: the completion thread has still
to get it, or loads it, or has stored it. -/
inductive UpToDate (conf : Config) (s : State) : Prop
  | sent {front : List Message} {names : List Bytes} : s.inbox = front ++ [.children names] →
      Lists s.children names → UpToDate conf s
  | loading {l : Loading} : s.inbox = [] → s.work .completion = some l →
      l.Matches s.children → UpToDate conf s
  | stored : s.inbox = [] → s.work .completion = none → s.Exact conf → UpToDate conf s

/-- The invariant: the watch is set again after every change, and what `init` loads follows the
servers as long as none joins or departs. -/
structure Sound (conf : Config) (s : State) : Prop where
  ordered : ∀ t l, s.work t = some l → l.Ordered
  follows : s.changed = false → ∀ l, s.work .main = some l → conf.Follows s.children l
  current : s.requested = true → s.Renewing ∨ 0 < s.armed ∧ s.UpToDate conf

variable {conf : Config} {s t : State}

@[simp]
theorem work_setWork_self (s : State) (t : Thread) (l : Option Loading) :
    (s.setWork t l).work t = l :=
  Function.update_self _ _ _

theorem work_setWork_main (s : State) (l : Option Loading) :
    (s.setWork .main l).work .completion = s.work .completion :=
  Function.update_of_ne (show Thread.completion ≠ .main by decide) l s.work

theorem work_setWork_completion (s : State) (l : Option Loading) :
    (s.setWork .completion l).work .main = s.work .main :=
  Function.update_of_ne (show Thread.main ≠ .completion by decide) l s.work

/-- What the main thread does to its own list does not matter. -/
theorem UpToDate.of_eq (upToDate : s.UpToDate conf) (children : t.children = s.children)
    (inbox : t.inbox = s.inbox) (work : t.work .completion = s.work .completion)
    (datasrc : t.datasrc = s.datasrc) : t.UpToDate conf := by
  cases upToDate with
  | sent inboxEq lists => exact .sent (inbox.trans inboxEq) (children ▸ lists)
  | loading empty found matching =>
      exact .loading (inbox.trans empty) (work.trans found) (children ▸ matching)
  | stored empty idle exact =>
      obtain ⟨m, stored, has⟩ := exact
      refine .stored (inbox.trans empty) (work.trans idle) ⟨m, datasrc.trans stored, ?_⟩
      rwa [Has, children]

/-- A list enters a thread, or another state of it. -/
theorem ordered_setWork {thread : Thread} {found : Option Loading}
    (ordered : ∀ t l, s.work t = some l → l.Ordered) (new : ∀ l, found = some l → l.Ordered) :
    ∀ t l, (s.setWork thread found).work t = some l → l.Ordered := by
  intro t l loading
  rcases Table.update_eq_some.mp loading with ⟨-, isNew⟩ | ⟨-, old⟩
  · exact new l isNew
  · exact ordered t l old

/-- What the loading of the children stores. -/
theorem has_of_follows {m : ChildrenMap} (ordered : Loading.Ordered ⟨[], m⟩)
    (follows : conf.Follows s.children ⟨[], m⟩) :
    s.Has conf (conf.onSvListChange (conf.reader.statusMap m)) := by
  intro id
  rw [mem_keys_stored ordered, follows.accepting_iff]

namespace Sound

/-- A child joins or departs. -/
theorem change (sound : s.Sound conf) {name data : Bytes} {new : Option Bytes}
    (found : ∀ old, s.children name = some old → old = data)
    (isData : ∀ data', new = some data' → data' = data) :
    (s.change conf data (Function.update s.children name new)).Sound conf := by
  constructor
  · exact sound.ordered
  · intro unchanged l loading
    obtain ⟨same, takes⟩ := Bool.or_eq_false_iff.mp unchanged
    apply (sound.follows same l loading).of_taken_iff
    apply taken_update
    · exact fun old isOld => found old isOld ▸ takes
    · exact fun data' isNew => isData data' isNew ▸ takes
  · intro requested
    rcases sound.current requested with (requested | event) | ⟨armed, -⟩
    · exact Or.inl (Or.inl requested)
    · exact Or.inl (Or.inr (List.mem_append_left _ event))
    · apply Or.inl
      apply Or.inr
      apply List.mem_append_right
      exact List.mem_replicate.mpr ⟨Nat.pos_iff_ne_zero.mp armed, rfl⟩

theorem getChildren (sound : s.Sound conf) {names : List Bytes}
    (lists : Lists s.children names) :
    Sound conf
      { s.setWork .main (some (.start names)) with listed := true, changed := false } := by
  constructor
  · apply ordered_setWork sound.ordered
    intro l started
    obtain rfl := Option.some.inj started
    exact Loading.ordered_start names
  · intro _ l started
    obtain rfl := Option.some.inj ((s.work_setWork_self .main _).symm.trans started)
    exact follows_of_matches (Loading.matches_start lists)
  · intro requested
    apply (sound.current requested).imp_right
    rintro ⟨armed, upToDate⟩
    exact ⟨armed, upToDate.of_eq rfl rfl (s.work_setWork_main (some (.start names))) rfl⟩

theorem getNodeData (sound : s.Sound conf) {thread : Thread} {n : Bytes} {rest : List Bytes}
    {m : ChildrenMap} (found : s.work thread = some ⟨n :: rest, m⟩) :
    (s.setWork thread (Loading.round n rest m (s.children n))).Sound conf := by
  constructor
  · apply ordered_setWork sound.ordered
    intro l next
    exact (sound.ordered thread _ found).round next
  · intro unchanged l loading
    cases thread with
    | main =>
        have next := (s.work_setWork_self .main _).symm.trans loading
        exact (sound.follows unchanged _ found).round (sound.ordered _ _ found) next
    | completion =>
        exact sound.follows unchanged l ((s.work_setWork_completion _).symm.trans loading)
  · intro requested
    apply (sound.current requested).imp_right
    rintro ⟨armed, upToDate⟩
    refine ⟨armed, ?_⟩
    cases thread with
    | main => exact upToDate.of_eq rfl rfl (s.work_setWork_main _) rfl
    | completion =>
        cases upToDate with
        | sent inboxEq lists => exact .sent inboxEq lists
        | loading empty found' matching =>
            obtain rfl := Option.some.inj (found.symm.trans found')
            obtain ⟨next, nextEq, matching'⟩ := matching.round
            exact .loading empty ((s.work_setWork_self _ _).trans nextEq) matching'
        | stored _ idle _ => exact absurd (found.symm.trans idle) (by simp)

theorem onSvListChange (sound : s.Sound conf) {thread : Thread} {m : ChildrenMap}
    (found : s.work thread = some ⟨[], m⟩) (guarded : s.Guard (.onSvListChange thread)) :
    ((s.setWork thread none).setData
      (conf.onSvListChange (conf.reader.statusMap m))).Sound conf := by
  constructor
  · exact ordered_setWork sound.ordered fun _ gone => absurd gone (by simp)
  · intro unchanged l loading
    cases thread with
    | main => exact absurd ((s.work_setWork_self .main none).symm.trans loading) (by simp)
    | completion =>
        exact sound.follows unchanged l ((s.work_setWork_completion none).symm.trans loading)
  · intro requested
    rcases sound.current requested with renewing | ⟨armed, upToDate⟩
    · exact Or.inl renewing
    · rcases Nat.eq_zero_or_pos s.requests with noRequest | requested
      · refine Or.inr ⟨armed, ?_⟩
        cases upToDate with
        | sent inboxEq lists => exact .sent inboxEq lists
        | loading empty loading matching =>
            cases thread with
            | main => exact .loading empty ((s.work_setWork_main none).trans loading) matching
            | completion =>
                obtain rfl := Option.some.inj (found.symm.trans loading)
                refine .stored empty (s.work_setWork_self .completion none) ⟨_, rfl, ?_⟩
                exact has_of_follows (sound.ordered _ _ found) (follows_of_matches matching)
        | stored empty idle _ =>
            cases thread with
            | main =>
                -- this is where the list of `init` may be an old one
                have unchanged := guarded ⟨noRequest, empty, idle⟩
                refine .stored empty ((s.work_setWork_main none).trans idle) ⟨_, rfl, ?_⟩
                exact has_of_follows (sound.ordered _ _ found) (sound.follows unchanged _ found)
            | completion => exact absurd (found.symm.trans idle) (by simp)
      · exact Or.inl (Or.inl requested)

theorem serve (sound : s.Sound conf) {k : Nat} {names : List Bytes}
    (lists : Lists s.children names) :
    Sound conf { s with
      requests := k
      armed := s.armed + 1
      inbox := s.inbox ++ [.children names] } :=
  ⟨sound.ordered, sound.follows, fun _ => Or.inr ⟨Nat.succ_pos _, .sent rfl lists⟩⟩

theorem deliver (sound : s.Sound conf) {msg : Message} {rest : List Message}
    (inboxEq : s.inbox = msg :: rest) (guarded : s.Guard .deliver) :
    ({ s with inbox := rest }.handle msg).Sound conf := by
  cases msg with
  | event =>
      have watching : s.watching = true := guarded (by rw [inboxEq]; rfl)
      rw [handle, if_pos watching]
      exact ⟨sound.ordered, sound.follows, fun _ => Or.inl (Or.inl (Nat.succ_pos _))⟩
  | children names =>
      constructor
      · apply ordered_setWork sound.ordered
        intro l started
        obtain rfl := Option.some.inj started
        exact Loading.ordered_start names
      · intro unchanged l loading
        exact sound.follows unchanged l ((work_setWork_completion _ _).symm.trans loading)
      · intro requested
        rcases sound.current requested with (requested | event) | ⟨armed, upToDate⟩
        · exact Or.inl (Or.inl requested)
        · rw [inboxEq, List.mem_cons] at event
          exact Or.inl (Or.inr (event.resolve_left (by simp)))
        · refine Or.inr ⟨armed, ?_⟩
          cases upToDate with
          | @sent front names' inboxEq' lists =>
              rw [inboxEq] at inboxEq'
              rcases front with _ | ⟨first, front⟩
              · obtain ⟨msgEq, rfl⟩ := List.cons.inj inboxEq'
                obtain rfl := Message.children.inj msgEq
                exact .loading rfl (work_setWork_self _ _ _) (Loading.matches_start lists)
              · obtain ⟨-, restEq⟩ := List.cons.inj inboxEq'
                exact .sent restEq lists
          | loading empty _ _ => exact absurd (inboxEq.symm.trans empty) (by simp)
          | stored empty _ _ => exact absurd (inboxEq.symm.trans empty) (by simp)

/-- The step lemma. -/
theorem step {event : Event} (sound : s.Sound conf) (guarded : s.Guard event)
    (taken : Step conf s event t) : t.Sound conf := by
  cases taken with
  | join absent =>
      apply sound.change
      · exact fun old found => absurd (absent.symm.trans found) (by simp)
      · exact fun data' isNew => (Option.some.inj isNew).symm
  | depart found =>
      apply sound.change
      · exact fun old isOld => Option.some.inj (isOld.symm.trans found)
      · exact fun data' isNew => absurd isNew (by simp)
  | init => exact ⟨sound.ordered, sound.follows, fun _ => Or.inl (Or.inl (Nat.succ_pos _))⟩
  | setMask requested =>
      refine ⟨sound.ordered, sound.follows, fun _ => ?_⟩
      apply (sound.current requested).imp_right
      rintro ⟨armed, upToDate⟩
      exact ⟨armed, upToDate.of_eq rfl rfl rfl rfl⟩
  | getChildren _ _ lists => exact sound.getChildren lists
  | getNodeData found => exact sound.getNodeData found
  | onSvListChange found => exact sound.onSvListChange found guarded
  | serve _ lists => exact sound.serve lists
  | deliver inboxEq => exact sound.deliver inboxEq guarded

end Sound

theorem sound_of_guarded {children : Children} {events : List Event}
    (run : Run (Step conf) Guard (start children) events s) : s.Sound conf := by
  have initial : (start children).Sound conf := by
    constructor
    · intro t l found
      exact absurd found (by simp [start])
    · intro _ l found
      exact absurd found (by simp [start])
    · intro requested
      exact absurd requested (by simp [start])
  exact run.invariant initial fun _ _ _ sound guarded taken => sound.step guarded taken

/-- In every run in which no event comes before `init` has set the event mask, and `init` stores
no outdated list while nothing is outstanding, the map last stored has the ids of the children
whenever nothing is outstanding. -/
theorem ids_exact_of_guarded {children : Children} {events : List Event}
    (run : Run (Step conf) Guard (start children) events s)
    (requested : s.requested = true) (settled : s.Settled) : s.Exact conf := by
  have sound := sound_of_guarded run
  rcases sound.current requested with (requested | event) | ⟨-, upToDate⟩
  · exact absurd settled.requests (Nat.pos_iff_ne_zero.mp requested)
  · rw [settled.inbox] at event
    exact absurd event List.not_mem_nil
  · cases upToDate with
    | sent inboxEq _ => exact absurd (settled.inbox.symm.trans inboxEq) (by simp)
    | loading _ found _ => exact absurd (settled.completion.symm.trans found) (by simp)
    | stored _ _ exact => exact exact

/-! ## A server joins during `init` -/

/-- What the server 7 publishes. -/
def statusText : Bytes := ascii "\x7b\"CliConfigs\":[\x7b\"MaxType\":9\x7d]\x7d"

/-- The document. -/
def statusValue : Value := .object [("CliConfigs", .array [.object [("MaxType", .int 9)]])]

/-- A push server of the type 1. -/
def sampleConfig : Config :=
  ⟨1, fun s => if s = statusText then some statusValue else none, 0⟩

/-- The children once it has joined. -/
def joined : Children := Function.update (fun _ => none) [55] (some statusText)

theorem parse_statusText : sampleConfig.reader.parse statusText = some statusValue := by
  simp [sampleConfig]

theorem parseFromString_statusText :
    sampleConfig.reader.parseFromString statusText = some ⟨0, [], [⟨0, 9, 0, .null⟩], .null⟩ := by
  rw [StatusReader.parseFromString, parse_statusText]
  rfl

theorem readable_statusText : sampleConfig.reader.Readable statusText := by
  intro v parsed
  obtain rfl := Option.some.inj (parse_statusText.symm.trans parsed)
  rfl

theorem lists_none : Lists (fun _ => none) [] := ⟨List.nodup_nil, by simp⟩

theorem lists_joined : Lists joined [[55]] := by
  refine ⟨List.nodup_singleton _, fun name => ?_⟩
  rw [joined, List.mem_singleton]
  by_cases same : name = [55] <;> simp [same]

theorem accepting_joined :
    sampleConfig.Accepting (fun name data => joined name = some data) 7 :=
  ⟨[55], statusText, _, Function.update_self _ _ _, parseFromString_statusText,
    ⟨_, List.mem_singleton_self _, rfl⟩, rfl⟩

/-- `init` has listed no children, and the completion of its request is on its way. -/
def listsNone : State :=
  ⟨fun _ => none, 1, 0, [.children []], true, true, true, false,
    Function.update (fun _ => none) .main (some (.start [])), none⟩

theorem guard_watching (watching : s.watching = true) : s.Guard .deliver := fun _ => watching

theorem guard_children {s : State} {names : List Bytes} {rest : List Message}
    (inbox : s.inbox = .children names :: rest) : s.Guard .deliver := by
  intro isEvent
  rw [inbox] at isEvent
  exact absurd isEvent (by simp)

theorem run_listsNone : Run (Step sampleConfig) Guard (start fun _ => none)
    [.init, .serve [], .setMask, .getChildren []] listsNone := by
  have requests : Run (Step sampleConfig) Guard (start fun _ => none) _ _ :=
    Run.single (by trivial) (.init rfl)
  have completes := requests.snoc (by trivial) (.serve (k := 0) rfl lists_none)
  have sets := completes.snoc (by trivial) (.setMask rfl rfl)
  exact sets.snoc (by trivial) (.getChildren rfl rfl lists_none)

/-- The server joins before the completion of the first watch request is handled, and the
completion thread stores the old list and then the new one. -/
theorem run_joins (children : s.children = fun _ => none) (armed : s.armed = 1)
    (requests : s.requests = 0) (inbox : s.inbox = [.children []])
    (requested : s.requested = true) (watching : s.watching = true)
    (idle : s.work .completion = none) :
    ∃ events t, Run (Step sampleConfig) Guard s events t ∧ t.Settled ∧
      t.requested = true ∧ t.children = joined ∧ t.work .main = s.work .main := by
  rcases s with ⟨_, _, _, _, _, _, listed, changed, work, datasrc⟩
  obtain rfl := children
  obtain rfl := armed
  obtain rfl := requests
  obtain rfl := inbox
  obtain rfl := requested
  obtain rfl := watching
  have joins : Run (Step sampleConfig) Guard _ _ _ := Run.single (by trivial)
    (@Step.join sampleConfig
      ⟨fun _ => none, 1, 0, [.children []], true, true, listed, changed, work, datasrc⟩
      [55] statusText rfl readable_statusText)
  have loads := (joins.snoc (guard_children rfl) (.deliver rfl idle)).snoc (by trivial)
    (.onSvListChange (t := .completion) (m := []) rfl)
  have watches := (loads.snoc (guard_watching rfl) (.deliver rfl rfl)).snoc (by trivial)
    (.serve (k := 0) rfl lists_joined)
  have reads := (watches.snoc (guard_children rfl) (.deliver rfl rfl)).snoc (by trivial)
    (.getNodeData (t := .completion) rfl)
  have stores := reads.snoc (by trivial) (.onSvListChange (t := .completion) rfl)
  exact ⟨_, _, stores, ⟨rfl, rfl, rfl⟩, rfl, rfl, rfl⟩

/-- `init` stores its list before the server joins. -/
theorem ids_exact_of_guarded_joins :
    ∃ events s, Run (Step sampleConfig) Guard (start fun _ => none) events s ∧
      s.Settled ∧ s.Exact sampleConfig ∧ s.children = joined := by
  have unchanged : listsNone.Guard (.onSvListChange .main) := fun _ => rfl
  have stores := run_listsNone.snoc unchanged (.onSvListChange (m := []) rfl)
  obtain ⟨events, t, joins, settled, requested, children, -⟩ :=
    run_joins rfl rfl rfl rfl rfl rfl rfl (s := listsNone.setWork .main none |>.setData _)
  have run := stores.trans joins
  exact ⟨_, t, run, settled, ids_exact_of_guarded run requested settled, children⟩

/-- `init` stores its list after the completion thread has stored the new one. -/
theorem run_stores_old_list :
    ∃ events s, Run (Step sampleConfig) anyStep (start fun _ => none) events s ∧
      s.requested = true ∧ s.Settled ∧ ¬s.Exact sampleConfig := by
  obtain ⟨events, t, joins, settled, requested, children, work⟩ :=
    run_joins rfl rfl rfl rfl rfl rfl rfl (s := listsNone)
  have run := (run_listsNone.trans joins).mono fun _ _ _ => (trivial : anyStep _ _)
  have stores := run.snoc trivial (.onSvListChange (t := .main) (m := []) work)
  refine ⟨_, _, stores, requested, ⟨settled.requests, settled.inbox, ?_⟩, ?_⟩
  · exact (t.work_setWork_main none).trans settled.completion
  · rintro ⟨m, stored, has⟩
    obtain rfl := Option.some.inj stored
    have isListed := (has 7).mpr (children ▸ accepting_joined)
    exact absurd isListed List.not_mem_nil

/-- The server joins before `init` has set the event mask, and the completion thread drops the
event. -/
theorem run_drops :
    ∃ events s, Run (Step sampleConfig) anyStep (start fun _ => none) events s ∧
      s.children = joined ∧ s.armed = 0 ∧ s.Settled ∧ s.requested = true ∧
      s.watching = false ∧ s.listed = false := by
  have requests : Run (Step sampleConfig) anyStep (start fun _ => none) _ _ :=
    Run.single trivial (.init rfl)
  have completes := requests.snoc trivial (.serve (k := 0) rfl lists_none)
  have joins := completes.snoc trivial (@Step.join _ _ [55] statusText rfl readable_statusText)
  have loads := (joins.snoc trivial (.deliver rfl rfl)).snoc trivial
    (.onSvListChange (t := .completion) (m := []) rfl)
  have drops := loads.snoc trivial (.deliver rfl rfl)
  exact ⟨_, _, drops, rfl, rfl, ⟨rfl, rfl, rfl⟩, rfl, rfl, rfl⟩

/-- `init` stores the server, and nothing tells that it departs. -/
theorem run_misses_departure :
    ∃ events s, Run (Step sampleConfig) anyStep (start fun _ => none) events s ∧
      s.listed = true ∧ s.Settled ∧ ¬s.Exact sampleConfig := by
  obtain ⟨events, s, drops, children, armed, settled, requested, watching, listed⟩ := run_drops
  rcases s with ⟨_, _, requests, inbox, _, _, _, changed, work, datasrc⟩
  obtain rfl := children
  obtain rfl := armed
  obtain rfl := requested
  obtain rfl := watching
  obtain rfl := listed
  have isJoined : joined [55] = some statusText := Function.update_self _ _ _
  have gone (name : Bytes) : Function.update joined [55] none name = none := by
    by_cases same : name = [55] <;> simp [joined, same]
  have lists := (drops.snoc trivial (.setMask rfl rfl)).snoc trivial
    (.getChildren rfl rfl lists_joined)
  have stores := (lists.snoc trivial (.getNodeData (t := .main) rfl)).snoc trivial
    (.onSvListChange (t := .main) (m := [([55], statusText)]) rfl)
  have departs := stores.snoc trivial (@Step.depart _ _ [55] statusText isJoined)
  refine ⟨_, _, departs, rfl, ⟨settled.requests, ?_, settled.completion⟩, ?_⟩
  · exact (List.append_nil inbox).trans settled.inbox
  · rintro ⟨m, stored, has⟩
    obtain rfl := Option.some.inj stored
    have isStored := (mem_keys_stored (List.pairwise_singleton _ _)).mpr
      ⟨[55], statusText, _, List.mem_singleton_self _, parseFromString_statusText,
        ⟨_, List.mem_singleton_self _, rfl⟩, rfl⟩
    obtain ⟨name, data, -, isChild, -⟩ := (has 7).mp isStored
    exact absurd ((gone name).symm.trans isChild) (by simp)

/-- Both ways to a stale list. -/
theorem list_goes_stale :
    (∃ events s, Run (Step sampleConfig) anyStep (start fun _ => none) events s ∧
      s.requested = true ∧ s.Settled ∧ ¬s.Exact sampleConfig) ∧
    ∃ events s, Run (Step sampleConfig) anyStep (start fun _ => none) events s ∧
      s.listed = true ∧ s.Settled ∧ ¬s.Exact sampleConfig :=
  ⟨run_stores_old_list, run_misses_departure⟩

end State

end SvManager

end GPush.PushServer
