import GPush.PushServer.LocalIP
import GPush.PushServer.SvManager

/-!
# The addresses of an advertised server

`SvManager::onSvListChange` leaves out the servers that have no port for this server's type, and
`Svlist::connectServer` reads the first port of every server that is left and the first field of
each of its addresses.
-/

namespace GPush.PushServer

open GPush.Containers GPush.Discovery GPush.Json GPush.LoopBuf GPush.SessCache GPush.Utility

/-- A round of the loop of `Svlist::connectServer`, on `localIPs` and `publicIPs`. -/
def sortIP (sorted : List Bytes × List Bytes) (ip : Bytes) : Option (List Bytes × List Bytes) := do
  if ← isLocalIPStr ip then
    return (sorted.1 ++ [ip], sorted.2)
  else
    return (sorted.1, sorted.2 ++ [ip])

/-- The port and the addresses that `Svlist::connectServer` tries, the local ones first.  `none`
says that it reads from an empty vector. -/
def connectServerTo (s : ServerStatus) : Option (Int × List Bytes) := do
  let first ← s.ports[0]?
  let (localIPs, publicIPs) ← s.ips.foldlM sortIP ([], [])
  return (first.port, localIPs ++ publicIPs)

namespace SvManager

/-- The push server makes a connection to a server with this status. -/
def Config.Accepted (conf : Config) (s : ServerStatus) : Prop :=
  ∃ p ∈ s.ports, conf.accepts p = true

/-- The status that a push server keeps for an id: of the accepted ones with that id, the one
whose name is the last. -/
structure Config.Kept (conf : Config) (docs : ChildrenMap) (name : Bytes) (s : ServerStatus) :
    Prop where
  read : ∃ data, (name, data) ∈ docs ∧ conf.reader.parseFromString data = some s
  accepted : conf.Accepted s
  last : ∀ name' data s', (name', data) ∈ docs →
    conf.reader.parseFromString data = some s' → conf.Accepted s' → atoi name' = atoi name →
      stringLess name name' = false

variable {conf : Config}

/-! ## What the loop reads -/

theorem isSome_sortIP (sorted : List Bytes × List Bytes) {ip : Bytes} :
    (sortIP sorted ip).isSome ↔ ∃ a ∈ ip, a ≠ dot := by
  rw [← isSome_isLocalIPStr, sortIP]
  cases isLocalIPStr ip with
  | none => simp
  | some isLocal => cases isLocal <;> simp

theorem isSome_foldlM_sortIP {ips : List Bytes} (sorted : List Bytes × List Bytes) :
    (ips.foldlM sortIP sorted).isSome ↔ ∀ ip ∈ ips, ∃ a ∈ ip, a ≠ dot := by
  induction ips generalizing sorted with
  | nil => simp
  | cons ip ips ih =>
      rw [List.foldlM_cons, List.forall_mem_cons, ← isSome_sortIP sorted]
      cases sortIP sorted ip with
      | none => simp
      | some next => simpa using ih next

/-- The call reads from no empty vector when there is a port and every address has another
character than the dot. -/
theorem isSome_connectServerTo {s : ServerStatus} :
    (connectServerTo s).isSome ↔ s.ports ≠ [] ∧ ∀ ip ∈ s.ips, ∃ a ∈ ip, a ≠ dot := by
  rw [← isSome_foldlM_sortIP ([], []), connectServerTo]
  cases s.ports with
  | nil => simp
  | cons first rest =>
      cases s.ips.foldlM sortIP ([], []) with
      | none => simp
      | some sorted => simp

/-! ## What is stored -/

/-- The entry that the loop of `SvManager::onSvListChange` assigns. -/
def Config.entry (conf : Config) (entry : Bytes × ServerStatus) : Option (Int × ServerStatus) :=
  let s1 := { entry.2 with ports := entry.2.ports.filter conf.accepts }
  if s1.ports.isEmpty then none else some (atoi entry.1, s1)

theorem intOrders : Orders fun i j : Int => decide (i < j) := by
  constructor
  · intro a b c first second
    rw [decide_eq_true_iff] at first second ⊢
    exact first.trans second
  · intro a b notLess other
    rw [decide_eq_false_iff_not] at notLess
    rw [decide_eq_true_iff]
    omega

theorem onSvListChange_eq (notify : SvStatusMap) :
    conf.onSvListChange notify =
      ofEntries (fun i j => decide (i < j)) (notify.filterMap conf.entry) := by
  have assigned : ∀ m, notify.foldl conf.addStatus m = (notify.filterMap conf.entry).foldl
      (fun m entry => assign (fun i j => decide (i < j)) entry.1 entry.2 m) m := by
    induction notify with
    | nil => exact fun m => rfl
    | cons entry notify ih =>
        intro m
        rw [List.foldl_cons, ih, List.filterMap_cons, Config.addStatus, Config.entry]
        split_ifs <;> rfl
  exact assigned []

theorem entry_eq_some {entry : Bytes × ServerStatus} {id : Int} {s : ServerStatus} :
    conf.entry entry = some (id, s) ↔ conf.Accepted entry.2 ∧ id = atoi entry.1 ∧
      s = { entry.2 with ports := entry.2.ports.filter conf.accepts } := by
  have noPort : (entry.2.ports.filter conf.accepts).isEmpty = true ↔
      ¬ conf.Accepted entry.2 := by
    simp [Config.Accepted, List.filter_eq_nil_iff]
  rw [Config.entry]
  split_ifs with empty
  · simp [noPort.mp empty]
  · simp [not_not.mp (noPort.not.mp empty), eq_comm]

/-- The accepted entry that comes last with its id is stored. -/
theorem mem_onSvListChange_iff_last {notify : SvStatusMap} {id : Int} {t : ServerStatus} :
    (id, t) ∈ conf.onSvListChange notify ↔
      ∃ front entry back, notify = front ++ entry :: back ∧ conf.entry entry = some (id, t) ∧
        ∀ later ∈ back, conf.Accepted later.2 → atoi later.1 ≠ id := by
  rw [onSvListChange_eq, mem_ofEntries_iff intOrders (by simp)]
  constructor
  · rintro ⟨front, back, split, notLater⟩
    obtain ⟨front', behind, rfl, -, behindEq⟩ := List.filterMap_eq_append_iff.mp split
    obtain ⟨skipped, entry, back', rfl, -, entryEq, rfl⟩ := List.filterMap_eq_cons_iff.mp behindEq
    refine ⟨front' ++ skipped, entry, back', by rw [List.append_assoc], entryEq, ?_⟩
    intro later member accepted
    exact notLater (atoi later.1, _)
      (List.mem_filterMap.mpr ⟨later, member, entry_eq_some.mpr ⟨accepted, rfl, rfl⟩⟩)
  · rintro ⟨front, entry, back, rfl, entryEq, notLater⟩
    refine ⟨front.filterMap conf.entry, back.filterMap conf.entry, ?_, ?_⟩
    · rw [List.filterMap_append, List.filterMap_cons, entryEq]
    · rintro ⟨id', t'⟩ member
      obtain ⟨later, member', laterEq⟩ := List.mem_filterMap.mp member
      obtain ⟨accepted, rfl, -⟩ := entry_eq_some.mp laterEq
      exact notLater later member' accepted

/-- The servers that are stored are those that are kept, without the other ports. -/
theorem mem_onSvListChange {docs : ChildrenMap} (inOrder : InOrder stringLess docs) {id : Int}
    {t : ServerStatus} :
    (id, t) ∈ conf.onSvListChange (conf.reader.statusMap docs) ↔
      ∃ name s, conf.Kept docs name s ∧ id = atoi name ∧
        t = { s with ports := s.ports.filter conf.accepts } := by
  have mem_notify : ∀ name s, (name, s) ∈ conf.reader.statusMap docs ↔
      ∃ data, (name, data) ∈ docs ∧ conf.reader.parseFromString data = some s := fun name s =>
    conf.reader.mem_statusMap inOrder
  have notifyInOrder : InOrder stringLess (conf.reader.statusMap docs) :=
    inOrder_ofEntries orders_stringLess _
  rw [mem_onSvListChange_iff_last]
  constructor
  · rintro ⟨front, ⟨name, s⟩, back, split, entryEq, notLater⟩
    obtain ⟨accepted, idEq, tEq⟩ := entry_eq_some.mp entryEq
    dsimp only at accepted idEq tEq
    refine ⟨name, s, ⟨(mem_notify name s).mp (by rw [split]; simp), accepted, ?_⟩, idEq, tEq⟩
    intro name' data s' member parsed accepted' sameId
    have there := (mem_notify name' s').mpr ⟨data, member, parsed⟩
    rw [split, List.mem_append, List.mem_cons] at there
    rw [split, InOrder, List.pairwise_append] at notifyInOrder
    rcases there with before | same | later
    · have less := notifyInOrder.2.2 _ before _ List.mem_cons_self
      rw [Bool.eq_false_iff]
      intro more
      have cycle := stringLess_trans less more
      rw [stringLess_irrefl] at cycle
      cases cycle
    · obtain ⟨rfl, rfl⟩ := Prod.mk.inj same
      exact stringLess_irrefl name'
    · have other := notLater (name', s') later accepted'
      rw [idEq] at other
      exact absurd sameId other
  · rintro ⟨name, s, kept, idEq, tEq⟩
    obtain ⟨front, back, split⟩ := List.append_of_mem ((mem_notify name s).mpr kept.read)
    refine ⟨front, (name, s), back, split, entry_eq_some.mpr ⟨kept.accepted, idEq, tEq⟩, ?_⟩
    rintro ⟨name', s'⟩ member accepted sameId
    obtain ⟨data, member', parsed⟩ := (mem_notify name' s').mp (by rw [split]; simp [member])
    rw [split, InOrder, List.pairwise_append] at notifyInOrder
    have less := (List.pairwise_cons.mp notifyInOrder.2.1).1 _ member
    rw [idEq] at sameId
    rw [kept.last name' data s' member' parsed accepted sameId] at less
    cases less

/-- The call is safe for every server that is stored exactly when no address of a kept status is
empty or consists of dots.  A text in which an assertion of `Json::Value` fails counts as one
that cannot be read. -/
theorem connectServer_safe_iff (conf : Config) (docs : List (Bytes × Bytes)) :
    (∀ entry ∈ conf.onSvListChange (conf.reader.statusMap (ofEntries stringLess docs)),
        (connectServerTo entry.2).isSome) ↔
      ∀ name s, conf.Kept (ofEntries stringLess docs) name s →
        ∀ ip ∈ s.ips, ∃ a ∈ ip, a ≠ dot := by
  have inOrder := inOrder_ofEntries orders_stringLess docs
  constructor
  · intro safe name s kept
    have stored := (mem_onSvListChange inOrder).mpr ⟨name, s, kept, rfl, rfl⟩
    exact (isSome_connectServerTo.mp (safe _ stored)).2
  · rintro safe ⟨id, t⟩ stored
    obtain ⟨name, s, kept, -, rfl⟩ := (mem_onSvListChange inOrder).mp stored
    rw [isSome_connectServerTo]
    constructor
    · obtain ⟨p, member, accepts⟩ := kept.accepted
      exact List.ne_nil_of_mem (List.mem_filter.mpr ⟨member, accepts⟩)
    · exact safe name s kept

/-! ## A server without an address -/

/-- What a server publishes when it could not find out its public address. -/
def noAddressText : Bytes := ascii "\x7b\"CliConfigs\":[\x7b\"MaxType\":9\x7d],\"IPs\":[\"\"]\x7d"

/-- The document. -/
def noAddressValue : Value :=
  .object [("CliConfigs", .array [.object [("MaxType", .int 9)]]), ("IPs", .array [.string []])]

/-- A push server of the type 1. -/
def noAddressConfig : Config :=
  ⟨1, fun s => if s = noAddressText then some noAddressValue else none, 0⟩

theorem parseFromString_noAddressText :
    noAddressConfig.reader.parseFromString noAddressText =
      some ⟨0, [[]], [⟨0, 9, 0, .null⟩], .null⟩ := by
  have parsed : noAddressConfig.reader.parse noAddressText = some noAddressValue := by
    simp [noAddressConfig]
  rw [StatusReader.parseFromString, parsed]
  rfl

/-- The first field of the empty address is read. -/
theorem connectServer_reads_past_end :
    ¬ ∀ entry ∈ noAddressConfig.onSvListChange
        (noAddressConfig.reader.statusMap (ofEntries stringLess [([55], noAddressText)])),
      (connectServerTo entry.2).isSome := by
  intro safe
  have kept : noAddressConfig.Kept (ofEntries stringLess [([55], noAddressText)]) [55]
      ⟨0, [[]], [⟨0, 9, 0, .null⟩], .null⟩ := by
    constructor
    · exact ⟨noAddressText, List.mem_singleton_self _, parseFromString_noAddressText⟩
    · exact ⟨_, List.mem_singleton_self _, rfl⟩
    · intro name' data s' member _ _ _
      obtain ⟨rfl, rfl⟩ := Prod.mk.inj (List.mem_singleton.mp member)
      exact stringLess_irrefl _
  have stored := (mem_onSvListChange (inOrder_ofEntries orders_stringLess _)).mpr
    ⟨_, _, kept, rfl, rfl⟩
  obtain ⟨a, member, -⟩ :=
    (isSome_connectServerTo.mp (safe _ stored)).2 [] (List.mem_singleton_self _)
  cases member

end SvManager

end GPush.PushServer
