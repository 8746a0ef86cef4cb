import GPush.Discovery.ServerStatus
import GPush.SessCache.Group

/-!
# Watching the children of a node

A list watcher reads the data of the children that a listing names, one after the other,
and makes the statuses that it can read into a map.  When a child has gone in between, the
listing is dropped.
-/

namespace GPush.Discovery

open GPush.Containers GPush.Json GPush.LoopBuf GPush.SessCache

/-- `ChildrenMap`. -/
abbrev ChildrenMap := List (Bytes × Bytes)

/-- `SvStatusMap`. -/
abbrev SvStatusMap := List (Bytes × ServerStatus)

/-- The nodes under a path, with their data. -/
abbrev Children := Bytes → Option Bytes

/-- The nodes that a listing of the children names. -/
def Lists (children : Children) (names : List Bytes) : Prop :=
  names.Nodup ∧ ∀ name, name ∈ names ↔ (children name).isSome

/-- `Json::Reader::parse`, and what `ServerStatus::ID` holds before it is read. -/
structure StatusReader where
  parse : Bytes → Option Value
  id : Int

namespace StatusReader

variable (reader : StatusReader)

/-- `ServerStatus::parseFromString`; `none` is a negative result.  An assertion of
`Json::Value` ends the process. -/
def parseFromString (s : Bytes) : Option ServerStatus := do
  let v ← reader.parse s
  (ServerStatus.empty reader.id).parseFromJson v

/-- No assertion fails for the string. -/
def Readable (s : Bytes) : Prop :=
  ∀ v, reader.parse s = some v → ((ServerStatus.empty reader.id).parseFromJson v).isSome

/-- The loop of `SvListWatcherBase::onListChange` and `SvListWatcherBase::getChildren`. -/
def statusMap (c : ChildrenMap) : SvStatusMap :=
  ofEntries stringLess
    (c.filterMap fun entry => (reader.parseFromString entry.2).map fun s => (entry.1, s))

/-- The statuses in the map are those that can be read. -/
theorem mem_statusMap {c : ChildrenMap} (inOrder : InOrder stringLess c) {name : Bytes}
    {s : ServerStatus} :
    (name, s) ∈ reader.statusMap c ↔
      ∃ value, (name, value) ∈ c ∧ reader.parseFromString value = some s := by
  have entries : InOrder stringLess
      (c.filterMap fun entry => (reader.parseFromString entry.2).map fun s => (entry.1, s)) := by
    apply List.Pairwise.filterMap _ _ inOrder
    intro first second before first' firstEq second' secondEq
    obtain ⟨-, -, rfl⟩ := Option.map_eq_some_iff.mp firstEq
    obtain ⟨-, -, rfl⟩ := Option.map_eq_some_iff.mp secondEq
    exact before
  have distinct := entries.nodup stringLess_irrefl
  rw [statusMap, (ofEntries_perm distinct).mem_iff, List.mem_filterMap]
  constructor
  · rintro ⟨⟨name', value⟩, member, read⟩
    obtain ⟨s', parsed, entryEq⟩ := Option.map_eq_some_iff.mp read
    obtain ⟨rfl, rfl⟩ := Prod.mk.inj entryEq
    exact ⟨value, member, parsed⟩
  · rintro ⟨value, member, parsed⟩
    exact ⟨(name, value), member, by rw [parsed]; rfl⟩

end StatusReader

/-- `ListWatcherBase::getChildrenData` on its way: the names to come, and the map. -/
structure Loading where
  rest : List Bytes
  m : ChildrenMap
  deriving DecidableEq, Repr

namespace Loading

/-- The call starts. -/
def start (v : List Bytes) : Loading := ⟨v, []⟩

/-- A round of the loop, for which `getNodeData` answers `data`.  The call fails when there
is no node. -/
def round (n : Bytes) (rest : List Bytes) (m : ChildrenMap) (data : Option Bytes) :
    Option Loading :=
  data.map fun data => ⟨rest, assign stringLess n data m⟩

/-! ## What has been read -/

/-- The map has one value for each name. -/
def Ordered (l : Loading) : Prop := InOrder stringLess l.m

/-- When no child joins or departs any more, the map becomes that of the children. -/
structure Matches (children : Children) (l : Loading) : Prop where
  read : ∀ entry ∈ l.m, children entry.1 = some entry.2
  covers : ∀ name, (children name).isSome ↔ name ∈ l.m.map Prod.fst ∨ name ∈ l.rest

variable {children : Children} {l next : Loading} {n : Bytes} {rest : List Bytes}
  {m : ChildrenMap} {data : Option Bytes}

theorem ordered_start (v : List Bytes) : (start v).Ordered := List.Pairwise.nil

theorem Ordered.round (ordered : Ordered ⟨n :: rest, m⟩)
    (found : Loading.round n rest m data = some next) : next.Ordered := by
  obtain ⟨value, -, rfl⟩ := Option.map_eq_some_iff.mp found
  exact InOrder.assign ordered orders_stringLess n value

theorem matches_start {names : List Bytes} (lists : Lists children names) :
    (start names).Matches children := by
  constructor
  · intro entry member
    exact absurd member List.not_mem_nil
  · intro name
    simp [start, lists.2 name]

/-- No call fails, and the map stays that of the children. -/
theorem Matches.round (matching : Matches children ⟨n :: rest, m⟩) :
    ∃ next, Loading.round n rest m (children n) = some next ∧ next.Matches children := by
  have present : (children n).isSome := by
    rw [matching.covers]
    exact Or.inr List.mem_cons_self
  obtain ⟨value, valueEq⟩ := Option.isSome_iff_exists.mp present
  refine ⟨⟨rest, assign stringLess n value m⟩, by rw [valueEq]; rfl, ?_, ?_⟩
  · intro entry member
    rcases mem_assign member with rfl | old
    · exact valueEq
    · exact matching.read entry old
  · intro name
    rw [matching.covers, mem_keys_assign, List.mem_cons]
    tauto

end Loading

end GPush.Discovery
