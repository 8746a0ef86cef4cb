import GPush.ConnectServer.Routing
import GPush.Json.Value

/-!
# Dispatching connections over event loops

`ServerConfig::init` checks that the numbers of a port are numbers, and nothing else about
them.  The counter that ids are taken from goes back to `1` only when a construction finds
exactly `0X7FFFFFF` in it, which another construction in between can prevent.
-/

namespace GPush.ConnectServer

open GPush.Json GPush.Transition GPush.Codec

/-! ## The configuration -/

/-- `Json::Int` has 32 bits. -/
def asInt32? (v : Value) : Option Int := v.asInt?.map fun n => n.bmod (2 ^ 32)

/-- A port as `ServerConfig::loadPortsConfigs` reads it. -/
structure PortConfig where
  Enc : Int
  AliveMs : Int
  MinType : Int
  MaxType : Int
  ListenPort : Int
  MaxReqQueSize : Int
  MaxPackCntPerMin : Int
  StartThreadIdx : Int
  ThreadCnt : Int
  deriving DecidableEq, Repr

/-- What the dispatcher and the login read of a port. -/
def PortConfig.cliConfig (port : PortConfig) : CliConfig :=
  ⟨port.StartThreadIdx, port.ThreadCnt, port.MinType, port.MaxType⟩

/-- The configuration of the server, as far as dispatching depends on it. -/
structure Config where
  ID : Int
  ThreadCount : Int
  CliConfigs : List PortConfig
  deriving DecidableEq, Repr

/-- One round of `ServerConfig::loadPortsConfigs`. -/
def loadPort (cf : Value) : Option PortConfig := do
  let enc ← asInt32? (← cf.get "Enc")
  let aliveMs ← asInt32? (← cf.get "AliveMs")
  let minType ← asInt32? (← cf.get "MinType")
  let maxType ← asInt32? (← cf.get "MaxType")
  let listenPort ← asInt32? (← cf.get "ListenPort")
  let maxReqQueSize ← asInt32? (← cf.get "MaxReqQueSize")
  let maxPackCntPerMin ← asInt32? (← cf.get "MaxPackCntPerMin")
  let startThreadIdx ← asInt32? (← cf.get "StartThreadIdx")
  let threadCnt ← asInt32? (← cf.get "ThreadCnt")
  return ⟨enc, aliveMs, minType, maxType, listenPort, maxReqQueSize, maxPackCntPerMin,
    startThreadIdx, threadCnt⟩

/-- The values from `begin` to `end`. -/
def values : Value → List Value
  | .array elements => elements
  | .object members => members.map Prod.snd
  | _ => []

/-- `ServerConfig::loadPortsConfigs`. -/
def loadPortsConfigs (v : Value) : Option (List PortConfig) := (values v).mapM loadPort

/-- `ServerConfig::init` of a file that holds the document `root`; `none` is a negative
result or an assertion of `Json::Value`. -/
def parseFromJson (root : Value) : Option Config := do
  let id ← root.get "ID"
  let threadCount ← root.get "ThreadCount"
  let ports ← loadPortsConfigs (← root.get "CliConfigs")
  return ⟨(asInt32? id).getD 0, (asInt32? threadCount).getD 0, ports⟩

/-- An `int32`. -/
def IsInt32 (n : Int) : Prop := -2 ^ 31 ≤ n ∧ n < 2 ^ 31

theorem isInt32_bmod (n : Int) : IsInt32 (n.bmod (2 ^ 32)) := by
  have lower := Int.le_bmod (x := n) (m := 2 ^ 32) (by decide)
  have upper := Int.bmod_lt (x := n) (m := 2 ^ 32) (by decide)
  constructor
  · omega
  · omega

theorem isInt32_of_asInt32? {v : Value} {n : Int} (read : asInt32? v = some n) : IsInt32 n := by
  obtain ⟨m, _, rfl⟩ := Option.map_eq_some_iff.mp read
  exact isInt32_bmod m

theorem isInt32_ID {root : Value} {conf : Config} (accepted : parseFromJson root = some conf) :
    IsInt32 conf.ID := by
  simp only [parseFromJson, Option.bind_eq_bind, Option.bind_eq_some_iff, Option.pure_def,
    Option.some.injEq] at accepted
  obtain ⟨id, _, threadCount, _, cliConfigs, _, ports, _, rfl⟩ := accepted
  dsimp only
  cases read : asInt32? id with
  | none => exact ⟨by decide, by decide⟩
  | some n => exact isInt32_of_asInt32? read

/-! ## The counters -/

/-- The counter of `Connection::Connection` with the constructions between its two
operations, the ids assigned so far, and the counter of `GDispatcher` with the calls
between its two operations. -/
structure Counters where
  id : Int
  wrapping : Nat
  assigned : List Int
  i : Int
  dispatching : Nat
  deriving DecidableEq, Repr

/-- Before the first connection. -/
def Counters.init : Counters := ⟨0, 0, [], 0, 0⟩

/-- `atomicIncrement32`. -/
def atomicIncrement32 (n : Int) : Int := (n + 1).bmod (2 ^ 32)

/-- The atomic operations on the counters. -/
inductive Atomic
  /-- `m_id = atomicIncrement32(&id)` -/
  | increment
  /-- `atomicCompareExchange32(&id, 1, 0X7FFFFFF)` -/
  | compareExchange
  /-- `atomicIncrement32(&i)` in `GDispatcher::dispatchConnection` -/
  | incrementI
  /-- the use of `i` behind it -/
  | readI
  deriving DecidableEq, Repr

/-- `m_id = atomicIncrement32(&id)`. -/
def Counters.increment (s : Counters) : Counters :=
  { s with
    id := atomicIncrement32 s.id
    wrapping := s.wrapping + 1
    assigned := atomicIncrement32 s.id :: s.assigned }

/-- `atomicCompareExchange32(&id, 1, 0X7FFFFFF)`. -/
def Counters.compareExchange (s : Counters) : Counters :=
  { s with id := Table.afterConstruct s.id, wrapping := s.wrapping - 1 }

/-- The step relation of any number of constructions and dispatches at the same time. -/
inductive CounterStep : LTS Counters Atomic
  | increment (s : Counters) : CounterStep s .increment s.increment
  | compareExchange {s : Counters} (inside : 0 < s.wrapping) :
      CounterStep s .compareExchange s.compareExchange
  | incrementI (s : Counters) : CounterStep s .incrementI
      { s with i := atomicIncrement32 s.i, dispatching := s.dispatching + 1 }
  | readI {s : Counters} (inside : 0 < s.dispatching) :
      CounterStep s .readI { s with dispatching := s.dispatching - 1 }

/-! ## The property -/

/-- `m_thread_cnt` after `Server::setEventLoopCount`. -/
def Config.loops (conf : Config) : Int := if conf.ThreadCount ≤ 0 then 1 else conf.ThreadCount

/-- What the handlers read of the configuration. -/
def Config.serverConfig (conf : Config) : ServerConfig := ⟨conf.ID, conf.ThreadCount⟩

/-- `CDispatcher::dispatchConnection` of a connection with the id `id` is defined, finds an
event loop, and stores an id that leads back to it, also from a session id. -/
structure Routes (conf : Config) (port : PortConfig) (id : Int) : Prop where
  divides : port.ThreadCnt ≠ 0 ∧ ¬(id = -2 ^ 31 ∧ port.ThreadCnt = -1)
  lower : 0 ≤ Table.dispatchIdx port.cliConfig id
  upper : Table.dispatchIdx port.cliConfig id < conf.loops
  fits : IsInt32 (getConnectionId (Table.dispatchIdx port.cliConfig id) id)
  index : getEventLoopId (getConnectionId (Table.dispatchIdx port.cliConfig id) id) =
    Table.dispatchIdx port.cliConfig id
  resolves : ∀ n beyond,
    getConFromSessid conf.serverConfig beyond
        (decorationName conf.ID (getConnectionId (Table.dispatchIdx port.cliConfig id) id) n) =
      some (.ok ⟨Table.dispatchIdx port.cliConfig id,
        getConnectionId (Table.dispatchIdx port.cliConfig id) id, n⟩)

/-- `GDispatcher::dispatchConnection` finds an event loop for the value `i` of its counter. -/
def GRoutes (conf : Config) (i : Int) : Prop :=
  conf.loops ≠ 0 ∧ 0 ≤ i.tmod conf.loops ∧ i.tmod conf.loops < conf.loops

/-- Every connection can be dispatched, on every port. -/
def InRange (conf : Config) (s : Counters) : Prop :=
  (∀ id ∈ s.assigned, ∀ port ∈ conf.CliConfigs, Routes conf port id) ∧
    (0 < s.dispatching → GRoutes conf s.i)

/-- The loops that a port uses exist, and are few enough for an `int32`. -/
structure PortConfig.Sane (port : PortConfig) (threadCount : Int) : Prop where
  divides : port.ThreadCnt ≠ 0
  lower : 0 ≤ port.StartThreadIdx
  upper : port.StartThreadIdx + port.ThreadCnt.natAbs ≤ threadCount
  few : port.StartThreadIdx + port.ThreadCnt.natAbs ≤ 2147

/-- No counter is incremented beyond the largest `int32`. -/
def NoOverflow (s : Counters) : Atomic → Prop
  | .increment => s.id ≠ 2 ^ 31 - 1
  | .incrementI => s.i ≠ 2 ^ 31 - 1
  | _ => True

/-! ## One connection -/

section Routes

variable {conf : Config} {port : PortConfig} {id : Int}

/-- A session id leads to the loop that the id of its connection names. -/
theorem getConFromSessid_of_index (isInt32 : IsInt32 conf.ID) {conid idx : Int}
    (fits : IsInt32 conid) (index : getEventLoopId conid = idx) (lower : 0 ≤ idx)
    (upper : idx < conf.ThreadCount) (n beyond : Bytes) :
    getConFromSessid conf.serverConfig beyond (decorationName conf.ID conid n) =
      some (.ok ⟨idx, conid, n⟩) := by
  have decoded := getDecorationInfo_decorationName isInt32.1 isInt32.2 fits.1 fits.2 n beyond
  have within : ¬(idx < 0 ∨ conf.ThreadCount ≤ idx) := by omega
  rw [getConFromSessid, decoded]
  simp [Config.serverConfig, index, within]

theorem lt_loops {idx : Int} (upper : idx < conf.ThreadCount) : idx < conf.loops := by
  rw [Config.loops]
  split_ifs <;> omega

theorem dispatchIdx_of_nonneg (port : PortConfig) (positive : 0 ≤ id) :
    Table.dispatchIdx port.cliConfig id = port.StartThreadIdx + id % port.ThreadCnt := by
  rw [Table.dispatchIdx, PortConfig.cliConfig, Int.tmod_eq_emod_of_nonneg positive]

/-- An id that is not negative is dispatched to one of the loops of its port. -/
theorem routes_of_sane (isInt32 : IsInt32 conf.ID) (sane : port.Sane conf.ThreadCount)
    (positive : 0 ≤ id) : Routes conf port id := by
  have idxEq := dispatchIdx_of_nonneg port positive
  have least := Int.emod_nonneg id sane.divides
  have most := Int.emod_lt id sane.divides
  have start := sane.lower
  have few := sane.few
  have last := sane.upper
  have lower : 0 ≤ Table.dispatchIdx port.cliConfig id := by omega
  have upper : Table.dispatchIdx port.cliConfig id < conf.ThreadCount := by omega
  have fits : IsInt32 (getConnectionId (Table.dispatchIdx port.cliConfig id) id) := by
    rw [getConnectionId, Int.tmod_eq_emod_of_nonneg positive]
    simp only [IsInt32, eventLoopIdMask]
    omega
  have index : getEventLoopId (getConnectionId (Table.dispatchIdx port.cliConfig id) id) =
      Table.dispatchIdx port.cliConfig id := by
    obtain ⟨_, digits⟩ := Table.getConnectionId_digits (Table.dispatchIdx port.cliConfig id) positive
    have idPositive : 0 ≤ getConnectionId (Table.dispatchIdx port.cliConfig id) id := by
      rw [getConnectionId, Int.tmod_eq_emod_of_nonneg positive]
      simp only [eventLoopIdMask]
      omega
    rw [getEventLoopId, Int.tdiv_eq_ediv_of_nonneg idPositive, digits]
  constructor
  · refine ⟨sane.divides, ?_⟩
    rintro ⟨rfl, _⟩
    exact absurd positive (by decide)
  · exact lower
  · exact lt_loops upper
  · exact fits
  · exact index
  · exact getConFromSessid_of_index isInt32 fits index lower upper

/-- With one loop for everything, negative ids do no harm. -/
theorem routes_of_single (isInt32 : IsInt32 conf.ID) (single : conf.ThreadCount = 1)
    (start : port.StartThreadIdx = 0) (count : port.ThreadCnt = 1) : Routes conf port id := by
  have idxEq : Table.dispatchIdx port.cliConfig id = 0 := by
    simp [Table.dispatchIdx, PortConfig.cliConfig, start, count]
  have digits := Int.tmod_lt_of_pos id (b := eventLoopIdMask) (by decide)
  have digits' := Int.lt_tmod_of_pos id (b := eventLoopIdMask) (by decide)
  have idEq : getConnectionId 0 id = id.tmod eventLoopIdMask := by
    rw [getConnectionId, Int.zero_mul, Int.zero_add]
  have fits : IsInt32 (getConnectionId 0 id) := by
    rw [idEq]
    simp only [IsInt32, eventLoopIdMask] at *
    omega
  have index : getEventLoopId (getConnectionId 0 id) = 0 := by
    have divided := Int.mul_tdiv_add_tmod (id.tmod eventLoopIdMask) eventLoopIdMask
    rw [Int.tmod_tmod] at divided
    rw [idEq, getEventLoopId]
    simp only [eventLoopIdMask] at *
    omega
  have upper : (0 : Int) < conf.ThreadCount := by omega
  constructor
  · refine ⟨by omega, ?_⟩
    rintro ⟨_, negative⟩
    omega
  · exact Int.le_of_eq idxEq.symm
  · rw [idxEq]
    exact lt_loops upper
  · rw [idxEq]
    exact fits
  · rw [idxEq]
    exact index
  · rw [idxEq]
    exact getConFromSessid_of_index isInt32 fits index (Int.le_refl 0) upper

theorem loop_lt_of_getConFromSessid {serv : ServerConfig} {beyond sessid : Bytes} {route : Route}
    (routed : getConFromSessid serv beyond sessid = some (.ok route)) :
    route.loop < serv.threadCount := by
  obtain ⟨info, _, routeEq⟩ := Option.map_eq_some_iff.mp routed
  split_ifs at routeEq with foreign
  dsimp only at routeEq
  split_ifs at routeEq with outside
  rw [← Except.ok.inj routeEq]
  exact Int.not_le.mp fun beyondLast => outside (Or.inr beyondLast)

/-- What `Routes` says in terms of remainders, for an id below a million. -/
theorem Routes.bounds (routes : Routes conf port id) (positive : 0 ≤ id) (small : id < 1000000) :
    0 ≤ port.StartThreadIdx + id % port.ThreadCnt ∧
      port.StartThreadIdx + id % port.ThreadCnt < conf.ThreadCount ∧
      (port.StartThreadIdx + id % port.ThreadCnt) * 1000000 + id < 2 ^ 31 := by
  have idxEq := dispatchIdx_of_nonneg port positive
  have idEq : getConnectionId (port.StartThreadIdx + id % port.ThreadCnt) id =
      (port.StartThreadIdx + id % port.ThreadCnt) * 1000000 + id := by
    rw [getConnectionId, Int.tmod_eq_emod_of_nonneg positive, eventLoopIdMask,
      Int.emod_eq_of_lt positive small]
  have lower := routes.lower
  have fits := routes.fits.2
  have upper := loop_lt_of_getConFromSessid (routes.resolves [] [])
  rw [idxEq] at lower fits upper
  rw [idEq] at fits
  exact ⟨lower, upper, fits⟩

/-- Connections with the first million ids show whether a port is sane. -/
theorem sane_of_routes (routes : ∀ id, 0 < id → id < 1000000 → Routes conf port id) :
    port.Sane conf.ThreadCount := by
  have nonzero := (routes 1 (by decide) (by decide)).divides.1
  obtain ⟨count, countEq⟩ : ∃ count : Int, count = port.ThreadCnt.natAbs := ⟨_, rfl⟩
  have positive : 0 < count := by omega
  have remainder : ∀ id, id % port.ThreadCnt = id % count := by
    intro id
    rcases Int.natAbs_eq port.ThreadCnt with same | opposite
    · rw [countEq, ← same]
    · rw [countEq, opposite, Int.emod_neg, ← opposite]
  have bounds : ∀ id, 0 < id → id < 1000000 →
      0 ≤ port.StartThreadIdx + id % count ∧
        port.StartThreadIdx + id % count < conf.ThreadCount ∧
        (port.StartThreadIdx + id % count) * 1000000 + id < 2 ^ 31 := by
    intro id idPositive small
    have found := (routes id idPositive small).bounds (Int.le_of_lt idPositive) small
    rwa [remainder] at found
  have few : count ≤ 4000 := by
    by_contra many
    have first := bounds 1 (by decide) (by decide)
    have far := bounds 4000 (by decide) (by decide)
    rw [Int.emod_eq_of_lt (by decide) (by omega)] at first far
    omega
  -- the ids that the last loop of the port takes
  have last : ∀ m, (count - 1 + count * m) % count = count - 1 := by
    intro m
    rw [Int.add_mul_emod_self_left]
    exact Int.emod_eq_of_lt (by omega) (by omega)
  have zeroth := bounds count positive (by omega)
  rw [Int.emod_self] at zeroth
  have second := bounds (count - 1 + count * 1) (by omega) (by omega)
  rw [last] at second
  have below := Int.mul_ediv_self_le (x := 483649) (k := count) (by omega)
  have above := Int.lt_mul_ediv_self_add (x := 483649) (k := count) positive
  have high := bounds (count - 1 + count * (483649 / count)) (by omega) (by omega)
  rw [last] at high
  constructor
  · exact nonzero
  · omega
  · omega
  · omega

end Routes

/-! ## Runs of the counters -/

section Runs

theorem atomicIncrement32_bmod (n : Nat) :
    atomicIncrement32 ((n : Int).bmod (2 ^ 32)) = ((n + 1 : Nat) : Int).bmod (2 ^ 32) := by
  rw [atomicIncrement32, Int.bmod_add_bmod, Int.natCast_add, Int.natCast_one]

theorem afterConstruct_of_even (n : Nat) :
    Table.afterConstruct (((2 * n : Nat) : Int).bmod (2 ^ 32)) =
      ((2 * n : Nat) : Int).bmod (2 ^ 32) := by
  have congruent := Int.bmod_emod (x := ((2 * n : Nat) : Int)) (m := 2 ^ 32)
  rw [Table.afterConstruct, if_neg]
  intro isLimit
  rw [isLimit] at congruent
  omega

/-- Pairs of constructions, both of which increment before either compares, let the
counter take every value: it is even whenever it is compared. -/
theorem construct_pairs (guard : Counters → Atomic → Prop) (pairs : Nat)
    (free : ∀ s n, n < 2 * pairs → s.id = (n : Int).bmod (2 ^ 32) → guard s .increment)
    (idle : ∀ s, guard s .compareExchange) :
    ∃ events s, Run CounterStep guard Counters.init events s ∧
      s.id = ((2 * pairs : Nat) : Int).bmod (2 ^ 32) ∧ s.wrapping = 0 ∧
      ∀ n : Nat, 0 < n → n ≤ 2 * pairs → (n : Int).bmod (2 ^ 32) ∈ s.assigned := by
  induction pairs with
  | zero =>
      refine ⟨[], Counters.init, Run.refl, rfl, rfl, ?_⟩
      intro n positive small
      omega
  | succ pairs ih =>
      obtain ⟨events, s, run, idEq, noneInside, taken⟩ := ih fun s n small => free s n (by omega)
      have first : s.increment.id = ((2 * pairs + 1 : Nat) : Int).bmod (2 ^ 32) := by
        rw [Counters.increment, idEq, atomicIncrement32_bmod]
      have second : s.increment.increment.id =
          ((2 * (pairs + 1) : Nat) : Int).bmod (2 ^ 32) := by
        have sum : 2 * pairs + 1 + 1 = 2 * (pairs + 1) := by omega
        rw [Counters.increment, first, atomicIncrement32_bmod, sum]
      have compared := afterConstruct_of_even (pairs + 1)
      have incremented := (run.snoc (free _ _ (by omega) idEq) (.increment s)).snoc
        (free _ _ (by omega) first) (.increment s.increment)
      have pair := (incremented.snoc (idle _) (.compareExchange (Nat.succ_pos _))).snoc (idle _)
        (.compareExchange (Nat.succ_pos _))
      refine ⟨_, _, pair, ?_, ?_, ?_⟩
      · simp only [Counters.compareExchange, second, compared]
      · simp [Counters.compareExchange, Counters.increment, noneInside]
      · intro n positive small
        have assignedEq : s.increment.increment.compareExchange.compareExchange.assigned =
            s.increment.increment.id :: s.increment.id :: s.assigned := rfl
        rw [assignedEq, second, first, List.mem_cons, List.mem_cons]
        by_cases isSecond : n = 2 * (pairs + 1)
        · exact Or.inl (by rw [isSecond])
        · by_cases isFirst : n = 2 * pairs + 1
          · exact Or.inr (Or.inl (by rw [isFirst]))
          · exact Or.inr (Or.inr (taken n positive (by omega)))

/-- Dispatches let the other counter take every value. -/
theorem dispatch_many (count : Nat) :
    ∃ events s, Run CounterStep anyStep Counters.init events s ∧
      s.i = (count : Int).bmod (2 ^ 32) ∧ s.dispatching = count := by
  induction count with
  | zero => exact ⟨[], Counters.init, Run.refl, rfl, rfl⟩
  | succ count ih =>
      obtain ⟨events, s, run, iEq, dispatchingEq⟩ := ih
      refine ⟨_, _, run.snoc trivial (.incrementI s), ?_, ?_⟩
      · simp only [iEq, atomicIncrement32_bmod]
      · simp only [dispatchingEq]

/-- While no counter overflows, every id and every index is positive. -/
structure Positive (s : Counters) : Prop where
  id : 0 ≤ s.id ∧ s.id < 2 ^ 31
  assigned : ∀ n ∈ s.assigned, 0 ≤ n
  i : 0 ≤ s.i ∧ s.i < 2 ^ 31

theorem atomicIncrement32_of_noOverflow {n : Int} (isInt32 : 0 ≤ n ∧ n < 2 ^ 31)
    (noOverflow : n ≠ 2 ^ 31 - 1) : atomicIncrement32 n = n + 1 := by
  rw [atomicIncrement32]
  apply Int.bmod_eq_of_le
  · omega
  · omega

theorem positive_of_run {events : List Atomic} {s : Counters}
    (run : Run CounterStep NoOverflow Counters.init events s) : Positive s := by
  apply run.invariant
  · refine ⟨by decide, ?_, by decide⟩
    intro n member
    cases member
  · intro s event t positive noOverflow taken
    cases taken with
    | increment =>
        have idEq := atomicIncrement32_of_noOverflow positive.id noOverflow
        have idBound := positive.id
        have room : s.id ≠ 2 ^ 31 - 1 := noOverflow
        refine ⟨?_, ?_, positive.i⟩
        · simp only [Counters.increment, idEq]
          omega
        · intro n member
          rcases List.mem_cons.mp member with rfl | old
          · rw [idEq]
            omega
          · exact positive.assigned n old
    | compareExchange =>
        have idBound := positive.id
        refine ⟨?_, positive.assigned, positive.i⟩
        simp only [Counters.compareExchange, Table.afterConstruct]
        split_ifs <;> omega
    | incrementI =>
        have iEq := atomicIncrement32_of_noOverflow positive.i noOverflow
        have iBound := positive.i
        have room : s.i ≠ 2 ^ 31 - 1 := noOverflow
        refine ⟨positive.id, positive.assigned, ?_⟩
        simp only [iEq]
        omega
    | readI => exact ⟨positive.id, positive.assigned, positive.i⟩

end Runs

/-! ## The result -/

section Result

variable {conf : Config}

/-- Without overflow the ports have to be sane. -/
theorem sane_of_inRange (inRange : ∀ events s, Run CounterStep NoOverflow Counters.init events s →
    InRange conf s) : ∀ port ∈ conf.CliConfigs, port.Sane conf.ThreadCount := by
  intro port member
  apply sane_of_routes
  intro id positive small
  obtain ⟨events, s, run, _, _, taken⟩ := construct_pairs NoOverflow 500000
    (by
      intro s n below idEq isLast
      rw [isLast, Int.bmod_eq_of_le (by omega) (by omega)] at idEq
      omega)
    fun _ => trivial
  have assigned := taken id.toNat (by omega) (by omega)
  rw [Int.toNat_of_nonneg (Int.le_of_lt positive),
    Int.bmod_eq_of_le (by omega) (by omega)] at assigned
  exact (inRange events s run).1 id assigned port member

theorem loops_positive (conf : Config) : 0 < conf.loops := by
  rw [Config.loops]
  split_ifs <;> omega

theorem gRoutes_of_nonneg {i : Int} (positive : 0 ≤ i) : GRoutes conf i := by
  have loops := loops_positive conf
  exact ⟨by omega, Int.tmod_nonneg _ positive, Int.tmod_lt_of_pos _ loops⟩

theorem gRoutes_of_single (single : conf.ThreadCount ≤ 1) (i : Int) : GRoutes conf i := by
  have one : conf.loops = 1 := by
    rw [Config.loops]
    split_ifs <;> omega
  rw [GRoutes, one, Int.tmod_one]
  decide

/-- When counters overflow, one loop has to serve everything. -/
theorem single_of_inRange
    (inRange : ∀ s, Reachable CounterStep Counters.init s → InRange conf s) :
    conf.ThreadCount ≤ 1 ∧ ∀ port ∈ conf.CliConfigs,
      conf.ThreadCount = 1 ∧ port.StartThreadIdx = 0 ∧ port.ThreadCnt = 1 := by
  have single : conf.ThreadCount ≤ 1 := by
    obtain ⟨events, s, run, iEq, dispatchingEq⟩ := dispatch_many (2 ^ 32 - 1)
    have iEq' : s.i = -1 := iEq.trans (by decide)
    obtain ⟨_, lower, _⟩ := (inRange s ⟨events, run⟩).2 (by rw [dispatchingEq]; decide)
    by_contra several
    have loopsEq : conf.loops = conf.ThreadCount := by
      rw [Config.loops]
      split_ifs <;> omega
    rw [iEq', loopsEq, Int.neg_tmod, Int.tmod_eq_of_lt (by decide) (by omega)] at lower
    omega
  refine ⟨single, ?_⟩
  intro port member
  have sane := sane_of_inRange (fun _ s run => inRange s run.reachable) port member
  have divides := sane.divides
  have start := sane.lower
  have last := sane.upper
  -- the least `int32` is assigned too, and its remainder by `-1` is not defined
  obtain ⟨events, s, run, _, _, taken⟩ := construct_pairs anyStep (2 ^ 30)
    (fun _ _ _ _ => trivial) fun _ => trivial
  have assigned := taken (2 ^ 31) (by decide) (by decide)
  have least := ((inRange s ⟨events, run⟩).1 _ assigned port member).divides.2
  have isLeast : ((2 ^ 31 : Nat) : Int).bmod (2 ^ 32) = -2 ^ 31 := by decide
  rw [isLeast] at least
  have positive : port.ThreadCnt ≠ -1 := fun isNegative => least ⟨rfl, isNegative⟩
  refine ⟨by omega, by omega, by omega⟩

end Result

/-- Take any configuration that is accepted.  While no counter is incremented beyond the
largest `int32`, every connection can be dispatched on every port exactly when the ports
are sane; and over all runs exactly when there is one loop and the ports use it. -/
theorem dispatch_inRange_iff (root : Value) (conf : Config)
    (accepted : parseFromJson root = some conf) :
    ((∀ events s, Run CounterStep NoOverflow Counters.init events s → InRange conf s) ↔
        ∀ port ∈ conf.CliConfigs, port.Sane conf.ThreadCount) ∧
      ((∀ s, Reachable CounterStep Counters.init s → InRange conf s) ↔
        conf.ThreadCount ≤ 1 ∧ ∀ port ∈ conf.CliConfigs,
          conf.ThreadCount = 1 ∧ port.StartThreadIdx = 0 ∧ port.ThreadCnt = 1) := by
  have isInt32 := isInt32_ID accepted
  refine ⟨⟨sane_of_inRange, ?_⟩, ⟨single_of_inRange, ?_⟩⟩
  · intro sane events s run
    have positive := positive_of_run run
    constructor
    · intro id assigned port member
      exact routes_of_sane isInt32 (sane port member) (positive.assigned id assigned)
    · intro _
      exact gRoutes_of_nonneg positive.i.1
  · rintro ⟨single, ports⟩ s _
    constructor
    · intro id _ port member
      obtain ⟨one, start, count⟩ := ports port member
      exact routes_of_single isInt32 one start count
    · intro _
      exact gRoutes_of_single single s.i

/-- A configuration of one loop and one port, which counts `threadCnt` loops as its own. -/
def oneLoop (threadCnt : Int) : Value :=
  .object [("ThreadCount", .int 1), ("CliConfigs", .array [.object [("Enc", .int 0),
    ("AliveMs", .int 300000), ("MinType", .int 1), ("MaxType", .int 1000),
    ("ListenPort", .int 4000), ("MaxReqQueSize", .int 0), ("MaxPackCntPerMin", .int 0),
    ("StartThreadIdx", .int 0), ("ThreadCnt", .int threadCnt)]])]

theorem dispatch_inRange_iff_oneLoop :
    InRange ⟨0, 1, [⟨0, 300000, 1, 1000, 4000, 0, 0, 0, 1⟩]⟩ Counters.init.increment := by
  apply (dispatch_inRange_iff (oneLoop 1) _ rfl).2.mpr
  · refine ⟨by decide, ?_⟩
    intro port member
    obtain rfl := List.mem_singleton.mp member
    exact ⟨rfl, rfl, rfl⟩
  · exact ⟨_, Run.single trivial (.increment _)⟩

/-- A port may count no loops as its own.  The first connection is divided by zero. -/
theorem dispatch_divides_by_zero :
    ∃ conf s, parseFromJson (oneLoop 0) = some conf ∧ Reachable CounterStep Counters.init s ∧
      ¬InRange conf s := by
  refine ⟨⟨0, 1, [⟨0, 300000, 1, 1000, 4000, 0, 0, 0, 0⟩]⟩, Counters.init.increment, rfl,
    ⟨_, Run.single trivial (.increment _)⟩, ?_⟩
  intro inRange
  have routes := inRange.1 1 List.mem_cons_self _ List.mem_cons_self
  exact routes.divides.1 rfl

end GPush.ConnectServer
