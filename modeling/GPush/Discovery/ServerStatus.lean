import GPush.Json.Value
import Mathlib.Algebra.Group.Nat.Defs

/-!
# The status of a server

A connect server publishes its status as a JSON object, and a push server reads it
back.  The loop over the port configurations fills one record, which is appended
once, after the loop.
-/

namespace GPush.Discovery

open GPush.LoopBuf GPush.Json

/-- `PortConfig`. -/
structure PortConfig where
  port : Int
  maxType : Int
  minType : Int
  others : Value

/-- `PortConfig::PortConfig`. -/
def PortConfig.init : PortConfig := ⟨0, 0, 0, .null⟩

/-- `ServerStatus`. -/
structure ServerStatus where
  ID : Int
  ips : List Bytes
  ports : List PortConfig
  properties : Value

/-- A status that nothing has been read into.  The constructor leaves `ID` alone. -/
def ServerStatus.empty (id : Int) : ServerStatus := ⟨id, [], [], .null⟩

/-- The rounds of a loop up to `(int)size`, which is negative from `2 ^ 31` on. -/
def intRounds (size : Nat) : Nat := if size % 2 ^ 32 < 2 ^ 31 then size % 2 ^ 32 else 0

/-- The members that `serializeToJson` sets for a port. -/
def PortConfig.toJson (p : PortConfig) (servcfgs : Value) : Option Value := do
  let servcfgs ← servcfgs.setMember "ListenPort" (.int p.port)
  let servcfgs ← servcfgs.setMember "MaxType" (.int p.maxType)
  let servcfgs ← servcfgs.setMember "MinType" (.int p.minType)
  servcfgs.setMember "Others" p.others

/-- `ServerStatus::serializeToJson`. -/
def ServerStatus.serializeToJson (s : ServerStatus) (v : Value) : Option Value := do
  let v ← v.setMember "ID" (.int s.ID)
  let v ← (s.ips.take (intRounds s.ips.length)).zipIdx.foldlM
    (fun v (entry : Bytes × Nat) =>
      v.modifyMember "IPs" (Value.modifyIndex entry.2 fun _ => some (.ofString entry.1))) v
  let v ← v.setMember "Properties" s.properties
  s.ports.zipIdx.foldlM
    (fun v (entry : PortConfig × Nat) =>
      v.modifyMember "CliConfigs" (Value.modifyIndex entry.2 entry.1.toJson)) v

/-- One round of the loop over `CliConfigs`, on the record `pc`. -/
def PortConfig.parseFromJson (pc : PortConfig) (cv : Value) : Option PortConfig := do
  let port ← cv.get "ListenPort"
  let maxType ← cv.get "MaxType"
  let minType ← cv.get "MinType"
  let others ← cv.get "Others"
  return {
    port := port.asInt?.getD pc.port
    maxType := maxType.asInt?.getD pc.maxType
    minType := minType.asInt?.getD pc.minType
    others := if others.isNull then pc.others else others }

/-- `ServerStatus::parseFromJson`. -/
def ServerStatus.parseFromJson (s : ServerStatus) (v : Value) : Option ServerStatus := do
  let id ← v.get "ID"
  let s := { s with ID := id.asInt?.getD s.ID }
  let jv ← v.get "IPs"
  let ips ←
    if jv.isArray then
      (List.range (intRounds jv.size)).foldlM
        (fun ips i => do return ips ++ [← (← jv.index i).asString]) s.ips
    else
      some s.ips
  let jv ← v.get "CliConfigs"
  let ports ←
    if jv.isArray then do
      let pc ← (List.range (intRounds jv.size)).foldlM
        (fun pc i => do pc.parseFromJson (← jv.index i)) .init
      pure (s.ports ++ [pc])
    else
      some s.ports
  let properties ← v.get "Properties"
  return {
    ID := s.ID
    ips := ips
    ports := ports
    properties := if properties.isNull then s.properties else properties }

/-! ## What is written -/

/-- The members of a port. -/
def PortConfig.members (p : PortConfig) : List (String × Value) :=
  [("ListenPort", .int p.port), ("MaxType", .int p.maxType), ("MinType", .int p.minType),
    ("Others", p.others)]

/-- The members of a status. -/
def ServerStatus.members (s : ServerStatus) : List (String × Value) :=
  [("ID", .int s.ID)] ++
    (if s.ips.take (intRounds s.ips.length) = [] then []
      else [("IPs", .array ((s.ips.take (intRounds s.ips.length)).map .ofString))]) ++
    [("Properties", s.properties)] ++
    (if s.ports = [] then [] else [("CliConfigs", .array (s.ports.map fun p => .object p.members))])

theorem PortConfig.toJson_null (p : PortConfig) : p.toJson .null = some (.object p.members) := by
  simp [toJson, Value.setMember, Value.modifyMember, putMember, members]

theorem ServerStatus.serializeToJson_null (s : ServerStatus) :
    s.serializeToJson .null = some (.object s.members) := by
  have absentIPs : "IPs" ∉ [("ID", Value.int s.ID)].map Prod.fst := by simp
  have absentPorts : "CliConfigs" ∉ ([("ID", Value.int s.ID)] ++
      (if s.ips.take (intRounds s.ips.length) = [] then []
        else [("IPs", Value.array ((s.ips.take (intRounds s.ips.length)).map .ofString))]) ++
      [("Properties", s.properties)]).map Prod.fst := by
    split_ifs <;> simp
  have ips := Value.foldlM_modifyIndex_of_absent
    (f := fun ip _ => some (.ofString ip)) (x := Value.ofString) (fun _ => rfl) absentIPs
    (s.ips.take (intRounds s.ips.length))
  have ports := Value.foldlM_modifyIndex_of_absent PortConfig.toJson_null absentPorts s.ports
  have start : Value.null.setMember "ID" (.int s.ID) = some (.object [("ID", .int s.ID)]) := rfl
  rw [serializeToJson, start, Option.bind_eq_bind, Option.bind_some, ips, Option.bind_some,
    Value.setMember_of_absent (by split_ifs <;> simp), Option.bind_some, ports, members]

/-! ## What is read -/

theorem map_cString_eq_self_iff (strings : List Bytes) :
    strings.map cString = strings ↔ ∀ string ∈ strings, 0 ∉ string := by
  induction strings with
  | nil => simp
  | cons first strings ih =>
      rw [List.map_cons, List.cons.injEq, Value.cString_eq_self_iff, ih, List.forall_mem_cons]

theorem intRounds_le (size : Nat) : intRounds size ≤ size := by
  rw [intRounds]
  split_ifs <;> omega

theorem intRounds_eq_self_iff {size : Nat} : intRounds size = size ↔ size < 2 ^ 31 := by
  rw [intRounds]
  split_ifs <;> omega

theorem intRounds_intRounds (size : Nat) : intRounds (intRounds size) = intRounds size := by
  rw [intRounds_eq_self_iff, intRounds]
  split_ifs <;> omega

/-- The record after a port has been read into it. -/
def PortConfig.overlay (pc p : PortConfig) : PortConfig :=
  { p with others := if p.others.isNull then pc.others else p.others }

theorem PortConfig.parseFromJson_members (pc p : PortConfig) :
    pc.parseFromJson (.object p.members) = some (pc.overlay p) := by
  simp [parseFromJson, Value.get, members, List.lookup_cons, Value.asInt?, overlay]

theorem PortConfig.overlay_init (p : PortConfig) : PortConfig.init.overlay p = p := by
  rw [overlay, init]
  split_ifs with isNull
  · rw [← Value.isNull_iff.mp isNull]
  · rfl

/-- The loop over the addresses. -/
theorem foldlM_asString (strings acc : List Bytes) :
    (strings.map Value.ofString).foldlM (fun ips v => do return ips ++ [← v.asString]) acc =
      some (acc ++ strings.map cString) := by
  induction strings generalizing acc with
  | nil => simp
  | cons first strings ih =>
      rw [List.map_cons, List.foldlM_cons]
      simp only [Value.ofString, Value.asString, Option.pure_def, Option.bind_eq_bind,
        Option.bind_some] at ih ⊢
      rw [ih, List.map_cons, List.append_assoc, List.singleton_append]

/-- The loop over the ports. -/
theorem foldlM_parseFromJson (ports : List PortConfig) (pc : PortConfig) :
    (ports.map fun p => Value.object p.members).foldlM PortConfig.parseFromJson pc =
      some (ports.foldl PortConfig.overlay pc) := by
  induction ports generalizing pc with
  | nil => rfl
  | cons p ports ih =>
      rw [List.map_cons, List.foldlM_cons, PortConfig.parseFromJson_members]
      exact ih _

/-- An array that is there only when it has elements. -/
def arrayOf (elements : List Value) : Value := if elements = [] then .null else .array elements

theorem isArray_arrayOf (elements : List Value) : (arrayOf elements).isArray = true := by
  rw [arrayOf]
  split_ifs <;> rfl

/-- A loop over such an array. -/
theorem foldlM_arrayOf {β : Type} (g : β → Value → Option β) (elements : List Value) (acc : β) :
    (List.range (intRounds (arrayOf elements).size)).foldlM
        (fun acc i => do g acc (← (arrayOf elements).index i)) acc =
      (elements.take (intRounds elements.length)).foldlM g acc := by
  by_cases isEmpty : elements = []
  · subst isEmpty
    rfl
  · rw [arrayOf, if_neg isEmpty]
    exact Value.foldlM_index g elements (intRounds_le _) acc

namespace ServerStatus

variable (s : ServerStatus)

/-- The addresses that are read. -/
def readIPs : List Bytes := (s.ips.take (intRounds s.ips.length)).map cString

/-- The one record that the ports are read into. -/
def readPort : PortConfig :=
  (s.ports.take (intRounds s.ports.length)).foldl PortConfig.overlay .init

/-- What the published form of `s` is read as. -/
theorem parseFromJson_members (id : Int) :
    (empty id).parseFromJson (.object s.members) =
      some ⟨s.ID, s.readIPs, [s.readPort], s.properties⟩ := by
  have getID : (Value.object s.members).get "ID" = some (.int s.ID) := rfl
  have getIPs : (Value.object s.members).get "IPs" =
      some (arrayOf ((s.ips.take (intRounds s.ips.length)).map .ofString)) := by
    simp only [Value.get, members, arrayOf, List.map_eq_nil_iff]
    split_ifs <;> simp [List.lookup_cons]
  have getPorts : (Value.object s.members).get "CliConfigs" =
      some (arrayOf (s.ports.map fun p => .object p.members)) := by
    simp only [Value.get, members, arrayOf, List.map_eq_nil_iff]
    split_ifs <;> simp [List.lookup_cons]
  have getProperties : (Value.object s.members).get "Properties" = some s.properties := by
    simp only [Value.get, members]
    split_ifs <;> simp [List.lookup_cons]
  have count : (s.ips.take (intRounds s.ips.length)).length = intRounds s.ips.length :=
    List.length_take_of_le (intRounds_le _)
  have ips := foldlM_arrayOf (fun ips v => do return ips ++ [← v.asString])
    ((s.ips.take (intRounds s.ips.length)).map .ofString) []
  rw [List.length_map, count, intRounds_intRounds, ← List.map_take, List.take_take, Nat.min_self,
    foldlM_asString, List.nil_append] at ips
  have ports := foldlM_arrayOf PortConfig.parseFromJson
    (s.ports.map fun p => .object p.members) .init
  rw [List.length_map, ← List.map_take, foldlM_parseFromJson] at ports
  have properties : (if s.properties.isNull then .null else s.properties) = s.properties := by
    split_ifs with isNull
    · exact (Value.isNull_iff.mp isNull).symm
    · rfl
  simp only [Option.bind_eq_bind, Option.pure_def] at ips ports
  simp only [parseFromJson, empty, getID, getIPs, getPorts, getProperties, isArray_arrayOf, ips,
    ports, properties, if_true, Option.bind_eq_bind, Option.bind_some, Option.pure_def,
    Value.asInt?, Option.getD_some, List.nil_append]
  rfl

/-- A status is read back as it was published exactly when it has one port, its addresses
can be counted by an `int`, and none of them holds a zero byte. -/
theorem parse_serialize_iff (id : Int) :
    (s.serializeToJson .null).bind (empty id).parseFromJson = some s ↔
      s.ports.length = 1 ∧ s.ips.length < 2 ^ 31 ∧ ∀ ip ∈ s.ips, 0 ∉ ip := by
  rw [serializeToJson_null, Option.bind_some, parseFromJson_members, Option.some.injEq,
    ServerStatus.mk.injEq]
  constructor
  · rintro ⟨-, ipsEq, portsEq, -⟩
    have onePort : s.ports.length = 1 := by rw [← portsEq, List.length_singleton]
    have lengthEq := congrArg List.length ipsEq
    rw [readIPs, List.length_map, List.length_take_of_le (intRounds_le _)] at lengthEq
    have whole : s.ips.map cString = s.ips := by
      rwa [readIPs, lengthEq, List.take_length] at ipsEq
    exact ⟨onePort, intRounds_eq_self_iff.mp lengthEq, (map_cString_eq_self_iff _).mp whole⟩
  · rintro ⟨onePort, counted, noZero⟩
    rcases List.length_eq_one_iff.mp onePort with ⟨p, portsEq⟩
    have ipsEq : s.readIPs = s.ips := by
      rw [readIPs, intRounds_eq_self_iff.mpr counted, List.take_length,
        (map_cString_eq_self_iff _).mpr noZero]
    have portEq : s.readPort = p := by
      rw [readPort, portsEq]
      exact p.overlay_init
    exact ⟨rfl, ipsEq, by rw [portEq, portsEq], rfl⟩

/-- A status with two ports, for clients and for servers. -/
def twoPorts : ServerStatus :=
  ⟨3, [[49, 48, 46, 48, 46, 48, 46, 49]], [⟨5000, 0, -1, .null⟩, ⟨6000, 100, 1, .null⟩], .null⟩

/-- Only the second port is read back; and a status without ports is read back with a
port. -/
theorem parse_serialize_loses_port :
    (twoPorts.serializeToJson .null).bind (empty 0).parseFromJson =
        some { twoPorts with ports := [⟨6000, 100, 1, .null⟩] } ∧
      ((⟨3, [], [], .null⟩ : ServerStatus).serializeToJson .null).bind (empty 0).parseFromJson =
        some ⟨3, [], [.init], .null⟩ ∧
      ¬∀ (s : ServerStatus) (id : Int),
        (s.serializeToJson .null).bind (empty id).parseFromJson = some s := by
  have second : (twoPorts.serializeToJson .null).bind (empty 0).parseFromJson =
      some { twoPorts with ports := [⟨6000, 100, 1, .null⟩] } := rfl
  refine ⟨second, rfl, ?_⟩
  intro survives
  have portsEq := congrArg (Option.map (·.ports.length)) (second.symm.trans (survives twoPorts 0))
  exact absurd portsEq (by decide)

end ServerStatus

end GPush.Discovery
