import GPush.Discovery.ServerStatus
import GPush.PushServer.Decimal
import GPush.Transition.Run

/-!
# The node of a server

`ServerNode` writes the status of a server to ZooKeeper and keeps what it has written, so
that a status without a change is not written again.  The copy is taken before the write, and
stays when the write fails.
-/

namespace GPush.Discovery

open GPush.LoopBuf GPush.Json GPush.Transition

/-- `ZNONODE`. -/
def znonode : Int := -101

/-- The results that `zoo_set` and `zoo_create` have when they are called: `ZOK`, or one of
the error codes, which are negative. -/
structure ZkOutcome where
  set : Int
  create : Int
  isCode : set ≤ 0

/-- A write that was tried. -/
structure Attempt where
  data : Bytes
  written : Bool
  deriving DecidableEq, Repr

/-- `ServerNode`, and the writes that were tried, the last one first. -/
structure ServerNode where
  hasClient : Bool
  data : Bytes
  log : List Attempt

/-- What was last written to the node. -/
def ServerNode.lastWritten (n : ServerNode) : Option Bytes :=
  (n.log.find? (·.written)).map (·.data)

/-- The constructor. -/
def ServerNode.start (hasClient : Bool) : ServerNode := ⟨hasClient, [], []⟩

section Calls

/-! `writeValue` stands for `Json::FastWriter::writeValue`, behind whose text `write` puts an
end of line. -/

variable (writeValue : Value → Bytes)

/-- The serialisation of a status. -/
def ServerStatus.text (s : ServerStatus) : Bytes :=
  writeValue ((s.serializeToJson .null).get (by rw [s.serializeToJson_null]; rfl)) ++ [10]

/-- The result of `createEphemeralNode`. -/
def created (create : Int) : Int := if create ≠ 0 then -1 else create

namespace ServerNode

/-- `setData`. -/
def setData (o : ZkOutcome) (n : ServerNode) : Int × ServerNode :=
  if n.hasClient then
    if o.set = znonode then
      (created o.create, { n with log := ⟨n.data, decide (o.create = 0)⟩ :: n.log })
    else
      (o.set, { n with log := ⟨n.data, decide (o.set = 0)⟩ :: n.log })
  else
    (-1, { n with log := ⟨n.data, false⟩ :: n.log })

/-- `init`. -/
def init (s : ServerStatus) (o : ZkOutcome) (n : ServerNode) : Int × ServerNode :=
  if n.hasClient then
    (created o.create, { n with
      data := s.text writeValue
      log := ⟨s.text writeValue, decide (o.create = 0)⟩ :: n.log })
  else
    (-1, n)

/-- `setStatus`. -/
def setStatus (s : ServerStatus) (o : ZkOutcome) (n : ServerNode) : Int × ServerNode :=
  if n.data ≠ s.text writeValue then
    setData o { n with data := s.text writeValue }
  else
    (0, n)

/-- What happens to a node.  When the session has expired, `srvNodeRebuild` calls
`setData`. -/
inductive Event
  | init (s : ServerStatus) (o : ZkOutcome)
  | setStatus (s : ServerStatus) (o : ZkOutcome)
  | expire (o : ZkOutcome)

/-- The step relation. -/
inductive Step : LTS ServerNode Event
  | init {n : ServerNode} {s : ServerStatus} {o : ZkOutcome} :
      Step n (.init s o) (n.init writeValue s o).2
  | setStatus {n : ServerNode} {s : ServerStatus} {o : ZkOutcome} :
      Step n (.setStatus s o) (n.setStatus writeValue s o).2
  | expire {n : ServerNode} {o : ZkOutcome} : Step n (.expire o) (n.setData o).2

/-! ## What a call reports -/

/-- `setData` tries one write of the copy, and its result says whether that was made. -/
theorem setData_log (o : ZkOutcome) (n : ServerNode) :
    ∃ written, (n.setData o).2 = { n with log := ⟨n.data, written⟩ :: n.log } ∧
      (0 ≤ (n.setData o).1 ↔ written = true) := by
  rw [setData]
  split
  · split
    · refine ⟨_, rfl, ?_⟩
      rw [decide_eq_true_iff]
      simp only [created]
      split
      · next failed => exact iff_of_false (by decide) failed
      · next made =>
          have zero := not_not.mp made
          exact iff_of_true (by omega) zero
    · refine ⟨_, rfl, ?_⟩
      have isCode := o.isCode
      rw [decide_eq_true_iff]
      constructor
      · exact fun success => Int.le_antisymm isCode success
      · exact fun zero => Int.le_of_eq zero.symm
  · exact ⟨false, rfl, iff_of_false (by simp) (by decide)⟩

/-- The copy is what the last tried write was of. -/
def Copied (n : ServerNode) : Prop := n.data = (n.log.head?.map (·.data)).getD []

variable {writeValue}

theorem copied_start (hasClient : Bool) : (start hasClient).Copied := rfl

theorem copied_setData (o : ZkOutcome) (n : ServerNode) : (n.setData o).2.Copied := by
  obtain ⟨written, left, -⟩ := setData_log o n
  rw [left]
  rfl

theorem copied_step {n t : ServerNode} {event : Event} (copied : n.Copied)
    (taken : Step writeValue n event t) : t.Copied := by
  cases taken with
  | init =>
      rw [init]
      split
      · rfl
      · exact copied
  | setStatus =>
      rw [setStatus]
      split
      · exact copied_setData _ _
      · exact copied
  | expire => exact copied_setData _ n

/-- If the last write that was tried was one of `t`, then `t` is what was last written. -/
def CanReport (t : Bytes) (n : ServerNode) : Prop :=
  ∀ a, n.log.head? = some a → a.data = t → n.lastWritten = some t

/-- After any run a call of `setStatus` that returns no error leaves its status written
exactly when it was not a failed write of the same status that came last. -/
theorem reported_is_written_iff {hasClient : Bool} {events : List Event} {n : ServerNode}
    (run : Run (Step writeValue) anyStep (.start hasClient) events n) (s : ServerStatus)
    (o : ZkOutcome) :
    (0 ≤ (n.setStatus writeValue s o).1 →
      (n.setStatus writeValue s o).2.lastWritten = some (s.text writeValue)) ↔
        n.CanReport (s.text writeValue) := by
  have copied : n.Copied :=
    run.invariant (copied_start hasClient) fun _ _ _ holds _ taken => copied_step holds taken
  rw [setStatus]
  by_cases changed : n.data ≠ s.text writeValue
  · rw [if_pos changed]
    apply iff_of_true
    · obtain ⟨written, left, success⟩ := setData_log o { n with data := s.text writeValue }
      intro noError
      rw [left, success.mp noError]
      rfl
    · intro a last same
      rw [Copied, last] at copied
      exact absurd (copied.trans same) changed
  · rw [if_neg changed]
    have unchanged := not_not.mp changed
    constructor
    · exact fun written _ _ _ => written (Int.le_refl 0)
    · intro canReport _
      rw [Copied, unchanged] at copied
      cases last : n.log.head? with
      | none =>
          rw [last] at copied
          exact absurd copied (by simp [ServerStatus.text])
      | some a =>
          rw [last] at copied
          exact canReport a last copied.symm

/-- What `FastWriter` writes for a status with nothing but an id. -/
def idText : Value → Bytes
  | .object ((_, .int n) :: _) =>
      PushServer.ascii "\x7b\"ID\":" ++ PushServer.decimal n ++
        PushServer.ascii ",\"Properties\":null\x7d"
  | _ => []

/-- The write of one status fails, and a report of another one is written. -/
theorem reported_is_written_iff_after_failure :
    let failed := ((start true).setStatus idText ⟨2, [], [], .null⟩ ⟨-4, 0, by decide⟩).2
    let reported := failed.setStatus idText ⟨1, [], [], .null⟩ ⟨0, 0, by decide⟩
    failed.lastWritten = none ∧ reported.1 = 0 ∧
      reported.2.lastWritten = some (ServerStatus.text idText ⟨1, [], [], .null⟩) := by
  have run : Run (Step idText) anyStep (.start true)
      [.setStatus ⟨2, [], [], .null⟩ ⟨-4, 0, by decide⟩] _ := Run.single trivial .setStatus
  have canReport : CanReport (ServerStatus.text idText ⟨1, [], [], .null⟩)
      ((start true).setStatus idText ⟨2, [], [], .null⟩ ⟨-4, 0, by decide⟩).2 := by
    intro a last same
    obtain rfl := Option.some.inj last
    exact absurd same (by decide)
  exact ⟨rfl, by decide, (reported_is_written_iff run _ _).mpr canReport (by decide)⟩

/-- The first status is written, and the write of the second one fails.  Reported once more,
the second one is taken for written. -/
theorem reported_not_written :
    let written := ((start true).setStatus idText ⟨1, [], [], .null⟩ ⟨0, 0, by decide⟩).2
    let failed := (written.setStatus idText ⟨2, [], [], .null⟩ ⟨-4, 0, by decide⟩).2
    let again := failed.setStatus idText ⟨2, [], [], .null⟩ ⟨0, 0, by decide⟩
    again.1 = 0 ∧ again.2.lastWritten = some (ServerStatus.text idText ⟨1, [], [], .null⟩) ∧
      ServerStatus.text idText ⟨1, [], [], .null⟩ ≠
        ServerStatus.text idText ⟨2, [], [], .null⟩ := by
  decide

end ServerNode

end Calls

end GPush.Discovery
