import GPush.Discovery.ZkWatcher.Core
import GPush.LoopBuf.Frame

/-!
# Watching the data of a node

`ZKClient` hands the data of a node to a watcher through the virtual functions of `ZKWatcher`.
`DataWatcher<T>` overrides `onDataChange`.  `ZKDataWatcher` has a function of that name with the
parameters in the other order, which overrides nothing.
-/

namespace GPush.Discovery

open GPush.LoopBuf ZkWatcher

/-- What a watcher stores, and whether it has a context (`DataWatcher<T>`) or a callback
(`ZKDataWatcher`). -/
structure Stored where
  version : Int
  data : Bytes
  cb : Bool
  deriving DecidableEq, Repr

/-- A call of the user's callback. -/
abbrev Call := Int × Bytes

/-- The virtual functions of `ZKWatcher` through which data is handed over, with the call that
each makes. -/
structure VTable where
  onDataChange : Stored → Int → Bytes → Stored × Option Call
  onPathRemove : Stored → Stored × Option Call

/-- `ZKWatcher::onDataChange`. -/
def ZKWatcher.onDataChange (w : Stored) (_ver : Int) (_data : Bytes) : Stored × Option Call :=
  (w, none)

/-- `DataWatcherBase::onDataChange`. -/
def DataWatcherBase.onDataChange (w : Stored) (ver : Int) (data : Bytes) : Stored × Option Call :=
  ({ w with version := ver, data := data }, none)

/-- `DataWatcherBase::onPathRemove`, for the function that its call of `onDataChange` goes to. -/
def DataWatcherBase.onPathRemove (onDataChange : Stored → Int → Bytes → Stored × Option Call)
    (w : Stored) : Stored × Option Call :=
  onDataChange { w with version := -1, data := [] } (-1) []

/-- `DataWatcher<T>::onDataChange`. -/
def DataWatcher.onDataChange (w : Stored) (ver : Int) (data : Bytes) : Stored × Option Call :=
  let w := (DataWatcherBase.onDataChange w ver data).1
  if w.data ≠ data ∧ w.cb = true then (w, some (ver, data)) else (w, none)

/-- `DataWatcher<T>`. -/
def DataWatcher : VTable where
  onDataChange := DataWatcher.onDataChange
  onPathRemove := DataWatcherBase.onPathRemove DataWatcher.onDataChange

/-- `ZKDataWatcher::onDataChange`. -/
def ZKDataWatcher.onDataChange (w : Stored) (data : Bytes) (version : Int) :
    Stored × Option Call :=
  let w := { w with version := version }
  if w.data ≠ data then
    let w := { w with data := data }
    if w.cb then (w, some (version, data)) else (w, none)
  else
    (w, none)

/-- `ZKDataWatcher::onPathRemove`. -/
def ZKDataWatcher.onPathRemove (w : Stored) : Stored × Option Call :=
  ZKDataWatcher.onDataChange w [] (-1)

/-- `ZKDataWatcher`. -/
def ZKDataWatcher : VTable where
  onDataChange := ZKWatcher.onDataChange
  onPathRemove := ZKDataWatcher.onPathRemove

/-- The completions of the requests of a watcher: of its data, with the version and the data,
and of its existence. -/
inductive Completion
  | getData (rc : Rc) (ver : Int) (value : Bytes)
  | getExists (rc : Rc)
  deriving DecidableEq, Repr

/-- `ZKClient::getDataComplete` and `ZKClient::getExistsComplete`, for a watcher that has not
been deleted.  Neither `checkExists` nor `onPathCreate` touches what is stored. -/
def VTable.complete (v : VTable) (w : Stored) : Completion → Stored × Option Call
  | .getData .ok ver value => v.onDataChange w ver value
  | .getData _ _ _ => (w, none)
  | .getExists .noNode => v.onPathRemove w
  | .getExists _ => (w, none)

/-- A sequence of completions: what is stored in the end, and for each completion the call
that it made. -/
def VTable.run (v : VTable) (w : Stored) : List Completion → Stored × List (Option Call)
  | [] => (w, [])
  | c :: cs =>
      let next := v.complete w c
      let rest := v.run next.1 cs
      (rest.1, next.2 :: rest.2)

/-! ## What is to be reported -/

/-- What a completion delivers.  A removal delivers the empty string with the version `-1`. -/
def Completion.delivery : Completion → Option Call
  | .getData .ok ver value => some (ver, value)
  | .getData _ _ _ => none
  | .getExists .noNode => some (-1, [])
  | .getExists _ => none

/-- The data that is to be stored after a completion. -/
def Completion.after (data : Bytes) (c : Completion) : Bytes := (c.delivery.map Prod.snd).getD data

/-- The calls that are to be made, for the data that is stored at first: those of the
deliveries with other data. -/
def reports (data : Bytes) : List Completion → List (Option Call)
  | [] => []
  | c :: cs => (c.delivery.filter fun call => call.2 ≠ data) :: reports (c.after data) cs

/-- A watcher reports what it is to report, and holds the data that was delivered last. -/
def VTable.Reports (v : VTable) (w : Stored) (cs : List Completion) : Prop :=
  (v.run w cs).2 = reports w.data cs ∧ (v.run w cs).1.data = cs.foldl Completion.after w.data

/-- Every delivery by one of these completions repeats the data before it. -/
def Repeats (which : Completion → Prop) (data : Bytes) : List Completion → Prop
  | [] => True
  | c :: cs => (which c → c.after data = data) ∧ Repeats which (c.after data) cs

/-- A completion of a request for the data. -/
def Completion.IsData : Completion → Prop
  | .getData _ _ _ => True
  | .getExists _ => False

variable {v : VTable} {w : Stored} {c : Completion} {cs : List Completion}

/-- Nothing is to be reported when the data that is to be stored stays the same. -/
theorem report_eq_none_iff {data : Bytes} :
    (c.delivery.filter fun call => call.2 ≠ data) = none ↔ c.after data = data := by
  rw [Completion.after]
  cases c.delivery with
  | none => simp
  | some call => simp [Option.filter_some]

/-- A watcher that stores what is delivered first reports that, and then the rest. -/
theorem reports_cons (stores : (v.complete w c).1.data = c.after w.data) :
    v.Reports w (c :: cs) ↔
      (v.complete w c).2 = (c.delivery.filter fun call => call.2 ≠ w.data) ∧
        v.Reports (v.complete w c).1 cs := by
  simp only [VTable.Reports, VTable.run, reports, List.foldl_cons, List.cons.injEq, stores,
    and_assoc]

/-- One that makes another call than the one to be made fails at once. -/
theorem not_reports_cons
    (other : (v.complete w c).2 ≠ c.delivery.filter fun call => call.2 ≠ w.data) :
    ¬ v.Reports w (c :: cs) := by
  rintro ⟨calls, -⟩
  exact other (List.cons.inj calls).1

/-! ## The two watchers -/

/-- `DataWatcher<T>` stores the data before it compares, and so makes no call. -/
theorem DataWatcher.complete_eq (w : Stored) (c : Completion) :
    (DataWatcher.complete w c).2 = none ∧
      (DataWatcher.complete w c).1.data = c.after w.data := by
  rcases c with ⟨_ | _ | _, ver, value⟩ | ⟨_ | _ | _⟩ <;>
    simp [VTable.complete, DataWatcher, onDataChange, DataWatcherBase.onDataChange,
      DataWatcherBase.onPathRemove, Completion.after, Completion.delivery]

theorem DataWatcher.reports_iff (w : Stored) (cs : List Completion) :
    DataWatcher.Reports w cs ↔ Repeats (fun _ => True) w.data cs := by
  induction cs generalizing w with
  | nil => simp [VTable.Reports, VTable.run, reports, Repeats]
  | cons c cs ih =>
      obtain ⟨noCall, stores⟩ := DataWatcher.complete_eq w c
      rw [reports_cons stores, ih, noCall, stores, Repeats, eq_comm, report_eq_none_iff,
        true_implies]

/-- `ZKDataWatcher` does nothing with the data of a node. -/
theorem ZKDataWatcher.complete_of_isData (w : Stored) (isData : c.IsData) :
    ZKDataWatcher.complete w c = (w, none) := by
  rcases c with ⟨_ | _ | _, ver, value⟩ | _
  · rfl
  · rfl
  · rfl
  · cases isData

/-- It reports the removal of a node. -/
theorem ZKDataWatcher.complete_of_not_isData (cb : w.cb = true) (noData : ¬ c.IsData) :
    (ZKDataWatcher.complete w c).2 = (c.delivery.filter fun call => call.2 ≠ w.data) ∧
      (ZKDataWatcher.complete w c).1.data = c.after w.data ∧
        (ZKDataWatcher.complete w c).1.cb = true := by
  rcases c with _ | ⟨_ | _ | _⟩
  · exact absurd trivial noData
  · exact ⟨rfl, rfl, cb⟩
  · by_cases empty : w.data = []
    · simp [VTable.complete, ZKDataWatcher, onPathRemove, onDataChange, Completion.after,
        Completion.delivery, Option.filter_some, empty, cb]
    · simp [VTable.complete, ZKDataWatcher, onPathRemove, onDataChange, Completion.after,
        Completion.delivery, Option.filter_some, empty, Ne.symm empty, cb]
  · exact ⟨rfl, rfl, cb⟩

theorem ZKDataWatcher.reports_iff {w : Stored} (cb : w.cb = true) (cs : List Completion) :
    ZKDataWatcher.Reports w cs ↔ Repeats Completion.IsData w.data cs := by
  induction cs generalizing w with
  | nil => simp [VTable.Reports, VTable.run, reports, Repeats]
  | cons c cs ih =>
      by_cases isData : c.IsData
      · have ignored := ZKDataWatcher.complete_of_isData w isData
        by_cases same : c.after w.data = w.data
        · rw [reports_cons (by rw [ignored, same]), ignored, ih cb, Repeats, same, eq_comm,
            report_eq_none_iff]
          simp [isData, same]
        · refine iff_of_false (not_reports_cons ?_) fun repeated => same (repeated.1 isData)
          rw [ignored]
          exact fun none => same (report_eq_none_iff.mp none.symm)
      · obtain ⟨call, stores, cb'⟩ := ZKDataWatcher.complete_of_not_isData cb isData
        rw [reports_cons stores, ih cb', stores, Repeats]
        simp [call, isData]

/-- A `DataWatcher<T>` with a context does what it is to do when no delivery changes the data,
and a `ZKDataWatcher` with a callback when no completion of a request for the data does. -/
theorem watchers_report_iff (version : Int) (data : Bytes) (cs : List Completion) :
    (DataWatcher.Reports ⟨version, data, true⟩ cs ↔ Repeats (fun _ => True) data cs) ∧
      (ZKDataWatcher.Reports ⟨version, data, true⟩ cs ↔
        Repeats Completion.IsData data cs) :=
  ⟨DataWatcher.reports_iff _ cs, ZKDataWatcher.reports_iff rfl cs⟩

/-- The first data of a node is reported by neither. -/
theorem watchers_miss_first_data :
    ¬ DataWatcher.Reports ⟨-1, [], true⟩ [.getData .ok 0 [97]] ∧
      ¬ ZKDataWatcher.Reports ⟨-1, [], true⟩ [.getData .ok 0 [97]] := by
  constructor
  · exact not_reports_cons (by decide)
  · exact not_reports_cons (by decide)

end GPush.Discovery
