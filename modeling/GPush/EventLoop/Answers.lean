import GPush.ConnectServer.MessageClasses
import GPush.EventLoop.Operators
import GPush.LoopBuf.Append

/-!
# What `addAsynOperator` answers

An operator is in the queue before the control byte is sent.  When that send fails the
call answers a negative value, and the operator stays where it is: the loop takes it out
at its next turn, or `delAllOp` does at the end.
-/

namespace GPush.EventLoop

open GPush.Transition

/-- The life of an event loop: its thread is in `run`, the thread has left it, or the
destructor is behind `delAllOp`. -/
inductive Life
  | running
  | exited
  | destroyed
  deriving DecidableEq, Repr

/-- The queue, with what becomes of the operators.  They are numbered as they are queued:
`next` is the next number, `adding` has the operator that a producer has queued last, if
its call has one, `answers` the results of the calls that have returned, and the loop has
processed and `delAllOp` discarded those of the last two lists. -/
structure Calls (ι : Type*) where
  core : Operators ι Nat
  life : Life
  next : Nat
  adding : ι → Option Nat
  answers : List (Nat × Int)
  processed : List Nat
  discarded : List Nat

/-- What a step means for the operators. -/
inductive Note (ι : Type*)
  | queued (p : ι)
  | skipped (p : ι)
  | answered (p : ι) (ret : Int)
  | processed
  | discarded
  | nothing

/-- The steps of the producers and of the loop, the end of `run`, and those of `delAllOp`. -/
inductive CallEvent (ι : Type*)
  | of (event : Event ι Nat)
  | exit
  | discard
  | finish

/-- The steps that the thread of the loop takes. -/
def Event.OfLoop {ι α : Type*} : Event ι α → Prop
  | .exchange | .drain | .pop | .seeEmpty | .block | .wake => True
  | _ => False

namespace Calls

variable {ι : Type*} [DecidableEq ι]

/-- An event loop after `EventLoop::init`. -/
def init : Calls ι := ⟨Operators.init, .running, 0, fun _ => none, [], [], []⟩

/-- The results of `addAsynOperator`: `0` where the flag is up, else that of `send`. -/
def noteOf (s : Calls ι) : Event ι Nat → Note ι
  | .push p _ => .queued p
  | .skip p => .skipped p
  | .swap p => if s.core.flag then .answered p 0 else .nothing
  | .send p => .answered p 1
  | .sendFails p => .answered p (-1)
  | .pop => .processed
  | _ => .nothing

/-- The notes taken with a step to `core`. -/
def record (s : Calls ι) (core : Operators ι Nat) : Note ι → Calls ι
  | .queued p =>
      { s with core := core, next := s.next + 1,
               adding := Function.update s.adding p (some s.next) }
  | .skipped p => { s with core := core, adding := Function.update s.adding p none }
  | .answered p ret =>
      { s with core := core, answers := s.answers ++ (s.adding p).toList.map (·, ret) }
  | .processed => { s with core := core, processed := s.processed ++ s.core.ops.take 1 }
  | .discarded => { s with core := core, discarded := s.discarded ++ s.core.ops.take 1 }
  | .nothing => { s with core := core }

/-- The step relation.  The destructor waits for the end of `run`, and nobody uses an
object that it has destroyed. -/
inductive Step : LTS (Calls ι) (CallEvent ι)
  | of {s : Calls ι} {event : Event ι Nat} {core : Operators ι Nat} :
      s.life ≠ .destroyed → (event.OfLoop → s.life = .running) →
      (∀ p op, event = .push p op → op = s.next) → Operators.Step s.core event core →
      Step s (.of event) (s.record core (s.noteOf event))
  | exit {s : Calls ι} : s.life = .running → s.core.loop = .leaving →
      Step s .exit { s with life := .exited }
  | discard {s : Calls ι} : s.life = .exited → s.core.ops ≠ [] →
      Step s .discard (s.record { s.core with ops := s.core.ops.tail } .discarded)
  | finish {s : Calls ι} : s.life = .exited → s.core.ops = [] →
      Step s .finish { s with life := .destroyed }

/-- The answer of a push that has queued an operator; no answer is sent for one that goes
well. -/
def PushFails (codec : ConnectServer.Codec) (serv : ConnectServer.ServerConfig)
    (c : ConnectServer.CliCon) (env : ConnectServer.Env) (req : Bytes) : Prop :=
  (c.handlePushRequest codec serv env req).resp ≠ [] ∧
    ConnectServer.queued (c.handlePushRequest codec serv env req).effects ≠ []

/-- How often an operator is in the queue, or processed, or discarded. -/
def copies (s : Calls ι) (op : Nat) : Nat :=
  (s.core.ops ++ s.processed ++ s.discarded).count op

/-- The answers say what becomes of the operators.  One with a negative answer is neither
queued nor processed; one with another answer is, in one copy, queued, processed or
discarded, and not queued when the loop is destroyed; and a push that is answered with an
error is not processed. -/
structure Truthful (s : Calls ι) : Prop where
  failed : ∀ op ret, (op, ret) ∈ s.answers → ret < 0 → op ∉ s.core.ops ∧ op ∉ s.processed
  queued : ∀ op ret, (op, ret) ∈ s.answers → 0 ≤ ret →
    s.copies op = 1 ∧
      (s.life = .destroyed → (s.processed ++ s.discarded).count op = 1)
  undelivered : ∀ op ret, (op, ret) ∈ s.answers → ∀ codec serv c env req,
    env.queued = ret → PushFails codec serv c env req → op ∉ s.processed

/-- A send fails only for a call without an operator, or one whose operator `delAllOp` has
discarded. -/
def Guard (s : Calls ι) : CallEvent ι → Prop
  | .of (.sendFails p) => ∀ op, s.adding p = some op → op ∈ s.discarded
  | _ => True

/-! ## What a step means for the operators -/

/-- The queue after a step. -/
def left (s : Calls ι) : Note ι → List Nat
  | .queued _ => s.core.ops ++ [s.next]
  | .processed => s.core.ops.tail
  | .discarded => s.core.ops.tail
  | _ => s.core.ops

/-- A negative answer is given for an operator that has been discarded. -/
def Meets (s : Calls ι) : Note ι → Prop
  | .answered p ret => ret < 0 → ∀ op, s.adding p = some op → op ∈ s.discarded
  | _ => True

theorem ops_noteOf {s : Calls ι} {event : Event ι Nat} {core : Operators ι Nat}
    (fresh : ∀ p op, event = .push p op → op = s.next) (taken : Operators.Step s.core event core) :
    core.ops = s.left (s.noteOf event) := by
  cases taken with
  | push =>
      obtain rfl := fresh _ _ rfl
      rfl
  | swapWins _ down =>
      rw [noteOf, down]
      rfl
  | swapLoses _ raised =>
      rw [noteOf, raised]
      rfl
  | pop _ queue =>
      rw [noteOf, left, queue]
      rfl
  | skip => rfl
  | send => rfl
  | sendFails => rfl
  | exchange => rfl
  | drain => rfl
  | seeEmpty => rfl
  | block => rfl
  | wake => rfl

omit [DecidableEq ι] in
theorem guard_of_iff {s : Calls ι} {event : Event ι Nat} :
    s.Guard (.of event) ↔ s.Meets (s.noteOf event) := by
  cases event with
  | swap p =>
      rw [noteOf]
      split_ifs <;> simp [Guard, Meets]
  | _ => simp [Guard, Meets, noteOf]

/-- A step is a note, and it may end the life of the loop. -/
theorem step_cases {s t : Calls ι} {e : CallEvent ι} (taken : Step s e t) :
    ∃ core note life, t = { s.record core note with life := life } ∧
      core.ops = s.left note ∧ (s.Guard e ↔ s.Meets note) ∧
      (life = .destroyed → core.ops = []) := by
  cases taken with
  | @of _ event core alive _ fresh taken =>
      refine ⟨core, s.noteOf event, s.life, ?_, ops_noteOf fresh taken, guard_of_iff,
        fun destroyed => absurd destroyed alive⟩
      cases s.noteOf event <;> rfl
  | exit running => exact ⟨s.core, .nothing, .exited, rfl, rfl, Iff.rfl, by simp⟩
  | discard exited =>
      refine ⟨_, .discarded, s.life, rfl, rfl, Iff.rfl, fun destroyed => ?_⟩
      exact absurd (exited.symm.trans destroyed) (by decide)
  | finish _ empty => exact ⟨s.core, .nothing, .destroyed, rfl, rfl, Iff.rfl, fun _ => empty⟩

/-! ## The invariant -/

/-- The operators that a note adds. -/
def added (s : Calls ι) : Note ι → List Nat
  | .queued _ => [s.next]
  | _ => []

theorem copies_record {s : Calls ι} {core : Operators ι Nat} {note : Note ι} (life : Life)
    (opsEq : core.ops = s.left note) (op : Nat) :
    copies { s.record core note with life := life } op = s.copies op + (s.added note).count op := by
  have cut : (s.core.ops.take 1).count op + s.core.ops.tail.count op = s.core.ops.count op := by
    rw [← List.count_append, ← List.drop_one, List.take_append_drop]
  simp only [copies, List.count_append]
  cases note <;> simp only [record, opsEq, left, added, List.count_append, List.count_nil] <;> omega

/-- Every operator queued is in one place, once. -/
structure Accounted (s : Calls ι) : Prop where
  once : ∀ op, op < s.next → s.copies op = 1
  never : ∀ op, s.next ≤ op → s.copies op = 0
  adding : ∀ p op, s.adding p = some op → op < s.next
  answered : ∀ op ret, (op, ret) ∈ s.answers → op < s.next
  destroyed : s.life = .destroyed → s.core.ops = []

omit [DecidableEq ι] in
theorem accounted_init : Accounted (init : Calls ι) := by
  constructor
  · intro op before
    exact absurd before (Nat.not_lt_zero op)
  · intro op _
    rfl
  · intro p op queued
    simp [init] at queued
  · intro op ret answered
    simp [init] at answered
  · intro _
    rfl

omit [DecidableEq ι] in
theorem mem_answer {adding : Option Nat} {ret ret' : Int} {op : Nat} :
    (op, ret') ∈ adding.toList.map (·, ret) ↔ adding = some op ∧ ret' = ret := by
  cases adding <;> simp [eq_comm]

omit [DecidableEq ι] in
/-- What queues no operator. -/
theorem Accounted.keep {s t : Calls ι} (accounted : Accounted s) (nextEq : t.next = s.next)
    (copiesEq : ∀ op, t.copies op = s.copies op)
    (adding : ∀ p op, t.adding p = some op → op < s.next)
    (answered : ∀ op ret, (op, ret) ∈ t.answers → op < s.next)
    (destroyed : t.life = .destroyed → t.core.ops = []) : Accounted t := by
  constructor
  · intro op before
    rw [copiesEq]
    exact accounted.once op (nextEq ▸ before)
  · intro op after
    rw [copiesEq]
    exact accounted.never op (nextEq ▸ after)
  · rw [nextEq]
    exact adding
  · rw [nextEq]
    exact answered
  · exact destroyed

/-- A new operator is queued under the next number. -/
theorem Accounted.queue {s : Calls ι} {core : Operators ι Nat} {p : ι} {life : Life}
    (accounted : Accounted s) (opsEq : core.ops = s.left (.queued p))
    (destroyed : life = .destroyed → core.ops = []) :
    Accounted { s.record core (.queued p) with life := life } := by
  have copiesEq := copies_record life opsEq
  have newEq : ∀ op, (s.added (.queued p)).count op = if s.next = op then 1 else 0 := by
    intro op
    simp [added, List.count_singleton]
  constructor
  · intro op before
    rw [copiesEq, newEq]
    rcases Nat.lt_succ_iff_lt_or_eq.mp before with earlier | rfl
    · rw [accounted.once op earlier, if_neg (Nat.ne_of_gt earlier)]
    · rw [accounted.never _ (Nat.le_refl _), if_pos rfl]
  · intro op after
    have later : s.next < op := after
    rw [copiesEq, newEq, accounted.never op (Nat.le_of_lt later), if_neg (Nat.ne_of_lt later)]
  · intro q op queued
    by_cases same : q = p
    · subst same
      obtain rfl : s.next = op := by simpa [record] using queued
      exact Nat.lt_succ_self _
    · have before : s.adding q = some op := by simpa [record, same] using queued
      exact Nat.lt_succ_of_lt (accounted.adding q op before)
  · intro op ret answered
    exact Nat.lt_succ_of_lt (accounted.answered op ret answered)
  · exact destroyed

/-- The step lemma. -/
theorem Accounted.step {s t : Calls ι} {e : CallEvent ι} (accounted : Accounted s)
    (taken : Step s e t) : Accounted t := by
  obtain ⟨core, note, life, rfl, opsEq, -, destroyed⟩ := step_cases taken
  have copiesEq := copies_record life opsEq
  cases note with
  | queued p => exact accounted.queue opsEq destroyed
  | skipped p =>
      refine accounted.keep rfl copiesEq ?_ accounted.answered destroyed
      intro q op queued
      by_cases same : q = p
      · simp [record, same] at queued
      · have before : s.adding q = some op := by simpa [record, same] using queued
        exact accounted.adding q op before
  | answered p ret =>
      refine accounted.keep rfl copiesEq accounted.adding ?_ destroyed
      intro op answer member
      rcases List.mem_append.mp member with earlier | new
      · exact accounted.answered op answer earlier
      · exact accounted.adding p op (mem_answer.mp new).1
  | _ => exact accounted.keep rfl copiesEq accounted.adding accounted.answered destroyed

/-! ## The answers -/

/-- `handlePushRequest` answers with an error after it has queued an operator only when
`addAsynOperator` has answered a negative value. -/
theorem negative_of_pushFails {codec : ConnectServer.Codec} {serv : ConnectServer.ServerConfig}
    {c : ConnectServer.CliCon} {env : ConnectServer.Env} {req : Bytes}
    (fails : PushFails codec serv c env req) : env.queued < 0 := by
  by_contra went
  rcases fails with ⟨answered, queued⟩
  obtain ⟨⟨l, op⟩, isQueued⟩ := List.exists_mem_of_ne_nil _ queued
  obtain ⟨nonneg, svreq, route, parsed, routed, -⟩ :=
    ((ConnectServer.CliCon.handlePushRequest_spec codec serv c env req).2.2 l op).mp isQueued
  -- the status stays `0`, and nothing is serialized
  have silent : (c.handlePushRequest codec serv env req).resp = [] := by
    simp [ConnectServer.CliCon.handlePushRequest, parsed, routed, Int.not_lt.mpr nonneg, went,
      ConnectServer.CliCon.exitPush]
  exact answered silent

/-- A negative answer is given only for operators that are discarded. -/
def FailedDiscarded (s : Calls ι) : Prop :=
  ∀ op ret, (op, ret) ∈ s.answers → ret < 0 → op ∈ s.discarded

omit [DecidableEq ι] in
theorem Accounted.discarded_iff {s : Calls ι} (accounted : Accounted s) {op : Nat}
    (known : op < s.next) : op ∈ s.discarded ↔ op ∉ s.core.ops ∧ op ∉ s.processed := by
  have once := accounted.once op known
  simp only [copies, List.count_append] at once
  rw [← List.count_pos_iff, ← List.count_eq_zero, ← List.count_eq_zero]
  omega

omit [DecidableEq ι] in
theorem Accounted.truthful_iff {s : Calls ι} (accounted : Accounted s) :
    Truthful s ↔ FailedDiscarded s := by
  have outside : ∀ {op ret}, (op, ret) ∈ s.answers →
      (op ∈ s.discarded ↔ op ∉ s.core.ops ∧ op ∉ s.processed) := fun answered =>
    accounted.discarded_iff (accounted.answered _ _ answered)
  constructor
  · intro truthful op ret answered negative
    exact (outside answered).mpr (truthful.failed op ret answered negative)
  · intro failed
    constructor
    · intro op ret answered negative
      exact (outside answered).mp (failed op ret answered negative)
    · intro op ret answered _
      have once := accounted.once op (accounted.answered op ret answered)
      refine ⟨once, fun destroyed => ?_⟩
      rwa [copies, accounted.destroyed destroyed, List.nil_append] at once
    · intro op ret answered codec serv c env req queuedEq fails
      have negative : ret < 0 := queuedEq ▸ negative_of_pushFails fails
      exact ((outside answered).mp (failed op ret answered negative)).2

/-- A note leaves what was discarded and what was answered before. -/
theorem failedDiscarded_record_iff {s : Calls ι} {core : Operators ι Nat} {note : Note ι}
    (life : Life) (failed : FailedDiscarded s) :
    FailedDiscarded { s.record core note with life := life } ↔ s.Meets note := by
  cases note with
  | answered p ret =>
      constructor
      · intro after negative op adding
        exact after op ret (List.mem_append_right _ (mem_answer.mpr ⟨adding, rfl⟩)) negative
      · intro meets op ret' member negative
        rcases List.mem_append.mp member with earlier | new
        · exact failed op ret' earlier negative
        · obtain ⟨adding, rfl⟩ := mem_answer.mp new
          exact meets negative op adding
  | discarded =>
      refine iff_of_true (fun op ret answered negative => ?_) trivial
      exact List.mem_append_left _ (failed op ret answered negative)
  | _ => exact iff_of_true failed trivial

theorem accounted_of_reachable {s : Calls ι} (reachable : Reachable Step init s) : Accounted s :=
  reachable.invariant accounted_init fun _ _ _ accounted taken => accounted.step taken

/-- A run in which a send fails only for a call without an operator or one whose operator
has been discarded is a run in all of whose states the answers are true, and the other way
round. -/
theorem guarded_iff_truthful {events : List (CallEvent ι)} {s : Calls ι} :
    Run Step Guard init events s ↔
      Run Step (fun s _ => Truthful s) init events s ∧ Truthful s := by
  apply Run.guarded_iff
  · apply accounted_init.truthful_iff.mpr
    intro op ret answered
    simp [init] at answered
  · intro s e t reachable truthful taken
    have accounted := accounted_of_reachable reachable
    rw [(accounted.step taken).truthful_iff]
    obtain ⟨core, note, life, rfl, -, guardIff, -⟩ := step_cases taken
    rw [guardIff]
    exact failedDiscarded_record_iff life (accounted.truthful_iff.mp truthful)

/-- A producer whose send fails, and then a turn of the loop. -/
def failingEvents : List (CallEvent Unit) :=
  [.of (.push () 0), .of (.swap ()), .of (.sendFails ()), .of .exchange, .of .drain, .of .pop]

/-- What `handlePushRequest` finds when its operator is answered `-1`. -/
def failingEnv : ConnectServer.Env := { ConnectServer.sampleEnv 0 with queued := -1 }

/-- A push to the connection 5 of the server. -/
def failingPush : Bytes :=
  ConnectServer.pushBytes (ConnectServer.decorationName 1 5 [117]) [49] 0

/-- The operator that is answered with `-1` is processed, also when it is that of a push,
whose sender gets an error. -/
theorem failed_push_delivered :
    ∃ s : Calls Unit, Run Step anyStep init failingEvents s ∧ (0, -1) ∈ s.answers ∧
      0 ∈ s.processed ∧
      PushFails ConnectServer.gimCodec.toCodec ⟨1, 1⟩
        (.init ConnectServer.samplePort) failingEnv failingPush ∧
      ¬Truthful s := by
  have alive : Life.running ≠ .destroyed := by decide
  have same : ∀ p op, (Event.push () 0 : Event Unit Nat) = .push p op → op = 0 := by
    rintro p op ⟨⟩
    rfl
  have run : ∃ s : Calls Unit, Run Step anyStep init failingEvents s ∧ s.answers = [(0, -1)] ∧
      s.processed = [0] :=
    ⟨_, Run.cons trivial (.of alive (fun _ => rfl) same (.push rfl)) <|
      Run.cons trivial (.of alive (fun _ => rfl) (by simp) (.swapWins rfl rfl)) <|
      Run.cons trivial (.of alive (fun _ => rfl) (by simp) (.sendFails rfl)) <|
      Run.cons trivial (.of alive (fun _ => rfl) (by simp) (.exchange rfl)) <|
      Run.cons trivial (.of alive (fun _ => rfl) (by simp) (.drain rfl)) <|
      Run.single trivial (.of alive (fun _ => rfl) (by simp) (.pop rfl rfl)), rfl, rfl⟩
  rcases run with ⟨s, run, answersEq, processedEq⟩
  have fails : PushFails ConnectServer.gimCodec.toCodec
      ⟨1, 1⟩ (.init ConnectServer.samplePort) failingEnv failingPush := by
    constructor <;> decide +kernel
  refine ⟨s, run, by simp [answersEq], by simp [processedEq], fails, fun truthful => ?_⟩
  have outside := (truthful.failed 0 (-1) (by simp [answersEq]) (by decide)).2
  exact outside (by simp [processedEq])

end Calls

end GPush.EventLoop
