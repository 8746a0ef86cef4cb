import GPush.Transition.Run
import Mathlib.Logic.Function.Basic

/-!
# The operation queue of the client SDK

Threads append operations under a mutex and then send a control byte each.  The loop first
empties the queue and receives the control bytes afterwards, so the byte of an operation
that is appended in between is swallowed with the others.
-/

namespace GPush.ClientSdk

open GPush.Transition

/-- Where a thread is in `asynAddOp`. -/
inductive Producer
  | idle
  | appended
  deriving DecidableEq, Repr

/-- Where the loop is in `run`: in the first loop of `processOps`, in its second one, on its
way to `select`, or blocked there. -/
inductive LoopPlace
  | reading
  | draining
  | leaving
  | waiting
  deriving DecidableEq, Repr

/-- `m_ops`, the control socket, and where the threads are that use them.  The producers are
the elements of `ι`. -/
structure OpQueue (ι α : Type*) where
  ops : List α
  bytes : Nat
  producers : ι → Producer
  loop : LoopPlace

namespace OpQueue

/-- `sizeof(buf)` in `processOps`. -/
def bufSize : Nat := 1024

/-- The atomic steps. -/
inductive Event (ι α : Type*)
  | append (p : ι) (op : α)
  | send (p : ι)
  | read
  | seeEmpty
  | recv
  | block
  | wake

variable {ι α : Type*} [DecidableEq ι]

/-- An event loop before its first `select`. -/
def init : OpQueue ι α where
  ops := []
  bytes := 0
  producers _ := .idle
  loop := .leaving

/-- A producer moves on. -/
def move (s : OpQueue ι α) (p : ι) (phase : Producer) : OpQueue ι α :=
  { s with producers := Function.update s.producers p phase }

/-- The step relation.  The second loop of `processOps` ends with the first `recv` that does
not fill its buffer.  `select` may return at any time: for the control socket, or for a
timer or another socket. -/
inductive Step : LTS (OpQueue ι α) (Event ι α)
  | append {s : OpQueue ι α} {p : ι} {op : α} : s.producers p = .idle →
      Step s (.append p op) { s.move p .appended with ops := s.ops ++ [op] }
  | send {s : OpQueue ι α} {p : ι} : s.producers p = .appended →
      Step s (.send p) { s.move p .idle with bytes := s.bytes + 1 }
  | read {s : OpQueue ι α} {op : α} {rest : List α} : s.loop = .reading → s.ops = op :: rest →
      Step s .read { s with ops := rest }
  | seeEmpty {s : OpQueue ι α} : s.loop = .reading → s.ops = [] →
      Step s .seeEmpty { s with loop := .draining }
  | recvFull {s : OpQueue ι α} : s.loop = .draining → bufSize ≤ s.bytes →
      Step s .recv { s with bytes := s.bytes - bufSize }
  | recvLast {s : OpQueue ι α} : s.loop = .draining → s.bytes < bufSize →
      Step s .recv { s with bytes := 0, loop := .leaving }
  | block {s : OpQueue ι α} : s.loop = .leaving → Step s .block { s with loop := .waiting }
  | wakeControl {s : OpQueue ι α} : s.loop = .waiting → 0 < s.bytes →
      Step s .wake { s with loop := .reading }
  | wakeOther {s : OpQueue ι α} : s.loop = .waiting → Step s .wake { s with loop := .leaving }

/-- When the last control bytes are received, the queue is empty, or a thread that has
appended to it has still to send its byte. -/
def sparesByte (s : OpQueue ι α) : Event ι α → Prop
  | .recv => s.bytes < bufSize → s.ops = [] ∨ ∃ p, s.producers p = .appended
  | _ => True

/-- No wake-up is lost: when the loop is blocked, no thread is between its append and its
send, and an operation is queued, a control byte is pending. -/
def NoneLost (s : OpQueue ι α) : Prop :=
  s.loop = .waiting → (∀ p, s.producers p = .idle) → s.ops ≠ [] → 0 < s.bytes

/-- The invariant: outside of `processOps`, a queued operation stands for a control byte,
sent or about to be sent. -/
def Announced (s : OpQueue ι α) : Prop :=
  s.loop = .leaving ∨ s.loop = .waiting → s.ops ≠ [] →
    0 < s.bytes ∨ ∃ p, s.producers p = .appended

omit [DecidableEq ι] in
theorem Announced.noneLost {s : OpQueue ι α} (announced : Announced s) : NoneLost s := by
  intro waiting allIdle nonempty
  rcases announced (Or.inr waiting) nonempty with pending | ⟨p, appended⟩
  · exact pending
  · rw [allIdle p] at appended
    cases appended

/-- The producer that appends has still to send its byte. -/
theorem exists_appended {s : OpQueue ι α} {p : ι} :
    ∃ r, (s.move p .appended).producers r = .appended :=
  ⟨p, Function.update_self ..⟩

/-- The step lemma. -/
theorem Announced.step {s t : OpQueue ι α} {e : Event ι α} (announced : Announced s)
    (spares : sparesByte s e) (taken : Step s e t) : Announced t := by
  intro outside nonempty
  cases taken with
  | append idle => exact Or.inr exists_appended
  | send appended => exact Or.inl (Nat.succ_pos _)
  | read reading queue =>
      rcases outside with leaving | waiting
      · cases reading.symm.trans leaving
      · cases reading.symm.trans waiting
  | seeEmpty reading empty => exact absurd empty nonempty
  | recvFull draining full =>
      rcases outside with leaving | waiting
      · cases draining.symm.trans leaving
      · cases draining.symm.trans waiting
  | recvLast draining last =>
      rcases spares last with empty | appended
      · exact absurd empty nonempty
      · exact Or.inr appended
  | block leaving => exact announced (Or.inl leaving) nonempty
  | wakeControl waiting pending => exact Or.inl pending
  | wakeOther waiting => exact announced (Or.inr waiting) nonempty

/-- In every run in which the last control bytes are received with the queue empty or a byte
still to come, no wake-up is lost. -/
theorem noneLost_of_sparesByte {events : List (Event ι α)} {s : OpQueue ι α}
    (run : Run Step sparesByte init events s) : NoneLost s := by
  have initial : Announced (init : OpQueue ι α) := fun _ nonempty => absurd rfl nonempty
  have announced : Announced s := run.invariant initial fun _ _ _ announced spares taken =>
    announced.step spares taken
  exact announced.noneLost

/-- An operation that is appended while the loop is blocked. -/
theorem noneLost_of_sparesByte_blocked :
    ∃ s : OpQueue Unit Unit, Run Step sparesByte init [.block, .append () (), .send ()] s ∧
      s.loop = .waiting ∧ s.ops = [()] ∧ 0 < s.bytes := by
  have run : ∃ s : OpQueue Unit Unit, Run Step sparesByte init
      [.block, .append () (), .send ()] s ∧ s.loop = .waiting ∧ s.ops = [()] ∧
      s.producers () = .idle :=
    ⟨_, Run.cons trivial (Step.block rfl) <| Run.cons trivial (Step.append rfl) <|
      Run.single trivial (Step.send rfl), rfl, rfl, rfl⟩
  rcases run with ⟨s, run, waiting, queue, idle⟩
  have nonempty : s.ops ≠ [] := by
    rw [queue]
    exact List.cons_ne_nil _ _
  exact ⟨s, run, waiting, queue, noneLost_of_sparesByte run waiting (fun _ => idle) nonempty⟩

/-- An operation wakes the loop, and a second one is appended and announced when the loop has
seen the queue empty and not yet received the control bytes. -/
def losingEvents : List (Event Unit Unit) :=
  [.block, .append () (), .send (), .wake, .read, .seeEmpty, .append () (), .send (), .recv,
    .block]

/-- The second operation stays in the queue without a control byte. -/
theorem loses_wakeup :
    ∃ s : OpQueue Unit Unit, Run Step anyStep init losingEvents s ∧ s.loop = .waiting ∧
      (∀ p, s.producers p = .idle) ∧ s.ops = [()] ∧ s.bytes = 0 ∧ ¬NoneLost s := by
  have run : ∃ s : OpQueue Unit Unit, Run Step anyStep init losingEvents s ∧
      s.loop = .waiting ∧ (∀ p, s.producers p = .idle) ∧ s.ops = [()] ∧ s.bytes = 0 :=
    ⟨_, Run.cons trivial (Step.block rfl) <| Run.cons trivial (Step.append rfl) <|
      Run.cons trivial (Step.send rfl) <|
      Run.cons trivial (Step.wakeControl rfl (Nat.succ_pos _)) <|
      Run.cons trivial (Step.read rfl rfl) <| Run.cons trivial (Step.seeEmpty rfl rfl) <|
      Run.cons trivial (Step.append rfl) <| Run.cons trivial (Step.send rfl) <|
      Run.cons trivial (Step.recvLast rfl (by decide)) <| Run.single trivial (Step.block rfl),
      rfl, fun _ => rfl, rfl, rfl⟩
  rcases run with ⟨s, run, waiting, allIdle, queue, noByte⟩
  refine ⟨s, run, waiting, allIdle, queue, noByte, ?_⟩
  intro safe
  have pending := safe waiting allIdle (by simp [queue])
  omega

end OpQueue
end GPush.ClientSdk
