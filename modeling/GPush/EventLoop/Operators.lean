import GPush.Transition.Run
import Mathlib.Logic.Function.Basic

/-!
# The operator queue of an event loop

Producers append operators under a mutex and wake the loop with a control byte,
unless a flag says that a wake-up is under way.  The loop resets the flag and then
receives what control bytes there are, so a byte sent in between is swallowed
while its flag stays set.
-/

namespace GPush.EventLoop

open GPush.Transition

/-- Where a producer is in `addAsynOperator`. -/
inductive Producer
  | idle
  | pushed
  | won
  deriving DecidableEq, Repr

/-- Where the loop is in `run`: before the exchange of `processOps`, before its
`recv`, in its `while`, behind it, or in `epoll_wait`. -/
inductive Loop
  | start
  | exchanged
  | popping
  | leaving
  | waiting
  deriving DecidableEq, Repr

/-- The objects that the loop and its producers share, and where each of them is.
The producers are the elements of `ι`. -/
structure Operators (ι α : Type*) where
  ops : List α
  flag : Bool
  bytes : Nat
  producers : ι → Producer
  loop : Loop

/-- `sizeof(buf)` in `processOps`. -/
def recvSize : Nat := 1024 * 16

/-- The atomic steps. -/
inductive Event (ι α : Type*)
  | push (p : ι) (op : α)
  | skip (p : ι)
  | swap (p : ι)
  | send (p : ι)
  | sendFails (p : ι)
  | exchange
  | drain
  | pop
  | seeEmpty
  | block
  | wake

namespace Operators

variable {ι α : Type*} [DecidableEq ι]

/-- An event loop after `EventLoop::init`. -/
def init : Operators ι α where
  ops := []
  flag := false
  bytes := 0
  producers _ := .idle
  loop := .start

/-- A producer moves on. -/
def move (s : Operators ι α) (p : ι) (phase : Producer) : Operators ι α :=
  { s with producers := Function.update s.producers p phase }

/-- The step relation.  `skip` starts `addAsynOperator(NULL)`.  The loop may wake
from `epoll_wait` at any time: a timer, a signal or another descriptor does it. -/
inductive Step : LTS (Operators ι α) (Event ι α)
  | push {s : Operators ι α} {p : ι} {op : α} : s.producers p = .idle →
      Step s (.push p op) { s.move p .pushed with ops := s.ops ++ [op] }
  | skip {s : Operators ι α} {p : ι} : s.producers p = .idle →
      Step s (.skip p) (s.move p .pushed)
  | swapWins {s : Operators ι α} {p : ι} : s.producers p = .pushed → s.flag = false →
      Step s (.swap p) { s.move p .won with flag := true }
  | swapLoses {s : Operators ι α} {p : ι} : s.producers p = .pushed → s.flag = true →
      Step s (.swap p) (s.move p .idle)
  | send {s : Operators ι α} {p : ι} : s.producers p = .won →
      Step s (.send p) { s.move p .idle with bytes := s.bytes + 1 }
  | sendFails {s : Operators ι α} {p : ι} : s.producers p = .won →
      Step s (.sendFails p) (s.move p .idle)
  | exchange {s : Operators ι α} : s.loop = .start →
      Step s .exchange { s with flag := false, loop := .exchanged }
  | drain {s : Operators ι α} : s.loop = .exchanged →
      Step s .drain { s with bytes := s.bytes - recvSize, loop := .popping }
  | pop {s : Operators ι α} {op : α} {rest : List α} : s.loop = .popping → s.ops = op :: rest →
      Step s .pop { s with ops := rest }
  | seeEmpty {s : Operators ι α} : s.loop = .popping → s.ops = [] →
      Step s .seeEmpty { s with loop := .leaving }
  | block {s : Operators ι α} : s.loop = .leaving → Step s .block { s with loop := .waiting }
  | wake {s : Operators ι α} : s.loop = .waiting → Step s .wake { s with loop := .start }

/-- Every send of a control byte succeeds. -/
def sendsSucceed (_ : Operators ι α) : Event ι α → Prop
  | .sendFails _ => False
  | _ => True

/-- Every send succeeds, and when the loop receives control bytes, the flag is down,
or a producer is about to send a byte, or there are more bytes than `recv` takes. -/
def keepsWakeup (s : Operators ι α) : Event ι α → Prop
  | .sendFails _ => False
  | .drain => s.flag = false ∨ (∃ p, s.producers p = .won) ∨ recvSize < s.bytes
  | _ => True

/-- No operator is stranded: when the loop is blocked, nobody is in the middle of
`addAsynOperator` and an operator is queued, a control byte is pending. -/
def NoneStranded (s : Operators ι α) : Prop :=
  s.loop = .waiting → (∀ p, s.producers p = .idle) → s.ops ≠ [] → 0 < s.bytes

/-! ## The invariant -/

/-- A raised flag stands for a byte, sent or about to be sent; and once the loop has
seen an empty queue, a new operator stands for a raised flag or for a producer
about to raise it. -/
structure Awake (s : Operators ι α) : Prop where
  flagged : s.flag = true → 0 < s.bytes ∨ ∃ p, s.producers p = .won
  queued : s.loop = .leaving ∨ s.loop = .waiting → s.ops ≠ [] →
    s.flag = true ∨ ∃ p, s.producers p = .pushed

omit [DecidableEq ι] in
theorem Awake.noneStranded {s : Operators ι α} (awake : Awake s) : NoneStranded s := by
  intro waiting allIdle nonempty
  have nobody : ∀ {phase : Producer}, phase ≠ .idle → ¬ ∃ p, s.producers p = phase := by
    rintro phase busy ⟨p, atPhase⟩
    exact busy (atPhase.symm.trans (allIdle p))
  have raised := (awake.queued (Or.inr waiting) nonempty).resolve_right (nobody (by decide))
  exact (awake.flagged raised).resolve_right (nobody (by decide))

omit [DecidableEq ι] in
theorem awake_init : Awake (init : Operators ι α) :=
  ⟨fun raised => absurd raised Bool.noConfusion, fun _ nonempty => absurd rfl nonempty⟩

/-- A producer other than the one that moves stays where it is. -/
theorem exists_of_move {s : Operators ι α} {p : ι} {phase kept : Producer}
    (leaves : s.producers p ≠ kept) (somewhere : ∃ r, s.producers r = kept) :
    ∃ r, (s.move p phase).producers r = kept := by
  obtain ⟨r, atPhase⟩ := somewhere
  have distinct : r ≠ p := by
    rintro rfl
    exact leaves atPhase
  exact ⟨r, (Function.update_of_ne distinct _ _).trans atPhase⟩

theorem exists_move (s : Operators ι α) (p : ι) (phase : Producer) :
    ∃ r, (s.move p phase).producers r = phase :=
  ⟨p, Function.update_self ..⟩

/-- The step lemma. -/
theorem Awake.step {s t : Operators ι α} {e : Event ι α} (awake : Awake s)
    (keeps : keepsWakeup s e) (taken : Step s e t) : Awake t := by
  have distinct : ∀ {p : ι} {here kept : Producer}, s.producers p = here → here ≠ kept →
      s.producers p ≠ kept := fun atPhase ne same => ne (atPhase.symm.trans same)
  cases taken with
  | push idle =>
      refine ⟨fun raised => ?_, fun _ _ => Or.inr (exists_move s _ _)⟩
      exact (awake.flagged raised).imp_right (exists_of_move (distinct idle (by decide)))
  | skip idle =>
      refine ⟨fun raised => ?_, fun _ _ => Or.inr (exists_move s _ _)⟩
      exact (awake.flagged raised).imp_right (exists_of_move (distinct idle (by decide)))
  | swapWins pushed down =>
      exact ⟨fun _ => Or.inr (exists_move s _ _), fun _ _ => Or.inl rfl⟩
  | swapLoses pushed raised =>
      refine ⟨fun _ => ?_, fun _ _ => Or.inl raised⟩
      exact (awake.flagged raised).imp_right (exists_of_move (distinct pushed (by decide)))
  | send won =>
      refine ⟨fun _ => Or.inl (Nat.succ_pos _), fun behind nonempty => ?_⟩
      exact (awake.queued behind nonempty).imp_right (exists_of_move (distinct won (by decide)))
  | sendFails won => exact keeps.elim
  | exchange atStart =>
      exact ⟨fun raised => absurd raised Bool.noConfusion, fun behind => by simp at behind⟩
  | drain atExchanged =>
      refine ⟨fun raised => ?_, fun behind => by simp at behind⟩
      rcases keeps with down | sending | more
      · exact absurd (raised.symm.trans down) Bool.noConfusion
      · exact Or.inr sending
      · exact Or.inl (Nat.sub_pos_of_lt more)
  | pop popping queue =>
      refine ⟨awake.flagged, fun behind => ?_⟩
      simp [popping] at behind
  | seeEmpty popping empty => exact ⟨awake.flagged, fun _ nonempty => absurd empty nonempty⟩
  | block leaving => exact ⟨awake.flagged, fun _ => awake.queued (Or.inl leaving)⟩
  | wake waiting => exact ⟨awake.flagged, fun behind => by simp at behind⟩

/-- In every run in which the sends succeed and no wake-up is swallowed, no operator
is stranded. -/
theorem noneStranded_of_keepsWakeup {events : List (Event ι α)} {s : Operators ι α}
    (run : Run Step keepsWakeup init events s) : NoneStranded s :=
  (run.invariant awake_init fun _ _ _ awake keeps taken => awake.step keeps taken).noneStranded

/-- A producer whose byte is sent after the loop has blocked. -/
def wakingEvents : List (Event Unit Unit) :=
  [.exchange, .drain, .seeEmpty, .block, .push () (), .swap (), .send ()]

theorem noneStranded_of_keepsWakeup_waking :
    ∃ s : Operators Unit Unit, Run Step keepsWakeup init wakingEvents s ∧ s.loop = .waiting ∧
      s.ops = [()] ∧ 0 < s.bytes := by
  have run : ∃ s : Operators Unit Unit, Run Step keepsWakeup init wakingEvents s ∧
      s.loop = .waiting ∧ s.ops = [()] ∧ s.producers () = .idle :=
    ⟨_, Run.cons trivial (Step.exchange rfl) <| Run.cons (Or.inl rfl) (Step.drain rfl) <|
      Run.cons trivial (Step.seeEmpty rfl rfl) <| Run.cons trivial (Step.block rfl) <|
      Run.cons trivial (Step.push rfl) <| Run.cons trivial (Step.swapWins rfl rfl) <|
      Run.single trivial (Step.send rfl), rfl, rfl, rfl⟩
  obtain ⟨s, run, waiting, queue, idle⟩ := run
  refine ⟨s, run, waiting, queue, noneStranded_of_keepsWakeup run waiting (fun _ => idle) ?_⟩
  rw [queue]
  exact List.cons_ne_nil _ _

/-- Two producers.  The byte of the first one is sent between the exchange and the
`recv`; the second one finds the flag up. -/
def strandingEvents : List (Event Bool Unit) :=
  [.exchange, .push false (), .swap false, .send false, .drain, .pop, .seeEmpty, .push true (),
    .swap true, .block]

/-- The operator of the second producer stays in the queue without a wake-up. -/
theorem strands_operator :
    ∃ s : Operators Bool Unit, Run Step sendsSucceed init strandingEvents s ∧
      s.loop = .waiting ∧ (∀ p, s.producers p = .idle) ∧ s.ops = [()] ∧ s.bytes = 0 ∧
      ¬ NoneStranded s := by
  have run : ∃ s : Operators Bool Unit, Run Step sendsSucceed init strandingEvents s ∧
      s.loop = .waiting ∧ (∀ p, s.producers p = .idle) ∧ s.ops = [()] ∧ s.bytes = 0 :=
    ⟨_, Run.cons trivial (Step.exchange rfl) <| Run.cons trivial (Step.push rfl) <|
      Run.cons trivial (Step.swapWins rfl rfl) <| Run.cons trivial (Step.send rfl) <|
      Run.cons trivial (Step.drain rfl) <| Run.cons trivial (Step.pop rfl rfl) <|
      Run.cons trivial (Step.seeEmpty rfl rfl) <| Run.cons trivial (Step.push rfl) <|
      Run.cons trivial (Step.swapLoses rfl rfl) <| Run.single trivial (Step.block rfl),
      rfl, by decide, rfl, rfl⟩
  obtain ⟨s, run, waiting, allIdle, queue, noByte⟩ := run
  refine ⟨s, run, waiting, allIdle, queue, noByte, fun safe => ?_⟩
  have pending := safe waiting allIdle (by rw [queue]; exact List.cons_ne_nil _ _)
  omega

end Operators

end GPush.EventLoop
