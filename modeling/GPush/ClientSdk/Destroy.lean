import GPush.ClientSdk.Numbered

/-!
# Which connection is destroyed

A `DelConnOp` carries the id of a user only, and destroys the connection that has the id when
it is processed.  That is the one that has queued it unless the user has logged in again.
-/

namespace GPush.ClientSdk

open GPush.ConnectServer GPush.Transition

namespace Numbered

/-- A `DelConnOp` has destroyed no connection but the one that queued it. -/
def Exact (el : Numbered) : Prop := ∀ kill ∈ el.kills, kill.1 = kill.2

/-- Where a `LoginOp` makes a connection, no `DelConnOp` for its id is queued. -/
def Guard (el : Numbered) (happening : Happening) : Prop :=
  match happening.event with
  | .process _ => ∀ op rest, el.ops = .call (.login op) :: rest → el.conns op.cid = none →
      ∀ owner, .delConn op.cid owner ∉ rest
  | _ => True

/-- The invariant. -/
structure Owned (el : Numbered) : Prop where
  named : ∀ cid id o, el.conns cid = some (id, o) → o.con.cid = cid
  pending : ∀ cid owner, .delConn cid owner ∈ el.ops → ∀ id o, el.conns cid = some (id, o) →
    id = owner
  exact : el.Exact

theorem owned_init : Owned init := by
  constructor
  · intro cid id o found
    cases found
  · intro cid owner member
    cases member
  · intro kill member
    cases member

/-- Other threads destroy nothing. -/
theorem delConn_mem_mix {others : Nat → List Call} {n : Nat} {ops : List Pending} {cid : Bytes}
    {owner : Nat} (member : .delConn cid owner ∈ mix others n ops) : .delConn cid owner ∈ ops := by
  have noCall : ∀ n, .delConn cid owner ∉ (others n).map Pending.call := by simp
  induction ops generalizing n with
  | nil => exact absurd member (noCall n)
  | cons op rest ih =>
      rcases List.mem_append.mp member with called | member
      · exact absurd called (noCall n)
      · rcases List.mem_cons.mp member with rfl | member
        · exact List.mem_cons_self
        · exact List.mem_cons_of_mem _ (ih member)

/-- A `DelConnOp` that a call queues has the number of its connection. -/
theorem delConn_mem_queued {acts : List Act} {id owner : Nat} {cid : Bytes}
    (member : .delConn cid owner ∈ (EventLoop.queued acts).map (Pending.ofOp id)) :
    owner = id ∧ .asynAddOp (.delConn cid) ∈ acts := by
  rcases List.mem_map.mp member with ⟨op, opMember, opEq⟩
  cases op with
  | call c => cases opEq
  | delConn cid' =>
      obtain ⟨rfl, rfl⟩ := Pending.delConn.inj opEq
      rcases List.mem_filterMap.mp opMember with ⟨act, actMember, actEq⟩
      cases act with
      | asynAddOp op =>
          obtain rfl := Option.some.inj actEq
          exact ⟨rfl, actMember⟩
      | _ => cases actEq

namespace Owned

variable {codec : PeerCodec} {el : Numbered} {others : Nat → List Call} {cid : Bytes} {id : Nat}
  {o : Obj}

/-- An operation less is no harm. -/
theorem tail {op : Pending} {rest : List Pending} (owned : Owned el) (opsEq : el.ops = op :: rest) :
    Owned { el with ops := rest } := by
  constructor
  · exact owned.named
  · intro cid owner member
    exact owned.pending cid owner (opsEq ▸ List.mem_cons_of_mem _ member)
  · exact owned.exact

theorem call {out : Out} (owned : Owned el) (own : Own o.con out) (named : o.con.cid = cid)
    (pending : ∀ owner, .delConn cid owner ∈ el.ops → id = owner) :
    Owned (el.call others cid id o out) := by
  constructor
  · intro cid' id' o' found
    rcases Table.update_eq_some.mp found with ⟨rfl, new⟩ | ⟨-, old⟩
    · obtain ⟨-, rfl⟩ := Prod.mk.inj (Option.some.inj new)
      exact own.cid.trans named
    · exact owned.named cid' id' o' old
  · intro cid' owner member id' o' found
    rcases List.mem_append.mp member with waiting | queued
    · rcases Table.update_eq_some.mp found with ⟨rfl, new⟩ | ⟨-, old⟩
      · obtain ⟨rfl, -⟩ := Prod.mk.inj (Option.some.inj new)
        exact pending owner waiting
      · exact owned.pending cid' owner waiting id' o' old
    · rcases delConn_mem_queued (delConn_mem_mix queued) with ⟨rfl, asked⟩
      have sameCid := (own.destroys cid' asked).trans named
      rcases Table.update_eq_some.mp found with ⟨-, new⟩ | ⟨other, -⟩
      · exact (Prod.mk.inj (Option.some.inj new)).1.symm
      · exact absurd sameCid other
  · exact owned.exact

theorem destroy (owned : Owned el) (cid : Bytes) (o : Obj) : Owned (el.destroy cid o) := by
  constructor
  · intro cid' id' o' found
    rcases Table.update_eq_some.mp found with ⟨-, gone⟩ | ⟨-, old⟩
    · cases gone
    · exact owned.named cid' id' o' old
  · intro cid' owner member id' o' found
    rcases Table.update_eq_some.mp found with ⟨-, gone⟩ | ⟨-, old⟩
    · cases gone
    · exact owned.pending cid' owner member id' o' old
  · exact owned.exact

theorem delConn (owned : Owned el) (cid : Bytes) : Owned (el.delConn cid) := by
  rw [Numbered.delConn]
  cases el.conns cid with
  | none => exact owned
  | some found => exact owned.destroy cid found.2

theorem processLogin (owned : Owned el) (op : LoginOp) (net : Net)
    (noneQueued : el.conns op.cid = none → ∀ owner, .delConn op.cid owner ∉ el.ops) :
    Owned (el.processLogin codec others op net) := by
  rw [Numbered.processLogin]
  cases vacant : el.conns op.cid with
  | some found => exact owned
  | none =>
      have counted : Owned { el with made := el.made + 1 } :=
        ⟨owned.named, owned.pending, owned.exact⟩
      have own := own_connectAndLogin codec (CliConn.init net op) net
      apply counted.call
      · split_ifs
        · exact own.congr rfl rfl rfl
        · exact own
      · rfl
      · intro owner member
        exact absurd member (noneQueued vacant owner)

/-- The connection that a `DelConnOp` destroys is the one that has queued it. -/
theorem processDelConn {owner : Nat} (owned : Owned el)
    (pending : ∀ id o, el.conns cid = some (id, o) → id = owner) (net : Net) :
    Owned (el.processOp codec others net (.delConn cid owner)) := by
  have deleted := owned.delConn cid
  constructor
  · exact deleted.named
  · exact deleted.pending
  · intro kill member
    rcases List.mem_append.mp member with earlier | new
    · exact owned.exact kill earlier
    · cases found : el.conns cid with
      | none => simp [found] at new
      | some victim =>
          obtain rfl : kill = (owner, victim.1) := by simpa [found] using new
          exact (pending victim.1 victim.2 found).symm

theorem visit (owned : Owned el) (found : el.conns cid = some (id, o)) (now : Int)
    (nets : Nat → Net) : Owned (el.visit others cid id o now nets) := by
  rw [Numbered.visit]
  split_ifs with closed
  · exact owned.destroy cid o
  · apply owned.call (own_processTimers o.con now nets) (owned.named cid id o found)
    exact fun owner member => owned.pending cid owner member id o found

theorem read {net : Net} {received : Option (List Received)} {el' : Numbered} (owned : Owned el)
    (found : el.conns cid = some (id, o))
    (taken : el.read codec others cid id o net received = some el') : Owned el' := by
  have named := owned.named cid id o found
  have pending : ∀ owner, .delConn cid owner ∈ el.ops → id = owner :=
    fun owner member => owned.pending cid owner member id o found
  rcases Option.map_eq_some_iff.mp taken with ⟨out, handled, rfl⟩
  have own := own_handleRead handled
  split_ifs with failed
  · have shut : Own o.con (out.andThen fun c => c.onDisconnect net networkError) :=
      own.andThen (own_shut out.con net .disconnect networkError)
    exact (owned.call shut named pending).delConn _
  · exact owned.call own named pending

/-- The step lemma. -/
theorem step {happening : Happening} {el' : Numbered} (owned : Owned el)
    (guarded : Guard el happening) (taken : Step codec el happening el') : Owned el' := by
  rcases happening with ⟨event, others⟩
  cases event with
  | call c =>
      rw [← Option.some.inj taken]
      constructor
      · exact owned.named
      · intro cid owner member
        rcases List.mem_append.mp member with earlier | new
        · exact owned.pending cid owner earlier
        · cases List.mem_singleton.mp new
      · exact owned.exact
  | process net =>
      rcases step_process taken with ⟨op, rest, waiting, rfl⟩
      have fewer := owned.tail waiting
      cases op with
      | delConn cid owner =>
          apply fewer.processDelConn
          exact owned.pending cid owner (waiting ▸ List.mem_cons_self)
      | call c =>
          cases c with
          | login op => exact fewer.processLogin op net (guarded op rest waiting)
          | disconnect cid =>
              rw [Numbered.processOp]
              cases found : el.conns cid with
              | none => exact fewer
              | some victim =>
                  apply fewer.call (own_shut victim.2.con net .disconnect 0)
                    (owned.named cid victim.1 victim.2 found)
                  exact fun owner member =>
                    fewer.pending cid owner member victim.1 victim.2 found
  | timers cid now nets =>
      rcases Option.map_eq_some_iff.mp taken with ⟨victim, found, rfl⟩
      exact owned.visit found now nets
  | read cid net received =>
      rcases Option.bind_eq_some_iff.mp taken with ⟨victim, found, readEq⟩
      exact owned.read found readEq

end Owned

/-- In every run in which no `LoginOp` makes a connection while a `DelConnOp` for its id is
queued, a `DelConnOp` destroys the connection that has queued it, or none. -/
theorem exact_of_noneQueued {codec : PeerCodec} {happenings : List Happening} {el : Numbered}
    (run : Run (Step codec) Guard init happenings el) : el.Exact := by
  have owned : Owned el := run.invariant owned_init fun _ _ _ owned guarded taken =>
    owned.step guarded taken
  exact owned.exact

/-- What happens without calls of other threads. -/
def alone (event : EventLoop.Event) : Happening := ⟨event, fun _ => []⟩

/-- The connection 99 after the user has ended its login. -/
def ended : Obj where
  con := { CliConn.init EventLoop.working EventLoop.ownLogin with timers := [(10000000, .login)] }
  past := EventLoop.loggingIn.past ++ [.enter .disconnect, .publish (.logout [99] 0),
    .asynAddOp (.delConn [99])]

/-- The user logs in and disconnects, and the `DelConnOp` destroys its own connection. -/
theorem exact_of_noneQueued_disconnect :
    ∃ el, Run (Step gimCodec) Guard init
        ([.call (.login EventLoop.ownLogin), .process EventLoop.working,
          .call (.disconnect [99]), .process EventLoop.working,
          .process EventLoop.working].map alone) el ∧
      el.kills = [(0, 0)] ∧ el.Exact := by
  let only (found : Option (Nat × Obj)) : Bytes → Option (Nat × Obj) :=
    Function.update init.conns [99] found
  let called : Numbered := ⟨init.conns, [.call (.login EventLoop.ownLogin)], [], 0, []⟩
  let waiting : Numbered := ⟨only (some (0, EventLoop.loggingIn)), [], [], 1, []⟩
  let asked : Numbered := { waiting with ops := [.call (.disconnect [99])] }
  let closed : Numbered := { waiting with
    conns := Function.update waiting.conns [99] (some (0, ended)), ops := [.delConn [99] 0] }
  let done : Numbered := { closed with
    conns := Function.update closed.conns [99] none, ops := [], dead := [ended],
    kills := [(0, 0)] }
  have calls : Step gimCodec init (alone (.call (.login EventLoop.ownLogin)))
      called := rfl
  have logsIn : Step gimCodec called (alone (.process EventLoop.working)) waiting := rfl
  have asks : Step gimCodec waiting (alone (.call (.disconnect [99]))) asked := rfl
  have closes : Step gimCodec asked (alone (.process EventLoop.working)) closed := rfl
  have destroys : Step gimCodec closed (alone (.process EventLoop.working)) done := rfl
  have noneQueued : Guard called (alone (.process EventLoop.working)) := by
    rintro op rest waits - owner member
    obtain ⟨-, rfl⟩ := List.cons.inj waits
    cases member
  have noLogin : Guard asked (alone (.process EventLoop.working)) := by
    rintro op rest waits
    cases waits
  have noLogin' : Guard closed (alone (.process EventLoop.working)) := by
    rintro op rest waits
    cases waits
  have run : Run (Step gimCodec) Guard init
      ([.call (.login EventLoop.ownLogin), .process EventLoop.working,
        .call (.disconnect [99]), .process EventLoop.working,
        .process EventLoop.working].map alone) done := by
    apply Run.cons trivial calls
    apply Run.cons noneQueued logsIn
    apply Run.cons trivial asks
    apply Run.cons noLogin closes
    exact Run.single noLogin' destroys
  exact ⟨done, run, rfl, exact_of_noneQueued run⟩

/-- The connection is lost, and the message callback logs in again. -/
def loginAgain : List EventLoop.Event :=
  EventLoop.acceptLogin ++
    [.read [99] { EventLoop.working with reaction := [.login EventLoop.ownLogin] } none,
      .process EventLoop.working, .process EventLoop.working]

/-- The `DelConnOp` of the lost connection, whose number is 0, destroys the new one, whose
number is 1. -/
theorem stale_delConn_destroys :
    ∃ el, Run (Step gimCodec) anyStep init (loginAgain.map alone) el ∧
      el.kills = [(0, 1)] ∧ ¬el.Exact := by
  have played : ((loginAgain.map alone).foldlM (next gimCodec) init).map kills =
      some [(0, 1)] := by
    decide +kernel
  rcases Option.map_eq_some_iff.mp played with ⟨el, executed, killsEq⟩
  have run : Run (Step gimCodec) anyStep init (loginAgain.map alone) el :=
    Run.of_foldlM (fun _ _ _ taken => ⟨trivial, taken⟩) executed
  refine ⟨el, run, killsEq, ?_⟩
  intro exact
  have same := exact (0, 1) (killsEq ▸ List.mem_singleton_self _)
  exact absurd same (by decide)

end Numbered

end GPush.ClientSdk
