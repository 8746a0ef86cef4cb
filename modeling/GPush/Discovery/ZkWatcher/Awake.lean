import GPush.Discovery.ZkWatcher.Answers
import Mathlib.Algebra.GroupWithZero.Nat

/-!
# Watchers that stay awake

A watcher that has the tokens for its mask hears of the next change.  A call of `addWatch`
counts with the requests that it has still to send, for the mask that it sets at its end.
A watcher that is told of a missing node too late, or of a change too early, can go deaf.
-/

namespace GPush.Discovery

open GPush.Transition

namespace ZkWatcher

/-- The masks to be kept, with the requests that are still to be sent for them: that of the
watcher, and the one that a call of `addWatch` sets. -/
inductive Watching (s : State) : (Kind → Bool) → List Request → Prop
  | mask : (∃ k, s.mask k = true) → Watching s s.mask []
  | adding {c : Call} : s.call = some c → Watching s (union s.mask c.flags) c.requests

/-- No request fails.  A node is created only when the children are watched again and
`m_check_exists` is cleared: by a request on its way, or by the created event where
`CREATE_EVENT` is not in the mask.  A node is deleted, and its data is set, only when that uses
up no watch of which nothing else is left.  An event that comes during a call of `addWatch` is
answered for the flags of that call, and a session expires then only when the requests for them
are still to be sent. -/
def Guard (s : State) : Event → Prop
  | .fail => False
  | .create => ∀ mask requests, Watching s mask requests →
      (mask .child = true → .watchChildren ∈ s.outbox ++ requests ∨ .event .child ∈ s.inbox ∨
          mask .create = false ∧ (.existence ∈ s.armed ∨ .event .create ∈ s.inbox)) ∧
        (mask .delete = true ∨ mask .create = false ∧ .existence ∈ s.armed ∨
          latchAfter mask s.latch s.inbox = false)
  | .delete => ∀ mask requests, Watching s mask requests →
      s.latch = false ∨ mask .delete = false ∨ s.armed ≠ [] ∨
        Holds (existence mask s.latch) (s.send requests)
  | .set => ∀ mask requests, Watching s mask requests →
      mask .change = true ∨ mask .child = true ∨ .existence ∉ s.armed ∨
        Holds (existence mask s.latch) { s.send requests with armed := [] }
  | .deliver => ∀ mask requests, Watching s mask requests → ∀ k rest,
      s.inbox = .event k :: rest → Answered s.mask mask (s.send requests) k
  | .addWatch flags => s.node = true → flags .create = true →
      s.mask .create = true ∨ .event .create ∉ s.inbox
  | .expire => ∀ c, s.call = some c →
      State.requestsFor (union s.mask c.flags) ⊆ State.requestsFor s.mask ++ c.requests
  | _ => True

/-- A watcher for which nothing has been asked yet. -/
structure Idle (s : State) : Prop where
  armed : s.armed = []
  outbox : s.outbox = []
  inbox : s.inbox = []
  latch : s.latch = false

/-- The invariant. -/
structure Sound (s : State) : Prop where
  covered : ∀ {mask requests}, Watching s mask requests → Covered mask (s.send requests)
  idle : (∀ k, s.mask k = false) → s.call = none → Idle s

variable {s t : State}

theorem Watching.congr {mask : Kind → Bool} {requests : List Request}
    (watching : Watching t mask requests) (maskEq : t.mask = s.mask) (callEq : t.call = s.call) :
    Watching s mask requests := by
  cases watching with
  | mask some =>
      rw [maskEq] at some ⊢
      exact .mask some
  | adding called =>
      rw [maskEq]
      exact .adding (callEq ▸ called)

theorem Idle.fire (idle : Idle s) (k : Kind) (node : Bool) :
    Idle { s.fire k with node := node } := by
  constructor
  · simp [State.fire, idle.armed]
  · exact idle.outbox
  · simp [State.fire, idle.armed, idle.inbox]
  · exact idle.latch

theorem sound_init (node : Bool) : Sound (init node) := by
  constructor
  · intro mask requests watching
    cases watching with
    | mask some =>
        rcases some with ⟨k, inMask⟩
        exact absurd inMask Bool.false_ne_true
    | adding called => exact absurd called (by simp [init])
  · exact fun _ _ => ⟨rfl, rfl, rfl, rfl⟩

namespace Sound

/-- A step that leaves the masks as they are. -/
theorem keep (sound : Sound s) (maskEq : t.mask = s.mask) (callEq : t.call = s.call)
    (keeps : ∀ {mask requests}, Watching s mask requests → Covered mask (s.send requests) →
      Covered mask (t.send requests)) (idle : Idle s → Idle t) : Sound t := by
  constructor
  · intro mask requests watching
    have before := watching.congr maskEq callEq
    exact keeps before (sound.covered before)
  · rw [maskEq, callEq]
    exact fun empty noCall => idle (sound.idle empty noCall)

/-! ## The node -/

theorem create (sound : Sound s) (gone : s.node = false) (guarded : Guard s .create) :
    Sound { s.fire .create with node := true } := by
  refine sound.keep rfl rfl ?_ fun idle => idle.fire .create true
  intro mask requests watching covered
  rcases guarded mask requests watching with ⟨children, latch⟩
  have fired {w : Watch} (member : w ∈ s.armed) (isExistence : w = .existence) :
      .event .create ∈ (s.fire .create).inbox :=
    fire_mem member (by rw [isExistence, fires])
  apply Covered.create covered gone
  · intro inMask
    rcases children inMask with sent | told | ⟨notInMask, armed | told⟩
    · exact .of_request sent rfl
    · exact .of_message (List.mem_append_left _ told) (Or.inl rfl)
    · exact .of_message (fired armed rfl) (Or.inr ⟨rfl, notInMask⟩)
    · exact .of_message (List.mem_append_left _ told) (Or.inr ⟨rfl, notInMask⟩)
  · intro notInMask
    rcases latch with inMask | ⟨unmasked, armed⟩ | clear
    · exact absurd (inMask.symm.trans notInMask) (by decide)
    · apply latchAfter_create unmasked
      · exact List.ne_nil_of_mem (List.mem_map.mpr
          ⟨_, List.mem_filter.mpr ⟨armed, rfl⟩, rfl⟩)
      · intro m member
        rcases List.mem_map.mp member with ⟨w, -, rfl⟩
        rfl
    · apply latchAfter_append clear
      intro m member
      rcases List.mem_map.mp member with ⟨w, -, rfl⟩
      cases inMask : mask .create <;> simp [reply, inMask]

theorem delete (sound : Sound s) (present : s.node = true) (guarded : Guard s .delete) :
    Sound { s.fire .delete with node := false } := by
  refine sound.keep rfl rfl ?_ fun idle => idle.fire .delete false
  intro mask requests watching covered
  exact covered.delete present (guarded mask requests watching)

theorem set (sound : Sound s) (present : s.node = true) (guarded : Guard s .set) :
    Sound (s.fire .change) := by
  refine sound.keep rfl rfl ?_ fun idle => idle.fire .change s.node
  intro mask requests watching covered
  exact covered.set present (guarded mask requests watching)

theorem childChange (sound : Sound s) (present : s.node = true) : Sound (s.fire .child) := by
  refine sound.keep rfl rfl ?_ fun idle => idle.fire .child s.node
  intro mask requests _ covered
  exact covered.childChange present

/-! ## Requests and messages -/

theorem serve (sound : Sound s) {r : Request} {rest : List Request}
    (next : s.outbox = r :: rest) : Sound ({ s with outbox := rest }.serve r) := by
  refine sound.keep rfl rfl ?_ ?_
  · intro mask requests _ covered
    have later : (s.send requests).outbox = r :: (rest ++ requests) := by
      rw [State.send, next, List.cons_append]
    exact covered.serve later
  · exact fun idle => absurd (next.symm.trans idle.outbox) (List.cons_ne_nil _ _)

theorem deliver (sound : Sound s) {m : Message} {rest : List Message}
    (next : s.inbox = m :: rest) (guarded : Guard s .deliver) :
    Sound ({ s with inbox := rest }.handle m) := by
  rw [handle_eq]
  refine sound.keep rfl rfl ?_ ?_
  · intro mask requests watching covered
    have some : ∃ k, mask k = true := by
      cases watching with
      | mask some => exact some
      | @adding c _ =>
          rcases c.some with ⟨k, flagged⟩
          exact ⟨k, Bool.or_eq_true_iff.mpr (Or.inr flagged)⟩
    have knownLe : ∀ k, s.mask k = true → mask k = true := by
      cases watching with
      | mask => exact fun _ inMask => inMask
      | adding => exact fun _ inMask => Covered.mask_le_union inMask
    have answered : ∀ k, m = .event k → Answered s.mask mask (s.send requests) k :=
      fun k isEvent => guarded mask requests watching k rest (isEvent ▸ next)
    have handled := covered.deliver some next knownLe answered
    refine handled.mono rfl rfl rfl rfl ?_
    intro r member
    simp only [after, State.send, List.mem_append] at member ⊢
    exact or_right_comm.mp member
  · exact fun idle => absurd (next.symm.trans idle.inbox) (List.cons_ne_nil _ _)

/-! ## The calls of `addWatch` -/

theorem mask_covered (sound : Sound s) (some : ∃ k, s.mask k = true) : Covered s.mask s := by
  refine (sound.covered (.mask some)).mono rfl rfl rfl rfl ?_
  rw [State.send, List.append_nil]
  exact List.Subset.refl _

/-- Another thread sends a request. -/
theorem send (sound : Sound s) {c : Call} {r : Request} {rest : List Request}
    (called : s.call = some c) (requests : c.requests = r :: rest) :
    Sound { s.send [r] with call := some { c with requests := rest } } := by
  constructor
  · intro mask requests' watching
    cases watching with
    | mask some =>
        refine (sound.covered (.mask some)).mono rfl rfl rfl rfl ?_
        simp [State.send]
    | adding called' =>
        obtain rfl := Option.some.inj called'
        refine (sound.covered (.adding called)).mono rfl rfl rfl rfl ?_
        simp [State.send, requests]
  · exact fun _ noCall => absurd noCall (by simp)

/-- And sets the mask when it has sent them. -/
theorem setMask (sound : Sound s) {c : Call} (called : s.call = some c)
    (requests : c.requests = []) :
    Sound { s with mask := union s.mask c.flags, call := none } := by
  constructor
  · intro mask requests' watching
    cases watching with
    | mask =>
        have covered := sound.covered (.adding called)
        rw [requests] at covered
        exact covered.mono rfl rfl rfl rfl (List.Subset.refl _)
    | adding noCall => exact absurd noCall (by simp)
  · intro empty _
    rcases c.some with ⟨k, flagged⟩
    exact absurd ((Bool.or_eq_false_iff.mp (empty k)).2.symm.trans flagged) (by decide)

/-- The session expires. -/
theorem expire (guarded : Guard s .expire) : Sound s.expire := by
  constructor
  · intro mask requests watching
    have clear : s.expire.node = true → mask .delete = false →
        latchAfter mask false [] = false := fun _ _ => rfl
    cases watching with
    | mask some =>
        exact .of_asked some (List.subset_append_left _ _) rfl clear
    | @adding c called =>
        rcases c.some with ⟨k, flagged⟩
        refine .of_asked ⟨k, Bool.or_eq_true_iff.mpr (Or.inr flagged)⟩ ?_ rfl clear
        exact guarded c called
  · intro empty noCall
    have noFlags : State.requestsFor s.mask = [] := by
      have unset : ∀ k, s.mask k = false := empty
      simp [State.requestsFor, unset]
    refine ⟨rfl, ?_, rfl, rfl⟩
    simp [State.expire, State.nodeExists, State.send, noFlags]

end Sound

theorem Sound.addWatch (sound : Sound s) {flags : Kind → Bool} (some : ∃ k, flags k = true)
    (noCall : s.call = none) (guarded : Guard s (.addWatch flags)) :
    Sound { s with call := Option.some ⟨flags, State.requestsFor flags, some⟩ } := by
  constructor
  · intro mask requests watching
    cases watching with
    | mask inMask => exact (sound.covered (.mask inMask)).mono rfl rfl rfl rfl (List.Subset.refl _)
    | adding called =>
        obtain rfl := Option.some.inj called
        by_cases inMask : ∃ k, s.mask k = true
        · have covered := (sound.mask_covered inMask).add guarded
          exact covered.mono rfl rfl rfl rfl (List.Subset.refl _)
        · have empty : ∀ k, s.mask k = false := fun k =>
            eq_false_of_ne_true fun isIn => inMask ⟨k, isIn⟩
          have idle := sound.idle empty noCall
          have same : union s.mask flags = flags := by
            funext k
            simp [union, empty k]
          rw [same]
          refine .of_asked some (List.subset_append_right _ _) idle.latch fun _ _ => ?_
          rw [State.send, idle.latch, idle.inbox]
          rfl
  · exact fun _ called => absurd called (by simp)

/-- The step lemma. -/
theorem Sound.step {event : Event} (sound : Sound s) (guarded : Guard s event)
    (taken : Step s event t) : Sound t := by
  cases taken with
  | create gone => exact sound.create gone guarded
  | delete present => exact sound.delete present guarded
  | set present => exact sound.set present guarded
  | childChange present => exact sound.childChange present
  | serve next => exact sound.serve next
  | fail => exact absurd guarded not_false
  | deliver next => exact sound.deliver next guarded
  | addWatch some noCall => exact sound.addWatch some noCall guarded
  | send called requests => exact sound.send called requests
  | setMask called requests => exact sound.setMask called requests
  | expire => exact expire guarded

/-! ## What is on its way -/

/-- How much a request can lead to, its completion included. -/
def Request.weight (r : Request) : Nat := if r.isExists then 2 else 4

/-- How much a message can lead to. -/
def Message.weight : Message → Nat
  | .event _ => 11
  | .complete r .noNode => if r.isExists then 1 else 3
  | .complete _ _ => 1

/-- How much is still to come. -/
def weight (s : State) : Nat :=
  (s.outbox.map Request.weight).sum + (s.inbox.map Message.weight).sum

theorem weight_requestsFor (flags : Kind → Bool) :
    ((State.requestsFor flags).map Request.weight).sum ≤ 10 := by
  rw [State.requestsFor]
  cases flags .change <;> cases flags .child <;> cases flags .create <;>
    cases flags .delete <;> decide

theorem weight_check (latch : Bool) : ((check latch).map Request.weight).sum ≤ 2 := by
  cases latch <;> decide

/-- A message leads to less than it weighs. -/
theorem weight_reply (mask : Kind → Bool) (latch : Bool) (m : Message) :
    ((reply mask latch m).1.map Request.weight).sum < m.weight := by
  have checked := weight_check latch
  have asked (flags : Kind → Bool) := weight_requestsFor flags
  cases m with
  | complete r rc =>
      cases r <;> cases rc <;> simp [reply, Message.weight, Request.isExists] <;> omega
  | event k =>
      cases inMask : mask k with
      | true =>
          have light : (rewatch k).weight < 11 := by cases k <;> decide
          rw [reply_inMask inMask]
          exact light
      | false =>
          cases k with
          | create =>
              rw [reply_create inMask]
              exact Nat.lt_succ_of_le (asked mask)
          | delete =>
              rw [reply_delete inMask]
              exact Nat.lt_of_le_of_lt checked (by decide)
          | change | child => simp [reply, inMask, Message.weight]

theorem weight_serve {r : Request} {rest : List Request} (next : s.outbox = r :: rest) :
    weight ({ s with outbox := rest }.serve r) < weight s := by
  have completes : (Message.complete r (if s.node then .ok else .noNode)).weight < r.weight := by
    cases s.node <;> cases r <;> decide
  simp only [weight, State.serve, next, List.map_append, List.map_cons, List.map_nil,
    List.sum_append, List.sum_cons, List.sum_nil]
  omega

theorem weight_handle {m : Message} {rest : List Message} (next : s.inbox = m :: rest) :
    weight ({ s with inbox := rest }.handle m) < weight s := by
  have less := weight_reply s.mask s.latch m
  rw [handle_eq]
  simp only [weight, next, List.map_append, List.map_cons, List.sum_append, List.sum_cons]
  omega

/-- Everything that is on its way arrives. -/
theorem exists_settles (s : State) : ∃ t, Settles s t := by
  induction weightEq : weight s using Nat.strongRecOn generalizing s with
  | ind n ih =>
      subst weightEq
      rcases outboxEq : s.outbox with _ | ⟨r, rest⟩
      · rcases inboxEq : s.inbox with _ | ⟨m, rest⟩
        · exact ⟨s, ⟨[], Run.refl⟩, outboxEq, inboxEq⟩
        · rcases ih _ (weight_handle inboxEq) _ rfl with ⟨t, ⟨events, run⟩, outbox, inbox⟩
          have arriving : arrives s .deliver := trivial
          exact ⟨t, ⟨_, Run.cons arriving (Step.deliver inboxEq) run⟩, outbox, inbox⟩
      · rcases ih _ (weight_serve outboxEq) _ rfl with ⟨t, ⟨events, run⟩, outbox, inbox⟩
        have arriving : arrives s .serve := trivial
        exact ⟨t, ⟨_, Run.cons arriving (Step.serve outboxEq) run⟩, outbox, inbox⟩

/-! ## Watchers that stay awake -/

theorem sends_iff {m : Message} : Sends s m ↔ (reply s.mask s.latch m).1 ≠ [] := by
  rw [Sends, handle_eq]
  exact not_congr List.append_right_eq_self

theorem sends_inMask {k : Kind} (inMask : s.mask k = true) : Sends s (.event k) := by
  rw [sends_iff, reply_inMask inMask]
  exact List.cons_ne_nil _ _

theorem sends_create (some : ∃ k, s.mask k = true) : Sends s (.event .create) := by
  cases inMask : s.mask .create with
  | true => exact sends_inMask inMask
  | false =>
      rw [sends_iff, reply_create inMask]
      rcases some with ⟨k, flagged⟩
      have sent : rewatch k ∈ State.requestsFor s.mask := by
        cases k with
        | create => exact watchExists_mem (Or.inl flagged)
        | delete => exact watchExists_mem (Or.inr flagged)
        | change => exact watchData_mem flagged
        | child => exact watchChildren_mem flagged
      exact List.ne_nil_of_mem sent

theorem sends_delete (clear : s.mask .delete = false → s.latch = false) :
    Sends s (.event .delete) := by
  cases inMask : s.mask .delete with
  | true => exact sends_inMask inMask
  | false =>
      rw [sends_iff, reply_delete inMask, clear inMask]
      exact List.cons_ne_nil _ _

namespace Covered

/-- A watcher keeps its tokens while what is on its way arrives. -/
theorem arrives_step {event : Event} (covered : Covered s.mask s) (some : ∃ k, s.mask k = true)
    (arriving : arrives s event) (taken : Step s event t) :
    (∃ k, t.mask k = true) ∧ Covered t.mask t := by
  cases taken with
  | serve next => exact ⟨some, covered.serve next⟩
  | deliver next =>
      rw [handle_eq]
      have handled := covered.deliver some next (fun _ inMask => inMask) fun k _ => answered_self k
      exact ⟨some, handled⟩
  | _ => exact absurd arriving not_false

/-- With nothing on its way, what the watcher needs is a watch. -/
theorem watch_armed {tokens : Tokens} (covered : Covered s.mask s) (outbox : s.outbox = [])
    (inbox : s.inbox = []) (needs : Needs s.mask s.latch s.node tokens) :
    ∃ w ∈ s.armed, tokens.watch w := by
  rcases covered.needs needs with watch | ⟨r, member, -⟩ | ⟨m, member, -⟩
  · exact watch
  · exact absurd (outbox ▸ member) List.not_mem_nil
  · exact absurd (inbox ▸ member) List.not_mem_nil

/-- The tokens are enough. -/
theorem hears (covered : Covered s.mask s) (some : ∃ k, s.mask k = true) (outbox : s.outbox = [])
    (inbox : s.inbox = []) : Hears s := by
  intro k relevant
  rcases exists_needs s.mask s.latch s.node with ⟨tokens, needs⟩
  rcases covered.watch_armed outbox inbox needs with ⟨w, member, watches⟩
  cases k with
  | create =>
      have gone : s.node = false := relevant
      have isExistence : w = .existence := by
        rw [gone] at needs
        cases needs <;> exact watches
      exact ⟨⟨w, member, by rw [isExistence, fires]⟩, sends_create some⟩
  | delete =>
      refine ⟨⟨w, member, rfl⟩, sends_delete fun notInMask => ?_⟩
      have clear := covered.latch relevant notInMask
      rwa [inbox] at clear
  | change =>
      rcases relevant with ⟨present, inMask⟩
      have needed : Needs s.mask s.latch s.node (dataChange s.mask s.latch) :=
        present ▸ .dataChange inMask
      rcases covered.watch_armed outbox inbox needed with ⟨w, member, notChildren⟩
      refine ⟨⟨w, member, ?_⟩, sends_inMask inMask⟩
      cases w with
      | data | existence => rfl
      | children => exact absurd rfl notChildren
  | child =>
      rcases relevant with ⟨present, inMask⟩
      have needed : Needs s.mask s.latch s.node (ZkWatcher.childChange s.mask) :=
        present ▸ .childChange inMask
      rcases covered.watch_armed outbox inbox needed with ⟨w, member, rfl⟩
      exact ⟨⟨.children, member, rfl⟩, sends_inMask inMask⟩

end Covered

/-- In a guarded run the watcher never goes deaf. -/
theorem not_deaf_of_guarded {node : Bool} {events : List Event}
    (run : Run Step Guard (init node) events s) : NotDeaf s := by
  have sound : Sound s :=
    run.invariant (sound_init node) fun _ _ _ sound guarded taken => sound.step guarded taken
  intro some
  refine ⟨exists_settles s, ?_⟩
  rintro t ⟨⟨arriving, settling⟩, outbox, inbox⟩
  have settled : (∃ k, t.mask k = true) ∧ Covered t.mask t := by
    refine @Run.invariant _ _ _ _ (fun s => (∃ k, s.mask k = true) ∧ Covered s.mask s) _ _ _
      ?_ ?_ settling
    · exact ⟨some, sound.mask_covered some⟩
    · exact fun _ _ _ kept arriving taken => kept.2.arrives_step kept.1 arriving taken
  exact settled.2.hears settled.1 outbox inbox

/-! ## Runs -/

/-- A call of `addWatch` for the children that has sent its request. -/
def childCall : Call := ⟨State.only .child, [], ⟨.child, rfl⟩⟩

/-- A watcher of the children. -/
def watching (node : Bool) (armed : List Watch) (latch : Bool) (outbox : List Request)
    (inbox : List Message) : State :=
  ⟨node, armed, union (fun _ => false) (State.only .child), latch, outbox, inbox, none⟩

theorem guard_complete {r : Request} {rc : Rc} {rest : List Message}
    (next : s.inbox = .complete r rc :: rest) : Guard s .deliver := by
  intro _ _ _ k rest' isEvent
  exact absurd (next.symm.trans isEvent) (by simp)

/-- Without a call of `addWatch`, every event is answered. -/
theorem guard_event (noCall : s.call = none) : Guard s .deliver := by
  intro mask requests watches k _ _
  cases watches with
  | mask => exact Covered.answered_self k
  | adding called => exact absurd (noCall.symm.trans called) (by simp)

/-- An existing node is deleted and created again, and its children are watched again. -/
theorem not_deaf_of_guarded_again :
    ∃ s, Run Step Guard (init true) [.addWatch (State.only .child), .send, .setMask, .serve,
        .deliver, .delete, .deliver, .serve, .deliver, .create, .deliver] s ∧
      s.outbox = [.watchChildren] ∧ s.latch = false ∧ NotDeaf s := by
  have created : Guard (watching false [.existence] true [] []) .create := by
    intro mask requests watches
    have armed : Watch.existence ∈ [Watch.existence] := List.mem_singleton.mpr rfl
    cases watches with
    | mask => exact ⟨fun _ => Or.inr (Or.inr ⟨rfl, Or.inl armed⟩), Or.inr (Or.inl ⟨rfl, armed⟩)⟩
    | adding called => exact absurd called (by simp [watching])
  have asks : Run Step Guard (init true) [.addWatch (State.only .child), .send, .setMask]
      (watching true [] false [.watchChildren] []) := by
    apply Run.cons (fun _ flagged => absurd flagged (by decide)) (Step.addWatch ⟨.child, rfl⟩ rfl)
    apply Run.cons trivial (Step.send rfl rfl)
    exact Run.single trivial (Step.setMask (c := childCall) rfl rfl)
  have deletes : Run Step Guard (watching true [] false [.watchChildren] [])
      [.serve, .deliver, .delete, .deliver] (watching false [] true [.watchCreate] []) := by
    apply Run.cons trivial (Step.serve rfl)
    apply Run.cons (guard_complete rfl) (Step.deliver rfl)
    apply Run.cons (fun _ _ _ => Or.inl rfl) (Step.delete rfl)
    exact Run.single (guard_event rfl) (Step.deliver (m := .event .delete) rfl)
  have creates : Run Step Guard (watching false [] true [.watchCreate] [])
      [.serve, .deliver, .create, .deliver] (watching true [] false [.watchChildren] []) := by
    apply Run.cons trivial (Step.serve rfl)
    apply Run.cons (guard_complete rfl) (Step.deliver rfl)
    apply Run.cons created (Step.create rfl)
    exact Run.single (guard_event rfl) (Step.deliver (m := .event .create) rfl)
  have run := (asks.trans deletes).trans creates
  exact ⟨_, run, rfl, rfl, not_deaf_of_guarded run⟩

theorem not_notDeaf {node latch : Bool} {armed : List Watch} (present : node = true)
    (unwatched : .children ∉ armed) : ¬NotDeaf (watching node armed latch [] []) := by
  intro notDeaf
  have settled : Settles (watching node armed latch [] []) (watching node armed latch [] []) :=
    ⟨⟨[], Run.refl⟩, rfl, rfl⟩
  rcases ((notDeaf ⟨.child, rfl⟩).2 _ settled .child ⟨present, rfl⟩).1 with ⟨w, member, fired⟩
  cases w with
  | children => exact unwatched member
  | data | existence => exact absurd fired (by decide)

/-- The node is created between the completion of the first request and the `exists` of
`checkExists`, which nothing answers.  No request fails. -/
theorem deaf_after_creation :
    ∃ s, Run Step anyStep (init false) [.addWatch (State.only .child), .send, .setMask, .serve,
        .create, .deliver, .serve, .deliver] s ∧ ¬NotDeaf s := by
  refine ⟨watching true [.existence] true [] [], ?_, not_notDeaf rfl (by decide)⟩
  apply Run.cons trivial (Step.addWatch ⟨.child, rfl⟩ rfl)
  apply Run.cons trivial (Step.send rfl rfl)
  apply Run.cons trivial (Step.setMask (c := childCall) rfl rfl)
  apply Run.cons trivial (Step.serve rfl)
  apply Run.cons trivial (Step.create rfl)
  apply Run.cons trivial (Step.deliver (m := .complete .watchChildren .noNode) rfl)
  apply Run.cons trivial (Step.serve rfl)
  exact Run.single trivial (Step.deliver (m := .complete .watchCreate .ok) rfl)

/-- The children change, and the event is handled, before `addWatch` sets the mask. -/
theorem deaf_after_early_event :
    ∃ s, Run Step anyStep (init true) [.addWatch (State.only .child), .send, .serve, .childChange,
        .deliver, .deliver, .setMask] s ∧ ¬NotDeaf s := by
  refine ⟨watching true [] false [] [], ?_, not_notDeaf rfl (by decide)⟩
  apply Run.cons trivial (Step.addWatch ⟨.child, rfl⟩ rfl)
  apply Run.cons trivial (Step.send rfl rfl)
  apply Run.cons trivial (Step.serve rfl)
  apply Run.cons trivial (Step.childChange rfl)
  apply Run.cons trivial (Step.deliver (m := .complete .watchChildren .ok) rfl)
  apply Run.cons trivial (Step.deliver (m := .event .child) rfl)
  exact Run.single trivial (Step.setMask (c := childCall) rfl rfl)

/-- Both ways to go deaf. -/
theorem goes_deaf :
    (∃ s, Run Step anyStep (init false) [.addWatch (State.only .child), .send, .setMask, .serve,
        .create, .deliver, .serve, .deliver] s ∧ ¬NotDeaf s) ∧
      ∃ s, Run Step anyStep (init true) [.addWatch (State.only .child), .send, .serve,
        .childChange, .deliver, .deliver, .setMask] s ∧ ¬NotDeaf s :=
  ⟨deaf_after_creation, deaf_after_early_event⟩

end ZkWatcher

end GPush.Discovery
