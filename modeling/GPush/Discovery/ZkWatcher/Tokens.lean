import GPush.Discovery.ZkWatcher.Core

/-!
# What keeps a watcher awake

For each thing that a watcher needs there are tokens: watches, requests and messages that
lead to it while the node stays as it is.  A change of the node uses some of them up, and
leaves others.
-/

namespace GPush.Discovery

namespace ZkWatcher

/-! ## The callbacks -/

/-- What `ZKWatcher::checkExists` sends. -/
def check (latch : Bool) : List Request := if latch then [] else [.watchCreate]

/-- What the callback for a message sends, and what it leaves in `m_check_exists`. -/
def reply (mask : Kind → Bool) (latch : Bool) : Message → List Request × Bool
  | .complete .watchData .noNode => (check latch, true)
  | .complete .watchChildren .noNode => (check latch, true)
  | .complete _ _ => ([], latch)
  | .event .delete =>
      if mask .delete then (State.requestsFor (State.only .delete), latch) else (check latch, true)
  | .event .create =>
      if mask .create then (State.requestsFor (State.only .create), latch)
      else (State.requestsFor mask, false)
  | .event k => (if mask k then State.requestsFor (State.only k) else [], latch)

/-- `m_check_exists` when the messages have been handled. -/
def latchAfter (mask : Kind → Bool) (latch : Bool) (inbox : List Message) : Bool :=
  inbox.foldl (fun latch m => (reply mask latch m).2) latch

/-- The request for an event. -/
def rewatch : Kind → Request
  | .change => .watchData
  | .child => .watchChildren
  | _ => .watchExists

theorem requestsFor_only (k : Kind) : State.requestsFor (State.only k) = [rewatch k] := by
  cases k <;> rfl

/-- An event of the mask is watched again. -/
theorem reply_inMask {mask : Kind → Bool} {k : Kind} (inMask : mask k = true) (latch : Bool) :
    reply mask latch (.event k) = ([rewatch k], latch) := by
  cases k <;> simp [reply, inMask, requestsFor_only]

theorem reply_create {mask : Kind → Bool} (unknown : mask .create = false) (latch : Bool) :
    reply mask latch (.event .create) = (State.requestsFor mask, false) := by
  simp [reply, unknown]

theorem reply_delete {mask : Kind → Bool} (unknown : mask .delete = false) (latch : Bool) :
    reply mask latch (.event .delete) = (check latch, true) := by
  simp [reply, unknown]

theorem union_only {mask : Kind → Bool} {k : Kind} (inMask : mask k = true) :
    union mask (State.only k) = mask := by
  funext k'
  by_cases same : k' = k
  · subst same
    simp [union, inMask]
  · simp [union, State.only, same]

theorem checkExists_eq (s : State) :
    s.checkExists = { s with outbox := s.outbox ++ check s.latch, latch := true } := by
  rcases s with ⟨node, armed, mask, latch, outbox, inbox, call⟩
  cases latch <;> simp [State.checkExists, check, State.send]

/-- An event of the mask is watched again. -/
theorem addWatch_only {s : State} {k : Kind} (inMask : s.mask k = true) :
    s.addWatch (State.only k) = s.send (State.requestsFor (State.only k)) := by
  rw [State.addWatch, union_only inMask]
  rfl

/-- The callbacks change nothing else. -/
theorem handle_eq (s : State) (m : Message) : s.handle m = { s with
    outbox := s.outbox ++ (reply s.mask s.latch m).1
    latch := (reply s.mask s.latch m).2 } := by
  have nothing : s = { s with outbox := s.outbox ++ [], latch := s.latch } := by
    rw [List.append_nil]
  cases m with
  | complete r rc =>
      cases r with
      | watchData | watchChildren =>
          cases rc with
          | noNode => exact checkExists_eq s
          | ok | other => exact nothing
      | watchExists | watchCreate => exact nothing
  | event k =>
      cases inMask : s.mask k with
      | true =>
          have again := addWatch_only inMask
          cases k <;> simp [State.handle, State.handleEvent, reply, inMask, again, State.send]
      | false =>
          cases k with
          | create =>
              simp [State.handle, State.handleEvent, reply, inMask, State.nodeExists, State.send]
          | delete => simp [State.handle, State.handleEvent, reply, inMask, checkExists_eq]
          | change | child => simp [State.handle, State.handleEvent, reply, inMask]

theorem reply_mono {mask : Kind → Bool} (m : Message) (clear : (reply mask true m).2 = false) :
    (reply mask false m).2 = false := by
  cases m with
  | complete r rc => cases r <;> cases rc <;> simp_all [reply]
  | event k => cases inMask : mask k <;> cases k <;> simp_all [reply]

/-- What is clear is not set by being clear before. -/
theorem latchAfter_mono {mask : Kind → Bool} {inbox : List Message}
    (clear : latchAfter mask true inbox = false) : latchAfter mask false inbox = false := by
  induction inbox with
  | nil => exact absurd clear (by simp [latchAfter])
  | cons m rest ih =>
      simp only [latchAfter, List.foldl_cons] at clear ih ⊢
      cases latchEq : (reply mask true m).2 with
      | true =>
          rw [latchEq] at clear
          cases (reply mask false m).2 with
          | true => exact clear
          | false => exact ih clear
      | false =>
          rw [latchEq] at clear
          rwa [reply_mono m latchEq]

/-- Messages that leave it clear. -/
theorem latchAfter_append {mask : Kind → Bool} {latch : Bool} {inbox more : List Message}
    (clear : latchAfter mask latch inbox = false)
    (leaves : ∀ m ∈ more, (reply mask false m).2 = false) :
    latchAfter mask latch (inbox ++ more) = false := by
  rw [latchAfter, List.foldl_append]
  rw [latchAfter] at clear
  rw [clear]
  induction more with
  | nil => rfl
  | cons m more ih =>
      rw [List.foldl_cons, leaves m List.mem_cons_self]
      exact ih fun m' member => leaves m' (List.mem_cons_of_mem _ member)

/-- A created event clears it when the created event is not in the mask. -/
theorem latchAfter_create {mask : Kind → Bool} {latch : Bool} {inbox more : List Message}
    (notInMask : mask .create = false) (some : more ≠ [])
    (created : ∀ m ∈ more, m = .event .create) : latchAfter mask latch (inbox ++ more) = false := by
  have leaves : ∀ m ∈ more, (reply mask false m).2 = false := by
    intro m member
    rw [created m member, reply_create notInMask]
  rcases more with _ | ⟨m, more⟩
  · exact absurd rfl some
  · rw [← List.singleton_append, ← List.append_assoc]
    apply latchAfter_append _ fun m' member => leaves m' (List.mem_cons_of_mem _ member)
    rw [latchAfter, List.foldl_append, created m List.mem_cons_self]
    exact congrArg Prod.snd (reply_create notInMask _)

/-- What is set is only cleared by a created event. -/
theorem create_mem_of_clear {mask : Kind → Bool} {inbox : List Message}
    (clear : latchAfter mask true inbox = false) : .event .create ∈ inbox := by
  induction inbox with
  | nil => exact absurd clear (by simp [latchAfter])
  | cons m rest ih =>
      cases latchEq : (reply mask true m).2 with
      | true =>
          simp only [latchAfter, List.foldl_cons, latchEq] at clear ih
          exact List.mem_cons_of_mem _ (ih clear)
      | false =>
          have isCreate : m = .event .create := by
            cases m with
            | complete r rc => cases r <;> cases rc <;> simp_all [reply]
            | event k => cases inMask : mask k <;> cases k <;> simp_all [reply]
          exact isCreate ▸ List.mem_cons_self

/-! ## Tokens -/

/-- The watches, requests and messages that lead to something. -/
structure Tokens where
  watch : Watch → Prop
  request : Request → Prop
  message : Message → Prop

/-- One of them is there. -/
def Holds (tokens : Tokens) (s : State) : Prop :=
  (∃ w ∈ s.armed, tokens.watch w) ∨ (∃ r ∈ s.outbox, tokens.request r) ∨
    ∃ m ∈ s.inbox, tokens.message m

/-- A request has found no node. -/
def Gone (m : Message) : Prop :=
  m = .complete .watchData .noNode ∨ m = .complete .watchChildren .noNode

/-- What leads to a watch of `exists`.  With a created event it may be one of `get` instead. -/
def existence (mask : Kind → Bool) (latch : Bool) : Tokens where
  watch w := w = .existence
  request r := r.isExists = true
  message m := m = .event .create ∨
    m = .event .delete ∧ (mask .delete = true ∨ latch = false) ∨ Gone m ∧ latch = false

/-- What leads to a watch of `exists` or of `get`, at a node. -/
def dataChange (mask : Kind → Bool) (latch : Bool) : Tokens where
  watch w := w ≠ .children
  request r := r ≠ .watchChildren
  message m := (existence mask latch).message m ∨ m = .event .change

/-- What leads to a watch of `get_children`, at a node. -/
def childChange (mask : Kind → Bool) : Tokens where
  watch w := w = .children
  request r := r = .watchChildren
  message m := m = .event .child ∨ m = .event .create ∧ mask .create = false

/-- What leads to a watch of `exists` when there is no node, where `r` is sent again for `k`. -/
def absence (mask : Kind → Bool) (latch : Bool) (r : Request) (k : Kind) : Tokens where
  watch w := w = .existence
  request r' := r'.isExists = true ∨ r' = r ∧ latch = false
  message m := (existence mask latch).message m ∨ m = .event k ∧ latch = false

/-- What a watcher with the mask needs. -/
inductive Needs (mask : Kind → Bool) (latch : Bool) : Bool → Tokens → Prop
  | existence {node : Bool} : mask .change = false → mask .child = false →
      Needs mask latch node (existence mask latch)
  | dataChange : mask .change = true → Needs mask latch true (dataChange mask latch)
  | childChange : mask .child = true → Needs mask latch true (childChange mask)
  | noData : mask .change = true →
      Needs mask latch false (absence mask latch .watchData .change)
  | noChildren : mask .child = true →
      Needs mask latch false (absence mask latch .watchChildren .child)

section Needs

variable {mask : Kind → Bool} {latch node : Bool} {tokens : Tokens}

theorem complete_token {r : Request} {rc : Rc} (needs : Needs mask latch node tokens)
    (isToken : tokens.message (.complete r rc)) : Gone (.complete r rc) ∧ latch = false := by
  cases needs <;> simp_all [existence, dataChange, childChange, absence]

/-- An event of the mask is a token of what its request is a token of. -/
theorem request_token {k : Kind} (needs : Needs mask latch node tokens)
    (isToken : tokens.message (.event k)) (inMask : mask k = true) :
    tokens.request (rewatch k) := by
  cases needs with
  | existence noChange noChild | dataChange noChange | childChange noChange =>
      cases k <;>
        simp_all [existence, dataChange, childChange, Gone, rewatch, Request.isExists]
  | noData | noChildren =>
      cases k <;> simp_all [existence, absence, Gone, rewatch, Request.isExists]

/-- Another event is a token of nothing, except where `nodeExists` or `checkExists` answers. -/
theorem event_token {k : Kind} (needs : Needs mask latch node tokens)
    (isToken : tokens.message (.event k)) :
    mask k = true ∨ k = .create ∨ k = .delete ∧ latch = false := by
  cases needs with
  | existence | dataChange | childChange | noData | noChildren =>
      cases k <;> simp_all [existence, dataChange, childChange, absence, Gone]

end Needs

/-- It has what it needs, and `m_check_exists` does not stay set at a node, unless the deletion
of the node is in the mask. -/
structure Covered (mask : Kind → Bool) (s : State) : Prop where
  needs : ∀ {tokens}, Needs mask s.latch s.node tokens → Holds tokens s
  latch : s.node = true → mask .delete = false → latchAfter mask s.latch s.inbox = false

theorem watch_of_isExists {r : Request} (isExists : r.isExists = true) : r.watch = .existence := by
  cases r with
  | watchData | watchChildren => exact absurd isExists (by decide)
  | watchExists | watchCreate => rfl

section Holds

variable {tokens weaker : Tokens} {s t : State}

theorem Holds.mono (holds : Holds tokens s) (armed : s.armed ⊆ t.armed)
    (outbox : s.outbox ⊆ t.outbox) (inbox : s.inbox ⊆ t.inbox) : Holds tokens t := by
  rcases holds with ⟨w, member, token⟩ | ⟨r, member, token⟩ | ⟨m, member, token⟩
  · exact Or.inl ⟨w, armed member, token⟩
  · exact Or.inr (Or.inl ⟨r, outbox member, token⟩)
  · exact Or.inr (Or.inr ⟨m, inbox member, token⟩)

/-- Tokens that lead to more. -/
theorem Holds.weaken (holds : Holds tokens s) (watch : ∀ w, tokens.watch w → weaker.watch w)
    (request : ∀ r, tokens.request r → weaker.request r)
    (message : ∀ m, tokens.message m → weaker.message m) : Holds weaker s := by
  rcases holds with ⟨w, member, token⟩ | ⟨r, member, token⟩ | ⟨m, member, token⟩
  · exact Or.inl ⟨w, member, watch w token⟩
  · exact Or.inr (Or.inl ⟨r, member, request r token⟩)
  · exact Or.inr (Or.inr ⟨m, member, message m token⟩)

theorem Holds.of_request {r : Request} (sent : r ∈ s.outbox) (token : tokens.request r) :
    Holds tokens s :=
  Or.inr (Or.inl ⟨r, sent, token⟩)

theorem Holds.of_message {m : Message} (sent : m ∈ s.inbox) (token : tokens.message m) :
    Holds tokens s :=
  Or.inr (Or.inr ⟨m, sent, token⟩)

theorem fire_mem {k : Kind} {w : Watch} (member : w ∈ s.armed) (fired : fires k w = true) :
    .event k ∈ (s.fire k).inbox := by
  apply List.mem_append_right
  exact List.mem_map.mpr ⟨w, List.mem_filter.mpr ⟨member, fired⟩, rfl⟩

/-- The node changes: a watch that fires leaves its event, and another one stays. -/
theorem Holds.fire {k : Kind} {node : Bool} (holds : Holds tokens s)
    (fired : ∀ w ∈ s.armed, tokens.watch w → fires k w = true → weaker.message (.event k))
    (stays : ∀ w, tokens.watch w → fires k w = false → weaker.watch w)
    (request : ∀ r ∈ s.outbox, tokens.request r → weaker.request r)
    (message : ∀ m, tokens.message m → weaker.message m) :
    Holds weaker { s.fire k with node := node } := by
  rcases holds with ⟨w, member, token⟩ | ⟨r, member, token⟩ | ⟨m, member, token⟩
  · cases firesEq : fires k w with
    | true => exact .of_message (fire_mem member firesEq) (fired w member token firesEq)
    | false =>
        refine Or.inl ⟨w, List.mem_filter.mpr ⟨member, ?_⟩, stays w token firesEq⟩
        simp [firesEq]
  · exact .of_request member (request r member token)
  · exact .of_message (List.mem_append_left _ member) (message m token)

/-- While the node stays, only the watches that fire matter. -/
theorem Holds.fire_here {k : Kind} (holds : Holds tokens s)
    (fired : ∀ w ∈ s.armed, tokens.watch w → fires k w = true → tokens.message (.event k)) :
    Holds tokens (s.fire k) :=
  holds.fire fired (fun _ token _ => token) (fun _ _ token => token) fun _ token => token

/-- A request that is carried out leaves its watch or its completion. -/
theorem Holds.serve {r : Request} {rest : List Request} (holds : Holds tokens s)
    (next : s.outbox = r :: rest)
    (served : tokens.request r → (s.node || r.isExists) = true ∧ tokens.watch r.watch ∨
      tokens.message (.complete r (if s.node then .ok else .noNode))) :
    Holds tokens ({ s with outbox := rest }.serve r) := by
  rcases holds with ⟨w, member, token⟩ | ⟨r', member, token⟩ | ⟨m, member, token⟩
  · exact Or.inl ⟨w, List.mem_append_left _ member, token⟩
  · rw [next] at member
    rcases List.mem_cons.mp member with rfl | later
    · rcases served token with ⟨leaves, watch⟩ | message
      · refine Or.inl ⟨r'.watch, List.mem_append_right _ ?_, watch⟩
        simp [leaves]
      · exact .of_message (List.mem_append_right _ (List.mem_singleton.mpr rfl)) message
    · exact .of_request later token
  · exact .of_message (List.mem_append_left _ member) token

/-- The message delivered is a token, or one is left. -/
theorem Holds.next {m : Message} {rest : List Message} (holds : Holds tokens s)
    (next : s.inbox = m :: rest) :
    tokens.message m ∨ Holds tokens { s with inbox := rest } := by
  rcases holds with ⟨w, member, token⟩ | ⟨r, member, token⟩ | ⟨m', member, token⟩
  · exact Or.inr (Or.inl ⟨w, member, token⟩)
  · exact Or.inr (.of_request member token)
  · rw [next] at member
    rcases List.mem_cons.mp member with rfl | later
    · exact Or.inl token
    · exact Or.inr (.of_message later token)

end Holds

/-! ## The requests of a mask -/

section Requests

variable {mask : Kind → Bool}

theorem watchData_mem (inMask : mask .change = true) :
    Request.watchData ∈ State.requestsFor mask := by
  simp [State.requestsFor, inMask]

theorem watchChildren_mem (inMask : mask .child = true) :
    Request.watchChildren ∈ State.requestsFor mask := by
  simp [State.requestsFor, inMask]

theorem watchExists_mem (inMask : mask .create = true ∨ mask .delete = true) :
    Request.watchExists ∈ State.requestsFor mask := by
  rcases inMask with inMask | inMask <;> simp [State.requestsFor, inMask]

/-- A mask without changes of the data and the children has one of the other events. -/
theorem create_or_delete (some : ∃ k, mask k = true) (noChange : mask .change = false)
    (noChild : mask .child = false) : mask .create = true ∨ mask .delete = true := by
  rcases some with ⟨k, inMask⟩
  cases k with
  | create => exact Or.inl inMask
  | delete => exact Or.inr inMask
  | change => exact absurd (noChange.symm.trans inMask) (by decide)
  | child => exact absurd (noChild.symm.trans inMask) (by decide)

/-- Something is needed. -/
theorem exists_needs (mask : Kind → Bool) (latch node : Bool) :
    ∃ tokens, Needs mask latch node tokens := by
  cases change : mask .change with
  | true =>
      cases node with
      | true => exact ⟨_, .dataChange change⟩
      | false => exact ⟨_, .noData change⟩
  | false =>
      cases child : mask .child with
      | false => exact ⟨_, .existence change child⟩
      | true =>
          cases node with
          | true => exact ⟨_, .childChange child⟩
          | false => exact ⟨_, .noChildren child⟩

end Requests

namespace Covered

variable {mask : Kind → Bool} {s t : State}

/-- The watcher asks for everything in the mask. -/
theorem of_asked (some : ∃ k, mask k = true) (asked : State.requestsFor mask ⊆ s.outbox)
    (unlatched : s.latch = false)
    (latch : s.node = true → mask .delete = false → latchAfter mask s.latch s.inbox = false) :
    Covered mask s := by
  refine ⟨fun needs => ?_, latch⟩
  generalize s.node = node at needs
  cases needs with
  | existence noChange noChild =>
      exact .of_request (asked (watchExists_mem (create_or_delete some noChange noChild))) rfl
  | dataChange inMask => exact .of_request (asked (watchData_mem inMask)) (by simp [dataChange])
  | childChange inMask => exact .of_request (asked (watchChildren_mem inMask)) rfl
  | noData inMask => exact .of_request (asked (watchData_mem inMask)) (Or.inr ⟨rfl, unlatched⟩)
  | noChildren inMask =>
      exact .of_request (asked (watchChildren_mem inMask)) (Or.inr ⟨rfl, unlatched⟩)

/-- Other requests do not matter. -/
theorem mono (covered : Covered mask s) (node : t.node = s.node) (armed : t.armed = s.armed)
    (latch : t.latch = s.latch) (inbox : t.inbox = s.inbox) (outbox : s.outbox ⊆ t.outbox) :
    Covered mask t := by
  constructor
  · intro tokens needs
    rw [node, latch] at needs
    exact (covered.needs needs).mono (armed ▸ List.Subset.refl _) outbox
      (inbox ▸ List.Subset.refl _)
  · rw [node, latch, inbox]
    exact covered.latch

/-- Without a node and with `m_check_exists` set, the watcher waits for a watch of `exists`. -/
theorem awaits (covered : Covered mask s) (gone : s.node = false) (latched : s.latch = true) :
    Holds (existence mask true) s := by
  rcases exists_needs mask s.latch s.node with ⟨tokens, needs⟩
  have holds := covered.needs needs
  rw [gone, latched] at needs
  cases needs with
  | existence => exact holds
  | noData | noChildren =>
      apply holds.weaken
      · exact fun w isExistence => isExistence
      · exact fun r token => token.resolve_right fun clear => absurd clear.2 (by decide)
      · exact fun m token => token.resolve_right fun clear => absurd clear.2 (by decide)

/-! ## The node -/

/-- The node is created, and the watches of `exists` fire. -/
theorem create (covered : Covered mask s) (gone : s.node = false)
    (children : mask .child = true → Holds (childChange mask) { s.fire .create with node := true })
    (latch : mask .delete = false → latchAfter mask s.latch (s.fire .create).inbox = false) :
    Covered mask { s.fire .create with node := true } := by
  refine ⟨fun needs => ?_, fun _ => latch⟩
  cases needs with
  | existence noChange noChild =>
      have holds := covered.needs (.existence noChange noChild)
      exact holds.fire (fun _ _ _ _ => Or.inl rfl) (fun _ token _ => token)
        (fun _ _ token => token) fun _ token => token
  | childChange inMask => exact children inMask
  | dataChange inMask =>
      have holds : Holds (absence mask s.latch .watchData .change) s :=
        covered.needs (gone ▸ .noData inMask)
      apply holds.fire
      · exact fun _ _ _ _ => Or.inl (Or.inl rfl)
      · rintro w rfl -
        simp [dataChange]
      · rintro r - (isExists | ⟨rfl, -⟩)
        · exact fun isChildren => by simp [isChildren, Request.isExists] at isExists
        · simp [dataChange]
      · exact fun m token => token.imp_right And.left

/-- What leads to a watch of `exists` is enough where there is no node. -/
theorem of_absent (gone : s.node = false) (awaits : Holds (existence mask s.latch) s) :
    Covered mask s := by
  refine ⟨fun needs => ?_, fun present => absurd (gone.symm.trans present) (by decide)⟩
  rw [gone] at needs
  cases needs with
  | existence => exact awaits
  | noData | noChildren =>
      apply awaits.weaken
      · exact fun _ isExistence => isExistence
      · exact fun _ isExists => Or.inl isExists
      · exact fun _ token => Or.inl token

/-- With `m_check_exists` set, the deletion of the node is heard of by a watch that sends again,
unless a created event clears it. -/
theorem delete_latched (covered : Covered mask s) (present : s.node = true)
    (latched : s.latch = true)
    (kept : mask .delete = false ∨ s.armed ≠ [] ∨ Holds (existence mask s.latch) s) :
    Holds (existence mask true) { s.fire .delete with node := false } := by
  cases inMask : mask .delete with
  | false =>
      have clear := covered.latch present inMask
      rw [latched] at clear
      exact .of_message (List.mem_append_left _ (create_mem_of_clear clear)) (Or.inl rfl)
  | true =>
      have deleted : (existence mask true).message (.event .delete) :=
        Or.inr (Or.inl ⟨rfl, Or.inl inMask⟩)
      rcases kept with notInMask | armed | awaits
      · exact absurd (inMask.symm.trans notInMask) (by decide)
      · rcases List.exists_mem_of_ne_nil _ armed with ⟨w, member⟩
        exact .of_message (fire_mem member rfl) deleted
      · rw [latched] at awaits
        exact awaits.fire (fun _ _ _ _ => deleted) (fun _ token _ => token)
          (fun _ _ token => token) fun _ token => token

/-- The node is deleted, and every watch fires. -/
theorem delete (covered : Covered mask s) (present : s.node = true)
    (kept : s.latch = false ∨ mask .delete = false ∨ s.armed ≠ [] ∨
      Holds (existence mask s.latch) s) :
    Covered mask { s.fire .delete with node := false } := by
  cases latchEq : s.latch with
  | true =>
      have looks := covered.delete_latched present latchEq
        (kept.resolve_left fun clear => absurd (latchEq.symm.trans clear) (by decide))
      exact of_absent rfl (latchEq ▸ looks)
  | false =>
      have deleted : (existence mask s.latch).message (.event .delete) :=
        Or.inr (Or.inl ⟨rfl, Or.inr latchEq⟩)
      refine ⟨fun needs => ?_, fun present => absurd present (by simp)⟩
      cases needs with
      | existence noChange noChild =>
          have holds := covered.needs (.existence noChange noChild)
          exact holds.fire (fun _ _ _ _ => deleted) (fun _ token _ => token)
            (fun _ _ token => token) fun _ token => token
      | noData inMask =>
          have holds : Holds (dataChange mask s.latch) s :=
            covered.needs (present ▸ .dataChange inMask)
          apply holds.fire
          · exact fun _ _ _ _ => Or.inl deleted
          · exact fun w _ stays => absurd stays (by simp [fires])
          · rintro r - notChildren
            cases r with
            | watchChildren => exact absurd rfl notChildren
            | watchData => exact Or.inr ⟨rfl, latchEq⟩
            | watchExists | watchCreate => exact Or.inl rfl
          · exact fun m token => token.imp_right fun isChange => ⟨isChange, latchEq⟩
      | noChildren inMask =>
          have holds : Holds (ZkWatcher.childChange mask) s :=
            covered.needs (present ▸ .childChange inMask)
          apply holds.fire
          · exact fun _ _ _ _ => Or.inl deleted
          · exact fun w _ stays => absurd stays (by simp [fires])
          · exact fun r _ isChildren => Or.inr ⟨isChildren, latchEq⟩
          · rintro m (isChild | ⟨isCreate, -⟩)
            · exact Or.inr ⟨isChild, latchEq⟩
            · exact Or.inl (Or.inl isCreate)

/-- A change at a node that stays does not clear or set `m_check_exists`. -/
theorem latch_fire (covered : Covered mask s) {k : Kind} (stays : k = .change ∨ k = .child)
    (present : s.node = true) (notInMask : mask .delete = false) :
    latchAfter mask s.latch (s.fire k).inbox = false := by
  apply latchAfter_append (covered.latch present notInMask)
  intro m member
  rcases List.mem_map.mp member with ⟨w, -, rfl⟩
  rcases stays with rfl | rfl <;> rfl

/-- The data is set, which uses up the watches of `get` and of `exists`. -/
theorem set (covered : Covered mask s) (present : s.node = true)
    (kept : mask .change = true ∨ mask .child = true ∨ .existence ∉ s.armed ∨
      Holds (existence mask s.latch) { s with armed := [] }) : Covered mask (s.fire .change) := by
  refine ⟨fun needs => ?_, covered.latch_fire (Or.inl rfl)⟩
  have nodeEq : (s.fire .change).node = true := present
  rw [nodeEq] at needs
  cases needs with
  | dataChange inMask =>
      have holds : Holds (dataChange mask s.latch) s :=
        covered.needs (present ▸ .dataChange inMask)
      exact holds.fire_here fun _ _ _ _ => Or.inr rfl
  | childChange inMask =>
      have holds : Holds (ZkWatcher.childChange mask) s :=
        covered.needs (present ▸ .childChange inMask)
      apply holds.fire_here
      rintro w - rfl fired
      exact absurd fired (by decide)
  | existence noChange noChild =>
      have holds := covered.needs (.existence noChange noChild)
      rcases kept with inMask | inMask | unused | other
      · exact absurd (noChange.symm.trans inMask) (by decide)
      · exact absurd (noChild.symm.trans inMask) (by decide)
      · apply holds.fire_here
        rintro w member rfl
        exact absurd member unused
      · exact other.mono (List.nil_subset _) (List.Subset.refl _) (List.subset_append_left _ _)

/-- The children change, which uses up the watch of `get_children`. -/
theorem childChange (covered : Covered mask s) (present : s.node = true) :
    Covered mask (s.fire .child) := by
  refine ⟨fun needs => ?_, covered.latch_fire (Or.inr rfl)⟩
  have nodeEq : (s.fire .child).node = true := present
  rw [nodeEq] at needs
  cases needs with
  | dataChange inMask =>
      have holds : Holds (dataChange mask s.latch) s :=
        covered.needs (present ▸ .dataChange inMask)
      apply holds.fire_here
      intro w _ notChildren fired
      cases w with
      | children => exact absurd rfl notChildren
      | data | existence => exact absurd fired (by decide)
  | childChange inMask =>
      have holds : Holds (ZkWatcher.childChange mask) s :=
        covered.needs (present ▸ .childChange inMask)
      exact holds.fire_here fun _ _ _ _ => Or.inl rfl
  | existence noChange noChild =>
      apply (covered.needs (.existence noChange noChild)).fire_here
      rintro w - rfl fired
      exact absurd fired (by decide)

end Covered

end ZkWatcher

end GPush.Discovery
