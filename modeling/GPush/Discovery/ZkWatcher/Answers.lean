import GPush.Discovery.ZkWatcher.Tokens

/-!
# Requests and messages

A request that is carried out leaves its watch or its completion, and a message is answered by
requests for what it was a token of.  Flags that are new to the mask come with their requests.
-/

namespace GPush.Discovery

namespace ZkWatcher

/-- A message is gone, requests are sent, and `m_check_exists` is set or cleared. -/
def after (s : State) (rest : List Message) (requests : List Request) (latch : Bool) : State :=
  { s with inbox := rest, outbox := s.outbox ++ requests, latch := latch }

/-- A watcher with the mask `known` answers an event for everything in `mask`: it knows the event,
or has another answer to it, or the request is still on its way. -/
def Answered (known mask : Kind → Bool) (s : State) (k : Kind) : Prop :=
  known k = true ∨
    if k = .create then State.requestsFor mask ⊆ s.outbox ++ State.requestsFor known
    else mask k = false ∨ k = .delete ∧ s.latch = false ∨ rewatch k ∈ s.outbox

namespace Covered

variable {mask : Kind → Bool} {s t : State}

theorem serve (covered : Covered mask s) {r : Request} {rest : List Request}
    (next : s.outbox = r :: rest) : Covered mask ({ s with outbox := rest }.serve r) := by
  constructor
  · intro tokens needs
    have holds : Holds tokens s := covered.needs needs
    apply holds.serve next
    have nodeEq : ({ s with outbox := rest }.serve r).node = s.node := rfl
    rw [nodeEq] at needs
    generalize s.node = node at needs
    cases needs with
    | existence =>
        intro isExists
        exact Or.inl ⟨by rw [isExists, Bool.or_true], watch_of_isExists isExists⟩
    | dataChange =>
        intro notChildren
        cases r with
        | watchChildren => exact absurd rfl notChildren
        | watchData | watchExists | watchCreate =>
            exact Or.inl ⟨rfl, by simp [Request.watch, dataChange]⟩
    | childChange =>
        rintro rfl
        exact Or.inl ⟨rfl, rfl⟩
    | noData | noChildren =>
        rintro (isExists | ⟨rfl, unlatched⟩)
        · exact Or.inl ⟨by rw [isExists, Bool.or_true], watch_of_isExists isExists⟩
        · refine Or.inr (Or.inl (Or.inr (Or.inr ⟨?_, unlatched⟩)))
          simp [Gone]
  · intro present notInMask
    have isPresent : s.node = true := present
    apply latchAfter_append (covered.latch isPresent notInMask)
    intro m member
    rw [List.mem_singleton.mp member, isPresent]
    cases r <;> rfl

theorem latch_next (covered : Covered mask s) {m : Message} {rest : List Message}
    (next : s.inbox = m :: rest) {latch : Bool}
    (sets : mask .delete = false → latch = true → (reply mask s.latch m).2 = true)
    (present : s.node = true) (notInMask : mask .delete = false) :
    latchAfter mask latch rest = false := by
  have clear := covered.latch present notInMask
  rw [next, latchAfter, List.foldl_cons] at clear
  cases latch with
  | true => rwa [sets notInMask rfl] at clear
  | false =>
      cases latchEq : (reply mask s.latch m).2 with
      | true => exact latchAfter_mono (latchEq ▸ clear)
      | false => rwa [latchEq] at clear

/-- The message is answered by requests for whatever it was a token of. -/
theorem answer (covered : Covered mask s) {m : Message} {rest : List Message}
    (next : s.inbox = m :: rest) (requests : List Request)
    (answered : ∀ {tokens}, Needs mask s.latch s.node tokens → tokens.message m →
      ∃ r ∈ s.outbox ++ requests, tokens.request r)
    (sets : mask .delete = false → s.latch = true → (reply mask s.latch m).2 = true) :
    Covered mask (after s rest requests s.latch) := by
  refine ⟨fun needs => ?_, covered.latch_next next sets⟩
  rcases (covered.needs needs).next next with isToken | left
  · rcases answered needs isToken with ⟨r, member, token⟩
    exact .of_request member token
  · exact left.mono (List.Subset.refl _) (List.subset_append_left _ _) (List.Subset.refl _)

/-- The message is answered by `checkExists`. -/
theorem checkExists (covered : Covered mask s) {m : Message} {rest : List Message}
    (next : s.inbox = m :: rest) (notChildren : ¬(ZkWatcher.childChange mask).message m)
    (answered : s.latch = true → ∀ {tokens}, Needs mask s.latch s.node tokens →
      tokens.message m → ∃ r ∈ s.outbox, tokens.request r)
    (sets : mask .delete = false → (reply mask s.latch m).2 = true) :
    Covered mask (after s rest (check s.latch) true) := by
  cases latchEq : s.latch with
  | true =>
      rw [← latchEq]
      apply covered.answer next (check s.latch) _ fun notInMask _ => sets notInMask
      intro tokens needs isToken
      rcases answered latchEq needs isToken with ⟨r, member, token⟩
      exact ⟨r, List.mem_append_left _ member, token⟩
  | false =>
      have sent : Request.watchCreate ∈ (after s rest (check false) true).outbox :=
        List.mem_append_right _ (List.mem_singleton.mpr rfl)
      refine ⟨fun needs => ?_, covered.latch_next next fun notInMask _ => sets notInMask⟩
      have nodeEq : (after s rest (check false) true).node = s.node := rfl
      rw [nodeEq] at needs
      cases nodeEq : s.node with
      | true =>
          rw [nodeEq] at needs
          cases needs with
          | existence | dataChange =>
              exact .of_request sent (by simp [dataChange, existence, Request.isExists])
          | childChange inMask =>
              have holds : Holds (ZkWatcher.childChange mask) s :=
                covered.needs (nodeEq ▸ .childChange inMask)
              exact ((holds.next next).resolve_left notChildren).mono (List.Subset.refl _)
                (List.subset_append_left _ _) (List.Subset.refl _)
      | false =>
          rw [nodeEq] at needs
          cases needs with
          | existence | noData | noChildren =>
              exact .of_request sent (by simp [absence, existence, Request.isExists])

variable {known : Kind → Bool} {rest : List Message}

theorem complete (covered : Covered mask s) {r : Request} {rc : Rc}
    (next : s.inbox = .complete r rc :: rest) :
    Covered mask (after s rest (reply known s.latch (.complete r rc)).1
      (reply known s.latch (.complete r rc)).2) := by
  have dropped (unanswered : ¬Gone (.complete r rc)) : Covered mask (after s rest [] s.latch) := by
    apply covered.answer next [] fun needs isToken => ?_
    · exact fun _ latched => by cases r <;> cases rc <;> simp [reply, latched]
    · exact absurd (complete_token needs isToken).1 unanswered
  have checked (gone : Gone (.complete r rc)) :
      Covered mask (after s rest (check s.latch) true) := by
    apply covered.checkExists next
    · simp [ZkWatcher.childChange]
    · intro latched tokens needs isToken
      exact absurd ((complete_token needs isToken).2.symm.trans latched) (by decide)
    · intro _
      rcases gone with isData | isChildren
      · rw [isData, reply]
      · rw [isChildren, reply]
  cases r with
  | watchData | watchChildren =>
      cases rc with
      | noNode => exact checked (by simp [Gone])
      | ok | other => exact dropped (by simp [Gone])
  | watchExists | watchCreate => exact dropped (by simp [Gone])

theorem event (covered : Covered mask s) (some : ∃ k, mask k = true) {k : Kind}
    (next : s.inbox = .event k :: rest) (knownLe : ∀ k, known k = true → mask k = true)
    (answered : Answered known mask s k) :
    Covered mask (after s rest (reply known s.latch (.event k)).1
      (reply known s.latch (.event k)).2) := by
  cases isKnown : known k with
  | true =>
      have inMask := knownLe k isKnown
      rw [reply_inMask isKnown]
      apply covered.answer next [rewatch k]
      · intro tokens needs isToken
        have token := request_token needs isToken inMask
        exact ⟨_, List.mem_append_right _ (List.mem_singleton.mpr rfl), token⟩
      · intro _ latched
        rw [reply_inMask inMask, latched]
  | false =>
      have otherwise := answered.resolve_left (ne_true_of_eq_false isKnown)
      cases k with
      | create =>
          have asked : State.requestsFor mask ⊆ s.outbox ++ State.requestsFor known := otherwise
          rw [reply_create isKnown]
          apply of_asked some asked rfl
          exact covered.latch_next next fun _ set => absurd set Bool.false_ne_true
      | delete =>
          rw [reply_delete isKnown]
          apply covered.checkExists next
          · simp [ZkWatcher.childChange]
          · intro latched tokens needs isToken
            rcases event_token needs isToken with inMask | isCreate | ⟨-, clear⟩
            · rcases otherwise with notInMask | ⟨-, clear⟩ | sent
              · exact absurd (inMask.symm.trans notInMask) (by decide)
              · exact absurd (clear.symm.trans latched) (by decide)
              · exact ⟨_, sent, request_token needs isToken inMask⟩
            · exact absurd isCreate (by decide)
            · exact absurd (clear.symm.trans latched) (by decide)
          · intro notInMask
            rw [reply_delete notInMask]
      | change | child =>
          simp only [reply, isKnown]
          apply covered.answer next [] _ fun _ latched => latched
          intro tokens needs isToken
          rcases event_token needs isToken with inMask | isCreate | ⟨isDelete, -⟩
          · rcases otherwise with notInMask | ⟨isDelete, -⟩ | sent
            · exact absurd (inMask.symm.trans notInMask) (by decide)
            · exact absurd isDelete (by decide)
            · exact ⟨_, List.mem_append_left _ sent, request_token needs isToken inMask⟩
          · exact absurd isCreate (by decide)
          · exact absurd isDelete (by decide)

/-- The step lemma for a message.  A watcher whose mask is the mask itself needs no condition. -/
theorem deliver (covered : Covered mask s) (some : ∃ k, mask k = true) {m : Message}
    (next : s.inbox = m :: rest) (knownLe : ∀ k, known k = true → mask k = true)
    (answered : ∀ k, m = .event k → Answered known mask s k) :
    Covered mask (after s rest (reply known s.latch m).1 (reply known s.latch m).2) := by
  cases m with
  | complete r rc => exact covered.complete next
  | event k => exact covered.event some next knownLe (answered k rfl)

theorem answered_self (k : Kind) : Answered mask mask s k := by
  cases inMask : mask k with
  | true => exact Or.inl inMask
  | false =>
      apply Or.inr
      split_ifs
      · exact List.subset_append_right _ _
      · exact Or.inl inMask

/-! ## New flags -/

section Add

variable {flags : Kind → Bool}

theorem mask_le_union {k : Kind} (inMask : mask k = true) : union mask flags k = true :=
  Bool.or_eq_true_iff.mpr (Or.inl inMask)

theorem message_union {latch : Bool} {m : Message} (token : (existence mask latch).message m) :
    (existence (union mask flags) latch).message m :=
  token.imp_right (Or.imp_left (And.imp_right (Or.imp_left mask_le_union)))

/-- Flags that change nothing for the created and deleted events on their way. -/
theorem latchAfter_union {latch : Bool} {inbox : List Message}
    (created : flags .create = true → mask .create = true ∨ .event .create ∉ inbox)
    (notInMask : union mask flags .delete = false) :
    latchAfter (union mask flags) latch inbox = latchAfter mask latch inbox := by
  apply List.foldl_ext
  intro latch m member
  cases m with
  | complete r rc => cases r <;> cases rc <;> rfl
  | event k =>
      cases k with
      | change | child => rfl
      | delete =>
          have old : mask .delete = false := (Bool.or_eq_false_iff.mp notInMask).1
          rw [reply_delete notInMask, reply_delete old]
      | create =>
          have same : union mask flags .create = mask .create := by
            cases flagged : flags .create with
            | false => rw [union, flagged, Bool.or_false]
            | true =>
                have inMask := (created flagged).resolve_right fun absent => absent member
                rw [union, inMask, Bool.true_or]
          simp only [reply, same]
          cases mask .create <;> rfl

/-- Where there is no node, a new request is answered by `checkExists`, or `m_check_exists` is
set already. -/
theorem absence_union (covered : Covered mask s) (gone : s.node = false) {r : Request}
    (sent : r ∈ State.requestsFor flags) (k : Kind) :
    Holds (absence (union mask flags) s.latch r k) (s.send (State.requestsFor flags)) := by
  cases latchEq : s.latch with
  | false => exact .of_request (List.mem_append_right _ sent) (Or.inr ⟨rfl, rfl⟩)
  | true =>
      have waits : Holds (existence mask true) (s.send (State.requestsFor flags)) :=
        (covered.awaits gone latchEq).mono (List.Subset.refl _) (List.subset_append_left _ _)
          (List.Subset.refl _)
      exact waits.weaken (fun _ token => token) (fun _ token => Or.inl token)
        fun _ token => Or.inl (message_union token)

/-- A mask without changes of the data and the children stays without. -/
theorem existence_union (covered : Covered mask s) (noChange : union mask flags .change = false)
    (noChild : union mask flags .child = false) :
    Holds (existence (union mask flags) s.latch) (s.send (State.requestsFor flags)) := by
  have holds := covered.needs (.existence (Bool.or_eq_false_iff.mp noChange).1
    (Bool.or_eq_false_iff.mp noChild).1)
  have grown : Holds (existence mask s.latch) (s.send (State.requestsFor flags)) :=
    holds.mono (List.Subset.refl _) (List.subset_append_left _ _) (List.Subset.refl _)
  exact grown.weaken (fun _ token => token) (fun _ token => token) fun _ => message_union

/-- A created event still leads to the children, unless `CREATE_EVENT` is new. -/
theorem childChange_union (holds : Holds (ZkWatcher.childChange mask) s)
    (created : flags .create = true → mask .create = true ∨ .event .create ∉ s.inbox) :
    Holds (ZkWatcher.childChange (union mask flags)) s := by
  rcases holds with ⟨w, member, token⟩ | ⟨r, member, token⟩ | ⟨m, member, rfl | ⟨rfl, notInMask⟩⟩
  · exact Or.inl ⟨w, member, token⟩
  · exact .of_request member token
  · exact .of_message member (Or.inl rfl)
  · refine .of_message member (Or.inr ⟨rfl, Bool.or_eq_false_iff.mpr ⟨notInMask, ?_⟩⟩)
    apply eq_false_of_ne_true
    intro flagged
    rcases created flagged with inMask | absent
    · exact absurd (notInMask.symm.trans inMask) (by decide)
    · exact absent member

/-- New flags are asked for. -/
theorem add (covered : Covered mask s)
    (created : s.node = true → flags .create = true →
      mask .create = true ∨ .event .create ∉ s.inbox) :
    Covered (union mask flags) (s.send (State.requestsFor flags)) := by
  have grow {tokens : Tokens} (holds : Holds tokens s) :
      Holds tokens (s.send (State.requestsFor flags)) :=
    holds.mono (List.Subset.refl _) (List.subset_append_left _ _) (List.Subset.refl _)
  refine ⟨fun needs => ?_, fun present notInMask => ?_⟩
  · have nodeEq : (s.send (State.requestsFor flags)).node = s.node := rfl
    rw [nodeEq] at needs
    cases nodeEq : s.node <;> rw [nodeEq] at needs
    · cases needs with
      | existence noChange noChild => exact covered.existence_union noChange noChild
      | noData inMask =>
          rcases Bool.or_eq_true_iff.mp inMask with old | new
          · have holds : Holds (absence mask s.latch .watchData .change) s :=
              covered.needs (nodeEq ▸ .noData old)
            exact grow (holds.weaken (fun _ token => token) (fun _ token => token)
              fun _ token => token.imp_left message_union)
          · exact covered.absence_union nodeEq (watchData_mem new) .change
      | noChildren inMask =>
          rcases Bool.or_eq_true_iff.mp inMask with old | new
          · have holds : Holds (absence mask s.latch .watchChildren .child) s :=
              covered.needs (nodeEq ▸ .noChildren old)
            exact grow (holds.weaken (fun _ token => token) (fun _ token => token)
              fun _ token => token.imp_left message_union)
          · exact covered.absence_union nodeEq (watchChildren_mem new) .child
    · cases needs with
      | existence noChange noChild => exact covered.existence_union noChange noChild
      | dataChange inMask =>
          rcases Bool.or_eq_true_iff.mp inMask with old | new
          · have holds : Holds (dataChange mask s.latch) s :=
              covered.needs (nodeEq ▸ .dataChange old)
            exact grow (holds.weaken (fun _ token => token) (fun _ token => token)
              fun _ token => token.imp_left message_union)
          · exact .of_request (List.mem_append_right _ (watchData_mem new)) (by simp [dataChange])
      | childChange inMask =>
          rcases Bool.or_eq_true_iff.mp inMask with old | new
          · have holds : Holds (ZkWatcher.childChange mask) s :=
              covered.needs (nodeEq ▸ .childChange old)
            exact grow (childChange_union holds (created nodeEq))
          · exact .of_request (List.mem_append_right _ (watchChildren_mem new)) rfl
  · have isPresent : s.node = true := present
    have old := (Bool.or_eq_false_iff.mp notInMask).1
    exact (latchAfter_union (created isPresent) notInMask).trans (covered.latch isPresent old)

end Add

end Covered

end ZkWatcher

end GPush.Discovery
