import GPush.ClientSdk.Receive

/-!
# The packets of a client connection

While the headers are valid, what `handlePacket` is given is what the servers find in the
stream.  No header is an error for `handleRead`, so at an invalid one the two differ.
-/

namespace GPush.ClientSdk

open GPush.Connection GPush.Framing

/-- The command and the body of a packet, as the handlers of the servers read them. -/
def commandOf (packet : Bytes) : Int × Bytes :=
  (beInt32 ((packet.drop 8).take 4), packet.drop sizeofHead)

/-- The commands and bodies that are passed to `handlePacket`. -/
def Reading.commands {σ : Type*} (reading : Reading σ) : List (Int × Bytes) :=
  reading.packets.map fun packet => (packet.1.cmd, packet.2)

@[simp]
theorem Reading.commands_cons {σ : Type*} (h : Head) (len : Int) (body : Bytes)
    (later : Reading σ) : (later.cons h len body).commands = (h.cmd, body) :: later.commands :=
  rfl

/-- The bytes that some commands take in a stream. -/
def weight (commands : List (Int × Bytes)) : Nat :=
  (commands.map fun command => sizeofHead + command.2.length).sum

/-! ## Headers -/

theorem beInt32_bounds {bytes : Bytes} (short : bytes.length ≤ 4) :
    -2 ^ 31 ≤ beInt32 bytes ∧ beInt32 bytes < 2 ^ 31 := by
  have bound : ∀ (bytes : Bytes) (acc : Nat),
      bytes.foldl (fun acc byte => acc * 256 + byte.toNat) acc <
        (acc + 1) * 256 ^ bytes.length := by
    intro bytes
    induction bytes with
    | nil => simp
    | cons byte bytes ih =>
        intro acc
        have step := ih (acc * 256 + byte.toNat)
        have byteBound := byte.toNat_lt
        rw [List.foldl_cons, List.length_cons, Nat.pow_succ']
        calc _ < (acc * 256 + byte.toNat + 1) * 256 ^ bytes.length := step
          _ ≤ ((acc + 1) * 256) * 256 ^ bytes.length := Nat.mul_le_mul_right _ (by omega)
          _ = _ := Nat.mul_assoc _ _ _
  have folded := bound bytes 0
  have power : 256 ^ bytes.length ≤ 256 ^ 4 := Nat.pow_le_pow_right (by decide) short
  simp only [beInt32]
  split_ifs <;> omega

theorem headLen_bounds (h : Bytes) : -2 ^ 31 ≤ headLen h ∧ headLen h < 2 ^ 31 := by
  apply beInt32_bounds
  rw [List.length_take]
  exact Nat.min_le_left _ _

/-- `body.resize` throws exactly when the length is negative. -/
theorem toSize_spec {n : Int} (lower : -2 ^ 32 ≤ n) (upper : n < 2 ^ 32) :
    (stringMaxSize < toSize n ↔ n < 0) ∧ (0 ≤ n → toSize n = n.toNat) := by
  simp only [stringMaxSize, toSize]
  constructor
  · omega
  · omega

theorem headOf_take {q : Bytes} (long : sizeofHead ≤ q.length) :
    (headOf (q.take sizeofHead)).len = headLen q ∧
      (headOf (q.take sizeofHead)).cmd = beInt32 ((q.drop 8).take 4) := by
  refine ⟨headLen_take long, ?_⟩
  simp only [headOf, sizeofHead, List.drop_take, List.take_take]
  rfl

theorem of_packetHeader_incomplete {q : Bytes} (headerEq : packetHeader q = .incomplete) :
    q.length < sizeofHead ∨ (q.length : Int) < headLen q := by
  rw [packetHeader] at headerEq
  split_ifs at headerEq with short bad fits
  · exact Or.inl short
  · exact Or.inr (by omega)

theorem of_packetHeader_frame {q : Bytes} {n : Nat} (headerEq : packetHeader q = .frame n) :
    headLen q = n ∧ sizeofHead ≤ n ∧ n ≤ q.length := by
  rw [packetHeader] at headerEq
  split_ifs at headerEq with short bad fits
  obtain rfl := Verdict.frame.inj headerEq
  simp only [sizeofHead] at bad ⊢
  omega

/-! ## The dispatch loop -/

section HandleRead

variable {σ : Type*} {handlePacket : σ → Head → Bytes → σ} {isOpen : σ → Bool}

/-- Without a whole packet the loop is left. -/
theorem dispatchLoop_waits {b : LoopBuf} (waits : b.data.length < sizeofHead ∨
    (b.data.length : Int) < headLen b.data) (rounds : Nat) (s : σ) :
    dispatchLoop handlePacket (rounds + 1) b s = some ⟨some 0, b, s, [], []⟩ := by
  have sizeEq := b.length_data
  rw [dispatchLoop, b.realread_eq_min, b.peek_eq, ← sizeEq]
  by_cases short : b.data.length < sizeofHead
  · rw [if_pos (by omega)]
  · have long := Nat.le_of_not_lt short
    rw [if_neg (by omega)]
    simp only [(headOf_take long).1, if_pos (waits.resolve_left short)]

/-- A length that is too small is an exception. -/
theorem dispatchLoop_throws {b : LoopBuf} (long : sizeofHead ≤ b.data.length)
    (small : headLen b.data < sizeofHead) (rounds : Nat) (s : σ) :
    dispatchLoop handlePacket (rounds + 1) b s =
      some ⟨none, b.read sizeofHead, s, [headLen b.data - sizeofHead], []⟩ := by
  have sizeEq := b.length_data
  have bounds := headLen_bounds b.data
  have throws := (toSize_spec (n := headLen b.data - sizeofHead) (by simp only [sizeofHead]; omega)
    (by simp only [sizeofHead]; omega)).1.mpr (by omega)
  rw [dispatchLoop, b.realread_eq_min, b.peek_eq, ← sizeEq, if_neg (by omega)]
  simp only [(headOf_take long).1, if_pos throws]
  rw [if_neg (by omega)]

/-- The packet at the front of the buffer is passed to `handlePacket`. -/
theorem dispatchLoop_packet {b : LoopBuf} {n : Nat} (lenEq : headLen b.data = n)
    (lower : sizeofHead ≤ n) (there : n ≤ b.data.length) :
    ∃ next : LoopBuf, next.data = b.data.drop n ∧ ∀ (rounds : Nat) (s : σ),
      dispatchLoop handlePacket (rounds + 1) b s =
        (dispatchLoop handlePacket rounds next
          (handlePacket s (headOf (b.data.take sizeofHead)) ((b.data.take n).drop sizeofHead))).map
            (Reading.cons (headOf (b.data.take sizeofHead)) ((n - sizeofHead : Nat) : Int)
              ((b.data.take n).drop sizeofHead)) := by
  have sizeEq := b.length_data
  have bounds := headLen_bounds b.data
  have headEq := (headOf_take (Nat.le_trans lower there)).1
  have bodyLen : headLen b.data - sizeofHead = ((n - sizeofHead : Nat) : Int) := by omega
  have sizes := toSize_spec (n := ((n - sizeofHead : Nat) : Int)) (by omega) (by omega)
  have bodyEq : (b.read sizeofHead).peek (n - sizeofHead) =
      (b.data.take n).drop sizeofHead := by
    rw [LoopBuf.peek_eq, LoopBuf.data_read, List.drop_take]
  have bodyLength : ((b.data.take n).drop sizeofHead).length = n - sizeofHead := by
    rw [List.length_drop, List.length_take, Nat.min_eq_left there]
  refine ⟨(b.read sizeofHead).read (n - sizeofHead), ?_, fun rounds s => ?_⟩
  · rw [LoopBuf.data_read, LoopBuf.data_read, List.drop_drop, Nat.add_sub_cancel' lower]
  · rw [dispatchLoop, b.realread_eq_min, b.peek_eq, ← sizeEq, if_neg (by omega)]
    simp only [headEq]
    rw [if_neg (by omega), if_neg (by rw [bodyLen, sizes.1]; omega)]
    simp only [bodyLen, sizes.2 (Int.natCast_nonneg _), Int.toNat_natCast, bodyEq, bodyLength,
      Nat.sub_self, List.replicate_zero, List.append_nil]

theorem weight_cons (command : Int × Bytes) (commands : List (Int × Bytes)) :
    weight (command :: commands) = sizeofHead + command.2.length + weight commands := by
  simp [weight]

theorem weight_append (before behind : List (Int × Bytes)) :
    weight (before ++ behind) = weight before + weight behind := by
  simp [weight]

/-- The loop ends, without an error, and what it dispatches has been in the buffer. -/
theorem dispatchLoop_total {rounds : Nat} {b : LoopBuf} (enough : b.data.length < rounds) (s : σ) :
    ∃ reading, dispatchLoop handlePacket rounds b s = some reading ∧
      (reading.ret = none ∨ reading.ret = some 0) ∧
      weight reading.commands + reading.buf.data.length ≤ b.data.length := by
  induction rounds generalizing b s with
  | zero => omega
  | succ rounds ih =>
      by_cases waits : b.data.length < sizeofHead ∨ (b.data.length : Int) < headLen b.data
      · exact ⟨_, dispatchLoop_waits waits _ s, Or.inr rfl, by simp [Reading.commands, weight]⟩
      · have long : sizeofHead ≤ b.data.length := by omega
        by_cases small : headLen b.data < sizeofHead
        · refine ⟨_, dispatchLoop_throws long small _ s, Or.inl rfl, ?_⟩
          simp [Reading.commands, weight, LoopBuf.size_read]
        · rcases Int.eq_ofNat_of_zero_le (by omega : 0 ≤ headLen b.data) with ⟨n, lenEq⟩
          have lower : sizeofHead ≤ n := by omega
          rcases dispatchLoop_packet lenEq lower (by omega) with ⟨next, nextEq, packetEq⟩
          have nextLength : next.data.length = b.data.length - n := by
            rw [nextEq, List.length_drop]
          have bodyLength : ((b.data.take n).drop sizeofHead).length = n - sizeofHead := by
            rw [List.length_drop, List.length_take, Nat.min_eq_left (by omega)]
          have positive : 0 < n := Nat.lt_of_lt_of_le (by decide) lower
          obtain ⟨later, loopEq, retEq, bound⟩ := ih (b := next) (by omega) (handlePacket s
            (headOf (b.data.take sizeofHead)) ((b.data.take n).drop sizeofHead))
          refine ⟨later.cons _ _ _, by rw [packetEq, loopEq, Option.map_some], retEq, ?_⟩
          have bufEq : (later.cons (headOf (b.data.take sizeofHead)) ((n - sizeofHead : Nat) : Int)
            ((b.data.take n).drop sizeofHead)).buf = later.buf := rfl
          rw [Reading.commands_cons, weight_cons, bufEq]
          dsimp only
          omega

/-- What the loop has dispatched of a queue when it is left: the packets at its front that
are valid, and where there is no invalid header, no others. -/
structure Dispatches (q : Bytes) (reading : Reading σ) : Prop where
  front : (framesOf q).packets.map commandOf <+: reading.commands
  exact : (framesOf q).invalid = false → reading.ret = some 0 ∧
    reading.commands = (framesOf q).packets.map commandOf ∧
    reading.buf.data = (framesOf q).rest ∧ ∀ len ∈ reading.lens, 0 ≤ len

/-- The loop lemma, over the packets of the queue. -/
theorem dispatchLoop_spec (q : Bytes) {b : LoopBuf} (dataEq : b.data = q) {rounds : Nat}
    (enough : q.length < rounds) (s : σ) {reading : Reading σ}
    (loopEq : dispatchLoop handlePacket rounds b s = some reading) : Dispatches q reading := by
  induction q using packetFormat.induction generalizing b rounds s reading with
  | incomplete q headerEq =>
      subst dataEq
      rcases Nat.exists_eq_succ_of_ne_zero (Nat.ne_zero_of_lt enough) with ⟨rounds, rfl⟩
      rw [dispatchLoop_waits (of_packetHeader_incomplete headerEq)] at loopEq
      obtain rfl := Option.some.inj loopEq
      have parseEq : framesOf b.data = ⟨[], b.data, false⟩ := Format.parse_incomplete headerEq
      constructor
      · rw [parseEq]
        exact List.nil_prefix
      · intro _
        rw [parseEq]
        exact ⟨rfl, rfl, rfl, by simp⟩
  | invalid q headerEq =>
      have parseEq : framesOf q = ⟨[], q, true⟩ := Format.parse_invalid headerEq
      constructor
      · rw [parseEq]
        exact List.nil_prefix
      · intro valid
        rw [parseEq] at valid
        exact absurd valid Bool.noConfusion
  | frame q n headerEq ih =>
      subst dataEq
      rcases of_packetHeader_frame headerEq with ⟨lenEq, lower, there⟩
      rcases dispatchLoop_packet lenEq lower there with ⟨next, nextEq, packetEq⟩
      rcases Nat.exists_eq_succ_of_ne_zero (Nat.ne_zero_of_lt enough) with ⟨rounds, rfl⟩
      have shorter : (b.data.drop n).length < rounds := by
        have positive : 0 < n := Nat.lt_of_lt_of_le (by decide) lower
        rw [List.length_drop]
        omega
      rw [packetEq] at loopEq
      rcases Option.map_eq_some_iff.mp loopEq with ⟨later, laterEq, rfl⟩
      rcases ih nextEq shorter _ laterEq with ⟨front, exact⟩
      have parseEq : framesOf b.data = ⟨b.data.take n :: (framesOf (b.data.drop n)).packets,
        (framesOf (b.data.drop n)).rest, (framesOf (b.data.drop n)).invalid⟩ :=
        Format.parse_frame headerEq
      have first : ((headOf (b.data.take sizeofHead)).cmd, (b.data.take n).drop sizeofHead) =
          commandOf (b.data.take n) := by
        rw [(headOf_take (Nat.le_trans lower there)).2, commandOf]
        congr 2
        simp only [sizeofHead] at lower
        rw [List.drop_take, List.take_take, Nat.min_eq_left (by omega)]
      constructor
      · rw [parseEq, Reading.commands_cons, first]
        exact List.cons_prefix_cons.mpr ⟨rfl, front⟩
      · rw [parseEq]
        intro valid
        rcases exact valid with ⟨retEq, commandsEq, restEq, nonneg⟩
        refine ⟨retEq, ?_, restEq, ?_⟩
        · rw [Reading.commands_cons, first, commandsEq]
          rfl
        · intro len mem
          rcases List.mem_cons.mp mem with rfl | mem
          · exact Int.natCast_nonneg _
          · exact nonneg len mem

/-- The handler has been applied to the packets, one after the other. -/
theorem dispatchLoop_state {rounds : Nat} {b : LoopBuf} {s : σ} {reading : Reading σ}
    (loopEq : dispatchLoop handlePacket rounds b s = some reading) :
    reading.state = reading.packets.foldl (fun s packet => handlePacket s packet.1 packet.2) s := by
  induction rounds generalizing b s reading with
  | zero => simp [dispatchLoop] at loopEq
  | succ rounds ih =>
      rw [dispatchLoop] at loopEq
      dsimp only at loopEq
      split_ifs at loopEq with short waits throws
      · obtain rfl := Option.some.inj loopEq
        rfl
      · obtain rfl := Option.some.inj loopEq
        rfl
      · obtain rfl := Option.some.inj loopEq
        rfl
      · rcases Option.map_eq_some_iff.mp loopEq with ⟨later, laterEq, rfl⟩
        have stateEq := ih laterEq
        exact stateEq

end HandleRead

/-! ## The handlers of the client -/

section Handlers

variable (codec : ConnectServer.PeerCodec) (nets : Nat → Net)

/-- `CliConn::handlePacket` on what the packets before have left, with what it finds; `none`
is undefined behaviour of an earlier one. -/
def handler (state : Nat × Option (CliConn × List Act)) (h : Head) (body : Bytes) :
    Nat × Option (CliConn × List Act) :=
  (state.1 + 1, state.2.bind fun (c, acts) =>
    (c.handlePacket codec ⟨h.cmd, body, nets state.1⟩).map fun out => (out.con, acts ++ out.acts))

/-- The packets with what their handlers find. -/
def arrivals : Nat → List (Head × Bytes) → List Received
  | _, [] => []
  | n, packet :: packets => ⟨packet.1.cmd, packet.2, nets n⟩ :: arrivals (n + 1) packets

theorem foldl_handler_none (packets : List (Head × Bytes)) (n : Nat) :
    (packets.foldl (fun state packet => handler codec nets state packet.1 packet.2)
      (n, none)).2 = none := by
  induction packets generalizing n with
  | nil => rfl
  | cons packet packets ih => exact ih (n + 1)

theorem foldl_handler (packets : List (Head × Bytes)) (n : Nat) (c : CliConn) (acts : List Act) :
    (packets.foldl (fun state packet => handler codec nets state packet.1 packet.2)
      (n, some (c, acts))).2 =
        (c.handlePackets codec (arrivals nets n packets)).map fun out =>
          (out.con, acts ++ out.acts) := by
  induction packets generalizing n c acts with
  | nil => simp [arrivals, CliConn.handlePackets]
  | cons packet packets ih =>
      rw [List.foldl_cons, arrivals, CliConn.handlePackets]
      cases handled : c.handlePacket codec ⟨packet.1.cmd, packet.2, nets n⟩ with
      | none =>
          have stops : handler codec nets (n, some (c, acts)) packet.1 packet.2 =
              (n + 1, none) := by
            simp [handler, handled]
          rw [stops]
          exact foldl_handler_none codec nets packets (n + 1)
      | some out =>
          have goesOn : handler codec nets (n, some (c, acts)) packet.1 packet.2 =
              (n + 1, some (out.con, acts ++ out.acts)) := by
            simp [handler, handled]
          rw [goesOn, ih, Option.bind_some, Option.map_map]
          congr 1
          funext later
          simp [Out.andThen, List.append_assoc]

/-- What the packets of a buffer do to the connection is what `handlePackets` does with them. -/
theorem handlePackets_dispatched {rounds : Nat} {b : LoopBuf} {n : Nat} {c : CliConn}
    {reading : Reading (Nat × Option (CliConn × List Act))}
    (loopEq : dispatchLoop (handler codec nets) rounds b (n, some (c, [])) = some reading) :
    reading.state.2 = (c.handlePackets codec (arrivals nets n reading.packets)).map fun out =>
      (out.con, out.acts) := by
  rw [dispatchLoop_state loopEq]
  exact foldl_handler codec nets reading.packets n c []

end Handlers

section HandleRead

variable {σ : Type*} {handlePacket : σ → Head → Bytes → σ} {isOpen : σ → Bool}

/-! ## Calls of `handleRead` -/

/-- How a call leaves its first loop, and the results of `recv` that it has not taken. -/
def arrivalOf (b : LoopBuf) (script : List SysRecv) : Option (Arrival × List SysRecv) :=
  (receive b script).map fun result => (result.1, result.2.2)

/-- `recv` hands out the script, and then there is nothing more. -/
def Drains (b : LoopBuf) (script : List SysRecv) : Prop :=
  arrivalOf b script = some (.drained, [])

/-- `recv` hands out the script and neither ends nor fails. -/
def Receives (b : LoopBuf) (script : List SysRecv) : Prop :=
  Drains b script ∨ arrivalOf b script = some (.overflow, [])

theorem receive_of_arrivalOf {b : LoopBuf} {script rest : List SysRecv} {arrival : Arrival}
    (arrivalEq : arrivalOf b script = some (arrival, rest)) :
    ∃ left, receive b script = some (arrival, left, rest) := by
  rcases Option.map_eq_some_iff.mp arrivalEq with ⟨⟨first, left, last⟩, receiveEq, pairEq⟩
  rcases Prod.mk.inj pairEq with ⟨rfl, rfl⟩
  exact ⟨left, receiveEq⟩

/-- A call that has drained the socket parses what it has received behind what was left. -/
theorem handleRead_drains {b : LoopBuf} {s : σ} {script : List SysRecv} (opened : isOpen s = true)
    (drains : Drains b script) :
    ∃ reading, handleRead handlePacket isOpen b s script = some (reading, []) ∧
      (reading.ret = none ∨ reading.ret = some 0) ∧
      Dispatches (b.data ++ received script) reading ∧
      weight reading.commands + reading.buf.data.length ≤
        b.data.length + (received script).length := by
  rcases receive_of_arrivalOf drains with ⟨left, receiveEq⟩
  rcases receiveLoop_spec receiveEq (by decide) with ⟨-, dataEq⟩
  have dataEq := dataEq rfl
  have enough : left.data.length < left.size + 1 := by
    rw [LoopBuf.length_data]
    exact Nat.lt_succ_self _
  obtain ⟨reading, loopEq, retEq, bound⟩ :
      ∃ reading, dispatchLoop handlePacket (left.size + 1) left s = some reading ∧ _ ∧ _ :=
    dispatchLoop_total enough s
  refine ⟨reading, ?_, retEq, ?_, ?_⟩
  · rw [handleRead, if_neg (by simp [opened]), receiveEq, Option.bind_some]
    simp only [loopEq, Option.map_some]
  · exact dispatchLoop_spec _ dataEq (by rw [← dataEq]; exact enough) s loopEq
  · rw [← List.length_append, ← dataEq]
    exact bound

/-- A call with an overflow dispatches nothing. -/
theorem handleRead_overflow {b : LoopBuf} {s : σ} {script : List SysRecv}
    (opened : isOpen s = true) (overflow : arrivalOf b script = some (.overflow, [])) :
    ∃ reading, handleRead handlePacket isOpen b s script = some (reading, []) ∧
      reading.ret = none ∧ reading.commands = [] := by
  rcases receive_of_arrivalOf overflow with ⟨left, receiveEq⟩
  refine ⟨⟨none, left, s, [], []⟩, ?_, rfl, rfl⟩
  rw [handleRead, if_neg (by simp [opened]), receiveEq, Option.bind_some]

theorem drains_iff_room {b : LoopBuf} {script : List SysRecv} (receives : Receives b script) :
    Drains b script ↔ Room b (received script).length := by
  rcases receives with drains | overflow
  · rcases receive_of_arrivalOf drains with ⟨left, receiveEq⟩
    have drainedIff := (receiveLoop_spec receiveEq (by decide)).1
    exact ⟨fun _ => drainedIff.mp rfl, fun _ => drains⟩
  · rcases receive_of_arrivalOf overflow with ⟨left, receiveEq⟩
    have drainedIff := (receiveLoop_spec receiveEq (by decide)).1
    refine ⟨fun drains => ?_, fun room => absurd (drainedIff.mpr room) (by decide)⟩
    rw [Drains, overflow] at drains
    exact absurd drains (by decide)

variable (handlePacket isOpen)

/-- The calls of a connection whose peer does not close. -/
def Delivered : LoopBuf → σ → List (List SysRecv) → Prop
  | _, _, [] => True
  | b, s, script :: scripts =>
      isOpen s = true ∧ Receives b script ∧
        ∀ reading rest, handleRead handlePacket isOpen b s script = some (reading, rest) →
          reading.ret = some 0 → Delivered reading.buf reading.state scripts

/-- There is room for what every call receives. -/
def RoomAll : LoopBuf → σ → List (List SysRecv) → Prop
  | _, _, [] => True
  | b, s, script :: scripts =>
      Room b (received script).length ∧
        ∀ reading rest, handleRead handlePacket isOpen b s script = some (reading, rest) →
          reading.ret = some 0 → RoomAll reading.buf reading.state scripts

variable {handlePacket isOpen}

/-- Every call ends, and without an error.  Where all of them answer there was room. -/
theorem readAll_total {scripts : List (List SysRecv)} {b : LoopBuf} {s : σ}
    (delivered : Delivered handlePacket isOpen b s scripts) :
    ∃ readings, readAll handlePacket isOpen b s scripts = some readings ∧
      (∀ reading ∈ readings, reading.ret = none ∨ reading.ret = some 0) ∧
      ((∀ reading ∈ readings, reading.ret ≠ none) → RoomAll handlePacket isOpen b s scripts) := by
  induction scripts generalizing b s with
  | nil => exact ⟨[], rfl, by simp, fun _ => trivial⟩
  | cons script scripts ih =>
      rcases delivered with ⟨opened, receives, later⟩
      by_cases drains : Drains b script
      · rcases handleRead_drains opened drains with ⟨reading, readEq, retEq, -⟩
        rcases retEq with retEq | retEq
        · refine ⟨[reading], ?_, ?_, fun answers => ?_⟩
          · rw [readAll, readEq, Option.bind_some]
            simp [retEq]
          · simp [retEq]
          · exact absurd retEq (answers reading (List.mem_singleton_self _))
        · rcases ih (later reading [] readEq retEq) with ⟨readings, restEq, retsEq, roomAll⟩
          refine ⟨reading :: readings, ?_, ?_, fun answers => ⟨?_, ?_⟩⟩
          · rw [readAll, readEq, Option.bind_some]
            simp only [retEq, restEq, if_true, Option.map_some]
          · intro here mem
            rcases List.mem_cons.mp mem with rfl | mem
            · exact Or.inr retEq
            · exact retsEq here mem
          · exact (drains_iff_room receives).mp drains
          · intro here rest hereEq _
            rcases Prod.mk.inj (Option.some.inj (readEq.symm.trans hereEq)) with ⟨rfl, -⟩
            exact roomAll fun here mem => answers here (List.mem_cons_of_mem _ mem)
      · obtain ⟨reading, readEq, retEq, -⟩ :=
          handleRead_overflow opened (receives.resolve_left drains)
        refine ⟨[reading], ?_, ?_, fun answers => ?_⟩
        · rw [readAll, readEq, Option.bind_some]
          simp [retEq]
        · simp [retEq]
        · exact absurd retEq (answers reading (List.mem_singleton_self _))

/-- The bytes of a call are parsed before those of the later ones. -/
theorem stream_cons (q : Bytes) (script : List SysRecv) (scripts : List (List SysRecv)) :
    q ++ stream (script :: scripts) = q ++ received script ++ stream scripts := by
  rw [stream, List.flatMap_cons, List.append_assoc]
  rfl

/-- The run lemma, from a buffer that holds what a parse has left over. -/
theorem readAll_spec {scripts : List (List SysRecv)} {b : LoopBuf} {s : σ}
    (leftOver : framesOf b.data = ⟨[], b.data, false⟩)
    (delivered : Delivered handlePacket isOpen b s scripts)
    (room : RoomAll handlePacket isOpen b s scripts)
    (valid : (framesOf (b.data ++ stream scripts)).invalid = false) :
    ∃ readings, readAll handlePacket isOpen b s scripts = some readings ∧
      readings.flatMap Reading.commands =
        (framesOf (b.data ++ stream scripts)).packets.map commandOf ∧
      ∀ reading ∈ readings, reading.ret = some 0 ∧ ∀ len ∈ reading.lens, 0 ≤ len := by
  induction scripts generalizing b s with
  | nil =>
      refine ⟨[], rfl, ?_, by simp⟩
      simp [stream, leftOver]
  | cons script scripts ih =>
      rcases delivered with ⟨opened, receives, later⟩
      rcases room with ⟨roomHere, roomLater⟩
      have drains := (drains_iff_room receives).mpr roomHere
      rcases handleRead_drains opened drains with ⟨reading, readEq, -, dispatches, -⟩
      rw [stream_cons] at valid ⊢
      have validHere := valid_of_append valid
      rcases dispatches.exact validHere with ⟨retEq, commandsEq, bufEq, nonneg⟩
      have parseEq := framesOf_append validHere (stream scripts)
      have validLater : (framesOf (reading.buf.data ++ stream scripts)).invalid = false := by
        rw [bufEq]
        rw [parseEq] at valid
        exact valid
      have leftLater : framesOf reading.buf.data = ⟨[], reading.buf.data, false⟩ := by
        rw [bufEq]
        exact Format.parse_rest _ validHere
      obtain ⟨readings, restEq, packets, answers⟩ := ih leftLater (later reading [] readEq retEq)
        (roomLater reading [] readEq retEq) validLater
      refine ⟨reading :: readings, ?_, ?_, ?_⟩
      · rw [readAll, readEq, Option.bind_some]
        simp only [retEq, restEq, if_true, Option.map_some]
      · rw [List.flatMap_cons, packets, commandsEq, bufEq, parseEq, List.map_append]
      · intro here mem
        rcases List.mem_cons.mp mem with rfl | mem
        · exact ⟨retEq, nonneg⟩
        · exact answers here mem

/-- The calls agree with the framing of the servers on a stream: the commands and bodies that
they pass on are those of its packets, an error is reported for an invalid header and for
nothing else, every call answers, and no body has a negative length. -/
structure Agrees (readings : List (Reading σ)) (stream : Bytes) : Prop where
  packets : readings.flatMap Reading.commands = (framesOf stream).packets.map commandOf
  reports : (∃ reading ∈ readings, ∃ ret, reading.ret = some ret ∧ ret < 0) ↔
    (framesOf stream).invalid = true
  answers : ∀ reading ∈ readings, reading.ret ≠ none
  bodies : ∀ reading ∈ readings, ∀ len ∈ reading.lens, 0 ≤ len

/-- The calls of a connection end.  They agree with the framing of the servers exactly when
every header of the stream is valid and there is room for what is received. -/
theorem agrees_iff_valid {scripts : List (List SysRecv)} {s : σ}
    (delivered : Delivered handlePacket isOpen LoopBuf.init s scripts) :
    ∃ readings, readAll handlePacket isOpen LoopBuf.init s scripts = some readings ∧
      (Agrees readings (stream scripts) ↔ (framesOf (stream scripts)).invalid = false ∧
        RoomAll handlePacket isOpen LoopBuf.init s scripts) := by
  rcases readAll_total delivered with ⟨readings, readEq, rets, roomAll⟩
  refine ⟨readings, readEq, fun agrees => ⟨?_, roomAll agrees.answers⟩, fun ⟨valid, room⟩ => ?_⟩
  · by_contra invalid
    obtain ⟨reading, mem, ret, retEq, negative⟩ :=
      agrees.reports.mpr (Bool.not_eq_false _ ▸ invalid)
    rcases rets reading mem with noAnswer | zero
    · exact agrees.answers reading mem noAnswer
    · obtain rfl := Option.some.inj (zero.symm.trans retEq)
      exact absurd negative (by decide)
  · have validHere : (framesOf (LoopBuf.init.data ++ stream scripts)).invalid = false := by
      rw [LoopBuf.data_init]
      exact valid
    have leftOver : framesOf LoopBuf.init.data = ⟨[], LoopBuf.init.data, false⟩ := by
      rw [LoopBuf.data_init]
      rfl
    obtain ⟨sameReadings, sameEq, packets, answers⟩ :=
      readAll_spec leftOver delivered room validHere
    obtain rfl := Option.some.inj (sameEq.symm.trans readEq)
    rw [LoopBuf.data_init] at packets
    refine ⟨packets, ⟨?_, ?_⟩, ?_, ?_⟩
    · rintro ⟨reading, mem, ret, retEq, negative⟩
      obtain rfl := Option.some.inj ((answers reading mem).1.symm.trans retEq)
      exact absurd negative (by decide)
    · intro invalid
      exact absurd (valid.symm.trans invalid) Bool.noConfusion
    · intro reading mem noAnswer
      exact absurd (noAnswer.symm.trans (answers reading mem).1) (by decide)
    · exact fun reading mem => (answers reading mem).2

end HandleRead

instance (b : LoopBuf) (script : List SysRecv) : Decidable (Drains b script) :=
  inferInstanceAs (Decidable (_ = _))

instance (b : LoopBuf) (script : List SysRecv) : Decidable (Receives b script) :=
  inferInstanceAs (Decidable (_ ∨ _))

/-- A handler that counts its packets. -/
def countPackets (n : Nat) (_ : Head) (_ : Bytes) : Nat := n + 1

/-- A socket that stays open. -/
def staysOpen (_ : Nat) : Bool := true

/-- An answer to a keepalive request, which arrives in two pieces. -/
def front : List SysRecv := [.data [0x20, 0x14, 0x12, 0x28, 0], .fail .eagain, .fail .eagain]

/-- The rest of it. -/
def back : List SysRecv :=
  [.data [0, 0, 12], .fail .eintr, .data [0, 0, 0, 1], .fail .eagain, .fail .eagain]

theorem agrees_iff_valid_cutAnswer :
    ∃ readings, readAll countPackets staysOpen LoopBuf.init 0 [front, back] = some readings ∧
      Agrees readings (stream [front, back]) := by
  have first : Receives LoopBuf.init front ∧ Room LoopBuf.init (received front).length := by
    decide +kernel
  have second : ∀ reading rest, handleRead countPackets staysOpen LoopBuf.init 0 front =
      some (reading, rest) →
        Receives reading.buf back ∧ Room reading.buf (received back).length := by
    intro reading rest readEq
    have offered : (handleRead countPackets staysOpen LoopBuf.init 0 front).all (fun result =>
        decide (Receives result.1.buf back ∧ Room result.1.buf (received back).length)) = true := by
      decide +kernel
    exact of_decide_eq_true ((Option.all_eq_true _ _).mp offered _ readEq)
  have delivered : Delivered countPackets staysOpen LoopBuf.init 0 [front, back] :=
    ⟨rfl, first.1, fun reading rest readEq _ =>
      ⟨rfl, (second reading rest readEq).1, fun _ _ _ _ => trivial⟩⟩
  have room : RoomAll countPackets staysOpen LoopBuf.init 0 [front, back] :=
    ⟨first.2, fun reading rest readEq _ =>
      ⟨(second reading rest readEq).2, fun _ _ _ _ => trivial⟩⟩
  rcases agrees_iff_valid delivered with ⟨readings, readEq, agreesIff⟩
  exact ⟨readings, readEq, agreesIff.mpr ⟨by decide +kernel, room⟩⟩

/-- A header with the length 8. -/
def shortHeader : List SysRecv :=
  [.data [0x20, 0x14, 0x12, 0x28, 0, 0, 0, 8, 0, 0, 0, 1], .fail .eagain, .fail .eagain]

/-- The servers refuse the header, and `handleRead` gives a body the length -4. -/
theorem header_throws :
    Delivered countPackets staysOpen LoopBuf.init 0 [shortHeader] ∧
      (framesOf (stream [shortHeader])).invalid = true ∧
      ∃ readings, readAll countPackets staysOpen LoopBuf.init 0 [shortHeader] = some readings ∧
        readings.map Reading.ret = [none] ∧ readings.map Reading.lens = [[-4]] ∧
        ¬Agrees readings (stream [shortHeader]) := by
  have receives : Receives LoopBuf.init shortHeader := by decide +kernel
  have results : (readAll countPackets staysOpen LoopBuf.init 0 [shortHeader]).map
      (fun readings => (readings.map Reading.ret, readings.map Reading.lens)) =
        some ([none], [[-4]]) := by
    decide +kernel
  rcases Option.map_eq_some_iff.mp results with ⟨readings, readEq, pairEq⟩
  rcases Prod.mk.inj pairEq with ⟨retsEq, lensEq⟩
  refine ⟨⟨rfl, receives, fun _ _ _ _ => trivial⟩, by decide +kernel, readings, readEq, retsEq,
    lensEq, fun agrees => ?_⟩
  have noAnswer : none ∈ readings.map Reading.ret := retsEq ▸ List.mem_singleton_self _
  rcases List.mem_map.mp noAnswer with ⟨reading, mem, retEq⟩
  exact agrees.answers reading mem retEq

end GPush.ClientSdk
