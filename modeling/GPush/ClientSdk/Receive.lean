import GPush.ClientSdk.CliConn
import GPush.ClientSdk.LoopBuf
import GPush.Connection.Framing

/-!
# The receiving side of a client connection

`CliConn::handleRead` receives until there is nothing left to receive, and then passes every
packet of its buffer to `handlePacket`.  It looks at the length of a header only to see
whether the packet is there.  `tcp_nb_receive` is the loop of `tcpNbReceive`, and the handler
and its effect on the socket are parameters.
-/

namespace GPush.ClientSdk

open GPush.Connection GPush.Framing

/-- `head` in host order. -/
structure Head where
  magic : Int
  len : Int
  cmd : Int
  deriving DecidableEq, Repr

/-- The header in twelve bytes. -/
def headOf (h : Bytes) : Head := ⟨beInt32 (h.take 4), headLen h, beInt32 ((h.drop 8).take 4)⟩

/-- `std::string::max_size` on LP64. -/
def stringMaxSize : Nat := 2 ^ 63 - 1

/-- A number as a `size_t`. -/
def toSize (n : Int) : Nat := (n % 2 ^ 64).toNat

/-- By what `handleRead` extends a full buffer. -/
def extension : Nat := 16 * 1024

/-! ## Receiving -/

/-- How the loop that receives is left: there is nothing more, `tcp_nb_receive` has failed, or
an index or a capacity of the buffer is no `int32`. -/
inductive Arrival
  | drained
  | failed
  | overflow
  deriving DecidableEq, Repr

/-- The buffer as `handleRead` offers its next part; `none` is the overflow. -/
def offerPart (b : LoopBuf) : Option LoopBuf :=
  if int32End ≤ b.start + b.size then
    none
  else if b.nextPartLen ≤ 0 then
    if int32End ≤ b.cap + extension then
      none
    else
      some (b.resize (b.cap + extension) (Nat.add_pos_right _ (by decide)))
  else
    some b

/-- The first loop of `CliConn::handleRead`. -/
def receiveLoop : Nat → LoopBuf → List SysRecv → Option (Arrival × LoopBuf × List SysRecv)
  | 0, _, _ => none
  | rounds + 1, b, script =>
      match offerPart b with
      | none => some (.overflow, b, script)
      | some b =>
          (tcpNbReceive b.nextPartLen script).bind fun (ret, data, rest) =>
            if ret < 0 then
              some (.failed, b.fillNextPart data, rest)
            else if data.length = 0 then
              some (.drained, b, rest)
            else
              receiveLoop rounds ((b.fillNextPart data).write data.length) rest

/-- The loop on a script, whose every call takes a result of `recv`. -/
def receive (b : LoopBuf) (script : List SysRecv) : Option (Arrival × LoopBuf × List SysRecv) :=
  receiveLoop (script.length + 1) b script

/-! ## Dispatching -/

/-- What `handleRead` answers and leaves behind, the lengths that it gives to a body, and the
packets that it passes to `handlePacket`.  No answer is an exception, or an overflow. -/
structure Reading (σ : Type*) where
  ret : Option Int
  buf : LoopBuf
  state : σ
  lens : List Int
  packets : List (Head × Bytes)

/-- What is read with one more packet in front. -/
def Reading.cons {σ : Type*} (h : Head) (len : Int) (body : Bytes) (later : Reading σ) :
    Reading σ :=
  { later with lens := len :: later.lens, packets := (h, body) :: later.packets }

section HandleRead

variable {σ : Type*} (handlePacket : σ → Head → Bytes → σ) (isOpen : σ → Bool)

/-- The second loop of `CliConn::handleRead`. -/
def dispatchLoop : Nat → LoopBuf → σ → Option (Reading σ)
  | 0, _, _ => none
  | rounds + 1, b, s =>
      if b.realread sizeofHead < sizeofHead then
        some ⟨some 0, b, s, [], []⟩
      else
        let h := headOf (b.peek sizeofHead)
        if (b.size : Int) < h.len then
          some ⟨some 0, b, s, [], []⟩
        else
          let behind := b.read sizeofHead
          let len := h.len - sizeofHead
          -- `body.resize` throws `std::length_error`
          if stringMaxSize < toSize len then
            some ⟨none, behind, s, [len], []⟩
          else
            let out := behind.peek len.toNat
            let body := out ++ List.replicate (toSize len - out.length) 0
            (dispatchLoop rounds (behind.read len.toNat) (handlePacket s h body)).map
              (Reading.cons h len body)

/-- `CliConn::handleRead`. -/
def handleRead (b : LoopBuf) (s : σ) (script : List SysRecv) :
    Option (Reading σ × List SysRecv) :=
  if isOpen s = false then
    some (⟨some (-1), b, s, [], []⟩, script)
  else
    (receive b script).bind fun (arrival, b, rest) =>
      match arrival with
      | .failed => some (⟨some (-1), b, s, [], []⟩, rest)
      | .overflow => some (⟨none, b, s, [], []⟩, rest)
      | .drained => (dispatchLoop handlePacket (b.size + 1) b s).map (·, rest)

/-- Successive calls of `handleRead`, up to one that does not answer 0. -/
def readAll : LoopBuf → σ → List (List SysRecv) → Option (List (Reading σ))
  | _, _, [] => some []
  | b, s, script :: scripts =>
      (handleRead handlePacket isOpen b s script).bind fun (reading, _) =>
        if reading.ret = some 0 then
          (readAll reading.buf reading.state scripts).map (reading :: ·)
        else
          some [reading]

end HandleRead

/-! ## What is received -/

/-- The largest capacity that `handleRead` can give to a buffer. -/
def maxCap (b : LoopBuf) : Nat := b.cap + (int32End - 1 - b.cap) / extension * extension

/-- The indices and the capacities stay `int32`s while some bytes are received. -/
def Room (b : LoopBuf) (count : Nat) : Prop :=
  (b.size + count < b.cap → b.start + b.size + count < int32End) ∧
    (b.cap ≤ b.size + count → b.start + b.cap < int32End ∧ b.size + count < maxCap b)

instance (b : LoopBuf) (count : Nat) : Decidable (Room b count) :=
  inferInstanceAs (Decidable ((_ → _) ∧ (_ → _)))

theorem received_recvLoop {bufsize : Nat} {got data : Bytes} {script rest : List SysRecv}
    {ret : Int} (returned : recvLoop bufsize got script = some (ret, data, rest)) :
    got ++ received script = data ++ received rest := by
  induction script generalizing bufsize got with
  | nil => simp [recvLoop] at returned
  | cons call script ih =>
      cases call with
      | data bytes =>
          have receivedEq : received (.data bytes :: script) = bytes ++ received script := rfl
          rw [recvLoop] at returned
          split_ifs at returned with impossible more
          · rw [receivedEq, ← List.append_assoc]
            exact ih returned
          · obtain ⟨-, rfl, rfl⟩ : _ ∧ got ++ bytes = data ∧ script = rest := by
              simpa using returned
            rw [receivedEq, List.append_assoc]
      | closed =>
          obtain ⟨-, rfl, rfl⟩ : _ ∧ got = data ∧ script = rest := by
            simpa [recvLoop] using returned
          rfl
      | fail errno =>
          cases errno with
          | eintr => exact ih returned
          | eagain =>
              obtain ⟨-, rfl, rfl⟩ : _ ∧ got = data ∧ script = rest := by
                simpa [recvLoop] using returned
              rfl
          | other =>
              obtain ⟨-, rfl, rfl⟩ : _ ∧ got = data ∧ script = rest := by
                simpa [recvLoop] using returned
              rfl

theorem received_tcpNbReceive {bufsize : Nat} {data : Bytes} {script rest : List SysRecv}
    {ret : Int} (returned : tcpNbReceive bufsize script = some (ret, data, rest)) :
    received script = data ++ received rest := by
  rw [tcpNbReceive] at returned
  split_ifs at returned with none
  · obtain ⟨-, rfl, rfl⟩ : _ ∧ ([] : Bytes) = data ∧ script = rest := by simpa using returned
    rfl
  · exact received_recvLoop returned

theorem not_room_of_offerPart {b : LoopBuf} (overflows : offerPart b = none) (count : Nat) :
    ¬Room b count := by
  have sizeLe : b.size ≤ b.cap := b.sizeLe
  rw [offerPart] at overflows
  rw [Room]
  split_ifs at overflows with beyond full large
  · omega
  · have fullEq : b.size = b.cap := b.nextPartLen_eq_zero_iff.mp (Nat.le_zero.mp full)
    have maxEq : maxCap b = b.cap := by
      simp only [maxCap, extension, int32End] at large ⊢
      omega
    rw [maxEq]
    omega

/-- The buffer that is offered has the same bytes, and room for more. -/
theorem offerPart_spec {b offered : LoopBuf} (offers : offerPart b = some offered) :
    offered.data = b.data ∧ offered.size < offered.cap ∧ Room offered 0 ∧
      ∀ count, Room offered count ↔ Room b count := by
  rw [offerPart] at offers
  split_ifs at offers with beyond full large
  · obtain rfl := Option.some.inj offers
    have fullEq : b.size = b.cap := b.nextPartLen_eq_zero_iff.mp (Nat.le_zero.mp full)
    have positive : 0 < b.cap + extension := Nat.add_pos_right _ (by decide)
    have sameData := b.data_resize positive (by omega)
    have capEq := b.cap_resize positive
    have sizeEq : (b.resize (b.cap + extension) positive).size = b.size := by
      rw [← LoopBuf.length_data, sameData, LoopBuf.length_data]
    have startEq : (b.resize (b.cap + extension) positive).start = 0 := rfl
    have maxEq : maxCap (b.resize (b.cap + extension) positive) = maxCap b := by
      rw [maxCap, maxCap, capEq]
      simp only [extension, int32End] at large ⊢
      omega
    have least : b.cap + extension ≤ maxCap b := by
      simp only [maxCap, extension, int32End] at large ⊢
      omega
    have more : b.size < b.cap + extension := by
      simp only [extension]
      omega
    refine ⟨sameData, by rw [sizeEq, capEq]; exact more, ?_, fun count => ?_⟩
    · rw [Room, startEq, sizeEq, capEq]
      omega
    · rw [Room, Room, capEq, sizeEq, startEq, maxEq]
      omega
  · obtain rfl := Option.some.inj offers
    have notFull : b.size ≠ b.cap := fun equal =>
      full (Nat.le_of_eq (b.nextPartLen_eq_zero_iff.mpr equal))
    have more : b.size < b.cap := Nat.lt_of_le_of_ne b.sizeLe notFull
    refine ⟨rfl, more, ?_, fun _ => Iff.rfl⟩
    rw [Room]
    omega

/-- Bytes that have been received do not change what there is room for. -/
theorem room_write {b : LoopBuf} {bytes : Bytes} (fits : bytes.length ≤ b.nextPartLen)
    (count : Nat) : Room ((b.fillNextPart bytes).write bytes.length) count ↔
      Room b (bytes.length + count) := by
  rcases b.data_write fits with ⟨-, sizeEq, capEq⟩
  have startEq : ((b.fillNextPart bytes).write bytes.length).start = b.start := rfl
  simp only [Room, maxCap, sizeEq, capEq, startEq, Nat.add_assoc]

/-- The loop lemma: what has been received is behind what was there, and the loop is left with
it where there is room for it. -/
theorem receiveLoop_spec {rounds : Nat} {b left : LoopBuf} {script : List SysRecv}
    {arrival : Arrival} (returned : receiveLoop rounds b script = some (arrival, left, []))
    (works : arrival ≠ .failed) :
    (arrival = .drained ↔ Room b (received script).length) ∧
      (arrival = .drained → left.data = b.data ++ received script) := by
  induction rounds generalizing b script with
  | zero => simp [receiveLoop] at returned
  | succ rounds ih =>
      rw [receiveLoop] at returned
      cases offers : offerPart b with
      | none =>
          simp only [offers] at returned
          obtain ⟨rfl, -, -⟩ : Arrival.overflow = arrival ∧ b = left ∧ script = [] := by
            simpa using returned
          simpa using not_room_of_offerPart offers _
      | some offered =>
          simp only [offers] at returned
          rcases offerPart_spec offers with ⟨sameData, more, room, sameRoom⟩
          rcases Option.bind_eq_some_iff.mp returned with ⟨⟨ret, data, rest⟩, receiveEq, returned⟩
          have receivedEq := received_tcpNbReceive receiveEq
          have fits := length_tcpNbReceive receiveEq
          dsimp only at returned
          split_ifs at returned with negative empty
          · obtain ⟨rfl, -⟩ : Arrival.failed = arrival ∧ _ := by simpa using returned
            exact absurd rfl works
          · obtain ⟨rfl, rfl, rfl⟩ : Arrival.drained = arrival ∧ offered = left ∧ rest = [] := by
              simpa using returned
            have nothing : received script = [] := by
              rw [receivedEq, List.eq_nil_of_length_eq_zero empty]
              rfl
            rw [nothing, List.append_nil, List.length_nil, ← sameRoom]
            simp [room, sameData]
          · rcases offered.data_write fits with ⟨written, -, -⟩
            rcases ih returned with ⟨drainedIff, dataEq⟩
            rw [room_write fits, sameRoom, ← List.length_append, ← receivedEq] at drainedIff
            refine ⟨drainedIff, fun drained => ?_⟩
            rw [dataEq drained, written, sameData, receivedEq, List.append_assoc]

end GPush.ClientSdk
