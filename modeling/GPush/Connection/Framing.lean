import GPush.Connection.Receive

/-!
# Framing

The packets that reach `handlePacket` are those a parse of the whole stream finds,
however the stream is cut.  Between two calls the buffer holds what the parse has
left over.
-/

namespace GPush.Connection

open GPush.LoopBuf GPush.Framing

/-! ## The format -/

/-- What the length field says about the front of a stream. -/
def packetHeader (q : Bytes) : Verdict :=
  if q.length < sizeofHead then
    .incomplete
  else if headLen q < sizeofHead ∨ (maxLen : Int) < headLen q then
    .invalid
  else if headLen q ≤ q.length then
    .frame (headLen q).toNat
  else
    .incomplete

/-- The length field lies in the first twelve bytes. -/
theorem headLen_append {q : Bytes} (long : sizeofHead ≤ q.length) (c : Bytes) :
    headLen (q ++ c) = headLen q := by
  simp only [sizeofHead] at long
  have inside : 4 ≤ (q.drop 4).length := by
    rw [List.length_drop]
    omega
  rw [headLen, headLen, List.drop_append_of_le_length (by omega),
    List.take_append_of_le_length inside]

theorem headLen_take {q : Bytes} (long : sizeofHead ≤ q.length) :
    headLen (q.take sizeofHead) = headLen q := by
  have split : sizeofHead ≤ (q.take sizeofHead).length := by
    rw [List.length_take]
    omega
  rw [← headLen_append split (q.drop sizeofHead), List.take_append_drop]

theorem packetHeader_bounds {q : Bytes} {n : Nat} (headerEq : packetHeader q = .frame n) :
    0 < n ∧ n ≤ q.length := by
  rw [packetHeader] at headerEq
  split_ifs at headerEq with short bad fits
  obtain rfl := Verdict.frame.inj headerEq
  simp only [sizeofHead] at bad
  omega

theorem packetHeader_append {q : Bytes} {n : Nat} (c : Bytes)
    (headerEq : packetHeader q = .frame n) : packetHeader (q ++ c) = .frame n := by
  rw [packetHeader] at headerEq
  split_ifs at headerEq with short bad fits
  have lengthEq : (q ++ c).length = q.length + c.length := List.length_append
  have sameLen := headLen_append (Nat.le_of_not_lt short) c
  rw [packetHeader, if_neg (by omega), sameLen, if_neg bad, if_pos (by omega), headerEq]

theorem packetHeader_of_append {q c : Bytes} {n : Nat}
    (headerEq : packetHeader (q ++ c) = .frame n) (inside : n ≤ q.length) :
    packetHeader q = .frame n := by
  rw [packetHeader] at headerEq
  split_ifs at headerEq with short bad fits
  have lenEq := Verdict.frame.inj headerEq
  have least : sizeofHead ≤ n := by
    simp only [sizeofHead] at bad ⊢
    omega
  have long := Nat.le_trans least inside
  have sameLen := headLen_append long c
  rw [sameLen] at bad lenEq
  rw [packetHeader, if_neg (Nat.not_lt.mpr long), if_neg bad, if_pos (by omega), lenEq]

theorem packetHeader_invalid_append {q : Bytes} (c : Bytes)
    (headerEq : packetHeader q = .invalid) : packetHeader (q ++ c) = .invalid := by
  rw [packetHeader] at headerEq
  split_ifs at headerEq with short bad fits
  have lengthEq : (q ++ c).length = q.length + c.length := List.length_append
  have sameLen := headLen_append (Nat.le_of_not_lt short) c
  rw [packetHeader, if_neg (by omega), sameLen, if_pos bad]

/-- The packets of the protocol. -/
def packetFormat : Format UInt8 where
  header := packetHeader
  frame_bounds := packetHeader_bounds
  frame_append := packetHeader_append
  frame_of_append := packetHeader_of_append
  invalid_append := packetHeader_invalid_append

/-- The packets of a stream, what is left over, and whether an invalid header ends
them. -/
def framesOf (stream : Bytes) : Parse UInt8 := packetFormat.parse stream

/-- The packets of a longer stream are those of its front and of what is left over there. -/
theorem framesOf_append {q : Bytes} (valid : (framesOf q).invalid = false) (c : Bytes) :
    framesOf (q ++ c) = ⟨(framesOf q).packets ++ (framesOf ((framesOf q).rest ++ c)).packets,
      (framesOf ((framesOf q).rest ++ c)).rest, (framesOf ((framesOf q).rest ++ c)).invalid⟩ :=
  Format.parse_append q c valid

theorem framesOf_append_of_invalid {q : Bytes} (invalid : (framesOf q).invalid = true)
    (c : Bytes) : (framesOf (q ++ c)).packets = (framesOf q).packets ∧
      (framesOf (q ++ c)).invalid = true :=
  Format.parse_append_of_invalid q c invalid

/-- What comes before valid bytes is valid. -/
theorem valid_of_append {q c : Bytes} (valid : (framesOf (q ++ c)).invalid = false) :
    (framesOf q).invalid = false := by
  by_contra invalid
  have stays := (framesOf_append_of_invalid (Bool.not_eq_false _ ▸ invalid) c).2
  exact absurd (valid.symm.trans stays) Bool.noConfusion

/-- The result of `checkLen` for a verdict. -/
def lenOf : Verdict → Int
  | .incomplete => 0
  | .invalid => -1
  | .frame n => n

theorem checkLen_eq {b : LoopBuf} {q : Bytes} (rep : Represents b q) :
    checkLen b = some (lenOf (packetHeader q)) := by
  rw [checkLen, packetHeader, rep.size_eq, rep.peek]
  by_cases short : q.length < sizeofHead
  · rw [if_pos short, if_pos short]
    rfl
  · rw [if_neg short, if_neg short, Option.map_some, headLen_take (Nat.le_of_not_lt short)]
    split_ifs with bad fits
    · rfl
    · simp only [lenOf, sizeofHead] at bad ⊢
      congr 1
      omega
    · rfl

/-! ## Receiving -/

/-- What the loop of `tcpNbReceive` leaves in the buffer fits into it. -/
theorem length_recvLoop {bufsize : Nat} {got data : Bytes} {script rest : List SysRecv} {ret : Int}
    (returned : recvLoop bufsize got script = some (ret, data, rest)) :
    data.length ≤ got.length + bufsize := by
  induction script generalizing bufsize got with
  | nil => simp [recvLoop] at returned
  | cons call script ih =>
      cases call with
      | data bytes =>
          rw [recvLoop] at returned
          split_ifs at returned with impossible more
          · have bound := ih returned
            rw [List.length_append] at bound
            omega
          · obtain ⟨-, dataEq, -⟩ : _ ∧ got ++ bytes = data ∧ _ := by simpa using returned
            rw [← dataEq, List.length_append]
            omega
      | closed =>
          obtain ⟨-, rfl, -⟩ : _ ∧ got = data ∧ _ := by simpa [recvLoop] using returned
          exact Nat.le_add_right _ _
      | fail errno =>
          cases errno with
          | eintr => exact ih returned
          | eagain =>
              obtain ⟨-, rfl, -⟩ : _ ∧ got = data ∧ _ := by simpa [recvLoop] using returned
              exact Nat.le_add_right _ _
          | other =>
              obtain ⟨-, rfl, -⟩ : _ ∧ got = data ∧ _ := by simpa [recvLoop] using returned
              exact Nat.le_add_right _ _

theorem length_tcpNbReceive {bufsize : Nat} {data : Bytes} {script rest : List SysRecv} {ret : Int}
    (returned : tcpNbReceive bufsize script = some (ret, data, rest)) :
    data.length ≤ bufsize := by
  rw [tcpNbReceive] at returned
  split_ifs at returned with none
  · obtain ⟨-, rfl, -⟩ : _ ∧ ([] : Bytes) = data ∧ _ := by simpa using returned
    exact Nat.zero_le _
  · simpa using length_recvLoop returned

theorem represents_offer {b : LoopBuf} {q : Bytes} (rep : Represents b q) :
    Represents (offer b) q := by
  rw [offer]
  split_ifs with full
  · exact (rep.extend _).1
  · exact rep

/-- A call of `handleRead` receives a chunk: some bytes, no more than it offers, and
neither the end of the stream nor an error. -/
def Supplies (b : LoopBuf) (script : List SysRecv) : Prop :=
  received script ≠ [] ∧ tcpNbReceive (offer b).freeFrameLen script =
    some (((received script).length : Int), received script, [])

section HandleRead

variable {σ : Type*} {handlePacket : σ → Bytes → Int × σ}

/-- The loop lemma: the packets of the queue are handled and its rest is left. -/
theorem packLoop_spec (nonneg : ∀ s req, 0 ≤ (handlePacket s req).1) (q : Bytes) {b : LoopBuf}
    (rep : Represents b q) {rounds : Nat} (enough : q.length < rounds) {ret : Int}
    (retNonneg : 0 ≤ ret) (s : σ) :
    ∃ reading, packLoop checkLen handlePacket rounds ret b s = some reading ∧
      reading.packets = (framesOf q).packets ∧ Represents reading.buf (framesOf q).rest ∧
      (reading.ret < 0 ↔ (framesOf q).invalid = true) := by
  induction q using packetFormat.induction generalizing b rounds ret s with
  | incomplete q headerEq =>
      have lenEq : checkLen b = some 0 := by
        rw [checkLen_eq rep]
        exact congrArg (some ∘ lenOf) headerEq
      rw [framesOf, Format.parse_incomplete headerEq]
      refine ⟨⟨ret, b, s, []⟩, ?_, rfl, rep, ?_⟩
      · unfold packLoop
        simp [lenEq]
      · simpa using retNonneg
  | invalid q headerEq =>
      have lenEq : checkLen b = some (-1) := by
        rw [checkLen_eq rep]
        exact congrArg (some ∘ lenOf) headerEq
      rw [framesOf, Format.parse_invalid headerEq]
      refine ⟨⟨-1, b, s, []⟩, ?_, rfl, rep, by simp⟩
      unfold packLoop
      simp [lenEq]
  | frame q n headerEq ih =>
      obtain ⟨positive, inside⟩ := packetFormat.frame_bounds headerEq
      have lenEq : checkLen b = some (n : Int) := by
        rw [checkLen_eq rep]
        exact congrArg (some ∘ lenOf) headerEq
      obtain ⟨b', readEq, rep'⟩ := rep.read (rep.size_eq ▸ inside)
      obtain ⟨rounds, rfl⟩ := Nat.exists_eq_succ_of_ne_zero (Nat.ne_zero_of_lt enough)
      have whole : q.take n ++ List.replicate (n - (q.take n).length) 0 = q.take n := by
        rw [List.length_take, Nat.min_eq_left inside, Nat.sub_self, List.replicate_zero,
          List.append_nil]
      have shorter : (q.drop n).length < rounds := by
        rw [List.length_drop]
        omega
      obtain ⟨later, loopEq, packetsEq, restRep, retIff⟩ :=
        ih rep' shorter (nonneg s (q.take n)) (handlePacket s (q.take n)).2
      rw [framesOf, Format.parse_frame headerEq]
      refine ⟨{ later with packets := q.take n :: later.packets }, ?_, ?_, restRep, retIff⟩
      · rw [packLoop, lenEq, Option.bind_some, if_neg (by omega), if_neg (by omega)]
        simp only [Int.toNat_natCast, readEq, Option.bind_some, whole,
          if_neg (Int.not_lt.mpr (nonneg s (q.take n))), loopEq, Option.map_some]
      · exact congrArg (q.take n :: ·) packetsEq

/-- The step lemma: a chunk is parsed behind what was left over. -/
theorem handleRead_spec (nonneg : ∀ s req, 0 ≤ (handlePacket s req).1) {q : Bytes} {b : LoopBuf}
    (rep : Represents b q) {script : List SysRecv} (supplies : Supplies b script) (s : σ) :
    ∃ reading, handleRead checkLen handlePacket b s script = some (reading, []) ∧
      reading.packets = (framesOf (q ++ received script)).packets ∧
      Represents reading.buf (framesOf (q ++ received script)).rest ∧
      (reading.ret < 0 ↔ (framesOf (q ++ received script)).invalid = true) := by
  obtain ⟨nonempty, receiveEq⟩ := supplies
  obtain ⟨written, writeEq, rep'⟩ :=
    (represents_offer rep).writeFilled (length_tcpNbReceive receiveEq)
  have enough : (q ++ received script).length < written.size + 1 := by
    rw [rep'.size_eq]
    exact Nat.lt_succ_self _
  obtain ⟨reading, loopEq, packetsEq, restRep, retIff⟩ :=
    packLoop_spec nonneg _ rep' enough (Int.natCast_nonneg (received script).length) s
  refine ⟨reading, ?_, packetsEq, restRep, retIff⟩
  have some_received : ¬ (((received script).length : Int) < 0 ∨ (received script).length = 0) := by
    have := List.length_pos_iff.mpr nonempty
    omega
  rw [handleRead, receiveEq, Option.bind_some]
  simp only [if_neg some_received, writeEq, loopEq, Option.map_some]

/-- Every call of `readAll` receives a chunk. -/
def Supplied (handlePacket : σ → Bytes → Int × σ) : LoopBuf → σ → List (List SysRecv) → Prop
  | _, _, [] => True
  | b, s, script :: scripts =>
      Supplies b script ∧
        ∀ reading rest, handleRead checkLen handlePacket b s script = some (reading, rest) →
          0 ≤ reading.ret → Supplied handlePacket reading.buf reading.state scripts

/-- The bytes received over several calls. -/
def stream (scripts : List (List SysRecv)) : Bytes := scripts.flatMap received

/-- The run lemma, from a buffer that holds what a parse has left over. -/
theorem readAll_spec (nonneg : ∀ s req, 0 ≤ (handlePacket s req).1)
    (scripts : List (List SysRecv)) {q : Bytes} {b : LoopBuf} (rep : Represents b q)
    (leftOver : framesOf q = ⟨[], q, false⟩) {s : σ}
    (supplied : Supplied handlePacket b s scripts) :
    ∃ readings, readAll checkLen handlePacket b s scripts = some readings ∧
      readings.flatMap Reading.packets = (framesOf (q ++ stream scripts)).packets ∧
      (∀ i reading, readings[i]? = some reading →
        (reading.ret < 0 ↔ (framesOf (q ++ stream (scripts.take (i + 1)))).invalid = true)) ∧
      (readings.length < scripts.length →
        ∃ reading, readings.getLast? = some reading ∧ reading.ret < 0) := by
  induction scripts generalizing q b s with
  | nil =>
      refine ⟨[], rfl, ?_, by simp, by simp⟩
      simp [stream, leftOver]
  | cons script scripts ih =>
      obtain ⟨supplies, later⟩ := supplied
      obtain ⟨reading, readEq, packetsEq, restRep, retIff⟩ := handleRead_spec nonneg rep supplies s
      have streamEq : ∀ more, q ++ stream (script :: more) =
          q ++ received script ++ stream more := fun more => by
        rw [stream, List.flatMap_cons, List.append_assoc]
        rfl
      by_cases negative : reading.ret < 0
      · have invalid := retIff.mp negative
        refine ⟨[reading], ?_, ?_, ?_, fun _ => ⟨reading, rfl, negative⟩⟩
        · rw [readAll, readEq, Option.bind_some]
          simp only [if_pos negative]
        · rw [streamEq, framesOf, (Format.parse_append_of_invalid _ _ invalid).1]
          rw [List.flatMap_cons, List.flatMap_nil, List.append_nil]
          exact packetsEq
        · intro i here found
          cases i with
          | zero =>
              obtain rfl : reading = here := by simpa using found
              simpa [stream] using retIff
          | succ i => simp at found
      · have valid : (framesOf (q ++ received script)).invalid = false :=
          Bool.not_eq_true _ ▸ mt retIff.mpr negative
        obtain ⟨readings, restEq, packets, rets, stopped⟩ :=
          ih restRep (Format.parse_rest _ valid) (later reading [] readEq (Int.not_lt.mp negative))
        refine ⟨reading :: readings, ?_, ?_, ?_, ?_⟩
        · rw [readAll, readEq, Option.bind_some]
          simp only [if_neg negative, restEq, Option.map_some]
        · rw [streamEq, framesOf, Format.parse_append _ _ valid, List.flatMap_cons, packets,
            packetsEq]
          rfl
        · intro i here found
          cases i with
          | zero =>
              obtain rfl : reading = here := by simpa using found
              simpa [stream] using retIff
          | succ i =>
              have retsHere := rets i here (by simpa using found)
              rw [List.take_succ_cons, streamEq, framesOf, Format.parse_append _ _ valid]
              exact retsHere
        · intro short
          obtain ⟨last, lastEq, lastNegative⟩ := stopped (by simpa using short)
          refine ⟨last, ?_, lastNegative⟩
          rw [List.getLast?_cons, lastEq]
          rfl

/-- The packets handled on a connection are the frames of the stream it receives,
however the stream is cut into chunks, and the first negative result comes with
the chunk that completes the first invalid header. -/
theorem packets_eq_frames (nonneg : ∀ s req, 0 ≤ (handlePacket s req).1)
    {scripts : List (List SysRecv)} {s : σ}
    (supplied : Supplied handlePacket LoopBuf.init s scripts) :
    ∃ readings, readAll checkLen handlePacket LoopBuf.init s scripts = some readings ∧
      readings.flatMap Reading.packets = (framesOf (stream scripts)).packets ∧
      (∀ i reading, readings[i]? = some reading →
        (reading.ret < 0 ↔ (framesOf (stream (scripts.take (i + 1)))).invalid = true)) ∧
      (readings.length < scripts.length →
        ∃ reading, readings.getLast? = some reading ∧ reading.ret < 0) :=
  readAll_spec nonneg scripts represents_init rfl supplied

end HandleRead

/-- A keep-alive packet. -/
def keepalive : Bytes := [0x20, 0x14, 0x12, 0x28, 0, 0, 0, 12, 0, 0, 0, 0]

/-- A handler that counts its packets. -/
def countPackets (n : Nat) (_ : Bytes) : Int × Nat := (0, n + 1)

/-- A packet cut inside its header. -/
def cutKeepalive : List (List SysRecv) :=
  [[.data (keepalive.take 5), .fail .eagain],
    [.data ((keepalive.drop 5).take 3), .fail .eintr, .data (keepalive.drop 8), .fail .eagain]]

instance (b : LoopBuf) (script : List SysRecv) : Decidable (Supplies b script) :=
  inferInstanceAs (Decidable (_ ∧ _))

theorem packets_eq_frames_cutKeepalive :
    ∃ readings, readAll checkLen countPackets LoopBuf.init 0 cutKeepalive = some readings ∧
      readings.flatMap Reading.packets = [keepalive] := by
  have supplied : Supplied countPackets LoopBuf.init 0 cutKeepalive := by
    refine ⟨by decide +kernel, fun reading rest readEq _ => ⟨?_, fun _ _ _ _ => trivial⟩⟩
    have offered : (handleRead checkLen countPackets LoopBuf.init 0
        [.data (keepalive.take 5), .fail .eagain]).all (fun result => decide (Supplies result.1.buf
          [.data ((keepalive.drop 5).take 3), .fail .eintr, .data (keepalive.drop 8),
            .fail .eagain])) = true := by
      decide +kernel
    rw [readEq] at offered
    exact of_decide_eq_true offered
  obtain ⟨readings, readEq, packetsEq, -⟩ :=
    packets_eq_frames (fun _ _ => Int.le_refl 0) supplied
  exact ⟨readings, readEq, packetsEq.trans (by decide +kernel)⟩

end GPush.Connection
