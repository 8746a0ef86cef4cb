import GPush.Connection.Framing

/-!
# Serving packets one after the other

A handler that answers a negative value ends the connection.  What a connection has done
after some chunks is what the handler does with the packets of their stream, one after the
other, up to the first such answer.
-/

namespace GPush.Connection

open GPush.LoopBuf GPush.Framing

section Serve

variable {σ : Type*} (handlePacket : σ → Bytes → Int × σ)

/-- The state after some packets, unless one is answered with a negative value. -/
def serve : σ → List Bytes → Option σ
  | s, [] => some s
  | s, req :: reqs =>
      if (handlePacket s req).1 < 0 then none else serve (handlePacket s req).2 reqs

variable {handlePacket}

theorem serve_append (s : σ) (first second : List Bytes) :
    serve handlePacket s (first ++ second) =
      (serve handlePacket s first).bind fun s' => serve handlePacket s' second := by
  induction first generalizing s with
  | nil => rfl
  | cons req reqs ih =>
      rw [List.cons_append, serve, serve]
      split_ifs
      · rfl
      · exact ih _

/-- What a reading has done when its packets were served with the result `served`. -/
def Reading.Does (reading : Reading σ) (served : Option σ) (rest : Bytes) : Prop :=
  match served with
  | some s => 0 ≤ reading.ret ∧ reading.state = s ∧ Represents reading.buf rest
  | none => reading.ret < 0

/-- The loop lemma, for a stream without an invalid header. -/
theorem packLoop_serves (q : Bytes) (valid : (framesOf q).invalid = false) {b : LoopBuf}
    (rep : Represents b q) {rounds : Nat} (enough : q.length < rounds) {ret : Int}
    (retNonneg : 0 ≤ ret) (s : σ) :
    ∃ reading, packLoop checkLen handlePacket rounds ret b s = some reading ∧
      reading.Does (serve handlePacket s (framesOf q).packets) (framesOf q).rest := by
  induction q using packetFormat.induction generalizing b rounds ret s with
  | incomplete q headerEq =>
      have lenEq : checkLen b = some 0 := by
        rw [checkLen_eq rep]
        exact congrArg (some ∘ lenOf) headerEq
      rw [framesOf, Format.parse_incomplete headerEq]
      refine ⟨⟨ret, b, s, []⟩, ?_, retNonneg, rfl, rep⟩
      unfold packLoop
      simp [lenEq]
  | invalid q headerEq =>
      rw [framesOf, Format.parse_invalid headerEq] at valid
      contradiction
  | frame q n headerEq ih =>
      obtain ⟨positive, inside⟩ := packetFormat.frame_bounds headerEq
      have lenEq : checkLen b = some (n : Int) := by
        rw [checkLen_eq rep]
        exact congrArg (some ∘ lenOf) headerEq
      obtain ⟨b', readEq, rep'⟩ := rep.read (rep.size_eq ▸ inside)
      obtain ⟨rounds, rfl⟩ := Nat.exists_eq_succ_of_ne_zero (Nat.ne_zero_of_lt enough)
      have whole : q.take n ++ List.replicate (n - (q.take n).length) 0 = q.take n := by
        rw [List.length_take, Nat.min_eq_left inside, Nat.sub_self, List.replicate_zero,
          List.append_nil]
      have shorter : (q.drop n).length < rounds := by
        rw [List.length_drop]
        omega
      rw [framesOf, Format.parse_frame headerEq] at valid ⊢
      rw [packLoop, lenEq, Option.bind_some, if_neg (by omega), if_neg (by omega)]
      simp only [Int.toNat_natCast, readEq, Option.bind_some, whole]
      by_cases negative : (handlePacket s (q.take n)).1 < 0
      · rw [if_pos negative, serve, if_pos negative]
        exact ⟨_, rfl, negative⟩
      · obtain ⟨later, loopEq, does⟩ := ih valid rep' shorter (Int.not_lt.mp negative)
          (handlePacket s (q.take n)).2
        rw [if_neg negative, serve, if_neg negative, loopEq]
        exact ⟨_, rfl, does⟩

/-- The step lemma: a chunk is served behind what was left over. -/
theorem handleRead_serves {q : Bytes} {b : LoopBuf} (rep : Represents b q)
    {script : List SysRecv} (supplies : Supplies b script)
    (valid : (framesOf (q ++ received script)).invalid = false) (s : σ) :
    ∃ reading, handleRead checkLen handlePacket b s script = some (reading, []) ∧
      reading.Does (serve handlePacket s (framesOf (q ++ received script)).packets)
        (framesOf (q ++ received script)).rest := by
  obtain ⟨nonempty, receiveEq⟩ := supplies
  obtain ⟨written, writeEq, rep'⟩ :=
    (represents_offer rep).writeFilled (length_tcpNbReceive receiveEq)
  have enough : (q ++ received script).length < written.size + 1 := by
    rw [rep'.size_eq]
    exact Nat.lt_succ_self _
  obtain ⟨reading, loopEq, does⟩ :=
    packLoop_serves _ valid rep' enough (Int.natCast_nonneg (received script).length) s
  refine ⟨reading, ?_, does⟩
  have someReceived : ¬(((received script).length : Int) < 0 ∨ (received script).length = 0) := by
    have positive := List.length_pos_iff.mpr nonempty
    omega
  rw [handleRead, receiveEq, Option.bind_some]
  simp only [if_neg someReceived, writeEq, loopEq, Option.map_some]

/-- The state after some readings. -/
def finalState (s : σ) (readings : List (Reading σ)) : σ :=
  (readings.getLast?.map Reading.state).getD s

/-- What some calls of `handleRead` have done: the connection is open and in the state that
the packets leave, or it has been closed. -/
def Done (s : σ) (calls : Nat) (readings : List (Reading σ)) (served : Option σ) : Prop :=
  match served with
  | some s' => readings.length = calls ∧ (∀ reading ∈ readings, 0 ≤ reading.ret) ∧
      finalState s readings = s'
  | none => ∃ reading ∈ readings, reading.ret < 0

theorem finalState_cons (s : σ) (reading : Reading σ) (readings : List (Reading σ)) :
    finalState s (reading :: readings) = finalState reading.state readings := by
  rw [finalState, finalState, List.getLast?_cons]
  cases readings.getLast? <;> rfl

/-- A call before the others that leaves the connection open. -/
theorem Done.cons {reading : Reading σ} {readings : List (Reading σ)} {calls : Nat}
    {served : Option σ} (done : Done reading.state calls readings served)
    (nonneg : 0 ≤ reading.ret) (s : σ) : Done s (calls + 1) (reading :: readings) served := by
  cases served with
  | none =>
      obtain ⟨last, member, negative⟩ := done
      exact ⟨last, List.mem_cons_of_mem _ member, negative⟩
  | some final =>
      obtain ⟨lengthEq, allNonneg, finalEq⟩ := done
      refine ⟨congrArg (· + 1) lengthEq, List.forall_mem_cons.mpr ⟨nonneg, allNonneg⟩, ?_⟩
      rw [finalState_cons]
      exact finalEq

/-- The run lemma, from a buffer that holds what a parse has left over. -/
theorem readAll_serves (scripts : List (List SysRecv)) {q : Bytes} {b : LoopBuf}
    (rep : Represents b q) (leftOver : framesOf q = ⟨[], q, false⟩) {s : σ}
    (supplied : Supplied handlePacket b s scripts)
    (valid : (framesOf (q ++ stream scripts)).invalid = false) :
    ∃ readings, readAll checkLen handlePacket b s scripts = some readings ∧
      Done s scripts.length readings
        (serve handlePacket s (framesOf (q ++ stream scripts)).packets) := by
  induction scripts generalizing q b s with
  | nil =>
      refine ⟨[], rfl, ?_⟩
      rw [stream, List.flatMap_nil, List.append_nil, leftOver]
      exact ⟨rfl, List.forall_mem_nil _, rfl⟩
  | cons script scripts ih =>
      obtain ⟨supplies, later⟩ := supplied
      have streamEq : q ++ stream (script :: scripts) = q ++ received script ++ stream scripts := by
        rw [stream, List.flatMap_cons, List.append_assoc]
        rfl
      rw [streamEq] at valid ⊢
      have validHere := valid_of_append valid
      obtain ⟨reading, readEq, does⟩ := handleRead_serves rep supplies validHere s
      have packetsEq := framesOf_append validHere (stream scripts)
      rw [packetsEq] at valid ⊢
      rw [readAll, readEq, Option.bind_some, serve_append]
      cases served : serve handlePacket s (framesOf (q ++ received script)).packets with
      | none =>
          rw [served] at does
          have negative : reading.ret < 0 := does
          refine ⟨[reading], ?_, ?_⟩
          · simp only [if_pos negative]
          · exact ⟨reading, List.mem_cons_self, negative⟩
      | some s' =>
          rw [served] at does
          obtain ⟨nonneg, rfl, restRep⟩ := does
          obtain ⟨readings, restEq, done⟩ :=
            ih restRep (Format.parse_rest _ validHere) (later reading [] readEq nonneg) valid
          refine ⟨reading :: readings, ?_, ?_⟩
          · simp only [if_neg (Int.not_lt.mpr nonneg), restEq, Option.map_some]
          · exact done.cons nonneg s

/-- A connection that receives a stream of valid packets, in any chunks, serves them one
after the other. -/
theorem readAll_serves_init {scripts : List (List SysRecv)} {s : σ}
    (supplied : Supplied handlePacket LoopBuf.init s scripts)
    (valid : (framesOf (stream scripts)).invalid = false) :
    ∃ readings, readAll checkLen handlePacket LoopBuf.init s scripts = some readings ∧
      Done s scripts.length readings (serve handlePacket s (framesOf (stream scripts)).packets) :=
  readAll_serves scripts represents_init rfl supplied valid

end Serve

/-- The packets of a stream of whole packets. -/
theorem framesOf_flatten {packets : List Bytes}
    (frames : ∀ packet ∈ packets, packetHeader packet = .frame packet.length) :
    framesOf packets.flatten = ⟨packets, [], false⟩ := by
  induction packets with
  | nil => rfl
  | cons packet packets ih =>
      have headerEq : packetFormat.header (packet ++ packets.flatten) = .frame packet.length :=
        packetHeader_append _ (frames packet List.mem_cons_self)
      have rest := ih fun later member => frames later (List.mem_cons_of_mem _ member)
      rw [framesOf] at rest
      rw [List.flatten_cons, framesOf, Format.parse_frame headerEq, List.take_left, List.drop_left,
        rest]

end GPush.Connection
