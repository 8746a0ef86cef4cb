import GPush.Connection.Framing

/-!
# The end of the stream

`tcpNbReceive` answers `-1` when it sees the end of the stream, also when it has
received bytes before, and `handleRead` drops those bytes.  A packet of the peer
is handled exactly when it ends within the calls before that one.
-/

namespace GPush.Connection

open GPush.LoopBuf GPush.Framing

/-- A call of `handleRead` in which `recv` reports the end of the stream, possibly
after some bytes. -/
def Closes (b : LoopBuf) (script : List SysRecv) : Prop :=
  script.getLast? = some .closed ∧
    tcpNbReceive (offer b).freeFrameLen script = some (-1, received script, [])

/-- The calls of a connection whose peer sends its bytes and closes: each of
`scripts` receives a chunk, and `last` sees the end of the stream. -/
def SuppliedThenClosed {σ : Type*} (handlePacket : σ → Bytes → Int × σ) :
    LoopBuf → σ → List (List SysRecv) → List SysRecv → Prop
  | b, _, [], last => Closes b last
  | b, s, script :: scripts, last =>
      Supplies b script ∧
        ∀ reading rest, handleRead checkLen handlePacket b s script = some (reading, rest) →
          0 ≤ reading.ret →
            SuppliedThenClosed handlePacket reading.buf reading.state scripts last

section HandleRead

variable {σ : Type*} {handlePacket : σ → Bytes → Int × σ}

/-- The call that sees the end of the stream handles nothing. -/
theorem handleRead_closes (handlePacket : σ → Bytes → Int × σ) {b : LoopBuf}
    {script : List SysRecv} (closes : Closes b script) (s : σ) :
    ∃ reading, handleRead checkLen handlePacket b s script = some (reading, []) ∧
      reading.ret = -1 ∧ reading.packets = [] := by
  refine ⟨⟨-1, (offer b).fillFreeFrame (received script), s, []⟩, ?_, rfl, rfl⟩
  rw [handleRead, closes.2, Option.bind_some]
  simp

/-- The run lemma, from a buffer that holds what a parse has left over: the packets
handled are those of the bytes received before the call that sees the end, and
the connection is recycled. -/
theorem readAll_closed_spec (nonneg : ∀ s req, 0 ≤ (handlePacket s req).1)
    (scripts : List (List SysRecv)) (last : List SysRecv) {q : Bytes} {b : LoopBuf}
    (rep : Represents b q) (leftOver : framesOf q = ⟨[], q, false⟩) {s : σ}
    (supplied : SuppliedThenClosed handlePacket b s scripts last) :
    ∃ readings, readAll checkLen handlePacket b s (scripts ++ [last]) = some readings ∧
      readings.flatMap Reading.packets = (framesOf (q ++ stream scripts)).packets ∧
      ∃ reading, readings.getLast? = some reading ∧ reading.ret < 0 := by
  induction scripts generalizing q b s with
  | nil =>
      obtain ⟨reading, readEq, retEq, packetsEq⟩ :=
        handleRead_closes handlePacket supplied s
      have negative : reading.ret < 0 := by
        rw [retEq]
        decide
      refine ⟨[reading], ?_, ?_, reading, rfl, negative⟩
      · rw [List.nil_append, readAll, readEq, Option.bind_some]
        simp only [if_pos negative]
      · simp [stream, leftOver, packetsEq]
  | cons script scripts ih =>
      obtain ⟨supplies, later⟩ := supplied
      obtain ⟨reading, readEq, packetsEq, restRep, retIff⟩ := handleRead_spec nonneg rep supplies s
      have streamEq : q ++ stream (script :: scripts) =
          q ++ received script ++ stream scripts := by
        rw [stream, List.flatMap_cons, List.append_assoc]
        rfl
      rw [List.cons_append, readAll, readEq, Option.bind_some, streamEq, framesOf]
      by_cases negative : reading.ret < 0
      · refine ⟨[reading], ?_, ?_, reading, rfl, negative⟩
        · simp only [if_pos negative]
        · rw [(Format.parse_append_of_invalid _ _ (retIff.mp negative)).1, List.flatMap_cons,
            List.flatMap_nil, List.append_nil]
          exact packetsEq
      · have valid : (framesOf (q ++ received script)).invalid = false :=
          Bool.not_eq_true _ ▸ mt retIff.mpr negative
        obtain ⟨readings, restEq, packets, recycled, lastEq, lastNegative⟩ :=
          ih restRep (Format.parse_rest _ valid) (later reading [] readEq (Int.not_lt.mp negative))
        refine ⟨reading :: readings, ?_, ?_, recycled, ?_, lastNegative⟩
        · simp only [if_neg negative, restEq, Option.map_some]
        · rw [Format.parse_append _ _ valid, List.flatMap_cons, packets, packetsEq]
          rfl
        · rw [List.getLast?_cons, lastEq]
          rfl

/-- Let a peer send some bytes and close.  The connection is recycled, and the
packets handled before that are all frames of those bytes exactly when the frames
end within the bytes received by the calls before the one that sees the end of the
stream. -/
theorem all_frames_handled_iff (nonneg : ∀ s req, 0 ≤ (handlePacket s req).1)
    {scripts : List (List SysRecv)} {last : List SysRecv} {s : σ}
    (supplied : SuppliedThenClosed handlePacket LoopBuf.init s scripts last) :
    ∃ readings, readAll checkLen handlePacket LoopBuf.init s (scripts ++ [last]) = some readings ∧
      (∃ reading, readings.getLast? = some reading ∧ reading.ret < 0) ∧
      (readings.flatMap Reading.packets = (framesOf (stream (scripts ++ [last]))).packets ↔
        (framesOf (stream (scripts ++ [last]))).packets.flatten.length ≤
          (stream scripts).length) := by
  obtain ⟨readings, readEq, packetsEq, recycled⟩ :=
    readAll_closed_spec nonneg scripts last represents_init rfl supplied
  have streamEq : stream (scripts ++ [last]) = stream scripts ++ received last := by
    simp [stream]
  refine ⟨readings, readEq, recycled, ?_⟩
  rw [packetsEq, List.nil_append, streamEq]
  exact eq_comm.trans (Format.packets_append_iff _ _)

end HandleRead

instance (b : LoopBuf) (script : List SysRecv) : Decidable (Closes b script) :=
  inferInstanceAs (Decidable (_ ∧ _))

/-- The end of the stream is seen in a call of its own. -/
theorem all_frames_handled_keepalive :
    ∃ readings, readAll checkLen countPackets LoopBuf.init 0
        [[.data keepalive, .fail .eagain], [.closed]] = some readings ∧
      readings.flatMap Reading.packets = [keepalive] := by
  have supplied : SuppliedThenClosed countPackets LoopBuf.init 0
      [[.data keepalive, .fail .eagain]] [.closed] := by
    refine ⟨by decide +kernel, fun reading rest readEq _ => ?_⟩
    change Closes reading.buf [.closed]
    have closes : (handleRead checkLen countPackets LoopBuf.init 0
        [.data keepalive, .fail .eagain]).all
        (fun result => decide (Closes result.1.buf [.closed])) = true := by
      decide +kernel
    rw [readEq] at closes
    exact of_decide_eq_true closes
  obtain ⟨readings, readEq, -, handledIff⟩ :=
    all_frames_handled_iff (fun _ _ => Int.le_refl 0) supplied
  exact ⟨readings, readEq, (handledIff.mpr (by decide +kernel)).trans (by decide +kernel)⟩

/-- The same packet is lost when the end of the stream is seen in the call that
receives it. -/
theorem close_loses_packet :
    SuppliedThenClosed countPackets LoopBuf.init 0 [] [.data keepalive, .closed] ∧
      (framesOf keepalive).packets = [keepalive] ∧
      (readAll checkLen countPackets LoopBuf.init 0 [[.data keepalive, .closed]]).map
        (·.flatMap Reading.packets) = some [] ∧
      (readAll checkLen countPackets LoopBuf.init 0
        [[.data keepalive, .fail .eagain], [.closed]]).map (·.flatMap Reading.packets) =
          some [keepalive] := by
  have closes : Closes LoopBuf.init [.data keepalive, .closed] := by decide +kernel
  exact ⟨closes, by decide +kernel, by decide +kernel, by decide +kernel⟩

end GPush.Connection
