import GPush.ClientSdk.Framing

/-!
# The end of the stream of a client connection

`handleRead` answers -1 when `tcp_nb_receive` sees the end of the stream, also when it has
received bytes in the same call, and then its buffer is not parsed.  A packet is passed to
`handlePacket` exactly when it has been received by the calls before that one.
-/

namespace GPush.ClientSdk

open GPush.Connection GPush.Framing

/-- `recv` hands out the script, and `handleRead` is left without parsing: the end of the
stream or an error is seen, or the buffer overflows. -/
def Ends (b : LoopBuf) (script : List SysRecv) : Prop :=
  arrivalOf b script = some (.failed, []) ∨ arrivalOf b script = some (.overflow, [])

instance (b : LoopBuf) (script : List SysRecv) : Decidable (Ends b script) :=
  inferInstanceAs (Decidable (_ ∨ _))

section HandleRead

variable {σ : Type*} (handlePacket : σ → Head → Bytes → σ) (isOpen : σ → Bool)

/-- The calls of a connection whose peer sends its bytes and closes: each of `scripts` drains
the socket, and `last` sees the end of the stream. -/
def DrainedThenEnds : LoopBuf → σ → List (List SysRecv) → List SysRecv → Prop
  | b, s, [], last => isOpen s = true ∧ Ends b last
  | b, s, script :: scripts, last =>
      isOpen s = true ∧ Drains b script ∧
        ∀ reading rest, handleRead handlePacket isOpen b s script = some (reading, rest) →
          reading.ret = some 0 → DrainedThenEnds reading.buf reading.state scripts last

variable {handlePacket isOpen}

/-- The call that sees the end of the stream passes nothing on. -/
theorem handleRead_ends {b : LoopBuf} {s : σ} {script : List SysRecv} (opened : isOpen s = true)
    (ends : Ends b script) :
    ∃ reading, handleRead handlePacket isOpen b s script = some (reading, []) ∧
      reading.ret ≠ some 0 ∧ reading.commands = [] := by
  rcases ends with failed | overflow
  · rcases receive_of_arrivalOf failed with ⟨left, receiveEq⟩
    refine ⟨⟨some (-1), left, s, [], []⟩, ?_, by simp, rfl⟩
    rw [handleRead, if_neg (by simp [opened]), receiveEq, Option.bind_some]
  · rcases handleRead_overflow opened overflow with ⟨reading, readEq, retEq, commandsEq⟩
    exact ⟨reading, readEq, by simp [retEq], commandsEq⟩

/-- The calls end with one that does not answer 0, and what they pass on has been received
before the one that sees the end of the stream. -/
theorem readAll_ends {scripts : List (List SysRecv)} {last : List SysRecv} {b : LoopBuf} {s : σ}
    (supplied : DrainedThenEnds handlePacket isOpen b s scripts last) :
    ∃ readings, readAll handlePacket isOpen b s (scripts ++ [last]) = some readings ∧
      (∃ reading, readings.getLast? = some reading ∧ reading.ret ≠ some 0) ∧
      weight (readings.flatMap Reading.commands) ≤ b.data.length + (stream scripts).length := by
  induction scripts generalizing b s with
  | nil =>
      rcases supplied with ⟨opened, ends⟩
      rcases handleRead_ends opened ends with ⟨reading, readEq, notZero, commandsEq⟩
      refine ⟨[reading], ?_, ⟨reading, rfl, notZero⟩, ?_⟩
      · rw [List.nil_append, readAll, readEq, Option.bind_some]
        simp only [if_neg notZero]
      · simp [commandsEq, weight]
  | cons script scripts ih =>
      rcases supplied with ⟨opened, drains, later⟩
      rcases handleRead_drains opened drains with ⟨reading, readEq, retEq, -, bound⟩
      have lengthEq : (stream (script :: scripts)).length =
          (received script).length + (stream scripts).length := by
        simp [stream]
      rcases retEq with retEq | retEq
      · have notZero : reading.ret ≠ some 0 := by simp [retEq]
        refine ⟨[reading], ?_, ⟨reading, rfl, notZero⟩, ?_⟩
        · rw [List.cons_append, readAll, readEq, Option.bind_some]
          simp only [if_neg notZero]
        · rw [List.flatMap_cons, List.flatMap_nil, List.append_nil, lengthEq]
          omega
      · obtain ⟨readings, restEq, ⟨final, finalEq, notZero⟩, boundLater⟩ :=
          ih (later reading [] readEq retEq)
        refine ⟨reading :: readings, ?_, ⟨final, ?_, notZero⟩, ?_⟩
        · rw [List.cons_append, readAll, readEq, Option.bind_some]
          simp only [retEq, restEq, if_true, Option.map_some]
        · rw [List.getLast?_cons, finalEq]
          rfl
        · rw [List.flatMap_cons, weight_append, lengthEq]
          omega

/-- What is received before the end of the stream is parsed. -/
theorem readAll_front {scripts : List (List SysRecv)} {last : List SysRecv} {b : LoopBuf} {s : σ}
    (leftOver : framesOf b.data = ⟨[], b.data, false⟩)
    (supplied : DrainedThenEnds handlePacket isOpen b s scripts last)
    {readings : List (Reading σ)}
    (readsEq : readAll handlePacket isOpen b s (scripts ++ [last]) = some readings) :
    (framesOf (b.data ++ stream scripts)).packets.map commandOf <+:
      readings.flatMap Reading.commands := by
  induction scripts generalizing b s readings with
  | nil =>
      have none : framesOf (b.data ++ stream []) = ⟨[], b.data, false⟩ := by
        simp [stream, leftOver]
      rw [none]
      exact List.nil_prefix
  | cons script scripts ih =>
      rcases supplied with ⟨opened, drains, later⟩
      rcases handleRead_drains opened drains with ⟨reading, readEq, -, dispatches, -⟩
      rw [List.cons_append, readAll, readEq, Option.bind_some] at readsEq
      rw [stream_cons]
      by_cases valid : (framesOf (b.data ++ received script)).invalid = false
      · rcases dispatches.exact valid with ⟨retEq, commandsEq, bufEq, -⟩
        have leftLater : framesOf reading.buf.data = ⟨[], reading.buf.data, false⟩ := by
          rw [bufEq]
          exact Format.parse_rest _ valid
        simp only [retEq, if_true] at readsEq
        rcases Option.map_eq_some_iff.mp readsEq with ⟨readings, restEq, rfl⟩
        have front := ih leftLater (later reading [] readEq retEq) restEq
        rw [framesOf_append valid, List.map_append, List.flatMap_cons, commandsEq, ← bufEq]
        exact (List.prefix_append_right_inj _).mpr front
      · -- no packet is behind an invalid header
        have invalid : (framesOf (b.data ++ received script)).invalid = true :=
          Bool.not_eq_false _ ▸ valid
        have starts : reading.commands <+: readings.flatMap Reading.commands := by
          dsimp only at readsEq
          split_ifs at readsEq with zero
          · rcases Option.map_eq_some_iff.mp readsEq with ⟨readings, -, rfl⟩
            exact List.prefix_append _ _
          · obtain rfl := Option.some.inj readsEq
            simp
        rw [(framesOf_append_of_invalid invalid _).1]
        exact dispatches.front.trans starts

theorem weight_frames (q : Bytes) :
    weight ((framesOf q).packets.map commandOf) = (framesOf q).packets.flatten.length := by
  induction q using packetFormat.induction with
  | incomplete q headerEq =>
      rw [framesOf, Format.parse_incomplete headerEq]
      rfl
  | invalid q headerEq =>
      rw [framesOf, Format.parse_invalid headerEq]
      rfl
  | frame q n headerEq ih =>
      rcases of_packetHeader_frame headerEq with ⟨-, lower, there⟩
      have parseEq : (framesOf q).packets = q.take n :: (framesOf (q.drop n)).packets :=
        congrArg Parse.packets (Format.parse_frame headerEq)
      have lengthEq : (q.take n).length = n := by
        rw [List.length_take, Nat.min_eq_left there]
      rw [parseEq, List.map_cons, weight_cons, ih, List.flatten_cons, List.length_append,
        lengthEq, commandOf]
      dsimp only
      rw [List.length_drop, lengthEq]
      omega

theorem weight_le_of_isPrefix {front commands : List (Int × Bytes)} (starts : front <+: commands) :
    weight front ≤ weight commands := by
  rcases starts with ⟨behind, rfl⟩
  rw [weight_append]
  exact Nat.le_add_right _ _

/-- Let the server send some bytes and close.  The connection is disconnected, and before that
all valid frames of those bytes are passed to `handlePacket` exactly when they end within the
bytes received by the calls before the one that sees the end of the stream. -/
theorem all_frames_passed_iff {scripts : List (List SysRecv)} {last : List SysRecv} {s : σ}
    (supplied : DrainedThenEnds handlePacket isOpen LoopBuf.init s scripts last) :
    ∃ readings, readAll handlePacket isOpen LoopBuf.init s (scripts ++ [last]) = some readings ∧
      (∃ reading, readings.getLast? = some reading ∧ reading.ret ≠ some 0) ∧
      ((framesOf (stream (scripts ++ [last]))).packets.map commandOf <+:
          readings.flatMap Reading.commands ↔
        (framesOf (stream (scripts ++ [last]))).packets.flatten.length ≤
          (stream scripts).length) := by
  rcases readAll_ends supplied with ⟨readings, readsEq, ended, bound⟩
  have leftOver : framesOf LoopBuf.init.data = ⟨[], LoopBuf.init.data, false⟩ := by
    rw [LoopBuf.data_init]
    rfl
  have front := readAll_front leftOver supplied readsEq
  have streamEq : stream (scripts ++ [last]) = stream scripts ++ received last := by
    simp [stream]
  rw [LoopBuf.data_init] at front bound
  refine ⟨readings, readsEq, ended, fun passed => ?_, fun within => ?_⟩
  · rw [← weight_frames]
    exact (weight_le_of_isPrefix passed).trans (bound.trans_eq (Nat.zero_add _))
  · rw [streamEq] at within ⊢
    have same : (framesOf (stream scripts ++ received last)).packets =
        (framesOf (stream scripts)).packets := (Format.packets_append_iff _ _).mpr within
    rw [same]
    exact front

end HandleRead

/-- A push. -/
def pushPacket : Bytes := [0x20, 0x14, 0x12, 0x28, 0, 0, 0, 15, 0, 0, 0, 200, 26, 1, 49]

/-- The end of the stream is seen by a later call of `handleRead`. -/
theorem all_frames_passed_push :
    ∃ readings, readAll countPackets staysOpen LoopBuf.init 0
        [[.data pushPacket, .fail .eagain, .fail .eagain], [.closed]] = some readings ∧
      [commandOf pushPacket] <+: readings.flatMap Reading.commands := by
  have drains : Drains LoopBuf.init [.data pushPacket, .fail .eagain, .fail .eagain] := by
    decide +kernel
  have ends : (handleRead countPackets staysOpen LoopBuf.init 0
      [.data pushPacket, .fail .eagain, .fail .eagain]).all
      (fun result => decide (Ends result.1.buf [.closed])) = true := by
    decide +kernel
  have supplied : DrainedThenEnds countPackets staysOpen LoopBuf.init 0
      [[.data pushPacket, .fail .eagain, .fail .eagain]] [.closed] :=
    ⟨rfl, drains, fun reading rest readEq _ =>
      ⟨rfl, of_decide_eq_true ((Option.all_eq_true _ _).mp ends _ readEq)⟩⟩
  rcases all_frames_passed_iff supplied with ⟨readings, readsEq, -, passedIff⟩
  have frames : (framesOf (stream ([[.data pushPacket, .fail .eagain, .fail .eagain]] ++
      [[.closed]]))).packets = [pushPacket] := by
    decide +kernel
  rw [frames] at passedIff
  exact ⟨readings, readsEq, passedIff.mpr (by decide +kernel)⟩

/-- The push is lost when the end of the stream is seen by the call that receives it, be it
in the same `tcp_nb_receive` or in the next one. -/
theorem close_drops_push :
    (∀ last ∈ [[.data pushPacket, .closed], [.data pushPacket, .fail .eagain, .closed]],
      DrainedThenEnds countPackets staysOpen LoopBuf.init 0 [] last ∧
        (framesOf (stream [last])).packets = [pushPacket] ∧
        (readAll countPackets staysOpen LoopBuf.init 0 [last]).map
          (·.flatMap Reading.commands) = some []) ∧
      (readAll countPackets staysOpen LoopBuf.init 0
        [[.data pushPacket, .fail .eagain, .fail .eagain], [.closed]]).map
          (·.flatMap Reading.commands) = some [commandOf pushPacket] := by
  have together : Ends LoopBuf.init [.data pushPacket, .closed] := by decide +kernel
  have next : Ends LoopBuf.init [.data pushPacket, .fail .eagain, .closed] := by decide +kernel
  refine ⟨fun last mem => ?_, by decide +kernel⟩
  simp only [List.mem_cons, List.not_mem_nil, or_false] at mem
  rcases mem with rfl | rfl
  · exact ⟨⟨rfl, together⟩, by decide +kernel, by decide +kernel⟩
  · exact ⟨⟨rfl, next⟩, by decide +kernel, by decide +kernel⟩

end GPush.ClientSdk
