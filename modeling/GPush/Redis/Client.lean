import Mathlib.Data.List.Basic

/-!
# Commands to redis

The two forms of `RedisCli::_exeCmd`, which repeat a command after a broken connection.  The
form with a format reads the caller's arguments through a cursor, and hands the cursor
itself to hiredis, so that every attempt starts behind the arguments of the one before.
-/

namespace GPush.Redis

universe u v w

/-- A `va_list`: the words that lie where arguments are passed, and the place of the next
one. -/
structure VaList (Arg : Type u) where
  words : Nat → Arg
  next : Nat

/-- The list when `n` arguments have been taken from it. -/
def VaList.skip {Arg : Type u} (ap : VaList Arg) (n : Nat) : VaList Arg :=
  { ap with next := ap.next + n }

/-- A format: how many arguments it takes, and the command that hiredis makes of them. -/
structure Format (Arg : Type u) (Cmd : Type v) where
  taken : Nat
  command : (Nat → Arg) → Cmd
  reads : ∀ args args', (∀ i < taken, args i = args' i) → command args = command args'

/-- What a call of `redisvCommand`, `redisCommand` or `redisCommandArgv` leads to: no reply,
one with an error in the context, a reply of the type `REDIS_REPLY_ERROR` or another one. -/
inductive Outcome (Reply : Type w)
  | noReply
  | contextError
  | errorReply
  | reply (r : Reply)

/-- What `reconnect` returns, and whether there is a context then. -/
structure Reconnected where
  ret : Int
  connected : Bool
  usable : 0 ≤ ret → connected = true

/-- `RedisCli` and the `Replyer` of a call, with the commands that were handed to hiredis so
far and the number of reconnections. -/
structure RedisCli (Cmd : Type v) (Reply : Type w) where
  connected : Bool
  reconnects : Nat
  sent : List Cmd
  rpler : Option Reply

/-- The server and the network, which may look at everything that has happened. -/
structure Peer (Cmd : Type v) (Reply : Type w) where
  reconnect : RedisCli Cmd Reply → Reconnected
  answer : RedisCli Cmd Reply → Cmd → Outcome Reply

section Calls

variable {Arg : Type u} {Cmd : Type v} {Reply : Type w}

/-- `reconnect`. -/
def RedisCli.reconnect (peer : Peer Cmd Reply) (c : RedisCli Cmd Reply) :
    Int × RedisCli Cmd Reply :=
  ((peer.reconnect c).ret,
    { c with connected := (peer.reconnect c).connected, reconnects := c.reconnects + 1 })

/-- `_doExeCmdNoReconnect`, from the call of hiredis on. -/
def RedisCli.doExeCmdNoReconnect (peer : Peer Cmd Reply) (cmd : Cmd) (c : RedisCli Cmd Reply) :
    Int × RedisCli Cmd Reply :=
  match peer.answer c cmd with
  | .noReply => (-1, { c with connected := false, sent := c.sent ++ [cmd] })
  | .contextError => (-3, { c with connected := false, sent := c.sent ++ [cmd] })
  | .errorReply => (-4, { c with sent := c.sent ++ [cmd] })
  | .reply r => (0, { c with sent := c.sent ++ [cmd], rpler := some r })

/-- The first lines of a round: a reconnection where there is no context. -/
def RedisCli.ready (peer : Peer Cmd Reply) (ret : Int) (c : RedisCli Cmd Reply) :
    Int × RedisCli Cmd Reply :=
  if c.connected then (ret, c) else c.reconnect peer

/-- The loop of `_exeCmd` with `l` rounds to go.  An attempt takes its command, and what it
leaves for the next one, from `take`. -/
def RedisCli.exeLoop {κ : Type*} (peer : Peer Cmd Reply) (take : κ → Cmd × κ) :
    Nat → Int → κ → RedisCli Cmd Reply → Int × RedisCli Cmd Reply
  | 0, ret, _, c => (ret, c)
  | l + 1, ret, ap, c =>
      if (c.ready peer ret).1 < 0 then
        exeLoop peer take l (c.ready peer ret).1 ap (c.ready peer ret).2
      else
        let (ret, c) := (c.ready peer ret).2.doExeCmdNoReconnect peer (take ap).1
        if 0 ≤ ret ∨ ret = -4 then (ret, c) else exeLoop peer take l ret (take ap).2 c

/-- The command of the form with a format.  Without a list `redisCommand` finds no arguments
and takes what lies there. -/
def Format.original (f : Format Arg Cmd) (stray : Nat → Arg) : Option (VaList Arg) → Cmd
  | none => f.command stray
  | some ap => f.command fun i => ap.words (ap.next + i)

/-- One attempt's command, and the list that hiredis leaves. -/
def Format.take (f : Format Arg Cmd) (stray : Nat → Arg) (ap : Option (VaList Arg)) :
    Cmd × Option (VaList Arg) :=
  (f.original stray ap, ap.map (·.skip f.taken))

/-- `_exeCmd` with a format. -/
def RedisCli.exeCmd (peer : Peer Cmd Reply) (retry : Nat) (f : Format Arg Cmd) (stray : Nat → Arg)
    (ap : Option (VaList Arg)) (c : RedisCli Cmd Reply) : Int × RedisCli Cmd Reply :=
  c.exeLoop peer (f.take stray) retry 0 ap

/-- `_exeCmd` with the parts of a command. -/
def RedisCli.exeCmdArgv (peer : Peer Cmd Reply) (retry : Nat) (cmd : Cmd)
    (c : RedisCli Cmd Reply) : Int × RedisCli Cmd Reply :=
  c.exeLoop peer (fun _ : Unit => (cmd, ())) retry 0 ()

/-! ## Which commands are sent -/

variable {κ : Type*} {peer : Peer Cmd Reply} {take : κ → Cmd × κ}

/-- The command of the attempt `i`. -/
def nthCommand (take : κ → Cmd × κ) : Nat → κ → Cmd
  | 0, ap => (take ap).1
  | i + 1, ap => nthCommand take i (take ap).2

/-- The commands of the first `n` attempts. -/
def firstCommands (take : κ → Cmd × κ) (n : Nat) (ap : κ) : List Cmd :=
  (List.range n).map fun i => nthCommand take i ap

theorem firstCommands_succ (take : κ → Cmd × κ) (n : Nat) (ap : κ) :
    firstCommands take (n + 1) ap = (take ap).1 :: firstCommands take n (take ap).2 := by
  rw [firstCommands, List.range_succ_eq_map, List.map_cons, List.map_map]
  rfl

theorem length_firstCommands (take : κ → Cmd × κ) (n : Nat) (ap : κ) :
    (firstCommands take n ap).length = n := by
  rw [firstCommands, List.length_map, List.length_range]

/-- The result of an attempt that breaks the connection. -/
def Outcome.breaks : Outcome Reply → Option Int
  | .noReply => some (-1)
  | .contextError => some (-3)
  | .errorReply | .reply _ => none

namespace RedisCli

theorem sent_doExeCmdNoReconnect (peer : Peer Cmd Reply) (cmd : Cmd)
    (c : RedisCli Cmd Reply) :
    (c.doExeCmdNoReconnect peer cmd).2.sent = c.sent ++ [cmd] := by
  rw [doExeCmdNoReconnect]
  split <;> rfl

theorem sent_ready (peer : Peer Cmd Reply) (ret : Int) (c : RedisCli Cmd Reply) :
    (c.ready peer ret).2.sent = c.sent := by
  rw [ready]
  split <;> rfl

/-- Every attempt sends the next command. -/
theorem sent_exeLoop (peer : Peer Cmd Reply) (take : κ → Cmd × κ) (l : Nat) (ret : Int) (ap : κ)
    (c : RedisCli Cmd Reply) :
    ∃ n, (c.exeLoop peer take l ret ap).2.sent = c.sent ++ firstCommands take n ap := by
  induction l generalizing ret ap c with
  | zero => exact ⟨0, (List.append_nil _).symm⟩
  | succ l ih =>
      rw [exeLoop]
      split
      · obtain ⟨n, later⟩ := ih (c.ready peer ret).1 ap (c.ready peer ret).2
        rw [sent_ready] at later
        exact ⟨n, later⟩
      · have once := sent_doExeCmdNoReconnect peer (take ap).1 (c.ready peer ret).2
        rw [sent_ready] at once
        simp only
        split
        · exact ⟨1, once⟩
        · obtain ⟨n, later⟩ := ih
            ((c.ready peer ret).2.doExeCmdNoReconnect peer (take ap).1).1 (take ap).2
            ((c.ready peer ret).2.doExeCmdNoReconnect peer (take ap).1).2
          refine ⟨n + 1, later.trans ?_⟩
          rw [once, firstCommands_succ, List.append_assoc, List.singleton_append]

/-! ## How often the peer fails -/

/-- The client after such an attempt. -/
def broken (cmd : Cmd) (c : RedisCli Cmd Reply) : RedisCli Cmd Reply :=
  { c with connected := false, sent := c.sent ++ [cmd] }

/-- The number of attempts that the failures of the peer allow when every attempt has the
command `cmd`: a round without a connection has none, and only a broken connection leads to
another round. -/
def attempts (peer : Peer Cmd Reply) (cmd : Cmd) : Nat → Int → RedisCli Cmd Reply → Nat
  | 0, _, _ => 0
  | l + 1, ret, c =>
      if (c.ready peer ret).1 < 0 then
        attempts peer cmd l (c.ready peer ret).1 (c.ready peer ret).2
      else
        match (peer.answer (c.ready peer ret).2 cmd).breaks with
        | none => 1
        | some ret' => attempts peer cmd l ret' ((c.ready peer ret).2.broken cmd) + 1

theorem doExeCmdNoReconnect_of_breaks {cmd : Cmd} {ret : Int} {c : RedisCli Cmd Reply}
    (lost : (peer.answer c cmd).breaks = some ret) :
    c.doExeCmdNoReconnect peer cmd = (ret, c.broken cmd) ∧ ¬(0 ≤ ret ∨ ret = -4) := by
  rw [doExeCmdNoReconnect]
  cases answered : peer.answer c cmd with
  | noReply | contextError =>
      rw [answered] at lost
      cases lost
      exact ⟨rfl, by decide⟩
  | errorReply | reply r =>
      rw [answered] at lost
      cases lost

theorem doExeCmdNoReconnect_of_stays {cmd : Cmd} {c : RedisCli Cmd Reply}
    (stays : (peer.answer c cmd).breaks = none) :
    0 ≤ (c.doExeCmdNoReconnect peer cmd).1 ∨ (c.doExeCmdNoReconnect peer cmd).1 = -4 := by
  rw [doExeCmdNoReconnect]
  cases answered : peer.answer c cmd with
  | noReply | contextError =>
      rw [answered] at stays
      cases stays
  | errorReply => exact Or.inr rfl
  | reply r => exact Or.inl (Int.le_refl 0)

/-- The form with the parts of a command makes these attempts. -/
theorem sent_exeLoop_const (peer : Peer Cmd Reply) (cmd : Cmd) (l : Nat) (ret : Int)
    (c : RedisCli Cmd Reply) :
    (c.exeLoop peer (fun _ : Unit => (cmd, ())) l ret ()).2.sent =
      c.sent ++ List.replicate (c.attempts peer cmd l ret) cmd := by
  induction l generalizing ret c with
  | zero => exact (List.append_nil _).symm
  | succ l ih =>
      rw [exeLoop, attempts]
      split
      · rw [ih, sent_ready]
      · cases lost : (peer.answer (c.ready peer ret).2 cmd).breaks with
        | none =>
            have once := sent_doExeCmdNoReconnect peer cmd (c.ready peer ret).2
            rw [sent_ready] at once
            simp only
            rw [if_pos (doExeCmdNoReconnect_of_stays lost), once]
            rfl
        | some ret' =>
            obtain ⟨once, again⟩ := doExeCmdNoReconnect_of_breaks lost
            simp only [once]
            rw [if_neg again, ih, broken, sent_ready, List.append_assoc, List.replicate_succ,
              List.singleton_append]

/-- As long as the attempts that are made have the command `cmd`, the two loops do the
same. -/
theorem exeLoop_eq_const {cmd : Cmd} {l : Nat} {ret : Int} {ap : κ} {c : RedisCli Cmd Reply}
    (same : ∀ i < c.attempts peer cmd l ret, nthCommand take i ap = cmd) :
    c.exeLoop peer take l ret ap = c.exeLoop peer (fun _ : Unit => (cmd, ())) l ret () := by
  induction l generalizing ret ap c with
  | zero => rfl
  | succ l ih =>
      rw [attempts] at same
      rw [exeLoop, exeLoop]
      split
      · next failed =>
          rw [if_pos failed] at same
          exact ih same
      · next usable =>
          rw [if_neg usable] at same
          cases lost : (peer.answer (c.ready peer ret).2 cmd).breaks with
          | none =>
              rw [lost] at same
              have first : (take ap).1 = cmd := same 0 Nat.one_pos
              have done := doExeCmdNoReconnect_of_stays lost
              simp only [first]
              rw [if_pos done, if_pos done]
          | some ret' =>
              rw [lost] at same
              have first : (take ap).1 = cmd := same 0 (Nat.succ_pos _)
              obtain ⟨once, again⟩ := doExeCmdNoReconnect_of_breaks lost
              simp only [first, once]
              rw [if_neg again, if_neg again]
              apply ih
              intro i inside
              exact same (i + 1) (Nat.succ_lt_succ inside)

end RedisCli

/-! ## The two forms -/

variable {f : Format Arg Cmd} {stray : Nat → Arg}

/-- The attempt `i` begins behind the arguments of the `i` attempts before it. -/
theorem nthCommand_take (i : Nat) (ap : Option (VaList Arg)) :
    nthCommand (f.take stray) i ap = f.original stray (ap.map (·.skip (i * f.taken))) := by
  induction i generalizing ap with
  | zero => cases ap <;> simp [nthCommand, Format.take, VaList.skip]
  | succ i ih =>
      rw [nthCommand, ih]
      cases ap with
      | none => rfl
      | some ap =>
          simp only [Format.take, Option.map_some, VaList.skip]
          rw [Nat.succ_mul, Nat.add_assoc, Nat.add_comm f.taken]

/-- The two forms do the same, and every attempt sends the original command, exactly when the
arguments behind the original ones make that command as well for all attempts after the
first. -/
theorem exeCmd_repeats_iff (peer : Peer Cmd Reply) (retry : Nat) (f : Format Arg Cmd)
    (stray : Nat → Arg) (ap : Option (VaList Arg)) (c : RedisCli Cmd Reply) :
    (c.exeCmd peer retry f stray ap = c.exeCmdArgv peer retry (f.original stray ap) ∧
      ∃ n, (c.exeCmd peer retry f stray ap).2.sent =
        c.sent ++ List.replicate n (f.original stray ap)) ↔
      ∀ i < c.attempts peer (f.original stray ap) retry 0,
        f.original stray (ap.map (·.skip (i * f.taken))) = f.original stray ap := by
  have constSent := RedisCli.sent_exeLoop_const peer (f.original stray ap) retry 0 c
  constructor
  · rintro ⟨same, -⟩ i inside
    obtain ⟨n, sent⟩ := RedisCli.sent_exeLoop peer (f.take stray) retry 0 ap c
    rw [RedisCli.exeCmd, RedisCli.exeCmdArgv] at same
    rw [same, constSent] at sent
    have commands := List.append_cancel_left sent
    have count := congrArg List.length commands
    rw [List.length_replicate, length_firstCommands] at count
    have member : nthCommand (f.take stray) i ap ∈ firstCommands (f.take stray) n ap :=
      List.mem_map.mpr ⟨i, List.mem_range.mpr (count ▸ inside), rfl⟩
    rw [← commands] at member
    rw [← nthCommand_take]
    exact List.eq_of_mem_replicate member
  · intro behind
    have same : c.exeCmd peer retry f stray ap =
        c.exeCmdArgv peer retry (f.original stray ap) := by
      apply RedisCli.exeLoop_eq_const
      intro i inside
      rw [nthCommand_take]
      exact behind i inside
    rw [same]
    exact ⟨rfl, _, constSent⟩

/-- `GET %s`, for a word that is a string. -/
def getFormat : Format String (List String) where
  taken := 1
  command args := ["GET", args 0]
  reads args args' same := by rw [same 0 Nat.zero_lt_one]

/-- A server that breaks the connection at the first command, and takes another one. -/
def breaksOnce : Peer (List String) String where
  reconnect _ := ⟨0, true, fun _ => rfl⟩
  answer c _ := if c.sent = [] then .noReply else .reply "value"

/-- The second attempt asks for what lies behind the key. -/
theorem exeCmd_not_repeats :
    ((⟨true, 0, [], none⟩ : RedisCli (List String) String).exeCmd breaksOnce 3 getFormat
      (fun _ => "") (some ⟨fun i => if i = 0 then "key" else "other", 0⟩)).2.sent =
        [["GET", "key"], ["GET", "other"]] ∧
    ((⟨true, 0, [], none⟩ : RedisCli (List String) String).exeCmdArgv breaksOnce 3
      ["GET", "key"]).2.sent = [["GET", "key"], ["GET", "key"]] := by
  constructor <;> decide

end Calls

end GPush.Redis
