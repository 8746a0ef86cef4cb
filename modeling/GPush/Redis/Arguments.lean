import GPush.Codec.Buffer
import GPush.Containers.Cells
import GPush.PushServer.Decimal
import GPush.Redis.Client
import GPush.SessCache.Group

/-!
# The arguments of commands

`RedisCli::_exeCmdWithNoOutputM` and `RedisCli::_exeCmdWithOutputM` count the arguments of a
command, allocate two arrays for them, fill the arrays with pointers and lengths, and hand them
to `_exeCmd`.  An `int` holds the count.
-/

namespace GPush.Redis

open GPush.Codec GPush.Containers GPush.LoopBuf GPush.SessCache
open GPush.PushServer (ascii)

/-- How a call can be undefined: an access outside of an array, or a number that is too large
for `int`. -/
inductive Undefined
  | outside
  | overflow

/-- A `map<string, string>`: its entries, in the order of the keys. -/
structure StringMap where
  entries : List (Bytes × Bytes)
  inOrder : InOrder stringLess entries

/-- `m[key] = value`. -/
def StringMap.set (m : StringMap) (key value : Bytes) : StringMap :=
  ⟨assign stringLess key value m.entries, m.inOrder.assign orders_stringLess key value⟩

/-! ## Filling the arrays -/

/-- The index `i` and the two arrays.  A pointer is what it points to. -/
structure Filling where
  i : Int
  argv : Cells Bytes
  argvLen : Cells Nat

namespace Filling

/-- `argv[i] = s.data()` and `argvLen[i] = s.size()`. -/
def put (s : Bytes) (f : Filling) : Except Undefined Filling :=
  match f.argv.store f.i s, f.argvLen.store f.i s.length with
  | some argv, some argvLen => .ok { f with argv := argv, argvLen := argvLen }
  | _, _ => .error .outside

/-- `i++`. -/
def next (f : Filling) : Except Undefined Filling :=
  if f.i = 2 ^ 31 - 1 then .error .overflow else .ok { f with i := f.i + 1 }

end Filling

/-- The types of an input: what lies between `begin` and `end`, and the overloads of `_argSize`
and `_fillData`. -/
class Input (T : Type) where
  Elem : Type
  elems : T → List Elem
  argSize : T → Nat
  fillData : Elem → Filling → Except Undefined Filling

instance : Input (List Bytes) where
  Elem := Bytes
  elems value := value
  argSize value := value.length
  fillData it curPos := curPos.put it

-- The bits that `size_t` loses in the shift are behind those that `argc` takes.
instance : Input StringMap where
  Elem := Bytes × Bytes
  elems value := value.entries
  argSize value := value.entries.length <<< 1
  fillData it curPos := do
    let curPos ← curPos.put it.1
    let curPos ← curPos.next
    curPos.put it.2

section Calls

variable {T : Type} [Input T]

/-- `argc`. -/
def countArgs (key : Bytes) (input : T) : Except Undefined Int :=
  let argc := wrapInt (Input.argSize input + 1)
  if key = [] then
    .ok argc
  else if argc = 2 ^ 31 - 1 then
    .error .overflow
  else
    .ok (argc + 1)

/-- The bytes that are allocated for `argc` pointers or lengths, as a `size_t`. -/
def request (argc : Int) : Nat := (8 * argc % 2 ^ 64).toNat

/-- The two calls of `malloc`, by the numbers of bytes that they give. -/
structure Malloc where
  argv : Nat → Bool
  argvLen : Nat → Bool

/-- Both calls give so many bytes. -/
def Malloc.Gives (malloc : Malloc) (bytes : Nat) : Prop :=
  malloc.argv bytes = true ∧ malloc.argvLen bytes = true

instance (malloc : Malloc) (bytes : Nat) : Decidable (malloc.Gives bytes) :=
  inferInstanceAs (Decidable (_ ∧ _))

/-- The loop over the input. -/
def fillLoop : List (Input.Elem T) → Filling → Except Undefined Filling
  | [], f => .ok f
  | it :: rest, f => do
      let f ← Input.fillData it f
      let f ← f.next
      fillLoop rest f

/-- The name of the command, the key if there is one, and the input. -/
def fillArgs (cmdName key : Bytes) (input : T) (f : Filling) : Except Undefined Filling := do
  let f ← f.put cmdName
  let f ← f.next
  if key = [] then
    fillLoop (Input.elems input) f
  else
    let f ← f.put key
    let f ← f.next
    fillLoop (Input.elems input) f

/-- What `_exeCmd` is called with. -/
structure Argv where
  argc : Int
  argv : Cells Bytes
  argvLen : Cells Nat

/-- What the two functions do before `_exeCmd`.  It is `none` where they go to `exit`. -/
def prepareArgs (malloc : Malloc) (cmdName key : Bytes) (input : T) :
    Except Undefined (Option Argv) := do
  let argc ← countArgs key input
  if malloc.Gives (request argc) then
    let f ← fillArgs cmdName key input ⟨0, .alloc (request argc / 8), .alloc (request argc / 8)⟩
    return some ⟨argc, f.argv, f.argvLen⟩
  else
    return none

/-! ## The two functions -/

/-- `CACHE_NOT_EXIST`. -/
def cacheNotExist : Int := -1000000

/-- The types of a `redisReply`. -/
inductive ReplyType
  | string
  | array
  | integer
  | nil
  | status
  | error

/-- A `redisReply`: its type, and the strings of its elements, where one may be `NULL`.  The
loops over the elements count with an `unsigned int`. -/
structure RedisReply where
  type : ReplyType
  element : List (Option Bytes)
  small : element.length < 2 ^ 32

/-- The types of an output, with the overloads of `_getResultFromReply`. -/
class Output (U : Type) where
  result : RedisReply → U → Except Undefined (Int × U)

/-- `string s(element->str, element->len)`. -/
def elementString (element : Option Bytes) : Bytes := element.getD []

instance : Output (List Bytes) where
  result reply result :=
    match reply.type with
    | .array => .ok (0, result ++ reply.element.map elementString)
    | _ => .ok (cacheNotExist, result)

/-- The loop over the elements, which come as keys and values. -/
def setPairs : List (Option Bytes) → StringMap → Except Undefined StringMap
  | [], result => .ok result
  | [_], _ => .error .outside
  | k :: v :: rest, result => setPairs rest (result.set (elementString k) (elementString v))

instance : Output StringMap where
  result reply result :=
    match reply.type with
    | .array => do
        let result ← setPairs reply.element result
        return (0, result)
    | _ => .ok (cacheNotExist, result)

/-- `getResultFromReply`. -/
def getResultFromReply {U : Type} [Output U] (reply : Option RedisReply) (result : U) :
    Except Undefined (Int × U) :=
  match reply with
  | none => .ok (cacheNotExist, result)
  | some reply =>
      match reply.type with
      | .nil => .ok (cacheNotExist, result)
      | .error => .ok (-1, result)
      | _ => Output.result reply result

/-- The client of these commands. -/
abbrev Cli := RedisCli Argv RedisReply

/-- The client with a new `Replyer`. -/
def RedisCli.withReplyer (c : Cli) : Cli := { c with rpler := none }

/-- What follows `_exeCmd` in a function without output. -/
def endNoOutput (ran : Int × Cli) : Int × Cli := (if ran.1 < 0 then -1 else 0, ran.2)

/-- What follows `_exeCmd` in a function with output. -/
def endOutput {U : Type} [Output U] (output : U) (ran : Int × Cli) :
    Except Undefined (Int × U × Cli) :=
  if ran.1 < 0 then
    .ok (-1, output, ran.2)
  else do
    let (ret, output) ← getResultFromReply ran.2.rpler output
    return (ret, output, ran.2)

/-- `_exeCmdWithNoOutputM`. -/
def RedisCli.exeCmdWithNoOutputM (malloc : Malloc) (peer : Peer Argv RedisReply) (retry : Nat)
    (cmdName key : Bytes) (input : T) (c : Cli) : Except Undefined (Int × Cli) := do
  match ← prepareArgs malloc cmdName key input with
  | none => return (-1, c.withReplyer)
  | some argv => return endNoOutput (c.withReplyer.exeCmdArgv peer retry argv)

/-- `_exeCmdWithOutputM`. -/
def RedisCli.exeCmdWithOutputM {U : Type} [Output U] (malloc : Malloc)
    (peer : Peer Argv RedisReply) (retry : Nat) (output : U) (cmdName key : Bytes) (input : T)
    (c : Cli) : Except Undefined (Int × U × Cli) := do
  match ← prepareArgs malloc cmdName key input with
  | none => return (-1, output, c.withReplyer)
  | some argv => endOutput output (c.withReplyer.exeCmdArgv peer retry argv)

/-! ## What is handed over -/

/-- The arguments of a command: its name, the key if there is one, and those of the input. -/
def commandArgs (cmdName key : Bytes) (args : List Bytes) : List Bytes :=
  cmdName :: ((if key = [] then [] else [key]) ++ args)

/-- Two arrays with these arguments and nothing else, and their number. -/
def argvOf (args : List Bytes) : Argv :=
  ⟨args.length, .holding args 0, .holding (args.map List.length) 0⟩

/-- Where there is memory, the two functions hand exactly these arguments to `_exeCmd`, and
they send nothing where there is none.  Nothing undefined happens before. -/
structure HandsOver (cmdName key : Bytes) (input : T) (args : List Bytes) : Prop where
  noOutput : ∀ malloc : Malloc, malloc.Gives (8 * args.length) → ∀ peer retry (c : Cli),
    c.exeCmdWithNoOutputM malloc peer retry cmdName key input =
      .ok (endNoOutput (c.withReplyer.exeCmdArgv peer retry (argvOf args)))
  output : ∀ malloc : Malloc, malloc.Gives (8 * args.length) → ∀ peer retry (U : Type) [Output U]
    (output : U) (c : Cli),
    c.exeCmdWithOutputM malloc peer retry output cmdName key input =
      endOutput output (c.withReplyer.exeCmdArgv peer retry (argvOf args))
  noOutput_refused : ∀ malloc : Malloc, ¬ malloc.Gives (8 * args.length) → ∀ peer retry (c : Cli),
    c.exeCmdWithNoOutputM malloc peer retry cmdName key input = .ok (-1, c.withReplyer)
  output_refused : ∀ malloc : Malloc, ¬ malloc.Gives (8 * args.length) → ∀ peer retry (U : Type)
    [Output U] (output : U) (c : Cli),
    c.exeCmdWithOutputM malloc peer retry output cmdName key input =
      .ok (-1, output, c.withReplyer)

/-! ## Filling from the front -/

/-- The arrays with some arguments at the front and `room` cells behind them, and the index of
the next cell. -/
def Filling.holding (args : List Bytes) (room : Nat) : Filling :=
  ⟨args.length, .holding args room, .holding (args.map List.length) room⟩

theorem Filling.ok_bind {α β : Type} (a : α) (next : α → Except Undefined β) :
    .ok a >>= next = next a :=
  rfl

theorem Filling.put_holding (args : List Bytes) (room : Nat) (s : Bytes) :
    (holding args (room + 1)).put s =
      .ok { holding (args ++ [s]) room with i := args.length } := by
  have pointer := Cells.store_holding args room s
  have length := Cells.store_holding (args.map List.length) room s.length
  rw [List.length_map] at length
  rw [put, holding, pointer, length, holding, List.map_append]
  rfl

theorem Filling.next_holding {args : List Bytes} {s : Bytes} (room : Nat)
    (small : (args ++ [s]).length < 2 ^ 31) :
    { holding (args ++ [s]) room with i := args.length }.next =
      .ok (holding (args ++ [s]) room) := by
  rw [List.length_append, List.length_singleton] at small
  rw [next, if_neg]
  · simp [holding]
  · dsimp only
    omega

theorem fillLoop_cons (it : Input.Elem T) (rest : List (Input.Elem T)) (f : Filling) :
    fillLoop (it :: rest) f =
      (do let f ← Input.fillData it f; f.next) >>= fun f => fillLoop rest f := by
  rw [fillLoop, bind_assoc]

/-- An input whose elements fill as many cells as `_argSize` counts. -/
class LawfulInput (T : Type) [Input T] where
  args : Input.Elem T → List Bytes
  argSize_eq : ∀ input : T, Input.argSize input = ((Input.elems input).flatMap args).length
  fillData_next : ∀ (it : Input.Elem T) (before : List Bytes) (room : Nat),
    (before ++ args it).length < 2 ^ 31 →
      (do let f ← Input.fillData it (.holding before ((args it).length + room)); f.next) =
        .ok (Filling.holding (before ++ args it) room)

instance : LawfulInput (List Bytes) where
  args it := [it]
  argSize_eq input := by
    simp [Input.elems, Input.argSize]
  fillData_next it before room small := by
    rw [List.length_singleton, Nat.add_comm]
    simp only [Input.fillData, Filling.put_holding, Filling.ok_bind]
    exact Filling.next_holding room small

instance : LawfulInput StringMap where
  args it := [it.1, it.2]
  argSize_eq input := by
    simp [Input.elems, Input.argSize, Nat.shiftLeft_eq, List.length_flatMap]
  fillData_next it before room small := by
    have cells : [it.1, it.2].length + room = room + 1 + 1 := by
      simp only [List.length_cons, List.length_nil]
      omega
    rw [List.append_cons] at small ⊢
    have first : (before ++ [it.1]).length < 2 ^ 31 := by
      rw [List.length_append] at small
      omega
    rw [cells]
    simp only [Input.fillData, Filling.put_holding, Filling.ok_bind, Filling.next_holding _ first]
    exact Filling.next_holding room small

/-! ## All arguments -/

section Lawful

variable [LawfulInput T] {cmdName key : Bytes} {input : T} {malloc : Malloc}

/-- The arguments that an input gives. -/
def inputArgs (input : T) : List Bytes := (Input.elems input).flatMap LawfulInput.args

open Filling (ok_bind)

theorem fillLoop_holding (elems : List (Input.Elem T)) {before : List Bytes} (room : Nat)
    (small : (before ++ elems.flatMap LawfulInput.args).length < 2 ^ 31) :
    fillLoop elems (.holding before ((elems.flatMap LawfulInput.args).length + room)) =
      .ok (.holding (before ++ elems.flatMap LawfulInput.args) room) := by
  induction elems generalizing before with
  | nil => simp [fillLoop]
  | cons it rest ih =>
      rw [List.flatMap_cons, ← List.append_assoc] at small ⊢
      have first : (before ++ LawfulInput.args it).length < 2 ^ 31 := by
        rw [List.length_append] at small
        omega
      rw [List.length_append, Nat.add_assoc, fillLoop_cons,
        LawfulInput.fillData_next it before _ first, ok_bind]
      exact ih small

theorem length_commandArgs (cmdName key : Bytes) (args : List Bytes) :
    (commandArgs cmdName key args).length =
      if key = [] then args.length + 1 else args.length + 2 := by
  rw [commandArgs]
  split_ifs <;> simp

theorem countArgs_eq (small : (commandArgs cmdName key (inputArgs input)).length < 2 ^ 31) :
    countArgs key input = .ok (commandArgs cmdName key (inputArgs input)).length := by
  rw [length_commandArgs] at small ⊢
  have size : Input.argSize input = (inputArgs input).length := LawfulInput.argSize_eq input
  have held : wrapInt ((inputArgs input).length + 1) = (inputArgs input).length + 1 := by
    apply wrapInt_eq
    · omega
    · split at small <;> omega
  rw [countArgs, size, held]
  split_ifs at small ⊢
  · rfl
  · omega
  · congr 1

theorem request_natCast {n : Nat} (small : n < 2 ^ 31) : request n = 8 * n := by
  rw [request]
  omega

theorem fillArgs_holding (small : (commandArgs cmdName key (inputArgs input)).length < 2 ^ 31) :
    fillArgs cmdName key input (.holding [] (commandArgs cmdName key (inputArgs input)).length) =
      .ok (.holding (commandArgs cmdName key (inputArgs input)) 0) := by
  have name : ([] ++ [cmdName]).length < 2 ^ 31 := by
    simp
  by_cases noKey : key = []
  · have args : commandArgs cmdName key (inputArgs input) =
        [] ++ [cmdName] ++ inputArgs input := by
      simp [commandArgs, noKey]
    rw [args] at small ⊢
    have rest := fillLoop_holding (Input.elems input) 0 small
    have cells : ([] ++ [cmdName] ++ inputArgs input).length =
        (inputArgs input).length + 0 + 1 := by
      simp
    rw [cells, fillArgs, Filling.put_holding, ok_bind, Filling.next_holding _ name, ok_bind,
      if_pos noKey]
    exact rest
  · have args : commandArgs cmdName key (inputArgs input) =
        [] ++ [cmdName] ++ [key] ++ inputArgs input := by
      simp [commandArgs, noKey]
    rw [args] at small ⊢
    have withKey : ([] ++ [cmdName] ++ [key]).length < 2 ^ 31 := by
      simp
    have rest := fillLoop_holding (Input.elems input) 0 small
    have cells : ([] ++ [cmdName] ++ [key] ++ inputArgs input).length =
        (inputArgs input).length + 0 + 1 + 1 := by
      simp
    rw [cells, fillArgs, Filling.put_holding, ok_bind, Filling.next_holding _ name, ok_bind,
      if_neg noKey, Filling.put_holding, ok_bind, Filling.next_holding _ withKey, ok_bind]
    exact rest

/-- With memory, the arrays have exactly the arguments. -/
theorem prepareArgs_gives (small : (commandArgs cmdName key (inputArgs input)).length < 2 ^ 31)
    (gives : malloc.Gives (8 * (commandArgs cmdName key (inputArgs input)).length)) :
    prepareArgs malloc cmdName key input =
      .ok (some (argvOf (commandArgs cmdName key (inputArgs input)))) := by
  have cells := Nat.mul_div_cancel_left (commandArgs cmdName key (inputArgs input)).length
    (show 0 < 8 by decide)
  have begins (n : Nat) : (⟨0, .alloc n, .alloc n⟩ : Filling) = .holding [] n := rfl
  rw [prepareArgs, countArgs_eq small, ok_bind, request_natCast small, if_pos gives, cells, begins,
    fillArgs_holding small]
  rfl

theorem prepareArgs_refused (small : (commandArgs cmdName key (inputArgs input)).length < 2 ^ 31)
    (refuses : ¬ malloc.Gives (8 * (commandArgs cmdName key (inputArgs input)).length)) :
    prepareArgs malloc cmdName key input = .ok none := by
  rw [prepareArgs, countArgs_eq small, ok_bind, request_natCast small, if_neg refuses]
  rfl

/-- Fewer than `2 ^ 31` arguments are handed over. -/
theorem handsOver_of_small (cmdName key : Bytes) (input : T)
    (small : (commandArgs cmdName key (inputArgs input)).length < 2 ^ 31) :
    HandsOver cmdName key input (commandArgs cmdName key (inputArgs input)) where
  noOutput malloc gives peer retry c := by
    rw [RedisCli.exeCmdWithNoOutputM, prepareArgs_gives small gives]
    rfl
  output malloc gives peer retry U _ output c := by
    rw [RedisCli.exeCmdWithOutputM, prepareArgs_gives small gives]
    rfl
  noOutput_refused malloc refuses peer retry c := by
    rw [RedisCli.exeCmdWithNoOutputM, prepareArgs_refused small refuses]
    rfl
  output_refused malloc refuses peer retry U _ output c := by
    rw [RedisCli.exeCmdWithOutputM, prepareArgs_refused small refuses]
    rfl

end Lawful

/-! ## Too many arguments -/

/-- A number that `int` holds. -/
theorem countArgs_lt {key : Bytes} {input : T} {argc : Int}
    (counted : countArgs key input = .ok argc) : argc < 2 ^ 31 := by
  have bound := (wrapInt_bounds (Input.argSize input + 1)).2
  rw [countArgs] at counted
  split_ifs at counted
  · exact Except.ok.inj counted ▸ bound
  · rw [← Except.ok.inj counted]
    omega

theorem prepareArgs_lt {malloc : Malloc} {cmdName key : Bytes} {input : T} {a : Argv}
    (prepared : prepareArgs malloc cmdName key input = .ok (some a)) : a.argc < 2 ^ 31 := by
  rw [prepareArgs] at prepared
  cases counted : countArgs key input with
  | error e =>
      rw [counted] at prepared
      cases prepared
  | ok argc =>
      rw [counted, Filling.ok_bind] at prepared
      split_ifs at prepared
      · cases filled : fillArgs cmdName key input
            ⟨0, .alloc (request argc / 8), .alloc (request argc / 8)⟩ with
        | error e =>
            rw [filled] at prepared
            cases prepared
        | ok f =>
            rw [filled] at prepared
            cases prepared
            exact countArgs_lt counted
      · cases prepared

/-- A server that answers every command. -/
def answering : Peer Argv RedisReply where
  reconnect _ := ⟨0, true, fun _ => rfl⟩
  answer _ _ := .reply ⟨.status, [], Nat.two_pow_pos 32⟩

/-- A client that is connected. -/
def connectedCli : Cli := ⟨true, 0, [], none⟩

/-- A server that answers shows what it was sent. -/
theorem small_of_handsOver {cmdName key : Bytes} {input : T} {args : List Bytes}
    (handsOver : HandsOver cmdName key input args) : args.length < 2 ^ 31 := by
  have ran := handsOver.noOutput ⟨fun _ => true, fun _ => true⟩ ⟨rfl, rfl⟩ answering 1 connectedCli
  rw [RedisCli.exeCmdWithNoOutputM] at ran
  cases prepared : prepareArgs ⟨fun _ => true, fun _ => true⟩ cmdName key input with
  | error e =>
      rw [prepared] at ran
      cases ran
  | ok argv =>
      rw [prepared, Filling.ok_bind] at ran
      cases argv with
      | none =>
          have same : [] = [argvOf args] :=
            congrArg (fun ended : Int × Cli => ended.2.sent) (Except.ok.inj ran)
          cases same
      | some a =>
          have same : [a] = [argvOf args] :=
            congrArg (fun ended : Int × Cli => ended.2.sent) (Except.ok.inj ran)
          obtain rfl := List.singleton_inj.mp same
          have bound := prepareArgs_lt prepared
          simp only [argvOf] at bound
          omega

/-- The two functions hand the arguments over, a map's keys and values in the order of the
keys, exactly when there are fewer than `2 ^ 31`. -/
theorem handsOver_iff (cmdName key : Bytes) :
    (∀ input : List Bytes,
      HandsOver cmdName key input (commandArgs cmdName key input) ↔
        (commandArgs cmdName key input).length < 2 ^ 31) ∧
    ∀ input : StringMap,
      HandsOver cmdName key input
          (commandArgs cmdName key (input.entries.flatMap fun e => [e.1, e.2])) ↔
        (commandArgs cmdName key (input.entries.flatMap fun e => [e.1, e.2])).length < 2 ^ 31 := by
  constructor
  · intro input
    have args : inputArgs input = input := List.flatMap_singleton' input
    have sufficient := handsOver_of_small cmdName key input
    rw [args] at sufficient
    exact ⟨small_of_handsOver, sufficient⟩
  · intro input
    have args : inputArgs input = input.entries.flatMap fun e => [e.1, e.2] := rfl
    have sufficient := handsOver_of_small cmdName key input
    rw [args] at sufficient
    exact ⟨small_of_handsOver, sufficient⟩

/-- With `2 ^ 32 - 2` members and a key the count is zero, and the first store is outside of the
arrays. -/
theorem not_handsOver_many :
    connectedCli.exeCmdWithNoOutputM ⟨fun _ => true, fun _ => true⟩ answering 3
        (ascii "SADD") (ascii "key") (List.replicate (2 ^ 32 - 2) ([] : Bytes)) = .error .outside ∧
    ¬ HandsOver (ascii "SADD") (ascii "key")
      (List.replicate (2 ^ 32 - 2) ([] : Bytes))
      (commandArgs (ascii "SADD") (ascii "key")
        (List.replicate (2 ^ 32 - 2) ([] : Bytes))) := by
  constructor
  · have counted : countArgs (ascii "key") (List.replicate (2 ^ 32 - 2) ([] : Bytes)) =
        .ok 0 := by
      have size : Input.argSize (List.replicate (2 ^ 32 - 2) ([] : Bytes)) = 2 ^ 32 - 2 :=
        List.length_replicate
      have held : wrapInt ((2 ^ 32 - 2 : Nat) + 1) = -1 := by decide
      rw [countArgs, size, held, if_neg (by decide), if_neg (by decide)]
      rfl
    rw [RedisCli.exeCmdWithNoOutputM, prepareArgs, counted]
    rfl
  · intro handsOver
    have small := small_of_handsOver handsOver
    rw [length_commandArgs, List.length_replicate] at small
    revert small
    decide

end Calls

end GPush.Redis
