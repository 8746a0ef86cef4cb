import GPush.Crypt.Rijndael
import GPush.Json.Value
import GPush.Transition.Run
import Mathlib.Data.List.Basic

/-!
# The nodes of a cache

`RedisGroup` has a table with a place for every configured node, connects a node when a key
first needs it, and chooses the node by the hash of the key.
-/

namespace GPush.Redis

open GPush.Crypt GPush.Json GPush.LoopBuf GPush.Transition

/-- A `RedisCli` by what `connect` has stored in it. -/
structure DBHandle where
  addr : Bytes
  port : Int
  passWd : Bytes
  deriving DecidableEq, Repr

/-- How a call can end without a result: a remainder by zero, an access behind the end of a
table, a value that is not what an access to it needs, or `NULL` dereferenced. -/
inductive Fault where
  | divideByZero
  | outOfRange
  | json
  | nullPointer
  deriving DecidableEq, Repr

/-- `RedisGroup`. -/
structure RedisGroup where
  dbs : List (Option DBHandle)
  cfg : Value

/-- `RedisGroup::init`, with the member that `operator[]` makes where there is none. -/
def RedisGroup.init (config : Value) : Except Fault RedisGroup :=
  match config.modifyMember "NodeCfgs" some with
  | none => .error .json
  | some cfg =>
      match cfg.get "NodeCfgs" with
      | none => .error .json
      | some urlArray => .ok ⟨List.replicate urlArray.size none, cfg⟩

section Calls

/-! `md5` stands for the hash, and `realToInt` for the conversion of a `double`. -/

variable (md5 : Bytes → Block) (realToInt : UInt64 → Option Int)

/-- The first eight bytes of the hash as a number. -/
def hashOf (key : Bytes) : Nat :=
  ((md5 key).bytes.take 8).foldr (fun byte acc => byte.toNat + 256 * acc) 0

/-- What `getHndl` reads of the node at an index: the arguments of `connectCache`. -/
def nodeAt (cfg : Value) (idx : Nat) : Option DBHandle := do
  let url ← (← cfg.get "NodeCfgs").index idx
  let ip ← (← url.get "IPAddr").asString
  let port ← (← url.get "Port").asInt realToInt
  let passwd ← (← url.get "Passwd").asString
  return ⟨ip, port, passwd⟩

/-- `RedisGroup::getHndl`; `connects` tells which nodes `connectCache` can connect. -/
def RedisGroup.getHndl (connects : DBHandle → Bool) (key : Bytes) (g : RedisGroup) :
    Except Fault (Option DBHandle × RedisGroup) :=
  if g.dbs.length = 0 then
    .error .divideByZero
  else
    match g.dbs[hashOf md5 key % g.dbs.length]? with
    | none => .error .outOfRange
    | some (some h) => .ok (some h, g)
    | some none =>
        match nodeAt realToInt g.cfg (hashOf md5 key % g.dbs.length) with
        | none => .error .json
        | some node =>
            if connects node then
              .ok (some node,
                { g with dbs := g.dbs.set (hashOf md5 key % g.dbs.length) (some node) })
            else
              .ok (none, g)

/-- A call of `getHndl` on a group. -/
structure Lookup where
  connects : DBHandle → Bool
  key : Bytes

/-- The calls that return. -/
def RedisGroup.Step : LTS RedisGroup Lookup := fun g call g' =>
  ∃ ret, g.getHndl md5 realToInt call.connects call.key = .ok (ret, g')

/-! ## What a group has -/

/-- The number of nodes in a configuration. -/
def nodeCount (cfg : Value) : Nat := ((cfg.get "NodeCfgs").getD .null).size

/-- There are nodes, and the one for the key is an object or `null` whose members convert to
what `connectCache` takes. -/
def HasNode (cfg : Value) (key : Bytes) : Prop :=
  nodeCount cfg ≠ 0 ∧ (nodeAt realToInt cfg (hashOf md5 key % nodeCount cfg)).isSome = true

/-- The node for a key. -/
def nodeFor (cfg : Value) (key : Bytes) : Option DBHandle :=
  if nodeCount cfg = 0 then none else nodeAt realToInt cfg (hashOf md5 key % nodeCount cfg)

/-- The table has a place for every node, and a handle is one for the node at its place. -/
structure RedisGroup.Grounded (g : RedisGroup) : Prop where
  size : g.dbs.length = nodeCount g.cfg
  handles : ∀ idx h, g.dbs[idx]? = some (some h) → nodeAt realToInt g.cfg idx = some h

/-- `init` keeps the configuration, and makes an empty place for every node. -/
theorem init_spec {config : Value} {g : RedisGroup} (made : RedisGroup.init config = .ok g) :
    config.modifyMember "NodeCfgs" some = some g.cfg ∧
      g.dbs = List.replicate (nodeCount g.cfg) none := by
  rw [RedisGroup.init] at made
  cases given : config.modifyMember "NodeCfgs" some with
  | none =>
      rw [given] at made
      cases made
  | some cfg =>
      rw [given] at made
      simp only at made
      cases found : cfg.get "NodeCfgs" with
      | none =>
          rw [found] at made
          cases made
      | some urls =>
          rw [found] at made
          cases made
          rw [nodeCount, found]
          exact ⟨rfl, rfl⟩

theorem grounded_init {config : Value} {g : RedisGroup} (made : RedisGroup.init config = .ok g) :
    g.Grounded realToInt := by
  rcases init_spec made with ⟨-, empty⟩
  constructor
  · rw [empty, List.length_replicate]
  · intro idx h connected
    rw [empty, List.getElem?_replicate] at connected
    split at connected
    · cases connected
    · cases connected

variable {md5 realToInt}

/-- A call answers when the key has a node, with a handle for that node or with none, and
otherwise it does not return. -/
theorem getHndl_of_grounded (md5 : Bytes → Block) {g : RedisGroup}
    (grounded : g.Grounded realToInt) (connects : DBHandle → Bool) (key : Bytes) :
    match nodeFor md5 realToInt g.cfg key with
    | none => ∃ fault, g.getHndl md5 realToInt connects key = .error fault
    | some node => ∃ ret g', g.getHndl md5 realToInt connects key = .ok (ret, g') ∧
        (ret = none ∨ ret = some node) ∧ g'.cfg = g.cfg ∧ g'.Grounded realToInt := by
  rw [nodeFor, ← grounded.size, RedisGroup.getHndl]
  split_ifs with empty
  · exact ⟨_, rfl⟩
  · have inside : hashOf md5 key % g.dbs.length < g.dbs.length :=
      Nat.mod_lt _ (Nat.pos_of_ne_zero empty)
    generalize hashOf md5 key % g.dbs.length = idx at inside
    rw [List.getElem?_eq_getElem inside]
    cases place : g.dbs[idx] with
    | some h =>
        rw [grounded.handles idx h (by rw [List.getElem?_eq_getElem inside, place])]
        exact ⟨some h, g, rfl, Or.inr rfl, rfl, grounded⟩
    | none =>
        cases node : nodeAt realToInt g.cfg idx with
        | none => exact ⟨_, rfl⟩
        | some url =>
            simp only
            split
            · refine ⟨_, _, rfl, Or.inr rfl, rfl, ?_, ?_⟩
              · rw [List.length_set]
                exact grounded.size
              · intro idx' h connected
                rw [List.getElem?_set] at connected
                split at connected
                · next same =>
                    subst same
                    cases connected
                    exact node
                · exact grounded.handles idx' h connected
            · exact ⟨none, g, rfl, Or.inl rfl, rfl, grounded⟩

/-- A call returns `NULL` or a handle for `node`. -/
def Answers {α : Type} (node : Option DBHandle) (run : Except Fault (Option DBHandle × α)) : Prop :=
  ∃ ret left, run = .ok (ret, left) ∧ (ret = none ∨ ret = node)

theorem nodeFor_isSome_iff (cfg : Value) (key : Bytes) :
    (nodeFor md5 realToInt cfg key).isSome = true ↔ HasNode md5 realToInt cfg key := by
  rw [nodeFor, HasNode]
  split <;> simp [*]

theorem answers_getHndl_iff {g : RedisGroup} (grounded : g.Grounded realToInt)
    (connects : DBHandle → Bool) (key : Bytes) :
    Answers (nodeFor md5 realToInt g.cfg key) (g.getHndl md5 realToInt connects key) ↔
      HasNode md5 realToInt g.cfg key := by
  have outcome := getHndl_of_grounded md5 grounded connects key
  rw [← nodeFor_isSome_iff]
  cases node : nodeFor md5 realToInt g.cfg key with
  | none =>
      rw [node] at outcome
      obtain ⟨fault, raised⟩ := outcome
      apply iff_of_false
      · rintro ⟨ret, left, run, -⟩
        rw [raised] at run
        cases run
      · exact nofun
  | some h =>
      rw [node] at outcome
      obtain ⟨ret, g', run, answer, -⟩ := outcome
      exact iff_of_true ⟨ret, g', run, answer⟩ rfl

/-- A call that returns leaves the configuration, and every handle is one for its node. -/
theorem grounded_of_step {g g' : RedisGroup} {call : Lookup} (grounded : g.Grounded realToInt)
    (taken : g.Step md5 realToInt call g') : g'.cfg = g.cfg ∧ g'.Grounded realToInt := by
  obtain ⟨ret, run⟩ := taken
  have outcome := getHndl_of_grounded md5 grounded call.connects call.key
  rw [run] at outcome
  split at outcome
  · obtain ⟨fault, raised⟩ := outcome
    cases raised
  · obtain ⟨ret', g'', same, -, kept, grounded'⟩ := outcome
    cases same
    exact ⟨kept, grounded'⟩

end Calls

end GPush.Redis
