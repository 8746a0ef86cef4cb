import GPush.Config.Loader
import GPush.ConnectServer.Session
import GPush.Redis.Group

/-!
# The configuration of a cache

A cache takes its nodes from a configuration that may be replaced at any time.  It looks for
a newer one at its construction and in every `getHandle` that finds it with nodes, and a
configuration without an object of nodes leaves it as it is.
-/

namespace GPush.Redis

open GPush.Codec GPush.Config GPush.ConnectServer GPush.Crypt GPush.Json GPush.Transition

/-- `ef::DataSrc`, for calls one after the other. -/
structure Source where
  data : Value
  version : Int

/-- A source that nothing has been put into. -/
def Source.empty : Source := ⟨.null, 0⟩

/-- `setData`. -/
def Source.setData (config : Value) (src : Source) : Source := ⟨config, increment src.version⟩

/-- `RedisSessCache` with the data and the version of its loader. -/
structure RedisSessCache where
  dbg : Option RedisGroup
  expire : Int
  data : Value
  version : Int

namespace RedisSessCache

/-- `SESSION_DEFAULT_EXPIRE_SECOND`. -/
def defaultExpire : Int := 500

/-- `RedisSessCache::init`. -/
def init (config : Value) (c : RedisSessCache) : Except Fault RedisSessCache :=
  match config.get "DBGroup" with
  | none => .error .json
  | some dbconf =>
      if dbconf.isObject then do
        let dbg ← RedisGroup.init dbconf
        match config.get "Expire" with
        | none => .error .json
        | some exp => .ok { c with dbg := some dbg, expire := exp.asInt?.getD c.expire }
      else
        .ok c

/-- `loadData`. -/
def loadData (src : Source) (c : RedisSessCache) : Bool × RedisSessCache :=
  if c.version < src.version then
    (true, { c with data := src.data, version := src.version })
  else
    (false, c)

/-- The constructor. -/
def make (src : Source) : Except Fault RedisSessCache :=
  let c := (loadData src ⟨none, defaultExpire, .null, 0⟩).2
  c.init c.data

/-- The newest configuration taken in `getHandle`. -/
def reload (src : Source) (c : RedisSessCache) : Except Fault RedisSessCache :=
  if (c.loadData src).1 then
    (c.loadData src).2.init (c.loadData src).2.data
  else
    .ok (c.loadData src).2

section Calls

variable (md5 : Bytes → Block) (realToInt : UInt64 → Option Int)

/-- The call of `getHndl` at the end of `getHandle`. -/
def ask (connects : DBHandle → Bool) (key : Bytes) (c : RedisSessCache) :
    Except Fault (Option DBHandle × RedisSessCache) :=
  match c.dbg with
  | none => .error .nullPointer
  | some g => do
      let (h, g) ← g.getHndl md5 realToInt connects (sessKey key)
      return (h, { c with dbg := some g })

/-- `getHandle`. -/
def getHandle (src : Source) (connects : DBHandle → Bool) (key : Bytes) (c : RedisSessCache) :
    Except Fault (Option DBHandle × RedisSessCache) :=
  match c.dbg with
  | none => .ok (none, c)
  | some _ => do
      let c ← c.reload src
      c.ask md5 realToInt connects key

end Calls

theorem ok_bind {α β : Type} (a : α) (next : α → Except Fault β) : .ok a >>= next = next a := rfl

theorem error_bind {α β : Type} (fault : Fault) (next : α → Except Fault β) :
    (.error fault : Except Fault α) >>= next = .error fault := rfl

end RedisSessCache

/-! ## What a configuration gives -/

/-- `DBGroup` is an object. -/
def Valid (config : Value) : Prop :=
  ∃ dbconf, config.get "DBGroup" = some dbconf ∧ dbconf.isObject = true

/-- The group has the nodes of the configuration. -/
def Made (config : Value) (g : RedisGroup) : Prop :=
  ∃ dbconf g₀, config.get "DBGroup" = some dbconf ∧ RedisGroup.init dbconf = .ok g₀ ∧
    g.cfg = g₀.cfg

/-- The time that the configuration sets. -/
def expireOf (config : Value) : Option Int := (config.get "Expire").bind Value.asInt?

/-- The nodes that a call of `getHandle` finds: those of a newer configuration with an object
`DBGroup`, or the ones that the group has. -/
def RedisSessCache.nodes (src : Source) (c : RedisSessCache) : Option Value :=
  if c.version < src.version then
    match src.data.get "DBGroup" with
    | none => none
    | some dbconf =>
        if dbconf.isObject then dbconf.modifyMember "NodeCfgs" some else c.dbg.map (·.cfg)
  else
    c.dbg.map (·.cfg)

theorem init_of_isObject {dbconf : Value} (isObject : dbconf.isObject = true) :
    ∃ g, RedisGroup.init dbconf = .ok g := by
  cases dbconf with
  | null => exact ⟨_, rfl⟩
  | object members => exact ⟨_, rfl⟩
  | _ => cases isObject

theorem get_isSome {config dbconf : Value} {key : String} (found : config.get key = some dbconf)
    (key' : String) : ∃ v, config.get key' = some v := by
  cases config with
  | null => exact ⟨_, rfl⟩
  | object members => exact ⟨_, rfl⟩
  | _ => cases found

section Init

variable {realToInt : UInt64 → Option Int} {config : Value}

theorem init_of_valid (valid : Valid config) (c : RedisSessCache) :
    ∃ g, Made config g ∧ (∀ realToInt, g.Grounded realToInt) ∧ c.init config =
      .ok { c with dbg := some g, expire := (expireOf config).getD c.expire } := by
  obtain ⟨dbconf, found, isObject⟩ := valid
  obtain ⟨g, made⟩ := init_of_isObject isObject
  obtain ⟨exp, expFound⟩ := get_isSome found "Expire"
  refine ⟨g, ⟨dbconf, g, found, made, rfl⟩, fun _ => grounded_init _ made, ?_⟩
  rw [RedisSessCache.init, found]
  simp only
  rw [if_pos isObject, made, RedisSessCache.ok_bind, expFound, expireOf, expFound]
  rfl

theorem init_of_not_valid (invalid : ¬Valid config) {dbconf : Value}
    (found : config.get "DBGroup" = some dbconf) (c : RedisSessCache) :
    c.init config = .ok c := by
  rw [RedisSessCache.init, found]
  exact if_neg fun isObject => invalid ⟨dbconf, found, isObject⟩

/-- What `init` can leave: a new group, or everything as it was. -/
theorem init_cases {c c' : RedisSessCache} (done : c.init config = .ok c') :
    (Valid config ∧ ∃ g, Made config g ∧ (∀ realToInt, g.Grounded realToInt) ∧
      c' = { c with dbg := some g, expire := (expireOf config).getD c.expire }) ∨
    ¬Valid config ∧ c' = c := by
  by_cases valid : Valid config
  · obtain ⟨g, made, grounded, run⟩ := init_of_valid valid c
    rw [run] at done
    cases done
    exact Or.inl ⟨valid, g, made, grounded, rfl⟩
  · cases found : config.get "DBGroup" with
    | none =>
        rw [RedisSessCache.init, found] at done
        cases done
    | some dbconf =>
        rw [init_of_not_valid valid found] at done
        cases done
        exact Or.inr ⟨valid, rfl⟩

end Init

/-! ## Runs -/

/-- A source and the cache over it, once that is constructed, with the latest valid
configuration and the version it has. -/
structure Served where
  src : Source
  cache : Option RedisSessCache
  latest : Option Value
  latestAt : Int

/-- Before anything is configured. -/
def Served.start : Served := ⟨.empty, none, none, 0⟩

/-- What happens. -/
inductive Event
  | setData (config : Value)
  | construct
  | getHandle (connects : DBHandle → Bool) (key : Bytes)

section Runs

variable (md5 : Bytes → Block) (realToInt : UInt64 → Option Int)

/-- The step relation.  A construction and a call of `getHandle` are steps when they
return. -/
inductive Served.Step : LTS Served Event
  | setValid {s : Served} {config : Value} : Valid config →
      Step s (.setData config) { s with
        src := s.src.setData config, latest := some config, latestAt := increment s.src.version }
  | setInvalid {s : Served} {config : Value} : ¬Valid config →
      Step s (.setData config) { s with src := s.src.setData config }
  | construct {s : Served} {c : RedisSessCache} : s.cache = none →
      RedisSessCache.make s.src = .ok c → Step s .construct { s with cache := some c }
  | getHandle {s : Served} {c c' : RedisSessCache} {connects : DBHandle → Bool} {key : Bytes}
      {ret : Option DBHandle} : s.cache = some c →
      c.getHandle md5 realToInt s.src connects key = .ok (ret, c') →
      Step s (.getHandle connects key) { s with cache := some c' }

variable {md5 realToInt}

/-- A reload takes a newer configuration, or there is none. -/
theorem reload_cases {src : Source} {c c' : RedisSessCache} (done : c.reload src = .ok c') :
    (c.version < src.version ∧
      ({ c with data := src.data, version := src.version } : RedisSessCache).init src.data =
        .ok c') ∨ ¬c.version < src.version ∧ c' = c := by
  rw [RedisSessCache.reload, RedisSessCache.loadData] at done
  by_cases newer : c.version < src.version
  · rw [if_pos newer] at done
    exact Or.inl ⟨newer, done⟩
  · rw [if_neg newer] at done
    cases done
    exact Or.inr ⟨newer, rfl⟩

/-- A call of `getHandle` that returns found no group, or asked the one that it had after the
reload. -/
theorem getHandle_cases {src : Source} {connects : DBHandle → Bool} {key : Bytes}
    {c c' : RedisSessCache} {ret : Option DBHandle}
    (done : c.getHandle md5 realToInt src connects key = .ok (ret, c')) :
    (c.dbg = none ∧ ret = none ∧ c' = c) ∨
    ∃ c₁ g g', c.reload src = .ok c₁ ∧ c₁.dbg = some g ∧
      g.getHndl md5 realToInt connects (sessKey key) = .ok (ret, g') ∧
      c' = { c₁ with dbg := some g' } := by
  rw [RedisSessCache.getHandle] at done
  cases found : c.dbg with
  | none =>
      rw [found] at done
      cases done
      exact Or.inl ⟨rfl, rfl, rfl⟩
  | some g₀ =>
      rw [found] at done
      simp only at done
      cases reloaded : c.reload src with
      | error fault =>
          rw [reloaded, RedisSessCache.error_bind] at done
          cases done
      | ok c₁ =>
          rw [reloaded, RedisSessCache.ok_bind, RedisSessCache.ask] at done
          cases there : c₁.dbg with
          | none =>
              rw [there] at done
              cases done
          | some g =>
              rw [there] at done
              simp only at done
              cases run : g.getHndl md5 realToInt connects (sessKey key) with
              | error fault =>
                  rw [run, RedisSessCache.error_bind] at done
                  cases done
              | ok result =>
                  obtain ⟨h, g'⟩ := result
                  rw [run, RedisSessCache.ok_bind] at done
                  cases done
                  exact Or.inr ⟨c₁, g, g', rfl, there, run, rfl⟩

/-- The group of a cache, if there is one, is grounded. -/
def RedisSessCache.Grounded (realToInt : UInt64 → Option Int) (c : RedisSessCache) : Prop :=
  ∀ g, c.dbg = some g → g.Grounded realToInt

theorem RedisSessCache.Grounded.init {c c' : RedisSessCache} {config : Value}
    (grounded : c.Grounded realToInt) (done : c.init config = .ok c') :
    c'.Grounded realToInt := by
  rcases init_cases done with ⟨-, g, -, fresh, rfl⟩ | ⟨-, rfl⟩
  · intro g' isNew
    cases isNew
    exact fresh realToInt
  · exact grounded

theorem RedisSessCache.Grounded.reload {c c' : RedisSessCache} {src : Source}
    (grounded : c.Grounded realToInt) (done : c.reload src = .ok c') :
    c'.Grounded realToInt := by
  rcases reload_cases done with ⟨-, run⟩ | ⟨-, rfl⟩
  · exact RedisSessCache.Grounded.init (by exact grounded) run
  · exact grounded

theorem grounded_step {s t : Served} {event : Event} (taken : Served.Step md5 realToInt s event t)
    (grounded : ∀ c, s.cache = some c → c.Grounded realToInt) :
    ∀ c, t.cache = some c → c.Grounded realToInt := by
  cases taken with
  | setValid => exact grounded
  | setInvalid => exact grounded
  | @construct _ c fresh made =>
      intro c' isNew
      cases isNew
      rw [RedisSessCache.make] at made
      apply RedisSessCache.Grounded.init _ made
      intro g there
      rw [RedisSessCache.loadData] at there
      split at there <;> cases there
  | @getHandle _ c c' connects key ret found done =>
      intro c'' isNew
      cases isNew
      rcases getHandle_cases done with ⟨-, -, rfl⟩ | ⟨c₁, g, g', reloaded, there, run, rfl⟩
      · exact grounded _ found
      · intro g'' isNew
        cases isNew
        have before := (grounded c found).reload reloaded g there
        have taken : g.Step md5 realToInt ⟨connects, sessKey key⟩ g' := ⟨ret, run⟩
        exact (grounded_of_step before taken).2

/-- A reload leaves a group where there was one. -/
theorem dbg_of_reload {c c' : RedisSessCache} {src : Source} {g : RedisGroup}
    (found : c.dbg = some g) (done : c.reload src = .ok c') : ∃ g', c'.dbg = some g' := by
  rcases reload_cases done with ⟨-, run⟩ | ⟨-, rfl⟩
  · rcases init_cases run with ⟨-, g', -, -, rfl⟩ | ⟨-, rfl⟩
    · exact ⟨g', rfl⟩
    · exact ⟨g, found⟩
  · exact ⟨g, found⟩

/-- A reload that returns has taken these nodes. -/
theorem nodes_of_reload {c c' : RedisSessCache} {src : Source} (done : c.reload src = .ok c') :
    c.nodes src = c'.dbg.map (·.cfg) := by
  rw [RedisSessCache.nodes]
  rcases reload_cases done with ⟨newer, run⟩ | ⟨same, rfl⟩
  · rw [if_pos newer]
    rcases init_cases run with ⟨⟨dbconf, found, isObject⟩, g, ⟨dbconf', g₀, found', made, cfg⟩, -, rfl⟩ |
      ⟨invalid, rfl⟩
    · obtain rfl := Option.some.inj (found.symm.trans found')
      rw [found]
      simp only
      rw [if_pos isObject, (init_spec made).1, Option.map_some, cfg]
    · cases found : src.data.get "DBGroup" with
      | none =>
          rw [RedisSessCache.init, found] at run
          cases run
      | some dbconf => exact if_neg fun isObject => invalid ⟨dbconf, found, isObject⟩
  · rw [if_neg same]

/-- One that raises finds none. -/
theorem nodes_of_raised {c : RedisSessCache} {src : Source} {fault : Fault}
    (raised : c.reload src = .error fault) : c.nodes src = none := by
  rw [RedisSessCache.reload, RedisSessCache.loadData] at raised
  rw [RedisSessCache.nodes]
  by_cases newer : c.version < src.version
  · rw [if_pos newer] at raised ⊢
    cases found : src.data.get "DBGroup" with
    | none => rfl
    | some dbconf =>
        by_cases valid : Valid src.data
        · obtain ⟨g, -, -, run⟩ :=
            init_of_valid valid { c with data := src.data, version := src.version }
          cases raised.symm.trans run
        · cases raised.symm.trans (init_of_not_valid valid found _)
  · rw [if_neg newer] at raised
    cases raised

theorem getHandle_of_reload {c c' : RedisSessCache} {src : Source} {g₀ g : RedisGroup}
    (found : c.dbg = some g₀) (reloaded : c.reload src = .ok c') (there : c'.dbg = some g)
    (connects : DBHandle → Bool) (key : Bytes) :
    c.getHandle md5 realToInt src connects key =
      g.getHndl md5 realToInt connects (sessKey key) >>= fun (h, g) =>
        .ok (h, { c' with dbg := some g }) := by
  rw [RedisSessCache.getHandle, found]
  simp only
  rw [reloaded, RedisSessCache.ok_bind, RedisSessCache.ask, there]
  rfl

/-! ## Which calls answer -/

theorem answers_bind_iff {α β : Type} {node : Option DBHandle}
    {run : Except Fault (Option DBHandle × α)} (wrap : α → β) :
    Answers node (run >>= fun (h, left) => .ok (h, wrap left)) ↔ Answers node run := by
  cases run with
  | error fault =>
      constructor
      · rintro ⟨ret, left, is, -⟩
        cases is
      · rintro ⟨ret, left, is, -⟩
        cases is
  | ok result =>
      obtain ⟨h, left⟩ := result
      constructor
      · rintro ⟨ret, left', is, answer⟩
        cases is
        exact ⟨h, left, rfl, answer⟩
      · rintro ⟨ret, left', is, answer⟩
        cases is
        exact ⟨h, wrap left, rfl, answer⟩

/-- Every group, after any calls, and every cache, after any run.  A call of `getHndl` answers
exactly when the key has a node, and so does a call of `getHandle` with the nodes that it
finds, if there is a group. -/
theorem answers_iff (md5 : Bytes → Block) (realToInt : UInt64 → Option Int) :
    (∀ config g₀ calls g, RedisGroup.init config = .ok g₀ →
      Run (RedisGroup.Step md5 realToInt) anyStep g₀ calls g → ∀ connects key,
        (Answers (nodeFor md5 realToInt g₀.cfg key) (g.getHndl md5 realToInt connects key) ↔
          HasNode md5 realToInt g₀.cfg key)) ∧
    ∀ s c, Reachable (Served.Step md5 realToInt) .start s → s.cache = some c → ∀ connects key,
      (Answers ((c.nodes s.src).bind fun cfg => nodeFor md5 realToInt cfg (sessKey key))
          (c.getHandle md5 realToInt s.src connects key) ↔
        (c.dbg = none ∨ ∃ cfg, c.nodes s.src = some cfg ∧
          HasNode md5 realToInt cfg (sessKey key))) := by
  constructor
  · intro config g₀ calls g made run connects key
    let Kept (g : RedisGroup) : Prop := g.cfg = g₀.cfg ∧ g.Grounded realToInt
    have step : ∀ s call t, Kept s → anyStep s call → s.Step md5 realToInt call t → Kept t := by
      intro s call t holds _ taken
      obtain ⟨cfg, grounded⟩ := grounded_of_step holds.2 taken
      exact ⟨cfg.trans holds.1, grounded⟩
    have kept : Kept g := run.invariant ⟨rfl, grounded_init _ made⟩ step
    rw [← kept.1]
    exact answers_getHndl_iff kept.2 connects key
  · intro s c reached found connects key
    let Grounded (s : Served) : Prop := ∀ c, s.cache = some c → c.Grounded realToInt
    have step : ∀ s event t, Grounded s → Served.Step md5 realToInt s event t → Grounded t :=
      fun _ _ _ holds taken => grounded_step taken holds
    have initial : ∀ c, Served.start.cache = some c → c.Grounded realToInt := nofun
    have grounded : Grounded s := reached.invariant initial step
    cases dbg : c.dbg with
    | none =>
        apply iff_of_true
        · exact ⟨none, c, by rw [RedisSessCache.getHandle, dbg], Or.inl rfl⟩
        · exact Or.inl rfl
    | some g₀ =>
        cases reloaded : c.reload s.src with
        | error fault =>
            rw [RedisSessCache.getHandle, dbg, nodes_of_raised reloaded]
            simp only
            rw [reloaded, RedisSessCache.error_bind]
            apply iff_of_false
            · rintro ⟨ret, left, run, -⟩
              cases run
            · rintro (none | ⟨cfg, none, -⟩)
              · cases none
              · cases none
        | ok c' =>
            obtain ⟨g, there⟩ := dbg_of_reload dbg reloaded
            have grounded' := (grounded c found).reload reloaded g there
            rw [getHandle_of_reload dbg reloaded there,
              answers_bind_iff fun g : RedisGroup => ({ c' with dbg := some g } : RedisSessCache),
              nodes_of_reload reloaded, there]
            rw [Option.map_some, Option.bind_some, answers_getHndl_iff grounded']
            simp

/-- One node at the address `a`. -/
theorem answers_iff_single :
    Answers (some ⟨[97], 6379, []⟩) ((⟨[none], .object [("NodeCfgs", .array [.object
      [("IPAddr", .string [97]), ("Port", .int 6379)]])]⟩ : RedisGroup).getHndl
        (fun _ => .read []) (fun _ => none) (fun _ => true) [107]) := by
  apply ((answers_iff (fun _ => .read []) fun _ => none).1 (.object [("NodeCfgs", .array [.object
    [("IPAddr", .string [97]), ("Port", .int 6379)]])]) _ [] _ rfl Run.refl _ _).mpr
  exact ⟨by decide, by decide⟩

/-- A group without nodes, and a node that is a string. -/
theorem answers_not :
    (do let c ← RedisSessCache.make ⟨.object [("DBGroup", .object [])], 1⟩
        c.getHandle (fun _ => .read []) (fun _ => none)
          ⟨.object [("DBGroup", .object [])], 1⟩ (fun _ => true) [107]) = .error .divideByZero ∧
    (do let g ← RedisGroup.init (.object [("NodeCfgs", .array [.string [97]])])
        g.getHndl (fun _ => .read []) (fun _ => none) (fun _ => true) [107]) = .error .json :=
  ⟨rfl, rfl⟩

/-! ## Which configuration is used -/

/-- The condition on a step: the version counts the configurations; and if there is a valid
one, a call of `getHandle` finds a group, finds the latest valid configuration in place or
the one that it has loaded, and finds no configuration that `init` cannot look at. -/
def Served.Guard (s : Served) : Event → Prop
  | .setData _ => s.src.version + 1 < 2 ^ 31
  | .construct => True
  | .getHandle _ _ => ∀ config c, s.latest = some config → s.cache = some c →
      c.dbg ≠ none ∧ (Valid s.src.data ∨ s.latestAt ≤ c.version) ∧
        ((s.src.data.get "DBGroup").isSome = true ∨ ¬c.version < s.src.version)

/-- A cache with the nodes and the time of a configuration. -/
def RedisSessCache.Has (c : RedisSessCache) (config : Value) : Prop :=
  (∃ g, c.dbg = some g ∧ Made config g) ∧ ∀ n, expireOf config = some n → c.expire = n

variable (md5 realToInt) in
/-- A call of `getHandle` asks with the latest valid configuration, if there is one. -/
def Served.Uses (s : Served) (c : RedisSessCache) (connects : DBHandle → Bool) (key : Bytes) :
    Prop :=
  ∀ config, s.latest = some config → ∃ c', c.reload s.src = .ok c' ∧ c'.Has config ∧
    c.getHandle md5 realToInt s.src connects key = c'.ask md5 realToInt connects key

/-- What holds in every state of a guarded run. -/
structure Served.Current (s : Served) : Prop where
  stamped : ∀ config, s.latest = some config → 0 < s.latestAt
  counted : 0 ≤ s.src.version ∧ s.latestAt ≤ s.src.version
  inPlace : Valid s.src.data → ∀ config, s.latest = some config → config = s.src.data
  loaded : ∀ c, s.cache = some c → c.version ≤ s.src.version
  has : ∀ c config, s.cache = some c → c.dbg ≠ none → s.latest = some config →
    s.latestAt ≤ c.version → c.Has config

theorem current_start : Served.start.Current where
  stamped := nofun
  counted := ⟨Int.le_refl 0, Int.le_refl 0⟩
  inPlace _ := nofun
  loaded := nofun
  has := nofun

theorem has_init_of_valid {c c' : RedisSessCache} {config : Value} (valid : Valid config)
    (done : c.init config = .ok c') : c'.Has config ∧ c'.version = c.version := by
  rcases init_cases done with ⟨-, g, made, -, rfl⟩ | ⟨invalid, -⟩
  · refine ⟨⟨⟨g, rfl, made⟩, ?_⟩, rfl⟩
    intro n is
    simp only [is, Option.getD_some]
  · exact absurd valid invalid

/-- After a reload that the guard allows the cache has the latest valid configuration. -/
theorem has_reload {s : Served} (current : s.Current) {c : RedisSessCache}
    (found : s.cache = some c) {config : Value} (latest : s.latest = some config)
    {connects : DBHandle → Bool} {key : Bytes} (allowed : s.Guard (.getHandle connects key)) :
    ∃ c', c.reload s.src = .ok c' ∧ c'.Has config := by
  obtain ⟨group, inPlace, lookable⟩ := allowed config c latest found
  by_cases newer : c.version < s.src.version
  · have reload : c.reload s.src = ({ c with data := s.src.data, version := s.src.version } :
        RedisSessCache).init s.src.data := by
      rw [RedisSessCache.reload, RedisSessCache.loadData, if_pos newer]
      rfl
    rw [reload]
    by_cases valid : Valid s.src.data
    · rw [current.inPlace valid config latest]
      obtain ⟨g, -, -, run⟩ := init_of_valid valid
        ({ c with data := s.src.data, version := s.src.version } : RedisSessCache)
      exact ⟨_, run, (has_init_of_valid valid run).1⟩
    · obtain ⟨dbconf, is⟩ := Option.isSome_iff_exists.mp (lookable.resolve_right (not_not_intro newer))
      have before := current.has c config found group latest (inPlace.resolve_left valid)
      exact ⟨_, init_of_not_valid valid is _, before⟩
  · have reload : c.reload s.src = .ok c := by
      rw [RedisSessCache.reload, RedisSessCache.loadData, if_neg newer]
      rfl
    have upToDate := Int.le_trans current.counted.2 (Int.not_lt.mp newer)
    exact ⟨c, reload, current.has c config found group latest upToDate⟩

theorem increment_eq {v : Int} (lower : 0 ≤ v) (upper : v + 1 < 2 ^ 31) :
    increment v = v + 1 := by
  apply Int.bmod_eq_of_le <;> omega

theorem RedisSessCache.Has.setData {c : RedisSessCache} {config : Value} (has : c.Has config)
    {g g' : RedisGroup} (found : c.dbg = some g) (same : g'.cfg = g.cfg) :
    ({ c with dbg := some g' } : RedisSessCache).Has config := by
  obtain ⟨⟨g₁, there, dbconf, g₀, isObject, made, cfg⟩, expire⟩ := has
  rw [found] at there
  cases there
  exact ⟨⟨g', rfl, dbconf, g₀, isObject, made, same.trans cfg⟩, expire⟩

theorem cfg_of_getHndl {connects : DBHandle → Bool} {key : Bytes} {g g' : RedisGroup}
    {ret : Option DBHandle} (run : g.getHndl md5 realToInt connects key = .ok (ret, g')) :
    g'.cfg = g.cfg := by
  rw [RedisGroup.getHndl] at run
  split at run
  · cases run
  · split at run
    · cases run
    · cases run
      rfl
    · split at run
      · cases run
      · split at run <;> cases run <;> rfl

theorem version_of_reload {src : Source} {c c' : RedisSessCache} (done : c.reload src = .ok c')
    (counted : c.version ≤ src.version) : c'.version ≤ src.version := by
  rcases reload_cases done with ⟨-, run⟩ | ⟨-, rfl⟩
  · rcases init_cases run with ⟨-, g, -, -, rfl⟩ | ⟨-, rfl⟩ <;> exact Int.le_refl _
  · exact counted

theorem current_construct {s : Served} (current : s.Current) {c : RedisSessCache}
    (made : RedisSessCache.make s.src = .ok c) : Served.Current { s with cache := some c } := by
  rw [RedisSessCache.make, RedisSessCache.loadData] at made
  by_cases configured : 0 < s.src.version
  · rw [if_pos configured] at made
    rcases init_cases made with ⟨valid, g, isMade, -, rfl⟩ | ⟨-, rfl⟩
    · have has := has_init_of_valid valid made
      refine { current with loaded := ?_, has := ?_ }
      · intro c' is
        cases is
        exact Int.le_refl _
      · intro c' config is _ latest _
        cases is
        rw [current.inPlace valid config latest]
        exact has.1
    · refine { current with loaded := ?_, has := ?_ }
      · intro c' is
        cases is
        exact Int.le_refl _
      · intro c' config is group
        cases is
        exact absurd rfl group
  · have unset : s.latest = none := by
      rw [Option.eq_none_iff_forall_ne_some]
      intro config latest
      have stamp := current.stamped config latest
      exact configured (Int.lt_of_lt_of_le stamp current.counted.2)
    rw [if_neg configured] at made
    refine { current with loaded := ?_, has := ?_ }
    · intro c' is
      cases is
      rcases init_cases made with ⟨-, g, -, -, rfl⟩ | ⟨-, rfl⟩ <;> exact current.counted.1
    · intro c' config _ _ latest
      rw [unset] at latest
      cases latest

theorem current_getHandle {s : Served} (current : s.Current) {c c' : RedisSessCache}
    {connects : DBHandle → Bool} {key : Bytes} {ret : Option DBHandle}
    (allowed : s.Guard (.getHandle connects key)) (found : s.cache = some c)
    (done : c.getHandle md5 realToInt s.src connects key = .ok (ret, c')) :
    Served.Current { s with cache := some c' } := by
  rcases getHandle_cases done with ⟨noGroup, -, rfl⟩ | ⟨c₁, g, g', reloaded, there, run, rfl⟩
  · have same : s.cache = some c' := found
    refine { current with loaded := ?_, has := ?_ }
    · rw [← same]
      exact current.loaded
    · rw [← same]
      exact current.has
  · refine { current with loaded := ?_, has := ?_ }
    · intro c'' is
      cases is
      have kept := version_of_reload reloaded (current.loaded c found)
      exact kept
    · intro c'' config is _ latest _
      cases is
      obtain ⟨c₂, reloaded', has⟩ := has_reload current found latest allowed
      rw [reloaded] at reloaded'
      cases reloaded'
      exact has.setData there (cfg_of_getHndl run)

theorem current_step {s t : Served} {event : Event} (current : s.Current)
    (allowed : s.Guard event) (taken : Served.Step md5 realToInt s event t) : t.Current := by
  cases taken with
  | @setValid _ config valid =>
      have next := increment_eq current.counted.1 allowed
      have nonneg := current.counted.1
      constructor
      · intro _ _
        simp only [next]
        omega
      · simp only [Source.setData, next]
        omega
      · intro _ config' latest
        exact (Option.some.inj latest).symm
      · intro c found
        have before := current.loaded c found
        simp only [Source.setData, next]
        omega
      · intro c config' found _ _ stamped
        have before := current.loaded c found
        simp only [next] at stamped
        omega
  | @setInvalid _ config invalid =>
      have next := increment_eq current.counted.1 allowed
      have counted := current.counted
      refine { current with counted := ?_, inPlace := ?_, loaded := ?_ }
      · simp only [Source.setData, next]
        omega
      · exact fun valid => absurd valid invalid
      · intro c found
        have before := current.loaded c found
        simp only [Source.setData, next]
        omega
  | construct fresh made => exact current_construct current made
  | getHandle found done => exact current_getHandle current allowed found done

/-- In a guarded run every call of `getHandle` that the guard allows uses the latest valid
configuration. -/
theorem uses_latest_of_guarded {events : List Event} {s : Served}
    (run : Run (Served.Step md5 realToInt) Served.Guard .start events s) {c : RedisSessCache}
    (found : s.cache = some c) {connects : DBHandle → Bool} {key : Bytes}
    (allowed : s.Guard (.getHandle connects key)) :
    s.Uses md5 realToInt c connects key := by
  have current : s.Current :=
    run.invariant current_start fun _ _ _ holds meets taken => current_step holds meets taken
  intro config latest
  obtain ⟨c', reloaded, has⟩ := has_reload current found latest allowed
  refine ⟨c', reloaded, has, ?_⟩
  have group := (allowed config c latest found).1
  rw [RedisSessCache.getHandle]
  cases dbg : c.dbg with
  | none => exact absurd dbg group
  | some g =>
      simp only
      rw [reloaded, RedisSessCache.ok_bind]

/-- A node at the address `a`. -/
def oneNode : Value := .object [("DBGroup", .object [("NodeCfgs", .array [.object
  [("IPAddr", .string [97]), ("Port", .int 6379)]])]), ("Expire", .int 60)]

/-- No object of nodes. -/
def noNodes : Value := .object [("DBGroup", .int 5)]

theorem valid_oneNode : Valid oneNode := ⟨_, rfl, rfl⟩

theorem not_valid_noNodes : ¬Valid noNodes := by
  rintro ⟨dbconf, found, isObject⟩
  obtain rfl : Value.int 5 = dbconf := Option.some.inj found
  cases isObject

/-- A configuration that comes after an invalid one and before another, and is in place at
the construction. -/
theorem uses_latest_of_guarded_oneNode :
    ∃ s c, Run (Served.Step (fun _ => .read []) fun _ => none) Served.Guard .start
        [.setData noNodes, .setData oneNode, .construct, .setData noNodes] s ∧
      s.cache = some c ∧ s.latest = some oneNode ∧ ¬Valid s.src.data ∧
      s.Uses (fun _ => .read []) (fun _ => none) c (fun _ => true) [107] := by
  have run : Run (Served.Step (fun _ => .read []) fun _ => none) Served.Guard .start
      [.setData noNodes, .setData oneNode, .construct, .setData noNodes] _ :=
    Run.cons (show (0 : Int) + 1 < 2 ^ 31 by decide) (.setInvalid not_valid_noNodes)
      (Run.cons (show (1 : Int) + 1 < 2 ^ 31 by decide) (.setValid valid_oneNode)
        (Run.cons trivial (.construct rfl rfl)
          (Run.single (show (2 : Int) + 1 < 2 ^ 31 by decide) (.setInvalid not_valid_noNodes))))
  refine ⟨_, _, run, rfl, rfl, not_valid_noNodes, uses_latest_of_guarded run rfl ?_⟩
  intro config c latest found
  cases found
  -- The version that was loaded is the one the valid configuration was given.
  exact ⟨nofun, Or.inr (by decide), Or.inl rfl⟩

/-- Without a group nothing is used. -/
theorem not_uses_of_noGroup {s : Served} {c : RedisSessCache} {config : Value}
    (latest : s.latest = some config) (noGroup : c.dbg = none) (connects : DBHandle → Bool)
    (key : Bytes) : ¬s.Uses md5 realToInt c connects key := by
  intro uses
  obtain ⟨c', -, ⟨⟨g, there, -⟩, -⟩, asked⟩ := uses config latest
  rw [RedisSessCache.getHandle, noGroup, RedisSessCache.ask, there] at asked
  simp only at asked
  cases run : g.getHndl md5 realToInt connects (sessKey key) with
  | error fault =>
      rw [run, RedisSessCache.error_bind] at asked
      cases asked
  | ok result =>
      rw [run, RedisSessCache.ok_bind] at asked
      have dbg := congrArg (fun answer => answer.2.dbg) (Except.ok.inj asked)
      rw [noGroup] at dbg
      cases dbg

/-- A construction without an object of nodes, after which `getHandle` looks for nothing; and
a valid configuration that is replaced before it is loaded. -/
theorem not_uses_latest :
    (∃ s c, Reachable (Served.Step (fun _ => .read []) fun _ => none) .start s ∧
      s.cache = some c ∧ s.latest = some oneNode ∧
      ¬s.Uses (fun _ => .read []) (fun _ => none) c (fun _ => true) [107]) ∧
    ∃ s c, Reachable (Served.Step (fun _ => .read []) fun _ => none) .start s ∧
      s.cache = some c ∧ c.dbg ≠ none ∧ s.latest = some oneNode ∧
      ¬s.Uses (fun _ => .read []) (fun _ => none) c (fun _ => true) [107] := by
  constructor
  · have run : Run (Served.Step (fun _ => .read []) fun _ => none) anyStep .start
        [.setData noNodes, .construct, .setData oneNode] _ :=
      Run.cons trivial (.setInvalid not_valid_noNodes)
        (Run.cons trivial (.construct rfl rfl) (Run.single trivial (.setValid valid_oneNode)))
    exact ⟨_, _, run.reachable, rfl, rfl, not_uses_of_noGroup rfl rfl _ _⟩
  · have run : Run (Served.Step (fun _ => .read []) fun _ => none) anyStep .start
        [.setData (.object []), .construct, .setData oneNode, .setData noNodes] _ :=
      Run.cons trivial (.setValid ⟨.null, rfl, rfl⟩)
        (Run.cons trivial (.construct rfl rfl) (Run.cons trivial (.setValid valid_oneNode)
          (Run.single trivial (.setInvalid not_valid_noNodes))))
    refine ⟨_, _, run.reachable, rfl, nofun, rfl, fun uses => ?_⟩
    obtain ⟨c', reloaded, ⟨⟨g, there, dbconf, g₀, isObject, made, cfg⟩, -⟩, -⟩ := uses oneNode rfl
    cases reloaded
    cases there
    cases isObject
    cases made
    cases cfg

end Runs

end GPush.Redis
