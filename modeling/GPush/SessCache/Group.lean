import GPush.Containers.Ordered
import GPush.ConnectServer.Session

/-!
# Looking up sessions

Every cache of a group keeps the sessions of a user in one redis hash.  A lookup reads
the hash of each cache, deletes what has expired there, and keeps the first record of
every session id.
-/

namespace GPush.SessCache

open GPush.Codec GPush.Containers GPush.ConnectServer

/-! ## Redis -/

/-- A redis hash, with its fields and values in the order in which `HGETALL` lists them. -/
structure Hash where
  entries : List (Bytes × Bytes)
  distinct : (entries.map Prod.fst).Nodup

/-- `HDEL` of some fields. -/
def Hash.delete (hash : Hash) (fields : List Bytes) : Hash where
  entries := hash.entries.filter fun entry => decide (entry.1 ∉ fields)
  distinct := hash.distinct.sublist (List.filter_sublist.map Prod.fst)

/-- `HSET` of a field.  The place of a new field is up to redis. -/
def Hash.set (hash : Hash) (field value : Bytes) : Hash where
  entries := (hash.delete [field]).entries ++ [(field, value)]
  distinct := by
    rw [List.map_append, List.nodup_append]
    refine ⟨(hash.delete [field]).distinct, by simp, ?_⟩
    intro other member _ isField
    rcases List.mem_map.mp member with ⟨entry, kept, rfl⟩
    rw [List.mem_singleton.mp isField]
    have notDeleted := of_decide_eq_true (List.mem_filter.mp kept).2
    rwa [List.mem_singleton] at notDeleted

/-- The value of a field. -/
def Hash.get (hash : Hash) (field : Bytes) : Option Bytes := hash.entries.lookup field

theorem Hash.get_set (hash : Hash) (field value : Bytes) :
    (hash.set field value).get field = some value := by
  have skipped : ∀ entries : List (Bytes × Bytes), (∀ entry ∈ entries, entry.1 ≠ field) →
      (entries ++ [(field, value)]).lookup field = some value := by
    intro entries absent
    induction entries with
    | nil => simp
    | cons entry entries ih =>
        rw [List.forall_mem_cons] at absent
        rw [List.cons_append, List.lookup_cons, beq_false_of_ne (Ne.symm absent.1)]
        exact ih absent.2
  apply skipped
  intro entry kept
  have notDeleted := of_decide_eq_true (List.mem_filter.mp kept).2
  rwa [List.mem_singleton] at notDeleted

/-- `operator<` of `std::string`. -/
def stringLess : Bytes → Bytes → Bool
  | _, [] => false
  | [], _ :: _ => true
  | a :: s, b :: t => decide (a.toNat < b.toNat) || (decide (a = b) && stringLess s t)

/-- `RedisCli::hashGetAll`, which puts the fields into a `std::map`. -/
def hashGetAll (hash : Hash) : List (Bytes × Bytes) := ofEntries stringLess hash.entries

/-- What a call on a cache meets: the clock, whether there is a handle, whether the first
command is answered without an error, and whether the `HDEL` of a lookup is. -/
structure Access where
  now : Int
  handle : Bool
  answers : Bool
  deletes : Bool

/-! ## The caches -/

/-- `RedisSessCache`: `m_expire` and the redis database, with the hash of every key. -/
structure RedisSessCache where
  expire : Int
  db : Bytes → Hash

section SetSession

variable (serialize : Sess → Bytes)

/-- `RedisSessCache::setSession`.  The result of `EXPIRE` is dropped. -/
def RedisSessCache.setSession (c : RedisSessCache) (access : Access) (s : Sess) :
    Int × RedisSessCache :=
  if access.handle = false then
    (-1002, c)
  else
    let s := { s with lasttime := access.now }
    if access.answers = false then
      (-1, c)
    else
      let hash := (c.db (sessKey s.id)).set s.sessid (base64Encode (serialize s))
      (0, { c with db := Function.update c.db (sessKey s.id) hash })

/-- `SessCacheGrp::setSession`, which drops the results of its caches. -/
def SessCacheGrp.setSession (grp : List RedisSessCache) (access : Nat → Access) (s : Sess) :
    Int × List RedisSessCache :=
  (0, grp.zipIdx.map fun p => (p.1.setSession serialize (access p.2) s).2)

end SetSession

/-- What a lookup leaves. -/
structure Lookup (κ : Type) where
  ret : Int
  cache : κ
  m : List Sess

section GetSession

variable (parse : Bytes → Sess)

/-- The session in a field.  The result of `ParseFromString` is dropped, so `parse` answers
what the message holds after it. -/
def record (entry : Bytes × Bytes) : Sess := parse (base64Decode entry.2)

/-- The session in a field is older than `expire` seconds. -/
def Expired (expire now : Int) (entry : Bytes × Bytes) : Prop :=
  (record parse entry).lasttime + expire < now

instance (expire now : Int) : DecidablePred (Expired parse expire now) :=
  fun _ => Int.decLt _ _

/-- A round of the loop of `RedisSessCache::getSession`. -/
def sortOut (expire now : Int) (lists : List Bytes × List Sess) (entry : Bytes × Bytes) :
    List Bytes × List Sess :=
  let s := record parse entry
  if Expired parse expire now entry then
    (lists.1 ++ [s.sessid], lists.2)
  else
    (lists.1, lists.2 ++ [s])

/-- `RedisSessCache::getSession`. -/
def RedisSessCache.getSession (c : RedisSessCache) (access : Access) (key : Bytes)
    (m : List Sess) : Lookup RedisSessCache :=
  if access.handle = false then
    ⟨-1002, c, m⟩
  else
    let sm := if access.answers then hashGetAll (c.db (sessKey key)) else []
    let (oldsessids, m) := sm.foldl (sortOut parse c.expire access.now) ([], m)
    let db :=
      if oldsessids ≠ [] ∧ access.deletes = true then
        Function.update c.db (sessKey key) ((c.db (sessKey key)).delete oldsessids)
      else
        c.db
    ⟨if access.answers then 0 else -1, { c with db := db }, m⟩

/-- A round of the loop of `SessCacheGrp::getSession` over the sessions found. -/
def takeNew (lists : List Bytes × List Sess) (ss : Sess) : List Bytes × List Sess :=
  if ss.sessid ∈ lists.1 then lists else (ss.sessid :: lists.1, lists.2 ++ [ss])

/-- `SessCacheGrp::getSession`; `access n` is what the cache `n` meets. -/
def SessCacheGrp.getSession (grp : List RedisSessCache) (access : Nat → Access) (key : Bytes)
    (m : List Sess) : Lookup (List RedisSessCache) :=
  let (grp, tm) := grp.zipIdx.foldl
    (fun (lists : List RedisSessCache × List Sess) (p : RedisSessCache × Nat) =>
      let looked := p.1.getSession parse (access p.2) key lists.2
      (lists.1 ++ [looked.cache], looked.m))
    ([], [])
  ⟨0, grp, (tm.foldl takeNew ([], m)).2⟩

/-! ## What is found -/

/-- The sessions of a cache that answers and that have not expired, in field order. -/
def RedisSessCache.unexpired (c : RedisSessCache) (access : Access) (key : Bytes) : List Sess :=
  if access.handle = true ∧ access.answers = true then
    ((hashGetAll (c.db (sessKey key))).filter
      fun entry => decide (¬Expired parse c.expire access.now entry)).map (record parse)
  else
    []

/-- Those of all caches, in the order of the group. -/
def found (grp : List RedisSessCache) (access : Nat → Access) (key : Bytes) : List Sess :=
  grp.zipIdx.flatMap fun p => p.1.unexpired parse (access p.2) key

/-- The caches of a group after a lookup. -/
def looked (grp : List RedisSessCache) (access : Nat → Access) (key : Bytes) :
    List RedisSessCache :=
  grp.zipIdx.map fun p => (p.1.getSession parse (access p.2) key []).cache

variable {parse}

theorem foldl_sortOut (expire now : Int) (entries : List (Bytes × Bytes))
    (lists : List Bytes × List Sess) :
    entries.foldl (sortOut parse expire now) lists =
      (lists.1 ++ ((entries.filter fun entry => decide (Expired parse expire now entry)).map
          fun entry => (record parse entry).sessid),
        lists.2 ++ (entries.filter fun entry => decide (¬Expired parse expire now entry)).map
          (record parse)) := by
  induction entries generalizing lists with
  | nil => simp
  | cons entry entries ih =>
      rw [List.foldl_cons, ih, sortOut]
      by_cases expired : Expired parse expire now entry <;> simp [expired]

theorem foldl_takeNew (tm : List Sess) (lists : List Bytes × List Sess) :
    (tm.foldl takeNew lists).2 = lists.2 ++ firsts Sess.sessid lists.1 tm := by
  induction tm generalizing lists with
  | nil => simp [firsts]
  | cons ss tm ih =>
      rw [List.foldl_cons, ih, takeNew, firsts]
      split_ifs <;> simp

theorem getSession_m (c : RedisSessCache) (access : Access) (key : Bytes) (m : List Sess) :
    (c.getSession parse access key m).m = m ++ c.unexpired parse access key := by
  rw [RedisSessCache.getSession, RedisSessCache.unexpired]
  cases access.handle with
  | false => simp
  | true =>
      cases access.answers with
      | false => simp
      | true => simp [foldl_sortOut]

/-- What a lookup leaves in a cache does not depend on what has been found before. -/
theorem getSession_cache (c : RedisSessCache) (access : Access) (key : Bytes) (m : List Sess) :
    (c.getSession parse access key m).cache = (c.getSession parse access key []).cache := by
  rw [RedisSessCache.getSession, RedisSessCache.getSession]
  cases access.handle with
  | false => rfl
  | true => simp only [Bool.true_eq_false, if_false, foldl_sortOut]

/-- The loop over the caches. -/
theorem foldl_getSession (access : Nat → Access) (key : Bytes)
    (indexed : List (RedisSessCache × Nat)) (lists : List RedisSessCache × List Sess) :
    indexed.foldl
        (fun (lists : List RedisSessCache × List Sess) (p : RedisSessCache × Nat) =>
          let looked := p.1.getSession parse (access p.2) key lists.2
          (lists.1 ++ [looked.cache], looked.m)) lists =
      (lists.1 ++ indexed.map fun p => (p.1.getSession parse (access p.2) key []).cache,
        lists.2 ++ indexed.flatMap fun p => p.1.unexpired parse (access p.2) key) := by
  induction indexed generalizing lists with
  | nil => simp
  | cons p indexed ih =>
      rw [List.foldl_cons, ih]
      simp only [getSession_m, getSession_cache, List.map_cons, List.flatMap_cons,
        List.append_assoc, List.singleton_append]

/-- The spec lemma of a lookup in a group. -/
theorem SessCacheGrp.getSession_eq (grp : List RedisSessCache) (access : Nat → Access)
    (key : Bytes) (m : List Sess) :
    SessCacheGrp.getSession parse grp access key m =
      ⟨0, looked parse grp access key,
        m ++ firsts Sess.sessid [] (found parse grp access key)⟩ := by
  rw [SessCacheGrp.getSession, foldl_getSession]
  simp only [foldl_takeNew, List.nil_append]
  rfl

/-! ## The order of the fields -/

theorem stringLess_trans {r s t : Bytes} (first : stringLess r s = true)
    (second : stringLess s t = true) : stringLess r t = true := by
  induction r generalizing s t with
  | nil =>
      cases t with
      | nil => cases s <;> simp [stringLess] at second
      | cons => rfl
  | cons a r ih =>
      cases s with
      | nil => simp [stringLess] at first
      | cons b s =>
          cases t with
          | nil => simp [stringLess] at second
          | cons c t =>
              simp only [stringLess, Bool.or_eq_true, Bool.and_eq_true, decide_eq_true_eq]
                at first second ⊢
              rcases first with below | ⟨rfl, rest⟩
              · rcases second with below' | ⟨rfl, -⟩
                · exact Or.inl (Nat.lt_trans below below')
                · exact Or.inl below
              · rcases second with below | ⟨rfl, rest'⟩
                · exact Or.inl below
                · exact Or.inr ⟨rfl, ih rest rest'⟩

theorem stringLess_total {s t : Bytes} (notLess : stringLess s t = false) (distinct : s ≠ t) :
    stringLess t s = true := by
  induction s generalizing t with
  | nil =>
      cases t with
      | nil => exact absurd rfl distinct
      | cons => simp [stringLess] at notLess
  | cons a s ih =>
      cases t with
      | nil => rfl
      | cons b t =>
          simp only [stringLess, Bool.or_eq_false_iff, Bool.and_eq_false_iff,
            decide_eq_false_iff_not] at notLess
          simp only [stringLess, Bool.or_eq_true, Bool.and_eq_true, decide_eq_true_eq]
          by_cases same : a = b
          · subst same
            rcases notLess.2 with other | restNotLess
            · exact absurd rfl other
            · apply Or.inr
              constructor
              · rfl
              · apply ih restNotLess
                rintro rfl
                exact distinct rfl
          · have other : a.toNat ≠ b.toNat := fun equal => same (UInt8.toNat_inj.mp equal)
            exact Or.inl (by omega)

theorem stringLess_irrefl (s : Bytes) : stringLess s s = false := by
  induction s with
  | nil => rfl
  | cons a s ih => simp [stringLess, ih]

theorem orders_stringLess : Orders stringLess := ⟨stringLess_trans, stringLess_total⟩

theorem mem_hashGetAll {hash : Hash} {entry : Bytes × Bytes} :
    entry ∈ hashGetAll hash ↔ entry ∈ hash.entries :=
  (ofEntries_perm hash.distinct).mem_iff

/-! ## The purge -/

/-- Every field holds a session of that id. -/
def Hash.Named (parse : Bytes → Sess) (hash : Hash) : Prop :=
  ∀ entry ∈ hash.entries, (record parse entry).sessid = entry.1

/-- The entries that have expired are those whose field is deleted. -/
theorem mem_expiredIds {hash : Hash} (named : hash.Named parse) {expire now : Int}
    {entry : Bytes × Bytes} (member : entry ∈ hash.entries) :
    entry.1 ∈ ((hashGetAll hash).filter
        fun entry => decide (Expired parse expire now entry)).map
          (fun entry => (record parse entry).sessid) ↔ Expired parse expire now entry := by
  constructor
  · intro isExpired
    rcases List.mem_map.mp isExpired with ⟨other, inFilter, sameField⟩
    rcases List.mem_filter.mp inFilter with ⟨otherMember, expired⟩
    have otherEntry := mem_hashGetAll.mp otherMember
    rw [named other otherEntry] at sameField
    have same : other = entry :=
      List.inj_on_of_nodup_map hash.distinct otherEntry member sameField
    rw [← same]
    exact of_decide_eq_true expired
  · intro expired
    apply List.mem_map.mpr
    refine ⟨entry, List.mem_filter.mpr ⟨mem_hashGetAll.mpr member, decide_eq_true expired⟩, ?_⟩
    exact named entry member

/-- Deleting the ids of the expired sessions leaves the other entries. -/
theorem delete_expiredIds {hash : Hash} (named : hash.Named parse) (expire now : Int) :
    (hash.delete (((hashGetAll hash).filter
        fun entry => decide (Expired parse expire now entry)).map
          (fun entry => (record parse entry).sessid))).entries =
      hash.entries.filter fun entry => decide (¬Expired parse expire now entry) := by
  apply List.filter_congr
  intro entry member
  rw [decide_eq_decide, mem_expiredIds named member]

/-- A lookup removes the expired entries of the hash that it reads, and no others. -/
theorem getSession_db {c : RedisSessCache} {access : Access} {key : Bytes}
    (named : (c.db (sessKey key)).Named parse) (key' : Bytes) :
    ((c.getSession parse access key []).cache.db key').entries =
      if key' = sessKey key ∧ access.handle = true ∧ access.answers = true ∧
          access.deletes = true then
        (c.db key').entries.filter fun entry => decide (¬Expired parse c.expire access.now entry)
      else
        (c.db key').entries := by
  have deleted := delete_expiredIds named c.expire access.now
  rw [RedisSessCache.getSession]
  cases access.handle with
  | false => simp
  | true =>
      cases access.answers with
      | false => simp
      | true =>
          simp only [Bool.true_eq_false, if_false, if_true, foldl_sortOut, List.nil_append,
            true_and]
          generalize ((hashGetAll (c.db (sessKey key))).filter fun entry =>
            decide (Expired parse c.expire access.now entry)).map
              (fun entry => (record parse entry).sessid) = oldsessids at deleted ⊢
          by_cases atKey : key' = sessKey key
          · subst atKey
            cases access.deletes with
            | false => simp
            | true =>
                simp only [and_self, and_true, if_true, ← deleted]
                by_cases noneOld : oldsessids = []
                · simp [noneOld, Hash.delete]
                · simp [noneOld]
          · simp only [atKey, false_and, if_false]
            split_ifs
            · rw [Function.update_of_ne atKey]
            · rfl

end GetSession

/-- A lookup appends the unexpired sessions of the caches that answer: of every session id
the first record that is found, in the order of their first appearance, where a cache
lists its fields in order.  Every cache that answers loses its expired entries in the
hash of the user, and nothing else changes. -/
theorem getSession_union (parse : Bytes → Sess) (grp : List RedisSessCache)
    (access : Nat → Access) (key : Bytes) (m : List Sess)
    (named : ∀ c ∈ grp, (c.db (sessKey key)).Named parse) :
    (∃ appended, (SessCacheGrp.getSession parse grp access key m).m = m ++ appended ∧
        (∀ s, s ∈ appended ↔
          (found parse grp access key).find? (·.sessid = s.sessid) = some s) ∧
        appended.Pairwise fun s s' =>
          (found parse grp access key).findIdx (·.sessid = s.sessid) <
            (found parse grp access key).findIdx (·.sessid = s'.sessid)) ∧
      (∀ c ∈ grp, (hashGetAll (c.db (sessKey key))).Perm (c.db (sessKey key)).entries ∧
        InOrder stringLess (hashGetAll (c.db (sessKey key)))) ∧
      (SessCacheGrp.getSession parse grp access key m).cache.length = grp.length ∧
      ∀ n c c', grp[n]? = some c →
        (SessCacheGrp.getSession parse grp access key m).cache[n]? = some c' →
        c'.expire = c.expire ∧ ∀ key', (c'.db key').entries =
          if key' = sessKey key ∧ (access n).handle = true ∧ (access n).answers = true ∧
              (access n).deletes = true then
            (c.db key').entries.filter
              fun entry => decide (¬Expired parse c.expire (access n).now entry)
          else
            (c.db key').entries := by
  rw [SessCacheGrp.getSession_eq]
  refine ⟨⟨_, rfl, ?_, pairwise_firsts _ _⟩, ?_, ?_, ?_⟩
  · intro s
    simp [mem_firsts_iff]
  · intro c _
    exact ⟨ofEntries_perm (c.db (sessKey key)).distinct, inOrder_ofEntries orders_stringLess _⟩
  · simp [looked]
  · intro n c c' atN atN'
    have lookedEq : c' = (c.getSession parse (access n) key []).cache := by
      simp only [looked, List.getElem?_map, List.getElem?_zipIdx, atN, Option.map_some,
        Nat.zero_add, Option.some.injEq] at atN'
      exact atN'.symm
    rw [lookedEq]
    constructor
    · rw [RedisSessCache.getSession]
      split_ifs <;> rfl
    · exact getSession_db (named c (List.mem_of_getElem? atN))

/-- Sessions of one byte for the id and one for `lasttime`. -/
def sampleParse (bytes : Bytes) : Sess :=
  { Sess.init with sessid := bytes.take 1, lasttime := ((bytes.drop 1).headD 0).toNat }

/-- A cache in which every hash has the session 98 at the time 10 and the session 97. -/
def sampleCache (lasttime : UInt8) : RedisSessCache where
  expire := 50
  db _ := ⟨[([98], base64Encode [98, 10]), ([97], base64Encode [97, lasttime])], by simp⟩

/-- Two of them are looked up at the time 100: the session 98 has expired, and of the
session 97 the first record is found. -/
theorem getSession_union_pair :
    ∃ appended, (SessCacheGrp.getSession sampleParse [sampleCache 90, sampleCache 80]
        (fun _ => ⟨100, true, true, true⟩) [117] []).m = [] ++ appended ∧
      ⟨[], 0, 90, [97], 0, [], []⟩ ∈ appended ∧ ∀ s ∈ appended, s.sessid ≠ [98] := by
  have named : ∀ c ∈ [sampleCache 90, sampleCache 80],
      (c.db (sessKey [117])).Named sampleParse := by
    simp only [Hash.Named]
    decide +kernel
  rcases (getSession_union sampleParse [sampleCache 90, sampleCache 80]
    (fun _ => ⟨100, true, true, true⟩) [117] [] named).1 with ⟨appended, mEq, memIff, -⟩
  refine ⟨appended, mEq, (memIff _).mpr (by decide +kernel), ?_⟩
  intro s member isOld
  have noneOld : (found sampleParse [sampleCache 90, sampleCache 80]
      (fun _ => ⟨100, true, true, true⟩) [117]).find? (·.sessid = [98]) = none := by
    decide +kernel
  have isFound := (memIff s).mp member
  rw [isOld, noneOld] at isFound
  exact absurd isFound (by simp)

end GPush.SessCache
