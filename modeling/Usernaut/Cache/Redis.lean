import Mathlib.Data.Finset.Sort
import Mathlib.Data.String.Basic
import Usernaut.Basic

/-!
# The Redis cache

`RedisCache` (`pkg/cache/redis/cache.go`) wraps a go-redis `UniversalClient`. `Set`, `Get` and
`Delete` pass one command through. `GetByPattern` collects the keys that a `SCAN` iteration
yields for the pattern, reads them all with one `MGET`, and returns the map of the keys whose
value is not `nil`, so that a key that expires between the two commands is left out. When no key
matches it returns the empty map without sending `MGET`, which Redis refuses with no keys.

The server is a state `σ` that each command reads and may change, and the client answers each
command with a value or an error. The iterator's paging (`SCAN` with a cursor until the cursor
comes back `0`) is go-redis's and not in the repository's sources: `UniversalClient.scan` is the
list of keys the iterator yields, with the error its `Err()` reports. `memory` is a reference
server: a map from keys to values, without expiry, whose `SCAN` yields the keys that a glob
matcher accepts.

This file proves:

- `getByPattern_lookup`: whatever the server does between the two commands, the map
  `GetByPattern` returns binds exactly the scanned keys that `MGET` finds, each to the value it
  finds;
- `getByPattern_memory`: on a server that holds still, `GetByPattern` answers exactly the
  entries whose key the pattern matches, and changes nothing.
-/

namespace Usernaut

namespace Redis

variable {σ : Type}

/-- The error go-redis answers for a missing key: `redis.Nil`. -/
def nilText : String := "redis: nil"

/-- The error Redis answers to an `MGET` without keys. -/
def mgetArityText : String := "ERR wrong number of arguments for \x27mget\x27 command"

/-- `redis.UniversalClient`, with the commands `RedisCache` sends: each reads the server state,
may change it, and answers a value or an error. -/
structure UniversalClient (σ : Type) where
  /-- `SET key value` with the expiry `ttl`, in nanoseconds (`0`: none). -/
  set : String → String → Nat → σ → Except String Unit × σ
  /-- `GET key`: the value, or `redis.Nil` when there is no such key. -/
  get : String → σ → Except String String × σ
  /-- The keys that `Scan(ctx, 0, pattern, 0).Iterator()` yields, in order, or the error its
  `Err()` reports. A key may be yielded more than once. -/
  scan : String → σ → Except String (List String) × σ
  /-- `MGET keys...`: one value per key, `nil` (`none`) for a key that does not exist. -/
  mget : List String → σ → Except String (List (Option String)) × σ
  /-- `DEL key`. -/
  del : String → σ → Except String Unit × σ

/-- `RedisCache`. -/
structure RedisCache (σ : Type) where
  client : UniversalClient σ

/-- One pass of `GetByPattern`'s last loop: `values[key] = vals[i]`, unless `vals[i]` is `nil`. -/
def insertValue (values : StringMap String) : String × Option String → StringMap String
  | (key, some val) => values.insert key val
  | (_, none) => values

/-- `GetByPattern`'s last loop, over each key and the value `MGET` answered for it: `MGET`
answers one value per key, so `vals[i]` is the value of `keys[i]`. -/
def buildValues (keys : List String) (vals : List (Option String)) : StringMap String :=
  (keys.zip vals).foldl insertValue ∅

namespace RedisCache

variable (rc : RedisCache σ)

/-- `Set`. -/
def set (key value : String) (ttl : Nat) : σ → Except String Unit × σ :=
  rc.client.set key value ttl

/-- `Get`: the value, or the command's error. -/
def get (key : String) : σ → Except String String × σ :=
  rc.client.get key

/-- `GetByPattern`: the keys the `SCAN` iteration yields, read with one `MGET`. -/
def getByPattern (keyPattern : String) (s : σ) : Except String (StringMap String) × σ :=
  match rc.client.scan keyPattern s with
  | (.error err, s) => (.error err, s)
  | (.ok keys, s) =>
    if keys = [] then (.ok ∅, s)
    else
      match rc.client.mget keys s with
      | (.error err, s) => (.error err, s)
      | (.ok vals, s) => (.ok (buildValues keys vals), s)

/-- `Delete`. -/
def delete (key : String) : σ → Except String Unit × σ :=
  rc.client.del key

end RedisCache

/-- A Redis server without expiry whose keys and values are those of a map. `SCAN` yields, in
order, the keys that `globMatch pattern` accepts. -/
def memory (globMatch : String → String → Bool) : UniversalClient (StringMap String) where
  set key value _ m := (.ok (), m.insert key value)
  get key m := (match m.lookup key with
    | some val => .ok val
    | none => .error nilText, m)
  scan pattern m := (.ok ((m.keys.sort (· ≤ ·)).filter (globMatch pattern)), m)
  mget keys m := (if keys = [] then .error mgetArityText else .ok (keys.map m.lookup), m)
  del key m := (.ok (), m.erase key)

/-- The cache over `memory globMatch`. -/
def memoryCache (globMatch : String → String → Bool) : RedisCache (StringMap String) :=
  ⟨memory globMatch⟩

/-! ## The map `GetByPattern` builds -/

@[simp]
theorem lookup_insertValue (values : StringMap String) (key k : String) (val : Option String) :
    (insertValue values (key, val)).lookup k =
      if key = k then val.or (values.lookup k) else values.lookup k := by
  cases val with
  | none => simp [insertValue]
  | some val =>
    by_cases hk : key = k
    · subst hk; simp [insertValue]
    · simp [insertValue, hk, Finmap.lookup_insert_of_ne _ (Ne.symm hk)]

/-- When `MGET` reads every key through `f`, the loop binds each key it meets to `f key`, if
that is not `nil`, and keeps the map it started from for the other keys. A key met twice gets
the same value twice. -/
theorem lookup_foldl_insertValue (f : String → Option String) (k : String) :
    ∀ (keys : List String) (values : StringMap String),
      ((keys.zip (keys.map f)).foldl insertValue values).lookup k =
        (if k ∈ keys then f k else none).or (values.lookup k)
  | [], _ => by simp
  | key :: keys, values => by
    rw [List.map_cons, List.zip_cons_cons, List.foldl_cons, lookup_foldl_insertValue f k keys,
      lookup_insertValue]
    by_cases hk : key = k
    · subst hk
      by_cases hmem : key ∈ keys <;> cases f key <;> simp [hmem]
    · simp [hk, Ne.symm hk]

theorem lookup_buildValues (keys : List String) (f : String → Option String) (k : String) :
    (buildValues keys (keys.map f)).lookup k = if k ∈ keys then f k else none := by
  simp [buildValues, lookup_foldl_insertValue]

/-- What `GetByPattern` answers when `SCAN` yields `keys` and `MGET`, if it is sent, reads them
through `f`. -/
theorem RedisCache.getByPattern_of_scan (rc : RedisCache σ) {p : String} {s s₁ s₂ : σ}
    {keys : List String} {f : String → Option String}
    (hscan : rc.client.scan p s = (.ok keys, s₁))
    (hmget : keys ≠ [] → rc.client.mget keys s₁ = (.ok (keys.map f), s₂)) :
    rc.getByPattern p s =
      (.ok (buildValues keys (keys.map f)), if keys = [] then s₁ else s₂) := by
  by_cases hk : keys = []
  · subst hk
    simp only [RedisCache.getByPattern, hscan]
    rfl
  · simp only [RedisCache.getByPattern, hscan, if_neg hk, hmget hk]

/-! ## What `GetByPattern` answers -/

/-- **`GetByPattern` returns what `MGET` finds of what `SCAN` yields.** When `SCAN` yields `keys`
and `MGET` then reads each key through `f`, the bindings of the server at that time, the map
binds exactly the yielded keys that `MGET` finds, each to its value: a key that expired between
the two commands is left out, and a key yielded twice is bound once. -/
theorem RedisCache.getByPattern_lookup (rc : RedisCache σ) {p : String} {s s₁ s₂ : σ}
    {keys : List String} {f : String → Option String}
    (hscan : rc.client.scan p s = (.ok keys, s₁))
    (hmget : keys ≠ [] → rc.client.mget keys s₁ = (.ok (keys.map f), s₂)) :
    ∃ values, (rc.getByPattern p s).1 = .ok values ∧
      ∀ k, values.lookup k = if k ∈ keys then f k else none :=
  ⟨_, by rw [rc.getByPattern_of_scan hscan hmget], lookup_buildValues keys f⟩

/-- A server on which `SCAN` yields `a` twice and `b`, and `b` expires before `MGET`. -/
def expiringCache : RedisCache Unit :=
  ⟨{ set := fun _ _ _ s => (.ok (), s)
     get := fun _ s => (.error nilText, s)
     scan := fun _ s => (.ok ["a", "b", "a"], s)
     mget := fun _ s => (.ok [some "1", none, some "1"], s)
     del := fun _ s => (.ok (), s) }⟩

/-- `GetByPattern` on `expiringCache` binds `a` only. -/
theorem getByPattern_lookup_expiringCache :
    expiringCache.client.scan "*" () = (.ok ["a", "b", "a"], ()) ∧
      (["a", "b", "a"] ≠ [] → expiringCache.client.mget ["a", "b", "a"] () =
        (.ok (["a", "b", "a"].map fun k => if k = "a" then some "1" else none), ())) ∧
      ∃ values, (expiringCache.getByPattern "*" ()).1 = .ok values ∧
        ∀ k, values.lookup k =
          if k ∈ ["a", "b", "a"] then (if k = "a" then some "1" else none) else none :=
  have hscan : expiringCache.client.scan "*" () = (.ok ["a", "b", "a"], ()) := rfl
  have hmget : ["a", "b", "a"] ≠ [] → expiringCache.client.mget ["a", "b", "a"] () =
      (.ok (["a", "b", "a"].map fun k => if k = "a" then some "1" else none), ()) :=
    fun _ => by decide
  ⟨hscan, hmget, expiringCache.getByPattern_lookup hscan hmget⟩

/-- **On a server that holds still, `GetByPattern` is the restriction of the cache to the
pattern**: it answers the entries whose key `globMatch pattern` accepts, leaves the server as it
was, and, when no key matches, never sends the `MGET` that Redis would refuse. -/
theorem getByPattern_memory (globMatch : String → String → Bool) (p : String)
    (m : StringMap String) :
    ∃ values, (memoryCache globMatch).getByPattern p m = (.ok values, m) ∧
      ∀ k, values.lookup k = if globMatch p k then m.lookup k else none := by
  set keys := (m.keys.sort (· ≤ ·)).filter (globMatch p)
  have hscan : (memoryCache globMatch).client.scan p m = (.ok keys, m) := rfl
  have hmget : keys ≠ [] →
      (memoryCache globMatch).client.mget keys m = (.ok (keys.map m.lookup), m) := fun hk => by
    simp [memoryCache, memory, hk]
  refine ⟨_, by rw [(memoryCache globMatch).getByPattern_of_scan hscan hmget, ite_self], fun k => ?_⟩
  -- a key the pattern matches is scanned exactly when the map has it
  rw [lookup_buildValues]
  by_cases hk : k ∈ m <;> simp [keys, hk, Finmap.mem_keys, Finmap.lookup_eq_none.mpr]

end Redis

end Usernaut
