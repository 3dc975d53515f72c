import Mathlib.Data.List.AList
import Rauta.Common

/-!
# The route cache

`RouteLruCache`: remembers the route key that a lookup resolved to. The entry of a request is keyed
by its method and by the *hash* of its path, so two paths with one hash share an entry.

Coherence proofs only look at the entries. Each operation therefore comes with one lemma that says
where an entry of its result came from; recency order and counters do not matter there.
-/

namespace Rauta

/-- `RouteKey`: method and path hash. -/
structure RouteKey where
  method : HttpMethod
  pathHash : Nat
  deriving DecidableEq, Repr

/-- The key of a method and a path. -/
def routeKey (method : HttpMethod) (path : Str) : RouteKey := ⟨method, pathHash path⟩

/-- `RouteLruCache`; the most recently used key is last in `accessOrder`. A `CacheEntry` has the
resolved key as its only field. -/
structure RouteLruCache where
  entries : AList (fun _ : RouteKey => RouteKey)
  accessOrder : List RouteKey
  hits : Nat
  misses : Nat
  maxSize : Nat

namespace RouteLruCache

/-- `RouteLruCache::new`. -/
def new (maxSize : Nat) : RouteLruCache := ⟨∅, [], 0, 0, maxSize⟩

/-- `get`: a hit moves the key to the back. -/
def get (c : RouteLruCache) (key : RouteKey) : Option RouteKey × RouteLruCache :=
  match c.entries.lookup key with
  | some resolved =>
    (some resolved,
      { c with hits := c.hits + 1, accessOrder := c.accessOrder.erase key ++ [key] })
  | none => (none, { c with misses := c.misses + 1 })

/-- The eviction of `insert`: the front of `accessOrder` goes. -/
def evict (c : RouteLruCache) : RouteLruCache :=
  if c.maxSize ≤ c.entries.entries.length then
    match c.accessOrder with
    | oldest :: order => { c with entries := c.entries.erase oldest, accessOrder := order }
    | [] => c
  else c

/-- `insert`: an entry that is present is only updated. -/
def insert (c : RouteLruCache) (lookupKey resolvedKey : RouteKey) : RouteLruCache :=
  if (c.entries.lookup lookupKey).isSome then
    { c with entries := c.entries.insert lookupKey resolvedKey }
  else
    { c.evict with
      entries := c.evict.entries.insert lookupKey resolvedKey
      accessOrder := c.evict.accessOrder ++ [lookupKey] }

/-- `invalidate`. -/
def invalidate (c : RouteLruCache) (key : RouteKey) : RouteLruCache :=
  { c with entries := c.entries.erase key, accessOrder := c.accessOrder.erase key }

/-- `clear`: the statistics stay. -/
def clear (c : RouteLruCache) : RouteLruCache := { c with entries := ∅, accessOrder := [] }

/-- The cached resolution of a key. -/
def cached (c : RouteLruCache) (key : RouteKey) : Option RouteKey := c.entries.lookup key

/-! ## Where entries come from -/

@[simp] theorem get_fst (c : RouteLruCache) (key : RouteKey) : (c.get key).1 = c.cached key := by
  unfold get cached
  split <;> simp_all

@[simp] theorem cached_get (c : RouteLruCache) (key key' : RouteKey) :
    (c.get key).2.cached key' = c.cached key' := by
  unfold get cached
  split <;> rfl

theorem cached_of_erase {entries : AList (fun _ : RouteKey => RouteKey)} {k key r : RouteKey}
    (h : (entries.erase k).lookup key = some r) : key ≠ k ∧ entries.lookup key = some r := by
  by_cases hk : key = k
  · subst hk
    rw [AList.lookup_erase] at h
    cases h
  · rw [AList.lookup_erase_ne hk] at h
    exact ⟨hk, h⟩

theorem cached_evict {c : RouteLruCache} {key r : RouteKey} (h : c.evict.cached key = some r) :
    c.cached key = some r := by
  unfold evict at h
  split at h
  · split at h
    · exact (cached_of_erase h).2
    · exact h
  · exact h

/-- After `insert`, an entry is the new one or was there before. -/
theorem cached_insert {c : RouteLruCache} {k v key r : RouteKey}
    (h : (c.insert k v).cached key = some r) : (key = k ∧ r = v) ∨ c.cached key = some r := by
  by_cases hk : key = k
  · subst hk
    left
    unfold insert cached at h
    split at h <;> simp_all [AList.lookup_insert]
  · right
    unfold insert at h
    split at h
    · simpa [cached, AList.lookup_insert_ne hk] using h
    · apply cached_evict
      simpa [cached, AList.lookup_insert_ne hk] using h

/-- After `invalidate`, an entry is one of another key that was there before. -/
theorem cached_invalidate {c : RouteLruCache} {k key r : RouteKey}
    (h : (c.invalidate k).cached key = some r) : key ≠ k ∧ c.cached key = some r :=
  cached_of_erase h

end RouteLruCache

end Rauta
