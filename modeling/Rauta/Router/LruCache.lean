import Mathlib.Data.List.Induction
import Rauta.Lib.History
import Rauta.Lib.Recency
import Rauta.Router.Cache

/-!
# The route cache is a bounded LRU cache

`RouteLruCache` keeps a map and a queue, and its operations edit the two separately. `WellFormed` is
what they keep together: the queue lists the keys of the map, each once, and there are at most
`max_size` of them.

Everything else is a statement about the whole history (`steps`). Each operation leaves out some
keys of the queue and appends the key it uses (`exists_accessOrder_apply`), so the queue is in the
order of last use (`Lib/Recency`) and its front is the least recently used key. An entry is there
since the last `insert` of its key (`cached_apply_iff`, with `Since` from `Lib/History`).

Using a key is a hit of `get`, or the `insert` that adds it; an `insert` that updates an entry does
not count.
-/

namespace Rauta

/-- An operation on the cache. -/
inductive CacheOp where
  | get (key : RouteKey)
  | insert (lookupKey resolvedKey : RouteKey)
  | invalidate (key : RouteKey)
  | clear
  deriving DecidableEq

namespace CacheOp

/-- The key that the operation uses, if it is applied to this cache. -/
def used (c : RouteLruCache) : CacheOp → Option RouteKey
  | .get key => if key ∈ c.entries then some key else none
  | .insert key _ => if key ∈ c.entries then none else some key
  | .invalidate _ => none
  | .clear => none

def isGet : CacheOp → Bool
  | .get _ => true
  | _ => false

end CacheOp

namespace RouteLruCache

/-- The cache after the operation. -/
def apply (c : RouteLruCache) : CacheOp → RouteLruCache
  | .get key => (c.get key).2
  | .insert lookupKey resolvedKey => c.insert lookupKey resolvedKey
  | .invalidate key => c.invalidate key
  | .clear => c.clear

/-- `size`. -/
def size (c : RouteLruCache) : Nat := c.entries.keys.length

/-- A step of a history: an operation, with the cache that it was applied to. -/
abbrev Step := RouteLruCache × CacheOp

/-- The history of a sequence of operations. -/
def steps (c : RouteLruCache) : List CacheOp → List Step
  | [] => []
  | op :: ops => (c, op) :: steps (c.apply op) ops

theorem steps_concat (c : RouteLruCache) (ops : List CacheOp) (op : CacheOp) :
    c.steps (ops ++ [op]) = c.steps ops ++ [(ops.foldl apply c, op)] := by
  induction ops generalizing c with
  | nil => rfl
  | cons op' ops ih => rw [List.cons_append, steps, ih, steps, List.cons_append, List.foldl_cons]

/-- The keys that a history uses, step by step. -/
def uses (history : List Step) : List (Option RouteKey) := history.map fun st => st.2.used st.1

/-- The step inserts this value for the key. -/
def Inserts (key value : RouteKey) (st : Step) : Prop := st.2 = .insert key value

/-- The step evicts the key: a key that is not there is inserted, the cache is full, and the key is
the first of the queue. -/
def Evicts (key : RouteKey) (st : Step) : Prop :=
  (∃ k v, st.2 = .insert k v ∧ k ∉ st.1.entries) ∧ st.1.maxSize ≤ st.1.size ∧
    st.1.accessOrder.head? = some key

/-- The step ends the life of an entry for the key: it inserts another value, evicts the key,
invalidates it, or clears the cache. -/
def Ends (key : RouteKey) (st : Step) : Prop :=
  (∃ value, Inserts key value st) ∨ Evicts key st ∨ st.2 = .invalidate key ∨ st.2 = .clear

/-! ## The map and the queue -/

/-- The queue lists the keys of the map, each once, and they are not too many. -/
structure WellFormed (c : RouteLruCache) : Prop where
  nodup : c.accessOrder.Nodup
  keys : ∀ key, key ∈ c.accessOrder ↔ key ∈ c.entries
  bounded : c.size ≤ c.maxSize

variable {c : RouteLruCache} {key : RouteKey}

theorem size_eq_length_entries : c.size = c.entries.entries.length := List.length_map _

theorem WellFormed.accessOrder_perm (h : c.WellFormed) : c.accessOrder.Perm c.entries.keys :=
  (List.perm_ext_iff_of_nodup h.nodup c.entries.keys_nodup).mpr h.keys

@[simp] theorem maxSize_evict : c.evict.maxSize = c.maxSize := by
  unfold evict
  split
  · split <;> rfl
  · rfl

@[simp] theorem maxSize_apply (op : CacheOp) : (c.apply op).maxSize = c.maxSize := by
  cases op with
  | get key =>
      show (c.get key).2.maxSize = _
      unfold get
      split <;> rfl
  | insert k v =>
      show (c.insert k v).maxSize = _
      unfold insert
      split
      · rfl
      · exact maxSize_evict
  | invalidate key => rfl
  | clear => rfl

/-- What eviction does: nothing if there is room, and otherwise the front of the queue goes. -/
theorem WellFormed.evict_cases (h : c.WellFormed) (hmax : 1 ≤ c.maxSize) :
    (c.size < c.maxSize ∧ c.evict = c) ∨
    (c.size = c.maxSize ∧ ∃ oldest order, c.accessOrder = oldest :: order ∧
      c.evict = { c with entries := c.entries.erase oldest, accessOrder := order }) := by
  unfold evict
  rw [← size_eq_length_entries]
  by_cases hfull : c.maxSize ≤ c.size
  · have hsize : c.size = c.maxSize := Nat.le_antisymm h.bounded hfull
    rw [if_pos hfull]
    cases horder : c.accessOrder with
    | nil =>
        have hempty : c.size = 0 := by
          rw [size, ← h.accessOrder_perm.length_eq, horder, List.length_nil]
        omega
    | cons oldest order => exact Or.inr ⟨hsize, oldest, order, rfl, rfl⟩
  · rw [if_neg hfull]
    exact Or.inl ⟨Nat.lt_of_not_le hfull, rfl⟩

theorem size_erase (hmem : key ∈ c.entries) :
    (c.entries.erase key).keys.length + 1 = c.size := by
  rw [AList.keys_erase, size, List.length_erase_add_one hmem]

/-- After eviction there is room. -/
theorem WellFormed.evict (h : c.WellFormed) (hmax : 1 ≤ c.maxSize) :
    c.evict.WellFormed ∧ c.evict.size < c.maxSize := by
  rcases h.evict_cases hmax with ⟨hroom, hevict⟩ | ⟨hfull, oldest, order, horder, hevict⟩
  · rw [hevict]
    exact ⟨h, hroom⟩
  · have hnodup := h.nodup
    rw [horder, List.nodup_cons] at hnodup
    have hmem : oldest ∈ c.entries := (h.keys oldest).mp (by rw [horder]; exact List.mem_cons_self)
    have hsize := size_erase hmem
    rw [hevict]
    refine ⟨⟨hnodup.2, fun key => ?_, ?_⟩, ?_⟩
    · show key ∈ order ↔ key ∈ c.entries.erase oldest
      rw [AList.mem_erase, ← h.keys key, horder, List.mem_cons]
      constructor
      · intro hkey
        exact ⟨fun heq => hnodup.1 (heq ▸ hkey), Or.inr hkey⟩
      · rintro ⟨hne, heq | hkey⟩
        · exact absurd heq hne
        · exact hkey
    · show (c.entries.erase oldest).keys.length ≤ c.maxSize
      omega
    · show (c.entries.erase oldest).keys.length < c.maxSize
      omega

/-- Eviction leaves out keys of the queue. -/
theorem accessOrder_evict_sublist : c.evict.accessOrder.Sublist c.accessOrder := by
  unfold RouteLruCache.evict
  split
  · split
    · next horder =>
      rw [horder]
      exact List.sublist_cons_self _ _
    · exact List.Sublist.refl _
  · exact List.Sublist.refl _

theorem insert_of_mem {k : RouteKey} (hmem : k ∈ c.entries) (v : RouteKey) :
    c.insert k v = { c with entries := c.entries.insert k v } := by
  rw [insert, if_pos (AList.lookup_isSome.mpr hmem)]

theorem insert_of_notMem {k : RouteKey} (hnew : k ∉ c.entries) (v : RouteKey) :
    c.insert k v = { c.evict with
      entries := c.evict.entries.insert k v
      accessOrder := c.evict.accessOrder ++ [k] } := by
  rw [insert, if_neg fun hsome => hnew (AList.lookup_isSome.mp hsome)]

theorem get_snd_of_mem (hmem : key ∈ c.entries) :
    (c.get key).2 = { c with
      hits := c.hits + 1
      accessOrder := c.accessOrder.erase key ++ [key] } := by
  obtain ⟨value, hvalue⟩ := Option.isSome_iff_exists.mp (AList.lookup_isSome.mpr hmem)
  simp only [get, hvalue]

theorem get_snd_of_notMem (hnew : key ∉ c.entries) :
    (c.get key).2 = { c with misses := c.misses + 1 } := by
  simp only [get, AList.lookup_eq_none.mpr hnew]

/-- **What an operation does to the queue**: it leaves out some keys, and appends the key it uses.
-/
theorem WellFormed.exists_accessOrder_apply (h : c.WellFormed) (op : CacheOp) :
    ∃ order, order.Sublist c.accessOrder ∧ (∀ key ∈ order, op.used c ≠ some key) ∧
      (c.apply op).accessOrder = order ++ (op.used c).toList := by
  cases op with
  | get key =>
      by_cases hmem : key ∈ c.entries
      · refine ⟨c.accessOrder.erase key, List.erase_sublist, fun k hk heq => ?_, ?_⟩
        · rw [CacheOp.used, if_pos hmem, Option.some.injEq] at heq
          exact h.nodup.not_mem_erase (heq ▸ hk)
        · rw [apply, get_snd_of_mem hmem, CacheOp.used, if_pos hmem, Option.toList_some]
      · refine ⟨c.accessOrder, List.Sublist.refl _, ?_, ?_⟩ <;>
          simp [CacheOp.used, hmem, apply, get_snd_of_notMem hmem]
  | insert k v =>
      by_cases hmem : k ∈ c.entries
      · refine ⟨c.accessOrder, List.Sublist.refl _, ?_, ?_⟩ <;>
          simp [CacheOp.used, hmem, apply, insert_of_mem hmem]
      · refine ⟨c.evict.accessOrder, accessOrder_evict_sublist, fun key hkey heq => ?_, ?_⟩
        · rw [CacheOp.used, if_neg hmem, Option.some.injEq] at heq
          exact hmem ((h.keys k).mp (accessOrder_evict_sublist.subset (heq ▸ hkey)))
        · rw [apply, insert_of_notMem hmem, CacheOp.used, if_neg hmem, Option.toList_some]
  | invalidate key =>
      refine ⟨c.accessOrder.erase key, List.erase_sublist, ?_, ?_⟩ <;>
        simp [CacheOp.used, apply, invalidate]
  | clear => exact ⟨[], List.nil_sublist _, by simp, by simp [CacheOp.used, apply, clear]⟩

theorem WellFormed.nodup_apply (h : c.WellFormed) (op : CacheOp) :
    (c.apply op).accessOrder.Nodup := by
  obtain ⟨order, hsub, hunused, happly⟩ := h.exists_accessOrder_apply op
  rw [happly]
  refine List.Nodup.append (h.nodup.sublist hsub) ?_ fun key hkey hused => ?_
  · cases op.used c <;> simp
  · exact hunused key hkey (Option.mem_toList.mp hused)

theorem WellFormed.keys_apply (h : c.WellFormed) (hmax : 1 ≤ c.maxSize) (op : CacheOp)
    (key : RouteKey) : key ∈ (c.apply op).accessOrder ↔ key ∈ (c.apply op).entries := by
  cases op with
  | get k =>
      by_cases hmem : k ∈ c.entries
      · rw [RouteLruCache.apply, get_snd_of_mem hmem]
        show key ∈ c.accessOrder.erase k ++ [k] ↔ key ∈ c.entries
        rw [List.mem_append, h.nodup.mem_erase_iff, List.mem_singleton, h.keys]
        constructor
        · rintro (⟨-, hkey⟩ | rfl)
          · exact hkey
          · exact hmem
        · intro hkey
          by_cases heq : key = k
          · exact Or.inr heq
          · exact Or.inl ⟨heq, hkey⟩
      · rw [RouteLruCache.apply, get_snd_of_notMem hmem]
        exact h.keys key
  | insert k v =>
      by_cases hmem : k ∈ c.entries
      · rw [RouteLruCache.apply, insert_of_mem hmem]
        show key ∈ c.accessOrder ↔ key ∈ c.entries.insert k v
        rw [AList.mem_insert, h.keys]
        exact ⟨Or.inr, fun hor => hor.elim (fun heq => heq ▸ hmem) id⟩
      · rw [RouteLruCache.apply, insert_of_notMem hmem]
        show key ∈ c.evict.accessOrder ++ [k] ↔ key ∈ c.evict.entries.insert k v
        rw [AList.mem_insert, List.mem_append, List.mem_singleton, (h.evict hmax).1.keys, or_comm]
  | invalidate k =>
      show key ∈ c.accessOrder.erase k ↔ key ∈ c.entries.erase k
      rw [AList.mem_erase, h.nodup.mem_erase_iff, h.keys]
  | clear => exact iff_of_false List.not_mem_nil (AList.notMem_empty key)

theorem WellFormed.bounded_apply (h : c.WellFormed) (hmax : 1 ≤ c.maxSize) (op : CacheOp) :
    (c.apply op).size ≤ (c.apply op).maxSize := by
  rw [maxSize_apply]
  have hbounded := h.bounded
  cases op with
  | get k =>
      show (c.get k).2.entries.keys.length ≤ c.maxSize
      by_cases hmem : k ∈ c.entries
      · rw [get_snd_of_mem hmem]
        exact hbounded
      · rw [get_snd_of_notMem hmem]
        exact hbounded
  | insert k v =>
      show (c.insert k v).entries.keys.length ≤ c.maxSize
      by_cases hmem : k ∈ c.entries
      · rw [insert_of_mem hmem, AList.keys_insert, List.length_cons,
          List.length_erase_add_one hmem]
        exact hbounded
      · rw [insert_of_notMem hmem, AList.keys_insert, List.length_cons]
        have hroom : c.evict.entries.keys.length < c.maxSize := (h.evict hmax).2
        have herase : (c.evict.entries.keys.erase k).length ≤ c.evict.entries.keys.length :=
          List.length_erase_le
        omega
  | invalidate k =>
      show (c.entries.erase k).keys.length ≤ c.maxSize
      rw [AList.keys_erase]
      exact Nat.le_trans List.length_erase_le hbounded
  | clear => exact Nat.zero_le _

/-- **Every operation keeps the map and the queue together.** -/
theorem WellFormed.apply (h : c.WellFormed) (hmax : 1 ≤ c.maxSize) (op : CacheOp) :
    (c.apply op).WellFormed :=
  ⟨h.nodup_apply op, h.keys_apply hmax op, h.bounded_apply hmax op⟩

/-! ## What an entry says -/

theorem cached_insert_self (k v : RouteKey) : (c.insert k v).cached k = some v := by
  unfold insert cached
  split <;> simp [AList.lookup_insert]

/-- What eviction leaves: all entries, but for the first of the queue if there is no room. -/
theorem cached_evict_iff {value : RouteKey} : c.evict.cached key = some value ↔
    c.cached key = some value ∧ ¬ (c.maxSize ≤ c.size ∧ c.accessOrder.head? = some key) := by
  unfold RouteLruCache.evict
  rw [← size_eq_length_entries]
  by_cases hfull : c.maxSize ≤ c.size
  · rw [if_pos hfull]
    cases horder : c.accessOrder with
    | nil => simp [List.head?_nil]
    | cons oldest order =>
        show (c.entries.erase oldest).lookup key = some value ↔ _
        by_cases heq : key = oldest
        · subst heq
          simp [AList.lookup_erase, hfull]
        · simp [AList.lookup_erase_ne heq, cached, Ne.symm heq]
  · rw [if_neg hfull]
    simp [hfull]

/-- An insert of another key leaves an entry alone, or evicts it. -/
theorem cached_insert_of_ne_iff {k v value : RouteKey} (hne : key ≠ k) :
    (c.insert k v).cached key = some value ↔
      c.cached key = some value ∧ ¬ Evicts key (c, .insert k v) := by
  by_cases hmem : k ∈ c.entries
  · have hstays : ¬ Evicts key (c, .insert k v) := by
      rintro ⟨⟨_, _, heq, hnew⟩, -⟩
      cases heq
      exact hnew hmem
    rw [insert_of_mem hmem]
    show (c.entries.insert k v).lookup key = some value ↔ _
    rw [AList.lookup_insert_ne hne]
    exact (and_iff_left hstays).symm
  · have hevicts : Evicts key (c, .insert k v) ↔
        c.maxSize ≤ c.size ∧ c.accessOrder.head? = some key :=
      and_iff_right ⟨k, v, rfl, hmem⟩
    rw [insert_of_notMem hmem, hevicts, ← cached_evict_iff]
    show (c.evict.entries.insert k v).lookup key = some value ↔ _
    rw [AList.lookup_insert_ne hne]
    rfl

/-- **An entry after an operation** has just been inserted, or was there before and has not ended.
-/
theorem cached_apply_iff (op : CacheOp) (key value : RouteKey) :
    (c.apply op).cached key = some value ↔
      Inserts key value (c, op) ∨ c.cached key = some value ∧ ¬ Ends key (c, op) := by
  cases op with
  | get k => simp [RouteLruCache.apply, Inserts, Ends, Evicts]
  | insert k v =>
      by_cases hkey : key = k
      · subst hkey
        have hends : Ends key (c, .insert key v) := Or.inl ⟨v, rfl⟩
        simp only [RouteLruCache.apply, cached_insert_self, hends, not_true_eq_false, and_false,
          or_false, Inserts, CacheOp.insert.injEq, true_and, Option.some.injEq]
      · have hne : k ≠ key := Ne.symm hkey
        rw [RouteLruCache.apply, cached_insert_of_ne_iff hkey]
        simp [Inserts, Ends, hne]
  | invalidate k =>
      by_cases hkey : key = k
      · subst hkey
        simp [RouteLruCache.apply, invalidate, cached, Inserts, Ends]
      · have hne : k ≠ key := Ne.symm hkey
        simp [RouteLruCache.apply, invalidate, cached, Inserts, Ends, Evicts,
          AList.lookup_erase_ne hkey, hne]
  | clear => simp [RouteLruCache.apply, clear, cached, Inserts, Ends]

/-! ## Whole histories -/

open Recency History

/-- The cache after a sequence of operations on a new one. -/
abbrev after (maxSize : Nat) (ops : List CacheOp) : RouteLruCache := ops.foldl apply (new maxSize)

/-- The history of the sequence. -/
abbrev historyOf (maxSize : Nat) (ops : List CacheOp) : List Step := (new maxSize).steps ops

variable {maxSize : Nat}

theorem after_concat (ops : List CacheOp) (op : CacheOp) :
    after maxSize (ops ++ [op]) = (after maxSize ops).apply op := by
  rw [after, List.foldl_append]
  rfl

@[simp] theorem maxSize_after (ops : List CacheOp) : (after maxSize ops).maxSize = maxSize := by
  induction ops using List.reverseRecOn with
  | nil => rfl
  | append_singleton ops op ih => rw [after_concat, maxSize_apply, ih]

theorem wellFormed_after (hmax : 1 ≤ maxSize) (ops : List CacheOp) :
    (after maxSize ops).WellFormed := by
  induction ops using List.reverseRecOn with
  | nil => exact ⟨List.nodup_nil, fun key => iff_of_false List.not_mem_nil (AList.notMem_empty key),
      Nat.zero_le _⟩
  | append_singleton ops op ih =>
      rw [after_concat]
      exact ih.apply (by rwa [maxSize_after]) op

/-- The queue is in the order of last use. -/
theorem inRecencyOrder_after (hmax : 1 ≤ maxSize) (ops : List CacheOp) :
    InRecencyOrder (uses (historyOf maxSize ops)) (after maxSize ops).accessOrder := by
  induction ops using List.reverseRecOn with
  | nil => exact inRecencyOrder_nil
  | append_singleton ops op ih =>
      obtain ⟨order, hsub, hunused, happly⟩ :=
        (wellFormed_after hmax ops).exists_accessOrder_apply op
      rw [after_concat, happly, historyOf, steps_concat, uses, List.map_append]
      exact ih.concat hsub hunused

/-- An entry is there since its key was last inserted. -/
theorem cached_after_iff (ops : List CacheOp) (key value : RouteKey) :
    (after maxSize ops).cached key = some value ↔
      Since (Inserts key value) (Ends key) (historyOf maxSize ops) := by
  induction ops using List.reverseRecOn with
  | nil => exact iff_of_false nofun not_since_nil
  | append_singleton ops op ih =>
      rw [after_concat, cached_apply_iff, historyOf, steps_concat, since_concat, ih]

theorem hits_add_misses_insert (c : RouteLruCache) (k v : RouteKey) :
    (c.insert k v).hits + (c.insert k v).misses = c.hits + c.misses := by
  unfold insert evict
  split
  · rfl
  · split
    · split <;> rfl
    · rfl

theorem hits_add_misses_apply (c : RouteLruCache) (op : CacheOp) :
    (c.apply op).hits + (c.apply op).misses = c.hits + c.misses + if op.isGet then 1 else 0 := by
  cases op with
  | get key =>
      show (c.get key).2.hits + (c.get key).2.misses = c.hits + c.misses + 1
      by_cases hmem : key ∈ c.entries
      · rw [get_snd_of_mem hmem]
        show c.hits + 1 + c.misses = _
        omega
      · rw [get_snd_of_notMem hmem]
        show c.hits + (c.misses + 1) = _
        omega
  | insert k v => exact hits_add_misses_insert c k v
  | invalidate key => rfl
  | clear => rfl

theorem hits_add_misses_after (ops : List CacheOp) :
    (after maxSize ops).hits + (after maxSize ops).misses = ops.countP CacheOp.isGet := by
  induction ops using List.reverseRecOn with
  | nil => rfl
  | append_singleton ops op ih =>
      rw [after_concat, hits_add_misses_apply, ih, List.countP_append, List.countP_singleton]

/-- What a bounded LRU cache does, after a sequence of operations. -/
structure IsBoundedLru (maxSize : Nat) (ops : List CacheOp) : Prop where
  nodup : (after maxSize ops).accessOrder.Nodup
  keys : ∀ key, key ∈ (after maxSize ops).accessOrder ↔ key ∈ (after maxSize ops).entries
  bounded : (after maxSize ops).size ≤ maxSize
  /-- An insert of a new key into the full cache removes exactly the least recently used key. -/
  evicts : ∀ key value, key ∉ (after maxSize ops).entries → (after maxSize ops).size = maxSize →
    ∃ oldest ∈ (after maxSize ops).entries,
      Evicts oldest (after maxSize ops, .insert key value) ∧
      (∀ k ∈ (after maxSize ops).entries, k ≠ oldest →
        UsedBefore (uses (historyOf maxSize ops)) oldest k) ∧
      ∀ k, k ∈ ((after maxSize ops).insert key value).entries ↔
        k = key ∨ k ∈ (after maxSize ops).entries ∧ k ≠ oldest
  /-- Any other insert keeps all keys: one that updates an entry, and one into a cache with room. -/
  keeps : ∀ key value, key ∈ (after maxSize ops).entries ∨ (after maxSize ops).size < maxSize →
    ∀ k, k ∈ ((after maxSize ops).insert key value).entries ↔
      k = key ∨ k ∈ (after maxSize ops).entries
  /-- `get` returns the value of the last insert, unless the entry has ended since. -/
  get : ∀ key value, ((after maxSize ops).get key).1 = some value ↔
    Since (Inserts key value) (Ends key) (historyOf maxSize ops)
  counters : (after maxSize ops).hits + (after maxSize ops).misses = ops.countP CacheOp.isGet

/-- **The route cache is a bounded LRU cache.** -/
theorem isBoundedLru (hmax : 1 ≤ maxSize) (ops : List CacheOp) : IsBoundedLru maxSize ops where
  nodup := (wellFormed_after hmax ops).nodup
  keys := (wellFormed_after hmax ops).keys
  bounded := Nat.le_trans (wellFormed_after hmax ops).bounded (Nat.le_of_eq (maxSize_after ops))
  evicts := by
    intro key value hnew hfull
    have hwf := wellFormed_after hmax ops
    have hmax' : 1 ≤ (after maxSize ops).maxSize := by rwa [maxSize_after]
    rcases hwf.evict_cases hmax' with ⟨hroom, -⟩ | ⟨-, oldest, order, horder, hevict⟩
    · rw [maxSize_after] at hroom
      omega
    · have hsorted := (inRecencyOrder_after hmax ops).sorted
      rw [horder] at hsorted
      refine ⟨oldest, (hwf.keys oldest).mp (horder ▸ List.mem_cons_self),
        ⟨⟨key, value, rfl, hnew⟩, ?_, ?_⟩, ?_, ?_⟩
      · rw [maxSize_after, hfull]
      · rw [horder, List.head?_cons]
      · intro k hk hne
        have hmem := (hwf.keys k).mpr hk
        rw [horder] at hmem
        exact List.rel_of_pairwise_cons hsorted (List.mem_of_ne_of_mem hne hmem)
      · intro k
        rw [insert_of_notMem hnew, hevict]
        show k ∈ ((after maxSize ops).entries.erase oldest).insert key value ↔ _
        rw [AList.mem_insert, AList.mem_erase, and_comm]
  keeps := by
    intro key value hroom k
    by_cases hmem : key ∈ (after maxSize ops).entries
    · rw [insert_of_mem hmem]
      exact AList.mem_insert _
    · have hlt : (after maxSize ops).size < (after maxSize ops).maxSize := by
        rw [maxSize_after]
        exact hroom.resolve_left hmem
      have hevict : (after maxSize ops).evict = after maxSize ops := by
        rw [RouteLruCache.evict, ← size_eq_length_entries, if_neg (Nat.not_le_of_lt hlt)]
      rw [insert_of_notMem hmem, hevict]
      exact AList.mem_insert _
  get := by
    intro key value
    rw [get_fst]
    exact cached_after_iff ops key value
  counters := hits_add_misses_after ops

/-- Two entries, the older of which is used again before a third comes. -/
theorem isBoundedLru_two :
    IsBoundedLru 2 [.insert (routeKey .get "/a".toList) (routeKey .get "/a".toList),
      .insert (routeKey .get "/b".toList) (routeKey .get "/b".toList),
      .get (routeKey .get "/a".toList),
      .insert (routeKey .get "/c".toList) (routeKey .get "/c".toList)] :=
  isBoundedLru (by decide) _

end RouteLruCache

end Rauta
