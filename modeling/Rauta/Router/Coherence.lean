import Mathlib.Data.Set.Function
import Rauta.Router.Rebuild

/-!
# Coherence of the route cache

`select_backend` remembers which route key a request resolved to and trusts that entry from then on.
The entry is right as long as a fresh lookup would still find the same key, and it is an adding call
that can change this: by adding the request's own key, by adding the `ALL` key of its path, or by
adding a prefix pattern that the request falls under. `add_route` drops the entry in the first of
the three cases only, its siblings never do, and `RouteLruCache::clear` has no caller.

`Write.Spares` says which writes leave a request where it is, in terms of keys and patterns. The
cache is coherent in all runs whose writes spare every cached request (`CacheInvariant`), for
requests from any set of paths without hash collisions.
-/

namespace Rauta

open Transition

/-! ## When a lookup in the prefix router stays the same -/

/-- Nothing that matches `x` is lost, and what is added does not win over what was there. -/
def Keeps (old new : PrefixRouter) (x : Str) : Prop :=
  (∀ e ∈ old, Matches e.1 x → e ∈ new) ∧
    ∀ e ∈ new, Matches e.1 x → e ∈ old ∨
      ∃ e' ∈ old, Matches e'.1 x ∧ (staticPart e.1).length < (staticPart e'.1).length

instance (old new : PrefixRouter) (x : Str) : Decidable (Keeps old new x) :=
  inferInstanceAs (Decidable (_ ∧ _))

theorem Matchit.matchAt_eq_of_keeps {M : Matchit} (hM : M.Lawful) {old new : PrefixRouter} {x : Str}
    (hb : M.Built old) (hb' : M.Built new) (hs : ∀ e ∈ old, Simple e.1)
    (hs' : ∀ e ∈ new, Simple e.1) (h : Keeps old new x) : M.matchAt new x = M.matchAt old x := by
  cases hold : M.matchAt old x with
  | none =>
      rw [matchAt_eq_none_iff hM hb hs] at hold
      rw [matchAt_eq_none_iff hM hb' hs']
      intro e he hex
      rcases h.2 e he hex with he | ⟨e', he', hex', -⟩
      · exact hold e he hex
      · exact hold e' he' hex'
  | some v =>
      obtain ⟨p, hp, hpx, hbest⟩ := (matchAt_eq_some_iff hM hb hs).mp hold
      refine (matchAt_eq_some_iff hM hb' hs').mpr ⟨p, h.1 _ hp hpx, hpx, fun e he hex => ?_⟩
      rcases h.2 e he hex with he | ⟨e', he', hex', hlt⟩
      · exact hbest e he hex
      · exact Nat.le_trans (Nat.le_of_lt hlt) (hbest e' he' hex')

/-- The prefix part of a request's lookup is the same in both tables: they have the same patterns,
or they have no parameters and agree on the text with the method in front and, where the request
gets there, on the text without it. -/
def PrefixKept (old new : PrefixRouter) (method : HttpMethod) (path : Str) : Prop :=
  old.Perm new ∨
    (∀ e ∈ old, Simple e.1) ∧ (∀ e ∈ new, Simple e.1) ∧
      Keeps old new (getMethodPrefix method ++ path) ∧
      (method = .all ∨ (∃ e ∈ old, Matches e.1 (getMethodPrefix method ++ path)) ∨
        Keeps old new path)

instance (old new : PrefixRouter) (method : HttpMethod) (path : Str) :
    Decidable (PrefixKept old new method path) :=
  inferInstanceAs (Decidable (_ ∨ _))

theorem prefixLookup_eq_of_kept {M : Matchit} (hM : M.Lawful) {s s' : Router}
    {new : PrefixRouter} {method : HttpMethod} {path : Str} (hb : M.Built s.prefixRouter)
    (hb' : M.Built s'.prefixRouter) (hperm : s'.prefixRouter.Perm new)
    (h : PrefixKept s.prefixRouter new method path) :
    s'.prefixLookup M method path = s.prefixLookup M method path := by
  have hnew : ∀ x, M.matchAt s'.prefixRouter x = M.matchAt new x := fun x => hM.at_perm x hb' hperm
  have hbnew : M.Built new := hb'.perm hM hperm
  unfold Router.prefixLookup
  rcases h with hsame | ⟨hs, hs', hk, hrest⟩
  · simp only [hnew, ← hM.at_perm _ hb hsame]
  · rw [hnew, hnew, Matchit.matchAt_eq_of_keeps hM hb hbnew hs hs' hk]
    rcases hrest with rfl | ⟨e, he, hex⟩ | hk'
    · simp
    · cases hm : M.matchAt s.prefixRouter (getMethodPrefix method ++ path) with
      | none => exact absurd hm (hM.at_isSome hb hs he hex)
      | some v => rfl
    · rw [Matchit.matchAt_eq_of_keeps hM hb hbnew hs hs' hk']

/-! ## Writes that spare a request -/

/-- The write leaves the resolution of a request alone, or drops its cache entry:

* the request's own key is in the table already;
* or the written key is the request's own, the call is `add_route` and the rebuild succeeds;
* or the written key is another one and the `ALL` key of the path is in the table already;
* or the written key is neither, and the rebuild, if it succeeds, keeps the prefix lookup. -/
def Write.Spares (M : Matchit) (s : Router) (w : Write) (method : HttpMethod) (path : Str) : Prop :=
  routeKey method path ∈ s.routes ∨
  (w.drops = true ∧ routeKey method path = w.key ∧ M.Built (w.rebuild.table (w.routes s))) ∨
  (routeKey method path ≠ w.key ∧ method ≠ .all ∧ routeKey .all path ∈ s.routes) ∨
  (routeKey method path ≠ w.key ∧ (method ≠ .all → routeKey .all path ≠ w.key) ∧
    (M.Built (w.rebuild.table (w.routes s)) →
      PrefixKept s.prefixRouter (w.rebuild.table (w.routes s)) method path))

namespace Router

variable {M : Matchit} {s : Router}

/-- The cache is coherent exactly when its entries are what a lookup finds. -/
theorem resolve_eq_lookup_iff {method : HttpMethod} {path : Str} :
    (s.resolve M method path).1 = s.lookup M method path ↔
      ∀ r, s.routeCache.cached (routeKey method path) = some r →
        s.lookup M method path = some r := by
  rw [resolve_fst]
  cases s.routeCache.cached (routeKey method path) with
  | none => simp
  | some r => simp [eq_comm]

/-- After a sparing write, an entry that is still there is right if it was right before. -/
theorem lookup_commit_of_spares (hM : M.Lawful) (hb : M.Built s.prefixRouter) {w : Write}
    {method : HttpMethod} {path : Str} {r : RouteKey} (h : w.Spares M s method path)
    (hcached : (s.commit M w).routeCache.cached (routeKey method path) = some r) :
    (s.commit M w).lookup M method path = s.lookup M method path := by
  have hmem : ∀ k, k ∈ (s.commit M w).routes ↔ k = w.key ∨ k ∈ s.routes := by
    intro k
    rw [commit_routes, Write.routes, AList.mem_insert]
  rcases h with hin | ⟨hdrops, hown, hbuilt⟩ | ⟨hne, hall, hin⟩ | ⟨hne, hne', hkept⟩
  · rw [lookup_of_mem hin, lookup_of_mem ((hmem _).mpr (Or.inr hin))]
  · -- `add_route` has dropped the entry
    rcases commit_cases hM w with ⟨-, hfail, -⟩ | ⟨pr, -, -, -, -, heq⟩
    · exact absurd hbuilt hfail
    · rw [heq, hdrops, if_pos rfl] at hcached
      exact absurd hown (RouteLruCache.cached_invalidate hcached).1
  · rw [lookup_of_all_mem hall hin, lookup_of_all_mem hall ((hmem _).mpr (Or.inr hin))]
    simp only [hmem, hne, false_or]
  · have hpre : (s.commit M w).prefixLookup M method path = s.prefixLookup M method path := by
      rcases commit_cases hM w with ⟨-, -, -, heq⟩ | ⟨pr, hbuilt, -, hbpr, hperm, heq⟩
      · rw [heq]
        rfl
      · have hpr : (s.commit M w).prefixRouter = pr := by rw [heq]
        exact prefixLookup_eq_of_kept hM hb (hpr ▸ hbpr) (hpr ▸ hperm) (hkept hbuilt)
    refine lookup_congr ?_ (fun hall => ?_) hpre
    · rw [hmem, or_iff_right hne]
    · rw [hmem, or_iff_right (hne' hall)]

/-! ## Runs -/

/-- Every request of `paths` resolves as a fresh lookup would. -/
def CoherentOn (M : Matchit) (paths : Set Str) (s : Router) : Prop :=
  ∀ method, ∀ path ∈ paths, (s.resolve M method path).1 = s.lookup M method path

/-- Requests come from `paths`, and a write spares those of them that are cached. -/
def SparesCached (M : Matchit) (paths : Set Str) (s : Router) (c : RouterCall) : Prop :=
  (∀ method path srcIp srcPort, c = .selectBackend method path srcIp srcPort → path ∈ paths) ∧
  ∀ w, c.write s = some w → ∀ method, ∀ path ∈ paths,
    (s.routeCache.cached (routeKey method path)).isSome → w.Spares M s method path

/-- What runs preserve: the prefix router was built by insertions, and cache entries are right. -/
structure CacheInvariant (M : Matchit) (paths : Set Str) (s : Router) : Prop where
  built : M.Built s.prefixRouter
  right : ∀ method, ∀ path ∈ paths, ∀ r,
    s.routeCache.cached (routeKey method path) = some r → s.lookup M method path = some r

theorem CacheInvariant.init (M : Matchit) (paths : Set Str) : CacheInvariant M paths .new where
  built := M.built_nil
  right _ _ _ _ h := by cases h

/-- A request: the entry it adds is what its lookup found, and no other path of `paths` shares
it. -/
theorem CacheInvariant.select {paths : Set Str} (hinj : Set.InjOn pathHash paths)
    (h : CacheInvariant M paths s) {method : HttpMethod} {path : Str} (hpath : path ∈ paths) :
    CacheInvariant M paths { s with routeCache := (s.resolve M method path).2 } where
  built := h.built
  right := by
    intro method' path' hpath' r hr
    show s.lookup M method' path' = some r
    rcases cached_resolve hr with hold | ⟨hkey, hlookup⟩
    · exact h.right _ _ hpath' _ hold
    · obtain ⟨rfl, hhash⟩ := RouteKey.mk.injEq .. ▸ hkey
      rw [hinj hpath' hpath hhash]
      exact hlookup

/-- A sparing write. -/
theorem CacheInvariant.commit (hM : M.Lawful) {paths : Set Str} (h : CacheInvariant M paths s)
    {w : Write} (hw : ∀ method, ∀ path ∈ paths,
      (s.routeCache.cached (routeKey method path)).isSome → w.Spares M s method path) :
    CacheInvariant M paths (s.commit M w) where
  built := by
    rcases commit_cases hM w with ⟨-, -, -, heq⟩ | ⟨pr, -, -, hbpr, -, heq⟩
    · rw [heq]
      exact h.built
    · rw [heq]
      exact hbpr
  right := by
    intro method path hpath r hr
    have hold := cached_of_cached_commit hr
    have hspares := hw method path hpath (by rw [hold]; rfl)
    rw [lookup_commit_of_spares hM h.built hspares hr]
    exact h.right method path hpath r hold

/-- The step lemma. -/
theorem CacheInvariant.call (hM : M.Lawful) {paths : Set Str} (hinj : Set.InjOn pathHash paths)
    (h : CacheInvariant M paths s) {c : RouterCall} (hc : SparesCached M paths s c) :
    CacheInvariant M paths (s.call M c) := by
  rcases call_cases M s c with
    ⟨w, checker, hw, heq⟩ | heq | ⟨method, path, srcIp, srcPort, rfl, heq⟩
  · have hcommit := h.commit hM (hc.2 w hw)
    rw [heq]
    exact ⟨hcommit.built, hcommit.right⟩
  · rw [heq]
    exact h
  · rw [heq]
    exact h.select hinj (hc.1 _ _ _ _ rfl)

/-- **Coherence of the cache**: in every run whose writes spare the cached requests, a request uses
the route key that a fresh lookup would find. -/
theorem resolve_eq_lookup_of_spares (hM : M.Lawful) {paths : Set Str}
    (hinj : Set.InjOn pathHash paths)
    (h : (routerSystem M).Reach (SparesCached M paths) .new s) : CoherentOn M paths s := by
  have hinv : CacheInvariant M paths s := by
    refine h.invariant (CacheInvariant.init M paths) ?_
    intro s c s' hs hok hstep
    cases hstep
    exact hs.call hM hinj hok
  intro method path hpath
  exact resolve_eq_lookup_iff.mpr (hinv.right method path hpath)

/-- Adding a route elsewhere spares a cached request. -/
theorem resolve_eq_lookup_of_spares_web :
    CoherentOn .scan {"/api/v1".toList}
      (((Router.new.call .scan (.addRoute .newestFirst .get "/api".toList [.sample])).call .scan
        (.selectBackend .get "/api/v1".toList none none)).call .scan
        (.addRoute .newestFirst .get "/web".toList [.sample])) := by
  let s₁ := Router.new.call .scan (.addRoute .newestFirst .get "/api".toList [.sample])
  let s₂ := s₁.call .scan (.selectBackend .get "/api/v1".toList none none)
  let s₃ := s₂.call .scan (.addRoute .newestFirst .get "/web".toList [.sample])
  have h₁ : (routerSystem .scan).Reach (SparesCached .scan {"/api/v1".toList}) .new s₁ := by
    refine System.Reach.refl.tail ⟨by simp, ?_⟩ rfl
    intro w _ method path _ hcached
    cases hcached
  have h₂ : (routerSystem .scan).Reach (SparesCached .scan {"/api/v1".toList}) .new s₂ := by
    refine h₁.tail ⟨?_, fun w hw => by cases hw⟩ rfl
    rintro method path srcIp srcPort ⟨⟩
    rfl
  have h₃ : (routerSystem .scan).Reach (SparesCached .scan {"/api/v1".toList}) .new s₃ := by
    refine h₂.tail ⟨by simp, ?_⟩ rfl
    rintro w hw method path rfl hcached
    have hnew : ¬ s₂.hasRoute .get "/web".toList [.sample] = true := by decide +kernel
    rw [RouterCall.write, if_neg hnew] at hw
    cases hw
    -- only the `GET` request is cached, and no pattern of the new route matches it
    cases method with
    | get =>
        exact .inr (.inr (.inr ⟨by decide +kernel, fun _ => by decide +kernel,
          fun _ => by decide +kernel⟩))
    | _ => exact absurd hcached (by decide +kernel)
  exact resolve_eq_lookup_of_spares Matchit.scan_lawful (Set.injOn_singleton _ _) h₃

/-- A prefix route, a request below it, and then a longer prefix route for the same request. -/
def staleRun : List RouterCall :=
  [.addRoute .newestFirst .get "/api".toList [.sample],
   .selectBackend .get "/api/v1/x".toList none none,
   .addRoute .newestFirst .get "/api/v1".toList [.sample]]

/-- **A stale entry**: the request keeps going to the shorter prefix. -/
theorem exists_stale_resolution :
    ¬ ∀ M : Matchit, M.Lawful → ∀ s, (routerSystem M).Reach System.Anything .new s →
      CoherentOn M Set.univ s := by
  intro h
  have hrun : (routerSystem .scan).exec .new staleRun =
      some (staleRun.foldl (Router.call .scan) .new) := rfl
  have := h .scan Matchit.scan_lawful _ (.of_exec hrun) .get "/api/v1/x".toList trivial
  revert this
  decide +kernel

end Router

end Rauta
