import Rauta.Router.Rebuild

/-!
# Failing adds

`add_route` writes the new route to the map before it rebuilds the prefix router from the whole map,
and a failing rebuild returns at once. So an error leaves the rejected route in the map, where every
later rebuild finds it again.

The call is atomic on error in just the cases in which it does not fail at all. `Blocked` is the
state such a failure leaves behind: `addRoute_of_blocked` and `blocked_of_run` say that from then on
every `add_route` of a new route fails, whatever its path.
-/

namespace Rauta

open Transition

theorem Matchit.Built.of_append_right {M : Matchit} {pr pr' : PrefixRouter}
    (h : M.Built (pr ++ pr')) : M.Built pr' :=
  ⟨fun e he => h.1 e (List.mem_append_right _ he), (List.pairwise_append.mp h.2).2.1⟩

/-- Of a route, a rebuild reads the path only. -/
theorem Rebuild.table_insert_congr (r : Rebuild) (routes : RouteMap) (key : RouteKey)
    {route route' : Route} (h : route.pattern = route'.pattern) :
    r.table (routes.insert key route) = r.table (routes.insert key route') := by
  simp only [table, AList.entries_insert, List.flatMap_cons, patterns, h]

theorem Rebuild.table_insert_of_notMem (r : Rebuild) {routes : RouteMap} {key : RouteKey}
    (h : key ∉ routes) (route : Route) :
    r.table (routes.insert key route) = r.patterns ⟨key, route⟩ ++ r.table routes := by
  rw [table, AList.entries_insert_of_notMem h, List.flatMap_cons, table]

namespace Router

variable {M : Matchit} {s : Router} {ord : IterOrder} {method : HttpMethod} {path : Str}
  {backends : List Backend}

/-- With the route added, all patterns of the table are well formed and free of conflicts. -/
def Accepts (M : Matchit) (s : Router) (method : HttpMethod) (path : Str) : Prop :=
  M.Built (Rebuild.addRoute.table (s.routes.insert (routeKey method path) (.basic path [] [])))

instance (M : Matchit) (s : Router) (method : HttpMethod) (path : Str) :
    Decidable (s.Accepts M method path) :=
  inferInstanceAs (Decidable (M.Built _))

/-- The backends of the route do not matter for that. -/
theorem accepts_iff (backends : List Backend) (table : List Nat) : s.Accepts M method path ↔
    M.Built (Rebuild.addRoute.table
      (s.routes.insert (routeKey method path) (.basic path backends table))) :=
  iff_of_eq (congrArg M.Built (Rebuild.table_insert_congr _ _ _ rfl))

/-- The outcomes of `add_route`, for at most `maxBackends` backends: nothing to do; success; or an
error that leaves the route in the map. -/
theorem addRoute_cases (hM : M.Lawful) (s : Router) (ord : IterOrder) (method : HttpMethod)
    (path : Str) (hfew : backends.length ≤ maxBackends) :
    (s.hasRoute method path backends ∧ s.addRoute M ord method path backends = (.ok, s)) ∨
    (¬ s.hasRoute method path backends ∧ s.Accepts M method path ∧
      (s.addRoute M ord method path backends).1 = .ok) ∨
    (¬ s.hasRoute method path backends ∧ ¬ s.Accepts M method path ∧
      ∃ msg table checker, s.addRoute M ord method path backends =
        (.err msg, { s with
          routes := s.routes.insert (routeKey method path) (.basic path backends table)
          healthChecker := checker })) := by
  by_cases hsame : s.hasRoute method path backends
  · exact Or.inl ⟨hsame, by rw [addRoute, if_pos hsame]⟩
  obtain ⟨table, -, hwrite⟩ := RouterCall.write_addRoute ord hsame hfew
  let w : Write := ⟨ord, .addRoute, method, path, .basic path backends table, true⟩
  have htab : s.Accepts M method path ↔ M.Built (w.rebuild.table (w.routes s)) :=
    accepts_iff backends table
  right
  rw [addRoute_eq_commit hwrite, htab]
  rcases commit_cases (s := s) hM w with ⟨msg, hfail, hres, heq⟩ | ⟨pr, hbuilt, hres, -⟩
  · exact Or.inr ⟨hsame, hfail, msg, table, _, by rw [hres, heq]; rfl⟩
  · exact Or.inl ⟨hsame, hbuilt, hres⟩

/-! ## Atomicity -/

/-- On error, the routing state is what it was, and no `add_route` that would have succeeded before
fails now. -/
def AtomicOnError (M : Matchit) (s : Router) (ord : IterOrder) (method : HttpMethod) (path : Str)
    (backends : List Backend) : Prop :=
  ∀ msg s', s.addRoute M ord method path backends = (.err msg, s') →
    (s'.routes = s.routes ∧ s'.prefixRouter = s.prefixRouter ∧ s'.routeCache = s.routeCache) ∧
    ∀ ord' method' path' backends', (s.addRoute M ord' method' path' backends').1 = .ok →
      (s'.addRoute M ord' method' path' backends').1 = .ok

/-- Writing a route that is not there with the same backends changes the map. -/
theorem insert_ne_of_not_hasRoute (hnew : ¬ s.hasRoute method path backends) (table : List Nat) :
    s.routes.insert (routeKey method path) (.basic path backends table) ≠ s.routes := by
  intro heq
  apply hnew
  rw [hasRoute, ← heq, AList.lookup_insert]
  simp [Route.basic]

/-- **Atomicity on error** holds exactly for the calls that do not fail. -/
theorem addRoute_atomic_iff (hM : M.Lawful) (s : Router) (ord : IterOrder) (method : HttpMethod)
    (path : Str) (hfew : backends.length ≤ maxBackends) :
    AtomicOnError M s ord method path backends ↔
      s.hasRoute method path backends ∨ s.Accepts M method path := by
  rcases addRoute_cases hM s ord method path hfew with
    ⟨hsame, heq⟩ | ⟨-, hacc, heq⟩ | ⟨hnew, hrej, msg, table, checker, heq⟩
  · refine iff_of_true (fun msg s' h => ?_) (Or.inl hsame)
    rw [heq] at h
    cases h
  · refine iff_of_true (fun msg s' h => ?_) (Or.inr hacc)
    rw [h] at heq
    cases heq
  · refine iff_of_false (fun h => ?_) (by simp [hnew, hrej])
    exact insert_ne_of_not_hasRoute hnew table (h _ _ heq).1.1

/-- A path elsewhere is accepted, and the call is atomic. -/
theorem addRoute_atomic_web :
    AtomicOnError .scan (Router.new.addRoute .scan .newestFirst .get "/x".toList [.sample]).2
      .newestFirst .get "/web".toList [.sample] :=
  (addRoute_atomic_iff Matchit.scan_lawful _ _ _ _ (by decide)).mpr (Or.inr (by decide +kernel))

/-- **A failed call that changes the map**: after `/x`, the path `/x/` has the same catch-all
pattern, so the rebuild fails, and its route stays in the map. -/
theorem exists_addRoute_not_atomic :
    ¬ ∀ M : Matchit, M.Lawful → ∀ s, (routerSystem M).Reach System.Anything .new s →
      ∀ ord method path backends, backends.length ≤ maxBackends →
      AtomicOnError M s ord method path backends := by
  intro h
  let s₁ := Router.new.call .scan (.addRoute .newestFirst .get "/x".toList [.sample])
  have hreach : (routerSystem .scan).Reach System.Anything .new s₁ :=
    System.Reach.refl.tail trivial rfl
  have hatomic := h .scan Matchit.scan_lawful s₁ hreach .newestFirst .get "/x/".toList [.sample]
    (by decide)
  have hnew : routeKey .get "/x/".toList ∉ s₁.routes := by decide +kernel
  rcases addRoute_cases Matchit.scan_lawful s₁ .newestFirst .get "/x/".toList
    (by decide : [Backend.sample].length ≤ maxBackends) with
    ⟨hsame, -⟩ | ⟨-, hacc, -⟩ | ⟨-, -, msg, table, checker, heq⟩
  · rw [hasRoute, AList.lookup_eq_none.mpr hnew] at hsame
    cases hsame
  · revert hacc
    decide +kernel
  · refine hnew ?_
    rw [← (hatomic _ _ heq).1.1]
    exact AList.mem_insert _ |>.mpr (Or.inl rfl)

/-! ## What a failed call leaves behind -/

/-- The patterns of the map cannot all be inserted. -/
def Blocked (M : Matchit) (s : Router) : Prop := ¬ M.Built (Rebuild.addRoute.table s.routes)

/-- A failed call blocks the router. -/
theorem blocked_of_err (hM : M.Lawful) (hfew : backends.length ≤ maxBackends) {msg : Str}
    {s' : Router} (h : s.addRoute M ord method path backends = (.err msg, s')) : Blocked M s' := by
  rcases addRoute_cases hM s ord method path hfew with
    ⟨-, heq⟩ | ⟨-, -, heq⟩ | ⟨-, hrej, msg', table, checker, heq⟩
  · rw [heq] at h
    cases h
  · rw [h] at heq
    cases heq
  · rw [heq] at h
    cases h
    exact fun hbuilt => hrej ((accepts_iff backends table).mpr hbuilt)

/-- In a blocked router every `add_route` under a new key fails, and leaves it blocked. -/
theorem addRoute_of_blocked (hM : M.Lawful) (ord : IterOrder) (hb : Blocked M s)
    (hkey : routeKey method path ∉ s.routes) (hfew : backends.length ≤ maxBackends) :
    ∃ msg s', s.addRoute M ord method path backends = (.err msg, s') ∧ Blocked M s' := by
  have hrej : ¬ s.Accepts M method path := by
    intro hacc
    rw [Accepts, Rebuild.table_insert_of_notMem .addRoute hkey] at hacc
    exact hb hacc.of_append_right
  rcases addRoute_cases hM s ord method path hfew with ⟨hsame, -⟩ | ⟨-, hacc, -⟩ |
    ⟨-, -, msg, table, checker, heq⟩
  · rw [hasRoute, AList.lookup_eq_none.mpr hkey] at hsame
    cases hsame
  · exact absurd hacc hrej
  · exact ⟨msg, _, heq, blocked_of_err hM hfew heq⟩

/-- Calls of `add_route` under new keys. -/
def AddsNewKey (s : Router) (c : RouterCall) : Prop :=
  ∃ ord method path backends, c = .addRoute ord method path backends ∧
    routeKey method path ∉ s.routes ∧ backends.length ≤ maxBackends

/-- A router that is blocked stays blocked, however many new routes are added. -/
theorem blocked_of_run (hM : M.Lawful) {s₀ : Router} (hb : Blocked M s₀)
    (h : (routerSystem M).Reach AddsNewKey s₀ s) : Blocked M s := by
  refine h.invariant hb ?_
  rintro s c s' hs ⟨ord, method, path, backends, rfl, hkey, hfew⟩ hstep
  obtain ⟨msg, s'', heq, hb'⟩ := addRoute_of_blocked hM ord hs hkey hfew
  cases hstep
  rw [call, heq]
  exact hb'

end Router

end Rauta
