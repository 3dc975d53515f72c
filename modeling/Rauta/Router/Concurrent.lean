import Rauta.Lib.Interleaving
import Rauta.Router.Rebuild

/-!
# Concurrent `add_route` calls

`add_route` takes a lock for each of its phases and gives it back before the next: it checks the
map, writes the map, builds a new prefix router from the map, publishes that router, and drops a
cache entry. Calls on several threads interleave between these phases. `addMachine` is that machine;
a call that runs alone does what `Router.addRoute` says (`addMachine_alone`).

Two calls can publish in the other order than they took their snapshots, and then the older snapshot
is what stays. Two counters, which the code does not have, name the snapshots: `writes` counts the
writes to the map, `published` is the count at the time of the published snapshot.
All is well in the runs in which no snapshot is published over a newer one (`PublishesInOrder`).
-/

namespace Rauta

open Transition Interleaving

/-! ## The machine -/

/-- The router, and the counters that name its snapshots. -/
structure AddShared where
  router : Router
  writes : Nat
  published : Nat

/-- Where a call of `add_route` is. -/
inductive AddPc where
  | check
  | startChecking (table : List Nat)
  | write (table : List Nat)
  | rebuild
  | publish (pr : PrefixRouter) (snapshot : Nat)
  | invalidate
  | done (result : AddResult)
  deriving DecidableEq

/-- A call of `add_route`; `own` counts the writes up to and including its own. -/
structure AddThread where
  method : HttpMethod
  path : Str
  backends : List Backend
  pc : AddPc
  own : Nat

/-- A call that has not begun. -/
def AddThread.start (method : HttpMethod) (path : Str) (backends : List Backend) : AddThread :=
  ⟨method, path, backends, .check, 0⟩

/-- The key a call writes. -/
def AddThread.key (t : AddThread) : RouteKey := routeKey t.method t.path

/-- One phase of a call. The rebuild meets the map in some iteration order. -/
def addStep (M : Matchit) (sh : AddShared) (t : AddThread) (ord : IterOrder) :
    Option (AddShared × AddThread) :=
  match t.pc with
  | .check =>
    if sh.router.hasRoute t.method t.path t.backends then some (sh, { t with pc := .done .ok })
    else
      match maglevBuildCompactTable t.backends with
      | none => some (sh, { t with pc := .done .panic })
      | some table => some (sh, { t with pc := .startChecking table })
  | .startChecking table =>
    some ({ sh with router := { sh.router with
              healthChecker := sh.router.healthChecker.startChecking t.backends t.path } },
      { t with pc := .write table })
  | .write table =>
    some ({ sh with
            router := { sh.router with
              routes := sh.router.routes.insert t.key (.basic t.path t.backends table) }
            writes := sh.writes + 1 },
      { t with pc := .rebuild, own := sh.writes + 1 })
  | .rebuild =>
    match Rebuild.addRoute.build M ord sh.router.routes with
    | .error msg => some (sh, { t with pc := .done (.err msg) })
    | .ok pr => some (sh, { t with pc := .publish pr sh.writes })
  | .publish pr snapshot =>
    some ({ sh with router := { sh.router with prefixRouter := pr }, published := snapshot },
      { t with pc := .invalidate })
  | .invalidate =>
    some ({ sh with router := { sh.router with
              routeCache := sh.router.routeCache.invalidate t.key } },
      { t with pc := .done .ok })
  | .done _ => none

/-- Calls of `add_route` on several threads. Requests in between may change the cache. -/
def addMachine (M : Matchit) : Machine AddShared AddThread IterOrder RouteLruCache where
  thread := addStep M
  env sh cache := { sh with router := { sh.router with routeCache := cache } }

/-- A router at rest: the calls have not begun. -/
def AddShared.atRest (s : Router) : AddShared := ⟨s, 0, 0⟩

/-! ## A call on its own -/

/-- A call that is not interrupted does what `Router.addRoute` does. -/
theorem addMachine_alone (M : Matchit) (ord : IterOrder) (s : Router) (method : HttpMethod)
    (path : Str) (backends : List Backend) :
    ∃ writes published own,
      (addMachine M).system.Reach System.Anything
        ⟨.atRest s, [.start method path backends]⟩
        ⟨⟨(s.addRoute M ord method path backends).2, writes, published⟩,
          [⟨method, path, backends, .done (s.addRoute M ord method path backends).1, own⟩]⟩ := by
  have hrun : ∀ n c, (addMachine M).system.exec ⟨.atRest s, [.start method path backends]⟩
      (List.replicate n (.thread 0 ord)) = some c →
      (addMachine M).system.Reach System.Anything ⟨.atRest s, [.start method path backends]⟩ c :=
    fun n c h => .of_exec h
  by_cases hsame : s.hasRoute method path backends
  · refine ⟨0, 0, 0, hrun 1 _ ?_⟩
    simp [System.exec, Machine.system, Machine.step, addMachine, addStep, AddShared.atRest,
      AddThread.start, Router.addRoute, hsame]
  cases htable : maglevBuildCompactTable backends with
  | none =>
      refine ⟨0, 0, 0, hrun 1 _ ?_⟩
      simp [System.exec, Machine.system, Machine.step, addMachine, addStep, AddShared.atRest,
        AddThread.start, Router.addRoute, hsame, htable]
  | some table =>
      cases hbuild : Rebuild.addRoute.build M ord
          (s.routes.insert (routeKey method path) (.basic path backends table)) with
      | error msg =>
          refine ⟨1, 0, 1, hrun 4 _ ?_⟩
          simp [System.exec, List.replicate, Machine.system, Machine.step, addMachine, addStep,
            AddShared.atRest, AddThread.start, AddThread.key, Router.addRoute, Router.install,
            hsame, htable, hbuild]
      | ok pr =>
          refine ⟨1, 1, 1, hrun 6 _ ?_⟩
          simp [System.exec, List.replicate, Machine.system, Machine.step, addMachine, addStep,
            AddShared.atRest, AddThread.start, AddThread.key, Router.addRoute, Router.install,
            hsame, htable, hbuild]

/-! ## Publishing in the order of the snapshots -/

/-- The snapshot that a call is about to publish. -/
def AddThread.snapshot? (t : AddThread) : Option Nat :=
  match t.pc with
  | .publish _ snapshot => some snapshot
  | _ => none

/-- No snapshot is published over a newer one. -/
def PublishesInOrder (c : Config AddShared AddThread) : Label IterOrder RouteLruCache → Prop
  | .env _ => True
  | .thread i _ => ∀ t ∈ c.threads[i]?, ∀ snapshot ∈ t.snapshot?, c.shared.published ≤ snapshot

instance (c : Config AddShared AddThread) :
    (l : Label IterOrder RouteLruCache) → Decidable (PublishesInOrder c l)
  | .env _ => inferInstanceAs (Decidable True)
  | .thread i _ => inferInstanceAs (Decidable (∀ t ∈ c.threads[i]?, _))

/-- The prefix router is one that can be built from the map. -/
def BuiltFrom (M : Matchit) (routes : RouteMap) (pr : PrefixRouter) : Prop :=
  ∃ ord, Rebuild.addRoute.build M ord routes = .ok pr

/-- What a call knows about the counters. -/
def AddThread.Knows (M : Matchit) (sh : AddShared) (t : AddThread) : Prop :=
  match t.pc with
  | .check | .startChecking _ | .write _ => t.own = 0
  | .rebuild => t.own ≤ sh.writes
  | .publish pr snapshot => t.own ≤ snapshot ∧ snapshot ≤ sh.writes ∧
      (snapshot = sh.writes → BuiltFrom M sh.router.routes pr)
  | .invalidate | .done .ok => t.own ≤ sh.published
  | .done _ => True

/-- The published router is a snapshot of the map, and the last write is that of some call. -/
structure PublishInvariant (M : Matchit) (sh : AddShared) (ts : List AddThread) : Prop where
  published_le : sh.published ≤ sh.writes
  in_sync : sh.published = sh.writes → BuiltFrom M sh.router.routes sh.router.prefixRouter
  knows : ∀ t ∈ ts, t.Knows M sh
  last_write : sh.writes = 0 ∨ ∃ t ∈ ts, t.own = sh.writes

/-- What the other calls know is not lost: the counters grow, and a count belongs to one map. -/
theorem AddThread.Knows.mono {M : Matchit} {sh sh' : AddShared} {t : AddThread} (h : t.Knows M sh)
    (hpub : sh.published ≤ sh'.published)
    (hmap : (sh'.writes = sh.writes ∧ sh'.router.routes = sh.router.routes) ∨
      sh.writes < sh'.writes) : t.Knows M sh' := by
  have hle : sh.writes ≤ sh'.writes := by omega
  unfold Knows at h ⊢
  split at h
  · exact h
  · exact h
  · exact h
  · exact h.trans hle
  · obtain ⟨hown, hsnap, hbuilt⟩ := h
    refine ⟨hown, hsnap.trans hle, fun heq => ?_⟩
    rcases hmap with ⟨hw, hr⟩ | hlt
    · rw [hr]
      exact hbuilt (heq.trans hw)
    · omega
  · exact h.trans hpub
  · exact h.trans hpub
  · trivial

/-- A phase that keeps `own` keeps the call of the last write in the pool. -/
theorem PublishInvariant.last_write_of_own {M : Matchit} {sh : AddShared}
    {pre post : List AddThread} {t t' : AddThread} (h : PublishInvariant M sh (pre ++ t :: post))
    (hown : t'.own = t.own) : sh.writes = 0 ∨ ∃ u ∈ pre ++ t' :: post, u.own = sh.writes := by
  refine h.last_write.imp_right ?_
  rintro ⟨u, hu, huown⟩
  simp only [List.mem_append, List.mem_cons] at hu ⊢
  rcases hu with hu | rfl | hu
  · exact ⟨u, Or.inl hu, huown⟩
  · exact ⟨t', Or.inr (Or.inl rfl), hown.trans huown⟩
  · exact ⟨u, Or.inr (Or.inr hu), huown⟩

/-- A phase that leaves map, router and counters alone. -/
theorem PublishInvariant.of_frame {M : Matchit} {sh sh' : AddShared} {pre post : List AddThread}
    {t t' : AddThread} (h : PublishInvariant M sh (pre ++ t :: post))
    (hpublished : sh'.published = sh.published) (hwrites : sh'.writes = sh.writes)
    (hroutes : sh'.router.routes = sh.router.routes)
    (hrouter : sh'.router.prefixRouter = sh.router.prefixRouter) (hown : t'.own = t.own)
    (hknow : t'.Knows M sh') : PublishInvariant M sh' (pre ++ t' :: post) where
  published_le := by rw [hpublished, hwrites]; exact h.published_le
  in_sync := by rw [hroutes, hrouter, hpublished, hwrites]; exact h.in_sync
  knows := forall_mem_middle.mpr ⟨hknow, fun u hu => ((forall_mem_middle.mp h.knows).2 u hu).mono
    (Nat.le_of_eq hpublished.symm) (Or.inl ⟨hwrites, hroutes⟩)⟩
  last_write := by rw [hwrites]; exact h.last_write_of_own hown

/-- One phase of one call. -/
theorem PublishInvariant.step {M : Matchit} {sh sh' : AddShared} {pre post : List AddThread}
    {t t' : AddThread} {ord : IterOrder} (h : PublishInvariant M sh (pre ++ t :: post))
    (hok : PublishesInOrder ⟨sh, pre ++ t :: post⟩ (.thread pre.length ord))
    (hstep : addStep M sh t ord = some (sh', t')) : PublishInvariant M sh' (pre ++ t' :: post) := by
  obtain ⟨hknow, hothers⟩ := forall_mem_middle.mp h.knows
  cases hpc : t.pc with
  | check =>
      simp only [addStep, hpc] at hstep
      have hown : t.own = 0 := by simpa [AddThread.Knows, hpc] using hknow
      split at hstep
      · cases hstep
        exact h.of_frame rfl rfl rfl rfl rfl (by simp [AddThread.Knows, hown])
      · split at hstep <;> cases hstep
        · exact h.of_frame rfl rfl rfl rfl rfl trivial
        · exact h.of_frame rfl rfl rfl rfl rfl hown
  | startChecking table =>
      simp only [addStep, hpc] at hstep
      cases hstep
      exact h.of_frame rfl rfl rfl rfl rfl (by simpa [AddThread.Knows, hpc] using hknow)
  | write table =>
      simp only [addStep, hpc] at hstep
      cases hstep
      refine ⟨Nat.le_succ_of_le h.published_le, fun heq => ?_, ?_,
        Or.inr ⟨_, List.mem_append_right _ List.mem_cons_self, rfl⟩⟩
      · have heq : sh.published = sh.writes + 1 := heq
        have hle := h.published_le
        omega
      · refine forall_mem_middle.mpr ⟨Nat.le_refl _, fun u hu => ?_⟩
        exact (hothers u hu).mono (Nat.le_refl _) (Or.inr (Nat.lt_succ_self _))
  | rebuild =>
      simp only [addStep, hpc] at hstep
      split at hstep <;> cases hstep
      · exact h.of_frame rfl rfl rfl rfl rfl trivial
      · next pr hbuild =>
        have hown : t.own ≤ sh.writes := by simpa [AddThread.Knows, hpc] using hknow
        exact h.of_frame rfl rfl rfl rfl rfl ⟨hown, Nat.le_refl _, fun _ => ⟨ord, hbuild⟩⟩
  | publish pr snapshot =>
      simp only [addStep, hpc] at hstep
      cases hstep
      obtain ⟨hown, hsnap, hbuilt⟩ : t.own ≤ snapshot ∧ snapshot ≤ sh.writes ∧
          (snapshot = sh.writes → BuiltFrom M sh.router.routes pr) := by
        simpa [AddThread.Knows, hpc] using hknow
      have hnewer : sh.published ≤ snapshot := hok t (by simp) snapshot
        (by simp [AddThread.snapshot?, hpc])
      refine ⟨hsnap, hbuilt, ?_, h.last_write_of_own rfl⟩
      exact forall_mem_middle.mpr
        ⟨hown, fun u hu => (hothers u hu).mono hnewer (Or.inl ⟨rfl, rfl⟩)⟩
  | invalidate =>
      simp only [addStep, hpc] at hstep
      cases hstep
      exact h.of_frame rfl rfl rfl rfl rfl (by simpa [AddThread.Knows, hpc] using hknow)
  | done result =>
      simp only [addStep, hpc] at hstep
      cases hstep

theorem PublishInvariant.init {M : Matchit} {s : Router} {ts : List AddThread}
    (hsync : BuiltFrom M s.routes s.prefixRouter) (hts : ∀ t ∈ ts, t.pc = .check ∧ t.own = 0) :
    PublishInvariant M (.atRest s) ts where
  published_le := Nat.le_refl _
  in_sync _ := hsync
  knows t ht := by simp [AddThread.Knows, hts t ht]
  last_write := Or.inl rfl

/-- **No route is lost** by calls that publish in the order of their snapshots: when all have
returned `Ok`, the prefix router is the one of the map. -/
theorem prefixRouter_in_sync {M : Matchit} {s : Router} {ts : List AddThread}
    (hsync : BuiltFrom M s.routes s.prefixRouter) (hts : ∀ t ∈ ts, t.pc = .check ∧ t.own = 0)
    {c : Config AddShared AddThread}
    (h : (addMachine M).system.Reach PublishesInOrder ⟨.atRest s, ts⟩ c)
    (hdone : ∀ t ∈ c.threads, t.pc = .done .ok) :
    BuiltFrom M c.shared.router.routes c.shared.router.prefixRouter := by
  have hinv : PublishInvariant M c.shared c.threads := by
    refine Machine.invariant (.init hsync hts) ?_ ?_ h
    · rintro sh ts cache ⟨hle, hs, hk, hl⟩ -
      exact ⟨hle, hs, fun t ht => (hk t ht).mono (Nat.le_refl _) (Or.inl ⟨rfl, rfl⟩), hl⟩
    · intro sh pre t post ord sh' t' hinv hok hstep
      exact hinv.step hok hstep
  refine hinv.in_sync (Nat.le_antisymm hinv.published_le ?_)
  rcases hinv.last_write with h0 | ⟨t, ht, hown⟩
  · omega
  · have hk := hinv.knows t ht
    simp only [AddThread.Knows, hdone t ht] at hk
    omega

/-! ## Two calls -/

/-- Calls for `/a` and `/b`. -/
def twoCalls : Config AddShared AddThread :=
  ⟨.atRest .new, [.start .get "/a".toList [.sample], .start .get "/b".toList [.sample]]⟩

/-- The second call runs after the first. -/
def oneByOne : List (Label IterOrder RouteLruCache) :=
  (List.replicate 6 0 ++ List.replicate 6 1).map (.thread · .newestFirst)

/-- One after the other, the two calls publish in order. -/
theorem prefixRouter_in_sync_oneByOne :
    ∃ c, (addMachine .scan).system.Reach PublishesInOrder twoCalls c ∧
      (∀ t ∈ c.threads, t.pc = .done .ok) ∧
      BuiltFrom .scan c.shared.router.routes c.shared.router.prefixRouter := by
  have hrun : (((addMachine .scan).system.restrict PublishesInOrder).exec twoCalls oneByOne).any
      (fun c => c.threads.all fun t => t.pc = .done .ok) = true := by decide +kernel
  obtain ⟨c, hc, hall⟩ := (Option.any_eq_true ..).mp hrun
  have hdone : ∀ t ∈ c.threads, t.pc = .done .ok := by simpa using hall
  have hreach := System.Reach.of_exec_restrict hc
  exact ⟨c, hreach, hdone,
    prefixRouter_in_sync ⟨.newestFirst, rfl⟩ (by simp [AddThread.start]) hreach hdone⟩

/-- The second call runs after the first has taken its snapshot and before it publishes it. -/
def overtaking : List (Label IterOrder RouteLruCache) :=
  (List.replicate 4 0 ++ List.replicate 6 1 ++ List.replicate 2 0).map (.thread · .newestFirst)

/-- **A lost route**: the older snapshot is published last, and `/b` is not reachable by prefix. -/
theorem exists_lost_route :
    ¬ ∀ M : Matchit, M.Lawful → ∀ (s : Router) (ts : List AddThread),
      BuiltFrom M s.routes s.prefixRouter → (∀ t ∈ ts, t.pc = .check ∧ t.own = 0) →
      (ts.map AddThread.key).Nodup → ∀ c : Config AddShared AddThread,
      (addMachine M).system.Reach System.Anything ⟨.atRest s, ts⟩ c →
      (∀ t ∈ c.threads, t.pc = .done .ok) →
      BuiltFrom M c.shared.router.routes c.shared.router.prefixRouter := by
  intro h
  have hrun : ((addMachine .scan).system.exec twoCalls overtaking).any (fun c =>
      (c.threads.all fun t => t.pc = .done .ok) && c.shared.router.prefixRouter.length = 2 &&
        (Rebuild.addRoute.table c.shared.router.routes).length = 4) = true := by decide +kernel
  obtain ⟨c, hc, hend⟩ := (Option.any_eq_true ..).mp hrun
  simp only [Bool.and_eq_true, List.all_eq_true, decide_eq_true_eq] at hend
  obtain ⟨⟨hdone, hpr⟩, htable⟩ := hend
  obtain ⟨ord, hbuild⟩ := h .scan Matchit.scan_lawful .new _ ⟨.newestFirst, rfl⟩
    (by simp [AddThread.start]) (by decide +kernel) c (.of_exec hc) hdone
  -- a router built from the map would have all four patterns
  have := (Rebuild.build_perm hbuild).length_eq
  omega

end Rauta
