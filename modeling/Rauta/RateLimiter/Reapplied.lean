import Rauta.RateLimiter.Accepted
import Rauta.RateLimiter.Ideal

/-!
# A limit that is applied again

`reconcile` calls `configure_route` each time it looks at an HTTPRoute, and so a bucket is replaced
by a new, full one although nothing has changed. The route gets whatever its old bucket lacked at
that moment, so nothing changes exactly if the bucket was full (`LiveBucket.Full`).

If it lacked nothing, the replacement goes unnoticed from then on, too: both buckets stand for the
same ideal one (`observe_configureRoute`).
-/

namespace Rauta

open Simulation

/-- At this time, what is left in the bucket and what has accrued since the refill cover the
capacity. -/
def LiveBucket.Full (x : LiveBucket) (now : Nat) : Prop :=
  x.bucket.capacityFixed ≤ (unpackTokens x.packed +
    TokenBucket.elapsedMs ((now - x.createdAt) % 2 ^ 32) (unpackRefillOffset x.packed) *
      x.bucket.refillRatePerMsFixed % 2 ^ 64) % 2 ^ 64

instance (x : LiveBucket) (now : Nat) : Decidable (x.Full now) :=
  inferInstanceAs (Decidable (_ ≤ _))

theorem LiveBucket.full_iff {x : LiveBucket} {now : Nat} : x.Full now ↔
    x.bucket.newTokens ((now - x.createdAt) % 2 ^ 32) x.packed = x.bucket.capacityFixed :=
  (min_eq_right_iff).symm

/-- The gauge shows what a refill would find. -/
theorem TokenBucket.availableTokens_eq_iff {b : TokenBucket} {now packed : Nat} :
    b.availableTokens now packed = fixedToFloat b.capacityFixed ↔
      b.newTokens (now % 2 ^ 32) packed = b.capacityFixed := by
  have hmono : fixedToFloat (b.newTokens (now % 2 ^ 32) packed) ≤ fixedToFloat b.capacityFixed :=
    div_le_div_of_nonneg_right (Nat.cast_le.mpr newTokens_le_capacity) (by decide)
  rw [availableTokens, min_eq_left hmono, fixedToFloat, fixedToFloat,
    div_left_inj' (show (fixedOne : ℚ) ≠ 0 by decide), Nat.cast_inj]

/-- The call that a check makes. -/
def AcquireCall.check (now : Nat) : AcquireCall := ⟨now, .finite 1⟩

/-- A new bucket is full. -/
theorem LiveBucket.full_fresh (b : TokenBucket) (now : Nat) : (fresh b now).Full now := by
  rw [full_iff]
  show b.newTokens ((now - now) % 2 ^ 32) b.initial = b.capacityFixed
  rw [Nat.sub_self, Nat.zero_mod, TokenBucket.newTokens_initial]

theorem AcquireCall.nonpos_check {call : AcquireCall} {times : List Nat}
    (h : call ∈ times.map AcquireCall.check) : call.n.nonpos = false := by
  obtain ⟨t, -, rfl⟩ := List.mem_map.mp h
  show F64.nonpos (.finite 1) = false
  decide +kernel

/-- A bucket that stands for a full one might as well be new. -/
theorem Tracks.observe_fresh {x : LiveBucket} {last now tokens : Nat}
    (h : Tracks x last ⟨last, tokens⟩) (hrate : x.bucket.Moderate) (hnow : last ≤ now)
    (hfull : x.Full now) {times : List Nat} (horder : InOrder now (times.map .check))
    (hgaps : GapsBelow last (times.map .check)) :
    lazyBucket.observe (.fresh x.bucket now) (times.map .check) =
      lazyBucket.observe x (times.map .check) := by
  cases times with
  | nil => rfl
  | cons t times =>
      obtain ⟨hlater, -⟩ := List.isChain_cons_cons.mp horder
      obtain ⟨hfirst, hrest⟩ := List.isChain_cons_cons.mp hgaps
      have hgap : now - last < 2 ^ 32 ∧ t - now < 2 ^ 32 := by
        have hfirst : t - last < 2 ^ 32 := hfirst
        have hlater : now ≤ t := hlater
        omega
      have hasking : asking ((t :: times).map .check) = (t :: times).map .check :=
        List.filter_eq_self.mpr fun call hcall => by rw [AcquireCall.nonpos_check hcall]; rfl
      -- both stand for a full bucket, the new one with the later timestamp
      have hideal : Tracks x last ⟨now, x.bucket.capacityFixed⟩ := by
        rw [← LiveBucket.full_iff.mp hfull, h.newTokens_eq hrate hnow hgap.1]
        exact ⟨h.created, h.offset, h.le, hnow, h.tick_iterate hnow⟩
      have hnew : GapsBelow now (asking ((t :: times).map .check)) := by
        rw [hasking]
        exact List.isChain_cons_cons.mpr ⟨hgap.2, hrest⟩
      rw [(Tracks.fresh x.bucket now).observe_eq hrate horder hnew,
        hideal.observe_eq hrate horder (by rwa [hasking])]
      rfl

namespace RateLimiter

/-- `RateLimiter::available_tokens`. -/
def availableTokens (l : RateLimiter) (now : Nat) (route : Str) : Option ℚ :=
  (l.lookup route).map fun x => x.bucket.availableTokens (now - x.createdAt) x.packed

/-- The limiter after a history of `check_rate_limit` calls. -/
def checks (l : RateLimiter) (history : List (Nat × Str)) : RateLimiter :=
  history.foldl (fun l (now, route) => (l.checkRateLimit now route).2) l

/-- The bucket of the route is full. -/
def Full (l : RateLimiter) (now : Nat) (route : Str) : Prop :=
  ∃ x, l.lookup route = some x ∧ x.Full now

variable {l : RateLimiter} {round : ℚ → ℚ} {rate : F64} {burst : Nat} {route : Str}

/-- The calls that a history makes of the route's bucket. -/
def callsTo (route : Str) (history : List (Nat × Str)) : List AcquireCall :=
  ((history.filter fun call => call.2 = route).map Prod.fst).map .check

/-- A check leaves the buckets of other routes alone. -/
theorem lookup_checkRateLimit_of_ne {other : Str} (hne : route ≠ other) (now : Nat) :
    (l.checkRateLimit now other).2.lookup route = l.lookup route := by
  cases hother : l.lookup other with
  | none => rw [checkRateLimit_of_lookup_eq_none hother]
  | some x =>
      cases hanswer : x.bucket.tryAcquireN (.finite 1) (now - x.createdAt) x.packed with
      | mk allowed packed =>
          rw [checkRateLimit_of_lookup hother hanswer]
          exact AList.lookup_insert_ne hne

/-- The route's bucket after a history. -/
theorem lookup_checks {x : LiveBucket} (h : l.lookup route = some x) (history : List (Nat × Str)) :
    (l.checks history).lookup route = some (lazyBucket.run x (callsTo route history)) := by
  induction history generalizing l x with
  | nil => exact h
  | cons call history ih =>
      obtain ⟨now, other⟩ := call
      by_cases hsame : other = route
      · subst hsame
        cases hanswer : x.bucket.tryAcquireN (.finite 1) (now - x.createdAt) x.packed with
        | mk allowed packed =>
            have hnext : (l.checkRateLimit now other).2.lookup other =
                some { x with packed := packed } := by
              rw [checkRateLimit_of_lookup h hanswer]
              exact AList.lookup_insert _
            have hcall : lazyBucket.step x (.check now) = ({ x with packed := packed }, allowed) :=
              lazyBucket_step hanswer
            have hcalls : callsTo other ((now, other) :: history) =
                .check now :: callsTo other history := by simp [callsTo]
            rw [hcalls, Reactive.run_cons, hcall]
            exact ih hnext
      · have hcalls : callsTo route ((now, other) :: history) = callsTo route history := by
          simp [callsTo, hsame]
        rw [hcalls]
        exact ih ((lookup_checkRateLimit_of_ne (Ne.symm hsame) now).trans h)

/-- Checks take tokens, and leave the limits as they are. -/
theorem Limited.checks (h : Limited round rate burst l route) (history : List (Nat × Str)) :
    Limited round rate burst (l.checks history) route := by
  obtain ⟨x, hx, hbucket⟩ := h
  exact ⟨_, lookup_checks hx history, (lazyBucket_run_bucket x _).trans hbucket⟩

theorem lookup_configureRoute (now : Nat) :
    (l.configureRoute round now route rate burst).lookup route =
      some (.fresh (.ofRate round rate burst) now) :=
  AList.lookup_insert _

/-- **When applying a limit again changes nothing**: exactly if the bucket is full then. -/
theorem availableTokens_configureRoute_iff (h : Limited round rate burst l route)
    (history : List (Nat × Str)) (now : Nat) :
    ((l.checks history).configureRoute round now route rate burst).availableTokens now route =
      (l.checks history).availableTokens now route ↔ (l.checks history).Full now route := by
  obtain ⟨x, hx, hbucket⟩ := h.checks history
  have hafter : ((l.checks history).configureRoute round now route rate burst).availableTokens now
      route = some (fixedToFloat x.bucket.capacityFixed) := by
    have hfull := LiveBucket.full_iff.mp (LiveBucket.full_fresh (.ofRate round rate burst) now)
    rw [availableTokens, lookup_configureRoute, Option.map_some,
      TokenBucket.availableTokens_eq_iff.mpr hfull, hbucket]
    rfl
  have hbefore : (l.checks history).availableTokens now route =
      some (x.bucket.availableTokens (now - x.createdAt) x.packed) := by
    rw [availableTokens, hx, Option.map_some]
  rw [hafter, hbefore, Option.some_inj, eq_comm, TokenBucket.availableTokens_eq_iff,
    ← LiveBucket.full_iff]
  constructor
  · intro hfull
    exact ⟨x, hx, hfull⟩
  · rintro ⟨y, hy, hfull⟩
    obtain rfl : x = y := Option.some.inj (hx.symm.trans hy)
    exact hfull

/-- A route with a limit of `10rps,burst=5`. -/
def fivePerBurst : RateLimiter := configureRoute ∅ id 0 "/api".toList (.finite 10) 5

theorem limited_fivePerBurst : Limited id (.finite 10) 5 fivePerBurst "/api".toList :=
  limited_configureRoute_iff.mpr (Or.inl rfl)

/-- The burst is used at once. -/
def burstUsed : List (Nat × Str) := List.replicate 5 (0, "/api".toList)

/-- After 501 ms the bucket is full again. -/
theorem availableTokens_configureRoute_later :
    ((fivePerBurst.checks burstUsed).configureRoute id 501 "/api".toList (.finite 10)
      5).availableTokens 501 "/api".toList =
      (fivePerBurst.checks burstUsed).availableTokens 501 "/api".toList := by
  have hfull : ((fivePerBurst.checks burstUsed).lookup "/api".toList).any
      (fun x => decide (x.Full 501)) = true := by decide +kernel
  obtain ⟨x, hx, hx501⟩ := (Option.any_eq_true ..).mp hfull
  exact (availableTokens_configureRoute_iff limited_fivePerBurst burstUsed 501).mpr
    ⟨x, hx, of_decide_eq_true hx501⟩

/-- **Tokens are given back**: the burst is used and the next request rejected; then the limit is
applied again, and there is another burst at the same instant. -/
theorem exists_burst_repeated :
    ¬ (∀ (l : RateLimiter) (round : ℚ → ℚ) (rate : F64) (burst : Nat) (route : Str),
      Limited round rate burst l route → ∀ (history : List (Nat × Str)) (now : Nat),
      ((l.checks history).configureRoute round now route rate burst).availableTokens now route =
        (l.checks history).availableTokens now route) := by
  intro h
  have heq := h _ _ _ _ _ limited_fivePerBurst burstUsed 0
  have hbefore : (fivePerBurst.checks burstUsed).availableTokens 0 "/api".toList = some 0 := by
    decide +kernel
  have hafter : ((fivePerBurst.checks burstUsed).configureRoute id 0 "/api".toList (.finite 10)
      5).availableTokens 0 "/api".toList = some 5 := by decide +kernel
  exact absurd (hafter.symm.trans (heq.trans hbefore)) (by decide +kernel)

/-! ## Afterwards -/

/-- The checks of one route. -/
def ofRoute (route : Str) : Reactive RateLimiter Nat Bool where
  step l now :=
    let (allowed, l') := l.checkRateLimit now route
    (l', allowed)

/-- The checks of a route show its bucket. -/
theorem ofRoute_observe {x : LiveBucket} (h : l.lookup route = some x) (times : List Nat) :
    (ofRoute route).observe l times = lazyBucket.observe x (times.map .check) := by
  induction times generalizing l x with
  | nil => rfl
  | cons now times ih =>
      cases hanswer : x.bucket.tryAcquireN (.finite 1) (now - x.createdAt) x.packed with
      | mk allowed packed =>
          have hstep : (ofRoute route).step l now =
              (l.insert route { x with packed := packed }, allowed) := by
            simp only [ofRoute, checkRateLimit_of_lookup h hanswer]
          have hcall : lazyBucket.step x (.check now) = ({ x with packed := packed }, allowed) :=
            lazyBucket_step hanswer
          rw [Reactive.observe, hstep, List.map_cons, Reactive.observe, hcall,
            ih (AList.lookup_insert _)]

/-- **A full bucket is replaced unnoticed**: if a limit is applied again when the bucket is full,
then all later checks of the route are answered as if it had not been. -/
theorem observe_configureRoute {created now : Nat}
    (hlookup : l.lookup route = some (.fresh (.ofRate round rate burst) created))
    (hrate : (TokenBucket.ofRate round rate burst).Moderate) {history : List (Nat × Str)}
    {times : List Nat}
    (horder : InOrder created (callsTo route history ++ .check now :: times.map .check))
    (hgaps : GapsBelow created (callsTo route history ++ times.map .check))
    (hfull : (l.checks history).Full now route) :
    (ofRoute route).observe ((l.checks history).configureRoute round now route rate burst) times =
      (ofRoute route).observe (l.checks history) times := by
  have hask : ∀ call ∈ callsTo route history, call.n.nonpos = false :=
    fun call hcall => AcquireCall.nonpos_check hcall
  obtain ⟨packed, last, tokens, hrun, htracks, horder, hgaps⟩ :=
    (Tracks.fresh (.ofRate round rate burst) created).run_append hrate hask horder hgaps
  obtain ⟨hnow, horder⟩ := List.isChain_cons_cons.mp horder
  have hx := lookup_checks hlookup history
  rw [hrun] at hx
  obtain ⟨y, hy, hfull⟩ := hfull
  obtain rfl := Option.some.inj (hx.symm.trans hy)
  rw [ofRoute_observe (lookup_configureRoute now), ofRoute_observe hx]
  exact htracks.observe_fresh hrate hnow hfull horder hgaps

end RateLimiter

end Rauta
