import Mathlib.Algebra.Order.BigOperators.Group.Finset
import Rauta.Retry.Messages

/-!
# Backing off

Before each retry the loop sleeps. The delays are meant to double, up to ten times and up to
`max_delay` (`idealDelay`). `calculate_delay` computes them in whole milliseconds, as a `u64`: what
a base delay has below a millisecond is lost, and a large product is reduced modulo 2^64, before the
limit is applied.

So a delay is never too long (`calculateDelay_le`), and the total is right if and only if each delay
is (`DelayExact`).
-/

namespace Rauta

open Async

namespace RetryConfig

variable (cfg : RetryConfig)

/-- The delay before retry `a`, without overflow or truncation. -/
def idealDelay (a : Nat) : Nat := min cfg.maxDelay (cfg.baseDelay * 2 ^ min a 10)

/-- The delay is exact: in whole milliseconds that fit in 64 bits; or the limit hides that it is
not. -/
def DelayExact (a : Nat) : Prop :=
  (1000000 ∣ cfg.baseDelay ∧ cfg.baseDelay / 1000000 * 2 ^ min a 10 < 2 ^ 64) ∨
    cfg.maxDelay ≤ cfg.baseDelay / 1000000 * 2 ^ min a 10 % 2 ^ 64 * 1000000

/-- The two reductions modulo 2^64 are one. -/
theorem calculateDelay_eq (a : Nat) :
    cfg.calculateDelay a =
      min (cfg.baseDelay / 1000000 * 2 ^ min a 10 % 2 ^ 64 * 1000000) cfg.maxDelay := by
  rw [calculateDelay, Nat.mod_mul_mod]

theorem milliseconds_le (a : Nat) :
    cfg.baseDelay / 1000000 * 2 ^ min a 10 % 2 ^ 64 * 1000000 ≤ cfg.baseDelay * 2 ^ min a 10 := by
  calc cfg.baseDelay / 1000000 * 2 ^ min a 10 % 2 ^ 64 * 1000000
      ≤ cfg.baseDelay / 1000000 * 2 ^ min a 10 * 1000000 :=
        Nat.mul_le_mul_right _ (Nat.mod_le _ _)
    _ = cfg.baseDelay / 1000000 * 1000000 * 2 ^ min a 10 := Nat.mul_right_comm _ _ _
    _ ≤ cfg.baseDelay * 2 ^ min a 10 := Nat.mul_le_mul_right _ (Nat.div_mul_le_self _ _)

/-- No delay is too long. -/
theorem calculateDelay_le (a : Nat) : cfg.calculateDelay a ≤ cfg.idealDelay a := by
  have hle := cfg.milliseconds_le a
  rw [calculateDelay_eq, idealDelay]
  omega

/-- Nothing is lost from whole milliseconds that fit. -/
theorem milliseconds_eq_iff (a : Nat) :
    cfg.baseDelay / 1000000 * 2 ^ min a 10 % 2 ^ 64 * 1000000 = cfg.baseDelay * 2 ^ min a 10 ↔
      1000000 ∣ cfg.baseDelay ∧ cfg.baseDelay / 1000000 * 2 ^ min a 10 < 2 ^ 64 := by
  have hpow : 0 < 2 ^ min a 10 := Nat.two_pow_pos _
  have hmod : cfg.baseDelay / 1000000 * 2 ^ min a 10 % 2 ^ 64 ≤
      cfg.baseDelay / 1000000 * 2 ^ min a 10 := Nat.mod_le _ _
  have hdiv : cfg.baseDelay / 1000000 * 2 ^ min a 10 * 1000000 =
      cfg.baseDelay / 1000000 * 1000000 * 2 ^ min a 10 := Nat.mul_right_comm _ _ _
  have hwhole : cfg.baseDelay / 1000000 * 1000000 * 2 ^ min a 10 ≤
      cfg.baseDelay * 2 ^ min a 10 := Nat.mul_le_mul_right _ (Nat.div_mul_le_self _ _)
  constructor
  · -- neither of the two steps can lose anything
    intro h
    have hfits : cfg.baseDelay / 1000000 * 2 ^ min a 10 % 2 ^ 64 =
        cfg.baseDelay / 1000000 * 2 ^ min a 10 := by omega
    have hexact : cfg.baseDelay / 1000000 * 1000000 = cfg.baseDelay :=
      Nat.eq_of_mul_eq_mul_right hpow (by omega)
    exact ⟨⟨_, (Nat.mul_comm _ _ ▸ hexact).symm⟩, hfits ▸ Nat.mod_lt _ (by decide)⟩
  · rintro ⟨hdvd, hfits⟩
    rw [Nat.mod_eq_of_lt hfits, hdiv, Nat.div_mul_cancel hdvd]

theorem calculateDelay_eq_iff (a : Nat) :
    cfg.calculateDelay a = cfg.idealDelay a ↔ cfg.DelayExact a := by
  have hle := cfg.milliseconds_le a
  rw [DelayExact, ← milliseconds_eq_iff, calculateDelay_eq, idealDelay]
  omega

theorem idealDelay_mono {a b : Nat} (h : a ≤ b) : cfg.idealDelay a ≤ cfg.idealDelay b := by
  have hpow : 2 ^ min a 10 ≤ 2 ^ min b 10 := Nat.pow_le_pow_right (by decide) (by omega)
  have hmul := Nat.mul_le_mul_left cfg.baseDelay hpow
  unfold idealDelay
  omega

end RetryConfig

/-! ## What is slept -/

/-- A sleep. -/
def MessageEvent.isSleep : MessageEvent → Bool
  | .sleep => true
  | _ => false

namespace ClientMessage

variable {c : ClientMessage} {route : RouteMatch} {cache : ProtocolCache} {cfg : RetryConfig}
  {q : BackendRequest}

/-- The delays of a run, one for each retry. -/
def delays {α : Type} (m : Run MessageEvent α) : List Nat := m.lengths MessageEvent.isSleep

theorem delays_retrySend (reply : MessageReply) : delays (retrySend q reply) = [] := by
  refine Run.Labels.lengths_eq_nil (Run.Labels.bind ?_ fun _ _ _ => Run.labels_pure _)
  simp [MessageEvent.isSleep]

theorem delays_retrySend_bind_of_none {reply : MessageReply}
    {f : Except ProxyError BackendResponse → Run MessageEvent (Except ProxyError BackendResponse)}
    (hsend : (retrySend q reply).finish = none) : delays (retrySend q reply >>= f) = [] :=
  (Run.lengths_bind_of_none hsend).trans (delays_retrySend reply)

theorem delays_retrySend_bind_of_finish {reply : MessageReply} {t : Nat}
    {result : Except ProxyError BackendResponse}
    {f : Except ProxyError BackendResponse → Run MessageEvent (Except ProxyError BackendResponse)}
    (hsend : (retrySend q reply).finish = some (t, result)) :
    delays (retrySend q reply >>= f) = delays (f result) := by
  rw [delays, Run.lengths_bind_of_finish hsend]
  show delays (retrySend q reply) ++ delays (f result) = delays (f result)
  rw [delays_retrySend, List.nil_append]

/-- A delay comes before those of the later retries. -/
theorem delays_sleep (m : Run MessageEvent (Except ProxyError BackendResponse)) (d : Nat) :
    delays ((Run.sleep d).during .sleep >>= fun _ => m) = d :: delays m := by
  have hsleep : (Run.sleep d : Run MessageEvent Unit).finish = some (d, ()) := rfl
  have hduring : ((Run.sleep d).during .sleep : Run MessageEvent Unit).finish = some (d, ()) :=
    hsleep
  rw [delays, Run.lengths_bind_of_finish hduring, Run.lengths_during_of_finish rfl hsleep]
  rfl

theorem cons_map_calculateDelay (k r : Nat) :
    cfg.calculateDelay k :: ((List.range r).map fun a => cfg.calculateDelay (k + 1 + a)) =
      (List.range (r + 1)).map fun a => cfg.calculateDelay (k + a) := by
  rw [List.range_succ_eq_map, List.map_cons, List.map_map]
  simp only [Function.comp_def, Nat.add_zero, Nat.succ_eq_add_one, Nat.add_assoc, Nat.add_comm 1]

/-- The delays of the loop are those of the retries it makes. -/
theorem delays_retryLoop (script : Nat → MessageRetry) (left k : Nat)
    (last : Except ProxyError BackendResponse) :
    ∃ r ≤ left, delays (retryLoop cfg q script left (k + 1) last) =
      (List.range r).map fun a => cfg.calculateDelay (k + a) := by
  induction left generalizing k last with
  | zero => exact ⟨0, Nat.le_refl 0, rfl⟩
  | succ left ih =>
      rw [retryLoop, Nat.add_sub_cancel, delays_sleep]
      -- a round in which the loop ends has no other delay
      have hone : ∃ r ≤ left + 1, [cfg.calculateDelay k] =
          (List.range r).map fun a => cfg.calculateDelay (k + a) := ⟨1, by omega, rfl⟩
      cases (script (k + 1)).build with
      | error e => exact hone
      | ok _ =>
          cases hsend : (retrySend q (script (k + 1)).reply).finish with
          | none =>
              rw [delays_retrySend_bind_of_none hsend]
              exact hone
          | some result =>
              rw [delays_retrySend_bind_of_finish hsend]
              split
              · obtain ⟨r, hle, hr⟩ := ih (k + 1) result.2
                refine ⟨r + 1, by omega, ?_⟩
                rw [hr, cons_map_calculateDelay]
              · exact hone

theorem delays_firstAttempt (script : MessageScript) :
    delays (c.firstAttempt route cache script) = [] := by
  refine Run.Labels.lengths_eq_nil fun s hs => ?_
  have hcarries := labels_firstAttempt script s hs
  cases hlabel : s.label with
  | sleep =>
      rw [hlabel] at hcarries
      exact hcarries.elim
  | _ => rfl

/-- After the first attempt the delays are those of the loop. -/
theorem delays_executeWithRetry_of_finish {script : MessageExecution} {t : Nat}
    {first : Except ProxyError BackendResponse}
    (hfirst : (c.firstAttempt route cache script.forward).finish = some (t, first)) :
    delays (c.executeWithRetry route cache script cfg) =
      delays (if !cfg.shouldRetry (forgetResult first) || cfg.maxAttempts ≤ 1 then pure first
        else retryLoop cfg (c.request.retryReq route.backend) script.retry (cfg.maxAttempts - 1) 1
          first) := by
  refine (Run.lengths_bind_of_finish hfirst).trans ?_
  show delays (c.firstAttempt route cache script.forward) ++ delays _ = delays _
  rw [delays_firstAttempt, List.nil_append]

/-- **What is slept**: the delays of the first retries, at most as many as there can be. -/
theorem delays_executeWithRetry (script : MessageExecution) :
    ∃ r ≤ cfg.retries, delays (c.executeWithRetry route cache script cfg) =
      (List.range r).map cfg.calculateDelay := by
  cases hfirst : (c.firstAttempt route cache script.forward).finish with
  | none =>
      refine ⟨0, Nat.zero_le _, ?_⟩
      exact (Run.lengths_bind_of_none hfirst).trans (delays_firstAttempt _)
  | some first =>
      rw [delays_executeWithRetry_of_finish hfirst]
      split
      · exact ⟨0, Nat.zero_le _, rfl⟩
      · next hagain =>
          rw [RetryConfig.last_iff, Classical.not_imp] at hagain
          rw [RetryConfig.retries_of_shouldRetry hagain.1]
          simpa only [Nat.zero_add] using
            delays_retryLoop script.retry (cfg.maxAttempts - 1) 0 first.2

/-! ### A run with every retry -/

/-- A response that is retried if anything is. -/
def badResponse (cfg : RetryConfig) : Except Str BackendResponse :=
  if cfg.retryOn5xx then .ok ⟨500, .empty⟩ else .error []

/-- The backend never recovers. -/
def retryBad (cfg : RetryConfig) (_ : Nat) : MessageRetry := ⟨.ok (), some (0, badResponse cfg)⟩

theorem exists_retrySend_bad (hbad : (cfg.retryOn5xx || cfg.retryOnConnectionError) = true) :
    ∃ result, (retrySend q (some (0, badResponse cfg))).finish = some (0, result) ∧
      cfg.shouldRetry (forgetResult result) = true := by
  refine ⟨_, rfl, ?_⟩
  rw [RetryConfig.shouldRetry_badReply, hbad]
  unfold badResponse RetryConfig.badReply
  cases cfg.retryOn5xx <;> rfl

theorem length_delays_retryLoop_bad
    (hbad : (cfg.retryOn5xx || cfg.retryOnConnectionError) = true) (left k : Nat)
    (last : Except ProxyError BackendResponse) :
    (delays (retryLoop cfg q (retryBad cfg) left (k + 1) last)).length = left := by
  induction left generalizing k last with
  | zero => rfl
  | succ left ih =>
      obtain ⟨result, hsend, hretry⟩ : ∃ result,
          (retrySend q (some (0, badResponse cfg))).finish = some (0, result) ∧
            cfg.shouldRetry (forgetResult result) = true := exists_retrySend_bad hbad
      rw [retryLoop, delays_sleep, List.length_cons]
      show (delays (retrySend q (some (0, badResponse cfg)) >>= _)).length + 1 = left + 1
      rw [delays_retrySend_bind_of_finish hsend, if_pos hretry, ih]

/-- A run that makes every retry that there can be. -/
theorem exists_length_delays (hsize : ¬ c.request.Oversized) :
    ∃ script, (delays (c.executeWithRetry route cache script cfg)).length = cfg.retries := by
  by_cases hretries : cfg.retries = 0
  · obtain ⟨r, hle, hr⟩ : ∃ r ≤ cfg.retries, delays (c.executeWithRetry route cache _ cfg) = _ :=
      delays_executeWithRetry ⟨failing, retryBad cfg⟩
    refine ⟨⟨failing, retryBad cfg⟩, ?_⟩
    rw [hr, List.length_map, List.length_range]
    omega
  · obtain ⟨forward, first, hfirst, hretry⟩ : ∃ forward first,
        (c.firstAttempt route cache forward).finish = some (0, first) ∧
          cfg.shouldRetry (forgetResult first) = true := exists_firstAttempt hretries (.inr hsize)
    have hagain : ¬ (!cfg.shouldRetry (forgetResult first) || cfg.maxAttempts ≤ 1) = true :=
      fun hlast => hretries (RetryConfig.last_iff.mp hlast hretry)
    have hdelays : delays (c.executeWithRetry route cache ⟨forward, retryBad cfg⟩ cfg) = _ :=
      delays_executeWithRetry_of_finish hfirst
    refine ⟨⟨forward, retryBad cfg⟩, ?_⟩
    rw [hdelays, if_neg hagain, RetryConfig.retries_of_shouldRetry hretry]
    exact length_delays_retryLoop_bad (RetryConfig.switch_of_retries hretries) _ 0 first

/-- Every delay that there can be is slept in some run. -/
theorem exists_delays_executeWithRetry (hsize : ¬ c.request.Oversized) :
    ∃ script, delays (c.executeWithRetry route cache script cfg) =
      (List.range cfg.retries).map cfg.calculateDelay := by
  obtain ⟨script, hlength⟩ : ∃ script,
      (delays (c.executeWithRetry route cache script cfg)).length = cfg.retries :=
    exists_length_delays hsize
  obtain ⟨r, -, hr⟩ : ∃ r ≤ cfg.retries, delays (c.executeWithRetry route cache script cfg) =
      (List.range r).map cfg.calculateDelay := delays_executeWithRetry script
  obtain rfl : r = cfg.retries := by simpa [hr] using hlength
  exact ⟨script, hr⟩

/-! ## The schedule -/

/-- The delays follow the schedule: the total is right, and they never decrease. -/
structure FollowsSchedule (cfg : RetryConfig) (delays : List Nat) : Prop where
  total : delays.sum = ∑ a ∈ Finset.range delays.length, cfg.idealDelay a
  sorted : delays.Pairwise (· ≤ ·)

/-- As no delay is too long, the total is right only if each is. -/
theorem followsSchedule_iff (r : Nat) :
    FollowsSchedule cfg ((List.range r).map cfg.calculateDelay) ↔
      ∀ a < r, cfg.DelayExact a := by
  have htotal : ((List.range r).map cfg.calculateDelay).sum =
      ∑ a ∈ Finset.range r, cfg.calculateDelay a := rfl
  have hexact : ∑ a ∈ Finset.range r, cfg.calculateDelay a =
      ∑ a ∈ Finset.range r, cfg.idealDelay a ↔ ∀ a < r, cfg.DelayExact a := by
    rw [Finset.sum_eq_sum_iff_of_le fun a _ => cfg.calculateDelay_le a]
    simp only [Finset.mem_range, RetryConfig.calculateDelay_eq_iff]
  constructor
  · intro h
    have hsum := h.total
    rw [htotal, List.length_map, List.length_range] at hsum
    exact hexact.mp hsum
  · intro h
    refine ⟨?_, ?_⟩
    · rw [htotal, List.length_map, List.length_range]
      exact hexact.mpr h
    · rw [List.pairwise_map]
      refine List.pairwise_lt_range.imp_of_mem fun {a b} ha hb hlt => ?_
      rw [List.mem_range] at ha hb
      rw [(cfg.calculateDelay_eq_iff a).mpr (h a ha), (cfg.calculateDelay_eq_iff b).mpr (h b hb)]
      exact cfg.idealDelay_mono hlt.le

/-- **When the schedule is followed**: if the delay before each retry that there can be is exact. -/
theorem followsSchedule_executeWithRetry_iff (cfg : RetryConfig) :
    (∀ c route cache script,
        FollowsSchedule cfg (delays (executeWithRetry c route cache script cfg))) ↔
      ∀ a < cfg.retries, cfg.DelayExact a := by
  constructor
  · intro h
    have hsize : ¬ (plain .get).request.Oversized := fun hsize => absurd hsize.1 (by decide)
    let route := ClientRequest.plainMatch none (some cfg)
    obtain ⟨script, hdelays⟩ : ∃ script, delays ((plain .get).executeWithRetry route ∅ script cfg) =
        (List.range cfg.retries).map cfg.calculateDelay := exists_delays_executeWithRetry hsize
    exact (followsSchedule_iff _).mp (hdelays ▸ h (plain .get) route ∅ script)
  · intro h c route cache script
    obtain ⟨r, hle, hr⟩ : ∃ r ≤ cfg.retries, delays (c.executeWithRetry route cache script cfg) =
        (List.range r).map cfg.calculateDelay := delays_executeWithRetry script
    rw [hr, followsSchedule_iff]
    exact fun a ha => h a (by omega)

/-- A base delay of half a millisecond. -/
def submillisecond : RetryConfig := ⟨2, 500000, 1000000000, true, true⟩

/-- A base delay of 2^63 milliseconds. -/
def wrapping : RetryConfig := ⟨2, 2 ^ 63 * 1000000, 2 ^ 63 * 1000000000, true, true⟩

/-- The delays of a request to a backend that never recovers. -/
def sleptWith (cfg : RetryConfig) : List Nat :=
  delays ((plain .get).executeWithRetry (ClientRequest.plainMatch none (some cfg)) ∅
    ⟨answered ⟨500, .empty⟩, retryBad cfg⟩ cfg)

/-- **Half a millisecond is not waited at all**, and the delay after a long one can be zero. -/
theorem exists_off_schedule :
    (sleptWith submillisecond = [0, 0] ∧ ¬ FollowsSchedule submillisecond [0, 0] ∧
      submillisecond.idealDelay 0 = 500000 ∧ submillisecond.idealDelay 1 = 1000000) ∧
    (sleptWith wrapping = [2 ^ 63 * 1000000, 0] ∧
      ¬ [2 ^ 63 * 1000000, 0].Pairwise (· ≤ ·)) := by
  refine ⟨⟨by decide +kernel, fun h => ?_, by decide, by decide⟩, by decide +kernel, by decide⟩
  exact absurd h.total (by decide)

end ClientMessage

end Rauta
