import Rauta.RateLimiter.PerRoute

/-!
# The packed word

`pack_bucket` shifts the tokens into the upper half of the word without masking them, so it depends
on its callers that they fit. They do, for a reason that has nothing to do with the clock or with
what the multiplication yields: whatever is packed was first cut down to the capacity, or to less.

`clockMachine` is the machine of `try_acquire_n` calls under a clock that shows anything at all.
-/

namespace Rauta

open Interleaving Transition

namespace TokenBucket

/-- The word holds tokens within the capacity, and a 32-bit time. -/
def WellFormed (b : TokenBucket) (packed : Nat) : Prop :=
  ∃ tokens ≤ b.capacityFixed, ∃ refillMs < 2 ^ 32, packed = packBucket tokens refillMs

variable {b : TokenBucket} {packed nowMs : Nat}

theorem wellFormed_initial : b.WellFormed b.initial :=
  ⟨b.capacityFixed, Nat.le_refl _, 0, by decide, rfl⟩

/-- A word that is well formed comes apart into its two fields. -/
theorem WellFormed.fields (h : b.WellFormed packed) : unpackTokens packed ≤ b.capacityFixed ∧
    unpackRefillOffset packed < 2 ^ 32 ∧
    packBucket (unpackTokens packed) (unpackRefillOffset packed) = packed := by
  obtain ⟨tokens, htokens, refillMs, hms, rfl⟩ := h
  have hlt : tokens < 2 ^ 32 := htokens.trans_lt b.capacity_lt
  rw [unpackTokens_packBucket hlt, unpackRefillOffset_packBucket hlt hms]
  exact ⟨htokens, hms, rfl⟩

/-- An attempt packs a well-formed word, whatever the word was that it was made on. -/
theorem wellFormed_attempt (b : TokenBucket) (nFixed current : Nat) (hnow : nowMs < 2 ^ 32) :
    b.WellFormed (b.attempt nFixed nowMs current).2 :=
  ⟨_, (Nat.sub_le _ _).trans newTokens_le_capacity, nowMs, hnow, attempt_snd⟩

end TokenBucket

/-- Calls on several threads, and a clock that is set to anything in between. -/
def clockMachine (b : TokenBucket) : Machine BucketShared Caller Bool Nat where
  thread := acquireStep b
  env sh reading := { sh with now := reading }

/-- A clock that moves forward is a clock. -/
theorem reach_clockMachine {b : TokenBucket} {c₀ c : Config BucketShared Caller}
    (h : (bucketMachine b).system.Reach System.Anything c₀ c) :
    (clockMachine b).system.Reach System.Anything c₀ c := by
  induction h with
  | refl => exact .refl
  | @tail c c' label _ _ hstep ih =>
      cases label with
      | env ms =>
          refine ih.tail (a := .env (c.shared.now + ms)) trivial ?_
          rw [← hstep]
          rfl
      | thread i spurious => exact ih.tail (a := .thread i spurious) trivial hstep

/-- The clock reading of a call has 32 bits. -/
def Caller.Reads32 (c : Caller) : Prop :=
  match c.pc with
  | .load nowMs | .exchange nowMs _ => nowMs < 2 ^ 32
  | _ => True

/-- What a step of a call does to the word: nothing, or it writes what the attempt on the current
word has packed. -/
theorem acquireStep_packed {b : TokenBucket} {sh sh' : BucketShared} {c c' : Caller}
    {spurious : Bool} (h : acquireStep b sh c spurious = some (sh', c')) :
    (sh'.packed = sh.packed ∧ (∀ e, c.exchange? = some e → c'.pc ≠ .done true)) ∨
      ∃ nowMs, c.exchange? = some (nowMs, sh.packed) ∧
        sh'.packed = (b.attempt (floatToFixed c.n) nowMs sh.packed).2 ∧
        c' = { c with pc := .done (b.attempt (floatToFixed c.n) nowMs sh.packed).1 } := by
  cases hpc : c.pc with
  | start =>
      simp only [acquireStep, hpc] at h
      left
      split at h <;> cases h <;> simp [Caller.exchange?, hpc]
  | load nowMs =>
      simp only [acquireStep, hpc] at h
      cases h
      exact Or.inl ⟨rfl, by simp⟩
  | exchange nowMs current =>
      simp only [acquireStep, hpc] at h
      split at h
      · next hswap =>
        cases h
        right
        obtain rfl := hswap.1
        exact ⟨nowMs, by simp [Caller.exchange?, hpc], rfl, rfl⟩
      · left
        split at h <;> cases h <;> simp
  | done acquired =>
      simp only [acquireStep, hpc] at h
      cases h

/-- A step reads the clock modulo 2^32. -/
theorem acquireStep_reads32 {b : TokenBucket} {sh sh' : BucketShared} {c c' : Caller}
    {spurious : Bool} (hc : c.Reads32) (h : acquireStep b sh c spurious = some (sh', c')) :
    c'.Reads32 := by
  unfold Caller.Reads32 at hc ⊢
  unfold acquireStep at h
  split at h
  · split at h <;> cases h
    · trivial
    · exact Nat.mod_lt _ (by decide)
  · next hpc =>
    rw [hpc] at hc
    cases h
    exact hc
  · next hpc =>
    rw [hpc] at hc
    simp only at h
    split at h
    · cases h
      trivial
    · split at h <;> cases h
      · exact hc
      · trivial
  · cases h

/-- The word is well formed, and the clock readings have 32 bits. -/
structure WordKept (b : TokenBucket) (sh : BucketShared) (callers : List Caller) : Prop where
  word : b.WellFormed sh.packed
  reads : ∀ c ∈ callers, c.Reads32

theorem Caller.Reads32.of_exchange? {c : Caller} (h : c.Reads32) {e : Nat × Nat}
    (he : c.exchange? = some e) : e.1 < 2 ^ 32 := by
  unfold Caller.Reads32 at h
  unfold Caller.exchange? at he
  split at he
  · next hpc =>
    rw [hpc] at h
    cases he
    exact h
  · cases he

/-- One step of one call. -/
theorem WordKept.step {b : TokenBucket} {sh sh' : BucketShared} {pre post : List Caller}
    {c c' : Caller} {spurious : Bool} (h : WordKept b sh (pre ++ c :: post))
    (hstep : acquireStep b sh c spurious = some (sh', c')) :
    WordKept b sh' (pre ++ c' :: post) := by
  obtain ⟨hc, hothers⟩ := forall_mem_middle.mp h.reads
  refine ⟨?_, forall_mem_middle.mpr ⟨acquireStep_reads32 hc hstep, hothers⟩⟩
  rcases acquireStep_packed hstep with ⟨hsame, -⟩ | ⟨nowMs, hexchange, hword, -⟩
  · rw [hsame]
    exact h.word
  · rw [hword]
    exact b.wellFormed_attempt _ _ (hc.of_exchange? hexchange)

/-- Every run keeps the word well formed. -/
theorem wordKept_of_reach {b : TokenBucket} {callers : List Caller}
    (hstart : ∀ c ∈ callers, c.pc = .start) {now : Nat} {c : Config BucketShared Caller}
    (h : (clockMachine b).system.Reach System.Anything ⟨⟨now, b.initial⟩, callers⟩ c) :
    WordKept b c.shared c.threads := by
  refine Machine.invariant ⟨TokenBucket.wellFormed_initial, ?_⟩ ?_ ?_ h
  · intro c hc
    simp [Caller.Reads32, hstart c hc]
  · intro sh ts reading hs _
    exact ⟨hs.word, hs.reads⟩
  · intro sh pre l post spurious sh' l' hs _ hstep
    exact hs.step hstep

/-- A call that gets its tokens has found them in the word, and leaves the rest. -/
theorem WordKept.taken {b : TokenBucket} {c c' : Config BucketShared Caller}
    (h : WordKept b c.shared c.threads) {i : Nat} {spurious : Bool}
    (hstep : (clockMachine b).step c (.thread i spurious) = some c') {caller : Caller}
    (hcaller : c.threads[i]? = some caller) {nowMs current : Nat}
    (hpc : caller.pc = .exchange nowMs current)
    (hdone : c'.threads[i]? = some { caller with pc := .done true }) :
    unpackTokens c'.shared.packed + floatToFixed caller.n = b.newTokens nowMs current ∧
      unpackRefillOffset c'.shared.packed = nowMs := by
  obtain ⟨pre, l, post, sh', l', hsplit, rfl, hl, rfl⟩ := Machine.thread_cases hstep
  rw [hsplit, List.getElem?_append_right (Nat.le_refl _), Nat.sub_self] at hcaller
  obtain rfl : l = caller := Option.some.inj hcaller
  rw [List.getElem?_append_right (Nat.le_refl _), Nat.sub_self] at hdone
  obtain rfl : l' = { l with pc := .done true } := Option.some.inj hdone
  have hexchange : l.exchange? = some (nowMs, current) := by simp [Caller.exchange?, hpc]
  rcases acquireStep_packed hl with ⟨-, hnot⟩ | ⟨ms, hms, hword, hend⟩
  · exact absurd rfl (hnot _ hexchange)
  · obtain ⟨rfl, rfl⟩ : nowMs = ms ∧ current = c.shared.packed := by
      simpa using hexchange.symm.trans hms
    have henough : (b.attempt (floatToFixed l.n) nowMs c.shared.packed).1 = true := by
      simpa using (congrArg Caller.pc hend).symm
    have hreads := h.reads l (hsplit ▸ by simp)
    obtain ⟨hoffset, htokens⟩ :=
      b.attempt_balance (floatToFixed l.n) c.shared.packed (hreads.of_exchange? hexchange)
    rw [TokenBucket.grant, if_pos henough] at htokens
    rw [hword]
    exact ⟨htokens, hoffset⟩

/-- **The word is always well formed**, under every interleaving and every clock: the tokens are
within the capacity, which has 32 bits, the word comes apart into its fields, and a call that gets
its tokens leaves the rest behind. -/
theorem packed_wellFormed (round : ℚ → ℚ) (rate : F64) (burst now : Nat) {callers : List Caller}
    (hstart : ∀ c ∈ callers, c.pc = .start) {c : Config BucketShared Caller}
    (h : (clockMachine (.ofRate round rate burst)).system.Reach System.Anything
      ⟨⟨now, (TokenBucket.ofRate round rate burst).initial⟩, callers⟩ c) :
    unpackTokens c.shared.packed ≤ (TokenBucket.ofRate round rate burst).capacityFixed ∧
    (TokenBucket.ofRate round rate burst).capacityFixed < 2 ^ 32 ∧
    packBucket (unpackTokens c.shared.packed) (unpackRefillOffset c.shared.packed) =
      c.shared.packed ∧
    ∀ i spurious c',
      (clockMachine (.ofRate round rate burst)).step c (.thread i spurious) = some c' →
      ∀ caller ∈ c.threads[i]?, ∀ nowMs current, caller.pc = .exchange nowMs current →
      c'.threads[i]? = some { caller with pc := .done true } →
      unpackTokens c'.shared.packed + floatToFixed caller.n =
        (TokenBucket.ofRate round rate burst).newTokens nowMs current ∧
      unpackRefillOffset c'.shared.packed = nowMs := by
  have hkept := wordKept_of_reach hstart h
  obtain ⟨htokens, -, hpack⟩ := hkept.word.fields
  refine ⟨htokens, TokenBucket.capacity_lt _, hpack, ?_⟩
  intro i spurious c' hstep caller hcaller nowMs current hpc hdone
  exact hkept.taken hstep hcaller hpc hdone

/-- The first of two calls has loaded the word, the clock has gone back, and the second has taken
the only token. -/
def clockGoesBack : List (Label Bool Nat) :=
  [.thread 0 false, .thread 0 false, .env 3, .thread 1 false, .thread 1 false, .thread 1 false]

theorem packed_wellFormed_clockGoesBack :
    ∃ c, (clockMachine (.ofRate id (.finite 10) 1)).system.Reach System.Anything
        ⟨⟨2 ^ 40, (TokenBucket.ofRate id (.finite 10) 1).initial⟩,
          List.replicate 2 ⟨.finite 1, .start⟩⟩ c ∧
      unpackRefillOffset c.shared.packed = 3 ∧
      unpackTokens c.shared.packed ≤ (TokenBucket.ofRate id (.finite 10) 1).capacityFixed := by
  have hrun : ((clockMachine (.ofRate id (.finite 10) 1)).system.exec
      ⟨⟨2 ^ 40, (TokenBucket.ofRate id (.finite 10) 1).initial⟩,
        List.replicate 2 ⟨.finite 1, .start⟩⟩ clockGoesBack).any
      (fun c => unpackRefillOffset c.shared.packed = 3) = true := by decide +kernel
  obtain ⟨c, hc, hend⟩ := (Option.any_eq_true ..).mp hrun
  have hreach := System.Reach.of_exec hc
  exact ⟨c, hreach, of_decide_eq_true hend,
    (packed_wellFormed id (.finite 10) 1 (2 ^ 40) (by simp) hreach).1⟩

end Rauta
