/-
Whether one provider's failures reach another.

A breaker is found by the name of its provider, and nothing that is done under one name
touches the breaker of another.  Two entries of the provider list are therefore isolated
exactly if their names differ, which no check of the configuration demands: under a common
name, as many failures of the first as the threshold asks for open the breaker of the
second.
-/
import LlmGateway.Proofs.World
import LlmGateway.Proofs.Crates
import LlmGateway.Proofs.History
import LlmGateway.Lib.Meter

namespace LlmGateway

/-! ### Failures in a row -/

namespace CircuitBreaker

variable {b : CircuitBreaker}

/-- A failure opens a CLOSED breaker, or is counted by it. -/
theorem failure_closed_cases (hs : b.inner.state = .Closed) (t : Instant) :
    (b.recordFailure t).state = .Open ∨
      (b.recordFailure t).inner.state = .Closed ∧
        (b.recordFailure t).inner.failureCount = b.inner.failureCount + 1 := by
  have htr := recordFailure_transition b t
  generalize b.recordFailure t = b' at htr
  cases htr with
  | reopen hhalf =>
      rw [hs] at hhalf
      cases hhalf
  | trip _ _ => exact Or.inl rfl
  | count _ _ => exact Or.inr ⟨hs, rfl⟩

/-- As many failures in a row as are missing to the threshold open a CLOSED breaker. -/
theorem calls_failures_open (t : Instant) (k : Nat) (h : Inv b) (hs : b.inner.state = .Closed)
    (hk : b.inner.failureCount.toNat + (k + 1) = max 1 b.failureThreshold.toNat) :
    (b.calls (List.replicate (k + 1) (t, .recordFailure))).state = .Open := by
  induction k generalizing b with
  | zero => exact (h.opens_iff hs t .recordFailure).mpr ⟨rfl, hk⟩
  | succ k ih =>
      have hinv := call_inv h t .recordFailure
      rcases failure_closed_cases hs t with hopen | ⟨hclosed, hcount⟩
      · -- it cannot open yet
        obtain ⟨-, hreached⟩ := (h.opens_iff hs t .recordFailure).mp hopen
        omega
      · refine ih (b := b.recordFailure t) hinv hclosed ?_
        have hthreshold : (b.recordFailure t).failureThreshold = b.failureThreshold :=
          call_failureThreshold b t .recordFailure
        rw [hcount, h.count_succ hs, hthreshold]
        omega

/-- Enough failures open a breaker that has just been built. -/
theorem exists_failures_open (threshold : UInt32) (cooldown : Duration) (maxCalls : UInt32)
    (t : Instant) :
    ∃ k, ((new threshold cooldown maxCalls).calls
      (List.replicate k (t, .recordFailure))).state = .Open := by
  obtain ⟨k, hk⟩ : ∃ k, max 1 threshold.toNat = k + 1 :=
    ⟨max 1 threshold.toNat - 1, by omega⟩
  refine ⟨k + 1, calls_failures_open t k (new_inv threshold cooldown maxCalls) rfl ?_⟩
  show (0 : UInt32).toNat + (k + 1) = max 1 threshold.toNat
  rw [hk]
  simp

end CircuitBreaker

/-! ### Two entries -/

variable {st : AppState}

/-- The world after calls on one provider's breaker, each at its time. -/
def World.operate (st : AppState) (provider : String) (w : World) :
    List (Instant × BreakerCall) → World
  | [] => w
  | (t, c) :: cs => operate st provider (World.callBreaker st { w with now := t } provider c).2 cs

/-- The calls reach the breaker of that name, and no other. -/
theorem World.breakerFor_operate (p q : String) (w : World) (cs : List (Instant × BreakerCall)) :
    (w.operate st p cs).breakerFor st q
      = if p = q then (w.breakerFor st q).calls cs else w.breakerFor st q := by
  induction cs generalizing w with
  | nil => simp [World.operate, CircuitBreaker.calls]
  | cons n cs ih =>
      obtain ⟨t, c⟩ := n
      have hstep : (World.callBreaker st { w with now := t } p c).2.breakerFor st q
          = (w.breakerFor st q).after t (if p = q then some c else none) :=
        World.breakerFor_callBreaker { w with now := t } p q c
      rw [World.operate, ih, hstep]
      by_cases h : p = q
      · simp only [if_pos h, CircuitBreaker.after, CircuitBreaker.calls]
      · simp only [if_neg h, CircuitBreaker.after]

/-- Whatever is done on behalf of `p` from now on, the breaker used for `q` has the state it
would have had, and is eligible when it would have been. -/
def Isolated (st : AppState) (p q : ProviderConfig) : Prop :=
  ∀ (w : World) (cs : List (Instant × BreakerCall)), Meter.Timed w.now cs →
    ((w.operate st p.name cs).breakerFor st q.name).state = (w.breakerFor st q.name).state ∧
      ∀ t, ((w.operate st p.name cs).breakerFor st q.name).isEligible t
        = (w.breakerFor st q.name).isEligible t

theorem timed_replicate (t : Instant) (c : BreakerCall) (k : Nat) :
    Meter.Timed t (List.replicate k (t, c)) := by
  induction k with
  | zero => trivial
  | succ k ih => exact ⟨le_refl t, ih⟩

/-- **Two providers are isolated exactly if their names differ.** -/
theorem isolated_iff (st : AppState) (p q : ProviderConfig) :
    Isolated st p q ↔ p.name ≠ q.name := by
  constructor
  · intro h hname
    have hfresh : (World.initial 0).breakerFor st q.name
        = .new st.config.circuitBreaker.failureThreshold
            (.fromSecs st.config.circuitBreaker.cooldownSeconds.toNat)
            st.config.circuitBreaker.halfOpenMaxCalls := rfl
    obtain ⟨k, hopen⟩ := CircuitBreaker.exists_failures_open
      st.config.circuitBreaker.failureThreshold
      (.fromSecs st.config.circuitBreaker.cooldownSeconds.toNat)
      st.config.circuitBreaker.halfOpenMaxCalls 0
    have hstate := (h (.initial 0) _ (timed_replicate 0 .recordFailure k)).1
    rw [World.breakerFor_operate, if_pos hname, hfresh, hopen] at hstate
    cases hstate
  · intro hname w cs _
    rw [World.breakerFor_operate, if_neg hname]
    exact ⟨rfl, fun t => rfl⟩

/-! Two regions under one name. -/

/-- A provider of the same name in another region. -/
def region (endpoint : String) (priority : UInt32) : ProviderConfig where
  name := "openai"
  endpoint := endpoint
  apiKey := none
  priority := priority
  requestTimeoutSeconds := 30
  streamIdleTimeoutSeconds := 120

/-- A gateway with two providers of one name. -/
def twinGateway : AppState :=
  .new (.table [] [])
    { credentials := []
      rateLimit := { defaultRpm := 60, defaultTpm := 1000 }
      circuitBreaker := { failureThreshold := 1, cooldownSeconds := 30, halfOpenMaxCalls := 1 }
      providers := [region "https://eu" 1, region "https://us" 2] }

/-- A failure of the first opens the breaker of the second. -/
theorem twins_not_isolated :
    twinGateway.config.validate = .ok () ∧
      twinGateway.config.providers = [region "https://eu" 1, region "https://us" 2] ∧
      ¬ Isolated twinGateway (region "https://eu" 1) (region "https://us" 2) := by
  refine ⟨by decide, rfl, fun h => ?_⟩
  have hstate := (h (.initial 0) _ (timed_replicate 0 .recordFailure 1)).1
  revert hstate
  decide

end LlmGateway
