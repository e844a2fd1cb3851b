/-
What a circuit breaker can do, and what it never does.

`Transition` is the diagram of the source's module comment, one constructor for each
branch of a method; `call_transition` says that nothing else happens.  Everything after
it is read off the diagram and never looks into a method again.

The invariant ties the counters to the state.  Two consequences are used elsewhere: the
`u32` counters never wrap where they are compared, and a breaker with a slot left becomes
eligible by waiting.
-/
import LlmGateway.Router.CircuitBreaker

namespace LlmGateway

namespace CircuitBreaker

variable {b : CircuitBreaker} {t : Instant} {c : BreakerCall}

/-! ### The diagram -/

/-- What a call at `t` can do to a breaker: its answer, and the breaker after it. -/
inductive Transition (b : CircuitBreaker) (t : Instant) :
    BreakerCall → Bool → CircuitBreaker → Prop
  | look : Transition b t .isEligible (b.isEligible t) b
  | pass (h : b.inner.state = .Closed) : Transition b t .allowRequest true b
  | refuse (h : b.isEligible t = false) : Transition b t .allowRequest false b
  | probe (h : b.inner.state = .Open) (hc : b.cooledDown t = true) :
      Transition b t .allowRequest true
        { b with inner := { b.inner with state := .HalfOpen, halfOpenCalls := 0 } }
  | slot (h : b.inner.state = .HalfOpen) (hlt : b.inner.halfOpenCalls < b.halfOpenMaxCalls) :
      Transition b t .allowRequest true
        { b with inner := { b.inner with halfOpenCalls := b.inner.halfOpenCalls + 1 } }
  | close (h : b.inner.state = .HalfOpen) :
      Transition b t .recordSuccess true
        { b with inner := { b.inner with failureCount := 0, state := .Closed,
                                         halfOpenCalls := 0 } }
  | reset (h : b.inner.state ≠ .HalfOpen) :
      Transition b t .recordSuccess true { b with inner := { b.inner with failureCount := 0 } }
  | reopen (h : b.inner.state = .HalfOpen) :
      Transition b t .recordFailure true
        { b with inner := { state := .Open, failureCount := b.inner.failureCount + 1,
                            lastFailure := some t, halfOpenCalls := 0 } }
  | trip (h : b.inner.state ≠ .HalfOpen) (hle : b.failureThreshold ≤ b.inner.failureCount + 1) :
      Transition b t .recordFailure true
        { b with inner := { b.inner with state := .Open, lastFailure := some t,
                                         failureCount := b.inner.failureCount + 1 } }
  | count (h : b.inner.state ≠ .HalfOpen)
      (hlt : ¬ b.failureThreshold ≤ b.inner.failureCount + 1) :
      Transition b t .recordFailure true
        { b with inner := { b.inner with lastFailure := some t,
                                         failureCount := b.inner.failureCount + 1 } }

theorem allowRequest_transition (b : CircuitBreaker) (t : Instant) :
    Transition b t .allowRequest (b.allowRequest t).1 (b.allowRequest t).2 := by
  unfold allowRequest
  cases hs : b.inner.state with
  | Closed => exact .pass hs
  | Open =>
      by_cases hc : b.cooledDown t = true
      · rw [if_pos hc]
        exact .probe hs hc
      · rw [if_neg hc]
        exact .refuse (by simp [isEligible, hs, hc])
  | HalfOpen =>
      by_cases hlt : b.inner.halfOpenCalls < b.halfOpenMaxCalls
      · simp only [if_pos hlt]
        exact .slot hs hlt
      · simp only [if_neg hlt]
        exact .refuse (by simp [isEligible, hs, hlt])

theorem recordSuccess_transition (b : CircuitBreaker) (t : Instant) :
    Transition b t .recordSuccess true b.recordSuccess := by
  unfold recordSuccess
  by_cases hs : b.inner.state = .HalfOpen
  · rw [if_pos hs]
    exact .close hs
  · rw [if_neg hs]
    exact .reset hs

theorem recordFailure_transition (b : CircuitBreaker) (t : Instant) :
    Transition b t .recordFailure true (b.recordFailure t) := by
  unfold recordFailure
  by_cases hs : b.inner.state = .HalfOpen
  · simp only [if_pos hs]
    exact .reopen hs
  by_cases hle : b.failureThreshold ≤ b.inner.failureCount + 1
  · simp only [if_neg hs, if_pos hle]
    exact .trip hs hle
  · simp only [if_neg hs, if_neg hle]
    exact .count hs hle

/-- **A call does what the diagram allows, and nothing else.** -/
theorem call_transition (b : CircuitBreaker) (t : Instant) (c : BreakerCall) :
    Transition b t c (b.call t c).1 (b.call t c).2 := by
  cases c with
  | isEligible => exact .look
  | allowRequest => exact allowRequest_transition b t
  | recordSuccess => exact recordSuccess_transition b t
  | recordFailure => exact recordFailure_transition b t

/-- The check answers what an admission at the same time would answer. -/
theorem isEligible_eq_allowRequest (b : CircuitBreaker) (t : Instant) :
    b.isEligible t = (b.allowRequest t).1 := by
  unfold isEligible allowRequest
  cases b.inner.state with
  | Closed => rfl
  | Open => by_cases hc : b.cooledDown t = true <;> simp [hc]
  | HalfOpen =>
      by_cases hlt : b.inner.halfOpenCalls < b.halfOpenMaxCalls <;> simp [hlt]

/-! ### What stays as it was configured -/

@[simp] theorem call_failureThreshold (b : CircuitBreaker) (t : Instant) (c : BreakerCall) :
    (b.call t c).2.failureThreshold = b.failureThreshold := by
  have h := call_transition b t c
  generalize (b.call t c).1 = a, (b.call t c).2 = b' at h
  cases h <;> rfl

@[simp] theorem call_halfOpenMaxCalls (b : CircuitBreaker) (t : Instant) (c : BreakerCall) :
    (b.call t c).2.halfOpenMaxCalls = b.halfOpenMaxCalls := by
  have h := call_transition b t c
  generalize (b.call t c).1 = a, (b.call t c).2 = b' at h
  cases h <;> rfl

theorem calls_append (b : CircuitBreaker) (cs ds : List (Instant × BreakerCall)) :
    b.calls (cs ++ ds) = (b.calls cs).calls ds := by
  induction cs generalizing b with
  | nil => rfl
  | cons x cs ih => exact ih _

@[simp] theorem calls_snoc (b : CircuitBreaker) (cs : List (Instant × BreakerCall))
    (t : Instant) (c : BreakerCall) :
    b.calls (cs ++ [(t, c)]) = ((b.calls cs).call t c).2 :=
  calls_append b cs [(t, c)]

@[simp] theorem calls_halfOpenMaxCalls (b : CircuitBreaker)
    (cs : List (Instant × BreakerCall)) :
    (b.calls cs).halfOpenMaxCalls = b.halfOpenMaxCalls := by
  induction cs generalizing b with
  | nil => rfl
  | cons x cs ih => rw [calls, ih, call_halfOpenMaxCalls]

/-! ### The invariant -/

/-- What holds of every breaker that calls can produce. -/
structure Inv (b : CircuitBreaker) : Prop where
  /-- A breaker that is not CLOSED knows when it last failed. -/
  failed : b.inner.state ≠ .Closed → b.inner.lastFailure.isSome
  /-- Slots are only taken in the HALF-OPEN state. -/
  idle : b.inner.state ≠ .HalfOpen → b.inner.halfOpenCalls = 0
  slots : b.inner.halfOpenCalls ≤ b.halfOpenMaxCalls
  /-- A CLOSED breaker is below its threshold, or at zero where that is no bound. -/
  below : b.inner.state = .Closed →
    b.inner.failureCount = 0 ∨ b.inner.failureCount < b.failureThreshold

theorem new_inv (threshold : UInt32) (cooldown : Duration) (maxCalls : UInt32) :
    Inv (new threshold cooldown maxCalls) where
  failed := fun h => absurd rfl h
  idle := fun _ => rfl
  slots := UInt32.le_of_lt (atLeastOne_pos maxCalls)
  below := fun _ => Or.inl rfl

/-- A counter below a bound does not wrap at its next step. -/
theorem toNat_add_one {n m : UInt32} (h : n < m) : (n + 1).toNat = n.toNat + 1 := by
  have hn : n.toNat < m.toNat := UInt32.lt_iff_toNat_lt.mp h
  have hm : m.toNat < 2 ^ 32 := m.toNat_lt
  rw [UInt32.toNat_add, show (1 : UInt32).toNat = 1 from rfl]
  exact Nat.mod_eq_of_lt (by omega)

theorem call_inv (h : Inv b) (t : Instant) (c : BreakerCall) : Inv (b.call t c).2 := by
  have htr := call_transition b t c
  generalize (b.call t c).1 = a, (b.call t c).2 = b' at htr
  cases htr with
  | look => exact h
  | pass hs => exact h
  | refuse hr => exact h
  | probe hs hc =>
      refine ⟨fun _ => h.failed (by rw [hs]; decide), fun hn => absurd rfl hn, ?_, ?_⟩
      · exact UInt32.le_of_lt b.halfOpenMaxCalls_pos
      · intro hn
        cases hn
  | slot hs hlt =>
      refine ⟨h.failed, fun hn => absurd hs hn, ?_, h.below⟩
      show b.inner.halfOpenCalls + 1 ≤ b.halfOpenMaxCalls
      rw [UInt32.le_iff_toNat_le, toNat_add_one hlt]
      exact UInt32.lt_iff_toNat_lt.mp hlt
  | close hs =>
      exact ⟨fun hn => absurd rfl hn, fun _ => rfl,
        UInt32.le_of_lt b.halfOpenMaxCalls_pos, fun _ => Or.inl rfl⟩
  | reset hs => exact ⟨h.failed, h.idle, h.slots, fun _ => Or.inl rfl⟩
  | reopen hs =>
      refine ⟨fun _ => rfl, fun _ => rfl, UInt32.le_of_lt b.halfOpenMaxCalls_pos, ?_⟩
      intro hn
      cases hn
  | trip hs hle =>
      refine ⟨fun _ => rfl, fun _ => h.idle hs, h.slots, ?_⟩
      intro hn
      cases hn
  | count hs hlt =>
      exact ⟨fun _ => rfl, h.idle, h.slots, fun _ => Or.inr (UInt32.not_le.mp hlt)⟩

/-- **Every reachable breaker satisfies the invariant.** -/
theorem Reachable.inv {threshold : UInt32} {cooldown : Duration} {maxCalls : UInt32}
    (h : Reachable threshold cooldown maxCalls t b) : Inv b := by
  induction h with
  | new => exact new_inv threshold cooldown maxCalls
  | call _ _ c ih => exact call_inv ih _ c

theorem calls_inv (h : Inv b) (cs : List (Instant × BreakerCall)) : Inv (b.calls cs) := by
  induction cs generalizing b with
  | nil => exact h
  | cons x cs ih => exact ih (call_inv h x.1 x.2)

/-- A breaker with a slot left, or that is not HALF-OPEN, is eligible from some time on. -/
theorem Inv.eventually_eligible (h : Inv b)
    (hslot : b.inner.state = .HalfOpen → b.inner.halfOpenCalls < b.halfOpenMaxCalls) :
    ∃ t, ∀ t', t ≤ t' → b.isEligible t' = true := by
  cases hs : b.inner.state with
  | Closed => exact ⟨0, fun t' _ => by simp [isEligible, hs]⟩
  | Open =>
      obtain ⟨s, hsome⟩ := Option.isSome_iff_exists.mp (h.failed (by rw [hs]; decide))
      refine ⟨s + b.cooldown, fun t' ht => ?_⟩
      have hwait : b.cooldown ≤ t'.durationSince s :=
        Nat.le_sub_of_add_le (by rw [Nat.add_comm]; exact ht)
      simp [isEligible, hs, cooledDown, hsome, hwait]
  | HalfOpen => exact ⟨0, fun t' _ => by simp [isEligible, hs, hslot hs]⟩

end CircuitBreaker

end LlmGateway
