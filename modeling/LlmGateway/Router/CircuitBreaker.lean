/-
The circuit breaker of one provider, as `circuit_breaker.rs` computes it.

Every method of the source takes the breaker's mutex for its whole body, so each is one
function of the state and the time at which it runs.  Counters are `u32` and wrap, as
they do in a release build.
-/
import LlmGateway.Rust

namespace LlmGateway

/-- A breaker lets requests through, refuses them, or lets some through as probes. -/
inductive BreakerState
  | Closed
  | Open
  | HalfOpen
  deriving DecidableEq, Repr

/-- All mutable breaker state. -/
structure BreakerInner where
  state : BreakerState
  failureCount : UInt32
  lastFailure : Option Instant
  halfOpenCalls : UInt32
  deriving DecidableEq, Repr

/-- A breaker; `new` is the only way the source builds one, so the probe budget is positive. -/
structure CircuitBreaker where
  inner : BreakerInner
  failureThreshold : UInt32
  cooldown : Duration
  halfOpenMaxCalls : UInt32
  halfOpenMaxCalls_pos : 0 < halfOpenMaxCalls
  deriving DecidableEq

namespace CircuitBreaker

/-- `half_open_max_calls.max(1)`. -/
def atLeastOne (n : UInt32) : UInt32 := if n = 0 then 1 else n

theorem atLeastOne_pos (n : UInt32) : 0 < atLeastOne n := by
  unfold atLeastOne
  split
  · decide
  · rename_i h
    rw [UInt32.lt_iff_toNat_lt]
    have hne : n.toNat ≠ 0 := fun hc => h (UInt32.toNat_inj.mp hc)
    have hzero : (0 : UInt32).toNat = 0 := rfl
    omega

/-- A breaker starts CLOSED; it lets through at least one probe. -/
def new (failureThreshold : UInt32) (cooldown : Duration) (halfOpenMaxCalls : UInt32) :
    CircuitBreaker where
  inner := { state := .Closed, failureCount := 0, lastFailure := none, halfOpenCalls := 0 }
  failureThreshold := failureThreshold
  cooldown := cooldown
  halfOpenMaxCalls := atLeastOne halfOpenMaxCalls
  halfOpenMaxCalls_pos := atLeastOne_pos halfOpenMaxCalls

/-- The state, which `current_state` reads. -/
def state (b : CircuitBreaker) : BreakerState := b.inner.state

/-- At least `cooldown` has elapsed since the last recorded failure. -/
def cooledDown (b : CircuitBreaker) (now : Instant) : Bool :=
  match b.inner.lastFailure with
  | some t => b.cooldown ≤ now.durationSince t
  | none => false

/-- The pure check: no slot is taken, nothing changes. -/
def isEligible (b : CircuitBreaker) (now : Instant) : Bool :=
  match b.inner.state with
  | .Closed => true
  | .Open => b.cooledDown now
  | .HalfOpen => b.inner.halfOpenCalls < b.halfOpenMaxCalls

/-- The admission: OPEN becomes HALF-OPEN after the cooldown, HALF-OPEN takes a slot. -/
def allowRequest (b : CircuitBreaker) (now : Instant) : Bool × CircuitBreaker :=
  match b.inner.state with
  | .Closed => (true, b)
  | .Open =>
      if b.cooledDown now then
        (true, { b with inner := { b.inner with state := .HalfOpen, halfOpenCalls := 0 } })
      else (false, b)
  | .HalfOpen =>
      if b.inner.halfOpenCalls < b.halfOpenMaxCalls then
        (true, { b with inner := { b.inner with halfOpenCalls := b.inner.halfOpenCalls + 1 } })
      else (false, b)

/-- A success forgets the failures, and closes a HALF-OPEN breaker. -/
def recordSuccess (b : CircuitBreaker) : CircuitBreaker :=
  if b.inner.state = .HalfOpen then
    { b with inner := { b.inner with failureCount := 0, state := .Closed, halfOpenCalls := 0 } }
  else { b with inner := { b.inner with failureCount := 0 } }

/-- A failure counts towards the threshold, and opens a HALF-OPEN breaker again. -/
def recordFailure (b : CircuitBreaker) (now : Instant) : CircuitBreaker :=
  let inner := { b.inner with
    lastFailure := some now, failureCount := b.inner.failureCount + 1 }
  if inner.state = .HalfOpen then
    -- The probe failed.
    { b with inner := { inner with state := .Open, halfOpenCalls := 0 } }
  else if b.failureThreshold ≤ inner.failureCount then
    { b with inner := { inner with state := .Open } }
  else { b with inner := inner }

end CircuitBreaker

/-! ### Sequences of calls -/

/-- The calls a breaker gets. -/
inductive BreakerCall
  | isEligible
  | allowRequest
  | recordSuccess
  | recordFailure
  deriving DecidableEq, Repr

namespace CircuitBreaker

/-- What a call answers, and the breaker after it; the record calls answer nothing, which
is kept as `true`. -/
def call (b : CircuitBreaker) (now : Instant) : BreakerCall → Bool × CircuitBreaker
  | .isEligible => (b.isEligible now, b)
  | .allowRequest => b.allowRequest now
  | .recordSuccess => (true, b.recordSuccess)
  | .recordFailure => (true, b.recordFailure now)

/-- The breaker after a list of timed calls. -/
def calls (b : CircuitBreaker) : List (Instant × BreakerCall) → CircuitBreaker
  | [] => b
  | (t, c) :: cs => calls (b.call t c).2 cs

/-- The breakers a configured one can become: by any calls at non-decreasing times. -/
inductive Reachable (threshold : UInt32) (cooldown : Duration) (maxCalls : UInt32) :
    Instant → CircuitBreaker → Prop
  | new (t : Instant) : Reachable threshold cooldown maxCalls t (new threshold cooldown maxCalls)
  | call {t t' : Instant} {b : CircuitBreaker} (h : Reachable threshold cooldown maxCalls t b)
      (hle : t ≤ t') (c : BreakerCall) :
      Reachable threshold cooldown maxCalls t' (b.call t' c).2

end CircuitBreaker

end LlmGateway
