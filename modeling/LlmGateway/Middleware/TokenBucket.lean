/-
The token bucket of `rate_limit.rs`, and the reservations taken from it.

Every method refills first, lazily: the tokens of the time since `lastRefill` are added,
at most an hour's worth and never past the capacity.  Each method holds the bucket's
mutex throughout, so it is one function of the bucket and the time.  Tokens are exact
rationals where the source has `f64`.
-/
import LlmGateway.Rust

namespace LlmGateway

/-- `new` clamps the two fixed fields at zero. -/
structure TokenBucket where
  capacity : ℚ
  refillPerSec : ℚ
  tokens : ℚ
  lastRefill : Instant
  capacity_nonneg : 0 ≤ capacity
  refill_nonneg : 0 ≤ refillPerSec
  deriving DecidableEq

namespace TokenBucket

/-- A bucket filled with `capacity` tokens. -/
def new (capacity refillPerSec : ℚ) (now : Instant) : TokenBucket where
  capacity := max capacity 0
  refillPerSec := max refillPerSec 0
  tokens := capacity
  lastRefill := now
  capacity_nonneg := le_max_right _ _
  refill_nonneg := le_max_right _ _

/-- Seconds since the last refill, clamped at an hour. -/
def elapsed (b : TokenBucket) (now : Instant) : ℚ :=
  min (Duration.asSecs (now.durationSince b.lastRefill)) 3600

/-- `refill_locked`. -/
def refillLocked (b : TokenBucket) (now : Instant) : TokenBucket :=
  if 0 < b.elapsed now then
    { b with
      tokens := min (b.tokens + b.elapsed now * b.refillPerSec) b.capacity
      lastRefill := now }
  else b

/-- The seconds a client is told to wait when `deficit` tokens are missing. -/
def retryAfter (b : TokenBucket) (deficit : ℚ) : Nat :=
  max (if 0 < b.refillPerSec then toU64 ⌈deficit / b.refillPerSec⌉ else u64Max) 1

/-- Take `cost` tokens, all or none. -/
def tryConsume (b : TokenBucket) (now : Instant) (cost : ℚ) : Except Nat Unit × TokenBucket :=
  let b := b.refillLocked now
  if cost ≤ b.tokens then (.ok (), { b with tokens := b.tokens - cost })
  else (.error (b.retryAfter (cost - b.tokens)), b)

/-- Give `n` tokens back, up to the capacity. -/
def refund (b : TokenBucket) (now : Instant) (n : ℚ) : TokenBucket :=
  let b := b.refillLocked now
  { b with tokens := min (b.tokens + n) b.capacity }

/-- The current level; reading it refills too. -/
def availableTokens (b : TokenBucket) (now : Instant) : ℚ × TokenBucket :=
  let b := b.refillLocked now
  (b.tokens, b)

/-- The level a bucket has at a time, refill included. -/
def level (b : TokenBucket) (now : Instant) : ℚ := (b.availableTokens now).1

end TokenBucket

/-- The buckets of one client. -/
structure RateLimitBuckets where
  rpm : TokenBucket
  tpm : TokenBucket
  deriving DecidableEq

/-- Fresh buckets: a minute's worth each, refilled over a minute. -/
def RateLimitBuckets.fromConfig (rpm tpm : UInt32) (now : Instant) : RateLimitBuckets where
  rpm := .new rpm.toNat (rpm.toNat / 60) now
  tpm := .new tpm.toNat (tpm.toNat / 60) now

/-! ### Reservations -/

/-- A reservation: whose TPM bucket it was taken from, how much, and whether it was settled.
The bucket is the client's; `rate_limiter` entries are never removed or replaced. -/
structure ReservationHandle where
  bucket : String
  reserved : ℚ
  reconciled : Bool
  deriving DecidableEq, Repr

/-- The bucket's part of `try_reserve_tpm`. -/
def TokenBucket.tryReserve (b : TokenBucket) (now : Instant) (client : String) (cost : ℚ) :
    Except Nat ReservationHandle × TokenBucket :=
  match b.tryConsume now cost with
  | (.ok (), b) => (.ok { bucket := client, reserved := cost, reconciled := false }, b)
  | (.error r, b) => (.error r, b)

namespace ReservationHandle

/-- `Drop for ReservationHandle`: an unsettled reservation is refunded. -/
def drop (h : ReservationHandle) (b : TokenBucket) (now : Instant) : TokenBucket :=
  if h.reconciled then b else b.refund now h.reserved

/-- `reconcile`, and the drop of the handle it consumes. -/
def reconcile (h : ReservationHandle) (b : TokenBucket) (now : Instant) (actualCost : ℚ) :
    TokenBucket :=
  let h := { h with reconciled := true }
  let b :=
    if actualCost < h.reserved then b.refund now (h.reserved - actualCost)
    else if h.reserved < actualCost then (b.tryConsume now (actualCost - h.reserved)).2
    else b
  h.drop b now

end ReservationHandle

/-! ### Sequences of calls -/

/-- The calls a bucket gets from outside. -/
inductive BucketCall
  | tryConsume (cost : ℚ)
  | refund (n : ℚ)
  | availableTokens
  deriving DecidableEq, Repr

/-- Costs and refunds are never negative. -/
def BucketCall.NonNeg : BucketCall → Prop
  | .tryConsume cost => 0 ≤ cost
  | .refund n => 0 ≤ n
  | .availableTokens => True

namespace TokenBucket

/-- The bucket after a call. -/
def call (b : TokenBucket) (now : Instant) : BucketCall → TokenBucket
  | .tryConsume cost => (b.tryConsume now cost).2
  | .refund n => b.refund now n
  | .availableTokens => (b.availableTokens now).2

/-- The bucket after a list of timed calls. -/
def calls (b : TokenBucket) : List (Instant × BucketCall) → TokenBucket
  | [] => b
  | (t, c) :: cs => calls (b.call t c) cs

end TokenBucket

end LlmGateway
