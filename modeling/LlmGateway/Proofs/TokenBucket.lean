/-
The rate limit over a window.

The level of a bucket at a time is what a call at that time finds after its refill.  It
is between zero and the capacity, it grows by at most the refill rate, and a call lowers
it by what it takes: `TokenBucket` is a metered store, and the bound for every window of
every run is the one of `Lib/Meter.lean`.  The two clamps, an hour's worth of refill and
the capacity, can only make the level smaller.
-/
import LlmGateway.Middleware.TokenBucket
import LlmGateway.Lib.Meter

namespace LlmGateway

theorem Duration.asSecs_nonneg (d : Duration) : 0 ≤ Duration.asSecs d := by
  unfold Duration.asSecs
  positivity

theorem Duration.asSecs_durationSince {t u : Instant} (h : t ≤ u) :
    Duration.asSecs (u.durationSince t) = Duration.asSecs u - Duration.asSecs t := by
  unfold Instant.durationSince Duration.asSecs
  rw [Nat.cast_sub h]
  ring

namespace TokenBucket

variable {b : TokenBucket} {now t : Instant}

/-! ### Refill -/

theorem elapsed_nonneg (b : TokenBucket) (now : Instant) : 0 ≤ b.elapsed now :=
  le_min (Duration.asSecs_nonneg _) (by norm_num)

@[simp] theorem refillLocked_capacity (b : TokenBucket) (now : Instant) :
    (b.refillLocked now).capacity = b.capacity := by
  unfold refillLocked
  split <;> rfl

@[simp] theorem refillLocked_refillPerSec (b : TokenBucket) (now : Instant) :
    (b.refillLocked now).refillPerSec = b.refillPerSec := by
  unfold refillLocked
  split <;> rfl

@[simp] theorem elapsed_self (b : TokenBucket) (h : b.lastRefill = now) : b.elapsed now = 0 := by
  unfold elapsed Instant.durationSince Duration.asSecs
  simp [h]

/-- After a refill at `now` nothing more comes in at `now`. -/
theorem elapsed_refillLocked (b : TokenBucket) (now : Instant) :
    (b.refillLocked now).elapsed now = 0 := by
  unfold refillLocked
  by_cases h : 0 < b.elapsed now
  · rw [if_pos h]
    exact elapsed_self _ rfl
  · rw [if_neg h]
    exact le_antisymm (not_lt.mp h) (elapsed_nonneg b now)

/-- Only the time of the last refill matters for a later one. -/
theorem refillLocked_of_elapsed (h : b.elapsed now = 0) : b.refillLocked now = b := by
  unfold refillLocked
  rw [if_neg (by rw [h]; exact lt_irrefl 0)]

theorem level_eq (b : TokenBucket) (now : Instant) : b.level now = (b.refillLocked now).tokens :=
  rfl

/-- The level in one formula. -/
theorem level_eq_min (h : b.tokens ≤ b.capacity) (now : Instant) :
    b.level now = min (b.tokens + b.elapsed now * b.refillPerSec) b.capacity := by
  rw [level_eq]
  unfold refillLocked
  by_cases hpos : 0 < b.elapsed now
  · rw [if_pos hpos]
  · have hzero : b.elapsed now = 0 := le_antisymm (not_lt.mp hpos) (elapsed_nonneg b now)
    rw [if_neg hpos, hzero, zero_mul, add_zero, min_eq_left h]

/-! ### Sound levels -/

/-- The stored level is between zero and the capacity. -/
def Within (b : TokenBucket) : Prop := 0 ≤ b.tokens ∧ b.tokens ≤ b.capacity

theorem new_within {capacity : ℚ} (h : 0 ≤ capacity) (refill : ℚ) (now : Instant) :
    (new capacity refill now).Within :=
  ⟨h, le_max_left _ _⟩

theorem refillLocked_nonneg (h : 0 ≤ b.tokens) (now : Instant) :
    0 ≤ (b.refillLocked now).tokens := by
  have hgain := mul_nonneg (elapsed_nonneg b now) b.refill_nonneg
  unfold refillLocked
  split
  · exact le_min (by linarith) b.capacity_nonneg
  · exact h

/-- What is not there is not taken, whatever is asked for. -/
theorem tryConsume_nonneg (h : 0 ≤ b.tokens) (now : Instant) (cost : ℚ) :
    0 ≤ (b.tryConsume now cost).2.tokens := by
  unfold tryConsume
  by_cases hc : cost ≤ (b.refillLocked now).tokens
  · simp only [if_pos hc]
    exact sub_nonneg.mpr hc
  · simp only [if_neg hc]
    exact refillLocked_nonneg h now

theorem refund_nonneg (h : 0 ≤ b.tokens) {n : ℚ} (hn : 0 ≤ n) (now : Instant) :
    0 ≤ (b.refund now n).tokens :=
  le_min (add_nonneg (refillLocked_nonneg h now) hn) (b.refillLocked now).capacity_nonneg

theorem refillLocked_within (h : b.Within) (now : Instant) : (b.refillLocked now).Within := by
  refine ⟨refillLocked_nonneg h.1 now, ?_⟩
  rw [← level_eq, level_eq_min h.2, refillLocked_capacity]
  exact min_le_right _ _

theorem tryConsume_within (h : b.Within) {cost : ℚ} (hcost : 0 ≤ cost) (now : Instant) :
    (b.tryConsume now cost).2.Within := by
  refine ⟨tryConsume_nonneg h.1 now cost, ?_⟩
  obtain ⟨-, hle⟩ := refillLocked_within h now
  unfold tryConsume
  by_cases hc : cost ≤ (b.refillLocked now).tokens
  · simp only [if_pos hc]
    linarith
  · simp only [if_neg hc]
    exact hle

theorem refund_within (h : b.Within) {n : ℚ} (hn : 0 ≤ n) (now : Instant) :
    (b.refund now n).Within :=
  ⟨refund_nonneg h.1 hn now, min_le_right _ _⟩

theorem call_within (h : b.Within) {c : BucketCall} (hc : c.NonNeg) (now : Instant) :
    (b.call now c).Within := by
  cases c with
  | tryConsume cost => exact tryConsume_within h hc now
  | refund n => exact refund_within h hc now
  | availableTokens => exact refillLocked_within h now

theorem level_nonneg (h : b.Within) (now : Instant) : 0 ≤ b.level now :=
  (refillLocked_within h now).1

theorem level_le (h : b.Within) (now : Instant) : b.level now ≤ b.capacity := by
  rw [level_eq, ← refillLocked_capacity b now]
  exact (refillLocked_within h now).2

/-! ### What stays, and what a call leaves behind -/

/-- A call refills, and changes nothing else but the tokens. -/
theorem call_eq (b : TokenBucket) (now : Instant) (c : BucketCall) :
    b.call now c = { b.refillLocked now with tokens := (b.call now c).tokens } := by
  cases c with
  | tryConsume cost =>
      unfold call tryConsume
      by_cases hc : cost ≤ (b.refillLocked now).tokens
      · simp only [if_pos hc]
      · simp only [if_neg hc]
  | refund n => rfl
  | availableTokens => rfl

@[simp] theorem call_capacity (b : TokenBucket) (now : Instant) (c : BucketCall) :
    (b.call now c).capacity = b.capacity := by
  rw [call_eq]
  exact refillLocked_capacity b now

@[simp] theorem call_refillPerSec (b : TokenBucket) (now : Instant) (c : BucketCall) :
    (b.call now c).refillPerSec = b.refillPerSec := by
  rw [call_eq]
  exact refillLocked_refillPerSec b now

/-- A call leaves the time of the refill it began with. -/
theorem call_lastRefill (b : TokenBucket) (now : Instant) (c : BucketCall) :
    (b.call now c).lastRefill = (b.refillLocked now).lastRefill := by
  rw [call_eq]

theorem refillLocked_lastRefill_le (h : b.lastRefill ≤ now) :
    (b.refillLocked now).lastRefill ≤ now := by
  unfold refillLocked
  split
  · exact le_refl _
  · exact h

/-- Right after a call the stored level is the level. -/
theorem elapsed_call (b : TokenBucket) (now : Instant) (c : BucketCall) :
    (b.call now c).elapsed now = 0 := by
  unfold elapsed
  rw [call_lastRefill]
  exact elapsed_refillLocked b now

@[simp] theorem level_call (b : TokenBucket) (now : Instant) (c : BucketCall) :
    (b.call now c).level now = (b.call now c).tokens := by
  rw [level_eq, refillLocked_of_elapsed (elapsed_call b now c)]

/-- Right after a consumption the level is what it was, less the cost if it was granted. -/
theorem level_tryConsume (b : TokenBucket) (now : Instant) (cost : ℚ) :
    (b.tryConsume now cost).2.level now
      = if cost ≤ b.level now then b.level now - cost else b.level now := by
  rw [show (b.tryConsume now cost).2 = b.call now (.tryConsume cost) from rfl, level_call]
  unfold call tryConsume
  by_cases hc : cost ≤ (b.refillLocked now).tokens
  · rw [if_pos (show cost ≤ b.level now from hc)]
    simp only [if_pos hc]
    rfl
  · rw [if_neg (show ¬ cost ≤ b.level now from hc)]
    simp only [if_neg hc]
    rfl

theorem level_refund (b : TokenBucket) (now : Instant) (n : ℚ) :
    (b.refund now n).level now = min (b.level now + n) b.capacity := by
  rw [show b.refund now n = b.call now (.refund n) from rfl, level_call]
  show min _ (b.refillLocked now).capacity = _
  rw [refillLocked_capacity]
  rfl

/-- A cost above the level is refused. -/
theorem tryConsume_refused {cost : ℚ} (h : b.level now < cost) :
    (b.tryConsume now cost).1 = .error ((b.refillLocked now).retryAfter (cost - b.level now)) := by
  unfold tryConsume
  simp only [if_neg (not_le.mpr h : ¬ cost ≤ (b.refillLocked now).tokens)]
  rfl

/-- A cost is granted exactly if the level covers it. -/
theorem tryConsume_granted {cost : ℚ} :
    (b.tryConsume now cost).1 = .ok () ↔ cost ≤ b.level now := by
  constructor
  · intro hok
    by_contra hc
    rw [tryConsume_refused (not_le.mp hc)] at hok
    cases hok
  · intro hc
    unfold tryConsume
    rw [if_pos (show cost ≤ (b.refillLocked now).tokens from hc)]

/-- Nobody is told to come back at once. -/
theorem one_le_retryAfter (b : TokenBucket) (deficit : ℚ) : 1 ≤ b.retryAfter deficit :=
  le_max_right _ _

/-! ### A bucket is a metered store -/

/-- What a call takes from the bucket: the cost it is granted, less what it gives back. -/
def taken (b : TokenBucket) (now : Instant) : BucketCall → ℚ
  | .tryConsume cost => if (b.tryConsume now cost).1 = .ok () then cost else 0
  | .refund n => -n
  | .availableTokens => 0

/-- The bucket as a meter. -/
def meter (capacity rate : ℚ) : Meter TokenBucket BucketCall Instant where
  step := call
  level := level
  drawn := taken
  capacity := capacity
  rate := rate
  clock := Duration.asSecs

/-- A sound bucket with these fixed fields, last refilled at `now` or before. -/
structure At (capacity rate : ℚ) (b : TokenBucket) (now : Instant) : Prop where
  within : b.Within
  capacity_eq : b.capacity = capacity
  rate_eq : b.refillPerSec = rate
  past : b.lastRefill ≤ now

theorem new_at {capacity rate : ℚ} (hc : 0 ≤ capacity) (hr : 0 ≤ rate) (now : Instant) :
    At capacity rate (new capacity rate now) now :=
  ⟨new_within hc rate now, max_eq_left hc, max_eq_left hr, le_refl now⟩

theorem At.call {capacity rate : ℚ} (h : At capacity rate b t) (htn : t ≤ now) {c : BucketCall}
    (hc : c.NonNeg) : At capacity rate (b.call now c) now where
  within := call_within h.within hc now
  capacity_eq := by rw [call_capacity, h.capacity_eq]
  rate_eq := by rw [call_refillPerSec, h.rate_eq]
  past := by
    rw [call_lastRefill]
    exact refillLocked_lastRefill_le (h.past.trans htn)

/-- Refill is no faster than the clock. -/
theorem level_grows (h : b.Within) (hpast : b.lastRefill ≤ t) (htn : t ≤ now) :
    b.level now ≤ b.level t
      + b.refillPerSec * (Duration.asSecs now - Duration.asSecs t) := by
  have hsplit : Duration.asSecs (now.durationSince b.lastRefill)
      = Duration.asSecs (t.durationSince b.lastRefill)
        + (Duration.asSecs now - Duration.asSecs t) := by
    rw [Duration.asSecs_durationSince (hpast.trans htn), Duration.asSecs_durationSince hpast]
    ring
  have hwait : 0 ≤ Duration.asSecs now - Duration.asSecs t := by
    rw [sub_nonneg]
    unfold Duration.asSecs
    have : (t : ℚ) ≤ now := by exact_mod_cast htn
    linarith
  have helapsed : b.elapsed now ≤ b.elapsed t + (Duration.asSecs now - Duration.asSecs t) := by
    unfold elapsed
    rw [hsplit]
    rcases le_total (Duration.asSecs (t.durationSince b.lastRefill)) 3600 with hle | hge
    · rw [min_eq_left hle]
      exact min_le_left _ _
    · rw [min_eq_right hge]
      exact (min_le_right _ _).trans (by linarith)
  have hgain := mul_le_mul_of_nonneg_right helapsed b.refill_nonneg
  have hmore := mul_nonneg b.refill_nonneg hwait
  rw [level_eq_min h.2, level_eq_min h.2]
  rcases min_cases (b.tokens + b.elapsed t * b.refillPerSec) b.capacity with ⟨hm, -⟩ | ⟨hm, -⟩
  · rw [hm]
    refine (min_le_left _ _).trans ?_
    linarith
  · rw [hm]
    refine (min_le_right _ _).trans ?_
    linarith

/-- A call lowers the level by what it takes, at least. -/
theorem level_call_add_taken (b : TokenBucket) (now : Instant) (c : BucketCall) :
    (b.call now c).level now + b.taken now c ≤ b.level now := by
  rw [level_call]
  cases c with
  | tryConsume cost =>
      unfold call taken tryConsume
      by_cases hc : cost ≤ (b.refillLocked now).tokens
      · simp only [if_pos hc]
        rw [level_eq]
        simp
      · simp only [if_neg hc]
        rw [level_eq]
        simp
  | refund n =>
      have := min_le_left ((b.refillLocked now).tokens + n) (b.refillLocked now).capacity
      show min _ _ + -n ≤ (b.refillLocked now).tokens
      linarith
  | availableTokens =>
      show (b.refillLocked now).tokens + 0 ≤ (b.refillLocked now).tokens
      linarith

theorem meter_lawful {capacity rate : ℚ} (hr : 0 ≤ rate) :
    (meter capacity rate).Lawful (At capacity rate) BucketCall.NonNeg where
  clock_mono t u htu := by
    show Duration.asSecs t ≤ Duration.asSecs u
    unfold Duration.asSecs
    have : (t : ℚ) ≤ u := by exact_mod_cast htu
    linarith
  rate_nonneg := hr
  valid_step s t u e hs htu he := hs.call htu he
  level_nonneg s t u hs htu := level_nonneg hs.within u
  level_le s t u hs htu := by
    show s.level u ≤ capacity
    rw [← hs.capacity_eq]
    exact level_le hs.within u
  level_grows s t u hs htu := by
    have := level_grows hs.within hs.past htu
    rwa [hs.rate_eq] at this
  level_step s t u e hs htu he := level_call_add_taken s u e

theorem run_meter (capacity rate : ℚ) (b : TokenBucket) (cs : List (Instant × BucketCall)) :
    (meter capacity rate).run b cs = b.calls cs := by
  induction cs generalizing b with
  | nil => rfl
  | cons x cs ih => exact ih _

/-! ### The rate limit -/

/-- What the calls of a run take between `a` and `z`: the cost granted, less what is
refunded. -/
def takenWithin (a z : Instant) (b : TokenBucket) : List (Instant × BucketCall) → ℚ
  | [] => 0
  | (t, c) :: cs =>
      (if a ≤ t ∧ t ≤ z then b.taken t c else 0) + takenWithin a z (b.call t c) cs

theorem drawnWithin_meter (capacity rate : ℚ) (a z : Instant) (b : TokenBucket)
    (cs : List (Instant × BucketCall)) :
    (meter capacity rate).drawnWithin a z b cs = takenWithin a z b cs := by
  induction cs generalizing b with
  | nil => rfl
  | cons x cs ih =>
      unfold Meter.drawnWithin takenWithin
      rw [ih]
      rfl

/-- A bucket is sound after any calls at non-decreasing times. -/
theorem calls_within {capacity rate : ℚ} (hr : 0 ≤ rate) {cs : List (Instant × BucketCall)}
    (hb : At capacity rate b t) (htimes : Meter.Timed t cs) (hcs : ∀ x ∈ cs, x.2.NonNeg) :
    (b.calls cs).Within ∧ (b.calls cs).capacity = capacity := by
  obtain ⟨u, -, hu⟩ := (meter_lawful hr).run_valid cs hb htimes hcs
  rw [run_meter] at hu
  exact ⟨hu.within, hu.capacity_eq⟩

/-- In every window a bucket grants no more than its capacity and the refill. -/
theorem takenWithin_le {capacity rate : ℚ} (hr : 0 ≤ rate) {cs : List (Instant × BucketCall)}
    (hb : At capacity rate b t) (htimes : Meter.Timed t cs) (hcs : ∀ x ∈ cs, x.2.NonNeg)
    {a z : Instant} (haz : a ≤ z) :
    takenWithin a z b cs ≤ capacity + rate * Duration.asSecs (z.durationSince a) := by
  rw [← drawnWithin_meter capacity rate, Duration.asSecs_durationSince haz]
  exact (meter_lawful hr).drawnWithin_le haz cs hb htimes hcs

/-- How many of the requests at these times are admitted between `a` and `z`. -/
def admittedWithin (a z : Instant) (b : TokenBucket) : List Instant → Nat
  | [] => 0
  | t :: ts =>
      (if (a ≤ t ∧ t ≤ z) ∧ (b.tryConsume t 1).1 = .ok () then 1 else 0)
        + admittedWithin a z (b.tryConsume t 1).2 ts

/-- A request costs one token. -/
theorem admittedWithin_eq (a z : Instant) (b : TokenBucket) (ts : List Instant) :
    (admittedWithin a z b ts : ℚ) = takenWithin a z b (ts.map (·, .tryConsume 1)) := by
  induction ts generalizing b with
  | nil => rfl
  | cons t ts ih =>
      unfold admittedWithin
      rw [List.map_cons, takenWithin, Nat.cast_add, ih]
      show _ + takenWithin a z (b.call t (.tryConsume 1)) _ = _
      by_cases hin : a ≤ t ∧ t ≤ z
      · by_cases hok : (b.tryConsume t 1).1 = .ok ()
        · simp [taken, hin, hok]
        · simp [taken, hin, hok]
      · simp [hin]

/--
**The rate limit holds over every window.**  Whatever is consumed, refunded and looked at,
the level stays within the bucket, and in no window is more granted than the capacity and
the refill of the window.  So a client gets at most `rpm` requests and a sixtieth of that
for each second.
-/
theorem window_bound :
    (∀ (capacity rate : ℚ) (start : Instant) (cs : List (Instant × BucketCall)),
      0 ≤ capacity → 0 ≤ rate → (∀ x ∈ cs, x.2.NonNeg) →
      (start :: cs.map Prod.fst).Pairwise (· ≤ ·) →
      (∀ before now, before <+: cs →
        0 ≤ ((new capacity rate start).calls before).level now ∧
          ((new capacity rate start).calls before).level now ≤ capacity) ∧
      ∀ a z, a ≤ z → takenWithin a z (new capacity rate start) cs
        ≤ capacity + rate * Duration.asSecs (z.durationSince a)) ∧
    ∀ (rpm tpm : UInt32) (start : Instant) (ts : List Instant),
      (start :: ts).Pairwise (· ≤ ·) → ∀ a z, a ≤ z →
      (admittedWithin a z (RateLimitBuckets.fromConfig rpm tpm start).rpm ts : ℚ)
        ≤ rpm.toNat + rpm.toNat / 60 * Duration.asSecs (z.durationSince a) := by
  refine ⟨?_, ?_⟩
  · intro capacity rate start cs hc hr hcs htimes
    have hnew := new_at hc hr start
    have htimed := Meter.timed_iff_pairwise.mpr htimes
    refine ⟨?_, fun a z haz => takenWithin_le hr hnew htimed hcs haz⟩
    intro before now hpre
    obtain ⟨hwithin, hcap⟩ := calls_within hr hnew
      (Meter.timed_iff_pairwise.mpr (htimes.sublist ((hpre.map Prod.fst).sublist.cons_cons start)))
      (fun x hx => hcs x (hpre.subset hx))
    exact ⟨level_nonneg hwithin now, (level_le hwithin now).trans (le_of_eq hcap)⟩
  · intro rpm tpm start ts htimes a z haz
    have hrpm : (0 : ℚ) ≤ (rpm.toNat : ℚ) / 60 := by positivity
    rw [admittedWithin_eq]
    refine takenWithin_le hrpm (new_at (by positivity) hrpm start) ?_ ?_ haz
    · rw [Meter.timed_iff_pairwise, List.map_map]
      simpa [Function.comp_def] using htimes
    · intro x hx
      obtain ⟨t, -, rfl⟩ := List.mem_map.mp hx
      show (0 : ℚ) ≤ 1
      norm_num

/-- Three requests a minute, asked for four times at once and again after twenty seconds. -/
theorem window_bound_three :
    (admittedWithin 0 (Duration.fromSecs 20)
        (RateLimitBuckets.fromConfig 3 0 0).rpm [0, 0, 0, 0, Duration.fromSecs 20] : ℚ)
      ≤ (3 : UInt32).toNat
        + (3 : UInt32).toNat / 60
          * Duration.asSecs (Instant.durationSince (Duration.fromSecs 20) 0) ∧
    takenWithin 0 0 (new 3 0 0) [(0, .tryConsume 2), (0, .refund 1), (0, .tryConsume 2)]
      ≤ 3 + 0 * Duration.asSecs (Instant.durationSince 0 0) :=
  ⟨window_bound.2 3 0 0 [0, 0, 0, 0, Duration.fromSecs 20] (by decide) 0 _ (by decide),
    (window_bound.1 3 0 0 [(0, .tryConsume 2), (0, .refund 1), (0, .tryConsume 2)]
      (by norm_num) (le_refl 0) (by simp [BucketCall.NonNeg]) (by decide)).2 0 0 (le_refl 0)⟩

end TokenBucket

end LlmGateway
