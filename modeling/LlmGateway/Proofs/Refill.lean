/-
How a bucket refills from call to call.

A bucket of a minute's worth is full again within the hour that one refill is clamped at.
So the clamp is never noticed: refilling in two steps is refilling in one, the bucket is a
lazy store, and calls that only look, or that are rejected, cost nobody anything.  A wait is
never longer than a minute either, and the seconds a client is told to wait are the least
number of seconds after which it is admitted.
-/
import LlmGateway.Proofs.TokenBucket
import LlmGateway.Lib.Lazy

namespace LlmGateway

/-- What a call of a bucket returns. -/
inductive BucketAnswer
  | consumed (result : Except Nat Unit)
  | refunded
  | available (tokens : ℚ)
  deriving DecidableEq

/-- A refund is never negative: `reconcile` and `drop` give back what was reserved, or a part
of it. -/
def BucketCall.GivesBack : BucketCall → Prop
  | .refund n => 0 ≤ n
  | _ => True

theorem Duration.asSecs_wait (t : Instant) (s : Nat) :
    Duration.asSecs (Instant.durationSince (t + Duration.fromSecs s) t) = s := by
  unfold Instant.durationSince Duration.fromSecs Duration.asSecs
  rw [Nat.add_sub_cancel_left]
  push_cast
  ring

/-- At the end of a wait its seconds have passed. -/
theorem Duration.le_asSecs {t u : Instant} {s : Nat} (h : t + Duration.fromSecs s ≤ u) :
    (s : ℚ) ≤ Duration.asSecs (u.durationSince t) := by
  rw [← Duration.asSecs_wait t s]
  unfold Duration.asSecs
  have hle : Instant.durationSince (t + Duration.fromSecs s) t ≤ u.durationSince t :=
    Nat.sub_le_sub_right h t
  have : ((Instant.durationSince (t + Duration.fromSecs s) t : ℕ) : ℚ) ≤ u.durationSince t := by
    exact_mod_cast hle
  linarith

namespace TokenBucket

variable {b : TokenBucket} {t u : Instant} {n cost : ℚ}

/-! ### Refilling twice -/

theorem min_add_min {x y z : ℚ} (hy : 0 ≤ y) : min (min x z + y) z = min (x + y) z := by
  rcases le_total x z with hx | hx
  · rw [min_eq_left hx]
  · rw [min_eq_right hx, min_eq_right (by linarith), min_eq_right (by linarith)]

theorem elapsed_pos (h : b.lastRefill < t) : 0 < b.elapsed t := by
  refine lt_min ?_ (by norm_num)
  have hlt : 0 < t.durationSince b.lastRefill := Nat.sub_pos_of_lt h
  unfold Duration.asSecs
  positivity

/-- The time since the last refill, in two parts. -/
theorem elapsed_split (hpast : b.lastRefill ≤ u) (hut : u ≤ t) :
    b.elapsed t = min (b.elapsed u + min (Duration.asSecs (t.durationSince u)) 3600) 3600 := by
  have hlater : 0 ≤ Duration.asSecs (t.durationSince u) := Duration.asSecs_nonneg _
  have hsum : Duration.asSecs (t.durationSince b.lastRefill)
      = Duration.asSecs (u.durationSince b.lastRefill) + Duration.asSecs (t.durationSince u) := by
    rw [Duration.asSecs_durationSince (hpast.trans hut), Duration.asSecs_durationSince hpast,
      Duration.asSecs_durationSince hut]
    ring
  unfold elapsed
  rw [hsum, min_add_min (le_min hlater (by norm_num)), add_comm _ (min _ _),
    min_add_min (Duration.asSecs_nonneg _), add_comm]

theorem refillLocked_of_pos (h : 0 < b.elapsed t) : b.refillLocked t
    = { b with tokens := min (b.tokens + b.elapsed t * b.refillPerSec) b.capacity
               lastRefill := t } :=
  if_pos h

/-- Refilling in two steps is refilling in one, if an hour fills the bucket. -/
theorem refillLocked_refillLocked (hpast : b.lastRefill ≤ u) (hut : u ≤ t)
    (hhour : b.capacity ≤ b.tokens + 3600 * b.refillPerSec) :
    (b.refillLocked u).refillLocked t = b.refillLocked t := by
  by_cases hfirst : 0 < b.elapsed u
  · rcases Nat.eq_or_lt_of_le hut with rfl | hlt
    · exact refillLocked_of_elapsed (elapsed_refillLocked b u)
    · have hsecond : 0 < (b.refillLocked u).elapsed t := by
        rw [refillLocked_of_pos hfirst]
        exact elapsed_pos hlt
      have hgain : 0 ≤ (b.refillLocked u).elapsed t * b.refillPerSec :=
        mul_nonneg hsecond.le b.refill_nonneg
      have hboth : b.elapsed t = min (b.elapsed u + (b.refillLocked u).elapsed t) 3600 := by
        rw [elapsed_split hpast hut, refillLocked_of_pos hfirst]
        rfl
      have htokens : min (min (b.tokens + b.elapsed u * b.refillPerSec) b.capacity
            + (b.refillLocked u).elapsed t * b.refillPerSec) b.capacity
          = min (b.tokens + b.elapsed t * b.refillPerSec) b.capacity := by
        rw [min_add_min hgain, hboth]
        rcases le_total (b.elapsed u + (b.refillLocked u).elapsed t) 3600 with hle | hge
        · rw [min_eq_left hle, add_mul, add_assoc]
        · -- both sides are a full bucket
          have hfull := mul_le_mul_of_nonneg_right hge b.refill_nonneg
          rw [min_eq_right hge, min_eq_right (by linarith), min_eq_right (by linarith)]
      rw [refillLocked_of_pos hsecond, refillLocked_of_pos (elapsed_pos (hpast.trans_lt hlt)),
        ← htokens]
      simp only [refillLocked_of_pos hfirst]
  · have hzero : b.elapsed u = 0 := le_antisymm (not_lt.mp hfirst) (elapsed_nonneg b u)
    rw [refillLocked_of_elapsed hzero]

/-! ### A minute's worth -/

/-- A bucket for `n` tokens a minute, as a call at `t` may have left it. -/
structure MinuteWorth (n : ℚ) (b : TokenBucket) (t : Instant) : Prop where
  tokens_nonneg : 0 ≤ b.tokens
  capacity_eq : b.capacity = n
  rate_eq : b.refillPerSec = n / 60
  past : b.lastRefill ≤ t

theorem At.minuteWorth (h : At n (n / 60) b t) : MinuteWorth n b t :=
  ⟨h.within.1, h.capacity_eq, h.rate_eq, h.past⟩

namespace MinuteWorth

theorem fromConfig {rpm tpm : UInt32} {start : Instant}
    (h : b = (RateLimitBuckets.fromConfig rpm tpm start).rpm ∧ n = rpm.toNat ∨
      b = (RateLimitBuckets.fromConfig rpm tpm start).tpm ∧ n = tpm.toNat) :
    MinuteWorth n b start := by
  have hnew : ∀ k : Nat, MinuteWorth k (new k (k / 60) start) start := by
    intro k
    have hk : (0 : ℚ) ≤ k := Nat.cast_nonneg k
    exact ⟨hk, max_eq_left hk, max_eq_left (by positivity), le_refl start⟩
  rcases h with ⟨rfl, rfl⟩ | ⟨rfl, rfl⟩
  · exact hnew rpm.toNat
  · exact hnew tpm.toNat

theorem nonneg (h : MinuteWorth n b t) : 0 ≤ n := by
  rw [← h.capacity_eq]
  exact b.capacity_nonneg

/-- An hour fills the bucket, whatever it holds. -/
theorem hour (h : MinuteWorth n b t) : b.capacity ≤ b.tokens + 3600 * b.refillPerSec := by
  have htokens := h.tokens_nonneg
  have hn := h.nonneg
  rw [h.capacity_eq, h.rate_eq]
  linarith

theorem refillLocked (h : MinuteWorth n b t) (htu : t ≤ u) :
    MinuteWorth n (b.refillLocked u) u where
  tokens_nonneg := refillLocked_nonneg h.tokens_nonneg u
  capacity_eq := by rw [refillLocked_capacity, h.capacity_eq]
  rate_eq := by rw [refillLocked_refillPerSec, h.rate_eq]
  past := refillLocked_lastRefill_le (h.past.trans htu)

theorem call (h : MinuteWorth n b t) (htu : t ≤ u) {c : BucketCall} (hc : c.GivesBack) :
    MinuteWorth n (b.call u c) u where
  tokens_nonneg := by
    cases c with
    | tryConsume cost => exact tryConsume_nonneg h.tokens_nonneg u cost
    | refund k => exact refund_nonneg h.tokens_nonneg hc u
    | availableTokens => exact refillLocked_nonneg h.tokens_nonneg u
  capacity_eq := by rw [call_capacity, h.capacity_eq]
  rate_eq := by rw [call_refillPerSec, h.rate_eq]
  past := by
    rw [call_lastRefill]
    exact refillLocked_lastRefill_le (h.past.trans htu)

theorem calls {cs : List (Instant × BucketCall)} (h : MinuteWorth n b t) (htu : t ≤ u)
    (htimes : (t :: cs.map Prod.fst).Pairwise (· ≤ ·)) (hlast : ∀ x ∈ cs, x.1 ≤ u)
    (hcs : ∀ x ∈ cs, x.2.GivesBack) : MinuteWorth n (b.calls cs) u := by
  induction cs generalizing b t with
  | nil => exact { h with past := h.past.trans htu }
  | cons x cs ih =>
      obtain ⟨hfirst, hrest⟩ := List.pairwise_cons.mp htimes
      exact ih (h.call (hfirst x.1 List.mem_cons_self) (hcs x List.mem_cons_self))
        (hlast x List.mem_cons_self) hrest (fun y hy => hlast y (List.mem_cons_of_mem _ hy))
        fun y hy => hcs y (List.mem_cons_of_mem _ hy)

end MinuteWorth

/-! ### Looking, and being rejected -/

/-- What a call returns. -/
def answer (b : TokenBucket) (now : Instant) : BucketCall → BucketAnswer
  | .tryConsume cost => .consumed (b.tryConsume now cost).1
  | .refund _ => .refunded
  | .availableTokens => .available (b.availableTokens now).1

/-- The bucket as a lazy store. -/
def lazy : LazyStore TokenBucket BucketCall BucketAnswer Instant where
  refresh := refillLocked
  call b now c := (b.answer now c, b.call now c)

/-- A call that only looks, or is rejected. -/
def Observes (b : TokenBucket) (now : Instant) : BucketCall → Prop
  | .tryConsume cost => ∃ retryAfter, (b.tryConsume now cost).1 = .error retryAfter
  | .refund _ => False
  | .availableTokens => True

theorem refillLocked_self (b : TokenBucket) (t : Instant) :
    (b.refillLocked t).refillLocked t = b.refillLocked t :=
  refillLocked_of_elapsed (elapsed_refillLocked b t)

theorem lazy_lawful : lazy.Lawful (MinuteWorth n) BucketCall.GivesBack where
  valid_refresh b t u hb htu := hb.refillLocked htu
  valid_call b t u c hb htu hc := hb.call htu hc
  refresh_refresh b t u v hb htu huv :=
    refillLocked_refillLocked (hb.past.trans htu) huv hb.hour
  call_refresh b t c := by
    show ((b.refillLocked t).answer t c, (b.refillLocked t).call t c) = (b.answer t c, b.call t c)
    unfold answer call tryConsume refund availableTokens
    rw [refillLocked_self]

theorem Observes.call {c : BucketCall} (h : b.Observes t c) : b.call t c = b.refillLocked t := by
  cases c with
  | tryConsume cost =>
      obtain ⟨r, hr⟩ := h
      unfold TokenBucket.call
      unfold tryConsume at hr ⊢
      by_cases hcost : cost ≤ (b.refillLocked t).tokens
      · simp only [if_pos hcost] at hr
        cases hr
      · simp only [if_neg hcost]
  | refund k => exact h.elim
  | availableTokens => rfl

/--
**Looking and being rejected cost nothing.**  Calls that only look at a bucket, and calls
that it rejects, are put into a sequence of calls wherever one likes.  All the other calls
return what they return without them, the waits of the rejected ones included, and at every
later time the level is the same: how often the bucket was refilled in between, and after
how long, makes no difference.
-/
theorem observing_free (rpm tpm : UInt32) (start : Instant)
    (hb : b = (RateLimitBuckets.fromConfig rpm tpm start).rpm ∨
      b = (RateLimitBuckets.fromConfig rpm tpm start).tpm)
    (xs : List (Instant × LazyStore.Entry BucketCall))
    (htimes : (start :: xs.map Prod.fst).Pairwise (· ≤ ·))
    (hrefunds : ∀ x ∈ LazyStore.owned xs, x.2.GivesBack) (hextras : lazy.Extras Observes b xs) :
    lazy.ownAnswers b xs = lazy.answers b (LazyStore.owned xs) ∧
      ∀ t, start ≤ t → (∀ x ∈ xs, x.1 ≤ t) →
        (lazy.afterAll b xs).level t = (lazy.after b (LazyStore.owned xs)).level t := by
  have hworth : ∃ n, MinuteWorth n b start := by
    rcases hb with hb | hb
    · exact ⟨_, .fromConfig (Or.inl ⟨hb, rfl⟩)⟩
    · exact ⟨_, .fromConfig (Or.inr ⟨hb, rfl⟩)⟩
  obtain ⟨n, hn⟩ := hworth
  obtain ⟨hanswers, hlater⟩ := lazy_lawful.unnoticed (fun b t c h => Observes.call h) hn
    (LazyStore.Agree.refl lazy start b) htimes hrefunds hextras
  refine ⟨hanswers, ?_⟩
  intro t hstart hlast
  exact congrArg tokens (hlater t hstart hlast)

/-- A bucket of three a minute: after the third a fourth is rejected, then somebody looks, and
two more are granted when they would have been. -/
theorem observing_free_three :
    lazy.ownAnswers (RateLimitBuckets.fromConfig 3 0 0).rpm
        [(0, .own (.tryConsume 3)), (0, .extra (.tryConsume 1)),
          (Duration.fromSecs 30, .extra .availableTokens),
          (Duration.fromSecs 40, .own (.tryConsume 2))]
      = [.consumed (.ok ()), .consumed (.ok ())] := by
  have hextras : lazy.Extras Observes (RateLimitBuckets.fromConfig 3 0 0).rpm
      [(0, .own (.tryConsume 3)), (0, .extra (.tryConsume 1)),
        (Duration.fromSecs 30, .extra .availableTokens),
        (Duration.fromSecs 40, .own (.tryConsume 2))] :=
    ⟨⟨20, by decide +kernel⟩, trivial, trivial⟩
  have hfree := (observing_free 3 0 0 (Or.inl rfl) _ (by decide)
    (by simp [LazyStore.owned, BucketCall.GivesBack]) hextras).1
  exact hfree.trans (by decide +kernel)

/-! ### Waiting -/

/-- What a rejection says of the level and the wait. -/
theorem tryConsume_error {r : Nat} (h : (b.tryConsume t cost).1 = .error r) :
    b.level t < cost ∧ r = (b.refillLocked t).retryAfter (cost - b.level t) ∧
      (b.tryConsume t cost).2 = b.refillLocked t := by
  have hlevel : b.level t < cost := by
    by_contra hc
    rw [tryConsume_granted.mpr (not_lt.mp hc)] at h
    cases h
  rw [tryConsume_refused hlevel] at h
  exact ⟨hlevel, (Except.error.inj h).symm, Observes.call (c := .tryConsume cost)
    ⟨_, tryConsume_refused hlevel⟩⟩

theorem one_le_wait {r : Nat} (h : (b.tryConsume t cost).1 = .error r) : 1 ≤ r := by
  obtain ⟨-, hr, -⟩ := tryConsume_error h
  rw [hr]
  exact one_le_retryAfter _ _

/-- The wait is the least number of seconds, at least one, that the missing tokens take, as
long as that is no more than a minute. -/
theorem retryAfter_le_iff {deficit : ℚ} {s : Nat} (hrate : 0 < b.refillPerSec)
    (hminute : deficit / b.refillPerSec ≤ 60) (hs : 1 ≤ s) :
    b.retryAfter deficit ≤ s ↔ deficit / b.refillPerSec ≤ s := by
  have hceil : ⌈deficit / b.refillPerSec⌉ ≤ 60 := Int.ceil_le.mpr (by exact_mod_cast hminute)
  have hsmall : toU64 ⌈deficit / b.refillPerSec⌉ = ⌈deficit / b.refillPerSec⌉.toNat := by
    unfold toU64 u64Max
    omega
  unfold retryAfter
  rw [if_pos hrate, hsmall, max_le_iff, Int.toNat_le, Int.ceil_le]
  constructor
  · intro h
    exact_mod_cast h.1
  · intro h
    exact ⟨by exact_mod_cast h, hs⟩

theorem lastRefill_refillLocked (hpast : b.lastRefill ≤ t) :
    (b.refillLocked t).lastRefill = t := by
  rcases Nat.eq_or_lt_of_le hpast with rfl | hlt
  · rw [refillLocked_of_elapsed (elapsed_self b rfl)]
  · rw [refillLocked_of_pos (elapsed_pos hlt)]

namespace MinuteWorth

variable {r : Nat}

/-- What is missing for a cost that the bucket can hold comes in within a minute. -/
theorem missing (h : MinuteWorth n b t) (hcost : cost ≤ n) (hlevel : b.level t < cost) :
    0 < n ∧ (cost - b.level t) / (n / 60) ≤ 60 := by
  have hnonneg : 0 ≤ b.level t := (h.refillLocked (le_refl t)).tokens_nonneg
  have hn : 0 < n := by linarith
  refine ⟨hn, ?_⟩
  rw [div_le_iff₀ (by positivity)]
  linarith

/-- A rejected cost is granted as soon as what was missing has come in, if nothing else is
asked of the bucket. -/
theorem granted_iff (h : MinuteWorth n b t) (hcost : cost ≤ n)
    (hrejected : (b.tryConsume t cost).1 = .error r) (u : Instant) :
    ((b.tryConsume t cost).2.tryConsume u cost).1 = .ok () ↔
      (cost - b.level t) / (n / 60) ≤ Duration.asSecs (u.durationSince t) := by
  obtain ⟨hlevel, -, hafter⟩ := tryConsume_error hrejected
  obtain ⟨hn, hminute⟩ := h.missing hcost hlevel
  have hnext : MinuteWorth n (b.refillLocked t) t := h.refillLocked (le_refl t)
  have htokens : (b.refillLocked t).tokens = b.level t := rfl
  have hroom : (b.refillLocked t).tokens ≤ (b.refillLocked t).capacity := by
    rw [htokens, hnext.capacity_eq]
    linarith
  have helapsed : (b.refillLocked t).elapsed u
      = min (Duration.asSecs (u.durationSince t)) 3600 := by
    unfold elapsed
    rw [lastRefill_refillLocked h.past]
  rw [hafter, tryConsume_granted, level_eq_min hroom, hnext.capacity_eq, hnext.rate_eq, htokens,
    helapsed, le_min_iff, and_iff_left hcost, ← sub_le_iff_le_add',
    ← div_le_iff₀ (by positivity), le_min_iff]
  constructor
  · intro hle
    exact hle.1
  · intro hle
    exact ⟨hle, hminute.trans (by norm_num)⟩

/-- Of the numbers of seconds, the wait is the least in which the missing tokens come in. -/
theorem wait_le_iff (h : MinuteWorth n b t) (hcost : cost ≤ n)
    (hrejected : (b.tryConsume t cost).1 = .error r) {s : Nat} (hs : 1 ≤ s) :
    r ≤ s ↔ (cost - b.level t) / (n / 60) ≤ s := by
  obtain ⟨hlevel, hr, -⟩ := tryConsume_error hrejected
  obtain ⟨hn, hminute⟩ := h.missing hcost hlevel
  have hrate : (b.refillLocked t).refillPerSec = n / 60 := (h.refillLocked (le_refl t)).rate_eq
  rw [hr, retryAfter_le_iff (by rw [hrate]; positivity) (by rw [hrate]; exact hminute) hs, hrate]

theorem granted_after_wait (h : MinuteWorth n b t) (hcost : cost ≤ n)
    (hrejected : (b.tryConsume t cost).1 = .error r) (hwait : t + Duration.fromSecs r ≤ u) :
    ((b.tryConsume t cost).2.tryConsume u cost).1 = .ok () := by
  have hone := one_le_wait hrejected
  have hpromise := (h.wait_le_iff hcost hrejected hone).mp (le_refl r)
  exact (h.granted_iff hcost hrejected u).mpr (hpromise.trans (Duration.le_asSecs hwait))

end MinuteWorth

/--
**The wait a client is told is exact.**  A bucket is used in any way, and then rejects a cost
it can hold.  If nothing else is asked of it, the cost is granted at any time after the wait,
and not yet a second before its end: of all numbers of seconds, from one on, the wait is the
least after which the cost is granted.
-/
theorem retryAfter_exact (rpm tpm : UInt32) (start : Instant)
    (hb : b = (RateLimitBuckets.fromConfig rpm tpm start).rpm ∧ n = rpm.toNat ∨
      b = (RateLimitBuckets.fromConfig rpm tpm start).tpm ∧ n = tpm.toNat)
    (cs : List (Instant × BucketCall)) (htimes : (start :: cs.map Prod.fst ++ [t]).Pairwise (· ≤ ·))
    (hrefunds : ∀ x ∈ cs, x.2.GivesBack) {r : Nat} (hcost : cost ≤ n)
    (hrejected : ((b.calls cs).tryConsume t cost).1 = .error r) :
    1 ≤ r ∧
      (∀ u, t + Duration.fromSecs r ≤ u →
        (((b.calls cs).tryConsume t cost).2.tryConsume u cost).1 = .ok ()) ∧
      (2 ≤ r → ∃ r', (((b.calls cs).tryConsume t cost).2.tryConsume
        (t + Duration.fromSecs (r - 1)) cost).1 = .error r') ∧
      ∀ s, 1 ≤ s → ((((b.calls cs).tryConsume t cost).2.tryConsume
        (t + Duration.fromSecs s) cost).1 = .ok () ↔ r ≤ s) := by
  obtain ⟨hsorted, -, hlast⟩ := List.pairwise_append.mp htimes
  have hworth : MinuteWorth n (b.calls cs) t := by
    refine (MinuteWorth.fromConfig hb).calls (hlast start List.mem_cons_self t (by simp)) hsorted ?_
      hrefunds
    intro x hx
    exact hlast x.1 (List.mem_cons_of_mem _ (List.mem_map_of_mem hx)) t (by simp)
  have hone := one_le_wait hrejected
  have hleast : ∀ s, 1 ≤ s → ((((b.calls cs).tryConsume t cost).2.tryConsume
      (t + Duration.fromSecs s) cost).1 = .ok () ↔ r ≤ s) := by
    intro s hs
    rw [hworth.granted_iff hcost hrejected, Duration.asSecs_wait,
      hworth.wait_le_iff hcost hrejected hs]
  refine ⟨hone, fun u hu => hworth.granted_after_wait hcost hrejected hu, ?_, hleast⟩
  intro htwo
  cases hres : (((b.calls cs).tryConsume t cost).2.tryConsume
      (t + Duration.fromSecs (r - 1)) cost).1 with
  | error r' => exact ⟨r', rfl⟩
  | ok x =>
      have hle := (hleast (r - 1) (by omega)).mp hres
      omega

/-- Who asks an empty bucket of three a minute for two is told forty seconds. -/
theorem retryAfter_exact_forty :
    ((((RateLimitBuckets.fromConfig 3 0 0).rpm.calls [(0, .tryConsume 3)]).tryConsume
        0 2).2.tryConsume (0 + Duration.fromSecs 40) 2).1 = .ok () ∧
      ∃ r', ((((RateLimitBuckets.fromConfig 3 0 0).rpm.calls [(0, .tryConsume 3)]).tryConsume
        0 2).2.tryConsume (0 + Duration.fromSecs 39) 2).1 = .error r' := by
  obtain ⟨-, hafter, hbefore, -⟩ := retryAfter_exact 3 0 0 (Or.inl ⟨rfl, rfl⟩)
    [(0, .tryConsume 3)] (t := 0) (r := 40) (by decide) (by simp [BucketCall.GivesBack])
    (show (2 : ℚ) ≤ (3 : UInt32).toNat by decide) (by decide +kernel)
  exact ⟨hafter _ (le_refl _), hbefore (by decide)⟩

end TokenBucket

end LlmGateway
