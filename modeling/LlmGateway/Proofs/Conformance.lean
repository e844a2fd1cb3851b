/-
The rate limit is exact.

A bucket for `n` tokens a minute is a lazy, clamped implementation of a simple thing: the
regulator that grants what keeps every window up to now within `n` and a sixtieth of that for
each second of the window.  `Tracks` ties the two: the level is the room that what has been
taken leaves.  Every call keeps it, a refund being a negative draw; the clamp of an hour is
never felt, because an hour fills the bucket whatever it holds.  So a cost is refused only if
some window has no room for it.
-/
import LlmGateway.Proofs.Refill
import LlmGateway.Lib.Regulator

namespace LlmGateway

namespace TokenBucket

variable {b : TokenBucket} {t u : Instant} {n cost : ℚ} {history : List (Instant × ℚ)}

/-! ### The level, waiting and calling -/

theorem asSecs_sub_nonneg (htu : t ≤ u) : 0 ≤ Duration.asSecs u - Duration.asSecs t := by
  rw [← Duration.asSecs_durationSince htu]
  exact Duration.asSecs_nonneg _

/-- While one waits the level grows with the rate, up to the capacity. -/
theorem level_wait (h : At n (n / 60) b t) (htu : t ≤ u) :
    b.level u = min (b.level t + n / 60 * (Duration.asSecs u - Duration.asSecs t)) n := by
  have hnext : At n (n / 60) (b.refillLocked t) t := h.call (le_refl t) (c := .availableTokens)
    trivial
  have htwice : (b.refillLocked t).refillLocked u = b.refillLocked u :=
    refillLocked_refillLocked h.past htu h.minuteWorth.hour
  have helapsed : (b.refillLocked t).elapsed u
      = min (Duration.asSecs u - Duration.asSecs t) 3600 := by
    unfold elapsed
    rw [lastRefill_refillLocked h.past, Duration.asSecs_durationSince htu]
  have hnonneg : 0 ≤ b.level t := level_nonneg h.within t
  have hn : 0 ≤ n := h.minuteWorth.nonneg
  rw [level_eq b u, ← htwice, ← level_eq, level_eq_min hnext.within.2, hnext.capacity_eq,
    hnext.rate_eq, helapsed, ← level_eq]
  rcases le_total (Duration.asSecs u - Duration.asSecs t) 3600 with hle | hge
  · rw [min_eq_left hle, mul_comm]
  · -- an hour has passed: both sides are a full bucket
    have hfull := mul_le_mul_of_nonneg_left hge (show 0 ≤ n / 60 by positivity)
    rw [min_eq_right hge, min_eq_right (by linarith), min_eq_right (by linarith)]

/-- A call lowers the level by what it takes; what it gives back fits up to the capacity. -/
theorem level_call_exact (h : At n (n / 60) b t) {c : BucketCall} (hc : c.NonNeg) :
    (b.call t c).level t = min (b.level t - b.taken t c) n := by
  have hle : b.level t ≤ n := by
    rw [← h.capacity_eq]
    exact level_le h.within t
  cases c with
  | tryConsume cost =>
      have hcost : 0 ≤ cost := hc
      show (b.tryConsume t cost).2.level t
        = min (b.level t - if (b.tryConsume t cost).1 = .ok () then cost else 0) n
      rw [level_tryConsume]
      by_cases hok : cost ≤ b.level t
      · rw [if_pos hok, if_pos (tryConsume_granted.mpr hok), min_eq_left (by linarith)]
      · rw [if_neg hok, if_neg (fun hc => hok (tryConsume_granted.mp hc)), sub_zero,
          min_eq_left hle]
  | refund k =>
      show (b.refund t k).level t = min (b.level t - -k) n
      rw [level_refund, h.capacity_eq, sub_neg_eq_add]
  | availableTokens =>
      show (b.refillLocked t).level t = min (b.level t - 0) n
      rw [sub_zero, min_eq_left hle, level_eq, refillLocked_self, ← level_eq]

/-! ### The regulator behind a bucket -/

/-- `n` a minute. -/
def regulator (n : ℚ) : Regulator Instant where
  capacity := n
  rate := n / 60
  clock := Duration.asSecs

/-- What the regulator lets a call draw. -/
def drawn (n : ℚ) (history : List (Instant × ℚ)) (t : Instant) : BucketCall → ℚ
  | .tryConsume cost => (regulator n).drawn history t cost
  | .refund k => -k
  | .availableTokens => 0

/-- The bucket is as a call at `t` may have left it, and its level is the room that is left by
what has been taken. -/
structure Tracks (n : ℚ) (history : List (Instant × ℚ)) (b : TokenBucket) (t : Instant) : Prop
    extends At n (n / 60) b t where
  room : (regulator n).Room history t (b.level t)

namespace Tracks

theorem new {k : Nat} (start : Instant) :
    Tracks k [] (TokenBucket.new k (k / 60) start) start := by
  have hat : At (k : ℚ) (k / 60) (TokenBucket.new k (k / 60) start) start :=
    new_at (Nat.cast_nonneg k) (by positivity) start
  refine ⟨hat, ?_⟩
  have hfull : (TokenBucket.new k (k / 60) start).level start = (regulator k).capacity := by
    have hself : (TokenBucket.new k (k / 60) start).elapsed start = 0 := elapsed_self _ rfl
    rw [level_eq, refillLocked_of_elapsed hself]
    rfl
  rw [hfull]
  exact .nil

theorem later (h : Tracks n history b t) (htu : t ≤ u) : Tracks n history b u := by
  refine ⟨{ h.toAt with past := h.past.trans htu }, ?_⟩
  rw [level_wait h.toAt htu]
  refine h.room.wait (r := regulator n) ?_
  have hn : 0 ≤ n := h.minuteWorth.nonneg
  exact mul_nonneg (show 0 ≤ n / 60 by positivity) (asSecs_sub_nonneg htu)

/-- A cost is granted exactly if no window is too full for it. -/
theorem granted_iff (h : Tracks n history b t) :
    (b.tryConsume t cost).1 = .ok () ↔ (regulator n).Fits history t cost := by
  rw [tryConsume_granted]
  exact h.room cost

theorem call (h : Tracks n history b t) {c : BucketCall} (hc : c.NonNeg) :
    Tracks n (history ++ [(t, b.taken t c)]) (b.call t c) t := by
  refine ⟨h.toAt.call (le_refl t) hc, ?_⟩
  rw [level_call_exact h.toAt hc]
  exact h.room.draw (r := regulator n) (b.taken t c)

/-- A call takes what the regulator lets it draw. -/
theorem taken_eq (h : Tracks n history b t) (c : BucketCall) :
    b.taken t c = drawn n history t c := by
  cases c with
  | tryConsume cost =>
      show (if (b.tryConsume t cost).1 = .ok () then cost else 0)
        = if (regulator n).Fits history t cost then cost else 0
      simp only [h.granted_iff]
  | refund k => rfl
  | availableTokens => rfl

/-- What takes nothing need not be remembered. -/
theorem observes (h : Tracks n history b t) {c : BucketCall} (hc : b.Observes t c) :
    Tracks n history (b.call t c) t := by
  have hrefilled : Tracks n history (b.refillLocked t) t := by
    refine ⟨h.toAt.call (le_refl t) (c := .availableTokens) trivial, ?_⟩
    rw [level_eq, refillLocked_self, ← level_eq]
    exact h.room
  rw [hc.call]
  exact hrefilled

end Tracks

/-- What each call of a list takes from the bucket, with its time. -/
def takings (b : TokenBucket) : List (Instant × BucketCall) → List (Instant × ℚ)
  | [] => []
  | (t, c) :: cs => (t, b.taken t c) :: takings (b.call t c) cs

theorem Tracks.calls {cs : List (Instant × BucketCall)} (h : Tracks n history b t) (htu : t ≤ u)
    (htimes : (t :: cs.map Prod.fst).Pairwise (· ≤ ·)) (hlast : ∀ x ∈ cs, x.1 ≤ u)
    (hcs : ∀ x ∈ cs, x.2.NonNeg) : Tracks n (history ++ b.takings cs) (b.calls cs) u := by
  induction cs generalizing b t history with
  | nil =>
      rw [takings, List.append_nil]
      exact h.later htu
  | cons x cs ih =>
      obtain ⟨hfirst, hrest⟩ := List.pairwise_cons.mp htimes
      have hnext := (h.later (hfirst x.1 List.mem_cons_self)).call (hcs x List.mem_cons_self)
      have hall := ih hnext (hlast x List.mem_cons_self) hrest
        (fun y hy => hlast y (List.mem_cons_of_mem _ hy))
        (fun y hy => hcs y (List.mem_cons_of_mem _ hy))
      rw [List.append_assoc] at hall
      exact hall

theorem Tracks.fromConfig {rpm tpm : UInt32} {start : Instant}
    (h : b = (RateLimitBuckets.fromConfig rpm tpm start).rpm ∧ n = rpm.toNat ∨
      b = (RateLimitBuckets.fromConfig rpm tpm start).tpm ∧ n = tpm.toNat) :
    Tracks n [] b start := by
  rcases h with ⟨rfl, rfl⟩ | ⟨rfl, rfl⟩
  · exact .new start
  · exact .new start

/--
**A bucket grants exactly what every window has room for.**  After any calls, a cost is
granted if and only if it is within the capacity and, for every earlier call, what was taken
from that call on and the cost together are within the capacity and the refill since then.
-/
theorem granted_iff_windows (rpm tpm : UInt32) (start : Instant)
    (hb : b = (RateLimitBuckets.fromConfig rpm tpm start).rpm ∧ n = rpm.toNat ∨
      b = (RateLimitBuckets.fromConfig rpm tpm start).tpm ∧ n = tpm.toNat)
    (cs : List (Instant × BucketCall)) (htimes : (start :: cs.map Prod.fst ++ [t]).Pairwise (· ≤ ·))
    (hcs : ∀ x ∈ cs, x.2.NonNeg) :
    ((b.calls cs).tryConsume t cost).1 = .ok () ↔
      cost ≤ n ∧ ∀ before x after, b.takings cs = before ++ x :: after →
        cost + ((x :: after).map Prod.snd).sum
          ≤ n + n / 60 * (Duration.asSecs t - Duration.asSecs x.1) := by
  obtain ⟨hsorted, -, hlast⟩ := List.pairwise_append.mp htimes
  have htracks : Tracks n (b.takings cs) (b.calls cs) t := by
    refine (Tracks.fromConfig hb).calls (hlast start List.mem_cons_self t (by simp)) hsorted ?_ hcs
    intro x hx
    exact hlast x.1 (List.mem_cons_of_mem _ (List.mem_map_of_mem hx)) t (by simp)
  exact htracks.granted_iff

/-- Three a minute: after two and one given back, two more are granted at once, but not three;
the window that begins with the first call is the one that is too full. -/
theorem granted_iff_windows_three :
    (((RateLimitBuckets.fromConfig 3 0 0).rpm.calls
        [(0, .tryConsume 2), (0, .refund 1)]).tryConsume 0 2).1 = .ok () ∧
      ¬ (((RateLimitBuckets.fromConfig 3 0 0).rpm.calls
        [(0, .tryConsume 2), (0, .refund 1)]).tryConsume 0 3).1 = .ok () := by
  have htakings : (RateLimitBuckets.fromConfig 3 0 0).rpm.takings
      [(0, .tryConsume 2), (0, .refund 1)] = [(0, 2), (0, -1)] := by decide +kernel
  refine ⟨by decide +kernel, ?_⟩
  intro hgranted
  obtain ⟨-, hwindows⟩ := (granted_iff_windows 3 0 0 (Or.inl ⟨rfl, rfl⟩)
    [(0, .tryConsume 2), (0, .refund 1)] (by decide) (by simp [BucketCall.NonNeg])).mp hgranted
  have hthree : (3 : UInt32).toNat = 3 := rfl
  have hwindow := hwindows [] (0, 2) [(0, -1)] htakings
  rw [hthree] at hwindow
  norm_num [Duration.asSecs] at hwindow

end TokenBucket

end LlmGateway
