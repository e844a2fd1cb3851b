/-
What a breaker's state says about the calls it has had.

A breaker keeps a counter and one time, and its decisions are about its past: how many
failures there were in a row, and when the last one was.  `Remembers` ties the two fields
to the calls: the time is always that of the last failure, while the counter is only
right in a CLOSED breaker, since it goes on counting while the breaker is OPEN and may
wrap there.  A breaker becomes CLOSED again by a success only, which starts the count
anew; so what it has forgotten it never needs.

Two results are read off it.  A CLOSED breaker trips exactly at its threshold.  And a
breaker that trips fails fast for its whole cooldown: late results of requests admitted
before can overwrite the time of the last failure, but only with a later one.
-/
import LlmGateway.Proofs.ProbeBudget

namespace LlmGateway

namespace CircuitBreaker

variable {b : CircuitBreaker} {t : Instant} {c : BreakerCall}

/-! ### The past -/

/-- How many failures were recorded since the last success, or since the creation. -/
def failuresSince (cs : Calls) : Nat :=
  (cs.reverse.takeWhile fun n => n.2 ≠ .recordSuccess).countP fun n => n.2 = .recordFailure

/-- When the last failure was recorded. -/
def lastRecorded (cs : Calls) : Option Instant :=
  (cs.reverse.find? fun n => n.2 = .recordFailure).map Prod.fst

section Snoc

variable (cs : Calls) (t : Instant)

theorem failuresSince_success : failuresSince (cs ++ [(t, .recordSuccess)]) = 0 := by
  simp [failuresSince]

theorem failuresSince_failure :
    failuresSince (cs ++ [(t, .recordFailure)]) = failuresSince cs + 1 := by
  simp [failuresSince]

theorem failuresSince_other (hs : c ≠ .recordSuccess) (hf : c ≠ .recordFailure) :
    failuresSince (cs ++ [(t, c)]) = failuresSince cs := by
  simp [failuresSince, hs, hf]

theorem lastRecorded_failure : lastRecorded (cs ++ [(t, .recordFailure)]) = some t := by
  simp [lastRecorded]

theorem lastRecorded_other (hf : c ≠ .recordFailure) :
    lastRecorded (cs ++ [(t, c)]) = lastRecorded cs := by
  simp [lastRecorded, hf]

end Snoc

/-- The last failure is one of the calls. -/
theorem mem_of_lastRecorded {cs : Calls} {s : Instant} (h : lastRecorded cs = some s) :
    s ∈ cs.map Prod.fst := by
  unfold lastRecorded at h
  rw [Option.map_eq_some_iff] at h
  obtain ⟨n, hn, rfl⟩ := h
  exact List.mem_map_of_mem (List.mem_reverse.mp (List.mem_of_find?_eq_some hn))

/-! ### What the fields remember -/

/-- The fields of a breaker that has had these calls. -/
structure Remembers (b : CircuitBreaker) (cs : Calls) : Prop where
  failed : b.inner.lastFailure = lastRecorded cs
  counted : b.inner.state = .Closed → b.inner.failureCount.toNat = failuresSince cs

/-- A CLOSED breaker can count one more failure without wrapping. -/
theorem Inv.count_succ (h : Inv b) (hs : b.inner.state = .Closed) :
    (b.inner.failureCount + 1).toNat = b.inner.failureCount.toNat + 1 := by
  rcases h.below hs with hzero | hlt
  · rw [hzero]
    rfl
  · exact toNat_add_one hlt

/-- One call. -/
theorem Remembers.call {cs : Calls} (h : Remembers b cs) (hinv : Inv b) (t : Instant)
    (c : BreakerCall) : Remembers (b.call t c).2 (cs ++ [(t, c)]) := by
  have htr := call_transition b t c
  generalize (b.call t c).1 = a, (b.call t c).2 = b' at htr
  have hquiet : c ≠ .recordSuccess → c ≠ .recordFailure → Remembers b (cs ++ [(t, c)]) := by
    intro hs hf
    refine ⟨?_, ?_⟩
    · rw [lastRecorded_other cs t hf]
      exact h.failed
    · rw [failuresSince_other cs t hs hf]
      exact h.counted
  have hsuccess : ∀ b' : CircuitBreaker, b'.inner.lastFailure = b.inner.lastFailure →
      b'.inner.failureCount = 0 → Remembers b' (cs ++ [(t, .recordSuccess)]) := by
    intro b' hlast hzero
    refine ⟨?_, fun _ => ?_⟩
    · rw [lastRecorded_other cs t (by decide), hlast]
      exact h.failed
    · rw [failuresSince_success, hzero]
      rfl
  cases htr with
  | look => exact hquiet (by decide) (by decide)
  | pass hs => exact hquiet (by decide) (by decide)
  | refuse hr => exact hquiet (by decide) (by decide)
  | probe hs hc =>
      refine ⟨(hquiet (by decide) (by decide)).failed, ?_⟩
      intro hn
      cases hn
  | slot hs hlt => exact ⟨(hquiet (by decide) (by decide)).failed,
      (hquiet (by decide) (by decide)).counted⟩
  | close hs => exact hsuccess _ rfl rfl
  | reset hs => exact hsuccess _ rfl rfl
  | reopen hs =>
      refine ⟨(lastRecorded_failure cs t).symm, ?_⟩
      intro hn
      cases hn
  | trip hs hle =>
      refine ⟨(lastRecorded_failure cs t).symm, ?_⟩
      intro hn
      cases hn
  | count hs hlt =>
      refine ⟨(lastRecorded_failure cs t).symm, ?_⟩
      intro hn
      rw [failuresSince_failure, ← h.counted hn]
      exact hinv.count_succ hn

theorem calls_remembers (threshold : UInt32) (cooldown : Duration) (maxCalls : UInt32)
    (cs : Calls) : Remembers ((new threshold cooldown maxCalls).calls cs) cs := by
  induction cs using List.reverseRecOn with
  | nil => exact ⟨rfl, fun _ => rfl⟩
  | append_singleton cs x ih =>
      obtain ⟨t, c⟩ := x
      rw [calls_snoc]
      exact ih.call (calls_inv (new_inv threshold cooldown maxCalls) cs) t c

@[simp] theorem calls_failureThreshold (b : CircuitBreaker) (cs : Calls) :
    (b.calls cs).failureThreshold = b.failureThreshold := by
  induction cs generalizing b with
  | nil => rfl
  | cons x cs ih => rw [calls, ih, call_failureThreshold]

@[simp] theorem call_cooldown (b : CircuitBreaker) (t : Instant) (c : BreakerCall) :
    (b.call t c).2.cooldown = b.cooldown := by
  have h := call_transition b t c
  generalize (b.call t c).1 = a, (b.call t c).2 = b' at h
  cases h <;> rfl

@[simp] theorem calls_cooldown (b : CircuitBreaker) (cs : Calls) :
    (b.calls cs).cooldown = b.cooldown := by
  induction cs generalizing b with
  | nil => rfl
  | cons x cs ih => rw [calls, ih, call_cooldown]

/-! ### The trip point -/

/-- A CLOSED breaker is below the threshold it acts on, which is at least one. -/
theorem Inv.count_lt (h : Inv b) (hs : b.inner.state = .Closed) :
    b.inner.failureCount.toNat < max 1 b.failureThreshold.toNat := by
  rcases h.below hs with hzero | hlt
  · rw [hzero]
    show 0 < _
    omega
  · have := UInt32.lt_iff_toNat_lt.mp hlt
    omega

/-- What a CLOSED breaker needs to trip: a failure that brings it to the threshold. -/
theorem Inv.opens_iff (h : Inv b) (hs : b.inner.state = .Closed) (t : Instant)
    (c : BreakerCall) : (b.call t c).2.state = .Open ↔
      c = .recordFailure ∧
        b.inner.failureCount.toNat + 1 = max 1 b.failureThreshold.toNat := by
  have hbelow := h.count_lt hs
  have hsucc := h.count_succ hs
  have htr := call_transition b t c
  generalize (b.call t c).1 = a, (b.call t c).2 = b' at htr
  unfold state
  cases htr with
  | look => simp [hs]
  | pass _ => simp [hs]
  | refuse _ => simp [hs]
  | probe hopen _ => simp [hs] at hopen
  | slot hhalf _ => simp [hs] at hhalf
  | close hhalf => simp [hs] at hhalf
  | reset _ => simp [hs]
  | reopen hhalf => simp [hs] at hhalf
  | trip _ hle =>
      rw [UInt32.le_iff_toNat_le, hsucc] at hle
      have hreached : b.inner.failureCount.toNat + 1 = max 1 b.failureThreshold.toNat := by omega
      exact ⟨fun _ => ⟨rfl, hreached⟩, fun _ => rfl⟩
  | count _ hlt =>
      rw [UInt32.le_iff_toNat_le, hsucc] at hlt
      refine ⟨fun hopen => ?_, fun hreached => ?_⟩
      · rw [show b.inner.state = .Open from hopen] at hs
        cases hs
      · omega

/-- What the state of a breaker that has had the calls `cs` says about them. -/
structure Represents (threshold : UInt32) (cooldown : Duration) (cs : Calls)
    (b : CircuitBreaker) : Prop where
  /-- A CLOSED breaker counts the failures in a row, and its next step does not wrap. -/
  counted : b.state = .Closed → b.inner.failureCount.toNat = failuresSince cs ∧
    failuresSince cs < max 1 threshold.toNat ∧
    (b.inner.failureCount + 1).toNat = b.inner.failureCount.toNat + 1
  /-- Any other breaker knows when it last failed. -/
  failed : b.state ≠ .Closed → b.inner.lastFailure.isSome
  /-- So an OPEN one admits a request once the cooldown is over. -/
  recovers : b.state = .Open → ∃ s, b.inner.lastFailure = some s ∧
    ∀ t, s + cooldown ≤ t → (b.allowRequest t).1 = true
  slots : b.inner.halfOpenCalls ≤ b.halfOpenMaxCalls ∧
    (b.state ≠ .HalfOpen → b.inner.halfOpenCalls = 0)
  /-- A CLOSED breaker trips exactly at its threshold. -/
  trips : b.state = .Closed → ∀ t c, (b.call t c).2.state = .Open ↔
    c = .recordFailure ∧ failuresSince (cs ++ [(t, c)]) = max 1 threshold.toNat

/-- **The fields of a breaker represent its history**, whatever calls it has had, and
whenever. -/
theorem calls_represents (threshold : UInt32) (cooldown : Duration) (maxCalls : UInt32)
    (cs : Calls) :
    Represents threshold cooldown cs ((new threshold cooldown maxCalls).calls cs) := by
  have hrem := calls_remembers threshold cooldown maxCalls cs
  have hinv := calls_inv (new_inv threshold cooldown maxCalls) cs
  have hthreshold : ((new threshold cooldown maxCalls).calls cs).failureThreshold = threshold := by
    rw [calls_failureThreshold]
    rfl
  have hcooldown : ((new threshold cooldown maxCalls).calls cs).cooldown = cooldown := by
    rw [calls_cooldown]
    rfl
  generalize (new threshold cooldown maxCalls).calls cs = b at hrem hinv hthreshold hcooldown
  refine ⟨?_, hinv.failed, ?_, ⟨hinv.slots, hinv.idle⟩, ?_⟩
  · intro hs
    have hlt := hinv.count_lt hs
    rw [hrem.counted hs, hthreshold] at hlt
    exact ⟨hrem.counted hs, hlt, hinv.count_succ hs⟩
  · intro hs
    obtain ⟨s, hsome⟩ := Option.isSome_iff_exists.mp
      (hinv.failed (by rw [show b.inner.state = .Open from hs]; decide))
    refine ⟨s, hsome, fun t ht => ?_⟩
    have hwait : b.cooldown ≤ t.durationSince s := by
      rw [hcooldown]
      exact Nat.le_sub_of_add_le (by rw [Nat.add_comm]; exact ht)
    rw [← isEligible_eq_allowRequest]
    simp [isEligible, show b.inner.state = .Open from hs, cooledDown, hsome, hwait]
  · intro hs t c
    rw [hinv.opens_iff hs t c, hrem.counted hs, hthreshold]
    refine and_congr_right fun hc => ?_
    rw [hc, failuresSince_failure]

/-! ### The cooldown -/

/-- OPEN, and the last failure was not before `t`. -/
def Cooling (t : Instant) (b : CircuitBreaker) : Prop :=
  b.state = .Open ∧ ∃ s, b.inner.lastFailure = some s ∧ t ≤ s

/-- A breaker that becomes OPEN does so by a failure, now. -/
theorem cooling_of_opened (hs : b.state ≠ .Open) (hs' : (b.call t c).2.state = .Open) :
    Cooling t (b.call t c).2 := by
  have htr := call_transition b t c
  generalize (b.call t c).1 = a, (b.call t c).2 = b' at htr hs'
  unfold state at hs hs'
  cases htr with
  | look => exact absurd hs' hs
  | pass h => exact absurd hs' hs
  | refuse h => exact absurd hs' hs
  | probe h hc => exact absurd h hs
  | slot h hlt => exact absurd hs' hs
  | close h => cases hs'
  | reset h => exact absurd hs' hs
  | reopen h => exact ⟨rfl, t, rfl, Nat.le_refl t⟩
  | trip h hle => exact ⟨rfl, t, rfl, Nat.le_refl t⟩
  | count h hlt => exact absurd hs' hs

/-- A breaker that has not cooled down is not eligible. -/
theorem Cooling.refuses (h : Cooling t b) {t' : Instant} (hle : t ≤ t')
    (hlt : t' < t + b.cooldown) : b.isEligible t' = false := by
  obtain ⟨hs, s, hsome, hts⟩ := h
  have hwait : ¬ b.cooldown ≤ t'.durationSince s := by
    have hearlier : t'.durationSince s ≤ t' - t := Nat.sub_le_sub_left hts t'
    have hshort : t' - t < b.cooldown := Nat.sub_lt_left_of_lt_add hle hlt
    exact Nat.not_le.mpr (Nat.lt_of_le_of_lt hearlier hshort)
  simp [isEligible, show b.inner.state = .Open from hs, cooledDown, hsome, hwait]

/-- Before the cooldown is over no call changes that. -/
theorem Cooling.call (h : Cooling t b) {t' : Instant} (hle : t ≤ t')
    (hlt : t' < t + b.cooldown) (c : BreakerCall) : Cooling t (b.call t' c).2 := by
  have hrefuses := h.refuses hle hlt
  have htr := call_transition b t' c
  generalize (b.call t' c).1 = a, (b.call t' c).2 = b' at htr
  obtain ⟨hs, s, hsome, hts⟩ := h
  unfold state at hs
  cases htr with
  | look => exact ⟨hs, s, hsome, hts⟩
  | pass h => rw [hs] at h; cases h
  | refuse h => exact ⟨hs, s, hsome, hts⟩
  | probe h hc =>
      rw [isEligible, hs] at hrefuses
      simp [hc] at hrefuses
  | slot h hlt => rw [hs] at h; cases h
  | close h => rw [hs] at h; cases h
  | reset h => exact ⟨hs, s, hsome, hts⟩
  | reopen h => rw [hs] at h; cases h
  | trip h hle' => exact ⟨rfl, t', rfl, hle⟩
  | count h hlt' => exact ⟨hs, t', rfl, hle⟩

/-- Only an admission leaves the OPEN state, and only after the cooldown. -/
theorem leaves_open (hs : b.state = .Open) (hs' : (b.call t c).2.state ≠ .Open) :
    c = .allowRequest ∧ b.cooledDown t = true := by
  have htr := call_transition b t c
  generalize (b.call t c).1 = a, (b.call t c).2 = b' at htr hs'
  unfold state at hs hs'
  cases htr with
  | look => exact absurd hs hs'
  | pass h => exact absurd hs hs'
  | refuse h => exact absurd hs hs'
  | probe h hc => exact ⟨rfl, hc⟩
  | slot h hlt => exact absurd hs hs'
  | close h => rw [hs] at h; cases h
  | reset h => exact absurd hs hs'
  | reopen h => exact absurd rfl hs'
  | trip h hle => exact absurd rfl hs'
  | count h hlt => exact absurd hs hs'

/-- A stretch of calls at times from `t` on, all before the cooldown is over. -/
theorem Cooling.calls (h : Cooling t b) {cs : Calls}
    (hcs : ∀ n ∈ cs, t ≤ n.1 ∧ n.1 < t + b.cooldown) : Cooling t (b.calls cs) := by
  induction cs generalizing b with
  | nil => exact h
  | cons x cs ih =>
      obtain ⟨hle, hlt⟩ := hcs x List.mem_cons_self
      refine ih (h.call hle hlt x.2) fun n hn => ?_
      rw [call_cooldown]
      exact hcs n (List.mem_cons_of_mem _ hn)

/-- The calls of a stretch come between its first and its last. -/
theorem between_of_sorted {before after : Calls} {n n' : Instant × BreakerCall}
    (h : ((before ++ n :: (after ++ [n'])).map Prod.fst).Pairwise (· ≤ ·)) :
    n.1 ≤ n'.1 ∧ ∀ k ∈ after, n.1 ≤ k.1 ∧ k.1 ≤ n'.1 := by
  rw [List.map_append, List.pairwise_append] at h
  obtain ⟨-, hafter, -⟩ := h
  rw [List.map_cons, List.pairwise_cons, List.map_append, List.pairwise_append] at hafter
  obtain ⟨hfrom, -, -, hto⟩ := hafter
  refine ⟨hfrom n'.1 (by simp), fun k hk => ⟨?_, ?_⟩⟩
  · exact hfrom k.1 (List.mem_append_left _ (List.mem_map_of_mem hk))
  · exact hto k.1 (List.mem_map_of_mem hk) n'.1 (by simp)

/-- A breaker has cooled down a cooldown after the last recorded failure. -/
theorem Remembers.cooled {cs : Calls} (h : Remembers b cs) (hcooled : b.cooledDown t = true)
    (hcs : ∀ n ∈ cs.map Prod.fst, n ≤ t) :
    ∃ s, lastRecorded cs = some s ∧ s + b.cooldown ≤ t := by
  unfold cooledDown at hcooled
  rw [h.failed] at hcooled
  cases hlast : lastRecorded cs with
  | none =>
      rw [hlast] at hcooled
      cases hcooled
  | some s =>
      rw [hlast, decide_eq_true_eq] at hcooled
      have hle : s ≤ t := hcs s (mem_of_lastRecorded hlast)
      exact ⟨s, rfl, Nat.add_le_of_le_sub' hle hcooled⟩

/-- In the run `cs` of `b`, OPEN fails fast for the full cooldown. -/
structure FailsFast (b : CircuitBreaker) (cs : Calls) : Prop where
  /-- After the breaker has become OPEN at `t`, it is OPEN before and after each call made
  before `t + cooldown`, and such a call is refused. -/
  refuses : ∀ before t c after t' c', before ++ (t, c) :: (after ++ [(t', c')]) <+: cs →
    (b.calls before).state ≠ .Open → (b.calls (before ++ [(t, c)])).state = .Open →
    t' < t + b.cooldown →
      (b.calls (before ++ (t, c) :: after)).state = .Open ∧
      ((b.calls (before ++ (t, c) :: after)).call t' c').2.state = .Open ∧
      (c' = .allowRequest ∨ c' = .isEligible →
        ((b.calls (before ++ (t, c) :: after)).call t' c').1 = false)
  /-- It leaves OPEN by an admission only, a cooldown after the last recorded failure. -/
  leaves : ∀ before t c, before ++ [(t, c)] <+: cs → (b.calls before).state = .Open →
    (b.calls (before ++ [(t, c)])).state ≠ .Open →
      c = .allowRequest ∧ ∃ s, lastRecorded before = some s ∧ s + b.cooldown ≤ t

/--
**OPEN always fails fast for the full cooldown**, however the calls of concurrent requests
interleave.
-/
theorem failsFast (threshold : UInt32) (cooldown : Duration) (maxCalls : UInt32) (cs : Calls)
    (hcs : (cs.map Prod.fst).Pairwise (· ≤ ·)) :
    FailsFast (new threshold cooldown maxCalls) cs := by
  have hrem := calls_remembers threshold cooldown maxCalls
  generalize new threshold cooldown maxCalls = b at hrem
  refine ⟨?_, ?_⟩
  · intro before t c after t' c' hpre hs hs' hlt
    rw [calls_snoc] at hs'
    have hopened := cooling_of_opened hs hs'
    -- the calls after the trip are at times between `t` and `t'`
    obtain ⟨hle, hafter⟩ := between_of_sorted (hcs.sublist (hpre.sublist.map Prod.fst))
    have hcooling : Cooling t (b.calls (before ++ (t, c) :: after)) := by
      rw [calls_append]
      refine hopened.calls fun n hn => ?_
      rw [call_cooldown, calls_cooldown]
      exact ⟨(hafter n hn).1, Nat.lt_of_le_of_lt (hafter n hn).2 hlt⟩
    have hlt' : t' < t + (b.calls (before ++ (t, c) :: after)).cooldown := by
      rw [calls_cooldown]
      exact hlt
    refine ⟨hcooling.1, (hcooling.call hle hlt' c').1, ?_⟩
    rintro (rfl | rfl)
    · show ((b.calls _).allowRequest t').1 = false
      rw [← isEligible_eq_allowRequest]
      exact hcooling.refuses hle hlt'
    · exact hcooling.refuses hle hlt'
  · intro before t c hpre hs hs'
    rw [calls_snoc] at hs'
    obtain ⟨hc, hcooled⟩ := leaves_open hs hs'
    have hsorted := hcs.sublist (hpre.sublist.map Prod.fst)
    rw [List.map_append, List.pairwise_append] at hsorted
    have hlast := (hrem before).cooled hcooled fun n hn => hsorted.2.2 n hn t (by simp)
    rw [calls_cooldown] at hlast
    exact ⟨hc, hlast⟩

/-- Three failures trip a breaker; a late success and a late failure come in, and a request
is refused. -/
def lateResults : Calls :=
  [(0, .recordFailure), (0, .recordFailure), (Duration.fromSecs 1, .recordFailure),
    (Duration.fromSecs 2, .recordSuccess), (Duration.fromSecs 4, .recordFailure),
    (Duration.fromSecs 9, .allowRequest), (Duration.fromSecs 14, .allowRequest)]

theorem failsFast_lateResults :
    FailsFast (new 3 (.fromSecs 10) 1) lateResults ∧
      ((new 3 (.fromSecs 10) 1).calls (lateResults.take 2)).state ≠ .Open ∧
      ((new 3 (.fromSecs 10) 1).calls (lateResults.take 3)).state = .Open :=
  ⟨failsFast 3 (.fromSecs 10) 1 lateResults (by decide), by decide +kernel, by decide +kernel⟩

end CircuitBreaker

end LlmGateway
