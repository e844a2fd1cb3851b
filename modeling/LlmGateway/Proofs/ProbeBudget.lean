/-
The probe budget of a HALF-OPEN episode.

An episode opens in one branch of `allowRequest`, which admits a request and takes no
slot, and goes on in another, which takes a slot for each request it admits.  So a
HALF-OPEN breaker has admitted one request more than it has slots taken, and the budget
is overrun exactly when the last slot is given away.

`InEpisode` and `admitted` are the two halves of the bound: a stretch of calls during
which the breaker is HALF-OPEN throughout, and the admissions in it.
-/
import LlmGateway.Proofs.CircuitBreaker
import Mathlib.Data.List.Induction

namespace LlmGateway

namespace CircuitBreaker

variable {b : CircuitBreaker} {t : Instant} {c : BreakerCall}

/-- Timed calls, as a breaker gets them. -/
abbrev Calls := List (Instant × BreakerCall)

/-- The breaker is HALF-OPEN after each of the calls, so that they lie in one episode. -/
def InEpisode (b : CircuitBreaker) : Calls → Prop
  | [] => True
  | (t, c) :: cs => (b.call t c).2.state = .HalfOpen ∧ InEpisode (b.call t c).2 cs

instance InEpisode.decidable (b : CircuitBreaker) : (cs : Calls) → Decidable (InEpisode b cs)
  | [] => inferInstanceAs (Decidable True)
  | (t, c) :: cs =>
      have := InEpisode.decidable (b.call t c).2 cs
      inferInstanceAs (Decidable (_ ∧ _))

/-- One for an admission that is granted. -/
def admission (b : CircuitBreaker) (t : Instant) (c : BreakerCall) : Nat :=
  if c = .allowRequest ∧ (b.call t c).1 = true then 1 else 0

/-- How many of the calls are admissions that are granted. -/
def admitted (b : CircuitBreaker) : Calls → Nat
  | [] => 0
  | (t, c) :: cs => b.admission t c + admitted (b.call t c).2 cs

/-- In no episode of the run does the breaker admit more than its budget. -/
def BudgetKept (b : CircuitBreaker) (cs : Calls) : Prop :=
  ∀ before episode, before ++ episode <+: cs → InEpisode (b.calls before) episode →
    admitted (b.calls before) episode ≤ b.halfOpenMaxCalls.toNat

/-- The next call would give the last slot away. -/
def LastSlot (b : CircuitBreaker) (c : BreakerCall) : Prop :=
  c = .allowRequest ∧ b.state = .HalfOpen ∧ b.inner.halfOpenCalls + 1 = b.halfOpenMaxCalls

/-- No call of the run gives a last slot away. -/
def SparesLastSlot (b : CircuitBreaker) (cs : Calls) : Prop :=
  ∀ before t c, before ++ [(t, c)] <+: cs → ¬ LastSlot (b.calls before) c

theorem admitted_append (b : CircuitBreaker) (cs ds : Calls) :
    admitted b (cs ++ ds) = admitted b cs + admitted (b.calls cs) ds := by
  induction cs generalizing b with
  | nil => simp [admitted, calls]
  | cons x cs ih =>
      show _ + admitted _ (cs ++ ds) = _
      rw [ih, ← Nat.add_assoc]
      rfl

theorem inEpisode_append {cs ds : Calls} :
    InEpisode b (cs ++ ds) ↔ InEpisode b cs ∧ InEpisode (b.calls cs) ds := by
  induction cs generalizing b with
  | nil => simp [InEpisode, calls]
  | cons x cs ih =>
      show _ ∧ InEpisode _ (cs ++ ds) ↔ _
      rw [ih, ← and_assoc]
      rfl

/-! ### Slots and admissions -/

/-- Inside an episode each admission takes a slot, and nothing gives one back. -/
theorem slots_call (hs : b.state = .HalfOpen) (hs' : (b.call t c).2.state = .HalfOpen) :
    (b.call t c).2.inner.halfOpenCalls.toNat
      = b.inner.halfOpenCalls.toNat + b.admission t c := by
  have htr := call_transition b t c
  unfold admission
  generalize (b.call t c).1 = a, (b.call t c).2 = b' at htr hs'
  unfold state at hs hs'
  cases htr with
  | look => simp
  | pass h => simp [h] at hs
  | refuse h => simp
  | probe h hc => simp [h] at hs
  | slot h hlt => simpa using toNat_add_one hlt
  | close h => cases hs'
  | reset h => exact absurd hs h
  | reopen h => cases hs'
  | trip h hle => exact absurd hs h
  | count h hlt => exact absurd hs h

/-- The call that opens an episode is an admission, and takes no slot. -/
theorem slots_opening (hs : b.state ≠ .HalfOpen) (hs' : (b.call t c).2.state = .HalfOpen) :
    (b.call t c).2.inner.halfOpenCalls = 0 ∧ b.admission t c = 1 := by
  have htr := call_transition b t c
  unfold admission
  generalize (b.call t c).1 = a, (b.call t c).2 = b' at htr hs'
  unfold state at hs hs'
  cases htr with
  | look => exact absurd hs' hs
  | pass h => exact absurd hs' hs
  | refuse h => exact absurd hs' hs
  | probe h hc => simp
  | slot h hlt => exact absurd h hs
  | close h => exact absurd h hs
  | reset h => exact absurd hs' h
  | reopen h => exact absurd h hs
  | trip h hle => cases hs'
  | count h hlt => exact absurd hs' h

/-- Within an episode the slots taken count the admissions, the opening one apart. -/
theorem admitted_le_slots {cs : Calls} (h : InEpisode b cs) (hne : cs ≠ []) :
    admitted b cs ≤ (b.calls cs).inner.halfOpenCalls.toNat + 1 := by
  induction cs using List.reverseRecOn with
  | nil => exact absurd rfl hne
  | append_singleton cs x ih =>
      obtain ⟨t, c⟩ := x
      obtain ⟨hcs, hlast, -⟩ := inEpisode_append.mp h
      rw [admitted_append, calls_snoc]
      show _ + (admission _ t c + 0) ≤ _
      by_cases hs : (b.calls cs).state = .HalfOpen
      · rw [slots_call hs hlast]
        cases cs with
        | nil =>
            rw [show admitted b [] = 0 from rfl]
            omega
        | cons y ys =>
            have := ih hcs (by simp)
            omega
      · have hnil : cs = [] := by
          -- only the first call of a stretch can find the breaker in another state
          induction cs using List.reverseRecOn with
          | nil => rfl
          | append_singleton ys y _ =>
              rw [calls_snoc] at hs
              exact absurd (inEpisode_append.mp hcs).2.1 hs
        subst hnil
        have := (slots_opening hs hlast).2
        simp only [calls, admitted] at this ⊢
        omega

/-- A HALF-OPEN breaker is in an episode that began in its run, and has admitted one
request more than it has slots taken. -/
theorem exists_episode (hb : b.state ≠ .HalfOpen) (cs : Calls)
    (hs : (b.calls cs).state = .HalfOpen) :
    ∃ before episode, cs = before ++ episode ∧ InEpisode (b.calls before) episode ∧
      admitted (b.calls before) episode = (b.calls cs).inner.halfOpenCalls.toNat + 1 := by
  induction cs using List.reverseRecOn with
  | nil => exact absurd hs hb
  | append_singleton cs x ih =>
      obtain ⟨t, c⟩ := x
      rw [calls_snoc] at hs ⊢
      by_cases hprev : (b.calls cs).state = .HalfOpen
      · obtain ⟨before, episode, rfl, hin, hcount⟩ := ih hprev
        refine ⟨before, episode ++ [(t, c)], by simp, ?_, ?_⟩
        · rw [inEpisode_append, ← calls_append]
          exact ⟨hin, hs, trivial⟩
        · rw [admitted_append, ← calls_append, slots_call hprev hs, hcount]
          show _ + (admission _ t c + 0) = _
          omega
      · obtain ⟨hzero, hone⟩ := slots_opening hprev hs
        refine ⟨cs, [(t, c)], rfl, ⟨hs, trivial⟩, ?_⟩
        show admission _ t c + 0 = _
        rw [hone, hzero]
        rfl

/-- Where no last slot is given away, one is always left. -/
theorem slots_lt_of_spares (h : Inv b) (hidle : b.state ≠ .HalfOpen) {cs : Calls}
    (hcs : SparesLastSlot b cs) :
    (b.calls cs).inner.halfOpenCalls.toNat < b.halfOpenMaxCalls.toNat := by
  have hpos : 0 < b.halfOpenMaxCalls.toNat := UInt32.lt_iff_toNat_lt.mp b.halfOpenMaxCalls_pos
  induction cs using List.reverseRecOn with
  | nil =>
      show b.inner.halfOpenCalls.toNat < _
      rw [h.idle hidle]
      exact hpos
  | append_singleton cs x ih =>
      obtain ⟨t, c⟩ := x
      have hlt := ih fun before t' c' hpre => hcs before t' c' (hpre.trans (List.prefix_append _ _))
      have hsafe := hcs cs t c (List.prefix_refl _)
      have hinv := calls_inv h (cs ++ [(t, c)])
      rw [calls_snoc] at hinv ⊢
      by_cases hs' : ((b.calls cs).call t c).2.state = .HalfOpen
      · by_cases hs : (b.calls cs).state = .HalfOpen
        · rw [slots_call hs hs']
          unfold admission
          by_cases hadm : c = .allowRequest ∧ ((b.calls cs).call t c).1 = true
          · rw [if_pos hadm]
            have hne : (b.calls cs).inner.halfOpenCalls + 1 ≠ b.halfOpenMaxCalls := by
              intro heq
              exact hsafe ⟨hadm.1, hs, by rw [heq, calls_halfOpenMaxCalls]⟩
            have hone := toNat_add_one (UInt32.lt_iff_toNat_lt.mpr hlt)
            have : (b.calls cs).inner.halfOpenCalls.toNat + 1 ≠ b.halfOpenMaxCalls.toNat :=
              fun heq => hne (UInt32.toNat_inj.mp (hone.trans heq))
            omega
          · rw [if_neg hadm]
            omega
        · rw [(slots_opening hs hs').1]
          exact hpos
      · rw [hinv.idle hs']
        exact hpos

/-! ### The budget -/

/-- A breaker's last slot is a slot: adding it does not wrap the counter. -/
theorem toNat_lastSlot (h : LastSlot b c) :
    b.inner.halfOpenCalls.toNat + 1 = b.halfOpenMaxCalls.toNat := by
  obtain ⟨-, -, hmax⟩ := h
  have hpos : 0 < b.halfOpenMaxCalls.toNat := UInt32.lt_iff_toNat_lt.mp b.halfOpenMaxCalls_pos
  have hadd : (b.inner.halfOpenCalls.toNat + 1) % 2 ^ 32 = b.halfOpenMaxCalls.toNat := by
    rw [← hmax, UInt32.toNat_add]
    rfl
  have hlt : b.inner.halfOpenCalls.toNat < 2 ^ 32 := b.inner.halfOpenCalls.toNat_lt
  omega

/-- Giving the last slot away is an admission, and the episode goes on. -/
theorem lastSlot_call (t : Instant) (h : LastSlot b c) :
    (b.call t c).2.state = .HalfOpen ∧ b.admission t c = 1 := by
  have hmax := toNat_lastSlot h
  obtain ⟨rfl, hs, -⟩ := h
  have hlt : b.inner.halfOpenCalls < b.halfOpenMaxCalls :=
    UInt32.lt_iff_toNat_lt.mpr (by omega)
  unfold state at hs
  simp [admission, call, allowRequest, state, hs, hlt]

/--
**The probe budget is kept exactly where no last slot is given away.**  The admission that
opens an episode takes no slot, so with the last one the episode has one request too many.
-/
theorem budgetKept_iff (threshold : UInt32) (cooldown : Duration) (maxCalls : UInt32)
    (cs : Calls) :
    BudgetKept (new threshold cooldown maxCalls) cs
      ↔ SparesLastSlot (new threshold cooldown maxCalls) cs := by
  generalize hb : new threshold cooldown maxCalls = b
  have hinv : Inv b := by rw [← hb]; exact new_inv threshold cooldown maxCalls
  have hidle : b.state ≠ .HalfOpen := by rw [← hb]; simp [state, new]
  constructor
  · intro hkept before t c hpre hlast
    obtain ⟨start, episode, rfl, hin, hcount⟩ := exists_episode hidle before hlast.2.1
    obtain ⟨hstill, hone⟩ := lastSlot_call t hlast
    have hover := hkept start (episode ++ [(t, c)]) (by simpa using hpre) (by
      rw [inEpisode_append, ← calls_append]
      exact ⟨hin, hstill, trivial⟩)
    rw [admitted_append, ← calls_append, hcount] at hover
    have hmax := toNat_lastSlot hlast
    rw [calls_halfOpenMaxCalls] at hmax
    have : admitted (b.calls (start ++ episode)) [(t, c)] = 1 := hone
    omega
  · intro hspares before episode hpre hin
    by_cases hne : episode = []
    · subst hne
      exact Nat.zero_le _
    · have hle := admitted_le_slots hin hne
      rw [← calls_append] at hle
      have hlt : (b.calls (before ++ episode)).inner.halfOpenCalls.toNat
          < b.halfOpenMaxCalls.toNat :=
        slots_lt_of_spares hinv hidle fun pre t c hp => hspares pre t c (hp.trans hpre)
      omega

/-- Three failures, and ten seconds later two requests before either probe is answered. -/
def doubleProbe : Calls :=
  [(0, .recordFailure), (0, .recordFailure), (0, .recordFailure),
    (Duration.fromSecs 10, .allowRequest), (Duration.fromSecs 10, .allowRequest)]

/-- A breaker with a budget of one lets both requests through. -/
theorem doubleProbe_overruns :
    (doubleProbe.map Prod.fst).Pairwise (· ≤ ·) ∧
      ¬ BudgetKept (new 3 (.fromSecs 10) 1) doubleProbe := by
  refine ⟨by decide, fun hkept => ?_⟩
  have hover := hkept (doubleProbe.take 3) (doubleProbe.drop 3) (by decide) (by decide)
  revert hover
  decide

end CircuitBreaker

end LlmGateway
