/-
When a breaker is stuck.

A HALF-OPEN breaker with all its probe slots taken refuses everybody, and only a record
call takes it out of that state.  So somebody has to be left who will record: a request
that was admitted and has recorded nothing.  `Attended` is that invariant.  It survives
every step but one, the cancellation of the last such request; nothing in the source gives
the slot of a cancelled request back.
-/
import LlmGateway.Proofs.World
import LlmGateway.Proofs.CircuitBreaker

namespace LlmGateway

open Effects

variable {x : Crates} {st : AppState} {P : String} {w w' : World} {g : Ghost} {m : GatewayMove}
  {gs : List Ghost}

/-! ### A full breaker -/

/-- HALF-OPEN, with no slot left. -/
def CircuitBreaker.Full (b : CircuitBreaker) : Prop :=
  b.inner.state = .HalfOpen ∧ ¬ b.inner.halfOpenCalls < b.halfOpenMaxCalls

instance (b : CircuitBreaker) : Decidable b.Full :=
  inferInstanceAs (Decidable (_ ∧ _))

/-- A full breaker refuses everybody, at any time. -/
theorem CircuitBreaker.Full.refuses {b : CircuitBreaker} (h : b.Full) (t : Instant) :
    b.isEligible t = false := by
  obtain ⟨hs, hslots⟩ := h
  simp [isEligible, hs, hslots]

/-- Only an admission makes a breaker full, and a record call never leaves it so. -/
theorem CircuitBreaker.full_call {b : CircuitBreaker} {t : Instant} {c : BreakerCall}
    (h : (b.call t c).2.Full) :
    (c = .isEligible ∧ b.Full) ∨
      (c = .allowRequest ∧ ((b.call t c).1 = true ∨ b.Full)) := by
  have htr := call_transition b t c
  generalize (b.call t c).1 = a, (b.call t c).2 = b' at htr h
  cases htr with
  | look => exact Or.inl ⟨rfl, h⟩
  | pass hs => exact Or.inr ⟨rfl, Or.inl rfl⟩
  | refuse hr => exact Or.inr ⟨rfl, Or.inr h⟩
  | probe hs hc => exact Or.inr ⟨rfl, Or.inl rfl⟩
  | slot hs hlt => exact Or.inr ⟨rfl, Or.inl rfl⟩
  | close hs => cases h.1
  | reset hs => exact absurd h.1 hs
  | reopen hs => cases h.1
  | trip hs hle => cases h.1
  | count hs hlt => exact absurd h.1 hs

/-! ### Requests in flight -/

theorem finished_unrecorded {φ : Phase} (h : φ.Unrecorded P) : φ.finished.Unrecorded P := by
  cases φ with
  | reading p => exact h.elim
  | _ => exact h

theorem breakOff_unrecorded {φ : Phase} {o : Outcome} (h : φ.Unrecorded P) :
    (φ.breakOff o).Unrecorded P := by
  cases φ with
  | reading p => exact h.elim
  | _ => exact h

/-- A move that is neither a drop nor a record call at the provider leaves a request that has
recorded nothing there as it is, or as one that has its answer. -/
theorem unrecorded_next (hm : Kernel.Allowed (discipline x) g m) (hg : g.phase.Unrecorded P)
    (hdrop : m ≠ .drop)
    (hrecord : ∀ c, onBreaker P m = some c → c = .isEligible ∨ c = .allowRequest) :
    (g.next m).phase.Unrecorded P := by
  cases m with
  | act e answer =>
      cases e with
      | allowRequest p =>
          have hidle : g.phase = .idle := hm
          rw [hidle] at hg
          exact hg.elim
      | recordSuccess p =>
          obtain ⟨s, hphase, -⟩ := hm
          rw [hphase] at hg
          have hp : p = P := hg
          rcases hrecord .recordSuccess (if_pos hp) with hc | hc
          · cases hc
          · cases hc
      | recordFailure p =>
          rcases hm with ⟨a, hphase, -⟩ | ⟨o, hphase⟩
          · rw [hphase] at hg
            have hp : p = P := hg
            rcases hrecord .recordFailure (if_pos hp) with hc | hc
            · cases hc
            · cases hc
          · rw [hphase] at hg
            exact hg.elim
      | await a owned =>
          cases a with
          | bytes p =>
              rw [hm.2] at hg
              exact hg.elim
          | send p req =>
              rw [hm.2.1] at hg
              exact hg
          | _ => exact hg
      | _ => exact hg
  | poll item =>
      cases item with
      | chunk bs => exact hg
      | ended => exact finished_unrecorded hg
      | _ => exact breakOff_unrecorded hg
  | drop => exact absurd rfl hdrop

/-- The cancellation that leaves a full breaker with nobody to record. -/
def DropsLastProbe (x : Crates) (st : AppState) (P : String) (p : Gateway.State)
    (l : GatewayLabel) : Prop :=
  (p.world.breakerFor st P).Full ∧ ∃ i late g, l = .drop i late ∧ (p.shadow x)[i]? = some g ∧
    g.phase.Unrecorded P ∧
    ∀ (j : Nat) (g' : Ghost), (p.shadow x)[j]? = some g' → g'.phase.Unrecorded P → j = i

/-- A full breaker has a request that will record. -/
structure Attended (st : AppState) (P : String) (w : World) (gs : List Ghost) : Prop where
  inv : CircuitBreaker.Inv (w.breakerFor st P)
  probe : (w.breakerFor st P).Full → ∃ (j : Nat) (g : Ghost), gs[j]? = some g ∧ g.phase.Unrecorded P

/-- Nobody is lost by a move that does not drop and does not record. -/
theorem kept_unrecorded {i : Nat} (hi : gs[i]? = some g)
    (hm : Kernel.Allowed (discipline x) g m) (hdrop : m ≠ .drop)
    (hrecord : ∀ c, onBreaker P m = some c → c = .isEligible ∨ c = .allowRequest)
    (h : ∃ (j : Nat) (g' : Ghost), gs[j]? = some g' ∧ g'.phase.Unrecorded P) :
    ∃ (j : Nat) (g' : Ghost), (gs.set i (g.next m))[j]? = some g' ∧ g'.phase.Unrecorded P := by
  obtain ⟨j, g', hj, hg'⟩ := h
  by_cases hij : i = j
  · subst hij
    obtain rfl := Option.some.inj (hi.symm.trans hj)
    exact ⟨i, _, List.getElem?_set_self (List.getElem?_eq_some_iff.mp hi).1,
      unrecorded_next hm hg' hdrop hrecord⟩
  · exact ⟨j, g', by rw [List.getElem?_set_ne hij]; exact hj, hg'⟩

theorem onBreaker_allowRequest (h : onBreaker P m = some .allowRequest) :
    ∃ answer, m = .act (.allowRequest P) answer := by
  cases m with
  | act e answer =>
      cases e with
      | allowRequest p =>
          by_cases hp : p = P
          · subst hp
            exact ⟨answer, rfl⟩
          · rw [onBreaker, if_neg hp] at h
            cases h
      | isEligible p =>
          rw [onBreaker] at h
          split at h
          · cases h
          · cases h
      | recordSuccess p =>
          rw [onBreaker] at h
          split at h
          · cases h
          · cases h
      | recordFailure p =>
          rw [onBreaker] at h
          split at h
          · cases h
          · cases h
      | _ => cases h
  | poll item => cases h
  | drop => cases h

theorem Attended.move {l : GatewayLabel} {p : Gateway.State} {i : Nat}
    (h : Attended st P p.world (p.shadow x)) (hok : ¬ DropsLastProbe x st P p l)
    (hi : (p.shadow x)[i]? = some g) (hm : Kernel.Allowed (discipline x) g m)
    (hans : (gateway x st).Answers p.world l m w') (hl : Machine.taskOf l = some i) :
    Attended st P w' ((p.shadow x).set i (g.next m)) := by
  have hafter := answers_breaker hans P
  have hlt := (List.getElem?_eq_some_iff.mp hi).1
  cases hcall : onBreaker P m with
  | none =>
      rw [hcall] at hafter
      refine ⟨hafter ▸ h.inv, fun hfull => ?_⟩
      rw [hafter] at hfull
      by_cases hdrop : m = .drop
      · -- somebody else is left, or this was the last probe
        subst hdrop
        by_contra hnone
        obtain ⟨late, rfl⟩ : ∃ late, l = .drop i late := by
          cases l with
          | drop k late => exact ⟨late, by rw [Option.some.inj hl]⟩
          | _ => exact hans.elim
        have honly : ∀ (j : Nat) (g' : Ghost), (p.shadow x)[j]? = some g' →
            g'.phase.Unrecorded P → j = i := by
          intro j g' hj hg'
          by_contra hne
          exact hnone ⟨j, g', by rw [List.getElem?_set_ne (Ne.symm hne)]; exact hj, hg'⟩
        obtain ⟨j, g', hj, hg'⟩ := h.probe hfull
        obtain rfl := honly j g' hj hg'
        exact hok ⟨hfull, j, late, g', rfl, hj, hg', honly⟩
      · exact kept_unrecorded hi hm hdrop (fun c hc => by rw [hcall] at hc; cases hc)
          (h.probe hfull)
  | some c =>
      rw [hcall] at hafter
      have hdrop : m ≠ .drop := by
        rintro rfl
        cases hcall
      refine ⟨hafter ▸ CircuitBreaker.call_inv h.inv p.world.now c, fun hfull => ?_⟩
      rw [hafter] at hfull
      rcases CircuitBreaker.full_call hfull with ⟨rfl, hbefore⟩ | ⟨rfl, hadmitted⟩
      · exact kept_unrecorded hi hm hdrop (fun c hc => Or.inl (by rw [hcall] at hc; cases hc; rfl))
          (h.probe hbefore)
      · obtain ⟨answer, rfl⟩ := onBreaker_allowRequest hcall
        rcases hadmitted with htrue | hbefore
        · -- whoever took the slot is the one to record
          obtain rfl : answer = true := (answers_allowRequest hans).trans htrue
          exact ⟨i, _, List.getElem?_set_self hlt, rfl⟩
        · exact kept_unrecorded hi hm hdrop
            (fun c hc => Or.inr (by rw [hcall] at hc; cases hc; rfl)) (h.probe hbefore)

/-! ### Runs -/

theorem attended_initial (start : Instant) : Attended st P (.initial start) [] where
  inv := CircuitBreaker.new_inv _ _ _
  probe h := by cases h.1

/-- In a run without such cancellations every state is attended. -/
theorem reaches_attended {start : Instant} {p : Gateway.State}
    (h : (gateway x st).Reaches (fun p l => ¬ DropsLastProbe x st P p l)
      (Gateway.State.initial start) p) : Attended st P p.world (p.shadow x) := by
  refine h.shadow (J := fun w gs _ => Attended st P w gs) gateway_disciplined
    (initial_conforms start) (attended_initial start) ?_ ?_ ?_
  · intro p v w _ hw ha
    obtain rfl := Option.some.inj hw
    exact ⟨ha.inv, ha.probe⟩
  · intro p r ha
    refine ⟨ha.inv, fun hfull => ?_⟩
    obtain ⟨j, g, hj, hg⟩ := ha.probe hfull
    refine ⟨j, g, ?_, hg⟩
    rw [List.getElem?_append_left (List.getElem?_eq_some_iff.mp hj).1]
    exact hj
  · intro p l i g m w hok hl hi hm hans ha
    exact ha.move hok hi hm hans hl

/--
**No breaker stays shut for ever unless its last probe is cancelled.**  In a run in which no
request is cancelled that is the last to have recorded nothing at a full breaker: whenever no
request is in flight at the provider, the provider is eligible from some time on.
-/
theorem never_wedged {start : Instant} {p : Gateway.State}
    (h : (gateway x st).Reaches (fun p l => ¬ DropsLastProbe x st P p l)
      (Gateway.State.initial start) p)
    (hquiet : ∀ g ∈ p.shadow x, ¬ g.phase.Unrecorded P) :
    ∃ t, ∀ t', t ≤ t' → (p.world.breakerFor st P).isEligible t' = true := by
  have ha := reaches_attended h
  refine ha.inv.eventually_eligible fun hs => ?_
  by_contra hslots
  obtain ⟨j, g, hj, hg⟩ := ha.probe ⟨hs, hslots⟩
  exact hquiet g (List.mem_of_getElem? hj) hg

/-- The digest of the one key. -/
def probeCrates : Crates := .table [smallKey] []

/-- One failure trips the breaker, and one slot is all there is to probe it. -/
def probeGateway : AppState := smallGateway probeCrates ⟨1, 10, 1⟩ 1000

/-- One request finds the provider down; two that come after the cooldown are cancelled while
they wait for its answer. -/
def wedgedRun : Gateway.State :=
  (Gateway.replay probeCrates probeGateway (fun _ _ => true) (fun _ _ _ _ => ())
    [.spawn (smallChat true 10), goes 0, goes 0, goes 0, goes 0, .act 0 (.sent (.error "refused")),
      goes 0, goes 0, goes 0, goes 0, .env (Duration.fromSecs 10),
      .spawn (smallChat true 10), goes 1, goes 1, goes 1, goes 1, .drop 1 false, goes 1,
      .spawn (smallChat true 10), goes 2, goes 2, goes 2, goes 2, .drop 2 false, goes 2]).1

/-- The provider is refused for ever, and nobody is left to record anything. -/
theorem wedged_for_ever :
    Gateway.Reachable probeCrates probeGateway 0 wedgedRun ∧
      (∀ g ∈ wedgedRun.shadow probeCrates, ¬ g.phase.Unrecorded "p") ∧
      ∀ t, (wedgedRun.world.breakerFor probeGateway "p").isEligible t = false := by
  have hfull : (wedgedRun.world.breakerFor probeGateway "p").Full := by decide +kernel
  exact ⟨Gateway.replay_reachable _ _ _, by decide +kernel, hfull.refuses⟩

/-- A step that is no cancellation. -/
def undisturbed (_ : Gateway.State) : GatewayLabel → Bool
  | .drop _ _ => false
  | _ => true

/-- One request finds the provider down, and the probe after the cooldown is let through. -/
def probedRun : Gateway.State :=
  (Gateway.replay probeCrates probeGateway undisturbed (fun _ _ _ _ => ())
    [.spawn (smallChat true 10), goes 0, goes 0, goes 0, goes 0, .act 0 (.sent (.error "refused")),
      goes 0, goes 0, goes 0, goes 0, .env (Duration.fromSecs 10),
      .spawn (smallChat true 10), goes 1, goes 1, goes 1, goes 1, answers 1,
      goes 1]).1

theorem never_wedged_probed :
    ∃ t, ∀ t', t ≤ t' →
      (probedRun.world.breakerFor probeGateway "p").isEligible t' = true := by
  have hrun : (gateway probeCrates probeGateway).Reaches (fun p l => undisturbed p l = true)
      (Gateway.State.initial 0) probedRun := (Gateway.replay_run undisturbed _ _).reaches
  refine never_wedged (hrun.mono ?_) (by decide +kernel)
  rintro p l hl ⟨-, i, late, g, rfl, -⟩
  cases hl

end LlmGateway
