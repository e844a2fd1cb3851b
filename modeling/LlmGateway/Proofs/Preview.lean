/-
Selecting the candidates of a request, as a preview of their admission.

The selection asks each breaker whether it would let a request through.  Asking is the
admission without its effect, so the answers are what admissions at that time would be, and
the breakers stay as they were.  A breaker that would let a request through goes on doing so
while time passes, until it is called for something else: cooled down stays cooled down.
-/
import LlmGateway.Proofs.CircuitBreaker
import LlmGateway.Proofs.World
import LlmGateway.Proofs.Failover
import LlmGateway.Lib.Runs

namespace LlmGateway

open Effects

variable {x : Crates} {st : AppState} {w w₁ w' : World} {P : String}

/-! ### Asking a breaker -/

/-- A breaker that would let a request through goes on doing so. -/
theorem CircuitBreaker.isEligible_mono {b : CircuitBreaker} {t u : Instant}
    (h : b.isEligible t = true) (htu : t ≤ u) : b.isEligible u = true := by
  unfold isEligible at h ⊢
  cases hs : b.inner.state with
  | Closed => rfl
  | Open =>
      rw [hs] at h
      unfold cooledDown at h ⊢
      cases hfail : b.inner.lastFailure with
      | none => simp [hfail] at h
      | some s =>
          simp only [hfail, decide_eq_true_eq] at h ⊢
          exact Nat.le_trans h (Nat.sub_le_sub_right htu s)
  | HalfOpen =>
      rw [hs] at h
      exact h

/-- The breaker of a provider would let a request through now. -/
def World.admits (st : AppState) (w : World) (P : String) : Bool :=
  ((w.breakerFor st P).allowRequest w.now).1

/-- Asking the breakers of some providers. -/
def World.ask (st : AppState) (w : World) (ps : List ProviderConfig) : World :=
  ps.foldl (fun w p => (w.callBreaker st p.name .isEligible).2) w

/-- Two worlds that differ in no breaker, and in nothing else: at most a breaker that was asked
for has been created. -/
structure SameBreakers (st : AppState) (w w' : World) : Prop where
  breakers : ∀ P, w'.breakerFor st P = w.breakerFor st P
  now : w'.now = w.now
  limits : w'.rateLimiter = w.rateLimiter
  cache : w'.exactCache = w.exactCache

theorem SameBreakers.refl (w : World) : SameBreakers st w w :=
  ⟨fun _ => rfl, rfl, rfl, rfl⟩

theorem SameBreakers.trans (h : SameBreakers st w w₁) (h' : SameBreakers st w₁ w') :
    SameBreakers st w w' :=
  ⟨fun P => (h'.breakers P).trans (h.breakers P), h'.now.trans h.now, h'.limits.trans h.limits,
    h'.cache.trans h.cache⟩

theorem SameBreakers.admits (h : SameBreakers st w w') (P : String) :
    w'.admits st P = w.admits st P := by
  unfold World.admits
  rw [h.breakers, h.now]

theorem sameBreakers_isEligible (w : World) (p : String) :
    SameBreakers st w (w.callBreaker st p .isEligible).2 where
  breakers P := by
    rw [World.breakerFor_callBreaker]
    by_cases hp : p = P
    · rw [if_pos hp]
      rfl
    · rw [if_neg hp]
      rfl
  now := rfl
  limits := rfl
  cache := rfl

theorem sameBreakers_ask (w : World) (ps : List ProviderConfig) :
    SameBreakers st w (w.ask st ps) := by
  induction ps generalizing w with
  | nil => exact .refl w
  | cons p ps ih => exact (sameBreakers_isEligible w p.name).trans (ih _)

/-! ### The selection -/

theorem selectFrom_cons (p : ProviderConfig) (ps : List ProviderConfig) :
    selectFrom (p :: ps) = .op (.isEligible p.name) fun eligible =>
      (selectFrom ps).bind fun rest => .ret (if eligible then p :: rest else rest) := rfl

/-- The selection comes to one end only: the providers whose breakers would let a request
through, with every breaker asked. -/
theorem selectFrom_comes {ps qs : List ProviderConfig} :
    Prog.Comes (respond st) w (selectFrom ps) w' (.ret qs) ↔
      qs = ps.filter (fun p => w.admits st p.name) ∧ w' = w.ask st ps := by
  induction ps generalizing w qs with
  | nil =>
      constructor
      · intro h
        obtain ⟨rfl, hret⟩ := h.of_ret
        exact ⟨Prog.ret.inj hret, rfl⟩
      · rintro ⟨rfl, rfl⟩
        exact .here _ _
  | cons p ps ih =>
      have hasked : (w.callBreaker st p.name .isEligible).1 = w.admits st p.name :=
        CircuitBreaker.isEligible_eq_allowRequest _ _
      have hsame : ps.filter (fun q => (w.callBreaker st p.name .isEligible).2.admits st q.name)
          = ps.filter fun q => w.admits st q.name :=
        List.filter_congr fun q _ => (sameBreakers_isEligible w p.name).admits q.name
      rw [selectFrom_cons, List.filter_cons]
      constructor
      · intro h
        rcases h.of_op with ⟨-, hstay⟩ | ⟨c, eligible, w₁, hr, hrest⟩
        · cases hstay
        · obtain ⟨rfl, rfl⟩ := Prod.mk.inj (Option.some.inj hr)
          obtain ⟨rest, w₂, hps, hlast⟩ := hrest.of_bind
          obtain ⟨rfl, hret⟩ := hlast.of_ret
          obtain ⟨rfl, rfl⟩ := ih.mp hps
          rw [← hsame, ← hasked]
          exact ⟨Prog.ret.inj hret, rfl⟩
      · rintro ⟨rfl, rfl⟩
        rw [← hsame, ← hasked]
        exact .step (c := .none) rfl (Prog.Comes.bind (ih.mpr ⟨rfl, rfl⟩) (.here _ _))

/-! ### Until a breaker is called again -/

/-- The effect neither asks the breaker of `P` for admission nor records anything with it. -/
def Effect.spares (P : String) : Effect → Bool
  | .allowRequest p => p ≠ P
  | .recordSuccess p => p ≠ P
  | .recordFailure p => p ≠ P
  | _ => true

theorem respond_spares {e : Effect} {c : Choice} {y : e.Answer}
    (h : respond st w e c = some (y, w')) (he : e.spares P = true) :
    w'.breakerFor st P = w.breakerFor st P := by
  rw [respond_breaker h]
  cases e with
  | isEligible p =>
      by_cases hp : p = P
      · simp [onBreaker, hp, CircuitBreaker.after, CircuitBreaker.call]
      · simp [onBreaker, hp, CircuitBreaker.after]
  | allowRequest p =>
      have hp : p ≠ P := of_decide_eq_true he
      simp [onBreaker, hp, CircuitBreaker.after]
  | recordSuccess p =>
      have hp : p ≠ P := of_decide_eq_true he
      simp [onBreaker, hp, CircuitBreaker.after]
  | recordFailure p =>
      have hp : p ≠ P := of_decide_eq_true he
      simp [onBreaker, hp, CircuitBreaker.after]
  | _ => rfl

/-- From one world to another in any steps that spare the breaker of `P`. -/
inductive Undisturbed (st : AppState) (P : String) (w : World) : World → Prop
  | refl : Undisturbed st P w w
  | wait {w' : World} (h : Undisturbed st P w w') (d : Duration) :
      Undisturbed st P w { w' with now := w'.now + d }
  | effect {w₁ w' : World} {e : Effect} {c : Choice} {y : e.Answer}
      (h : Undisturbed st P w w₁) (hr : respond st w₁ e c = some (y, w'))
      (he : e.spares P = true) : Undisturbed st P w w'

namespace Undisturbed

theorem breaker (h : Undisturbed st P w w') :
    w'.breakerFor st P = w.breakerFor st P ∧ w.now ≤ w'.now := by
  induction h with
  | refl => exact ⟨rfl, Nat.le_refl _⟩
  | wait _ d ih => exact ⟨ih.1, ih.2.trans (Nat.le_add_right _ d)⟩
  | effect _ hr he ih =>
      refine ⟨(respond_spares hr he).trans ih.1, ?_⟩
      rw [respond_now hr]
      exact ih.2

/-- Who is admitted stays admitted. -/
theorem admits (h : Undisturbed st P w w') (hadmits : w.admits st P = true) :
    w'.admits st P = true := by
  obtain ⟨hbreaker, hnow⟩ := h.breaker
  unfold World.admits at hadmits ⊢
  rw [← CircuitBreaker.isEligible_eq_allowRequest] at hadmits ⊢
  rw [hbreaker]
  exact CircuitBreaker.isEligible_mono hadmits hnow

/-- A selection spares every breaker. -/
theorem ask (h : Undisturbed st P w w₁) (ps : List ProviderConfig) :
    Undisturbed st P w (w₁.ask st ps) := by
  induction ps generalizing w₁ with
  | nil => exact h
  | cons p ps ih => exact ih (h.effect (e := .isEligible p.name) (c := .none) rfl rfl)

end Undisturbed

/-- The step of the gateway spares the breaker of `P`. -/
def spares (P : String) (p : Gateway.State) : GatewayLabel → Bool
  | .act i _ =>
      match p.tasks[i]? with
      | some (_, ⟨.op e _, _⟩) => e.spares P
      | _ => true
  | _ => true

/-- Any number of requests that do not reach the breaker leave it undisturbed. -/
theorem undisturbed_run {p q : Gateway.State}
    (h : (gateway x st).Reaches (fun p l => spares P p l = true) p q) :
    Undisturbed st P p.world q.world := by
  induction h with
  | refl => exact .refl
  | @step q q' l _ hl hstep ih =>
      obtain ⟨v, rfl, hw⟩ | ⟨i, c, r, e, k, a, y, rfl, ht, hy⟩ | hsame :=
        (gateway x st).step_world hstep
      · rw [← Option.some.inj hw]
        exact ih.wait v
      · simp only [spares, ht] at hl
        exact ih.effect hy hl
      · rw [hsame]
        exact ih

/--
**The selection is an exact preview of admission.**  In any world it comes to one end.  It
returns the providers whose breakers would let a request through, by ascending priority and
those of one priority as they were configured; it changes no breaker and nothing else.  A
provider it returned goes on being let through, however long one waits, whatever is done
with other breakers and however often the selection is repeated, until its own breaker is
asked for admission or something is recorded with it.
-/
theorem preview_exact (x : Crates) (config : AppConfig) (w : World) :
    ∃ ps w', (∀ ps' w'', Prog.Comes (respond (.new x config)) w (selectOrdered (.new x config)) w''
        (.ret ps') ↔ ps' = ps ∧ w'' = w') ∧
      SortedByPriority (config.providers.filter fun p => w.admits (.new x config) p.name) ps ∧
      SameBreakers (.new x config) w w' ∧
      (∀ P w₀, Undisturbed (.new x config) P w₀ w → Undisturbed (.new x config) P w₀ w') ∧
      (∀ p ∈ ps, ∀ w'', Undisturbed (.new x config) p.name w' w'' →
        w''.admits (.new x config) p.name = true) ∧
      ∀ p ∈ ps, ∀ q q', q.world = w' →
        (gateway x (.new x config)).Reaches (fun q l => spares p.name q l = true) q q' →
        q'.world.admits (.new x config) p.name = true := by
  have hadmitted : ∀ p ∈ (AppState.new x config).sortedProviders.filter
      (fun p => w.admits (.new x config) p.name), ∀ w'',
      Undisturbed (.new x config) p.name (w.ask (.new x config) config.providersSorted) w'' →
        w''.admits (.new x config) p.name = true := by
    intro p hp w'' hw''
    obtain ⟨-, hadmits⟩ := List.mem_filter.mp hp
    rw [← (sameBreakers_ask w config.providersSorted).admits] at hadmits
    exact hw''.admits hadmits
  refine ⟨_, _, fun ps' w'' => selectFrom_comes, (providersSorted_sorted config).filter _,
    sameBreakers_ask w _, fun P w₀ h => h.ask _, hadmitted, ?_⟩
  intro p hp q q' hq hrun
  refine hadmitted p hp q'.world ?_
  have hundisturbed := undisturbed_run hrun
  rw [hq] at hundisturbed
  exact hundisturbed

end LlmGateway
