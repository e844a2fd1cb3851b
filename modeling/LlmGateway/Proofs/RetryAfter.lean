/-
What a client is told when its tokens do not last.

A refused reservation answers with the seconds the missing tokens take to come in.  The
bucket is left alone until they have passed, so the level is what it was and the refill of
that time; it is enough if it can be enough, that is, if the request does not reserve more
than a full bucket holds.  A request that does is refused again after any wait.
-/
import LlmGateway.Proofs.Reservations
import LlmGateway.Proofs.Refill

namespace LlmGateway

open Effects

/-! ### One bucket -/

namespace TokenBucket

variable {b : TokenBucket} {t u : Instant} {client : String} {cost limit : ℚ} {r : Nat}

/-- A reservation is refused, with the same wait, exactly if the consumption is. -/
theorem tryReserve_error :
    (b.tryReserve t client cost).1 = .error r ↔ (b.tryConsume t cost).1 = .error r := by
  unfold tryReserve
  rcases b.tryConsume t cost with ⟨_ | _, b'⟩ <;> simp

theorem tryReserve_granted :
    (∃ h, (b.tryReserve t client cost).1 = .ok h) ↔ (b.tryConsume t cost).1 = .ok () := by
  unfold tryReserve
  rcases b.tryConsume t cost with ⟨_ | _, b'⟩ <;> simp

/--
**A bucket of a minute's worth keeps its promise to whoever it can serve.**  After a refusal,
and the wait it named, the same cost is granted exactly if it is not above the capacity.
-/
theorem granted_after_wait (hb : At limit (limit / 60) b t)
    (hrefused : (b.tryReserve t client cost).1 = .error r)
    (hwait : t + Duration.fromSecs r ≤ u) :
    (∃ h, ((b.tryReserve t client cost).2.tryReserve u client cost).1 = .ok h) ↔ cost ≤ limit := by
  have hrejected := tryReserve_error.mp hrefused
  rw [tryReserve_snd, tryReserve_granted]
  constructor
  · intro hok
    have hnext : At limit (limit / 60) (b.refillLocked t) t :=
      hb.call (c := .availableTokens) (Nat.le_refl t) trivial
    rw [(tryConsume_error hrejected).2.2, tryConsume_granted] at hok
    rw [← hnext.capacity_eq]
    exact hok.trans (level_le hnext.within u)
  · intro hc
    exact hb.minuteWorth.granted_after_wait hc hrejected hwait

end TokenBucket

/-! ### The bucket of a client -/

variable {x : Crates} {st : AppState} {w w' : World} {m : GatewayMove} {l : GatewayLabel}
  {client : String}

/-- Every bucket refills at the configured rate, and was last refilled in the past. -/
def Refilling (st : AppState) (w : World) : Prop :=
  ∀ client, (w.tpm st client).refillPerSec = tpmLimit st / 60 ∧
    (w.tpm st client).lastRefill ≤ w.now

theorem Refilling.initial (start : Instant) : Refilling st (.initial start) :=
  fun _ => ⟨max_eq_left (by positivity), Nat.le_refl _⟩

theorem Refilling.env (h : Refilling st w) (d : Duration) :
    Refilling st { w with now := w.now + d } := by
  intro client
  have hlimit : 0 ≤ tpmLimit st := Nat.cast_nonneg _
  rcases World.tpm_env w d client with hold | hnew
  · rw [hold]
    exact ⟨(h client).1, (h client).2.trans (Nat.le_add_right _ _)⟩
  · rw [hnew]
    exact ⟨max_eq_left (by positivity), Nat.le_refl _⟩

theorem Refilling.move (h : Refilling st w) (hans : (gateway x st).Answers w l m w') :
    Refilling st w' := by
  intro client
  rw [answers_tpm hans, answers_now hans]
  obtain ⟨hrate, hpast⟩ := h client
  rcases onTpm_call client w.now (w.tpm st client) m with hsame | ⟨c, hcall⟩
  · rw [hsame]
    exact ⟨hrate, hpast⟩
  · rw [hcall, TokenBucket.call_refillPerSec, TokenBucket.call_lastRefill]
    exact ⟨hrate, TokenBucket.refillLocked_lastRefill_le hpast⟩

theorem Gateway.Reachable.refilling {start : Instant} {p : Gateway.State}
    (h : Gateway.Reachable x st start p) : Refilling st p.world := by
  refine Machine.Reaches.shadow (J := fun w _ _ => Refilling st w) gateway_disciplined
    (initial_conforms start) (Refilling.initial start) ?_ ?_ ?_ h
  · intro p v w _ hw hr
    obtain rfl := Option.some.inj hw
    exact hr.env v
  · intro p r hr
    exact hr
  · intro p l i g m w _ _ _ _ hans hr
    exact hr.move hans

/-- The bucket of a client in a reachable state. -/
theorem Gateway.Reachable.tpm_at {start : Instant} {p : Gateway.State}
    (h : Gateway.Reachable x st start p) (client : String) :
    TokenBucket.At (tpmLimit st) (tpmLimit st / 60) (p.world.tpm st client) p.world.now where
  within := h.solvent.within client
  capacity_eq := h.solvent.capacity client
  rate_eq := (h.refilling client).1
  past := (h.refilling client).2

/-! ### Waiting -/

/-- The client whose TPM bucket an effect is on. -/
def Effect.tpmClient : Effect → Option String
  | .tryReserveTpm client _ => some client
  | .reconcile h _ => some h.bucket
  | .dropHandle h => some h.bucket
  | _ => none

/-- The step reserves nothing from the client's bucket and settles nothing with it: no request
of the client is in flight. -/
def elsewhere (client : String) (p : Gateway.State) : GatewayLabel → Bool
  | .act i _ =>
      match p.tasks[i]? with
      | some (_, ⟨.op e _, _⟩) => e.tpmClient ≠ some client
      | _ => true
  | _ => true

theorem onTpm_elsewhere {e : Effect} (h : e.tpmClient ≠ some client) (now : Instant)
    (b : TokenBucket) (y : e.Answer) : onTpm client now b (.act e y) = b := by
  cases e with
  | tryReserveTpm c cost =>
      rw [onTpm_tryReserveTpm]
      exact if_neg fun hc => h (congrArg some hc)
  | reconcile hd cost =>
      rw [onTpm_reconcile]
      exact if_neg fun hc => h (congrArg some hc)
  | dropHandle hd =>
      rw [onTpm_dropHandle]
      exact if_neg fun hc => h (congrArg some hc)
  | _ => rfl

/-- The client has its buckets, and this is the one for tokens. -/
def Holds (st : AppState) (client : String) (b : TokenBucket) (w : World) : Prop :=
  (w.rateLimiter client).isSome ∧ w.tpm st client = b

theorem isSome_setBuckets (w : World) (c : String) (bs : RateLimitBuckets)
    (h : (w.rateLimiter client).isSome) : ((w.setBuckets c bs).rateLimiter client).isSome := by
  unfold World.setBuckets Table.insert
  by_cases hc : client = c
  · simp [hc]
  · simpa [hc] using h

/-- Buckets are never taken away. -/
theorem respond_isSome {e : Effect} {c : Choice} {y : e.Answer}
    (h : respond st w e c = some (y, w')) (hentry : (w.rateLimiter client).isSome) :
    (w'.rateLimiter client).isSome := by
  cases e with
  | await a owned => cases a <;> cases c <;> cases h <;> exact hentry
  | rpmTryConsume p cost => cases h; exact isSome_setBuckets w p _ hentry
  | tryReserveTpm p cost => cases h; exact isSome_setBuckets w p _ hentry
  | reconcile hd cost => cases h; exact isSome_setBuckets w hd.bucket _ hentry
  | dropHandle hd => cases h; exact isSome_setBuckets w hd.bucket _ hentry
  | _ => cases h; exact hentry

theorem Holds.step {p p' : Gateway.State} {b : TokenBucket} (h : Holds st client b p.world)
    (hl : elsewhere client p l = true) (hstep : (gateway x st).step p l = some p') :
    Holds st client b p'.world := by
  obtain ⟨hentry, hb⟩ := h
  obtain ⟨v, rfl, hw⟩ | ⟨i, c, r, e, k, a, y, rfl, ht, hy⟩ | hsame :=
    (gateway x st).step_world hstep
  · obtain ⟨bs, hbs⟩ := Option.isSome_iff_exists.mp hentry
    rw [← Option.some.inj hw, ← hb]
    exact ⟨hentry, by simp [World.tpm, World.bucketsFor, hbs]⟩
  · simp only [elsewhere, ht, decide_eq_true_eq] at hl
    refine ⟨respond_isSome hy hentry, ?_⟩
    rw [respond_tpm hy, hb]
    exact onTpm_elsewhere hl p.world.now b y
  · rw [hsame]
    exact ⟨hentry, hb⟩

/-- **The bucket of a client that does nothing is left alone.** -/
theorem Holds.run {p q : Gateway.State} {b : TokenBucket} (h : Holds st client b p.world)
    (hrun : (gateway x st).Reaches (fun p l => elsewhere client p l = true) p q) :
    Holds st client b q.world := by
  induction hrun with
  | refl => exact h
  | step _ hl hstep ih => exact ih.step hl hstep

/-! ### Asking again -/

/-- What a move reserves, and what it is answered. -/
def reservation : GatewayMove → Option (String × ℚ × Except Nat ReservationHandle)
  | .act (.tryReserveTpm client cost) answer => some (client, cost, answer)
  | _ => none

/-- In the step from `p` to `p'` request `i`, which is `r`, asks for tokens of the client. -/
structure Asks (x : Crates) (st : AppState) (p p' : Gateway.State) (i : Nat) (r : HttpRequest)
    (client : String) (answer : Except Nat ReservationHandle) : Prop where
  request : p.tasks[i]?.map Prod.fst = some r
  step : ∃ c, (gateway x st).step p (.act i c) = some p'
  reserved : ∃ cost, (p'.movesOf i).getLast?.bind reservation = some (client, cost, answer)

/-- Who has asked has buckets. -/
theorem answers_isSome {cost : ℚ} {answer : Except Nat ReservationHandle}
    (h : (gateway x st).Answers w l (.act (.tryReserveTpm client cost) answer) w') :
    (w'.rateLimiter client).isSome := by
  obtain ⟨c, hy⟩ := h.act
  cases hy
  simp [World.setTpm, World.setBuckets]

/-- The answer is the bucket's, to the estimate of the request. -/
theorem Asks.answers {start : Instant} {p p' : Gateway.State} {i : Nat} {r : HttpRequest}
    {answer : Except Nat ReservationHandle} (hp : Gateway.Reachable x st start p)
    (h : Asks x st p p' i r client answer) : ∃ cost, r.call.estimate = some cost ∧
      answer = ((p.world.tpm st client).tryReserve p.world.now client cost).1 ∧
      p'.world.now = p.world.now ∧
      Holds st client ((p.world.tpm st client).tryReserve p.world.now client cost).2
        p'.world := by
  obtain ⟨c, hstep⟩ := h.step
  obtain ⟨⟨r', t⟩, ht, rfl⟩ := Option.map_eq_some_iff.mp h.request
  obtain ⟨v, hl, -⟩ | ⟨v, hl, -⟩ | ⟨j, g, m, hj, -, hg, hm, hans, -, hlog⟩ :=
    Machine.step_shadow gateway_disciplined hp.conforms hstep
  · cases hl
  · cases hl
  · obtain rfl := Option.some.inj hj
    obtain ⟨cost, hreserved⟩ := h.reserved
    have hmoves : p'.movesOf i = p.movesOf i ++ [m] := by
      simp [Pool.movesOf, hlog]
    rw [hmoves, List.getLast?_concat, Option.bind_some] at hreserved
    have hmove : m = .act (.tryReserveTpm client cost) answer := by
      unfold reservation at hreserved
      split at hreserved
      · simp only [Option.some.injEq, Prod.mk.injEq] at hreserved
        obtain ⟨rfl, rfl, rfl⟩ := hreserved
        rfl
      · cases hreserved
    subst hmove
    have hghost := Pool.getElem?_ghosts (discipline x) Ghost.start ht
    rw [hg, Option.some.injEq] at hghost
    have hestimate := hm.2.2
    rw [hghost, run_request] at hestimate
    refine ⟨cost, hestimate, answers_tryReserveTpm hans, answers_now hans, ?_, ?_⟩
    · exact answers_isSome hans
    · rw [answers_tpm hans, onTpm_tryReserveTpm, if_pos rfl]

/--
**A refused reservation is told the truth exactly if it can be granted at all.**  Request `i`
is refused and told to wait `retryAfter` seconds; nothing is done with the client's tokens
until they have passed; the same call asks again.  It is granted if and only if it reserves no
more than the configured tokens of a minute.
-/
theorem retry_honest_iff {start : Instant} {p p' q q' : Gateway.State} {i j : Nat}
    {r r' : HttpRequest} {retryAfter : Nat} {answer : Except Nat ReservationHandle}
    (hp : Gateway.Reachable x st start p)
    (hrefused : Asks x st p p' i r client (.error retryAfter))
    (hquiet : (gateway x st).Reaches (fun p l => elsewhere client p l = true) p' q)
    (hwait : p.world.now + Duration.fromSecs retryAfter ≤ q.world.now)
    (hsame : r'.call = r.call) (hagain : Asks x st q q' j r' client answer) :
    (∃ h, answer = .ok h) ↔ ∃ cost, r.call.estimate = some cost ∧ cost ≤ tpmLimit st := by
  obtain ⟨c, hstep⟩ := hrefused.step
  have hq : Gateway.Reachable x st start q :=
    hp.trans (Machine.Reaches.trans (.step .refl trivial hstep)
      (hquiet.mono fun _ _ _ => trivial))
  obtain ⟨cost, hcost, herror, hnow, hholds⟩ := hrefused.answers hp
  obtain ⟨cost', hcost', hanswer, -, -⟩ := hagain.answers hq
  obtain rfl : cost = cost' := by
    rw [hsame, hcost] at hcost'
    exact Option.some.inj hcost'
  have hiff := TokenBucket.granted_after_wait (hp.tpm_at client) herror.symm hwait
  rw [hanswer, (hholds.run hquiet).2, hiff]
  constructor
  · intro hle
    exact ⟨cost, hcost, hle⟩
  · rintro ⟨cost', hcost', hle⟩
    obtain rfl := Option.some.inj (hcost.symm.trans hcost')
    exact hle

/-! A client asks, is refused, waits as long as it was told, and asks again. -/

section Waiting

/-- A document that reports sixty tokens, and the digest of the one key. -/
def waitingCrates : Crates := .table [smallKey] [(usageText 40 20, usageValue 40 20)]

/-- A gateway with a hundred tokens a minute. -/
def waitingGateway : AppState := smallGateway waitingCrates ⟨1, 10, 1⟩ 100

variable (before : List GatewayLabel) (i : Nat) (tokens : UInt32)

/-- Request `i` is about to ask for tokens. -/
def asking : Gateway.State :=
  (Gateway.replay waitingCrates waitingGateway anyStep unobserved
    (before ++ [.spawn (smallChat false tokens), goes i])).1

/-- It has asked. -/
def asked (p : Gateway.State) : Gateway.State :=
  ((gateway waitingCrates waitingGateway).step p (goes i)).getD p

/-- After `seconds` the next request is about to ask for the same. -/
def waiting (seconds : Nat) : Gateway.State :=
  ((gateway waitingCrates waitingGateway).replay (discipline waitingCrates) Ghost.start
    (elsewhere "c") unobserved (asked i (asking before i tokens))
    [goes i, .env (Duration.fromSecs seconds), .spawn (smallChat false tokens), goes (i + 1)]).1

variable {before i tokens}

/-- What there is to check of a request that asks. -/
theorem asks_of_asked {p : Gateway.State} {r : HttpRequest} (cost : ℚ)
    {answer : Except Nat ReservationHandle} (hrequest : p.tasks[i]?.map Prod.fst = some r)
    (hstep : ((gateway waitingCrates waitingGateway).step p (goes i)).isSome = true)
    (hreserved : ((asked i p).movesOf i).getLast?.bind reservation = some ("c", cost, answer)) :
    Asks waitingCrates waitingGateway p (asked i p) i r "c" answer := by
  refine ⟨hrequest, ⟨.none, ?_⟩, cost, hreserved⟩
  obtain ⟨p', hp'⟩ := Option.isSome_iff_exists.mp hstep
  unfold asked
  rw [hp']
  exact hp'

theorem asking_reachable :
    Gateway.Reachable waitingCrates waitingGateway 0 (asking before i tokens) :=
  Gateway.replay_reachable _ _ _

theorem waiting_quiet (seconds : Nat) :
    (gateway waitingCrates waitingGateway).Reaches (fun p l => elsewhere "c" p l = true)
      (asked i (asking before i tokens)) (waiting before i tokens seconds) :=
  Machine.Observed.reaches (Machine.replay_observed _ _)

end Waiting

/-- A client with a hundred tokens a minute asks for a hundred and one; it is told to come back
after a second, and then told the same again. -/
theorem oversized_refused :
    waitingGateway.config.validate = .ok () ∧
      Gateway.Reachable waitingCrates waitingGateway 0 (asking [] 0 101) ∧
      Asks waitingCrates waitingGateway (asking [] 0 101) (asked 0 (asking [] 0 101)) 0
        (smallChat false 101) "c" (.error 1) ∧
      (gateway waitingCrates waitingGateway).Reaches (fun p l => elsewhere "c" p l = true)
        (asked 0 (asking [] 0 101)) (waiting [] 0 101 1) ∧
      (asking [] 0 101).world.now + Duration.fromSecs 1 ≤ (waiting [] 0 101 1).world.now ∧
      Asks waitingCrates waitingGateway (waiting [] 0 101 1) (asked 1 (waiting [] 0 101 1)) 1
        (smallChat false 101) "c" (.error 1) :=
  ⟨by decide, asking_reachable,
    asks_of_asked 101 rfl (by decide +kernel) (by decide +kernel), waiting_quiet 1,
    by decide +kernel,
    asks_of_asked 101 (by with_unfolding_all rfl) (by decide +kernel)
      (by decide +kernel)⟩

/-- A first request that uses sixty tokens. -/
def firstSixty : List GatewayLabel :=
  [.spawn (smallChat false 60), goes 0, goes 0, .act 0 (.cached false), goes 0, goes 0, goes 0,
    answers 0, goes 0, goes 0, goes 0, .act 0 (.read (.ok (asBytes (usageText 40 20)))), goes 0,
    goes 0, goes 0, goes 0, goes 0]

/-- After that seventy are refused; they are there when they were promised. -/
theorem retry_honest_iff_seventy :
    ∃ answer, Asks waitingCrates waitingGateway (waiting firstSixty 1 70 18)
      (asked 2 (waiting firstSixty 1 70 18)) 2 (smallChat false 70) "c" answer ∧
      ∃ h, answer = .ok h := by
  have hrefused : Asks waitingCrates waitingGateway (asking firstSixty 1 70)
      (asked 1 (asking firstSixty 1 70)) 1 (smallChat false 70) "c" (.error 18) :=
    asks_of_asked 70 (by with_unfolding_all rfl) (by decide +kernel) (by decide +kernel)
  have hagain : Asks waitingCrates waitingGateway (waiting firstSixty 1 70 18)
      (asked 2 (waiting firstSixty 1 70 18)) 2 (smallChat false 70) "c" (.ok ⟨"c", 70, false⟩) :=
    asks_of_asked 70 (by with_unfolding_all rfl) (by decide +kernel) (by decide +kernel)
  have hwait : (asking firstSixty 1 70).world.now + Duration.fromSecs 18
      ≤ (waiting firstSixty 1 70 18).world.now := by decide +kernel
  exact ⟨_, hagain, (retry_honest_iff asking_reachable hrefused (waiting_quiet 18) hwait rfl
    hagain).mpr ⟨70, by decide +kernel, by decide +kernel⟩⟩

end LlmGateway
