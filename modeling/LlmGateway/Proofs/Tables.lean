/-
The entries of the shared maps.

An effect reaches one breaker or the buckets of one client, `Effect.breaker` and
`Effect.client`.  What a request reaches so is settled by `mediation`: breakers of configured
providers, and the buckets of the client it was identified as.  So the maps never grow beyond
the configuration, whatever is sent to the gateway, and one client's buckets are out of the
reach of all others.
-/
import LlmGateway.Proofs.Mediation

namespace LlmGateway

open Effects

variable {x : Crates} {st : AppState} {w w' : World} {m : GatewayMove} {l : GatewayLabel}

/-! ### What an effect reaches -/

/-- The breaker an effect is on. -/
def Effect.breaker : Effect → Option String
  | .isEligible p => some p
  | .allowRequest p => some p
  | .recordSuccess p => some p
  | .recordFailure p => some p
  | _ => none

/-- The client whose buckets an effect is on. -/
def Effect.client : Effect → Option String
  | .rpmTryConsume c _ => some c
  | .tryReserveTpm c _ => some c
  | .reconcile h _ => some h.bucket
  | .dropHandle h => some h.bucket
  | _ => none

section Respond

variable {e : Effect} {c : Choice} {y : e.Answer}

/-- Only the breaker an effect is on can change. -/
theorem respond_circuitBreakers (h : respond st w e c = some (y, w')) {name : String}
    (hname : e.breaker ≠ some name) : w'.circuitBreakers name = w.circuitBreakers name := by
  have hother : ∀ (p : String) (call : BreakerCall), p ≠ name →
      (w.callBreaker st p call).2.circuitBreakers name = w.circuitBreakers name := by
    intro p call hp
    exact Table.insert_ne _ (Ne.symm hp) _
  have hne : ∀ p, e.breaker = some p → p ≠ name := by
    intro p hp heq
    exact hname (heq ▸ hp)
  cases e with
  | await a owned => cases a <;> cases c <;> cases h <;> rfl
  | isEligible p => cases h; exact hother p .isEligible (hne p rfl)
  | allowRequest p => cases h; exact hother p .allowRequest (hne p rfl)
  | recordSuccess p => cases h; exact hother p .recordSuccess (hne p rfl)
  | recordFailure p => cases h; exact hother p .recordFailure (hne p rfl)
  | _ => cases h; rfl

/-- Only the buckets of the client an effect is on can change. -/
theorem respond_rateLimiter (h : respond st w e c = some (y, w')) {client : String}
    (hclient : e.client ≠ some client) : w'.rateLimiter client = w.rateLimiter client := by
  have hother : ∀ (d : String) (b : RateLimitBuckets), e.client = some d →
      (w.setBuckets d b).rateLimiter client = w.rateLimiter client := by
    intro d b hd
    refine Table.insert_ne _ ?_ _
    intro heq
    exact hclient (heq ▸ hd)
  cases e with
  | await a owned => cases a <;> cases c <;> cases h <;> rfl
  | rpmTryConsume d cost => cases h; exact hother d _ rfl
  | tryReserveTpm d cost => cases h; exact hother d _ rfl
  | reconcile hd cost => cases h; exact hother hd.bucket _ rfl
  | dropHandle hd => cases h; exact hother hd.bucket _ rfl
  | _ => cases h; rfl

end Respond

/-! ### What a request reaches -/

/-- A request only calls breakers of configured providers. -/
theorem Bearer.May.breaker {g : Bearer} {e : Effect} {name : String} (h : g.May st e)
    (hname : e.breaker = some name) : Configured st name := by
  unfold May at h
  cases hplace : g.place with
  | arrived =>
      rw [hplace] at h
      obtain ⟨identity, -, rfl⟩ := h
      cases hname
  | admitted =>
      rw [hplace] at h
      obtain ⟨identity, cost, -, -, rfl⟩ := h
      cases hname
  | refused retryAfter =>
      rw [hplace] at h
      obtain ⟨m, rfl⟩ := h
      cases hname
  | reserved hd =>
      rw [hplace] at h
      cases e with
      | isEligible p => cases hname; exact h
      | allowRequest p => cases hname; exact h
      | recordSuccess p => cases hname; exact h
      | recordFailure p => cases hname; exact h
      | _ => cases hname

/-- A request only touches the buckets it asks in its own name, and those of its reservation. -/
theorem Bearer.May.client {g : Bearer} {e : Effect} {client : String} (h : g.May st e)
    (hclient : e.client = some client) :
    (∃ identity, g.identity = some identity ∧ identity.clientId = client) ∨
      ∃ hd, g.place = .reserved hd ∧ hd.bucket = client := by
  unfold May at h
  cases hplace : g.place with
  | arrived =>
      rw [hplace] at h
      obtain ⟨identity, hid, rfl⟩ := h
      exact Or.inl ⟨identity, hid, Option.some.inj hclient⟩
  | admitted =>
      rw [hplace] at h
      obtain ⟨identity, cost, hid, -, rfl⟩ := h
      exact Or.inl ⟨identity, hid, Option.some.inj hclient⟩
  | refused retryAfter =>
      rw [hplace] at h
      obtain ⟨m, rfl⟩ := h
      cases hclient
  | reserved hd =>
      rw [hplace] at h
      refine Or.inr ⟨hd, rfl, ?_⟩
      cases e with
      | rpmTryConsume c cost => exact h.elim
      | tryReserveTpm c cost => exact h.elim
      | reconcile hd' cost =>
          obtain rfl : hd' = hd := h
          exact Option.some.inj hclient
      | dropHandle hd' =>
          obtain rfl : hd' = hd := h
          exact Option.some.inj hclient
      | _ => cases hclient

section Runs

variable {start : Instant} {p p' q : Gateway.State}

/-- A step that changes a breaker is on that of a configured provider. -/
theorem Gateway.Reachable.step_breakers (h : Gateway.Reachable x st start p)
    (hstep : (gateway x st).step p l = some p') {name : String}
    (hchanged : p'.world.circuitBreakers name ≠ p.world.circuitBreakers name) :
    Configured st name := by
  obtain ⟨v, w, -, hw, rfl⟩ | ⟨r, -, rfl⟩ | ⟨i, r, t, t', m, w, -, hi, hm, hans, rfl⟩ :=
    (gateway x st).step_cases hstep
  · obtain rfl := Option.some.inj hw
    exact absurd rfl hchanged
  · exact absurd rfl hchanged
  · obtain ⟨j, c, e, y, -, rfl, hy⟩ | ⟨hsame, -⟩ := hans.cases
    · have hmay : Bearer.May st _ e := (hm.follows gateway_mediated_closed (h.mediated hi).2).1
      have hbreaker : e.breaker = some name := by
        by_contra hne
        exact hchanged (respond_circuitBreakers hy hne)
      exact hmay.breaker hbreaker
    · exact absurd (congrArg (fun w => w.circuitBreakers name) hsame) hchanged

/-- A step that changes a client's buckets is by a request of this client. -/
theorem Gateway.Reachable.step_buckets (h : Gateway.Reachable x st start p)
    (hstep : (gateway x st).step p l = some p') {client : String}
    (hchanged : p'.world.rateLimiter client ≠ p.world.rateLimiter client) :
    ∃ i r t identity, Machine.taskOf l = some i ∧ p.tasks[i]? = some (r, t) ∧
      identified x st r.authorization = some identity ∧ identity.clientId = client := by
  obtain ⟨v, w, -, hw, rfl⟩ | ⟨r, -, rfl⟩ | ⟨i, r, t, t', m, w, hl, hi, hm, hans, rfl⟩ :=
    (gateway x st).step_cases hstep
  · obtain rfl := Option.some.inj hw
    exact absurd rfl hchanged
  · exact absurd rfl hchanged
  · obtain ⟨j, c, e, y, -, rfl, hy⟩ | ⟨hsame, -⟩ := hans.cases
    · have hmay : Bearer.May st _ e := (hm.follows gateway_mediated_closed (h.mediated hi).2).1
      have hclient : e.client = some client := by
        by_contra hne
        exact hchanged (respond_rateLimiter hy hne)
      refine ⟨i, r, t, ?_⟩
      rcases hmay.client hclient with ⟨identity, hid, hsame⟩ | ⟨hd, hplace, hbucket⟩
      · rw [(Bearer.run_eq _ _ _).2] at hid
        exact ⟨identity, hl, hi, hid, hsame⟩
      · obtain ⟨identity, cost, hid, -, rfl, -⟩ :=
          h.reserved_eq hi (List.append_nil _).symm hplace
        exact ⟨identity, hl, hi, hid, hbucket⟩
    · exact absurd (congrArg (fun w => w.rateLimiter client) hsame) hchanged

/-- The step is not one of a request of this client. -/
def NotBy (x : Crates) (st : AppState) (client : String) (p : Gateway.State) (l : GatewayLabel) :
    Prop :=
  ∀ i r t identity, Machine.taskOf l = some i → p.tasks[i]? = some (r, t) →
    identified x st r.authorization = some identity → identity.clientId ≠ client

/--
**Clients cannot touch each other's limits.**  From any reachable state on, as long as no request
of a client takes a step, its two buckets stay exactly as they are, whatever the requests of all
others do and however many arrive.
-/
theorem buckets_isolated {client : String} (h : Gateway.Reachable x st start p)
    (h' : (gateway x st).Reaches (NotBy x st client) p q) :
    q.world.rateLimiter client = p.world.rateLimiter client := by
  induction h' with
  | refl => rfl
  | @step q q' l hrun hok hstep ih =>
      rw [← ih]
      by_contra hchanged
      obtain ⟨i, r, t, identity, hl, hi, hid, hclient⟩ :=
        (h.trans hrun).step_buckets hstep hchanged
      exact hok i r t identity hl hi hid hclient

/-- `NotBy`, decided. -/
def notBy (x : Crates) (st : AppState) (client : String) (p : Gateway.State) (l : GatewayLabel) :
    Bool :=
  ((Machine.taskOf l).bind fun i => p.tasks[i]?).all fun t =>
    (identified x st t.1.authorization).all fun identity => identity.clientId ≠ client

theorem notBy_sound {client : String} (p : Gateway.State) (l : GatewayLabel)
    (h : notBy x st client p l = true) : NotBy x st client p l := by
  intro i r t identity hl hi hid
  simp only [notBy, hl, Option.bind_some, hi, Option.all_some, hid] at h
  exact of_decide_eq_true h

/-- The digests of two keys. -/
def sharedCrates : Crates :=
  .table [smallKey,
    (asBytes "k2", "015f7e6bc5aeaf483724089e9252cc13b50951a6b69412522765cff4d780306e")] []

/-- A gateway with two clients. -/
def sharedGateway : AppState :=
  .new sharedCrates { (smallGateway sharedCrates ⟨1, 10, 1⟩ 100).config with
    credentials := [{ key := "k", clientId := "c", tier := "free" },
      { key := "k2", clientId := "d", tier := "free" }] }

/-- One client has been granted a request. -/
def firstClient : Gateway.State :=
  (Gateway.replay sharedCrates sharedGateway anyStep unobserved
    [.spawn (smallChat false 10), goes 0]).1

/-- The other one goes on until its reservation is granted. -/
def otherClient : Gateway.State :=
  ((gateway sharedCrates sharedGateway).replay (discipline sharedCrates) Ghost.start
    (notBy sharedCrates sharedGateway "c") unobserved firstClient
    [.spawn { smallChat false 10 with authorization := some (asBytes "Bearer k2") }, goes 1,
      goes 1]).1

/-- The buckets of the first are as it left them. -/
theorem buckets_isolated_two :
    (otherClient.world.rateLimiter "d").map (fun b => (b.rpm.tokens, b.tpm.tokens))
        = some (59, 90) ∧
      (firstClient.world.rateLimiter "c").map (fun b => b.rpm.tokens) = some 59 ∧
      otherClient.world.rateLimiter "c" = firstClient.world.rateLimiter "c" := by
  refine ⟨by decide +kernel, by decide +kernel, ?_⟩
  exact buckets_isolated (Gateway.replay_reachable anyStep unobserved _)
    ((Machine.Observed.reaches (Machine.replay_observed _ _)).mono notBy_sound)

/-- What is in the table of credentials was configured. -/
theorem credentialTable_some {creds : List ClientCredential} {digest : String}
    {identity : ClientIdentity} (h : credentialTable x creds digest = some identity) :
    ∃ c ∈ creds, c.identity = identity := by
  induction creds using List.reverseRecOn with
  | nil => cases h
  | append_singleton creds c ih =>
      have hsnoc : credentialTable x (creds ++ [c])
          = (credentialTable x creds).insert (x.sha256Hex (asBytes c.key)) c.identity := by
        simp [credentialTable, ClientCredential.identity]
      rw [hsnoc] at h
      by_cases hdigest : digest = x.sha256Hex (asBytes c.key)
      · rw [hdigest, Table.insert_self] at h
        exact ⟨c, by simp, Option.some.inj h⟩
      · rw [Table.insert_ne _ hdigest] at h
        obtain ⟨c', hc', heq⟩ := ih h
        exact ⟨c', List.mem_append_left _ hc', heq⟩

/-- A known key is that of a configured credential. -/
theorem credential_of_identified {config : AppConfig} {authorization : Option (List UInt8)}
    {identity : ClientIdentity}
    (h : identified x (.new x config) authorization = some identity) :
    ∃ c ∈ config.credentials, c.identity = identity := by
  obtain ⟨key, -, hlookup⟩ := Option.bind_eq_some_iff.mp h
  exact credentialTable_some hlookup

/--
**The shared maps stay within the configuration.**  In every reachable state, whatever clients
have sent: each breaker there is belongs to a configured provider, and each pair of buckets to
the client of a configured credential.
-/
theorem tables_bounded {config : AppConfig} (h : Gateway.Reachable x (.new x config) start p) :
    (∀ name, p.world.circuitBreakers name ≠ none → ∃ q ∈ config.providers, q.name = name) ∧
      ∀ client, p.world.rateLimiter client ≠ none →
        ∃ c ∈ config.credentials, c.clientId = client := by
  unfold Gateway.Reachable at h
  induction h with
  | refl => exact ⟨fun name hname => absurd rfl hname, fun client hclient => absurd rfl hclient⟩
  | @step p p' l hrun _ hstep ih =>
      obtain ⟨hbreakers, hbuckets⟩ := ih
      have hreach : Gateway.Reachable x (.new x config) start p := hrun
      refine ⟨fun name hname => ?_, fun client hclient => ?_⟩
      · by_cases hsame : p'.world.circuitBreakers name = p.world.circuitBreakers name
        · exact hbreakers name (hsame ▸ hname)
        · obtain ⟨q, hq, hqname⟩ := hreach.step_breakers hstep hsame
          exact ⟨q, (List.perm_insertionSort _ _).mem_iff.mp hq, hqname⟩
      · by_cases hsame : p'.world.rateLimiter client = p.world.rateLimiter client
        · exact hbuckets client (hsame ▸ hclient)
        · obtain ⟨i, r, t, identity, -, -, hid, hidclient⟩ := hreach.step_buckets hstep hsame
          obtain ⟨c, hc, rfl⟩ := credential_of_identified hid
          exact ⟨c, hc, hidclient⟩

/-- The buckets of the second client stand for its credential. -/
theorem tables_bounded_two :
    (∃ c ∈ sharedGateway.config.credentials, c.clientId = "d") ∧
      otherClient.world.rateLimiter "d" ≠ none := by
  have hentry : (otherClient.world.rateLimiter "d").isSome = true := by decide +kernel
  have hsome : otherClient.world.rateLimiter "d" ≠ none := by
    intro hnone
    rw [hnone] at hentry
    cases hentry
  have hreach : Gateway.Reachable sharedCrates sharedGateway 0 otherClient :=
    Gateway.Reachable.trans (Gateway.replay_reachable anyStep unobserved _)
      (Machine.Observed.reaches (Machine.replay_observed _ _))
  exact ⟨(tables_bounded hreach).2 "d" hsome, hsome⟩

end Runs

end LlmGateway
