/-
How often a request is observed in the latency histogram.

`trace_middleware` observes every request once, when its response comes back.  The handlers
observe a request once more where they serve it: from the cache, with a body they have
read, or by opening a stream.  `served` marks the answer that decides this, so that the
handlers keep the two tallies even and the middleware puts one ahead.
-/
import LlmGateway.Proofs.Cardinality
import LlmGateway.Proofs.Parity

namespace LlmGateway

open Effects

/-- An observation in the histogram of end-to-end latencies. -/
def observesLatency : GatewayMove → Bool
  | .act (.metric m) _ => m == .recordRequestLatency
  | _ => false

/-- The answer a handler serves a request with: a cached text, a body, or for a request that
streams a status that is neither retried nor rejected. -/
def served (streams : Bool) : GatewayMove → Bool
  | .act (.await (.cacheGet _) _) answer => answer.isSome
  | .act (.await (.bytes _) _) answer => answer.isOk
  | .act (.await (.send _ _) _) (.ok s) =>
      streams && !isRetryableUpstreamStatus s && !isNonRetryableClientError s
  | _ => false

/-- The observations, and the answers a request is served with. -/
def tallies (streams : Bool) : Protocol gatewaySig StreamItem (Nat × Nat) :=
  Prog.tally observesLatency (served streams)

/-- As many more observations as servings. -/
def InStep (g g' : Nat × Nat) : Prop := g'.1 + g.2 = g.1 + g'.2

section Handlers

variable {x : Crates} {st : AppState} {call : ApiCall} {streams : Bool} {g g₀ : Nat × Nat}
  {hd : ReservationHandle}

/-- Neither an observation nor an answer a request is served with. -/
def Untallied (streams : Bool) (e : Effect) : Prop :=
  ∀ y : e.Answer, observesLatency (.act e y) = false ∧ served streams (.act e y) = false

theorem Untallied.next {e : Effect} (h : Untallied streams e) (g : Nat × Nat) (y : e.Answer) :
    (tallies streams).next g (.act e y) = g := by
  obtain ⟨hobserves, hserved⟩ := h y
  simp [tallies, Prog.tally, hobserves, hserved]

/-- Settling a request is no observation. -/
theorem Billing.untallied {provider : String} (e : Effect) (h : Billing provider e) :
    Untallied streams e := by
  intro y
  cases e with
  | metric m =>
      obtain ⟨kind, n, -, rfl⟩ := h
      exact ⟨rfl, rfl⟩
  | reconcile hd cost => exact ⟨rfl, rfl⟩
  | dropHandle hd => exact ⟨rfl, rfl⟩
  | await a owned =>
      cases a with
      | cacheInsert key v => exact ⟨rfl, rfl⟩
      | _ => exact absurd h id
  | _ => exact absurd h id

theorem untallied_recordUpstreamLatency (p : String) :
    Untallied streams (.metric (.recordUpstreamLatency p)) := by
  intro y
  simp [observesLatency, served, Metric.recordUpstreamLatency, Metric.recordRequestLatency]

/-- An outcome is a counter. -/
theorem untallied_outcome (p : String) (answer : Except String StatusCode) :
    Untallied streams (.metric (call.outcome p answer)) := by
  intro y
  cases hreception : call.receive answer with
  | failed =>
      obtain ⟨error, -, hcounted⟩ := outcome_failed hreception p
      rw [hcounted]
      exact ⟨rfl, rfl⟩
  | rejected s =>
      rw [outcome_rejected hreception]
      exact ⟨rfl, rfl⟩
  | usable =>
      rw [outcome_usable hreception]
      exact ⟨rfl, rfl⟩

theorem does_untallied {es : List Effect} (hes : ∀ e ∈ es, Untallied streams e) :
    (tallies streams).Does es g fun g' => g' = g := by
  refine Protocol.does_of_forall (J := fun g' => g' = g) ?_ rfl
  rintro e he g' rfl
  exact ⟨trivial, fun y => (hes e he).next g' y⟩

/-- The tallies are kept even from juncture to juncture. -/
theorem even_retry {J : Juncture → Nat × Nat → Prop} (hJ : ∀ juncture, J juncture g)
    (lastError : Option String) (cands : List ProviderConfig) :
    (tallies streams).Meets J (retry lastError hd cands) g := by
  cases cands with
  | nil => exact ⟨trivial, fun _ => ⟨trivial, fun _ => hJ _⟩⟩
  | cons p rest => exact hJ _

theorem even_choose {J : Juncture → Nat × Nat → Prop} (hJ : ∀ juncture, J juncture g)
    (chosen todo : List ProviderConfig) :
    (tallies streams).Meets J (call.choose hd chosen todo) g := by
  cases todo with
  | cons p todo => exact hJ _
  | nil =>
      cases chosen with
      | nil => exact ⟨trivial, fun _ => ⟨trivial, fun _ => hJ _⟩⟩
      | cons p rest => exact hJ _

/-- An answer with which a request does not go on counts for nothing. -/
theorem tallies_unserved {name : String} {out : OutboundRequest}
    {owned : Option ReservationHandle} {answer : Except String StatusCode}
    (h : call.receive answer ≠ .usable) :
    (tallies call.streams).next g (.act (.await (.send name out) owned) answer) = g := by
  have hnot : served call.streams (.act (.await (.send name out) owned) answer) = false := by
    cases answer with
    | error e => rfl
    | ok s =>
        by_cases hretry : isRetryableUpstreamStatus s = true
        · simp [served, hretry]
        by_cases hclient : isNonRetryableClientError s = true
        · simp [served, hclient]
        cases call with
        | chat payload => simp [ApiCall.receive, hretry, hclient] at h
        | embeddings payload => simp [served, ApiCall.streams]
  simp [tallies, Prog.tally, observesLatency, hnot]

/-- A status from which a streaming request goes on is a serving answer by itself; it is
observed at once. -/
theorem even_answered {p : ProviderConfig} (rest : List ProviderConfig)
    (answer : Except String StatusCode) (out : OutboundRequest) (owned : Option ReservationHandle)
    (h : InStep g₀ g) :
    (tallies call.streams).Meets (fun _ => InStep g₀) (call.answered x p rest hd answer)
      ((tallies call.streams).next g (.act (.await (.send p.name out) owned) answer)) := by
  have hcounted : Untallied call.streams (.metric (call.outcome p.name answer)) :=
    untallied_outcome p.name answer
  have hupstream : Untallied call.streams (.metric (.recordUpstreamLatency p.name)) :=
    untallied_recordUpstreamLatency p.name
  unfold ApiCall.answered
  cases hreception : call.receive answer with
  | failed =>
      rw [tallies_unserved (by simp [hreception])]
      refine ⟨trivial, fun _ => ⟨trivial, fun u => ?_⟩⟩
      rw [hcounted.next]
      exact even_retry (fun _ => h) _ _
  | rejected s =>
      rw [tallies_unserved (by simp [hreception])]
      refine ⟨trivial, fun _ => ⟨trivial, fun u => ⟨trivial, fun _ => ?_⟩⟩⟩
      rw [hcounted.next]
      exact h
  | usable =>
      obtain ⟨s, rfl, hretry, hclient⟩ := receive_usable hreception
      have hserved : (tallies call.streams).next g (.act (.await (.send p.name out) owned) (.ok s))
          = (g.1, g.2 + call.streams.toNat) := by
        simp [tallies, Prog.tally, observesLatency, served, hretry, hclient]
      rw [hserved]
      refine ⟨trivial, fun _ => ⟨trivial, fun u => ⟨trivial, fun u' => ?_⟩⟩⟩
      rw [hcounted.next, hupstream.next]
      unfold InStep at h
      show (tallies call.streams).Meets (fun _ => InStep g₀) (if call.streams then _ else _ : Due)
        (g.1, g.2 + call.streams.toNat)
      cases call.streams with
      | false => exact h
      | true =>
          refine ⟨trivial, fun _ => ?_⟩
          show g.1 + 1 + g₀.2 = g₀.1 + (g.2 + 1)
          omega

theorem even_upholds {identity : ClientIdentity} :
    (script x st identity call).Upholds (tallies call.streams) (Juncture.Known x st call)
      fun _ => InStep g₀ := by
  intro juncture g e _ hg hasks
  refine ⟨trivial, fun answer => ?_⟩
  cases juncture with
  | admitted =>
      obtain ⟨cost, -, rfl⟩ := hasks
      cases answer with
      | error retryAfter => exact ⟨trivial, fun _ => hg⟩
      | ok hd =>
          show (tallies call.streams).Meets _ (call.reserved x st hd) g
          unfold ApiCall.reserved
          cases call.written x with
          | error e => exact ⟨trivial, fun _ => hg⟩
          | ok body =>
              cases call.key x with
              | some key => exact hg
              | none => exact even_choose (fun _ => hg) [] _
  | looking key hd =>
      obtain rfl := hasks
      cases answer with
      | none => exact ⟨trivial, fun _ => even_choose (fun _ => hg) [] _⟩
      | some text =>
          unfold InStep at hg
          refine ⟨trivial, fun _ => ⟨trivial, fun _ => ⟨trivial, fun _ => ?_⟩⟩⟩
          have heven : g.1 + 1 + g₀.2 = g₀.1 + (g.2 + 1) := by omega
          cases call.model with
          | none => exact heven
          | some model => exact ⟨trivial, fun _ => heven⟩
  | choosing chosen p todo hd =>
      obtain rfl := hasks
      exact even_choose (fun _ => hg) _ todo
  | trying p rest lastError hd =>
      obtain rfl := hasks
      cases answer with
      | true => exact hg
      | false => exact even_retry (fun _ => hg) lastError rest
  | cleared p rest hd =>
      obtain ⟨body, -, rfl⟩ := hasks
      exact even_answered rest answer _ _ hg
  | reading p rest hd =>
      obtain rfl := hasks
      cases answer with
      | error e =>
          cases call with
          | chat payload =>
              exact ⟨trivial, fun _ => ⟨trivial, fun _ => even_retry (fun _ => hg) _ _⟩⟩
          | embeddings payload =>
              exact ⟨trivial, fun _ => ⟨trivial, fun _ => ⟨trivial, fun _ => hg⟩⟩⟩
      | ok body =>
          obtain ⟨before, after, htodo, hbefore, hafter⟩ := bodyRead_todo x call p hd body
          unfold InStep at hg
          show (tallies call.streams).Does (call.bodyRead x p hd body).todo (g.1, g.2 + 1) _
          rw [htodo, Protocol.does_append]
          refine (does_untallied fun e he => (hbefore e he).untallied).mono ?_
          rintro g' rfl
          refine ⟨trivial, fun _ => ?_⟩
          refine (does_untallied fun e he => (hafter e he).untallied).mono ?_
          rintro g' rfl
          show g.1 + 1 + g₀.2 = g₀.1 + (g.2 + 1)
          omega
  | finished result => exact hasks.elim

theorem wp_serve_tallies (req : HttpRequest) :
    (serve x st req).wp (tallies req.call.streams) g fun _ g' => InStep g g' := by
  refine wp_serve_of (fun _ => rfl) (fun _ _ => trivial) (fun _ _ _ => ⟨trivial, fun _ => rfl⟩)
    fun identity _ => ?_
  exact wp_handler_upholds even_upholds rfl

/-- The middleware observes the request once more. -/
theorem wp_traced_tallies (req : TracedRequest) :
    (traced x st req).wp (tallies req.request.call.streams) g
      fun _ g' => g'.1 + g.2 = g.1 + g'.2 + 1 := by
  refine Prog.wp_call (wp_serve_tallies req.request) fun r g' hg' => ⟨trivial, fun _ => ?_⟩
  unfold InStep at hg'
  show g'.1 + 1 + g.2 = g.1 + g'.2 + 1
  omega

end Handlers

/-- From its arrival to its response a request is observed once, and once more for each
answer it is served with. -/
theorem latency_count {x : Crates} {st : AppState} {req : TracedRequest} {ms : List GatewayMove}
    {r : Response BodyStream} (h : (traced x st req).Runs ms (.ret r)) :
    ms.countP observesLatency = ms.countP (served req.request.call.streams) + 1 := by
  have hkeeps := h.keeps (J := fun _ => True) (wp_traced_tallies (g := (0, 0)) req)
    (fun _ _ _ _ _ => trivial) trivial
  have hcount := hkeeps.2
  unfold tallies at hcount
  rw [Prog.run_tally] at hcount
  simp only [Prog.wp_ret] at hcount
  omega

/--
**A request is observed once exactly if no handler serves it.**  The run is one of the
request through all layers, from its arrival to its response, on whatever answers.
-/
theorem latency_once_iff {x : Crates} {st : AppState} {req : TracedRequest}
    {ms : List GatewayMove} {r : Response BodyStream}
    (h : (traced x st req).Runs ms (.ret r)) :
    ms.countP observesLatency = 1 ↔ ∀ m ∈ ms, served req.request.call.streams m = false := by
  have hnone : ms.countP (served req.request.call.streams) = 0 ↔
      ∀ m ∈ ms, served req.request.call.streams m = false := by
    simp only [List.countP_eq_zero, Bool.not_eq_true]
  rw [← hnone, latency_count h]
  omega

/-! ### A request that is served, and one that is refused -/

/-- What a traced request does under these circumstances, and its response. -/
def tracedAlone (c : Circumstances) (st : AppState) (req : TracedRequest) :
    List GatewayMove × Response BodyStream :=
  let (ms, r, _) := (traced repeatCrates st req).alone c.answer untried
  (ms, r)

theorem tracedAlone_runs (c : Circumstances) (st : AppState) (req : TracedRequest) :
    (traced repeatCrates st req).Runs (tracedAlone c st req).1 (.ret (tracedAlone c st req).2) :=
  Prog.alone_runs c.answer _ untried

/-- The provider answers with 200 and a body. -/
def answering : Circumstances := firstMeets (.answered statusOk (.ok (asBytes "hello")))

/-- A request that is answered with 200 is observed twice. -/
theorem served_observed_twice :
    repeatGateway.config.validate = .ok () ∧
      (traced repeatCrates repeatGateway repeatTraced).Runs
        (tracedAlone answering repeatGateway repeatTraced).1
        (.ret (tracedAlone answering repeatGateway repeatTraced).2) ∧
      (tracedAlone answering repeatGateway repeatTraced).2.status = 200 ∧
      (tracedAlone answering repeatGateway repeatTraced).1.countP observesLatency = 2 :=
  ⟨by decide, tracedAlone_runs _ _ _, by decide +kernel, by decide +kernel⟩

/-- One whose provider cannot be reached is observed once. -/
theorem latency_once_iff_unreachable :
    (tracedAlone (firstMeets (.unanswered "refused")) repeatGateway repeatTraced).1.countP
      observesLatency = 1 :=
  (latency_once_iff (tracedAlone_runs _ repeatGateway repeatTraced)).mpr (by decide +kernel)

end LlmGateway
