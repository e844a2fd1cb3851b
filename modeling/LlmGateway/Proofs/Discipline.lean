/-
The handlers keep the discipline.

`Disciplined` says what the ghost of a request is at each juncture of the script: `Fresh`
between two attempts of the failover loop, with the reservation still held, and `Settled` when
the handler returns.  That this survives every answer is all that has to be shown.
-/
import LlmGateway.Proofs.Ghost
import LlmGateway.Proofs.Script
import Mathlib.Data.List.Induction

namespace LlmGateway

open Effects

variable {x : Crates} {st : AppState} {g : Ghost} {hd : ReservationHandle} {c : ApiCall}

/-! ### The ghost after an effect -/

section Next

variable (g : Ghost)

@[simp] theorem discipline_next (m : GatewayMove) : (discipline x).next g m = g.next m := rfl

@[simp] theorem discipline_ok (e : Effect) : (discipline x).ok g e = Permitted x g e := rfl

@[simp] theorem next_reconcile (h : ReservationHandle) (cost : ℚ) (u : Unit) :
    g.next (.act (.reconcile h cost) u)
      = { g with held := none, settled := g.settled ++ [cost] } := rfl

@[simp] theorem next_metric (m : Metric) (u : Unit) :
    g.next (.act (.metric m) u) = { g with tokens := g.tokens ++ m.tokens } := rfl

/-- A request stays what it is. -/
theorem request_next (m : GatewayMove) : (g.next m).request = g.request := by
  cases m with
  | act e answer =>
      cases e with
      | allowRequest p => cases answer <;> rfl
      | await a owned =>
          cases a with
          | bytes p => cases answer <;> rfl
          | _ => rfl
      | _ => rfl
  | poll item => cases item <;> rfl
  | drop => rfl

@[simp] theorem run_request (r : HttpRequest) (ms : List GatewayMove) :
    ((discipline x).run (Ghost.start r) ms).request = r := by
  induction ms using List.reverseRecOn with
  | nil => rfl
  | append_singleton ms m ih =>
      rw [Protocol.run_append]
      exact (request_next _ m).trans ih

end Next

/-! ### Metrics and tokens -/

@[simp] theorem tokens_recordTtft (provider : String) : (Metric.recordTtft provider).tokens = [] :=
  rfl

@[simp] theorem tokens_recordRequestLatency : Metric.recordRequestLatency.tokens = [] := rfl

@[simp] theorem tokens_recordUpstreamLatency (provider : String) :
    (Metric.recordUpstreamLatency provider).tokens = [] := rfl

@[simp] theorem tokens_recordTokens (provider kind : String) (n : Nat) :
    (Metric.recordTokens provider kind n).tokens = [(kind, n)] := rfl

/-! ### States of a handler -/

/-- A reservation is held and nothing was read or recorded yet. -/
structure Holding (c : ApiCall) (hd : ReservationHandle) (g : Ghost) : Prop where
  call : g.request.call = c
  held : g.held = some hd
  body : g.body = none
  chunks : g.chunks = []
  tokens : g.tokens = []
  settled : g.settled = []

/-- A lookup that finds nothing leaves everything as it is. -/
theorem Holding.missed (h : Holding c hd g) (a : Option String) :
    Holding c hd { g with hit := a } :=
  ⟨h.call, h.held, h.body, h.chunks, h.tokens, h.settled⟩

/-- Nor does it matter where the request is, or what was sent. -/
theorem Holding.turn (h : Holding c hd g) (φ : Phase) (sent : Option (List UInt8)) :
    Holding c hd { g with phase := φ, sent := sent } :=
  ⟨h.call, h.held, h.body, h.chunks, h.tokens, h.settled⟩

/-- Between two attempts. -/
structure Fresh (c : ApiCall) (hd : ReservationHandle) (g : Ghost) : Prop
    extends Holding c hd g where
  phase : g.phase = .idle

theorem Holding.accounted (h : Holding c hd g) : g.Accounted x := by
  unfold Ghost.Accounted
  rw [h.chunks]
  exact ⟨h.tokens, h.settled⟩

/-- A request that has read nothing can stop at any time. -/
theorem Fresh.ended (h : Fresh c hd g) : Ended x g :=
  ⟨h.phase, fun _ _ _ _ => h.accounted⟩

/-- After an attempt that recorded its outcome. -/
theorem Holding.fresh (h : Holding c hd g) {φ : Phase} (hφ : φ = .idle)
    (sent : Option (List UInt8)) {m : Metric} (hm : m.tokens = []) :
    Fresh c hd { g with phase := φ, sent := sent, tokens := g.tokens ++ m.tokens } :=
  ⟨⟨h.call, h.held, h.body, h.chunks, by rw [hm, List.append_nil]; exact h.tokens, h.settled⟩, hφ⟩

/-- A request that does not stream owes no account of a stream. -/
theorem ended_of_not_stream (hphase : g.phase = .idle)
    (hcall : ∀ r, g.request.call = .chat (.ok r) → r.stream = false) : Ended x g := by
  refine ⟨hphase, fun _ r hr hs => ?_⟩
  rw [hcall r hr] at hs
  cases hs

/-- Only the response to a cache hit says so. -/
theorem hitSound_of_headers {r : Response BodyStream} (h : ("x-cache", "HIT") ∉ r.headers) :
    HitSound r g :=
  fun hmem => absurd hmem h

theorem hitSound_error (e : AppError) : HitSound (intoResponse (.error e)) g := by
  refine hitSound_of_headers ?_
  cases e <;> simp [intoResponse, AppError.intoResponse, AppError.retryAfter]

theorem settled_error (e : AppError) (h : Done x g) :
    Settled x (.responded (intoResponse (.error e))) g :=
  ⟨hitSound_error e, h⟩

/-! ### Settlement -/

/-- Settling with what was reported. -/
theorem wp_settleUsage {t : Nat × Nat} {payload : Except String ChatCompletionRequest}
    {Q : Unit → Ghost → Prop} (provider : String) (hheld : g.held = some hd)
    (hcall : g.request.call = .chat payload) (hreported : g.reported x = some t)
    (hQ : Q () { g with
      held := none, tokens := g.tokens ++ tokensOf t,
      settled := g.settled ++ [(wrappingAdd t.1 t.2 : ℚ)] }) :
    (settleUsage provider (some hd) t).wp (discipline x) g Q := by
  unfold settleUsage reconcileTaken reconcile metric
  simp only [perform, Prog.bind_eq, Prog.op_bind, Prog.ret_bind, Prog.wp_op, Prog.wp_ret,
    discipline_ok, discipline_next, next_metric, next_reconcile, Permitted, true_and,
    tokens_recordTokens, List.append_assoc]
  intro _ _
  refine ⟨⟨hheld, ?_⟩, fun _ => hQ⟩
  unfold Ghost.Owes Ghost.reported at *
  simp only [hcall, hreported, Option.map_some, Option.getD_some]

/-- A response that is passed on is that of a request that is done. -/
theorem settled_providerResponse {headers : List (String × String)} (provider : String)
    (body : List UInt8) (hheaders : ("x-cache", "HIT") ∉ headers) (h : Done x g) :
    Settled x (.responded (intoResponse (providerResponse headers provider body))) g := by
  unfold providerResponse
  by_cases hname : headerValueOk provider = true
  · rw [if_pos hname]
    refine ⟨hitSound_of_headers ?_, h⟩
    simp [intoResponse, hheaders]
  · rw [if_neg hname]
    exact settled_error _ h

/-- The stream a handler returns has its callbacks, and has seen nothing. -/
theorem settled_chatStream {r : ChatCompletionRequest} {provider : ProviderConfig}
    (h : Holding (.chat (.ok r)) hd g) (hphase : g.phase = .reading provider.name) :
    Settled x (.responded (chatStream provider (some hd))) g := by
  have hheaders : ("x-cache", "HIT") ∉ (chatStream provider (some hd)).headers := by
    simp [chatStream, proxyStreamPassthrough]
  refine ⟨hitSound_of_headers hheaders, ⟨hphase, ⟨r, h.call⟩, h.body, ?_, rfl, ?_⟩⟩
  · rw [h.chunks]
    rfl
  · rw [h.chunks]
    exact ⟨rfl, h.tokens, h.settled, hd, h.held, rfl⟩

/-- A request that ends before it has a reservation. -/
theorem done_unreserved (hphase : g.phase = .idle) (hheld : g.held = none)
    (hchunks : g.chunks = []) (htokens : g.tokens = []) (hsettled : g.settled = []) :
    Done x g := by
  refine ⟨⟨hphase, fun _ _ _ _ => ?_⟩, hheld⟩
  unfold Ghost.Accounted
  rw [hchunks]
  exact ⟨htokens, hsettled⟩

/-! ### The junctures -/

/-- What the ghost says at a juncture. -/
def Disciplined (x : Crates) (call : ApiCall) : Juncture → Ghost → Prop
  | .admitted, g => ∃ req, req.call = call ∧ g = Ghost.start req
  | .looking _ hd, g => Fresh call hd g
  | .choosing _ _ _ hd, g => Fresh call hd g
  | .trying _ _ _ hd, g => Fresh call hd g
  | .cleared p _ hd, g => Holding call hd g ∧ g.phase = .admitted p.name
  | .reading p _ hd, g => Holding call hd g ∧ g.phase = .reading p.name
  | .finished result, g => Settled x (.responded (intoResponse result)) g

/-- A request that has read nothing may be answered with an error, once its reservation is
dropped. -/
theorem Fresh.dropped (h : Fresh c hd g) (e : AppError) :
    (discipline x).Does [.dropHandle hd] g (Disciplined x c (.finished (.error e))) :=
  ⟨h.held, fun _ => settled_error e ⟨⟨h.phase, h.ended.streamed⟩, rfl⟩⟩

theorem Fresh.retry (h : Fresh c hd g) (lastError : Option String)
    (cands : List ProviderConfig) :
    (discipline x).Meets (Disciplined x c) (retry lastError hd cands) g := by
  cases cands with
  | nil => exact ⟨trivial, fun _ => (h.fresh h.phase _ rfl).dropped _⟩
  | cons p rest => exact h

theorem Fresh.choose (h : Fresh c hd g) (chosen todo : List ProviderConfig) :
    (discipline x).Meets (Disciplined x c) (c.choose hd chosen todo) g := by
  cases todo with
  | cons p todo => exact h
  | nil =>
      cases chosen with
      | nil => exact ⟨trivial, fun _ => (h.fresh h.phase _ rfl).dropped _⟩
      | cons p rest => exact h

theorem Fresh.reserved (h : Fresh c hd g) :
    (discipline x).Meets (Disciplined x c) (c.reserved x st hd) g := by
  unfold ApiCall.reserved
  cases c.written x with
  | error e => exact h.dropped _
  | ok body =>
      cases c.key x with
      | some key => exact h
      | none => exact h.choose [] _

theorem tokens_outcome (provider : String) (answer : Except String StatusCode) :
    (c.outcome provider answer).tokens = [] := by
  cases hreception : c.receive answer with
  | failed =>
      obtain ⟨error, -, hcounted⟩ := outcome_failed hreception provider
      rw [hcounted]
      rfl
  | rejected s =>
      rw [outcome_rejected hreception]
      rfl
  | usable =>
      rw [outcome_usable hreception]
      rfl

/-- A failure that may be recorded is, and leaves the request between two attempts. -/
theorem Holding.giveUp {p : ProviderConfig} {counted : Metric} (h : Holding c hd g)
    (hrecord : Permitted x g (.recordFailure p.name)) (hcounted : counted.tokens = [])
    (text : String) (rest : List ProviderConfig) :
    (discipline x).Meets (Disciplined x c) (giveUp p counted text rest hd) g :=
  ⟨hrecord, fun _ => ⟨trivial, fun _ => (h.fresh rfl _ hcounted).retry _ _⟩⟩

/-- A call that streams is a chat request. -/
theorem exists_chat (h : c.streams = true) : ∃ r, c = .chat (.ok r) := by
  cases c with
  | chat payload =>
      cases payload with
      | ok r => exact ⟨r, rfl⟩
      | error e => cases h
  | embeddings payload => cases h

theorem Holding.answered {p : ProviderConfig} {answer : Except String StatusCode}
    (h : Holding c hd g) (hphase : g.phase = .answered p.name answer)
    (rest : List ProviderConfig) :
    (discipline x).Meets (Disciplined x c) (c.answered x p rest hd answer) g := by
  have hcounted : (c.outcome p.name answer).tokens = [] := tokens_outcome _ _
  unfold ApiCall.answered
  cases hreception : c.receive answer with
  | failed => exact h.giveUp (Or.inl ⟨answer, hphase, receive_failed hreception⟩) hcounted _ rest
  | rejected s =>
      obtain ⟨rfl, hretry, hclient⟩ := receive_rejected hreception
      have hrejected : g.phase.succeeded = .idle := by
        rw [hphase]
        simp [Phase.succeeded, hclient]
      exact ⟨⟨s, hphase, hretry⟩, fun _ => ⟨trivial, fun _ =>
        (h.fresh hrejected _ hcounted).dropped _⟩⟩
  | usable =>
      obtain ⟨s, rfl, hretry, hclient⟩ := receive_usable hreception
      have hreading : g.phase.succeeded = .reading p.name := by
        rw [hphase]
        simp [Phase.succeeded, hclient]
      have hholding : Holding c hd { g with phase := g.phase.succeeded, tokens := g.tokens ++
          (c.outcome p.name (.ok s)).tokens ++ (Metric.recordUpstreamLatency p.name).tokens } := by
        rw [hcounted]
        exact ⟨h.call, h.held, h.body, h.chunks, by simpa using h.tokens, h.settled⟩
      refine ⟨⟨s, hphase, hretry⟩, fun _ => ⟨trivial, fun _ => ⟨trivial, fun _ => ?_⟩⟩⟩
      show (discipline x).Meets _ (if c.streams then _ else _ : Due) _
      cases hstreams : c.streams with
      | false => exact ⟨hholding, hreading⟩
      | true =>
          obtain ⟨r, rfl⟩ := exists_chat hstreams
          refine ⟨trivial, fun _ => ?_⟩
          show Settled x (.responded (chatStream p (some hd))) _
          rw [discipline_next, next_metric, tokens_recordRequestLatency, List.append_nil]
          exact settled_chatStream hholding hreading

/-- The cache is filled with the body, under the request's key. -/
theorem Permitted.fill {body : List UInt8} (hcall : g.request.call = c) (hheld : g.held = some hd)
    (hbody : g.body = some body) :
    (discipline x).Does (c.fill x hd body) g fun g' => g' = g := by
  refine Protocol.does_of_forall (J := fun g' => g' = g) ?_ rfl
  rintro e he g' rfl
  obtain ⟨key, hkey, rfl⟩ := List.mem_map.mp he
  rw [Option.mem_toList, ← hcall] at hkey
  exact ⟨⟨hheld.symm, hkey, body, hbody, rfl⟩, fun _ => rfl⟩

/-- A body settles the request with what it reports, and the reservation is gone. -/
theorem Ghost.charged {body : List UInt8} {p : ProviderConfig} (hcall : g.request.call = c)
    (hstreams : c.streams = false) (hphase : g.phase = .idle) (hheld : g.held = some hd)
    (hbody : g.body = some body) :
    (discipline x).Meets (Disciplined x c) (c.charged x p hd body) g := by
  have hdone : ∀ g' : Ghost, g'.phase = .idle → g'.request = g.request → g'.held = none →
      Done x g' := by
    intro g' hphase' hrequest hheld'
    refine ⟨ended_of_not_stream hphase' fun r hr => ?_, hheld'⟩
    rw [hrequest, hcall] at hr
    rw [hr] at hstreams
    exact hstreams
  have hheaders : ("x-cache", "HIT") ∉ c.replyHeaders := by
    cases c <;> simp [ApiCall.replyHeaders]
  have hreply : ∀ g' : Ghost, Done x g' →
      Disciplined x c (.finished (providerResponse c.replyHeaders p.name (c.reply body))) g' :=
    fun g' h => settled_providerResponse _ _ hheaders h
  unfold ApiCall.charged Protocol.Meets
  cases c with
  | chat payload =>
      unfold ApiCall.bill
      cases husage : bodyUsage x body with
      | none =>
          exact ⟨trivial, fun _ => ⟨hheld, fun _ => hreply _ (hdone _ hphase rfl rfl)⟩⟩
      | some t =>
          have howes : ∀ tokens, { g with tokens := tokens }.Owes x (wrappingAdd t.1 t.2) := by
            intro tokens
            unfold Ghost.Owes Ghost.reported
            simp only [hcall, hbody, husage, Option.map_some, Option.getD_some]
          exact ⟨trivial, fun _ => ⟨trivial, fun _ => ⟨⟨hheld, howes _⟩, fun _ =>
            ⟨trivial, fun _ => hreply _ (hdone _ hphase rfl rfl)⟩⟩⟩⟩
  | embeddings payload =>
      unfold ApiCall.bill
      cases husage : embeddingUsage x body with
      | none =>
          exact ⟨trivial, fun _ => ⟨hheld, fun _ => hreply _ (hdone _ hphase rfl rfl)⟩⟩
      | some n =>
          have howes : ∀ tokens, { g with tokens := tokens }.Owes x n := by
            intro tokens
            unfold Ghost.Owes
            simp only [hcall, hbody, Option.bind_some, husage, Option.map_some]
          exact ⟨trivial, fun _ => ⟨⟨hheld, howes _⟩, fun _ =>
            ⟨trivial, fun _ => hreply _ (hdone _ hphase rfl rfl)⟩⟩⟩

/-- A cached text settles the request with nothing. -/
theorem Fresh.cached {r : ChatCompletionRequest} {text : String}
    (h : Fresh (.chat (.ok r)) hd g) (hhit : g.hit = some text) (hstream : r.stream = false) :
    (discipline x).Meets (Disciplined x (.chat (.ok r))) ((ApiCall.chat (.ok r)).cached hd text)
      g := by
  have howes : g.Owes x 0 := by
    unfold Ghost.Owes Ghost.reported
    rw [h.call, h.body, h.chunks]
    rfl
  refine ⟨⟨h.held, howes⟩, fun _ => ⟨trivial, fun _ => ⟨trivial, fun _ => ⟨trivial, fun _ =>
    ⟨fun _ => ⟨text, hhit, rfl⟩, ended_of_not_stream h.phase ?_, rfl⟩⟩⟩⟩⟩
  intro r' hr'
  obtain rfl : r = r' := by
    have hcall : g.request.call = .chat (.ok r') := hr'
    rw [h.call] at hcall
    cases hcall
    rfl
  exact hstream

/-- A request with a key does not stream. -/
theorem not_stream_of_key {r : ChatCompletionRequest} {key : String}
    (h : requestKey x r = some key) : r.stream = false := by
  unfold requestKey chatCacheKey at h
  rw [injectStreamOptions_stream] at h
  by_contra hstream
  rw [Bool.not_eq_false] at hstream
  cases hstr : x.chatToString (injectStreamOptions r) with
  | error e => simp [hstr] at h
  | ok promptPayload => simp [hstr, hstream] at h

/-- A call with a key is a chat request that does not stream. -/
theorem exists_chat_of_key {key : String} (h : c.key x = some key) :
    ∃ r, c = .chat (.ok r) ∧ r.stream = false := by
  cases c with
  | chat payload =>
      cases payload with
      | ok r => exact ⟨r, rfl, not_stream_of_key h⟩
      | error e => cases h
  | embeddings payload => cases h

theorem disciplined_upholds {identity : ClientIdentity} :
    (script x st identity c).Upholds (discipline x) (Juncture.Known x st c) (Disciplined x c) := by
  intro juncture g e hknown hg hasks
  cases juncture with
  | admitted =>
      obtain ⟨cost, hcost, rfl⟩ := hasks
      obtain ⟨req, rfl, rfl⟩ := hg
      refine ⟨⟨rfl, rfl, hcost⟩, fun answer => ?_⟩
      cases answer with
      | error retryAfter =>
          exact ⟨trivial, fun _ => settled_error _ (done_unreserved rfl rfl rfl rfl rfl)⟩
      | ok hd => exact Fresh.reserved ⟨⟨rfl, rfl, rfl, rfl, rfl, rfl⟩, rfl⟩
  | looking key hd =>
      obtain rfl := hasks
      have hown : g.request.call.key x = some key := by
        rw [hg.call]
        exact hknown
      refine ⟨⟨hg.held.symm, hg.body, hown⟩, fun answer => ?_⟩
      cases answer with
      | none => exact ⟨trivial, fun _ => ((hg.missed none).fresh hg.phase _ rfl).choose [] _⟩
      | some text =>
          obtain ⟨r, rfl, hstream⟩ := exists_chat_of_key hknown
          exact Fresh.cached ⟨hg.missed (some text), hg.phase⟩ rfl hstream
  | choosing chosen p todo hd =>
      obtain rfl := hasks
      exact ⟨trivial, fun eligible => hg.choose _ todo⟩
  | trying p rest lastError hd =>
      obtain rfl := hasks
      refine ⟨hg.phase, fun allowed => ?_⟩
      cases allowed with
      | true => exact ⟨hg.toHolding.turn _ _, rfl⟩
      | false => exact hg.retry lastError rest
  | cleared p rest hd =>
      obtain ⟨body, hbody, rfl⟩ := hasks
      obtain ⟨hholding, hphase⟩ := hg
      have hforward : g.request.call.forwarded x = some (c.outbound p body).body := by
        rw [hholding.call, hbody]
        cases c <;> rfl
      refine ⟨⟨hholding.held.symm, hphase, hforward⟩, fun answer => ?_⟩
      have hsent : Holding c hd { g with
          phase := .answered p.name answer, sent := some (c.outbound p body).body } :=
        hholding.turn _ _
      exact hsent.answered rfl rest
  | reading p rest hd =>
      obtain rfl := hasks
      obtain ⟨hholding, hphase⟩ := hg
      refine ⟨⟨hholding.held.symm, hphase⟩, fun answer => ?_⟩
      cases answer with
      | error e =>
          have hbroken : Holding c hd { g with phase := .broken p.name .bodyError } :=
            hholding.turn _ _
          have hrecord : Permitted x { g with phase := .broken p.name .bodyError }
              (.recordFailure p.name) := Or.inr ⟨_, rfl⟩
          cases c with
          | chat payload => exact hbroken.giveUp hrecord rfl _ rest
          | embeddings payload =>
              exact ⟨hrecord, fun _ => ⟨trivial, fun _ => (hbroken.fresh rfl _ rfl).dropped _⟩⟩
      | ok body =>
          refine ((discipline x).meets_after _).mpr (Protocol.Does.mono
            (Permitted.fill hholding.call hholding.held rfl) ?_)
          rintro g' rfl
          exact Ghost.charged hholding.call hknown.1 rfl hholding.held rfl
  | finished result => exact hasks.elim

/-- **Both handlers keep the discipline.** -/
theorem wp_handler (identity : ClientIdentity) (req : HttpRequest) :
    (handler x st identity req.call).wp (discipline x) (Ghost.start req)
      fun a g' => Settled x (.responded (intoResponse a)) g' := by
  refine wp_handler_upholds disciplined_upholds ?_
  unfold ApiCall.opening
  cases req.call.malformed with
  | none => exact ⟨req, rfl, rfl⟩
  | some e => exact settled_error _ (done_unreserved rfl rfl rfl rfl rfl)

end LlmGateway
