/-
Which label values the metrics get.

`labelValues` of a configuration are the names of its providers and the literals the
recording helpers are called with.  Everything that is recorded is labelled from there, with
one exception: an answer from the cache is counted under the model the client asked for.  So
the metrics stay within the configuration exactly as far as the models of cached requests
do.
-/
import LlmGateway.Middleware.Trace
import LlmGateway.Proofs.Admission
import LlmGateway.Proofs.Coherence
import LlmGateway.Lib.Runs

namespace LlmGateway

open Effects

/-! ### Labels -/

/-- The values of the labels of a recording. -/
def Metric.labelValues : Metric → List String
  | .counter _ labels _ => labels.map Prod.snd
  | .histogram _ labels => labels.map Prod.snd

/-- The label values that are written in the code. -/
def labelLiterals : List String :=
  ["all", "rate_limit", "exact", "success", "cache_hit", "connect_error", "retryable_error",
    "client_error", "unexpected_status", "body_read_error", "no_available_providers",
    "all_providers_failed", "tpm_exceeded", "rpm_exceeded", "prompt", "completion", "embedding"]

/-- What a metric may be labelled with under a configuration. -/
def AppConfig.labelValues (config : AppConfig) : List String :=
  config.providers.map ProviderConfig.name ++ labelLiterals

/-- An effect that records nothing, or is labelled by the configuration. -/
def Bounded (config : AppConfig) : Effect → Prop
  | .metric m => ∀ v ∈ m.labelValues, v ∈ config.labelValues
  | _ => True

section Labels

variable {config : AppConfig}

theorem literal_mem {v : String} (h : v ∈ labelLiterals) : v ∈ config.labelValues :=
  List.mem_append_right _ h

theorem provider_mem {p : ProviderConfig} (h : p ∈ config.providers) :
    p.name ∈ config.labelValues :=
  List.mem_append_left _ (List.mem_map_of_mem h)

theorem bounded_recordRequest {p status : String} (hp : p ∈ config.labelValues)
    (hs : status ∈ labelLiterals) : Bounded config (.metric (.recordRequest p status)) := by
  intro v hv
  simp only [Metric.recordRequest, Metric.labelValues, List.map_cons, List.map_nil,
    List.mem_cons, List.not_mem_nil, or_false] at hv
  rcases hv with rfl | rfl
  · exact hp
  · exact literal_mem hs

theorem bounded_recordError {p error : String} (hp : p ∈ config.labelValues)
    (he : error ∈ labelLiterals) : Bounded config (.metric (.recordError p error)) :=
  bounded_recordRequest hp he

theorem bounded_recordTokens {p kind : String} (n : Nat) (hp : p ∈ config.labelValues)
    (hk : kind ∈ labelLiterals) : Bounded config (.metric (.recordTokens p kind n)) :=
  bounded_recordRequest hp hk

theorem bounded_one {p : String} (hp : p ∈ config.labelValues) :
    ∀ v ∈ [p], v ∈ config.labelValues := by
  simpa using hp

theorem bounded_recordUpstreamLatency {p : String} (hp : p ∈ config.labelValues) :
    Bounded config (.metric (.recordUpstreamLatency p)) := bounded_one hp

theorem bounded_recordTtft {p : String} (hp : p ∈ config.labelValues) :
    Bounded config (.metric (.recordTtft p)) := bounded_one hp

theorem bounded_recordRequestLatency : Bounded config (.metric .recordRequestLatency) :=
  fun _ hv => absurd hv List.not_mem_nil

end Labels

/-! ### Billing -/

theorem Billing.bounded {config : AppConfig} {provider : String}
    (hp : provider ∈ config.labelValues) (e : Effect)
    (h : Billing provider e) : Bounded config e := by
  cases e with
  | metric m =>
      obtain ⟨kind, n, hkind, rfl⟩ := h
      refine bounded_recordTokens n hp ?_
      simp only [List.mem_cons, List.not_mem_nil, or_false] at hkind
      rcases hkind with rfl | rfl | rfl <;> decide
  | _ => exact trivial

/-! ### Whole requests -/

/-- A lookup that finds something. -/
def IsHit : GatewayMove → Prop
  | .act (.await (.cacheGet _) _) (some _) => True
  | _ => False

/-- What a request may be counted under: its model, once it was found in the cache. -/
structure LabelGhost where
  model : Option String
  hit : Prop

/-- What is recorded is labelled by the configuration, or by the model of a hit. -/
def labelling (config : AppConfig) : Protocol gatewaySig StreamItem LabelGhost where
  ok g
    | .metric m => ∀ v ∈ m.labelValues, v ∈ config.labelValues ∨ g.hit ∧ g.model = some v
    | _ => True
  next g m := { g with hit := g.hit ∨ IsHit m }

theorem run_labelling (config : AppConfig) (g : LabelGhost) (ms : List GatewayMove) :
    ((labelling config).run g ms).model = g.model ∧
      (((labelling config).run g ms).hit → g.hit ∨ ∃ m ∈ ms, IsHit m) := by
  induction ms generalizing g with
  | nil => exact ⟨rfl, Or.inl⟩
  | cons m ms ih =>
      obtain ⟨hmodel, hhit⟩ := ih ((labelling config).next g m)
      refine ⟨hmodel, fun h => ?_⟩
      rcases hhit h with (hg | hm) | ⟨m', hmem, hm'⟩
      · exact Or.inl hg
      · exact Or.inr ⟨m, List.mem_cons_self, hm⟩
      · exact Or.inr ⟨m', List.mem_cons_of_mem _ hmem, hm'⟩

section Requests

variable {x : Crates} {st : AppState} {config : AppConfig} {g : LabelGhost}

theorem Bounded.labelled (g : LabelGhost) (e : Effect) (h : Bounded config e) :
    (labelling config).ok g e := by
  cases e with
  | metric m => exact fun v hv => Or.inl (h v hv)
  | _ => exact trivial

/-- A body that streams records what it may. -/
def Response.Bounded (config : AppConfig) (r : Response BodyStream) : Prop :=
  r.Streams (LlmGateway.Bounded config)

theorem bounded_error (e : AppError) : (e.intoResponse : Response BodyStream).Bounded config := by
  intro s hs
  cases hs

theorem bounded_providerResponse (headers : List (String × String)) (provider : String)
    (body : List UInt8) :
    (intoResponse (providerResponse headers provider body)).Bounded config := by
  unfold providerResponse
  by_cases h : headerValueOk provider = true
  · rw [if_pos h]
    intro s hs
    cases hs
  · rw [if_neg h]
    exact bounded_error _

theorem bounded_chatStream {p : ProviderConfig} {reservation : Option ReservationHandle}
    (hp : p.name ∈ config.labelValues) : (chatStream p reservation).Bounded config :=
  chatStream_only (bounded_recordTtft hp) trivial
    (fun tokens => (billing_settleUsage _ _ tokens).mono (Billing.bounded hp))
    ((billing_dropReservation _ _).mono (Billing.bounded hp))

/-! ### The junctures -/

/-- What is known of a request at a juncture: the model it may be counted under, and what the
body does that it is answered with. -/
def Labelled (config : AppConfig) (call : ApiCall) : Juncture → LabelGhost → Prop
  | .finished result, _ => (intoResponse result).Bounded config
  | _, g => g.model = call.model

section Junctures

variable {call : ApiCall} {hd : ReservationHandle}

/-- What is labelled by the configuration may be done at any time, and changes no model. -/
theorem does_bounded {es : List Effect} (hes : ∀ e ∈ es, Bounded config e)
    (hg : g.model = call.model) :
    (labelling config).Does es g fun g' => g'.model = call.model :=
  Protocol.does_of_forall (fun e he g hg => ⟨(hes e he).labelled g e, fun _ => hg⟩) hg

theorem meets_bounded {c : Due} (hes : ∀ e ∈ c.todo, Bounded config e)
    (hcut : ∀ g', g'.model = call.model → Labelled config call c.cut g')
    (hg : g.model = call.model) : (labelling config).Meets (Labelled config call) c g :=
  (does_bounded hes hg).mono hcut

theorem bounded_error_counted {p error : String} (hp : p ∈ config.labelValues)
    (he : error ∈ labelLiterals) {es : List Effect} (hes : ∀ e ∈ es, Bounded config e) :
    ∀ e ∈ .metric (.recordError p error) :: es, Bounded config e := by
  intro e hmem
  rcases List.mem_cons.mp hmem with rfl | hmem
  · exact bounded_recordError hp he
  · exact hes e hmem

theorem labelled_retry (lastError : Option String) (cands : List ProviderConfig)
    (hg : g.model = call.model) :
    (labelling config).Meets (Labelled config call) (retry lastError hd cands) g := by
  cases cands with
  | cons p rest => exact hg
  | nil =>
      refine meets_bounded ?_ (fun _ _ => bounded_error _) hg
      exact bounded_error_counted (literal_mem (by decide)) (by decide) (by simp [Bounded])

theorem labelled_choose (chosen todo : List ProviderConfig) (hg : g.model = call.model) :
    (labelling config).Meets (Labelled config call) (call.choose hd chosen todo) g := by
  cases todo with
  | cons p todo => exact hg
  | nil =>
      cases chosen with
      | cons p rest => exact hg
      | nil =>
          refine meets_bounded ?_ (fun _ _ => bounded_error _) hg
          exact bounded_error_counted (literal_mem (by decide)) (by decide) (by simp [Bounded])

theorem bounded_outcome {p : String} (hp : p ∈ config.labelValues)
    (answer : Except String StatusCode) : Bounded config (.metric (call.outcome p answer)) := by
  cases hreception : call.receive answer with
  | failed =>
      obtain ⟨error, herror, hcounted⟩ := outcome_failed hreception p
      rw [hcounted]
      refine bounded_recordError hp ?_
      simp only [List.mem_cons, List.not_mem_nil, or_false] at herror
      rcases herror with rfl | rfl | rfl <;> decide
  | rejected s =>
      rw [outcome_rejected hreception]
      exact bounded_recordError hp (by decide)
  | usable =>
      rw [outcome_usable hreception]
      exact bounded_recordRequest hp (by decide)

theorem labelled_answered {p : ProviderConfig} (hp : p.name ∈ config.labelValues)
    (rest : List ProviderConfig) (answer : Except String StatusCode)
    (hg : g.model = call.model) :
    (labelling config).Meets (Labelled config call) (call.answered x p rest hd answer) g := by
  have hcounted : Bounded config (.metric (call.outcome p.name answer)) := bounded_outcome hp answer
  unfold ApiCall.answered
  cases call.receive answer with
  | failed =>
      exact ⟨trivial, fun _ => ⟨hcounted.labelled _ _, fun _ => labelled_retry _ rest hg⟩⟩
  | rejected s =>
      exact ⟨trivial, fun _ => ⟨hcounted.labelled _ _, fun _ => ⟨trivial, fun _ =>
        bounded_error _⟩⟩⟩
  | usable =>
      refine ⟨trivial, fun _ => ⟨hcounted.labelled _ _, fun _ =>
        ⟨(bounded_recordUpstreamLatency hp).labelled _ _, fun _ => ?_⟩⟩⟩
      show (labelling config).Meets _ (if call.streams then _ else _ : Due) _
      cases call.streams with
      | true =>
          exact ⟨bounded_recordRequestLatency.labelled _ _, fun _ => bounded_chatStream hp⟩
      | false => exact hg

/-- A cached text counts the model of the call, which was found. -/
theorem labelled_cached (text : String) (hhit : g.hit) (hg : g.model = call.model) :
    (labelling config).Meets (Labelled config call) (call.cached hd text) g := by
  have hliteral : ∀ v ∈ ["exact"], v ∈ config.labelValues :=
    bounded_one (literal_mem (by decide))
  refine ⟨trivial, fun _ => ⟨fun v hv => Or.inl (hliteral v hv), fun _ =>
    ⟨bounded_recordRequestLatency.labelled _ _, fun _ => ?_⟩⟩⟩
  have hresponse : (cachedResponse text).Bounded config := by
    intro s hs
    cases hs
  cases hmodel : call.model with
  | none => exact hresponse
  | some model =>
      refine ⟨fun v hv => ?_, fun _ => hresponse⟩
      -- here the model becomes a label
      rcases List.mem_pair.mp hv with rfl | rfl
      · exact Or.inr ⟨Or.inl (Or.inl (Or.inl hhit)), hg.trans hmodel⟩
      · exact Or.inl (literal_mem (by decide))

theorem labelled_upholds {identity : ClientIdentity}
    (hst : ∀ p ∈ st.sortedProviders, p.name ∈ config.labelValues) :
    (script x st identity call).Upholds (labelling config) (Juncture.Known x st call)
      (Labelled config call) := by
  intro juncture g e hknown hg hasks
  cases juncture with
  | admitted =>
      obtain ⟨cost, -, rfl⟩ := hasks
      refine ⟨trivial, fun answer => ?_⟩
      cases answer with
      | error retryAfter =>
          refine meets_bounded ?_ (fun _ _ => bounded_error _) hg
          exact bounded_error_counted (literal_mem (by decide)) (by decide) (by simp)
      | ok hd =>
          show (labelling config).Meets _ (call.reserved x st hd) _
          unfold ApiCall.reserved
          cases call.written x with
          | error e => exact ⟨trivial, fun _ => bounded_error _⟩
          | ok body =>
              cases call.key x with
              | some key => exact hg
              | none => exact labelled_choose [] _ hg
  | looking key hd =>
      obtain rfl := hasks
      refine ⟨trivial, fun answer => ?_⟩
      cases answer with
      | none =>
          have hliteral : ∀ v ∈ ["exact"], v ∈ config.labelValues :=
            bounded_one (literal_mem (by decide))
          exact ⟨fun v hv => Or.inl (hliteral v hv), fun _ => labelled_choose [] _ hg⟩
      | some text => exact labelled_cached text (Or.inr trivial) hg
  | choosing chosen p todo hd =>
      obtain rfl := hasks
      exact ⟨trivial, fun eligible => labelled_choose _ todo hg⟩
  | trying p rest lastError hd =>
      obtain rfl := hasks
      refine ⟨trivial, fun allowed => ?_⟩
      cases allowed with
      | true => exact hg
      | false => exact labelled_retry lastError rest hg
  | cleared p rest hd =>
      obtain ⟨body, -, rfl⟩ := hasks
      have hp : p.name ∈ config.labelValues := hst p (hknown p List.mem_cons_self)
      exact ⟨trivial, fun answer => labelled_answered hp rest answer hg⟩
  | reading p rest hd =>
      obtain rfl := hasks
      have hp : p.name ∈ config.labelValues := hst p (hknown.2 p List.mem_cons_self)
      refine ⟨trivial, fun answer => ?_⟩
      cases answer with
      | error e =>
          have hlost : Bounded config (.metric (.recordError p.name "body_read_error")) :=
            bounded_recordError hp (by decide)
          cases call with
          | chat payload =>
              exact ⟨trivial, fun _ => ⟨hlost.labelled _ _, fun _ => labelled_retry _ rest hg⟩⟩
          | embeddings payload =>
              exact ⟨trivial, fun _ => ⟨hlost.labelled _ _, fun _ => ⟨trivial, fun _ =>
                bounded_error _⟩⟩⟩
      | ok body =>
          obtain ⟨before, after, htodo, hbefore, hafter⟩ := bodyRead_todo x call p hd body
          refine meets_bounded (fun e he => ?_) (fun _ _ => bounded_providerResponse _ _ _) hg
          have hmem : e ∈ (call.bodyRead x p hd body).todo := he
          rw [htodo, List.mem_append, List.mem_cons] at hmem
          rcases hmem with hmem | rfl | hmem
          · exact Billing.bounded hp e (hbefore e hmem)
          · exact bounded_recordRequestLatency
          · exact Billing.bounded hp e (hafter e hmem)
  | finished result => exact hasks.elim

end Junctures

theorem bounded_insertHeader {r : Response BodyStream} (h : r.Bounded config)
    (name value : String) : (r.insertHeader name value).Bounded config := by
  unfold Response.insertHeader
  split <;> exact h

theorem wp_traced_labelled (req : TracedRequest) (hmodel : g.model = req.request.call.model)
    (hst : ∀ p ∈ st.sortedProviders, p.name ∈ config.labelValues) :
    (traced x st req).wp (labelling config) g fun r _ => r.Bounded config := by
  have hserve : (serve x st req.request).wp (labelling config) g
      fun r _ => r.Bounded config := by
    refine wp_serve_of (fun _ => bounded_error _) (fun _ _ => trivial) (fun _ retryAfter _ => ?_)
      fun identity _ => ?_
    · have hbounded : Bounded config (.metric (.recordError "rate_limit" "rpm_exceeded")) :=
        bounded_recordError (literal_mem (by decide)) (by decide)
      exact ⟨hbounded.labelled _ _, fun _ => bounded_error _⟩
    · refine wp_handler_upholds (labelled_upholds hst) ?_
      unfold ApiCall.opening
      cases req.request.call.malformed with
      | none => exact hmodel
      | some e => exact bounded_error _
  refine Prog.wp_call hserve fun r g' hr => ?_
  refine ⟨fun v hv => absurd hv List.not_mem_nil, fun _ => ?_⟩
  exact bounded_insertHeader (bounded_insertHeader hr _ _) _ _

/-! ### Runs -/

/-- What is known of an idle request: its body records what it may. -/
def BoundedIdle (config : AppConfig) : Idle → LabelGhost → Prop
  | .responded r, _ => r.Bounded config
  | .closed, _ => True

theorem wp_dropReservation_labelled (owned : Option ReservationHandle) :
    (dropReservation owned).wp (labelling config) g fun _ _ => True := by
  cases owned with
  | none => exact trivial
  | some hd => exact ⟨trivial, fun _ => trivial⟩

theorem tracedGateway_closed :
    (tracedGateway x st).toKernel.Closed (labelling config) (BoundedIdle config) := by
  show (gateway x st).toKernel.Closed (labelling config) (BoundedIdle config)
  refine closed_of ?_ ?_ ?_ ?_
  · intro r s item g hg hbody
    have hresume : (s.resume x.fromStr item).Gives (Bounded config)
        fun s' => ∀ t ∈ s', t.Only (Bounded config) :=
      BodyStream.resume_only (fun _ => trivial) (hg s hbody) item
    refine Prog.wp_mono (hresume.wp Bounded.labelled) fun s' g' hs' => ?_
    cases s' with
    | none => exact trivial
    | some s' =>
        intro t ht
        obtain rfl := Body.stream.inj ht
        exact hs' s' rfl
  · intro r s g hg hbody
    exact (BodyStream.drop_only (hg s hbody)).gives.wp Bounded.labelled
  · exact fun a owned g _ => wp_dropReservation_labelled owned
  · exact fun a owned g y _ => wp_dropReservation_labelled owned

theorem tracedGateway_labelled
    (hst : ∀ p ∈ st.sortedProviders, p.name ∈ config.labelValues) :
    (tracedGateway x st).Disciplined (labelling config)
      (fun req => ⟨req.request.call.model, False⟩) (BoundedIdle config) where
  toClosed := tracedGateway_closed
  start req := by
    show Prog.wp _ ((traced x st req).bind _) _ _
    exact Prog.wp_call (wp_traced_labelled req rfl hst) fun r g' hr => hr

/-- The label values a move records. -/
def recorded : GatewayMove → List String
  | .act (.metric m) _ => m.labelValues
  | _ => []

/-- If the step finds an entry of the cache, the model it is found for is a label. -/
def HitNamed (config : AppConfig) (p : TracedState) (l : TracedLabel) : Prop :=
  ∀ i req key owned k a, l = .act i (.cached true) →
    p.tasks[i]? = some (req, ⟨.op (.await (.cacheGet key) owned) k, a⟩) →
    p.world.exactCache key ≠ none → ∀ v ∈ req.request.call.model, v ∈ config.labelValues

/-- A hit is a step that finds an entry. -/
theorem model_of_hit {p : TracedState} {l : TracedLabel} {i : Nat} {req : TracedRequest}
    {t t' : Task gatewaySig Idle} {m : GatewayMove} {w : World} (hl : HitNamed config p l)
    (hi : Machine.taskOf l = some i) (ht : p.tasks[i]? = some (req, t))
    (hstep : (tracedGateway x st).toKernel.Step t m t')
    (hans : (tracedGateway x st).Answers p.world l m w) (hm : IsHit m) :
    ∀ v ∈ req.request.call.model, v ∈ config.labelValues := by
  obtain ⟨j, c, e, y, rfl, rfl, hy⟩ | ⟨-, ⟨a, rfl⟩ | rfl⟩ := hans.cases
  · obtain rfl := Option.some.inj hi
    cases hstep with
    | act y =>
        cases e with
        | await a owned =>
            cases a with
            | cacheGet key =>
                cases c with
                | cached found =>
                    have hfound : (if found then p.world.exactCache key else none) = y :=
                      (Prod.mk.inj (Option.some.inj hy)).1
                    cases found with
                    | false =>
                        rw [← hfound] at hm
                        exact hm.elim
                    | true =>
                        refine hl j req key owned _ _ rfl ht fun hnone => ?_
                        rw [if_pos rfl, hnone] at hfound
                        rw [← hfound] at hm
                        exact hm
                | _ => cases hy
            | _ => exact absurd hm id
        | _ => exact absurd hm id
  · exact hm.elim
  · exact hm.elim

/-- A request that is found in the cache only under a label records only labels. -/
theorem recorded_of_obeys {ms : List GatewayMove} (hobeys : (labelling config).Obeys g ms)
    (hg : ¬ g.hit) (hnamed : ∀ m ∈ ms, IsHit m → ∀ v ∈ g.model, v ∈ config.labelValues) :
    ∀ m ∈ ms, ∀ v ∈ recorded m, v ∈ config.labelValues := by
  intro m hm v hv
  obtain ⟨before, after, rfl⟩ := List.mem_iff_append.mp hm
  rw [Protocol.obeys_append] at hobeys
  cases m with
  | act e y =>
      cases e with
      | metric m =>
          obtain ⟨hmodel, hhit⟩ := run_labelling config g before
          rcases hobeys.2.1 v hv with hlabel | ⟨hfound, hname⟩
          · exact hlabel
          rcases hhit hfound with h | ⟨m', hm', hit⟩
          · exact absurd h hg
          · exact hnamed m' (List.mem_append_left _ hm') hit v (hmodel.symm.trans hname)
      | _ => exact absurd hv List.not_mem_nil
  | _ => exact absurd hv List.not_mem_nil

/--
**Labels come from the configuration as long as cached models do.**  In every run in which
each entry of the cache is found for a model that is a label value itself, every label value
that is recorded is a provider's name or a literal.
-/
theorem labels_bounded {x : Crates} {config : AppConfig} {start : Instant} {p : TracedState}
    (h : (tracedGateway x (.new x config)).Reaches (HitNamed config)
      (TracedState.initial start) p) :
    ∀ n ∈ p.log, ∀ v ∈ recorded n.move, v ∈ config.labelValues := by
  intro n hn
  have hlogged := Machine.Reaches.logged
    (P := fun req m => IsHit m → ∀ v ∈ req.request.call.model, v ∈ config.labelValues) rfl
    (fun _ _ _ _ _ _ _ _ hl hi ht hstep hans hm => model_of_hit hl hi ht hstep hans hm) h
  have hproviders : ∀ q ∈ (AppState.new x config).sortedProviders, q.name ∈ config.labelValues :=
    fun q hq => provider_mem ((List.perm_insertionSort _ _).mem_iff.mp hq)
  obtain ⟨req, t, ht, -⟩ := hlogged n hn
  have hobeys := (Machine.Reaches.obeys (tracedGateway_labelled hproviders) rfl rfl h ht).1
  refine recorded_of_obeys hobeys id ?_ n.move (Pool.mem_movesOf.mpr ⟨n, hn, rfl, rfl⟩)
  intro m hm hit
  obtain ⟨n', hn', htask, rfl⟩ := Pool.mem_movesOf.mp hm
  obtain ⟨req', t', ht', hnamed⟩ := hlogged n' hn'
  rw [htask] at ht'
  obtain ⟨rfl, -⟩ := Prod.mk.inj (Option.some.inj (ht.symm.trans ht'))
  exact hnamed hit

end Requests

/-! ### One request twice -/

/-- The request of `repeatRun`, with what the trace adds to it. -/
def repeatTraced : TracedRequest where
  request := smallChat false 10
  requestId := "6fa459ea-ee8a-4ca4-894e-db77e160355e"
  elapsedMs := "0.25"

/-- `repeatRun` through `trace_middleware`, as long as its steps are `ok`. -/
def tracedRun (st : AppState) (ok : TracedState → TracedLabel → Bool) : TracedState :=
  ((tracedGateway repeatCrates st).replay (labelling st.config) (fun _ => ⟨none, False⟩) ok
    (fun _ _ _ _ => ()) (TracedState.initial 0)
    [.spawn repeatTraced, .act 0 .none, .act 0 .none, .act 0 (.cached false), .act 0 .none,
      .act 0 .none, .act 0 .none, .act 0 (.sent (.ok statusOk)), .act 0 .none, .act 0 .none,
      .act 0 .none, .act 0 (.read (.ok (asBytes "hello"))), .act 0 .none, .act 0 .none,
      .act 0 .none, .act 0 .none, .spawn repeatTraced, .act 1 .none, .act 1 .none,
      .act 1 (.cached true), .act 1 .none, .act 1 .none, .act 1 .none, .act 1 .none,
      .act 1 .none]).1

theorem tracedRun_reaches (st : AppState) (ok : TracedState → TracedLabel → Bool) :
    (tracedGateway repeatCrates st).Reaches (fun p l => ok p l = true) (TracedState.initial 0)
      (tracedRun st ok) :=
  Machine.Observed.reaches (Machine.replay_observed ok _)

/-- The second answer is counted under the model of the request, which is no label value. -/
theorem client_model_recorded :
    repeatGateway.config.validate = .ok () ∧
      (tracedGateway repeatCrates repeatGateway).Reaches (fun _ _ => True) (TracedState.initial 0)
        (tracedRun repeatGateway fun _ _ => true) ∧
      repeatTraced.request.call.model = some "m" ∧
      (∃ n ∈ (tracedRun repeatGateway fun _ _ => true).log, "m" ∈ recorded n.move) ∧
      "m" ∉ repeatGateway.config.labelValues := by
  have hrecorded : "m" ∈ (tracedRun repeatGateway fun _ _ => true).log.flatMap
      fun n => recorded n.move := by decide +kernel
  refine ⟨by decide, (tracedRun_reaches _ _).mono fun _ _ _ => trivial, rfl, ?_, by decide⟩
  exact List.mem_flatMap.mp hrecorded

/-- The same gateway, its provider named like the model. -/
def namedGateway : AppState :=
  .new repeatCrates { repeatGateway.config with
    providers := repeatGateway.config.providers.map fun p => { p with name := "m" } }

/-- Every model asked for is a label value. -/
def asksNamed (config : AppConfig) (p : TracedState) (_ : TracedLabel) : Bool :=
  p.tasks.all fun t => decide (∀ v ∈ t.1.request.call.model, v ∈ config.labelValues)

theorem hitNamed_of_asksNamed {config : AppConfig} (p : TracedState) (l : TracedLabel)
    (h : asksNamed config p l = true) : HitNamed config p l := by
  intro i req key owned k a _ ht _
  have hreq := List.all_eq_true.mp h _ (List.mem_of_getElem? ht)
  exact of_decide_eq_true hreq

/-- There the second answer is counted, and no label comes from elsewhere. -/
theorem labels_bounded_named :
    (∀ n ∈ (tracedRun namedGateway (asksNamed namedGateway.config)).log,
      ∀ v ∈ recorded n.move, v ∈ namedGateway.config.labelValues) ∧
    "cache_hit" ∈ (tracedRun namedGateway (asksNamed namedGateway.config)).log.flatMap
      fun n => recorded n.move :=
  ⟨labels_bounded ((tracedRun_reaches namedGateway _).mono hitNamed_of_asksNamed),
    by decide +kernel⟩

end LlmGateway
