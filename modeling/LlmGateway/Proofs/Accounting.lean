/-
The counters tell what happened.

Whatever a request learns — that a limit refused it, that its answer was cached or not, what a
provider answered, that a body could not be read, that there is no provider to send it to, or
none left — is one recording of a counter, and it is made before the request learns anything
else.  `accounting` says so as a protocol whose ghost is where the request is on its itinerary,
and what is still to be recorded.  So what a request has recorded is what was due on its way, in
order, up to what it is about to record; a request that is dropped may leave that out.
-/
import LlmGateway.Proofs.Travel
import LlmGateway.Proofs.Coherence

namespace LlmGateway

open Effects

variable {x : Crates} {st : AppState} {providers : List ProviderConfig} {call : ApiCall}

/-! ### Outcomes -/

/-- The counters of requests, errors and cache lookups. -/
def outcomeCounters : List String :=
  ["gateway_requests_total", "gateway_request_errors_total", "gateway_cache_hits_total",
    "gateway_cache_misses_total"]

/-- Whatever these counters count is an outcome. -/
def Metric.isOutcome : Metric → Bool
  | .counter name _ _ => name ∈ outcomeCounters
  | .histogram _ _ => false

/-- What is to be recorded for what a request has learnt. -/
def ApiCall.due (call : ApiCall) : GatewayMove → List Metric
  | .act (.rpmTryConsume _ _) (.error _) => [.recordError "rate_limit" "rpm_exceeded"]
  | .act (.tryReserveTpm _ _) (.error _) => [.recordError "rate_limit" "tpm_exceeded"]
  | .act (.await (.cacheGet _) _) (some _) =>
      .recordCacheHit "exact" :: call.model.toList.map (.recordRequest · "cache_hit")
  | .act (.await (.cacheGet _) _) none => [.recordCacheMiss "exact"]
  | .act (.await (.send p _) _) answer => [call.outcome p answer]
  | .act (.await (.bytes p) _) (.error _) => [.recordError p "body_read_error"]
  | _ => []

/-- What is to be recorded where nobody is left to send a request to. -/
def Leg.exhausted (error : String) : Leg → List Metric
  | .choosing [] [] => [.recordError "all" error]
  | _ => []

/-- What is to be recorded if a move leaves a request without a provider: nobody was eligible, or
the last one has turned it away or failed.  A payload that cannot be written looks for nobody. -/
def Trip.exhaustion (x : Crates) (providers : List ProviderConfig) (g : Trip) (m : GatewayMove) :
    List Metric :=
  match m with
  | .act (.tryReserveTpm _ _) _ =>
      if (g.call.forwarded x).isSome then
        (g.move providers m).exhausted "no_available_providers"
      else []
  | .act (.await (.cacheGet _) _) _ => (g.move providers m).exhausted "no_available_providers"
  | .act (.isEligible _) _ => (g.move providers m).exhausted "no_available_providers"
  | .act (.allowRequest _) _ => (g.move providers m).exhausted "all_providers_failed"
  | .act (.recordFailure _) _ => (g.move providers m).exhausted "all_providers_failed"
  | _ => []

/-- What is to be recorded for a move where a request is. -/
def Trip.due (x : Crates) (providers : List ProviderConfig) (g : Trip) (m : GatewayMove) :
    List Metric :=
  g.call.due m ++ g.exhaustion x providers m

/-- What is to be recorded for the moves of a request, along its way. -/
def Trip.dues (x : Crates) (providers : List ProviderConfig) : Trip → List GatewayMove → List Metric
  | _, [] => []
  | g, m :: ms => g.due x providers m ++ dues x providers (g.next providers m) ms

/-- The outcome a move records. -/
def counted : GatewayMove → List Metric
  | .act (.metric m) _ => if m.isOutcome then [m] else []
  | _ => []

/-- The outcomes that are recorded. -/
def recordings (ms : List GatewayMove) : List Metric := ms.flatMap counted

/-! ### The protocol -/

/-- A request may learn something of it. -/
def Effect.learns : Effect → Bool
  | .rpmTryConsume _ _ => true
  | .tryReserveTpm _ _ => true
  | .await (.cacheInsert _ _) _ => false
  | .await _ _ => true
  | _ => false

/-- It records an outcome. -/
def Effect.records : Effect → Bool
  | .metric m => m.isOutcome
  | _ => false

/-- Where a request is, and what it has still to record. -/
structure Ledger where
  trip : Trip
  pending : List Metric
  dropped : Bool

/-- A move takes what it counts off the pending recordings, and adds what it makes due. -/
def Ledger.next (x : Crates) (providers : List ProviderConfig) (g : Ledger) : GatewayMove → Ledger
  | .drop => ⟨g.trip.next providers .drop, [], true⟩
  | m => { g with
      trip := g.trip.next providers m
      pending := g.pending.drop (counted m).length ++ g.trip.due x providers m }

/-- A recording is the next one that is pending, and nothing is learnt while one is. -/
structure Ledger.May (g : Ledger) (e : Effect) : Prop where
  recorded : ∀ m, e = .metric m → m.isOutcome = true → g.pending.head? = some m
  learnt : e.learns = true → g.pending = [] ∧ g.dropped = false

/-- What may be counted, and how the ledger goes on. -/
def accounting (x : Crates) (providers : List ProviderConfig) :
    Protocol gatewaySig StreamItem Ledger where
  ok := Ledger.May
  next := Ledger.next x providers

section Rules

variable {e : Effect} {es : List Effect} {g : Ledger} {t : Trip} {m : Metric}
  {pending : List Metric} {dropped : Bool} {Q : Ledger → Prop}

/-- The books follow the request. -/
theorem Ledger.next_trip (g : Ledger) (m : GatewayMove) :
    (g.next x providers m).trip = g.trip.next providers m := by
  cases m <;> rfl

theorem Ledger.next_act (g : Ledger) (e : Effect) (y : e.Answer) :
    g.next x providers (.act e y) = { g with
      trip := g.trip.next providers (.act e y)
      pending := g.pending.drop (counted (.act e y)).length
        ++ g.trip.due x providers (.act e y) } :=
  rfl

theorem counted_unrecorded (h : e.records = false) (y : e.Answer) :
    counted (.act e y) = [] := by
  cases e with
  | metric m =>
      have hm : m.isOutcome = false := h
      simp [counted, hm]
  | _ => rfl

theorem due_aside (h : Aside e) (y : e.Answer) : t.due x providers (.act e y) = [] := by
  obtain ⟨k, v, owned, rfl⟩ | ⟨m, rfl⟩ | ⟨hd, cost, rfl⟩ | ⟨hd, rfl⟩ := h.cases <;> rfl

/-- What does not show and records nothing changes nothing. -/
theorem Aside.next_ledger (h : Aside e) (hrecords : e.records = false) (y : e.Answer) :
    g.next x providers (.act e y) = g := by
  rw [Ledger.next_act, due_aside h, counted_unrecorded hrecords, Trip.next_aside h,
    List.length_nil, List.drop_zero, List.append_nil]

theorem May.of_unrecorded (hrecords : e.records = false) (hlearns : e.learns = false) :
    g.May e where
  recorded m hm hout := by
    subst hm
    have hnot : m.isOutcome = false := hrecords
    rw [hnot] at hout
    cases hout
  learnt h := by
    rw [hlearns] at h
    cases h

theorem learns_aside (h : Aside e) : e.learns = false := by
  obtain ⟨k, v, owned, rfl⟩ | ⟨m, rfl⟩ | ⟨hd, cost, rfl⟩ | ⟨hd, rfl⟩ := h.cases <;> rfl

theorem does_aside (he : Aside e) (hrecords : e.records = false)
    (h : (accounting x providers).Does es g Q) :
    (accounting x providers).Does (e :: es) g Q := by
  refine ⟨May.of_unrecorded hrecords (learns_aside he), fun y => ?_⟩
  show (accounting x providers).Does es (g.next x providers (.act e y)) Q
  rw [Aside.next_ledger he hrecords y]
  exact h

/-- What is pending is recorded. -/
theorem does_recorded (hm : m.isOutcome = true)
    (h : (accounting x providers).Does es ⟨t, pending, dropped⟩ Q) :
    (accounting x providers).Does (.metric m :: es) ⟨t, m :: pending, dropped⟩ Q := by
  refine ⟨⟨fun m' heq _ => ?_, fun hlearns => by cases hlearns⟩, fun y => ?_⟩
  · cases heq
    rfl
  · have hnext : Ledger.next x providers ⟨t, m :: pending, dropped⟩ (.act (.metric m) y)
        = ⟨t, pending, dropped⟩ := by
      have haside : Aside (.metric m) := trivial
      rw [Ledger.next_act, due_aside haside, Trip.next_aside haside]
      simp [counted, hm]
    show (accounting x providers).Does es (Ledger.next x providers _ (.act (.metric m) y)) Q
    rw [hnext]
    exact h

end Rules

/-! ### The junctures -/

/-- Nothing is left to record. -/
def Ledger.Squared (g : Ledger) : Prop := g.pending = [] ∧ g.dropped = false

/-- Where nothing is pending, anything may be learnt. -/
theorem May.of_squared {t : Trip} {e : Effect} (hrecords : e.records = false) :
    Ledger.May ⟨t, [], false⟩ e where
  recorded m hm hout := by
    subst hm
    have hnot : m.isOutcome = false := hrecords
    rw [hnot] at hout
    cases hout
  learnt _ := ⟨rfl, rfl⟩

/-- Whatever a provider answers is an outcome. -/
theorem isOutcome_outcome (call : ApiCall) (p : String) (answer : Except String StatusCode) :
    (call.outcome p answer).isOutcome = true := by
  cases hreception : call.receive answer with
  | failed =>
      obtain ⟨error, -, houtcome⟩ := outcome_failed hreception p
      rw [houtcome]
      rfl
  | rejected s =>
      rw [outcome_rejected hreception]
      rfl
  | usable =>
      rw [outcome_usable hreception]
      rfl

/-- What settles a request records no outcome. -/
theorem Billing.unrecorded {provider : String} {e : Effect} (h : Billing provider e) :
    e.records = false := by
  cases e with
  | metric m =>
      obtain ⟨kind, n, -, rfl⟩ := h
      rfl
  | await a owned =>
      cases a with
      | cacheInsert key v => rfl
      | _ => exact h.elim
  | _ => rfl

section Junctures

variable {identity : ClientIdentity} {t : Trip} {p : ProviderConfig} {rest : List ProviderConfig}
  {hd : ReservationHandle} {es : List Effect} {pending : List Metric} {Q : Ledger → Prop}

/-- A recorded success leaves nothing to record. -/
theorem does_success (name : String)
    (h : (accounting x providers).Does es
      ⟨t.next providers (.act (.recordSuccess name) ()), pending, false⟩ Q) :
    (accounting x providers).Does (.recordSuccess name :: es) ⟨t, pending, false⟩ Q := by
  refine ⟨May.of_unrecorded rfl rfl, fun y => ?_⟩
  have hnext : Ledger.next x providers ⟨t, pending, false⟩ (.act (.recordSuccess name) y)
      = ⟨t.next providers (.act (.recordSuccess name) y), pending, false⟩ := by
    simp [Ledger.next_act, Trip.due, ApiCall.due, Trip.exhaustion, counted]
  show (accounting x providers).Does es (Ledger.next x providers _ (.act (.recordSuccess name) y)) Q
  rw [hnext]
  exact h

/-- A recorded failure may have been that of the last provider. -/
theorem does_failure (name : String)
    (h : (accounting x providers).Does es
      ⟨t.next providers (.act (.recordFailure name) ()),
        pending ++ (t.move providers (.act (.recordFailure name) ())).exhausted
          "all_providers_failed", false⟩ Q) :
    (accounting x providers).Does (.recordFailure name :: es) ⟨t, pending, false⟩ Q := by
  refine ⟨May.of_unrecorded rfl rfl, fun y => ?_⟩
  have hnext : Ledger.next x providers ⟨t, pending, false⟩ (.act (.recordFailure name) y)
      = ⟨t.next providers (.act (.recordFailure name) y),
        pending ++ (t.move providers (.act (.recordFailure name) y)).exhausted
          "all_providers_failed", false⟩ := by
    simp [Ledger.next_act, Trip.due, ApiCall.due, Trip.exhaustion, counted]
  show (accounting x providers).Does es (Ledger.next x providers _ (.act (.recordFailure name) y)) Q
  rw [hnext]
  exact h

theorem squares_retry (cands : List ProviderConfig) (lastError : Option String) :
    (accounting x providers).Does (retry lastError hd cands).todo
      ⟨t, Leg.exhausted "all_providers_failed" (.choosing cands []), false⟩ Ledger.Squared := by
  cases cands with
  | nil => exact does_recorded rfl (does_aside trivial rfl ⟨rfl, rfl⟩)
  | cons p rest => exact ⟨rfl, rfl⟩

theorem squares_giveUp {m : Metric} (hm : m.isOutcome = true)
    (hmove : t.move providers (.act (.recordFailure p.name) ()) = .choosing rest [])
    (text : String) :
    (accounting x providers).Does (giveUp p m text rest hd).todo ⟨t, [m], false⟩
      Ledger.Squared := by
  refine does_failure p.name ?_
  rw [hmove]
  exact does_recorded hm (squares_retry rest _)

theorem squares_choose (chosen todo : List ProviderConfig) :
    (accounting x providers).Does (call.choose hd chosen todo).todo
      ⟨t, Leg.exhausted "no_available_providers" (.choosing chosen todo), false⟩
      Ledger.Squared := by
  cases todo with
  | cons p todo => cases chosen <;> exact ⟨rfl, rfl⟩
  | nil =>
      cases chosen with
      | nil => exact does_recorded rfl (does_aside trivial rfl ⟨rfl, rfl⟩)
      | cons p rest => exact ⟨rfl, rfl⟩

theorem squares_reserved :
    (accounting x st.sortedProviders).Does (call.reserved x st hd).todo
      ⟨t, if (call.forwarded x).isSome then
          (Leg.reserve (call.key x) st.sortedProviders).exhausted "no_available_providers"
        else [], false⟩ Ledger.Squared := by
  rw [forwarded_written]
  cases hwritten : call.written x with
  | error e =>
      rw [reserved_unwritten hwritten]
      exact does_aside trivial rfl ⟨rfl, rfl⟩
  | ok body =>
      rw [reserved_written hwritten]
      cases call.key x with
      | none => exact squares_choose [] st.sortedProviders
      | some key => exact ⟨rfl, rfl⟩

theorem squares_cached (text : String) :
    (accounting x providers).Does (call.cached hd text).todo
      ⟨t, .recordCacheHit "exact" :: call.model.toList.map (.recordRequest · "cache_hit"), false⟩
      Ledger.Squared := by
  refine does_aside trivial rfl (does_recorded rfl (does_aside trivial rfl ?_))
  cases call.model with
  | none => exact ⟨rfl, rfl⟩
  | some model => exact does_recorded rfl ⟨rfl, rfl⟩

theorem squares_answered (answer : Except String StatusCode)
    (ht : t = ⟨call, call.key x, .answered p rest (call.receive answer)⟩) :
    (accounting x providers).Does (call.answered x p rest hd answer).todo
      ⟨t, [call.outcome p.name answer], false⟩ Ledger.Squared := by
  have houtcome := isOutcome_outcome call p.name answer
  subst ht
  unfold ApiCall.answered
  cases call.receive answer with
  | failed => exact squares_giveUp houtcome rfl _
  | rejected s =>
      exact does_success p.name (does_recorded houtcome (does_aside trivial rfl ⟨rfl, rfl⟩))
  | usable =>
      refine does_success p.name (does_recorded houtcome (does_aside trivial rfl ?_))
      cases call.streams with
      | true => exact does_aside trivial rfl ⟨rfl, rfl⟩
      | false => exact ⟨rfl, rfl⟩

theorem squares_bodyLost (ht : t = ⟨call, call.key x, .broken p rest⟩) :
    (accounting x providers).Does (call.bodyLost p rest hd).todo
      ⟨t, [.recordError p.name "body_read_error"], false⟩ Ledger.Squared := by
  subst ht
  cases call with
  | chat payload => exact squares_giveUp rfl rfl _
  | embeddings payload =>
      exact does_failure p.name (does_recorded rfl (does_aside trivial rfl ⟨rfl, rfl⟩))

theorem squares_bodyRead (body : List UInt8) :
    (accounting x providers).Does (call.bodyRead x p hd body).todo ⟨t, [], false⟩
      Ledger.Squared := by
  obtain ⟨before, after, htodo, hbefore, hafter⟩ := bodyRead_todo x call p hd body
  have hunrecorded : ∀ e ∈ (call.bodyRead x p hd body).todo, e.records = false := by
    intro e he
    rw [htodo, List.mem_append, List.mem_cons] at he
    rcases he with he | rfl | he
    · exact (hbefore e he).unrecorded
    · rfl
    · exact (hafter e he).unrecorded
  have hsame : (accounting x providers).Does (call.bodyRead x p hd body).todo ⟨t, [], false⟩
      fun g => g = ⟨t, [], false⟩ := by
    refine Protocol.does_of_forall ?_ rfl
    rintro e he g rfl
    have haside := aside_bodyRead x call p hd body e he
    exact ⟨May.of_unrecorded (hunrecorded e he) (learns_aside haside),
      fun y => Aside.next_ledger haside (hunrecorded e he) y⟩
  refine hsame.mono ?_
  rintro g rfl
  exact ⟨rfl, rfl⟩

end Junctures
/-! ### The handlers -/

/-- What a body that streams does: it learns nothing, and records no outcome. -/
def Uncounted : Effect → Prop
  | .metric m => m.isOutcome = false
  | .reconcile _ _ => True
  | .dropHandle _ => True
  | .recordFailure _ => True
  | .yield _ => True
  | .await (.cacheInsert _ _) _ => True
  | _ => False

theorem Billing.uncounted {provider : String} (e : Effect) (h : Billing provider e) :
    Uncounted e := by
  have hrecords := h.unrecorded
  cases e with
  | metric m => exact hrecords
  | await a owned =>
      cases a with
      | cacheInsert key v => exact trivial
      | _ => exact h.elim
  | reconcile hd cost => exact trivial
  | dropHandle hd => exact trivial
  | _ => exact h.elim

theorem uncounted_chatStream (p : ProviderConfig) (reservation : Option ReservationHandle) :
    (chatStream p reservation).Streams Uncounted :=
  chatStream_only rfl trivial
    (fun tokens => (billing_settleUsage p.name reservation tokens).mono Billing.uncounted)
    ((billing_dropReservation p.name reservation).mono Billing.uncounted)

/-- What a handler returns streams without recording outcomes. -/
def Juncture.Uncounted : Juncture → Prop
  | .finished result => (intoResponse result).Streams LlmGateway.Uncounted
  | _ => True

theorem uncounted_error (e : AppError) :
    (e.intoResponse : Response BodyStream).Streams Uncounted := by
  intro s hs
  cases hs

section Handlers

variable {identity : ClientIdentity} {p : ProviderConfig} {rest : List ProviderConfig}
  {hd : ReservationHandle}

theorem uncounted_retry (cands : List ProviderConfig) (lastError : Option String) :
    (retry lastError hd cands).cut.Uncounted := by
  cases cands with
  | nil => exact uncounted_error _
  | cons p rest => exact trivial

theorem uncounted_choose (chosen todo : List ProviderConfig) :
    (call.choose hd chosen todo).cut.Uncounted := by
  cases todo with
  | cons p todo => exact trivial
  | nil =>
      cases chosen with
      | nil => exact uncounted_error _
      | cons p rest => exact trivial

theorem uncounted_reserved : (call.reserved x st hd).cut.Uncounted := by
  unfold ApiCall.reserved
  cases call.written x with
  | error e => exact uncounted_error _
  | ok body =>
      cases call.key x with
      | none => exact uncounted_choose [] st.sortedProviders
      | some key => exact trivial

theorem uncounted_answered (answer : Except String StatusCode) :
    (call.answered x p rest hd answer).cut.Uncounted := by
  unfold ApiCall.answered
  cases call.receive answer with
  | failed => exact uncounted_retry rest _
  | rejected s => exact uncounted_error _
  | usable =>
      show (if call.streams then _ else _ : Due).cut.Uncounted
      cases call.streams with
      | true => exact uncounted_chatStream p _
      | false => exact trivial

theorem uncounted_bodyLost : (call.bodyLost p rest hd).cut.Uncounted := by
  cases call with
  | chat payload => exact uncounted_retry rest _
  | embeddings payload => exact uncounted_error _

theorem uncounted_bodyRead (body : List UInt8) :
    (call.bodyRead x p hd body).cut.Uncounted := by
  show (intoResponse (providerResponse _ _ _)).Streams Uncounted
  unfold providerResponse
  by_cases hvalue : headerValueOk p.name = true
  · rw [if_pos hvalue]
    intro s hs
    cases hs
  · rw [if_neg hvalue]
    exact uncounted_error _

/-- What is due settles the books, wherever it leads. -/
theorem counted_meets {c : Due} {g : Ledger}
    (hsquares : (accounting x st.sortedProviders).Does c.todo g Ledger.Squared)
    (htravels : (itinerary st.sortedProviders).Meets
      (Juncture.Travelled x st.sortedProviders call) c g.trip)
    (huncounted : c.cut.Uncounted) :
    (accounting x st.sortedProviders).Meets
      (fun juncture g => juncture.Travelled x st.sortedProviders call g.trip ∧ g.Squared ∧
        juncture.Uncounted) c g := by
  have hboth := hsquares.and_image (f := Ledger.trip) Ledger.next_trip htravels
  exact hboth.mono fun g' h => ⟨h.2, h.1, huncounted⟩

theorem counted_upholds :
    (script x st identity call).Upholds (accounting x st.sortedProviders) (fun _ => True)
      fun juncture g => juncture.Travelled x st.sortedProviders call g.trip ∧ g.Squared ∧
        juncture.Uncounted := by
  rintro juncture ⟨t, pending, dropped⟩ e - ⟨htravelled, ⟨hpending, hdropped⟩, -⟩ hasks
  obtain rfl : pending = [] := hpending
  obtain rfl : dropped = false := hdropped
  obtain ⟨hmay, htravels⟩ := travelled_upholds juncture t e trivial htravelled hasks
  cases juncture with
  | admitted =>
      obtain rfl : t = _ := htravelled
      obtain ⟨cost, -, rfl⟩ := hasks
      refine ⟨May.of_squared rfl, fun answer => ?_⟩
      cases answer with
      | error retryAfter =>
          have hexhaustion : Trip.exhaustion x st.sortedProviders ⟨call, call.key x, .admitted⟩
              (.act (.tryReserveTpm identity.clientId cost) (.error retryAfter)) = [] := by
            simp [Trip.exhaustion, Trip.move, Leg.exhausted]
          refine counted_meets ?_ (htravels _) (uncounted_error _)
          show (accounting x st.sortedProviders).Does _
            ⟨_, [.recordError "rate_limit" "tpm_exceeded"] ++ Trip.exhaustion _ _ _ _, false⟩ _
          rw [hexhaustion]
          exact does_recorded rfl ⟨rfl, rfl⟩
      | ok hd => exact counted_meets squares_reserved (htravels _) uncounted_reserved
  | looking key hd =>
      obtain rfl : t = _ := htravelled
      obtain rfl := hasks
      refine ⟨May.of_squared rfl, fun answer => ?_⟩
      cases answer with
      | none =>
          exact counted_meets (does_recorded rfl (squares_choose [] st.sortedProviders))
            (htravels _) (uncounted_choose [] st.sortedProviders)
      | some text =>
          refine counted_meets ?_ (htravels _) fun s hs => by cases hs
          show (accounting x st.sortedProviders).Does _ ⟨_, _ ++ [], false⟩ _
          rw [List.append_nil]
          exact squares_cached text
  | choosing chosen p todo hd =>
      obtain rfl : t = _ := htravelled
      obtain rfl := hasks
      refine ⟨May.of_squared rfl, fun eligible => ?_⟩
      cases eligible with
      | true =>
          exact counted_meets (squares_choose (chosen ++ [p]) todo) (htravels _)
            (uncounted_choose (chosen ++ [p]) todo)
      | false =>
          exact counted_meets (squares_choose chosen todo) (htravels _)
            (uncounted_choose chosen todo)
  | trying p rest lastError hd =>
      obtain rfl : t = _ := htravelled
      obtain rfl := hasks
      refine ⟨May.of_squared rfl, fun allowed => ?_⟩
      cases allowed with
      | true => exact counted_meets ⟨rfl, rfl⟩ (htravels _) trivial
      | false =>
          exact counted_meets (squares_retry rest lastError) (htravels _)
            (uncounted_retry rest lastError)
  | cleared p rest hd =>
      obtain rfl : t = _ := htravelled
      obtain ⟨body, -, rfl⟩ := hasks
      refine ⟨May.of_squared rfl, fun answer => ?_⟩
      exact counted_meets (squares_answered answer rfl) (htravels _) (uncounted_answered answer)
  | reading p rest hd =>
      obtain rfl : t = _ := htravelled
      obtain rfl := hasks
      refine ⟨May.of_squared rfl, fun answer => ?_⟩
      cases answer with
      | ok body =>
          exact counted_meets (squares_bodyRead body) (htravels _) (uncounted_bodyRead body)
      | error e => exact counted_meets (squares_bodyLost rfl) (htravels _) uncounted_bodyLost
  | finished result => exact hasks.elim

end Handlers

theorem wp_handler_counted {identity : ClientIdentity} :
    (handler x st identity call).wp (accounting x st.sortedProviders)
      ⟨⟨call, call.key x, .admitted⟩, [], false⟩ fun result g =>
        g.trip.Answers x st.sortedProviders (intoResponse result) ∧ g.Squared ∧
          (intoResponse result).Streams Uncounted := by
  refine wp_handler_upholds (fun juncture g e _ => counted_upholds juncture g e trivial) ?_
  unfold ApiCall.opening
  cases he : call.malformed with
  | none => exact ⟨rfl, ⟨rfl, rfl⟩, trivial⟩
  | some e => exact ⟨⟨e, he, rfl⟩, ⟨rfl, rfl⟩, uncounted_error _⟩

/-! ### Streaming bodies -/

/-- Where a request is while its body streams. -/
def Leg.flows : Leg → Bool
  | .streaming _ => true
  | .breaking _ _ => true
  | .relaying _ _ => true
  | .closed => true
  | _ => false

theorem Leg.flows_take (p : ProviderConfig) (item : StreamItem) :
    (Leg.take p item).flows = true := by
  cases item <;> rfl

theorem Leg.flows_relayed (p : ProviderConfig) (item : Except String (List UInt8)) :
    (Leg.relayed p item).flows = true := by
  cases item <;> rfl

theorem Trip.flows_move {t : Trip} (h : t.leg.flows = true) (m : GatewayMove) :
    (t.move providers m).flows = true := by
  unfold Trip.move
  split
  case h_2 p item _ => exact Leg.flows_take p item
  case h_18 p item _ _ _ => exact Leg.flows_relayed p item
  -- the others do not flow, or do not move
  all_goals simp_all [Leg.flows]

/-- No provider is looked for while a body streams. -/
theorem Leg.exhausted_flows {leg : Leg} (h : leg.flows = true) (error : String) :
    leg.exhausted error = [] := by
  cases leg with
  | choosing chosen todo => cases h
  | _ => rfl

section Flowing

variable {e : Effect} {g : Ledger}

theorem due_flowing {t : Trip} (h : t.leg.flows = true) (he : Uncounted e) (y : e.Answer) :
    t.due x providers (.act e y) = [] := by
  cases e with
  | await a owned =>
      cases a with
      | cacheInsert key v => rfl
      | _ => exact he.elim
  | recordFailure name => exact Leg.exhausted_flows (Trip.flows_move h _) _
  | metric m => rfl
  | reconcile hd cost => rfl
  | dropHandle hd => rfl
  | yield item => rfl
  | _ => exact he.elim

theorem Uncounted.unrecorded (he : Uncounted e) : e.records = false := by
  cases e with
  | metric m => exact he
  | _ => rfl

theorem Uncounted.unlearnt (he : Uncounted e) : e.learns = false := by
  cases e with
  | await a owned =>
      cases a with
      | cacheInsert key v => rfl
      | _ => exact he.elim
  | rpmTryConsume client cost => exact he.elim
  | tryReserveTpm client cost => exact he.elim
  | _ => rfl

/-- A streaming body leaves nothing to record. -/
theorem wp_flowing {α : Type} {p : Gateway α} {R : α → Prop} (hp : p.Gives Uncounted R)
    (hpending : g.pending = []) (hflows : g.trip.leg.flows = true) :
    p.wp (accounting x providers) g fun a g' =>
      R a ∧ g'.pending = [] ∧ g'.trip.leg.flows = true := by
  refine hp.keeps (J := fun g' : Ledger => g'.pending = [] ∧ g'.trip.leg.flows = true) ?_
    ⟨hpending, hflows⟩
  rintro g' e ⟨hpending', hflows'⟩ he
  refine ⟨May.of_unrecorded he.unrecorded he.unlearnt, fun y => ⟨?_, ?_⟩⟩
  · show (g'.next x providers (.act e y)).pending = []
    rw [Ledger.next_act, hpending', due_flowing hflows' he, List.drop_nil]
    rfl
  · show (g'.next x providers (.act e y)).trip.leg.flows = true
    rw [Ledger.next_trip]
    exact Trip.flows_move hflows' _

end Flowing

/-! ### Requests -/

theorem wp_serve_counted (req : HttpRequest) :
    (serve x st req).wp (accounting x st.sortedProviders) ⟨Trip.arrive x req, [], false⟩
      fun r g => g.trip.Answers x st.sortedProviders r ∧ g.Squared ∧ r.Streams Uncounted := by
  refine wp_serve_of (fun _ => ⟨rfl, ⟨rfl, rfl⟩, uncounted_error _⟩)
    (fun _ _ => May.of_squared rfl) (fun identity retryAfter _ => ?_)
    fun identity _ => wp_handler_counted
  exact does_recorded rfl ⟨rfl, ⟨rfl, rfl⟩, uncounted_error _⟩

/-- Between two polls nothing is left to record. -/
def IdleCounted : Idle → Ledger → Prop
  | .responded r, g => g.pending = [] ∧ r.Streams Uncounted ∧
      ∀ s, r.body = .stream s → g.trip.leg.flows = true
  | .closed, g => g.pending = []

theorem Ledger.next_poll (g : Ledger) (item : StreamItem) :
    (g.next x providers (.poll item)).pending = g.pending := by
  show g.pending.drop 0 ++ [] = g.pending
  rw [List.drop_zero, List.append_nil]

theorem gateway_counted_closed :
    (gateway x st).toKernel.Closed (accounting x st.sortedProviders) IdleCounted := by
  have hdropped : ∀ (g : Ledger) (owned : Option ReservationHandle),
      (dropReservation owned).wp (accounting x st.sortedProviders)
        ((accounting x st.sortedProviders).next g .drop) fun _ g' => IdleCounted .closed g' := by
    intro g owned
    have hdrop := (billing_dropReservation "all" owned).mono Billing.uncounted
    exact Prog.wp_mono (wp_flowing hdrop.gives rfl rfl) fun _ _ h => h.2.1
  refine closed_of ?_ ?_ (fun _ owned g _ => hdropped g owned)
    (fun _ owned g y _ => hdropped _ owned)
  · rintro r s item g ⟨hpending, hstreams, hflows⟩ hbody
    have hresumed : (s.resume x.fromStr item).Gives Uncounted
        fun s' => ∀ t ∈ s', t.Only Uncounted :=
      BodyStream.resume_only (fun _ => trivial) (hstreams s hbody) item
    refine Prog.wp_mono (wp_flowing hresumed ((g.next_poll item).trans hpending)
      (Trip.flows_move (hflows s hbody) _)) ?_
    rintro s' g' ⟨hs', hpending', hflows'⟩
    cases s' with
    | none => exact hpending'
    | some s' =>
        refine ⟨hpending', fun t ht => ?_, fun _ _ => hflows'⟩
        obtain rfl := Body.stream.inj ht
        exact hs' s' rfl
  · rintro r s g ⟨-, hstreams, -⟩ hbody
    exact Prog.wp_mono (wp_flowing (BodyStream.drop_only (hstreams s hbody)).gives rfl rfl)
      fun _ _ h => h.2.1

theorem gateway_counted :
    (gateway x st).Disciplined (accounting x st.sortedProviders)
      (fun r => ⟨Trip.arrive x r, [], false⟩) IdleCounted where
  toClosed := gateway_counted_closed
  start req := by
    show Prog.wp _ ((serve x st req).bind _) _ _
    refine Prog.wp_call (wp_serve_counted req) ?_
    rintro r g ⟨hanswers, ⟨hpending, -⟩, hstreams⟩
    refine ⟨hpending, hstreams, fun s hs => ?_⟩
    obtain ⟨p, hleg, -, -⟩ := hanswers.stream hs
    rw [hleg]
    rfl

/-! ### Runs -/

theorem Trip.dues_snoc (g : Trip) (ms : List GatewayMove) (m : GatewayMove) :
    g.dues x providers (ms ++ [m])
      = g.dues x providers ms ++ ((itinerary providers).run g ms).due x providers m := by
  induction ms generalizing g with
  | nil =>
      show g.due x providers m ++ [] = [] ++ g.due x providers m
      rw [List.append_nil, List.nil_append]
  | cons m' ms ih =>
      show g.due x providers m' ++ dues x providers (g.next providers m') (ms ++ [m]) = _
      rw [ih, ← List.append_assoc]
      rfl

/-- The books of a request: what is recorded is what was due, up to what is pending; when it is
dropped, that is given up. -/
structure Ledger.Balanced (x : Crates) (providers : List ProviderConfig) (t : Trip) (g : Ledger)
    (ms : List GatewayMove) : Prop where
  trip : g.trip = (itinerary providers).run t ms
  recorded : recordings ms <+: t.dues x providers ms
  exact : g.dropped = false → t.dues x providers ms = recordings ms ++ g.pending
  gone : g.dropped = true → g.pending = [] ∧ g.trip.leg.flows = true
  dropped : g.dropped = true ↔ .drop ∈ ms

/-- What is recorded was pending. -/
theorem Ledger.May.counted_prefix {g : Ledger} {e : Effect} (h : g.May e) (y : e.Answer) :
    counted (.act e y) <+: g.pending := by
  cases hrecords : e.records with
  | false =>
      rw [counted_unrecorded hrecords]
      exact List.nil_prefix
  | true =>
      cases e with
      | metric m =>
          have hm : m.isOutcome = true := hrecords
          have hhead := h.recorded m rfl hm
          cases hpending : g.pending with
          | nil =>
              rw [hpending] at hhead
              cases hhead
          | cons k rest =>
              rw [hpending] at hhead
              obtain rfl := Option.some.inj hhead
              simp [counted, hm]
      | _ => cases hrecords

/-- Nothing is learnt once a request was dropped, so nothing is due. -/
theorem Ledger.May.due_dropped {g : Ledger} {e : Effect} (h : g.May e) (hdropped : g.dropped = true)
    (hflows : g.trip.leg.flows = true) (y : e.Answer) :
    g.trip.due x providers (.act e y) = [] := by
  have hexhausted : ∀ error, (g.trip.move providers (.act e y)).exhausted error = [] := fun error =>
    Leg.exhausted_flows (Trip.flows_move hflows _) error
  have hunlearnt : e.learns = false := by
    by_contra hlearns
    have hlive := (h.learnt (by simpa using hlearns)).2
    rw [hdropped] at hlive
    cases hlive
  cases e with
  | rpmTryConsume client cost => cases hunlearnt
  | tryReserveTpm client cost => cases hunlearnt
  | await a owned =>
      cases a with
      | cacheInsert key v => rfl
      | _ => cases hunlearnt
  | isEligible name => exact hexhausted _
  | allowRequest name => exact hexhausted _
  | recordFailure name => exact hexhausted _
  | _ => rfl

section Balance

variable {t : Trip} {g : Ledger} {ms : List GatewayMove} {m : GatewayMove}

theorem Ledger.Balanced.act {e : Effect} {y : e.Answer} (h : g.Balanced x providers t ms)
    (hm : g.May e) : (g.next x providers (.act e y)).Balanced x providers t (ms ++ [.act e y]) := by
  obtain ⟨rest, hrest⟩ := hm.counted_prefix y
  have hdues : t.dues x providers (ms ++ [.act e y])
      = t.dues x providers ms ++ g.trip.due x providers (.act e y) := by
    rw [Trip.dues_snoc, h.trip]
  have hrecordings : recordings (ms ++ [.act e y]) = recordings ms ++ counted (.act e y) := by
    simp [recordings]
  have hpending : g.pending.drop (counted (.act e y)).length = rest := by
    rw [← hrest, List.drop_left]
  have hgone : g.dropped = true →
      counted (.act e y) = [] ∧ rest = [] ∧ g.trip.due x providers (.act e y) = [] := by
    intro hdropped
    obtain ⟨hnone, hflows⟩ := h.gone hdropped
    rw [hnone, List.append_eq_nil_iff] at hrest
    exact ⟨hrest.1, hrest.2, hm.due_dropped hdropped hflows y⟩
  rw [Ledger.next_act, hpending]
  refine ⟨?_, ?_, ?_, ?_, ?_⟩
  · show g.trip.next providers _ = (itinerary providers).run t (ms ++ [.act e y])
    rw [Protocol.run_append, ← h.trip]
    rfl
  · rw [hdues, hrecordings]
    cases hdropped : g.dropped with
    | true =>
        obtain ⟨hcounted, -, hdue⟩ := hgone hdropped
        rw [hcounted, hdue, List.append_nil, List.append_nil]
        exact h.recorded
    | false =>
        rw [h.exact hdropped, ← hrest]
        exact ⟨rest ++ g.trip.due x providers (.act e y), by simp⟩
  · intro hdropped
    rw [hdues, hrecordings, h.exact hdropped, ← hrest]
    simp
  · intro hdropped
    obtain ⟨-, hrest', hdue⟩ := hgone hdropped
    exact ⟨by simp [hrest', hdue], Trip.flows_move (h.gone hdropped).2 _⟩
  · simp [h.dropped]

/-- Items and drops record nothing, and nothing is due for them. -/
theorem Ledger.Balanced.move (h : g.Balanced x providers t ms)
    (hm : Kernel.Allowed (accounting x providers) g m) :
    (g.next x providers m).Balanced x providers t (ms ++ [m]) := by
  have hoff : (∀ e y, m ≠ .act e y) → t.dues x providers (ms ++ [m]) = t.dues x providers ms ∧
      recordings (ms ++ [m]) = recordings ms := by
    intro hnot
    cases m with
    | act e y => exact absurd rfl (hnot e y)
    | poll item =>
        simp [Trip.dues_snoc, recordings, counted, Trip.due, ApiCall.due, Trip.exhaustion]
    | drop => simp [Trip.dues_snoc, recordings, counted, Trip.due, ApiCall.due, Trip.exhaustion]
  have htrip : (g.next x providers m).trip = (itinerary providers).run t (ms ++ [m]) := by
    rw [Ledger.next_trip, Protocol.run_append, ← h.trip]
    rfl
  cases m with
  | act e y => exact h.act hm
  | poll item =>
      obtain ⟨hdues, hrecordings⟩ := hoff (by simp)
      refine ⟨htrip, ?_, ?_, ?_, ?_⟩
      · rw [hdues, hrecordings]
        exact h.recorded
      · rw [hdues, hrecordings, g.next_poll]
        exact h.exact
      · rw [g.next_poll, Ledger.next_trip]
        exact fun hdropped => ⟨(h.gone hdropped).1, Trip.flows_move (h.gone hdropped).2 _⟩
      · show g.dropped = true ↔ _
        rw [h.dropped]
        simp
  | drop =>
      obtain ⟨hdues, hrecordings⟩ := hoff (by simp)
      refine ⟨htrip, ?_, (fun hlive => by cases hlive), fun _ => ⟨rfl, rfl⟩, ?_⟩
      · rw [hdues, hrecordings]
        exact h.recorded
      · simp [Ledger.next]

theorem balanced_of_obeys (h : (accounting x providers).Obeys ⟨t, [], false⟩ ms) :
    ((accounting x providers).run ⟨t, [], false⟩ ms).Balanced x providers t ms := by
  have hclear : Ledger.Balanced x providers t ⟨t, [], false⟩ [] :=
    ⟨rfl, List.prefix_refl _, fun _ => rfl, (fun hgone => by cases hgone), by simp⟩
  exact Kernel.keeps_of_obeys (J := Ledger.Balanced x providers t) hclear
    (fun g ms m hg hm => hg.move hm) h

end Balance

section Reachable

variable {start : Instant} {p : Gateway.State} {i : Nat} {r : HttpRequest}
  {t : Task gatewaySig Idle}

/--
**Every outcome is counted, once and as what it was.**  In every reachable state what a request
has recorded in the counters of requests, errors and cache lookups is, in order, what was due on
its way: for a refusal by a limit, a cache hit or miss, the answer of each provider it was sent
to, each body that could not be read, and for having no provider that is available, or none that
has not failed.  Nothing that is due is missing when it has answered, unless it was dropped.
-/
theorem outcomes_counted (h : Gateway.Reachable x st start p)
    (ht : p.tasks[i]? = some (r, t)) :
    recordings (p.movesOf i) <+: (Trip.arrive x r).dues x st.sortedProviders (p.movesOf i) ∧
      ∀ idle, t.prog = .ret idle → .drop ∉ p.movesOf i →
        recordings (p.movesOf i) = (Trip.arrive x r).dues x st.sortedProviders (p.movesOf i) := by
  obtain ⟨hobeys, hfollows⟩ := Machine.Reaches.obeys gateway_counted rfl rfl h ht
  have hbalanced := balanced_of_obeys hobeys
  refine ⟨hbalanced.recorded, fun idle hidle hlive => ?_⟩
  have hsettled := hfollows.1
  rw [hidle, Prog.wp_ret] at hsettled
  have hpending : ((accounting x st.sortedProviders).run ⟨Trip.arrive x r, [], false⟩
      (p.movesOf i)).pending = [] := by
    cases idle with
    | responded resp => exact hsettled.1
    | closed => exact hsettled
  have hexact := hbalanced.exact ?_
  · rw [hpending, List.append_nil] at hexact
    exact hexact.symm
  · rw [← Bool.not_eq_true, hbalanced.dropped]
    exact hlive

/-- A move that is no drop. -/
def stays : GatewayMove → Bool
  | .drop => false
  | _ => true

end Reachable

/-- A chat request for which the provider cannot be reached, and one that then finds its breaker
OPEN. -/
def lostRun : Gateway.State :=
  (Gateway.replay repeatCrates repeatGateway anyStep unobserved
    [.spawn (smallChat false 10), goes 0, goes 0, .act 0 (.cached false), goes 0, goes 0, goes 0,
      .act 0 (.sent (.error "refused")), goes 0, goes 0, goes 0, goes 0,
      .spawn (smallChat false 10), goes 1, goes 1, .act 1 (.cached false), goes 1, goes 1, goes 1,
      goes 1]).1

/-- The first has lost its last provider, and the second had none. -/
theorem outcomes_counted_lost :
    (∃ r t, lostRun.tasks[0]? = some (r, t) ∧
      recordings (lostRun.movesOf 0) = (Trip.arrive repeatCrates r).dues repeatCrates
        repeatGateway.sortedProviders (lostRun.movesOf 0)) ∧
    (∃ r t, lostRun.tasks[1]? = some (r, t) ∧
      recordings (lostRun.movesOf 1) = (Trip.arrive repeatCrates r).dues repeatCrates
        repeatGateway.sortedProviders (lostRun.movesOf 1)) ∧
    recordings (lostRun.movesOf 0)
      = [.recordCacheMiss "exact", .recordError "p" "connect_error",
        .recordError "all" "all_providers_failed"] ∧
    recordings (lostRun.movesOf 1)
      = [.recordCacheMiss "exact", .recordError "all" "no_available_providers"] := by
  have hbooks : ∀ i, ((lostRun.tasks[i]?.bind fun t => responseOf t.2).isSome = true) →
      (lostRun.movesOf i).all stays = true → ∃ r t, lostRun.tasks[i]? = some (r, t) ∧
        recordings (lostRun.movesOf i) = (Trip.arrive repeatCrates r).dues repeatCrates
          repeatGateway.sortedProviders (lostRun.movesOf i) := by
    intro i hanswered hstays
    obtain ⟨resp, hsome⟩ := Option.isSome_iff_exists.mp hanswered
    obtain ⟨⟨r, t⟩, ht, hresp⟩ := Option.bind_eq_some_iff.mp hsome
    have hlive : .drop ∉ lostRun.movesOf i := fun hdrop =>
      absurd (List.all_eq_true.mp hstays _ hdrop) (by simp [stays])
    exact ⟨r, t, ht, (outcomes_counted (Gateway.replay_reachable _ _ _) ht).2 _
      (responseOf_some hresp) hlive⟩
  exact ⟨hbooks 0 (by decide +kernel) (by decide +kernel),
    hbooks 1 (by decide +kernel) (by decide +kernel), by decide +kernel, by decide +kernel⟩

end LlmGateway
