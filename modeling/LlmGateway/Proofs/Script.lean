/-
The script of the two handlers.

`Juncture` is where a request is when an answer decides how it goes on; between two of them a
handler does what is due, in a fixed order and whatever that is answered.  `react` says what is
due for each answer.  The chat and the embeddings handler have one script, with what they differ
in as functions of the call.

`wp_handler_scripted` runs both handlers symbolically.  It is the only place where that is done:
whatever else is said of all requests is shown of the junctures and their reactions, by
`wp_handler_upholds`.
-/
import LlmGateway.Lib.Script
import LlmGateway.Proofs.Ghost
import LlmGateway.Proofs.Handlers

namespace LlmGateway

open Effects

/-! ### Calls -/

/-- Why a payload was not accepted. -/
def ApiCall.malformed : ApiCall → Option String
  | .chat (.error e) => some e
  | .embeddings (.error e) => some e
  | _ => none

/-- The request asks for a stream. -/
def ApiCall.streams : ApiCall → Bool
  | .chat (.ok r) => r.stream
  | _ => false

/-- The model a chat request names. -/
def ApiCall.model : ApiCall → Option String
  | .chat (.ok r) => some r.model
  | _ => none

/-- The payload of a call cannot be serialized. -/
def ApiCall.Unwritable (x : Crates) : ApiCall → Prop
  | .chat (.ok r) => ∃ e, x.chatToString (injectStreamOptions r) = .error e
  | .embeddings (.ok r) => ∃ e, x.embeddingToString r = .error e
  | _ => False

/-- What the payload of a call is serialized to. -/
def ApiCall.written (x : Crates) : ApiCall → Except String (List UInt8)
  | .chat (.ok r) => Crates.toVec x.chatToString (injectStreamOptions r)
  | .embeddings (.ok r) => Crates.toVec x.embeddingToString r
  | _ => .error ""

/-- The outbound request of a call to a provider. -/
def ApiCall.outbound (provider : ProviderConfig) (body : List UInt8) : ApiCall → OutboundRequest
  | .chat _ => buildChatRequest provider body
  | .embeddings _ => buildEmbeddingsRequest provider body

/-- How an answer to a request is taken. -/
inductive Reception
  /-- It goes on to the next provider. -/
  | failed
  /-- The request is to blame. -/
  | rejected (s : StatusCode)
  | usable

/-- Statuses below 200 and from 300 on are good enough for a chat request only. -/
def ApiCall.receive (call : ApiCall) : Except String StatusCode → Reception
  | .error _ => .failed
  | .ok s =>
      if isRetryableUpstreamStatus s then .failed
      else if isNonRetryableClientError s then .rejected s
      else match call with
        | .chat _ => .usable
        | .embeddings _ => if s.isSuccess then .usable else .failed

/-- What the answer of a provider is counted as. -/
def ApiCall.outcome (call : ApiCall) (provider : String) : Except String StatusCode → Metric
  | .error _ => .recordError provider "connect_error"
  | .ok s =>
      if isRetryableUpstreamStatus s then .recordError provider "retryable_error"
      else if isNonRetryableClientError s then .recordError provider "client_error"
      else match call with
        | .chat _ => .recordRequest provider "success"
        | .embeddings _ =>
            if s.isSuccess then .recordRequest provider "success"
            else .recordError provider "unexpected_status"

/-- What the last error says of an answer that is not passed on. -/
def failureText (x : Crates) (provider : String) : Except String StatusCode → String
  | .error _ => provider ++ ": connection error"
  | .ok s => returnedText x provider s

/-- What a call is told if no provider is eligible. -/
def ApiCall.unavailable : ApiCall → String
  | .chat _ => "no available providers (all circuit breakers open)"
  | .embeddings _ => "no available providers"

/-- The headers of a body that is passed on. -/
def ApiCall.replyHeaders : ApiCall → List (String × String)
  | .chat _ => [("content-type", "application/json"), ("x-cache", "MISS")]
  | .embeddings _ => [("content-type", "application/json")]

/-- What is passed on of a body: its text, or the bytes as they are. -/
def ApiCall.reply (body : List UInt8) : ApiCall → List UInt8
  | .chat _ => asBytes (fromUtf8Lossy body)
  | .embeddings _ => body

/-! ### The script -/

/-- Where the answer to a request decides how it goes on. -/
inductive Juncture
  /-- It asks for its reservation. -/
  | admitted
  | looking (key : String) (hd : ReservationHandle)
  /-- `p` is looked at next; some providers are chosen, in order. -/
  | choosing (chosen : List ProviderConfig) (p : ProviderConfig) (todo : List ProviderConfig)
      (hd : ReservationHandle)
  /-- `p` is asked to let it through. -/
  | trying (p : ProviderConfig) (rest : List ProviderConfig) (lastError : Option String)
      (hd : ReservationHandle)
  | cleared (p : ProviderConfig) (rest : List ProviderConfig) (hd : ReservationHandle)
  | reading (p : ProviderConfig) (rest : List ProviderConfig) (hd : ReservationHandle)
  | finished (result : HandlerResult)

/-- What a handler does next. -/
abbrev Due := Cue gatewaySig Juncture

/-- The next candidate is tried; if there is none left, the request has failed. -/
def retry (lastError : Option String) (hd : ReservationHandle) : List ProviderConfig → Due
  | p :: rest => ⟨[], .trying p rest lastError hd⟩
  | [] => ⟨[.metric (.recordError "all" "all_providers_failed"), .dropHandle hd],
      .finished (.error (.upstream (lastError.getD "all providers failed")))⟩

/-- The failure of a provider is recorded and counted, and the next one is tried. -/
def giveUp (p : ProviderConfig) (counted : Metric) (text : String) (rest : List ProviderConfig)
    (hd : ReservationHandle) : Due :=
  (retry (some text) hd rest).after [.recordFailure p.name, .metric counted]

namespace ApiCall

/-- The next provider is looked at; then those chosen are tried, if there are any. -/
def choose (call : ApiCall) (hd : ReservationHandle) (chosen : List ProviderConfig) :
    List ProviderConfig → Due
  | p :: todo => ⟨[], .choosing chosen p todo hd⟩
  | [] =>
      match chosen with
      | p :: rest => ⟨[], .trying p rest none hd⟩
      | [] => ⟨[.metric (.recordError "all" "no_available_providers"), .dropHandle hd],
          .finished (.error (.upstream call.unavailable))⟩

/-- A request with a reservation: its payload is written, and looked up if it has a key. -/
def reserved (x : Crates) (st : AppState) (call : ApiCall) (hd : ReservationHandle) : Due :=
  match call.written x with
  | .error e =>
      ⟨[.dropHandle hd], .finished (.error (.internal ("failed to serialize payload: " ++ e)))⟩
  | .ok _ =>
      match call.key x with
      | some key => ⟨[], .looking key hd⟩
      | none => call.choose hd [] st.sortedProviders

/-- A cached text is passed on, and nothing is charged. -/
def cached (call : ApiCall) (hd : ReservationHandle) (text : String) : Due :=
  ⟨[.reconcile hd 0, .metric (.recordCacheHit "exact"), .metric .recordRequestLatency] ++
      call.model.toList.map (fun model => .metric (.recordRequest model "cache_hit")),
    .finished (.ok (cachedResponse text))⟩

/-- A usable answer is recorded and counted; the body is read, unless it is passed on as a
stream. -/
def opened (call : ApiCall) (p : ProviderConfig) (rest : List ProviderConfig)
    (hd : ReservationHandle) (counted : Metric) : Due :=
  Cue.after [.recordSuccess p.name, .metric counted, .metric (.recordUpstreamLatency p.name)]
    (if call.streams then
      ⟨[.metric .recordRequestLatency], .finished (.ok (chatStream p (some hd)))⟩
      else ⟨[], .reading p rest hd⟩)

/-- What the answer of a provider leads to. -/
def answered (x : Crates) (call : ApiCall) (p : ProviderConfig) (rest : List ProviderConfig)
    (hd : ReservationHandle) (answer : Except String StatusCode) : Due :=
  match call.receive answer with
  | .failed => giveUp p (call.outcome p.name answer) (failureText x p.name answer) rest hd
  | .rejected s => ⟨[.recordSuccess p.name, .metric (call.outcome p.name answer), .dropHandle hd],
      .finished (.error (.badRequest (rejectedText x s)))⟩
  | .usable => call.opened p rest hd (call.outcome p.name answer)

/-- A body broke off: a chat request goes on, an embedding request does not. -/
def bodyLost (call : ApiCall) (p : ProviderConfig) (rest : List ProviderConfig)
    (hd : ReservationHandle) : Due :=
  match call with
  | .chat _ =>
      giveUp p (.recordError p.name "body_read_error") (p.name ++ ": body read error") rest hd
  | .embeddings _ =>
      ⟨[.recordFailure p.name, .metric (.recordError p.name "body_read_error"), .dropHandle hd],
        .finished (.error (.upstream (p.name ++ ": body read error")))⟩

/-- The cache is filled, if the call has a key. -/
def fill (x : Crates) (call : ApiCall) (hd : ReservationHandle) (body : List UInt8) :
    List Effect :=
  (call.key x).toList.map fun key => .await (.cacheInsert key (fromUtf8Lossy body)) (some hd)

/-- The settlement with the usage a body reports, if it reports any. -/
def bill (x : Crates) (call : ApiCall) (provider : String) (hd : ReservationHandle)
    (body : List UInt8) : Option (List Effect) :=
  match call with
  | .chat _ => (bodyUsage x body).map fun t =>
      [.metric (.recordTokens provider "prompt" t.1),
        .metric (.recordTokens provider "completion" t.2), .reconcile hd (wrappingAdd t.1 t.2)]
  | .embeddings _ => (embeddingUsage x body).map fun n =>
      [.metric (.recordTokens provider "embedding" n), .reconcile hd n]

/-- A body is settled and passed on; a reservation it does not settle is dropped at the end. -/
def charged (x : Crates) (call : ApiCall) (p : ProviderConfig) (hd : ReservationHandle)
    (body : List UInt8) : Due where
  todo :=
    match call.bill x p.name hd body with
    | some settlement => settlement ++ [.metric .recordRequestLatency]
    | none => [.metric .recordRequestLatency, .dropHandle hd]
  cut := .finished (providerResponse call.replyHeaders p.name (call.reply body))

/-- A body was read. -/
def bodyRead (x : Crates) (call : ApiCall) (p : ProviderConfig) (hd : ReservationHandle)
    (body : List UInt8) : Due :=
  (call.charged x p hd body).after (call.fill x hd body)

/-- Where a handler begins. -/
def opening (call : ApiCall) : Juncture :=
  match call.malformed with
  | some e => .finished (.error (.fromJsonRejection e))
  | none => .admitted

end ApiCall

/-- What is asked at a juncture. -/
def Juncture.Asks (x : Crates) (identity : ClientIdentity) (call : ApiCall) :
    Juncture → Effect → Prop
  | .admitted, e => ∃ cost, call.estimate = some cost ∧ e = .tryReserveTpm identity.clientId cost
  | .looking key hd, e => e = .await (.cacheGet key) (some hd)
  | .choosing _ p _ _, e => e = .isEligible p.name
  | .trying p _ _ _, e => e = .allowRequest p.name
  | .cleared p _ hd, e => ∃ body, call.forwarded x = some body ∧
      e = .await (.send p.name (call.outbound p body)) (some hd)
  | .reading p _ hd, e => e = .await (.bytes p.name) (some hd)
  | .finished _, _ => False

/-- What is done with an answer. -/
def Juncture.react (x : Crates) (st : AppState) (call : ApiCall) :
    Juncture → (e : Effect) → e.Answer → Due
  | .admitted, .tryReserveTpm _ _, .ok hd => call.reserved x st hd
  | .admitted, .tryReserveTpm _ _, .error retryAfter =>
      ⟨[.metric (.recordError "rate_limit" "tpm_exceeded")],
        .finished (.error (.rateLimited retryAfter))⟩
  | .looking _ hd, .await (.cacheGet _) _, some text => call.cached hd text
  | .looking _ hd, .await (.cacheGet _) _, none =>
      (call.choose hd [] st.sortedProviders).after [.metric (.recordCacheMiss "exact")]
  | .choosing chosen p todo hd, .isEligible _, eligible =>
      call.choose hd (if eligible then chosen ++ [p] else chosen) todo
  | .trying p rest lastError hd, .allowRequest _, allowed =>
      if allowed then ⟨[], .cleared p rest hd⟩ else retry lastError hd rest
  | .cleared p rest hd, .await (.send _ _) _, answer => call.answered x p rest hd answer
  | .reading p rest hd, .await (.bytes _) _, .error _ => call.bodyLost p rest hd
  | .reading p _ hd, .await (.bytes _) _, .ok body => call.bodyRead x p hd body
  | juncture, _, _ => ⟨[], juncture⟩

/-- The script of the handler of a call. -/
def script (x : Crates) (st : AppState) (identity : ClientIdentity) (call : ApiCall) :
    Script gatewaySig Juncture where
  asks := Juncture.Asks x identity call
  react := Juncture.react x st call

/-! ### The handlers keep to it -/

section Walk

variable {x : Crates} {st : AppState} {identity : ClientIdentity} {call : ApiCall}
  {p : ProviderConfig} {rest : List ProviderConfig} {hd : ReservationHandle}

theorem injectStreamOptions_stream (r : ChatCompletionRequest) :
    (injectStreamOptions r).stream = r.stream := by
  unfold injectStreamOptions
  split <;> rfl

theorem injectStreamOptions_model (r : ChatCompletionRequest) :
    (injectStreamOptions r).model = r.model := by
  unfold injectStreamOptions
  split <;> rfl

theorem forwarded_written (x : Crates) (call : ApiCall) :
    call.forwarded x = (call.written x).toOption := by
  cases call with
  | chat payload => cases payload <;> rfl
  | embeddings payload => cases payload <;> rfl

theorem reserved_unwritten {e : String} (h : call.written x = .error e) :
    call.reserved x st hd = ⟨[.dropHandle hd],
      .finished (.error (.internal ("failed to serialize payload: " ++ e)))⟩ := by
  rw [ApiCall.reserved, h]

theorem reserved_written {body : List UInt8} (h : call.written x = .ok body) :
    call.reserved x st hd = match call.key x with
      | some key => ⟨[], .looking key hd⟩
      | none => call.choose hd [] st.sortedProviders := by
  rw [ApiCall.reserved, h]

/-- The scope of a reservation ends: what is left of it is dropped. -/
def ScopeEnds (a : HandlerResult × Option ReservationHandle) (c : Due) : Prop :=
  c = ⟨a.2.toList.map .dropHandle, .finished a.1⟩

/-- A round ends: the rest is tried with the reservation, or the scope ends. -/
def RoundTurns (rest : List ProviderConfig) (hd : ReservationHandle) : Flow → Due → Prop
  | .next lastError reservation, c => reservation = some hd ∧ c = retry lastError hd rest
  | .done result reservation, c => ScopeEnds (result, reservation) c

/-- What the handler of the call does. -/
abbrev scripted (x : Crates) (st : AppState) (identity : ClientIdentity) (call : ApiCall) :
    Protocol gatewaySig StreamItem Due :=
  (script x st identity call).protocol

theorem wp_contactFailed_scripted (error text : String) :
    (contactFailed p error text (some hd)).wp (scripted x st identity call)
      (giveUp p (.recordError p.name error) text rest hd) (RoundTurns rest hd) :=
  ⟨rfl, fun _ => ⟨rfl, fun _ => ⟨rfl, rfl⟩⟩⟩

theorem wp_attemptWith_scripted {request : OutboundRequest}
    {answered : StatusCode → Gateway Flow} (lastError : Option String)
    (hrequest : ∃ body, call.forwarded x = some body ∧ request = call.outbound p body)
    (hanswered : ∀ s, isRetryableUpstreamStatus s = false → isNonRetryableClientError s = false →
      (answered s).wp (scripted x st identity call) (call.answered x p rest hd (.ok s))
        (RoundTurns rest hd)) :
    (attemptWith x request answered p lastError (some hd)).wp (scripted x st identity call)
      ⟨[], .trying p rest lastError hd⟩ (RoundTurns rest hd) := by
  obtain ⟨body, hbody, rfl⟩ := hrequest
  unfold attemptWith allowRequest
  refine ⟨rfl, fun allowed => ?_⟩
  cases allowed with
  | false => exact ⟨rfl, rfl⟩
  | true =>
      refine ⟨⟨body, hbody, rfl⟩, fun answer => ?_⟩
      cases answer with
      | error e => exact wp_contactFailed_scripted _ _
      | ok s =>
          show Prog.wp _ (if isRetryableUpstreamStatus s then _ else _)
            (call.answered x p rest hd (.ok s)) _
          by_cases hretry : isRetryableUpstreamStatus s = true
          · have hdue : call.answered x p rest hd (.ok s)
                = giveUp p (.recordError p.name "retryable_error") (returnedText x p.name s) rest
                    hd := by
              simp [ApiCall.answered, ApiCall.receive, ApiCall.outcome, failureText, hretry]
            rw [if_pos hretry, hdue]
            exact wp_contactFailed_scripted _ _
          rw [if_neg hretry]
          by_cases hclient : isNonRetryableClientError s = true
          · have hdue : call.answered x p rest hd (.ok s)
                = ⟨[.recordSuccess p.name, .metric (.recordError p.name "client_error"),
                    .dropHandle hd], .finished (.error (.badRequest (rejectedText x s)))⟩ := by
              simp [ApiCall.answered, ApiCall.receive, ApiCall.outcome, hretry, hclient]
            rw [if_pos hclient, hdue]
            exact ⟨rfl, fun _ => ⟨rfl, fun _ => rfl⟩⟩
          rw [if_neg hclient]
          exact hanswered s (by simpa using hretry) (by simpa using hclient)

/-- Settling a chat request with its body, and observing it. -/
theorem wp_chatUsage_scripted {r : ChatCompletionRequest} {body : List UInt8} :
    ((chatUsage x p.name (some hd) (fromUtf8Lossy body)).bind fun reservation =>
        Prog.op (.metric .recordRequestLatency) fun _ => .ret (.done
          (providerResponse (ApiCall.chat (.ok r)).replyHeaders p.name
            (asBytes (fromUtf8Lossy body))) reservation)).wp
      (scripted x st identity (.chat (.ok r))) ((ApiCall.chat (.ok r)).charged x p hd body)
      (RoundTurns rest hd) := by
  unfold chatUsage ApiCall.charged ApiCall.bill bodyUsage
  cases (x.fromStr (fromUtf8Lossy body)).bind fun v => v.get "usage" with
  | none => exact ⟨rfl, fun _ => rfl⟩
  | some usage => exact ⟨rfl, fun _ => ⟨rfl, fun _ => ⟨rfl, fun _ => ⟨rfl, fun _ => rfl⟩⟩⟩⟩

theorem wp_chatAnswered_scripted {r : ChatCompletionRequest} {s : StatusCode}
    (hretry : isRetryableUpstreamStatus s = false) (hclient : isNonRetryableClientError s = false) :
    (chatAnswered x r.stream (requestKey x r) p (some hd)).wp
      (scripted x st identity (.chat (.ok r)))
      ((ApiCall.chat (.ok r)).answered x p rest hd (.ok s)) (RoundTurns rest hd) := by
  have hdue : (ApiCall.chat (.ok r)).answered x p rest hd (.ok s)
      = (ApiCall.chat (.ok r)).opened p rest hd (.recordRequest p.name "success") := by
    simp [ApiCall.answered, ApiCall.receive, ApiCall.outcome, hretry, hclient]
  rw [hdue]
  unfold chatAnswered recordSuccess metric
  refine ⟨rfl, fun _ => ⟨rfl, fun _ => ⟨rfl, fun _ => ?_⟩⟩⟩
  show Prog.wp _ _ (if r.stream then _ else _ : Due) _
  cases r.stream with
  | true => exact ⟨rfl, fun _ => rfl⟩
  | false =>
      refine ⟨rfl, fun answer => ?_⟩
      cases answer with
      | error e => exact ⟨rfl, fun _ => ⟨rfl, fun _ => ⟨rfl, rfl⟩⟩⟩
      | ok body =>
          show Prog.wp _ ((fillCache _ _ _).bind _)
            ((ApiCall.chat (.ok r)).bodyRead x p hd body) _
          have hbody : (ApiCall.chat (.ok r)).bodyRead x p hd body
              = ((ApiCall.chat (.ok r)).charged x p hd body).after
                ((requestKey x r).toList.map fun key =>
                  Effect.await (.cacheInsert key (fromUtf8Lossy body)) (some hd)) := rfl
          rw [hbody]
          cases requestKey x r with
          | none => exact wp_chatUsage_scripted
          | some key => exact ⟨rfl, fun _ => wp_chatUsage_scripted⟩

theorem wp_embeddingsGoesOn_scripted {r : EmbeddingRequest} {s : StatusCode}
    (hretry : isRetryableUpstreamStatus s = false) (hclient : isNonRetryableClientError s = false) :
    (embeddingsGoesOn x p (some hd) s).wp (scripted x st identity (.embeddings (.ok r)))
      ((ApiCall.embeddings (.ok r)).answered x p rest hd (.ok s)) (RoundTurns rest hd) := by
  unfold embeddingsGoesOn
  cases hsuccess : s.isSuccess with
  | false =>
      have hdue : (ApiCall.embeddings (.ok r)).answered x p rest hd (.ok s)
          = giveUp p (.recordError p.name "unexpected_status") (returnedText x p.name s) rest
              hd := by
        simp [ApiCall.answered, ApiCall.receive, ApiCall.outcome, failureText, hretry, hclient,
          hsuccess]
      rw [hdue]
      exact wp_contactFailed_scripted _ _
  | true =>
      have hdue : (ApiCall.embeddings (.ok r)).answered x p rest hd (.ok s)
          = (ApiCall.embeddings (.ok r)).opened p rest hd (.recordRequest p.name "success") := by
        simp [ApiCall.answered, ApiCall.receive, ApiCall.outcome, hretry, hclient, hsuccess]
      rw [hdue]
      show Prog.wp _ (embeddingsAnswered x p (some hd)) _ _
      unfold embeddingsAnswered recordSuccess metric
      refine ⟨rfl, fun _ => ⟨rfl, fun _ => ⟨rfl, fun _ => ⟨rfl, fun answer => ?_⟩⟩⟩⟩
      cases answer with
      | error e => exact ⟨rfl, fun _ => ⟨rfl, fun _ => rfl⟩⟩
      | ok body =>
          show Prog.wp _ ((embeddingsUsage x p.name (some hd) body).bind _)
            ((ApiCall.embeddings (.ok r)).bodyRead x p hd body) _
          unfold embeddingsUsage ApiCall.bodyRead ApiCall.charged ApiCall.bill embeddingUsage
          cases (x.fromSlice body).bind fun v => v.get "usage" with
          | none => exact ⟨rfl, fun _ => rfl⟩
          | some usage => exact ⟨rfl, fun _ => ⟨rfl, fun _ => ⟨rfl, fun _ => rfl⟩⟩⟩

/-- The loop goes on with what is left of the candidates. -/
theorem wp_failoverLoop_scripted
    {attempt : ProviderConfig → Option String → Option ReservationHandle → Gateway Flow}
    (hattempt : ∀ p rest lastError, (attempt p lastError (some hd)).wp (scripted x st identity call)
      ⟨[], .trying p rest lastError hd⟩ (RoundTurns rest hd))
    (cands : List ProviderConfig) (lastError : Option String) :
    (failoverLoop attempt cands lastError (some hd)).wp (scripted x st identity call)
      (retry lastError hd cands) ScopeEnds := by
  induction cands generalizing lastError with
  | nil => exact ⟨rfl, fun _ => rfl⟩
  | cons p rest ih =>
      unfold failoverLoop
      refine Prog.wp_call (hattempt p rest lastError) fun flow c hflow => ?_
      cases flow with
      | next lastError reservation =>
          obtain ⟨rfl, rfl⟩ := hflow
          exact ih lastError
      | done result reservation => exact hflow

/-- Whom selection finds eligible is chosen, in order. -/
theorem wp_selectFrom_scripted (ps chosen : List ProviderConfig) :
    (selectFrom ps).wp (scripted x st identity call) (call.choose hd chosen ps)
      fun cands c => c = call.choose hd (chosen ++ cands) [] := by
  induction ps generalizing chosen with
  | nil =>
      show call.choose hd chosen [] = _
      rw [List.append_nil]
  | cons p ps ih =>
      unfold selectFrom
      refine ⟨rfl, fun eligible => ?_⟩
      show Prog.wp _ ((selectFrom ps).bind _)
        (call.choose hd (if eligible then chosen ++ [p] else chosen) ps) _
      refine Prog.wp_call (ih _) ?_
      rintro cands c rfl
      cases eligible with
      | true =>
          show call.choose hd (chosen ++ [p] ++ cands) [] = call.choose hd (chosen ++ p :: cands) []
          rw [List.append_assoc]
          rfl
      | false => exact rfl

/-- Selection, and the loop over what is chosen. -/
theorem wp_selected_scripted
    {loop : List ProviderConfig → Gateway (HandlerResult × Option ReservationHandle)}
    (hloop : ∀ p rest, (loop (p :: rest)).wp (scripted x st identity call)
      (retry none hd (p :: rest)) ScopeEnds) :
    ((selectOrdered st).bind fun candidates =>
        if candidates.isEmpty then
          Prog.op (.metric (.recordError "all" "no_available_providers")) fun _ =>
            .ret (.error (.upstream call.unavailable), some hd)
        else loop candidates).wp (scripted x st identity call)
      (call.choose hd [] st.sortedProviders) ScopeEnds := by
  refine Prog.wp_call (wp_selectFrom_scripted st.sortedProviders []) ?_
  rintro cands c rfl
  rw [List.nil_append]
  cases cands with
  | nil => exact ⟨rfl, fun _ => rfl⟩
  | cons p rest => exact hloop p rest

theorem wp_chatDispatch_scripted {r : ChatCompletionRequest} {body : List UInt8}
    (hbody : Crates.toVec x.chatToString (injectStreamOptions r) = .ok body) :
    (chatDispatch x st (injectStreamOptions r) (requestKey x r) (some hd)).wp
      (scripted x st identity (.chat (.ok r)))
      ((ApiCall.chat (.ok r)).choose hd [] st.sortedProviders) ScopeEnds := by
  unfold chatDispatch
  rw [hbody]
  refine wp_selected_scripted fun p rest => ?_
  dsimp only
  rw [chatLoop_eq, injectStreamOptions_stream]
  refine wp_failoverLoop_scripted (fun p rest lastError => ?_) (p :: rest) none
  rw [chatAttempt_eq]
  refine wp_attemptWith_scripted lastError ⟨body, ?_, rfl⟩ ?_
  · rw [forwarded_written, ApiCall.written, hbody]
    rfl
  · intro s hretry hclient
    exact wp_chatAnswered_scripted hretry hclient

theorem wp_chatAdmitted_scripted (r : ChatCompletionRequest) :
    (chatAdmitted x st (injectStreamOptions r) (some hd)).wp
      (scripted x st identity (.chat (.ok r))) ((ApiCall.chat (.ok r)).reserved x st hd)
      ScopeEnds := by
  unfold chatAdmitted
  cases htext : x.chatToString (injectStreamOptions r) with
  | error e =>
      rw [reserved_unwritten (e := e) (by rw [ApiCall.written, Crates.toVec, htext]; rfl)]
      exact rfl
  | ok text =>
      have hvec : Crates.toVec x.chatToString (injectStreamOptions r) = .ok (asBytes text) := by
        rw [Crates.toVec, htext]
        rfl
      have hkey : chatCacheKey x (injectStreamOptions r) text = requestKey x r := by
        rw [requestKey, htext]
      have hdispatch : (chatDispatch x st (injectStreamOptions r) (requestKey x r) (some hd)).wp
          (scripted x st identity (.chat (.ok r)))
          ((ApiCall.chat (.ok r)).choose hd [] st.sortedProviders) ScopeEnds :=
        wp_chatDispatch_scripted hvec
      rw [reserved_written (show (ApiCall.chat (.ok r)).written x = .ok _ from hvec)]
      dsimp only
      rw [hkey]
      unfold chatLookup
      show Prog.wp _ _ (match requestKey x r with | some key => _ | none => _ : Due) _
      cases hsome : requestKey x r with
      | none =>
          rw [hsome] at hdispatch
          exact hdispatch
      | some key =>
          rw [hsome] at hdispatch
          refine ⟨rfl, fun answer => ?_⟩
          cases answer with
          | none => exact ⟨rfl, fun _ => hdispatch⟩
          | some cached =>
              refine ⟨rfl, fun _ => ⟨rfl, fun _ => ⟨rfl, fun _ => ⟨?_, fun _ => rfl⟩⟩⟩⟩
              show Effect.metric _ = Effect.metric _
              rw [injectStreamOptions_model]

theorem wp_embeddingsAdmitted_scripted (r : EmbeddingRequest) :
    (embeddingsAdmitted x st r (some hd)).wp (scripted x st identity (.embeddings (.ok r)))
      ((ApiCall.embeddings (.ok r)).reserved x st hd) ScopeEnds := by
  unfold embeddingsAdmitted
  cases hvec : Crates.toVec x.embeddingToString r with
  | error e =>
      rw [reserved_unwritten (show (ApiCall.embeddings (.ok r)).written x = .error e from hvec)]
      exact rfl
  | ok body =>
      rw [reserved_written (show (ApiCall.embeddings (.ok r)).written x = .ok body from hvec)]
      refine wp_selected_scripted fun p rest => ?_
      rw [embeddingsLoop_eq]
      refine wp_failoverLoop_scripted (fun p rest lastError => ?_) (p :: rest) none
      rw [embeddingsAttempt_eq]
      refine wp_attemptWith_scripted lastError ⟨body, ?_, rfl⟩ ?_
      · rw [forwarded_written, ApiCall.written, hvec]
        rfl
      · intro s hretry hclient
        exact wp_embeddingsGoesOn_scripted hretry hclient

/-- What is left of the reservation is dropped. -/
theorem wp_scope_scripted {program : Gateway (HandlerResult × Option ReservationHandle)} {c : Due}
    (h : program.wp (scripted x st identity call) c ScopeEnds) :
    (program.bind fun a => (dropReservation a.2).bind fun _ => .ret a.1).wp
      (scripted x st identity call) c
      fun result c' => c'.todo = [] ∧ c'.cut = .finished result := by
  refine Prog.wp_call h ?_
  rintro ⟨result, reservation⟩ c rfl
  cases reservation with
  | none => exact ⟨rfl, rfl⟩
  | some hd => exact ⟨rfl, fun _ => ⟨rfl, rfl⟩⟩

/-- **Both handlers keep to the script.** -/
theorem wp_handler_scripted (x : Crates) (st : AppState) (identity : ClientIdentity)
    (call : ApiCall) :
    (handler x st identity call).wp (scripted x st identity call) ⟨[], call.opening⟩
      fun result c => c.todo = [] ∧ c.cut = .finished result := by
  cases call with
  | chat payload =>
      cases payload with
      | error e => exact ⟨rfl, rfl⟩
      | ok r =>
          refine ⟨⟨_, rfl, rfl⟩, fun answer => ?_⟩
          cases answer with
          | error retryAfter => exact ⟨rfl, fun _ => ⟨rfl, rfl⟩⟩
          | ok hd => exact wp_scope_scripted (wp_chatAdmitted_scripted r)
  | embeddings payload =>
      cases payload with
      | error e => exact ⟨rfl, rfl⟩
      | ok r =>
          refine ⟨⟨_, rfl, rfl⟩, fun answer => ?_⟩
          cases answer with
          | error retryAfter => exact ⟨rfl, fun _ => ⟨rfl, rfl⟩⟩
          | ok hd => exact wp_scope_scripted (wp_embeddingsAdmitted_scripted r)

end Walk

/-! ### Answers -/

section Answers

variable {call : ApiCall} {answer : Except String StatusCode} {s : StatusCode}

theorem receive_failed (h : call.receive answer = .failed) : isFailure answer = true := by
  cases answer with
  | error e => rfl
  | ok s =>
      by_cases hretry : isRetryableUpstreamStatus s = true
      · simp [isFailure, hretry]
      by_cases hclient : isNonRetryableClientError s = true
      · simp [ApiCall.receive, hretry, hclient] at h
      cases call with
      | chat payload => simp [ApiCall.receive, hretry, hclient] at h
      | embeddings payload =>
          cases hsuccess : s.isSuccess with
          | true => simp [ApiCall.receive, hretry, hclient, hsuccess] at h
          | false => simp [isFailure, hclient, hsuccess]

theorem receive_rejected (h : call.receive answer = .rejected s) :
    answer = .ok s ∧ isRetryableUpstreamStatus s = false ∧ isNonRetryableClientError s = true := by
  cases answer with
  | error e => cases h
  | ok s' =>
      by_cases hretry : isRetryableUpstreamStatus s' = true
      · simp [ApiCall.receive, hretry] at h
      by_cases hclient : isNonRetryableClientError s' = true
      · obtain rfl : s' = s := by simpa [ApiCall.receive, hretry, hclient] using h
        exact ⟨rfl, by simpa using hretry, hclient⟩
      · cases call with
        | chat payload => simp [ApiCall.receive, hretry, hclient] at h
        | embeddings payload =>
            cases hsuccess : s'.isSuccess <;>
              simp [ApiCall.receive, hretry, hclient, hsuccess] at h

theorem receive_usable (h : call.receive answer = .usable) :
    ∃ s, answer = .ok s ∧ isRetryableUpstreamStatus s = false ∧
      isNonRetryableClientError s = false := by
  cases answer with
  | error e => cases h
  | ok s =>
      by_cases hretry : isRetryableUpstreamStatus s = true
      · simp [ApiCall.receive, hretry] at h
      by_cases hclient : isNonRetryableClientError s = true
      · simp [ApiCall.receive, hretry, hclient] at h
      · exact ⟨s, rfl, by simpa using hretry, by simpa using hclient⟩

/-- A failure is counted as an error of its provider. -/
theorem outcome_failed (h : call.receive answer = .failed) (provider : String) :
    ∃ error ∈ ["connect_error", "retryable_error", "unexpected_status"],
      call.outcome provider answer = .recordError provider error := by
  cases answer with
  | error e => exact ⟨_, by simp, rfl⟩
  | ok s =>
      by_cases hretry : isRetryableUpstreamStatus s = true
      · exact ⟨"retryable_error", by simp, by simp [ApiCall.outcome, hretry]⟩
      by_cases hclient : isNonRetryableClientError s = true
      · simp [ApiCall.receive, hretry, hclient] at h
      cases call with
      | chat payload => simp [ApiCall.receive, hretry, hclient] at h
      | embeddings payload =>
          cases hsuccess : s.isSuccess with
          | true => simp [ApiCall.receive, hretry, hclient, hsuccess] at h
          | false =>
              exact ⟨"unexpected_status", by simp,
                by simp [ApiCall.outcome, hretry, hclient, hsuccess]⟩

theorem outcome_rejected (h : call.receive answer = .rejected s) (provider : String) :
    call.outcome provider answer = .recordError provider "client_error" := by
  obtain ⟨rfl, hretry, hclient⟩ := receive_rejected h
  simp [ApiCall.outcome, hretry, hclient]

theorem outcome_usable (h : call.receive answer = .usable) (provider : String) :
    call.outcome provider answer = .recordRequest provider "success" := by
  obtain ⟨s, rfl, hretry, hclient⟩ := receive_usable h
  cases call with
  | chat payload => simp [ApiCall.outcome, hretry, hclient]
  | embeddings payload =>
      cases hsuccess : s.isSuccess with
      | true => simp [ApiCall.outcome, hretry, hclient, hsuccess]
      | false => simp [ApiCall.receive, hretry, hclient, hsuccess] at h

end Answers

/-! ### What is known at a juncture -/

/-- What holds wherever a request comes to a juncture: the providers that are named are
configured, the key is that of the call, and what is read is no stream. -/
def Juncture.Known (x : Crates) (st : AppState) (call : ApiCall) : Juncture → Prop
  | .admitted => True
  | .looking key _ => call.key x = some key
  | .choosing chosen p todo _ => ∀ q ∈ chosen ++ p :: todo, q ∈ st.sortedProviders
  | .trying p rest _ _ => ∀ q ∈ p :: rest, q ∈ st.sortedProviders
  | .cleared p rest _ => ∀ q ∈ p :: rest, q ∈ st.sortedProviders
  | .reading p rest _ => call.streams = false ∧ ∀ q ∈ p :: rest, q ∈ st.sortedProviders
  | .finished _ => True

section Known

variable {x : Crates} {st : AppState} {identity : ClientIdentity} {call : ApiCall}
  {hd : ReservationHandle}

theorem known_retry {cands : List ProviderConfig} (h : ∀ q ∈ cands, q ∈ st.sortedProviders)
    (lastError : Option String) : (retry lastError hd cands).cut.Known x st call := by
  cases cands with
  | nil => exact trivial
  | cons p rest => exact h

theorem known_choose {chosen todo : List ProviderConfig}
    (h : ∀ q ∈ chosen ++ todo, q ∈ st.sortedProviders) :
    (call.choose hd chosen todo).cut.Known x st call := by
  cases todo with
  | cons p todo => exact h
  | nil =>
      rw [List.append_nil] at h
      cases chosen with
      | nil => exact trivial
      | cons p rest => exact h

theorem known_answered {p : ProviderConfig} {rest : List ProviderConfig}
    (h : ∀ q ∈ p :: rest, q ∈ st.sortedProviders) (answer : Except String StatusCode) :
    (call.answered x p rest hd answer).cut.Known x st call := by
  unfold ApiCall.answered
  cases call.receive answer with
  | failed => exact known_retry (fun q hq => h q (List.mem_cons_of_mem _ hq)) _
  | rejected s => exact trivial
  | usable =>
      show (if call.streams then _ else _ : Due).cut.Known x st call
      cases hs : call.streams with
      | true => exact trivial
      | false => exact ⟨hs, h⟩

/-- It stays known. -/
theorem known_stable : (script x st identity call).Stable (Juncture.Known x st call) := by
  intro juncture e y hknown hasks
  cases juncture with
  | admitted =>
      obtain ⟨cost, -, rfl⟩ := hasks
      cases y with
      | error retryAfter => exact trivial
      | ok hd =>
          show (call.reserved x st hd).cut.Known x st call
          unfold ApiCall.reserved
          cases call.written x with
          | error e => exact trivial
          | ok body =>
              cases hkey : call.key x with
              | some key => exact hkey
              | none => exact known_choose fun q hq => hq
  | looking key hd =>
      obtain rfl := hasks
      cases y with
      | none => exact known_choose fun q hq => hq
      | some text => exact trivial
  | choosing chosen p todo hd =>
      obtain rfl := hasks
      cases y with
      | true =>
          refine known_choose fun q hq => hknown q ?_
          rw [if_pos rfl, ← List.append_cons] at hq
          exact hq
      | false =>
          refine known_choose fun q hq => hknown q ?_
          exact ((List.sublist_cons_self p todo).append_left chosen).subset hq
  | trying p rest lastError hd =>
      obtain rfl := hasks
      cases y with
      | true => exact hknown
      | false => exact known_retry (fun q hq => hknown q (List.mem_cons_of_mem _ hq)) _
  | cleared p rest hd =>
      obtain ⟨body, -, rfl⟩ := hasks
      exact known_answered hknown y
  | reading p rest hd =>
      obtain rfl := hasks
      cases y with
      | ok body => exact trivial
      | error e =>
          cases call with
          | chat payload => exact known_retry (fun q hq => hknown.2 q (List.mem_cons_of_mem _ hq)) _
          | embeddings payload => exact trivial
  | finished result => exact hasks.elim

/-- **The rule for both handlers**: a protocol is kept if an invariant of the junctures survives
every answer and what is due for it. -/
theorem wp_handler_upholds {G : Type} {π : Protocol gatewaySig StreamItem G}
    {J : Juncture → G → Prop}
    (hJ : (script x st identity call).Upholds π (Juncture.Known x st call) J) {g : G}
    (hg : J call.opening g) :
    (handler x st identity call).wp π g fun result g' => J (.finished result) g' := by
  have hknown : call.opening.Known x st call := by
    unfold ApiCall.opening
    cases call.malformed <;> exact trivial
  refine Prog.wp_mono (Script.wp_of_script (c := ⟨[], call.opening⟩)
    (Q := fun result juncture => juncture = .finished result) known_stable hJ
    (wp_handler_scripted x st identity call) hknown hg) ?_
  rintro result g' ⟨juncture, rfl, h⟩
  exact h

end Known

/-! ### What is due for a text or a body -/

section Billed

variable {x : Crates} {call : ApiCall} {p : ProviderConfig} {hd : ReservationHandle}

theorem billing_fill (body : List UInt8) : ∀ e ∈ call.fill x hd body, Billing p.name e := by
  intro e he
  obtain ⟨key, -, rfl⟩ := List.mem_map.mp he
  exact trivial

theorem billing_bill {body : List UInt8} {settlement : List Effect}
    (h : call.bill x p.name hd body = some settlement) : ∀ e ∈ settlement, Billing p.name e := by
  intro e he
  cases call with
  | chat payload =>
      obtain ⟨t, -, rfl⟩ := Option.map_eq_some_iff.mp h
      simp only [List.mem_cons, List.not_mem_nil, or_false] at he
      rcases he with rfl | rfl | rfl
      · exact ⟨"prompt", t.1, by simp, rfl⟩
      · exact ⟨"completion", t.2, by simp, rfl⟩
      · exact trivial
  | embeddings payload =>
      obtain ⟨n, -, rfl⟩ := Option.map_eq_some_iff.mp h
      simp only [List.mem_cons, List.not_mem_nil, or_false] at he
      rcases he with rfl | rfl
      · exact ⟨"embedding", n, by simp, rfl⟩
      · exact trivial

/-- What is due for a cached text settles the reservation, or records a metric. -/
theorem cached_todo {call : ApiCall} {hd : ReservationHandle} {text : String} :
    ∀ e ∈ (call.cached hd text).todo, e = .reconcile hd 0 ∨ ∃ m, e = .metric m := by
  intro e he
  simp only [ApiCall.cached, List.mem_append, List.mem_cons, List.mem_map, List.not_mem_nil,
    or_false] at he
  rcases he with (rfl | rfl | rfl) | ⟨model, -, rfl⟩
  · exact Or.inl rfl
  · exact Or.inr ⟨_, rfl⟩
  · exact Or.inr ⟨_, rfl⟩
  · exact Or.inr ⟨_, rfl⟩

/-- A body is billed, and the request observed once in between. -/
theorem bodyRead_todo (x : Crates) (call : ApiCall) (p : ProviderConfig) (hd : ReservationHandle)
    (body : List UInt8) :
    ∃ before after, (call.bodyRead x p hd body).todo
        = before ++ .metric .recordRequestLatency :: after ∧
      (∀ e ∈ before, Billing p.name e) ∧ ∀ e ∈ after, Billing p.name e := by
  cases hbill : call.bill x p.name hd body with
  | none =>
      refine ⟨call.fill x hd body, [.dropHandle hd], ?_, billing_fill body, ?_⟩
      · simp only [ApiCall.bodyRead, ApiCall.charged, Cue.after, hbill]
      · intro e he
        obtain rfl := List.mem_singleton.mp he
        exact trivial
  | some settlement =>
      refine ⟨call.fill x hd body ++ settlement, [], ?_, ?_, by simp⟩
      · simp only [ApiCall.bodyRead, ApiCall.charged, Cue.after, hbill, List.append_assoc]
      · intro e he
        rcases List.mem_append.mp he with hfill | hsettle
        · exact billing_fill body e hfill
        · exact billing_bill hbill e hsettle

end Billed

end LlmGateway
