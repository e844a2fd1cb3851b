/-
The `/v1/chat/completions` handler, `chat.rs`.

The body of the failover loop is `chatAttempt`, the loop `chatLoop`; what follows the
admission is `chatAdmitted`, so that `chatCompletions` is the scope the reservation lives
in.  `rpm` limiting happens in a middleware before.
-/
import LlmGateway.Handlers.Common
import LlmGateway.Router.Selector
import LlmGateway.Proxy.Client
import LlmGateway.Cache.Exact

namespace LlmGateway

open Effects

/-- A streaming request without `stream_options` of its own asks for usage. -/
def injectStreamOptions (payload : ChatCompletionRequest) : ChatCompletionRequest :=
  if payload.stream && payload.streamOptions.isNone then
    { payload with streamOptions := some { includeUsage := true } }
  else payload

/-- The tokens reserved before dispatch. -/
def estimateChatTokens (payload : ChatCompletionRequest) : ℚ :=
  ((payload.maxTokens.getD 256).toNat : ℚ) + (payload.messages.length : ℚ) * 20

/-- The key of a request: only a request that does not stream has one. -/
def chatCacheKey (x : Crates) (payload : ChatCompletionRequest) (promptPayload : String) :
    Option String :=
  if payload.stream then none
  else computeKey x payload.model promptPayload payload.temperature

/-- The settlement of a chat request: record the tokens, reconcile with their sum. -/
def settleUsage (provider : String) (reservation : Option ReservationHandle)
    (tokens : Nat × Nat) : Gateway Unit := do
  metric (.recordTokens provider "prompt" tokens.1)
  metric (.recordTokens provider "completion" tokens.2)
  reconcileTaken reservation (wrappingAdd tokens.1 tokens.2)

/-- The two callbacks of a stream, and its response. -/
def chatStream (provider : ProviderConfig) (reservation : Option ReservationHandle) :
    Response BodyStream :=
  proxyStreamPassthrough provider.name provider.streamIdleTimeoutSeconds.toNat
    { call := settleUsage provider.name reservation
      drop := dropReservation reservation }
    { call := fun _ => recordFailure provider.name
      drop := pure () }

/-- Usage accounting of a body that was read; returns what is left of the reservation. -/
def chatUsage (x : Crates) (provider : String) (reservation : Option ReservationHandle)
    (bodyStr : String) : Gateway (Option ReservationHandle) :=
  match (x.fromStr bodyStr).bind fun v => v.get "usage" with
  | some usage => do
      settleUsage provider reservation (SseParser.usageTokens usage)
      return none
  | none => pure reservation

/-- Fill the cache, if the request has a key. -/
def fillCache (cacheKey : Option String) (bodyStr : String)
    (reservation : Option ReservationHandle) : Gateway Unit :=
  match cacheKey with
  | some key => cacheInsert key bodyStr reservation
  | none => pure ()

/-- The part of the loop body after a response that is neither retried nor rejected. -/
def chatAnswered (x : Crates) (isStream : Bool) (cacheKey : Option String)
    (provider : ProviderConfig) (reservation : Option ReservationHandle) : Gateway Flow := do
  recordSuccess provider.name
  metric (.recordRequest provider.name "success")
  metric (.recordUpstreamLatency provider.name)
  if isStream then
    metric .recordRequestLatency
    return .done (.ok (chatStream provider reservation)) none
  else
    match ← bytes provider.name reservation with
    | .error _ =>
        recordFailure provider.name
        metric (.recordError provider.name "body_read_error")
        return .next (some (provider.name ++ ": body read error")) reservation
    | .ok body =>
        let bodyStr := fromUtf8Lossy body
        fillCache cacheKey bodyStr reservation
        let reservation ← chatUsage x provider.name reservation bodyStr
        metric .recordRequestLatency
        return .done (providerResponse [("content-type", "application/json"), ("x-cache", "MISS")]
          provider.name (asBytes bodyStr)) reservation

/-- The body of the failover loop. -/
def chatAttempt (x : Crates) (isStream : Bool) (cacheKey : Option String) (body : List UInt8)
    (provider : ProviderConfig) (lastError : Option String)
    (reservation : Option ReservationHandle) : Gateway Flow := do
  if ← allowRequest provider.name then
    match ← send provider.name (buildChatRequest provider body) reservation with
    | .error _ =>
        recordFailure provider.name
        metric (.recordError provider.name "connect_error")
        return .next (some (provider.name ++ ": connection error")) reservation
    | .ok status =>
        if isRetryableUpstreamStatus status then
          recordFailure provider.name
          metric (.recordError provider.name "retryable_error")
          return .next (some (returnedText x provider.name status)) reservation
        else if isNonRetryableClientError status then
          recordSuccess provider.name
          metric (.recordError provider.name "client_error")
          return .done (.error (.badRequest (rejectedText x status))) reservation
        else chatAnswered x isStream cacheKey provider reservation
  else return .next lastError reservation

/-- The failover loop; returns the result and what is left of the reservation. -/
def chatLoop (x : Crates) (isStream : Bool) (cacheKey : Option String) (body : List UInt8) :
    List ProviderConfig → Option String → Option ReservationHandle →
      Gateway (HandlerResult × Option ReservationHandle)
  | [], lastError, reservation => do
      metric (.recordError "all" "all_providers_failed")
      return (.error (.upstream (lastError.getD "all providers failed")), reservation)
  | provider :: rest, lastError, reservation => do
      match ← chatAttempt x isStream cacheKey body provider lastError reservation with
      | .next lastError reservation => chatLoop x isStream cacheKey body rest lastError reservation
      | .done result reservation => return (result, reservation)

/-- Provider selection and everything after it. -/
def chatDispatch (x : Crates) (st : AppState) (payload : ChatCompletionRequest)
    (cacheKey : Option String) (reservation : Option ReservationHandle) :
    Gateway (HandlerResult × Option ReservationHandle) := do
  let candidates ← selectOrdered st
  if candidates.isEmpty then
    metric (.recordError "all" "no_available_providers")
    return (.error (.upstream "no available providers (all circuit breakers open)"), reservation)
  else
    match Crates.toVec x.chatToString payload with
    | .error e =>
        return (.error (.internal ("failed to serialize payload: " ++ e)), reservation)
    | .ok body => chatLoop x payload.stream cacheKey body candidates none reservation

/-- The response to a cache hit. -/
def cachedResponse (cached : String) : Response BodyStream where
  status := 200
  headers := [("content-type", "application/json"), ("x-cache", "HIT")]
  body := .full (asBytes cached)

/-- The cache lookup, and dispatch on a miss. -/
def chatLookup (x : Crates) (st : AppState) (payload : ChatCompletionRequest)
    (cacheKey : Option String) (reservation : Option ReservationHandle) :
    Gateway (HandlerResult × Option ReservationHandle) :=
  match cacheKey with
  | none => chatDispatch x st payload none reservation
  | some key => do
      match ← cacheGet key reservation with
      | some cached =>
          reconcileTaken reservation 0
          metric (.recordCacheHit "exact")
          metric .recordRequestLatency
          metric (.recordRequest payload.model "cache_hit")
          return (.ok (cachedResponse cached), none)
      | none =>
          metric (.recordCacheMiss "exact")
          chatDispatch x st payload (some key) reservation

/-- The handler after admission, with the reservation in scope. -/
def chatAdmitted (x : Crates) (st : AppState) (payload : ChatCompletionRequest)
    (reservation : Option ReservationHandle) :
    Gateway (HandlerResult × Option ReservationHandle) :=
  match x.chatToString payload with
  | .error e => pure (.error (.internal ("failed to serialize payload: " ++ e)), reservation)
  | .ok promptPayload =>
      chatLookup x st payload (chatCacheKey x payload promptPayload) reservation

/-- TPM admission and the scope of the reservation. -/
def chatReserved (x : Crates) (st : AppState) (identity : ClientIdentity)
    (payload : ChatCompletionRequest) : Gateway HandlerResult := do
  match ← tryReserveTpm identity.clientId (estimateChatTokens payload) with
  | .error retryAfter =>
      metric (.recordError "rate_limit" "tpm_exceeded")
      return .error (.rateLimited retryAfter)
  | .ok handle =>
      let (result, reservation) ← chatAdmitted x st payload (some handle)
      dropReservation reservation
      return result

/-- `chat_completions`. -/
def chatCompletions (x : Crates) (st : AppState) (identity : ClientIdentity)
    (payload : Except String ChatCompletionRequest) : Gateway HandlerResult :=
  match payload with
  | .error e => pure (.error (.fromJsonRejection e))
  | .ok payload => chatReserved x st identity (injectStreamOptions payload)

end LlmGateway
