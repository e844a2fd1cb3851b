/-
The `/v1/embeddings` handler, `embeddings.rs`.

Its failover loop is a copy of the chat one with differences: a status that is neither
success nor a client error counts as a failure, and a body that cannot be read ends the
request.
-/
import LlmGateway.Handlers.Common
import LlmGateway.Router.Selector
import LlmGateway.Proxy.Client

namespace LlmGateway

open Effects

/-- `str::len`, in bytes. -/
def strLen (s : String) : Nat := (asBytes s).length

/-- Characters over four, at least one. -/
def estimateEmbeddingTokens (input : EmbeddingInput) : ℚ :=
  let chars : Nat := match input with
    | .string s => strLen s
    | .stringArray arr => (arr.map strLen).sum
    | .tokenArray arr => arr.length * 4
    | .tokenMatrix mat => (mat.map fun row => row.length * 4).sum
  max ((chars : ℚ) / 4) 1

/-- The `total_tokens` of a usage member. -/
def totalTokens (usage : Value) : Nat := ((usage.get "total_tokens").bind Value.asU64).getD 0

/-- Usage accounting of a body that was read; returns what is left of the reservation. -/
def embeddingsUsage (x : Crates) (provider : String) (reservation : Option ReservationHandle)
    (body : List UInt8) : Gateway (Option ReservationHandle) :=
  match (x.fromSlice body).bind fun v => v.get "usage" with
  | some usage => do
      metric (.recordTokens provider "embedding" (totalTokens usage))
      reconcileTaken reservation (totalTokens usage)
      return none
  | none => pure reservation

/-- The part of the loop body after a successful status. -/
def embeddingsAnswered (x : Crates) (provider : ProviderConfig)
    (reservation : Option ReservationHandle) : Gateway Flow := do
  recordSuccess provider.name
  metric (.recordRequest provider.name "success")
  metric (.recordUpstreamLatency provider.name)
  match ← bytes provider.name reservation with
  | .error _ =>
      recordFailure provider.name
      metric (.recordError provider.name "body_read_error")
      return .done (.error (.upstream (provider.name ++ ": body read error"))) reservation
  | .ok body =>
      let reservation ← embeddingsUsage x provider.name reservation body
      metric .recordRequestLatency
      return .done (providerResponse [("content-type", "application/json")] provider.name body)
        reservation

/-- The body of the failover loop. -/
def embeddingsAttempt (x : Crates) (body : List UInt8) (provider : ProviderConfig)
    (lastError : Option String) (reservation : Option ReservationHandle) : Gateway Flow := do
  if ← allowRequest provider.name then
    match ← send provider.name (buildEmbeddingsRequest provider body) reservation with
    | .ok status =>
        if isRetryableUpstreamStatus status then
          recordFailure provider.name
          metric (.recordError provider.name "retryable_error")
          return .next (some (returnedText x provider.name status)) reservation
        else if isNonRetryableClientError status then
          recordSuccess provider.name
          metric (.recordError provider.name "client_error")
          return .done (.error (.badRequest (rejectedText x status))) reservation
        else if !status.isSuccess then
          -- 1xx and 3xx, which the chat loop takes for a success
          recordFailure provider.name
          metric (.recordError provider.name "unexpected_status")
          return .next (some (returnedText x provider.name status)) reservation
        else embeddingsAnswered x provider reservation
    | .error _ =>
        recordFailure provider.name
        metric (.recordError provider.name "connect_error")
        return .next (some (provider.name ++ ": connection error")) reservation
  else return .next lastError reservation

/-- The failover loop; returns the result and what is left of the reservation. -/
def embeddingsLoop (x : Crates) (body : List UInt8) :
    List ProviderConfig → Option String → Option ReservationHandle →
      Gateway (HandlerResult × Option ReservationHandle)
  | [], lastError, reservation => do
      metric (.recordError "all" "all_providers_failed")
      return (.error (.upstream (lastError.getD "all providers failed")), reservation)
  | provider :: rest, lastError, reservation => do
      match ← embeddingsAttempt x body provider lastError reservation with
      | .next lastError reservation => embeddingsLoop x body rest lastError reservation
      | .done result reservation => return (result, reservation)

/-- The handler after admission, with the reservation in scope. -/
def embeddingsAdmitted (x : Crates) (st : AppState) (payload : EmbeddingRequest)
    (reservation : Option ReservationHandle) :
    Gateway (HandlerResult × Option ReservationHandle) :=
  match Crates.toVec x.embeddingToString payload with
  | .error e => pure (.error (.internal ("failed to serialize payload: " ++ e)), reservation)
  | .ok body => do
      let candidates ← selectOrdered st
      if candidates.isEmpty then
        metric (.recordError "all" "no_available_providers")
        return (.error (.upstream "no available providers"), reservation)
      else embeddingsLoop x body candidates none reservation

/-- TPM admission and the scope of the reservation. -/
def embeddingsReserved (x : Crates) (st : AppState) (identity : ClientIdentity)
    (payload : EmbeddingRequest) : Gateway HandlerResult := do
  match ← tryReserveTpm identity.clientId (estimateEmbeddingTokens payload.input) with
  | .error retryAfter =>
      metric (.recordError "rate_limit" "tpm_exceeded")
      return .error (.rateLimited retryAfter)
  | .ok handle =>
      let (result, reservation) ← embeddingsAdmitted x st payload (some handle)
      dropReservation reservation
      return result

/-- `embeddings`. -/
def embeddings (x : Crates) (st : AppState) (identity : ClientIdentity)
    (payload : Except String EmbeddingRequest) : Gateway HandlerResult :=
  match payload with
  | .error e => pure (.error (.fromJsonRejection e))
  | .ok payload => embeddingsReserved x st identity payload

end LlmGateway
