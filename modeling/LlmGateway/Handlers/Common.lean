/-
What the two handlers share.

Both sources carry their own copy of the status policy; the copies are the same text.
`Flow` is how one round of a failover loop ends: `continue`, or a `return` from the
handler.  The local `reservation: Option<ReservationHandle>` is passed along, and whoever
ends the handler's scope drops what is left of it.
-/
import LlmGateway.State
import LlmGateway.Proxy.Stream

namespace LlmGateway

open Effects

/-- 5xx, 429 and 408 make the handler try the next provider. -/
def isRetryableUpstreamStatus (status : StatusCode) : Bool :=
  status.isServerError || status == .tooManyRequests || status == .requestTimeout

/-- Any other 4xx ends the request. -/
def isNonRetryableClientError (status : StatusCode) : Bool :=
  status.isClientError && status != .tooManyRequests && status != .requestTimeout

/-- What a handler returns. -/
abbrev HandlerResult := Except AppError (Response BodyStream)

/-- How one round of a failover loop ends. -/
inductive Flow
  | next (lastError : Option String) (reservation : Option ReservationHandle)
  | done (result : HandlerResult) (reservation : Option ReservationHandle)

/-- The JSON response of a provider, passed on; it cannot be built if the provider's name
is no header value. -/
def providerResponse (headers : List (String × String)) (provider : String)
    (body : List UInt8) : HandlerResult :=
  if headerValueOk provider then
    .ok { status := 200,
          headers := headers ++ [("x-provider", provider)],
          body := .full body }
  else .error (.internal "failed to parse header value")

/-- "`{provider} returned {status}`". -/
def returnedText (x : Crates) (provider : String) (status : StatusCode) : String :=
  provider ++ " returned " ++ status.display x.canonicalReason

/-- "`upstream rejected request with {status}`". -/
def rejectedText (x : Crates) (status : StatusCode) : String :=
  "upstream rejected request with " ++ status.display x.canonicalReason

end LlmGateway
