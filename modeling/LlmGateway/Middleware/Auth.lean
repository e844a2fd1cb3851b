/-
The two middlewares in front of the API routes, `auth.rs` and `rate_limit.rs`.

A middleware either answers itself or runs `next`, which answers with a response: axum
has turned the errors of the inner layers into responses by then.
-/
import LlmGateway.Handlers.Common

namespace LlmGateway

open Effects

/-- `HeaderValue::to_str`: the text of a header value that is visible ASCII. -/
def headerToStr (value : List UInt8) : Option String :=
  if value.all fun b => (32 ≤ b && b < 127) || b == 9 then
    some (String.ofList (value.map fun b => Char.ofNat b.toNat))
  else none

/-- `str::trim`. -/
def trim (s : String) : String :=
  String.ofList
    ((s.toList.dropWhile Char.isWhitespace).reverse.dropWhile Char.isWhitespace).reverse

/-- `extract_api_key`, from the first `authorization` header. -/
def extractApiKey (authorization : Option (List UInt8)) : Except AppError String :=
  match authorization.bind headerToStr with
  | none => .error .unauthorized
  | some header =>
      match stripPrefix "Bearer " header with
      | none => .error .unauthorized
      | some rest => if trim rest = "" then .error .unauthorized else .ok (trim rest)

/-- `auth_middleware`: the identity of the key's hash, if there is one. -/
def authMiddleware (x : Crates) (st : AppState) (authorization : Option (List UInt8))
    (next : ClientIdentity → Gateway (Response BodyStream)) : Gateway HandlerResult :=
  match extractApiKey authorization with
  | .error e => pure (.error e)
  | .ok apiKey =>
      match st.credentials (x.sha256Hex (asBytes apiKey)) with
      | none => pure (.error .unauthorized)
      | some identity => do
          let response ← next identity
          return .ok response

/-- `rate_limit_middleware`: one RPM token of the client. -/
def rateLimitMiddleware (identity : ClientIdentity) (next : Gateway (Response BodyStream)) :
    Gateway HandlerResult := do
  match ← rpmTryConsume identity.clientId 1 with
  | .ok () =>
      let response ← next
      return .ok response
  | .error retryAfter =>
      metric (.recordError "rate_limit" "rpm_exceeded")
      return .error (.rateLimited retryAfter)

end LlmGateway
