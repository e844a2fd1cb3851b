/-
HTTP status codes, responses, and the error type of `error.rs`.

A response is generic in its streaming body, which `Proxy/Stream.lean` supplies.
-/
import LlmGateway.Json

namespace LlmGateway

/-- `http::StatusCode`: three digits. -/
structure StatusCode where
  code : Nat
  lower : 100 ≤ code
  upper : code ≤ 999
  deriving DecidableEq

namespace StatusCode

/-- A 2xx code. -/
def isSuccess (s : StatusCode) : Bool := 200 ≤ s.code && s.code < 300

/-- A 4xx code. -/
def isClientError (s : StatusCode) : Bool := 400 ≤ s.code && s.code < 500

/-- A 5xx code. -/
def isServerError (s : StatusCode) : Bool := 500 ≤ s.code && s.code < 600

/-- 408, which is retried. -/
def requestTimeout : StatusCode := ⟨408, by decide, by decide⟩

/-- 429, which is retried. -/
def tooManyRequests : StatusCode := ⟨429, by decide, by decide⟩

/-- `Display`: the code and its canonical reason. -/
def display (canonicalReason : StatusCode → Option String) (s : StatusCode) : String :=
  String.ofList (Nat.toDigits 10 s.code) ++ " " ++
    (canonicalReason s).getD "<unknown status code>"

end StatusCode

/-- The body of a response: all of it, or a stream still to be polled. -/
inductive Body (σ : Type)
  | full (bytes : List UInt8)
  | stream (s : σ)

/-- A response; its headers are those the gateway sets itself. -/
structure Response (σ : Type) where
  status : Nat
  headers : List (String × String)
  body : Body σ

/-- What a `HeaderValue` may hold: no control characters but the tab. -/
def headerValueOk (s : String) : Bool :=
  (asBytes s).all fun b => (32 ≤ b && b != 127) || b == 9

/-- Why a request has no success to show; its texts go to the log, but for what `message` shows. -/
inductive AppError
  | unauthorized
  | rateLimited (retryAfter : Nat)
  | upstream (msg : String)
  | badRequest (msg : String)
  | internal (msg : String)
  deriving DecidableEq, Repr

namespace AppError

/-- The conversion of axum's rejection of a JSON body. -/
def fromJsonRejection (e : String) : AppError := .badRequest ("invalid JSON body: " ++ e)

/-- The status the client sees. -/
def status : AppError → Nat
  | .unauthorized => 401
  | .rateLimited _ => 429
  | .upstream _ => 502
  | .badRequest _ => 400
  | .internal _ => 500

/-- The machine-readable code in the body. -/
def code : AppError → String
  | .unauthorized => "unauthorized"
  | .rateLimited _ => "rate_limited"
  | .upstream _ => "upstream_error"
  | .badRequest _ => "bad_request"
  | .internal _ => "internal_error"

/-- The message the client sees. -/
def message : AppError → String
  | .unauthorized => "Invalid or missing API key"
  | .rateLimited _ => "Rate limit exceeded"
  | .upstream _ => "Upstream provider error or timeout"
  | .badRequest msg => msg
  | .internal _ => "Internal server error"

/-- The seconds a rate-limited client is told to wait. -/
def retryAfter : AppError → Option Nat
  | .rateLimited r => some r
  | _ => none

/-- The JSON of `ErrorBody`. -/
def json (e : AppError) : List Char :=
  objectText [("error", objectText (
    [("code", quote e.code), ("message", quote e.message)] ++
      match e.retryAfter with
      | some r => [("retry_after", Nat.toDigits 10 r)]
      | none => []))]

/-- `IntoResponse for AppError`. -/
def intoResponse {σ : Type} (e : AppError) : Response σ where
  status := e.status
  headers := ("content-type", "application/json") ::
    match e.retryAfter with
    | some r => [("retry-after", String.ofList (Nat.toDigits 10 r))]
    | none => []
  body := .full (asBytes (String.ofList e.json))

end AppError

end LlmGateway
