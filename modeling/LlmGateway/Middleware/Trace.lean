/-
The middleware around all routes, `trace.rs`, and the gateway with it.

The id it draws and the time it measures end up as texts in two headers, and those texts are
what is kept of them here; the span and the log line are left out.
-/
import LlmGateway.Server

namespace LlmGateway

open Effects

/-- `if let Ok(val) = value.parse() { headers.insert(name, val) }`. -/
def Response.insertHeader {σ : Type} (r : Response σ) (name value : String) : Response σ :=
  if headerValueOk value then
    { r with headers := (r.headers.filter fun h => h.1 != name) ++ [(name, value)] }
  else r

/-- `trace_middleware`. -/
def traceMiddleware (requestId elapsedMs : String) (next : Gateway (Response BodyStream)) :
    Gateway (Response BodyStream) := do
  let response ← next
  let response := response.insertHeader "x-request-id" requestId
  let response := response.insertHeader "x-response-time-ms" elapsedMs
  metric .recordRequestLatency
  return response

/-- A request as it reaches `trace_middleware`, with the id it will be given and the time its
handling will turn out to take. -/
structure TracedRequest where
  request : HttpRequest
  requestId : String
  elapsedMs : String

/-- An API route from `trace_middleware` inwards. -/
def traced (x : Crates) (st : AppState) (req : TracedRequest) : Gateway (Response BodyStream) :=
  traceMiddleware req.requestId req.elapsedMs (serve x st req.request)

/-- The gateway, each request going through `trace_middleware`. -/
def tracedGateway (x : Crates) (st : AppState) :
    Machine gatewaySig StreamItem Idle World Choice Duration TracedRequest Instant where
  poll := pollBody x
  drop := dropBody
  abort := abortHandler
  respond := respond st
  env w d := some { w with now := w.now + d }
  start req := do
    let r ← traced x st req
    return .responded r
  clock := World.now

/-- A state of the traced gateway. -/
abbrev TracedState := Pool gatewaySig StreamItem Idle World TracedRequest Instant

/-- The traced gateway before its first request. -/
def TracedState.initial (now : Instant) : TracedState where
  world := .initial now
  tasks := []
  log := []

/-- What can happen in a traced gateway. -/
abbrev TracedLabel := Label StreamItem Choice Duration TracedRequest

end LlmGateway
