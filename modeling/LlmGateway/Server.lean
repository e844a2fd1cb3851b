/-
The gateway as a whole: the routes, the world behind the effects, and the machine that
runs any number of requests over it.

The world is the clock and the mutable maps of `AppState`.  A breaker or a bucket is
created when it is first looked up: a breaker CLOSED, a bucket full.  What the world
does not determine — whether a cached entry is still there, what an upstream answers — is
a `Choice`.  Of the moka cache only this is modelled: a lookup finds nothing, or the last
value inserted under exactly that key.
-/
import LlmGateway.Handlers.Chat
import LlmGateway.Handlers.Embeddings
import LlmGateway.Middleware.Auth
import LlmGateway.Lib.Machine

namespace LlmGateway

open Effects

/-! ### Routes -/

/-- A call of an API route, with the outcome of axum's JSON extractor. -/
inductive ApiCall
  | chat (payload : Except String ChatCompletionRequest)
  | embeddings (payload : Except String EmbeddingRequest)

/-- A POST to an API route: the first `authorization` header, and the call. -/
structure HttpRequest where
  authorization : Option (List UInt8)
  call : ApiCall

/-- `IntoResponse for Result<Response, AppError>`. -/
def intoResponse : HandlerResult → Response BodyStream
  | .ok r => r
  | .error e => e.intoResponse

/-- The handler of the route. -/
def handler (x : Crates) (st : AppState) (identity : ClientIdentity) : ApiCall →
    Gateway HandlerResult
  | .chat payload => chatCompletions x st identity payload
  | .embeddings payload => embeddings x st identity payload

/-- `build_router` on an API route: authentication, then the RPM limit, then the handler. -/
def serve (x : Crates) (st : AppState) (req : HttpRequest) : Gateway (Response BodyStream) := do
  let result ← authMiddleware x st req.authorization fun identity => do
    let result ← rateLimitMiddleware identity do
      let result ← handler x st identity req.call
      return intoResponse result
    return intoResponse result
  return intoResponse result

/-! ### The world -/

/-- What all requests share and change, and the time. -/
structure World where
  now : Instant
  circuitBreakers : Table CircuitBreaker
  rateLimiter : Table RateLimitBuckets
  exactCache : Table String

namespace World

/-- A gateway that has just started. -/
def initial (now : Instant) : World where
  now := now
  circuitBreakers := .empty
  rateLimiter := .empty
  exactCache := .empty

/-- `breaker_for`: look up, or create. -/
def breakerFor (st : AppState) (w : World) (provider : String) : CircuitBreaker :=
  (w.circuitBreakers provider).getD
    (.new st.config.circuitBreaker.failureThreshold
      (.fromSecs st.config.circuitBreaker.cooldownSeconds.toNat)
      st.config.circuitBreaker.halfOpenMaxCalls)

/-- `get_rate_limit_buckets`: look up, or create. -/
def bucketsFor (st : AppState) (w : World) (client : String) : RateLimitBuckets :=
  (w.rateLimiter client).getD
    (.fromConfig st.config.rateLimit.defaultRpm st.config.rateLimit.defaultTpm w.now)

/-- A provider's breaker is replaced. -/
def setBreaker (w : World) (provider : String) (b : CircuitBreaker) : World :=
  { w with circuitBreakers := w.circuitBreakers.insert provider b }

/-- A client's buckets are replaced. -/
def setBuckets (w : World) (client : String) (b : RateLimitBuckets) : World :=
  { w with rateLimiter := w.rateLimiter.insert client b }

/-- A call on a provider's breaker. -/
def callBreaker (st : AppState) (w : World) (provider : String) (c : BreakerCall) :
    Bool × World :=
  let (answer, b) := (w.breakerFor st provider).call w.now c
  (answer, w.setBreaker provider b)

/-- Change a client's TPM bucket. -/
def setTpm (st : AppState) (w : World) (client : String) (b : TokenBucket) : World :=
  w.setBuckets client { w.bucketsFor st client with tpm := b }

end World

/-- What the world leaves open. -/
inductive Choice
  | none
  | cached (found : Bool)
  | sent (answer : Except String StatusCode)
  | read (answer : Except String (List UInt8))

/-- The answer of an effect and the world after it. -/
def respond (st : AppState) (w : World) : (e : Effect) → Choice → Option (e.Answer × World)
  | .isEligible p, _ => some (w.callBreaker st p .isEligible)
  | .allowRequest p, _ => some (w.callBreaker st p .allowRequest)
  | .recordSuccess p, _ => some ((), (w.callBreaker st p .recordSuccess).2)
  | .recordFailure p, _ => some ((), (w.callBreaker st p .recordFailure).2)
  | .rpmTryConsume c cost, _ =>
      let (answer, b) := (w.bucketsFor st c).rpm.tryConsume w.now cost
      some (answer, w.setBuckets c { w.bucketsFor st c with rpm := b })
  | .tryReserveTpm c cost, _ =>
      let (answer, b) := (w.bucketsFor st c).tpm.tryReserve w.now c cost
      some (answer, w.setTpm st c b)
  | .reconcile h cost, _ =>
      some ((), w.setTpm st h.bucket (h.reconcile (w.bucketsFor st h.bucket).tpm w.now cost))
  | .dropHandle h, _ =>
      some ((), w.setTpm st h.bucket (h.drop (w.bucketsFor st h.bucket).tpm w.now))
  | .metric _, _ => some ((), w)
  | .yield _, _ => some ((), w)
  | .await (.cacheGet key) _, .cached found =>
      some (if found then w.exactCache key else Option.none, w)
  | .await (.cacheInsert key v) _, _ =>
      some ((), { w with exactCache := w.exactCache.insert key v })
  | .await (.send _ _) _, .sent answer => some (answer, w)
  | .await (.bytes _) _, .read answer => some (answer, w)
  | _, _ => Option.none

/-! ### The machine -/

/-- A request between two polls of its task: answered, perhaps with a body still
streaming, or done with. -/
inductive Idle
  | responded (r : Response BodyStream)
  | closed

/-- A response whose streaming body is now `s`. -/
def Response.withStream (r : Response BodyStream) (s : BodyStream) : Response BodyStream :=
  { r with body := .stream s }

/-- The server polls a streaming body with the next item. -/
def pollBody (x : Crates) : Idle → StreamItem → Option (Gateway Idle)
  | .responded r, item =>
      match r.body with
      | .stream s => some do
          match ← s.resume x.fromStr item with
          | some s => return .responded (r.withStream s)
          | none => return .closed
      | .full _ => none
  | .closed, _ => none

/-- The client goes away while a body is streaming: the body is dropped. -/
def dropBody : Idle → Option (Gateway Idle)
  | .responded r =>
      match r.body with
      | .stream s => some do
          s.drop
          return .closed
      | .full _ => none
  | .closed => none

/-- The client goes away while the handler is suspended: the future is dropped, and with
it the reservation it owns. -/
def abortHandler : Effect → Option (Gateway Idle)
  | .await _ owned => some do
      dropReservation owned
      return .closed
  | _ => none

/-- The gateway: time passes by any amount, and any request may arrive. -/
def gateway (x : Crates) (st : AppState) :
    Machine gatewaySig StreamItem Idle World Choice Duration HttpRequest Instant where
  poll := pollBody x
  drop := dropBody
  abort := abortHandler
  respond := respond st
  env w d := some { w with now := w.now + d }
  start req := do
    let r ← serve x st req
    return .responded r
  clock := World.now

/-- A state of the gateway. -/
abbrev Gateway.State := Pool gatewaySig StreamItem Idle World HttpRequest Instant

/-- The gateway before its first request. -/
def Gateway.State.initial (now : Instant) : Gateway.State where
  world := .initial now
  tasks := []
  log := []

end LlmGateway
