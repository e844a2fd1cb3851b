/-
The shared state as the request path sees it.

`Crates` are the functions of third-party crates the handlers call.  `Effect` lists
everything a handler does beyond computing: one constructor for each method of a shared
object, each atomic because the source runs it under one lock, and one for each await.
An await carries the reservation that the suspended future owns; when the future is
dropped there, that is what its drop glue drops.
-/
import LlmGateway.Config
import LlmGateway.Error
import LlmGateway.Types
import LlmGateway.Middleware.TokenBucket
import LlmGateway.Router.CircuitBreaker
import LlmGateway.Telemetry.Metrics
import LlmGateway.Lib.Prog

namespace LlmGateway

open Effects

/-- The functions of third-party crates. -/
structure Crates where
  /-- `format!("{:x}", Sha256::digest(bytes))`. -/
  sha256Hex : List UInt8 → String
  /-- `serde_json::from_str::<Value>`. -/
  fromStr : String → Option Value
  /-- `serde_json::from_slice::<Value>`. -/
  fromSlice : List UInt8 → Option Value
  /-- `serde_json::to_string` of a chat request. -/
  chatToString : ChatCompletionRequest → Except String String
  /-- `serde_json::to_string` of an embedding request. -/
  embeddingToString : EmbeddingRequest → Except String String
  canonicalReason : StatusCode → Option String

/-- `serde_json::to_vec`: the bytes of what `to_string` writes. -/
def Crates.toVec {α : Type} (toString : α → Except String String) (a : α) :
    Except String (List UInt8) :=
  (toString a).map asBytes

/-! ### Tables -/

/-- A `HashMap` or `DashMap` with string keys that is only read and written by key. -/
abbrev Table (V : Type) := String → Option V

namespace Table

variable {V : Type}

/-- The table without entries. -/
def empty : Table V := fun _ => none

/-- An entry is added, or replaced. -/
def insert (t : Table V) (key : String) (v : V) : Table V :=
  fun k => if k = key then some v else t k

@[simp] theorem insert_self (t : Table V) (key : String) (v : V) : t.insert key v key = some v := by
  simp [insert]

theorem insert_ne (t : Table V) {key k : String} (h : k ≠ key) (v : V) :
    t.insert key v k = t k := by
  simp [insert, h]

end Table

/-! ### The application state -/

/-- Who a request is from. -/
structure ClientIdentity where
  clientId : String
  tier : String
  deriving DecidableEq, Repr

/-- The part of `AppState` that does not change. -/
structure AppState where
  config : AppConfig
  sortedProviders : List ProviderConfig
  credentials : Table ClientIdentity

/-- The credential table: the hash of each key, a later entry overwriting an earlier one. -/
def credentialTable (x : Crates) (creds : List ClientCredential) : Table ClientIdentity :=
  creds.foldl (fun t c => t.insert (x.sha256Hex (asBytes c.key)) ⟨c.clientId, c.tier⟩) .empty

/-- The state the gateway starts with. -/
def AppState.new (x : Crates) (config : AppConfig) : AppState where
  config := config
  sortedProviders := config.providersSorted
  credentials := credentialTable x config.credentials

/-! ### Effects -/

/-- An outbound request as `proxy/client.rs` builds it, before reqwest parses the URL. -/
structure OutboundRequest where
  url : String
  timeoutSeconds : UInt64
  headers : List (String × String)
  body : List UInt8

/-- What a handler awaits. -/
inductive Await
  /-- `exact_cache.get(key)`. -/
  | cacheGet (key : String)
  /-- `exact_cache.insert(key, value)`. -/
  | cacheInsert (key value : String)
  /-- `req.send()` to a provider. -/
  | send (provider : String) (req : OutboundRequest)
  /-- `upstream_response.bytes()`, reading the body of a provider's response. -/
  | bytes (provider : String)

/-- What a handler, a middleware or a stream does besides computing. -/
inductive Effect
  | isEligible (provider : String)
  | allowRequest (provider : String)
  | recordSuccess (provider : String)
  | recordFailure (provider : String)
  | rpmTryConsume (client : String) (cost : ℚ)
  | tryReserveTpm (client : String) (cost : ℚ)
  | reconcile (h : ReservationHandle) (actualCost : ℚ)
  | dropHandle (h : ReservationHandle)
  | metric (m : Metric)
  /-- A streaming body hands an item to the client. -/
  | yield (item : Except String (List UInt8))
  | await (a : Await) (owned : Option ReservationHandle)

/-- What each effect answers. -/
@[reducible] def Effect.Answer : Effect → Type
  | .isEligible _ => Bool
  | .allowRequest _ => Bool
  | .recordSuccess _ => Unit
  | .recordFailure _ => Unit
  | .rpmTryConsume _ _ => Except Nat Unit
  | .tryReserveTpm _ _ => Except Nat ReservationHandle
  | .reconcile _ _ => Unit
  | .dropHandle _ => Unit
  | .metric _ => Unit
  | .yield _ => Unit
  | .await (.cacheGet _) _ => Option String
  | .await (.cacheInsert _ _) _ => Unit
  | .await (.send _ _) _ => Except String StatusCode
  | .await (.bytes _) _ => Except String (List UInt8)

/-- The effects with their answers. -/
abbrev gatewaySig : Sig := ⟨Effect, Effect.Answer⟩

/-- A piece of the gateway's asynchronous code. -/
abbrev Gateway (α : Type) := Prog gatewaySig α

/-- Perform one effect. -/
@[reducible] def perform (e : Effect) : Gateway e.Answer := Prog.op e .ret

/-! The effects as programs, under the source's names. -/

/-- `CircuitBreaker::is_eligible`, which changes nothing. -/
def isEligible (provider : String) : Gateway Bool := perform (.isEligible provider)

/-- `CircuitBreaker::allow_request`, which may take a probe slot. -/
def allowRequest (provider : String) : Gateway Bool := perform (.allowRequest provider)

/-- `CircuitBreaker::record_success`. -/
def recordSuccess (provider : String) : Gateway Unit := perform (.recordSuccess provider)

/-- `CircuitBreaker::record_failure`. -/
def recordFailure (provider : String) : Gateway Unit := perform (.recordFailure provider)

/-- `rpm.try_consume`; a refusal says how many seconds to wait. -/
def rpmTryConsume (client : String) (cost : ℚ) : Gateway (Except Nat Unit) :=
  perform (.rpmTryConsume client cost)

/-- `try_reserve_tpm`; the reservation is the caller's. -/
def tryReserveTpm (client : String) (cost : ℚ) : Gateway (Except Nat ReservationHandle) :=
  perform (.tryReserveTpm client cost)

/-- `ReservationHandle::reconcile`. -/
def reconcile (h : ReservationHandle) (actualCost : ℚ) : Gateway Unit :=
  perform (.reconcile h actualCost)

/-- A recording. -/
def metric (m : Metric) : Gateway Unit := perform (.metric m)

/-- `yield` in the generator of a stream. -/
def yield (item : Except String (List UInt8)) : Gateway Unit := perform (.yield item)

/-- A lookup in the exact cache. -/
def cacheGet (key : String) (owned : Option ReservationHandle) : Gateway (Option String) :=
  perform (.await (.cacheGet key) owned)

/-- An insertion into the exact cache. -/
def cacheInsert (key value : String) (owned : Option ReservationHandle) : Gateway Unit :=
  perform (.await (.cacheInsert key value) owned)

/-- The one send of a request; it answers with a status, or with an error. -/
def send (provider : String) (req : OutboundRequest) (owned : Option ReservationHandle) :
    Gateway (Except String StatusCode) :=
  perform (.await (.send provider req) owned)

/-- Reading a response to its end. -/
def bytes (provider : String) (owned : Option ReservationHandle) :
    Gateway (Except String (List UInt8)) :=
  perform (.await (.bytes provider) owned)

/-- A local `Option<ReservationHandle>` going out of scope. -/
def dropReservation : Option ReservationHandle → Gateway Unit
  | some h => perform (.dropHandle h)
  | none => pure ()

/-- `if let Some(r) = reservation.take() { r.reconcile(cost) }`; the local is `None` after. -/
def reconcileTaken (reservation : Option ReservationHandle) (actualCost : ℚ) : Gateway Unit :=
  match reservation with
  | some h => reconcile h actualCost
  | none => pure ()

end LlmGateway
