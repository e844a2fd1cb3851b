/-
The configuration the request path reads, as `config.rs` declares it.

Left out are the fields nothing on that path looks at: host, port and body limit, the
cache sizes, and the connect timeout of a provider, which no code uses.
-/
import LlmGateway.Rust
import Mathlib.Data.List.Sort

namespace LlmGateway

/-- A key that clients may present, and the client it stands for. -/
structure ClientCredential where
  key : String
  clientId : String
  tier : String
  deriving DecidableEq, Repr

/-- The requests and the tokens a minute that each client has. -/
structure RateLimitConfig where
  defaultRpm : UInt32
  defaultTpm : UInt32
  deriving DecidableEq, Repr

/-- The parameters of all breakers; the cooldown is in seconds. -/
structure CircuitBreakerConfig where
  failureThreshold : UInt32
  cooldownSeconds : UInt64
  halfOpenMaxCalls : UInt32
  deriving DecidableEq, Repr

/-- An upstream provider; lower priorities are tried first. -/
structure ProviderConfig where
  name : String
  endpoint : String
  apiKey : Option String
  priority : UInt32
  requestTimeoutSeconds : UInt64
  streamIdleTimeoutSeconds : UInt64
  deriving DecidableEq, Repr

/-- The configuration; its providers and credentials are in the order of the file. -/
structure AppConfig where
  credentials : List ClientCredential
  rateLimit : RateLimitConfig
  circuitBreaker : CircuitBreakerConfig
  providers : List ProviderConfig
  deriving DecidableEq, Repr

/-- Providers by ascending priority; insertion sort is stable, as `sort_by_key` is. -/
def AppConfig.providersSorted (c : AppConfig) : List ProviderConfig :=
  c.providers.insertionSort fun p q => p.priority ≤ q.priority

/-! ### Validation -/

/-- `if` a check fails, `return Err`. -/
def ensure (ok : Bool) (message : String) : Except String Unit :=
  if ok then .ok () else .error message

/-- A loop over `iter().enumerate()` that ends at the first error. -/
def checkEach {α : Type} (check : Nat → α → Except String Unit) : Nat → List α →
    Except String Unit
  | _, [] => .ok ()
  | i, a :: as => do
      check i a
      checkEach check (i + 1) as

/-- The field of an entry of a list, "`{list}[{i}].{field}`". -/
def entryField (list : String) (i : Nat) (field : String) : String :=
  list ++ "[" ++ String.ofList (Nat.toDigits 10 i) ++ "]." ++ field

/-- The checks of provider `i`. -/
def ProviderConfig.validate (i : Nat) (p : ProviderConfig) : Except String Unit := do
  ensure (p.name != "") (entryField "providers" i "name" ++ " must not be empty")
  ensure (p.endpoint != "") (entryField "providers" i "endpoint" ++ " must not be empty")
  ensure (startsWith "http://" p.endpoint || startsWith "https://" p.endpoint)
    (entryField "providers" i "endpoint" ++ " must start with http:// or https://, got: "
      ++ p.endpoint)
  ensure (p.requestTimeoutSeconds != 0)
    (entryField "providers" i "request_timeout_seconds" ++ " must be > 0")

/-- The checks of credential `i`. -/
def ClientCredential.validate (i : Nat) (c : ClientCredential) : Except String Unit := do
  ensure (c.key != "") (entryField "auth.credentials" i "key" ++ " must not be empty")
  ensure (c.clientId != "") (entryField "auth.credentials" i "client_id" ++ " must not be empty")

/-- `AppConfig::validate`; the warning about missing credentials is only logged. -/
def AppConfig.validate (c : AppConfig) : Except String Unit := do
  ensure (!c.providers.isEmpty) "at least one provider must be configured"
  checkEach ProviderConfig.validate 0 c.providers
  checkEach ClientCredential.validate 0 c.credentials
  ensure (c.rateLimit.defaultRpm != 0) "rate_limit.default_rpm must be > 0"
  ensure (c.rateLimit.defaultTpm != 0) "rate_limit.default_tpm must be > 0"

end LlmGateway
