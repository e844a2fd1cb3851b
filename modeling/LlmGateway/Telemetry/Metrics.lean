/-
The recording helpers of `telemetry/metrics.rs` that the request path calls.

A recording is a metric name, its labels and, for a counter, the increment.  The
durations the histograms observe are left out: nothing reads them.
-/
import Mathlib.Init

namespace LlmGateway

/-- One call to a recording helper. -/
inductive Metric
  | counter (name : String) (labels : List (String × String)) (increment : Nat)
  | histogram (name : String) (labels : List (String × String))
  deriving DecidableEq, Repr

namespace Metric

/-- A request was answered. -/
def recordRequest (provider status : String) : Metric :=
  .counter "gateway_requests_total" [("provider", provider), ("status", status)] 1

/-- A request or an attempt failed. -/
def recordError (provider error : String) : Metric :=
  .counter "gateway_request_errors_total" [("provider", provider), ("error", error)] 1

/-- A response was found in a cache. -/
def recordCacheHit (cacheType : String) : Metric :=
  .counter "gateway_cache_hits_total" [("type", cacheType)] 1

/-- A cache was asked in vain. -/
def recordCacheMiss (cacheType : String) : Metric :=
  .counter "gateway_cache_misses_total" [("type", cacheType)] 1

/-- Tokens of a kind, prompt or completion, were used. -/
def recordTokens (provider kind : String) (count : Nat) : Metric :=
  .counter "gateway_tokens_total" [("provider", provider), ("kind", kind)] count

/-- The first content of a stream came. -/
def recordTtft (provider : String) : Metric :=
  .histogram "gateway_ttft_seconds" [("provider", provider)]

/-- How long a request took. -/
def recordRequestLatency : Metric :=
  .histogram "gateway_request_latency_seconds" []

/-- How long a provider took to answer. -/
def recordUpstreamLatency (provider : String) : Metric :=
  .histogram "gateway_upstream_latency_seconds" [("provider", provider)]

end Metric

end LlmGateway
