import LlmGateway.Lib.Prog
import LlmGateway.Lib.Machine
import LlmGateway.Lib.Runs
import LlmGateway.Lib.Meter
import LlmGateway.Lib.Lazy
import LlmGateway.Lib.Delimited
import LlmGateway.Lib.Tells
import LlmGateway.Lib.Script
import LlmGateway.Rust
import LlmGateway.Json
import LlmGateway.Types
import LlmGateway.Deserialize
import LlmGateway.Config
import LlmGateway.Error
import LlmGateway.Telemetry.Metrics
import LlmGateway.Router.CircuitBreaker
import LlmGateway.Middleware.TokenBucket
import LlmGateway.Proxy.SseParser
import LlmGateway.State
import LlmGateway.Router.Selector
import LlmGateway.Proxy.Client
import LlmGateway.Cache.Exact
import LlmGateway.Proxy.Stream
import LlmGateway.Handlers.Common
import LlmGateway.Handlers.Chat
import LlmGateway.Handlers.Embeddings
import LlmGateway.Middleware.Auth
import LlmGateway.Server
import LlmGateway.Proofs.Rust
import LlmGateway.Proofs.Json
import LlmGateway.Proofs.Types
import LlmGateway.Proofs.Written
import LlmGateway.Proofs.Kept
import LlmGateway.Proofs.Crates
import LlmGateway.Proofs.Exact
import LlmGateway.Proofs.CircuitBreaker
import LlmGateway.Proofs.ProbeBudget
import LlmGateway.Proofs.History
import LlmGateway.Proofs.TokenBucket
import LlmGateway.Proofs.Refill
import LlmGateway.Proofs.SseParser
import LlmGateway.Proofs.Framing
import LlmGateway.Proofs.Ghost
import LlmGateway.Proofs.Handlers
import LlmGateway.Proofs.Script
import LlmGateway.Proofs.Discipline
import LlmGateway.Proofs.Stream
import LlmGateway.Proofs.Passthrough
import LlmGateway.Proofs.Server
import LlmGateway.Proofs.World
import LlmGateway.Proofs.Wedge
import LlmGateway.Proofs.Recovery
import LlmGateway.Proofs.Failover
import LlmGateway.Proofs.Preview
import LlmGateway.Proofs.Parity
import LlmGateway.Proofs.Deadline
import LlmGateway.Proofs.Forwarding
import LlmGateway.Proofs.Attempts
import LlmGateway.Proofs.Tripping
import LlmGateway.Proofs.Reservations
import LlmGateway.Proofs.Overuse
import LlmGateway.Proofs.Events
import LlmGateway.Proofs.Usage
import LlmGateway.Proofs.Coherence
import LlmGateway.Proofs.Deterministic
import LlmGateway.Proofs.RetryAfter
import LlmGateway.Proofs.Isolation
import LlmGateway.Proofs.Credentials
import LlmGateway.Proofs.Admission
import LlmGateway.Proofs.Leaks
import LlmGateway.Middleware.Trace
import LlmGateway.Proofs.Cardinality
import LlmGateway.Proofs.Latency
import LlmGateway.Cache.Semantic
import LlmGateway.Lib.Float32
import LlmGateway.Lib.Scan
import LlmGateway.Proofs.Retention
import LlmGateway.Proofs.BestMatch
import LlmGateway.Lib.Regulator
import LlmGateway.Proofs.Conformance
import LlmGateway.Proofs.Limits
import LlmGateway.Proofs.Budget
import LlmGateway.Proofs.Serving
import LlmGateway.Proofs.Mediation
import LlmGateway.Proofs.Itinerary
import LlmGateway.Proofs.Travel
import LlmGateway.Proofs.Availability
import LlmGateway.Proofs.Delivery
import LlmGateway.Proofs.Replies
import LlmGateway.Proofs.Load
import LlmGateway.Proofs.Tables
import LlmGateway.Proofs.Accounting
import LlmGateway.Proofs.Reread
import LlmGateway.Lib.Layer
import LlmGateway.Proofs.Transparency
import LlmGateway.Proofs.Provenance
import LlmGateway.Proofs.Startup
