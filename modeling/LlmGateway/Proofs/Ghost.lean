/-
What one request may do, as an automaton over its effects.

A `Ghost` is what the log of a request says about it: which reservation it holds, how far
its attempt at a provider has come, what it has sent and read, what it has recorded.
`Permitted` is the discipline every handler keeps: a provider is only sent what it was
admitted for and every attempt is recorded as its answer demands, a reservation is settled
while it is held and with what the upstream reported, the cache is filled under the
request's own key with the body that was read.

Everything proved about runs of the gateway is proved from this discipline; that the
handlers keep it is shown once, in `Proofs/Discipline.lean`.
-/
import LlmGateway.Proofs.Exact
import LlmGateway.Server

namespace LlmGateway

open Effects

/-- One thing that happens to a request. -/
abbrev GatewayMove := Move gatewaySig StreamItem

/-! ### Attempts -/

/-- How an attempt at a provider ends. -/
inductive Outcome
  /-- No response: a connection error or a timeout. -/
  | connectError
  /-- A response that is not passed on. -/
  | status (s : StatusCode)
  /-- The body of the response could not be read. -/
  | bodyError
  /-- A network error in the middle of a stream. -/
  | streamError
  | idleTimeout
  | completed
  | cancelled
  deriving DecidableEq

/-- How far the attempt of a request has come. -/
inductive Phase
  | idle
  | admitted (provider : String)
  /-- The send was answered; nothing is recorded yet. -/
  | answered (provider : String) (answer : Except String StatusCode)
  /-- A success was recorded, and the body is being read. -/
  | reading (provider : String)
  /-- The body broke off; nothing more is recorded yet. -/
  | broken (provider : String) (o : Outcome)
  deriving DecidableEq

namespace Phase

/-- Which provider the attempt is at. -/
def provider : Phase → Option String
  | .idle => none
  | .admitted p => some p
  | .answered p _ => some p
  | .reading p => some p
  | .broken p _ => some p

/-- Admitted, and nothing recorded yet. -/
def Unrecorded (P : String) : Phase → Prop
  | .admitted p => p = P
  | .answered p _ => p = P
  | _ => False

instance (P : String) (φ : Phase) : Decidable (φ.Unrecorded P) := by
  cases φ <;> unfold Unrecorded <;> infer_instance

/-- A success is recorded: a rejected request ends its attempt, any other response is read. -/
def succeeded : Phase → Phase
  | .answered p (.ok s) => if isNonRetryableClientError s then .idle else .reading p
  | φ => φ

/-- The stream ends. -/
def finished : Phase → Phase
  | .reading _ => .idle
  | φ => φ

/-- The stream breaks off. -/
def breakOff (o : Outcome) : Phase → Phase
  | .reading p => .broken p o
  | φ => φ

end Phase

/-- An answer that is a failure: no response, a status to be retried, or one that is neither
a success nor the client's fault. -/
def isFailure : Except String StatusCode → Bool
  | .error _ => true
  | .ok s => isRetryableUpstreamStatus s || (!s.isSuccess && !isNonRetryableClientError s)

/-- The outcome an answer alone decides. -/
def Outcome.ofAnswer : Except String StatusCode → Outcome
  | .error _ => .connectError
  | .ok s => .status s

/-- What ends the attempt in a phase, and how. -/
def Phase.conclusion : Phase → GatewayMove → Option (String × Outcome)
  | .answered p a, .act (.recordFailure _) _ => some (p, .ofAnswer a)
  | .answered p (.ok s), .act (.recordSuccess _) _ =>
      if isNonRetryableClientError s then some (p, .status s) else none
  | .reading p, .act (.await (.bytes _) _) (.ok _) => some (p, .completed)
  | .reading p, .poll .ended => some (p, .completed)
  | .broken p o, .act (.recordFailure _) _ => some (p, o)
  | φ, .drop => φ.provider.map (·, .cancelled)
  | _, _ => none

/-! ### Usage -/

/-- The kind and the count of a token recording. -/
def Metric.tokens : Metric → List (String × Nat)
  | .counter name labels n =>
      if name = "gateway_tokens_total" then [((labels.lookup "kind").getD "", n)] else []
  | .histogram _ _ => []

/-- The two token recordings of a settlement. -/
def tokensOf (t : Nat × Nat) : List (String × Nat) := [("prompt", t.1), ("completion", t.2)]

/-- The usage member of a body that was read whole. -/
def bodyUsage (x : Crates) (body : List UInt8) : Option (Nat × Nat) :=
  ((x.fromStr (fromUtf8Lossy body)).bind fun v => v.get "usage").map SseParser.usageTokens

/-- The first usage among the events of a stream. -/
def streamUsage (x : Crates) (chunks : List (List UInt8)) : Option (Nat × Nat) :=
  (SseParser.new.pushAll chunks).1.findSome? (SseParser.extractUsage x.fromStr)

/-- The total of an embedding response. -/
def embeddingUsage (x : Crates) (body : List UInt8) : Option Nat :=
  ((x.fromSlice body).bind fun v => v.get "usage").map totalTokens

/-! ### The ghost of a request -/

/-- What the log of a request says about it. -/
structure Ghost where
  request : HttpRequest
  reserved : Bool
  held : Option ReservationHandle
  phase : Phase
  /-- What its cache lookup found. -/
  hit : Option String
  /-- The body it sent last. -/
  sent : Option (List UInt8)
  /-- The body it read. -/
  body : Option (List UInt8)
  /-- The chunks its stream received. -/
  chunks : List (List UInt8)
  /-- The tokens it recorded. -/
  tokens : List (String × Nat)
  /-- The costs it reconciled with. -/
  settled : List ℚ
  dropped : Bool

namespace Ghost

/-- A request that has done nothing yet. -/
def start (req : HttpRequest) : Ghost where
  request := req
  reserved := false
  held := none
  phase := .idle
  hit := none
  sent := none
  body := none
  chunks := []
  tokens := []
  settled := []
  dropped := false

/-- What a move adds to the account. -/
def next (g : Ghost) : GatewayMove → Ghost
  | .act (.isEligible _) _ => g
  | .act (.allowRequest p) answer => if answer = true then { g with phase := .admitted p } else g
  | .act (.recordSuccess _) _ => { g with phase := g.phase.succeeded }
  | .act (.recordFailure _) _ => { g with phase := .idle }
  | .act (.rpmTryConsume _ _) _ => g
  | .act (.tryReserveTpm _ _) answer => { g with reserved := true, held := answer.toOption }
  | .act (.reconcile _ cost) _ => { g with held := none, settled := g.settled ++ [cost] }
  | .act (.dropHandle _) _ => { g with held := none }
  | .act (.metric m) _ => { g with tokens := g.tokens ++ m.tokens }
  | .act (.yield _) _ => g
  | .act (.await (.cacheGet _) _) answer => { g with hit := answer }
  | .act (.await (.cacheInsert _ _) _) _ => g
  | .act (.await (.send p req) _) answer =>
      { g with phase := .answered p answer, sent := some req.body }
  | .act (.await (.bytes _) _) (.ok body) => { g with phase := .idle, body := some body }
  | .act (.await (.bytes p) _) (.error _) => { g with phase := .broken p .bodyError }
  | .poll (.chunk bs) => { g with chunks := g.chunks ++ [bs] }
  | .poll (.error _) => { g with phase := g.phase.breakOff .streamError }
  | .poll .idleTimeout => { g with phase := g.phase.breakOff .idleTimeout }
  | .poll .ended => { g with phase := g.phase.finished }
  | .drop => { g with phase := .idle, dropped := true }

/-- The tokens an upstream has reported to a chat request so far. -/
def reported (x : Crates) (g : Ghost) : Option (Nat × Nat) :=
  match g.body with
  | some body => bodyUsage x body
  | none => streamUsage x g.chunks

/-- What a request may reconcile with: what was reported to it, or nothing after a cache
hit. -/
def Owes (x : Crates) (g : Ghost) (cost : ℚ) : Prop :=
  match g.request.call with
  | .chat _ => cost = ((g.reported x).map fun t => wrappingAdd t.1 t.2).getD 0
  | .embeddings _ => (g.body.bind (embeddingUsage x)).map (fun n : Nat => (n : ℚ)) = some cost

end Ghost

/-- The key of a call, if it is one that is cached. -/
def ApiCall.key (x : Crates) : ApiCall → Option String
  | .chat (.ok r) => requestKey x r
  | _ => none

/-- The body a call is forwarded with. -/
def ApiCall.forwarded (x : Crates) : ApiCall → Option (List UInt8)
  | .chat (.ok r) => (Crates.toVec x.chatToString (injectStreamOptions r)).toOption
  | .embeddings (.ok r) => (Crates.toVec x.embeddingToString r).toOption
  | _ => none

/-- The tokens a call reserves. -/
def ApiCall.estimate : ApiCall → Option ℚ
  | .chat (.ok r) => some (estimateChatTokens (injectStreamOptions r))
  | .embeddings (.ok r) => some (estimateEmbeddingTokens r.input)
  | _ => none

/-- The effects a request may perform. -/
def Permitted (x : Crates) (g : Ghost) : Effect → Prop
  | .isEligible _ => True
  | .allowRequest _ => g.phase = .idle
  | .recordSuccess p =>
      ∃ s, g.phase = .answered p (.ok s) ∧ isRetryableUpstreamStatus s = false
  | .recordFailure p =>
      (∃ a, g.phase = .answered p a ∧ isFailure a = true) ∨ ∃ o, g.phase = .broken p o
  | .rpmTryConsume _ cost => cost = 1
  | .tryReserveTpm _ cost =>
      g.reserved = false ∧ g.held = none ∧ g.request.call.estimate = some cost
  | .reconcile h cost => g.held = some h ∧ g.Owes x cost
  | .dropHandle h => g.held = some h
  | .metric _ => True
  | .yield _ => True
  | .await (.cacheGet key) owned =>
      owned = g.held ∧ g.body = none ∧ g.request.call.key x = some key
  | .await (.cacheInsert key v) owned =>
      owned = g.held ∧ g.request.call.key x = some key ∧
        ∃ body, g.body = some body ∧ v = fromUtf8Lossy body
  | .await (.send p req) owned =>
      owned = g.held ∧ g.phase = .admitted p ∧ g.request.call.forwarded x = some req.body
  | .await (.bytes p) owned => owned = g.held ∧ g.phase = .reading p

/-- The discipline of the gateway's requests. -/
def discipline (x : Crates) : Protocol gatewaySig StreamItem Ghost where
  ok := Permitted x
  next := Ghost.next

/-- The usage callback of a stream has been called with the usage found so far, or is still
there with the reservation. -/
def Charges (s : BodyStream) (g : Ghost) : Option (Nat × Nat) → Prop
  | none => s.usageCharged = false ∧ g.tokens = [] ∧ g.settled = [] ∧
      ∃ h, g.held = some h ∧ s.onUsage = some
        { call := settleUsage s.providerName (some h), drop := dropReservation (some h) }
  | some t => s.usageCharged = true ∧ g.tokens = tokensOf t ∧
      g.settled = [(wrappingAdd t.1 t.2 : ℚ)] ∧ g.held = none ∧ s.onUsage = none

/-- A stream whose parser has seen the chunks and whose callbacks are those of the handler;
`usage` is the first usage among the events inspected so far. -/
structure Streaming (x : Crates) (s : BodyStream) (g : Ghost) (usage : Option (Nat × Nat)) :
    Prop where
  phase : g.phase = .reading s.providerName
  chat : ∃ r, g.request.call = .chat (.ok r)
  body : g.body = none
  parser : s.parser = (SseParser.new.pushAll g.chunks).2
  onError : s.onError = some { call := fun _ => recordFailure s.providerName, drop := pure () }
  charges : Charges s g usage

/-- What a stream recorded and reconciled is the first usage there was. -/
def Ghost.Accounted (x : Crates) (g : Ghost) : Prop :=
  match streamUsage x g.chunks with
  | none => g.tokens = [] ∧ g.settled = []
  | some t => g.tokens = tokensOf t ∧ g.settled = [(wrappingAdd t.1 t.2 : ℚ)]

/-- No attempt is pending; a streaming request that was not dropped has accounted for what
it received. -/
structure Ended (x : Crates) (g : Ghost) : Prop where
  phase : g.phase = .idle
  streamed : g.dropped = false → ∀ r, g.request.call = .chat (.ok r) → r.stream = true →
    g.Accounted x

/-- A request is done with: nothing is pending and nothing is held. -/
structure Done (x : Crates) (g : Ghost) : Prop extends Ended x g where
  held : g.held = none

/-- A response that says it is a cache hit is what the lookup found. -/
def HitSound (r : Response BodyStream) (g : Ghost) : Prop :=
  ("x-cache", "HIT") ∈ r.headers → ∃ text, g.hit = some text ∧ r.body = .full (asBytes text)

/-- What holds of a request between two polls. -/
def Settled (x : Crates) : Idle → Ghost → Prop
  | .closed, g => Done x g
  | .responded r, g => HitSound r g ∧
      match r.body with
      | .full _ => Done x g
      | .stream s => Streaming x s g (streamUsage x g.chunks)

end LlmGateway
