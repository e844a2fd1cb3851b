/-
What the two handlers share.

The chat and the embeddings handler make the same attempts in the same failover loop over
the same selection, and differ in what follows a status that is neither retried nor
rejected.  What a handler does to settle a request is `Billing`, whichever of the two it is, and
a streaming body does what its callbacks do.
-/
import LlmGateway.Handlers.Chat
import LlmGateway.Handlers.Embeddings
import LlmGateway.Lib.Runs

namespace LlmGateway

open Effects

/-! ### Billing -/

/-- What is done to settle a request with a provider, and to keep its answer. -/
def Billing (provider : String) : Effect → Prop
  | .metric m => ∃ kind n, kind ∈ ["prompt", "completion", "embedding"] ∧
      m = .recordTokens provider kind n
  | .reconcile _ _ => True
  | .dropHandle _ => True
  | .await (.cacheInsert _ _) _ => True
  | _ => False

section Billing

variable (x : Crates) (provider : String) (reservation : Option ReservationHandle)

theorem billing_reconcileTaken (cost : ℚ) :
    (reconcileTaken reservation cost).Only (Billing provider) := by
  cases reservation with
  | none => exact trivial
  | some hd => exact ⟨trivial, fun _ => trivial⟩

theorem billing_dropReservation : (dropReservation reservation).Only (Billing provider) := by
  cases reservation with
  | none => exact trivial
  | some hd => exact ⟨trivial, fun _ => trivial⟩

theorem billing_settleUsage (tokens : Nat × Nat) :
    (settleUsage provider reservation tokens).Only (Billing provider) := by
  have hprompt : Billing provider (.metric (.recordTokens provider "prompt" tokens.1)) :=
    ⟨"prompt", tokens.1, by simp, rfl⟩
  have hcompletion : Billing provider (.metric (.recordTokens provider "completion" tokens.2)) :=
    ⟨"completion", tokens.2, by simp, rfl⟩
  exact ⟨hprompt, fun _ => ⟨hcompletion, fun _ => billing_reconcileTaken _ _ _⟩⟩

theorem billing_chatUsage (bodyStr : String) :
    (chatUsage x provider reservation bodyStr).Only (Billing provider) := by
  unfold chatUsage
  cases (x.fromStr bodyStr).bind fun v => v.get "usage" with
  | none => exact trivial
  | some usage => exact (billing_settleUsage _ _ _).bind fun _ => trivial

theorem billing_fillCache (cacheKey : Option String) (bodyStr : String) :
    (fillCache cacheKey bodyStr reservation).Only (Billing provider) := by
  cases cacheKey with
  | none => exact trivial
  | some key => exact ⟨trivial, fun _ => trivial⟩

theorem billing_embeddingsUsage (body : List UInt8) :
    (embeddingsUsage x provider reservation body).Only (Billing provider) := by
  unfold embeddingsUsage
  cases (x.fromSlice body).bind fun v => v.get "usage" with
  | none => exact trivial
  | some usage =>
      have htokens : Billing provider
          (.metric (.recordTokens provider "embedding" (totalTokens usage))) :=
        ⟨"embedding", totalTokens usage, by simp, rfl⟩
      exact ⟨htokens, fun _ => (billing_reconcileTaken _ _ _).bind fun _ => trivial⟩

end Billing

/-! ### Streaming bodies -/

/-- A callback that only does such things, called or not. -/
def FnOnce.Only {α : Type} (P : Effect → Prop) (f : FnOnce α) : Prop :=
  (∀ a, (f.call a).Only P) ∧ f.drop.Only P

/-- A streaming body that only does such things, of its own or by its callbacks. -/
structure BodyStream.Only (P : Effect → Prop) (s : BodyStream) : Prop where
  ttft : P (.metric (.recordTtft s.providerName))
  onUsage : ∀ f ∈ s.onUsage, f.Only P
  onError : ∀ f ∈ s.onError, f.Only P

/-- A response whose body, if it streams, only does such things. -/
def Response.Streams (P : Effect → Prop) (r : Response BodyStream) : Prop :=
  ∀ s, r.body = .stream s → s.Only P

namespace BodyStream

variable {P : Effect → Prop} {s : BodyStream} {fromStr : String → Option Value}

theorem only_closure {α : Type} {f : Option (FnOnce α)} (h : ∀ c ∈ f, c.Only P) :
    (dropClosure f).Only P := by
  cases f with
  | none => exact trivial
  | some c => exact (h c rfl).2

theorem drop_only (hs : s.Only P) : s.drop.Only P :=
  (only_closure hs.onUsage).bind fun _ => only_closure hs.onError

/-- What inspecting events keeps of a body: the error callback is left alone. -/
structure Inspected (P : Effect → Prop) (s s' : BodyStream) : Prop where
  name : s'.providerName = s.providerName
  onUsage : ∀ f ∈ s'.onUsage, f.Only P
  onError : s'.onError = s.onError

/-- Inspecting events records a metric, or calls the usage callback. -/
theorem inspect_keeps (httft : P (.metric (.recordTtft s.providerName)))
    (hs : ∀ f ∈ s.onUsage, f.Only P) (events : List String) :
    (s.inspect fromStr events).Gives P (Inspected P s) := by
  induction events generalizing s with
  | nil => exact ⟨rfl, hs, rfl⟩
  | cons event events ih =>
      have hfirst : (s.inspectTtft fromStr event).Gives P (Inspected P s) := by
        unfold inspectTtft
        by_cases h : (!s.ttftRecorded && SseParser.isContentEvent fromStr event) = true
        · rw [if_pos h]
          exact ⟨httft, fun _ => ⟨rfl, hs, rfl⟩⟩
        · rw [if_neg h]
          exact ⟨rfl, hs, rfl⟩
      unfold inspect
      refine hfirst.call fun s₁ hs₁ => ?_
      have husage : (s₁.inspectUsage fromStr event).Gives P (Inspected P s) := by
        unfold inspectUsage
        by_cases h : s₁.usageCharged = true
        · rw [if_pos h]
          exact hs₁
        rw [if_neg h]
        cases SseParser.extractUsage fromStr event with
        | none => exact hs₁
        | some tokens =>
            cases hcb : s₁.onUsage with
            | none => exact ⟨hs₁.name, by simp, hs₁.onError⟩
            | some cb =>
                exact ((hs₁.onUsage cb hcb).1 tokens).gives.call fun _ _ =>
                  ⟨hs₁.name, by simp, hs₁.onError⟩
      refine husage.call fun s₂ hs₂ => ?_
      refine (ih (by rw [hs₂.name]; exact httft) hs₂.onUsage).mono fun s' hs' => ?_
      exact ⟨hs'.name.trans hs₂.name, hs'.onUsage, hs'.onError.trans hs₂.onError⟩

theorem inspect_only (hs : s.Only P) (events : List String) :
    (s.inspect fromStr events).Gives P (Only P) := by
  refine (inspect_keeps hs.ttft hs.onUsage events).mono fun s' hs' => ⟨?_, hs'.onUsage, ?_⟩
  · rw [hs'.name]
    exact hs.ttft
  · rw [hs'.onError]
    exact hs.onError

/-- A body that breaks off reports it, hands the error on and is dropped. -/
theorem breakOff_only (hyield : ∀ item, P (.yield item)) (hs : s.Only P)
    (item : Except String (List UInt8)) :
    ((s.reportError).bind fun s => (yield item).bind fun _ => s.drop.bind fun _ =>
      .ret (none : Option BodyStream)).Gives P fun s' => ∀ t ∈ s', t.Only P := by
  have hreport : s.reportError.Gives P (Only P) := by
    unfold reportError
    cases hcb : s.onError with
    | none => exact hs
    | some cb =>
        exact ((hs.onError cb hcb).1 ()).gives.call fun _ _ => ⟨hs.ttft, hs.onUsage, by simp⟩
  refine hreport.call fun s hs => ⟨hyield _, fun _ => ?_⟩
  exact (drop_only hs).gives.call fun _ _ t ht => nomatch ht

/-- What is left of a body only does such things, too. -/
theorem resume_only (hyield : ∀ item, P (.yield item)) (hs : s.Only P) (item : StreamItem) :
    (s.resume fromStr item).Gives P fun s' => ∀ t ∈ s', t.Only P := by
  cases item with
  | chunk bs =>
      unfold resume
      have hpushed : ({ s with parser := (s.parser.push bs).2 } : BodyStream).Only P :=
        ⟨hs.ttft, hs.onUsage, hs.onError⟩
      refine (inspect_only hpushed _).call fun s hs => ⟨hyield _, fun _ t ht => ?_⟩
      obtain rfl := Option.some.inj ht
      exact hs
  | error e => exact breakOff_only hyield hs _
  | idleTimeout => exact breakOff_only hyield hs _
  | ended => exact (drop_only hs).gives.call fun _ _ t ht => nomatch ht

end BodyStream

/-- A chat stream does what its callbacks do. -/
theorem chatStream_only {P : Effect → Prop} {p : ProviderConfig}
    {reservation : Option ReservationHandle} (httft : P (.metric (.recordTtft p.name)))
    (hfailure : P (.recordFailure p.name))
    (husage : ∀ tokens, (settleUsage p.name reservation tokens).Only P)
    (hdrop : (dropReservation reservation).Only P) :
    (chatStream p reservation).Streams P := by
  intro s hs
  obtain rfl := Body.stream.inj hs
  refine ⟨httft, ?_, ?_⟩
  · intro f hf
    obtain rfl := Option.some.inj hf
    exact ⟨husage, hdrop⟩
  · intro f hf
    obtain rfl := Option.some.inj hf
    exact ⟨fun _ => ⟨hfailure, fun _ => trivial⟩, trivial⟩

/-! ### One attempt -/

/-- A contact that failed is recorded, and the loop goes on. -/
def contactFailed (p : ProviderConfig) (error text : String)
    (reservation : Option ReservationHandle) : Gateway Flow := do
  recordFailure p.name
  metric (.recordError p.name error)
  return .next (some text) reservation

/-- The attempt of both handlers at a provider; `answered` goes on from a status that is
neither retried nor rejected. -/
def attemptWith (x : Crates) (request : OutboundRequest) (answered : StatusCode → Gateway Flow)
    (p : ProviderConfig) (lastError : Option String)
    (reservation : Option ReservationHandle) : Gateway Flow := do
  if ← allowRequest p.name then
    match ← send p.name request reservation with
    | .error _ => contactFailed p "connect_error" (p.name ++ ": connection error") reservation
    | .ok status =>
        if isRetryableUpstreamStatus status then
          contactFailed p "retryable_error" (returnedText x p.name status) reservation
        else if isNonRetryableClientError status then
          recordSuccess p.name
          metric (.recordError p.name "client_error")
          return .done (.error (.badRequest (rejectedText x status))) reservation
        else answered status
  else return .next lastError reservation

/-- The embeddings handler goes on only from a 2xx status. -/
def embeddingsGoesOn (x : Crates) (p : ProviderConfig) (reservation : Option ReservationHandle)
    (status : StatusCode) : Gateway Flow :=
  if !status.isSuccess then
    contactFailed p "unexpected_status" (returnedText x p.name status) reservation
  else embeddingsAnswered x p reservation

theorem chatAttempt_eq (x : Crates) (isStream : Bool) (cacheKey : Option String)
    (body : List UInt8) (p : ProviderConfig) (lastError : Option String)
    (reservation : Option ReservationHandle) :
    chatAttempt x isStream cacheKey body p lastError reservation
      = attemptWith x (buildChatRequest p body)
          (fun _ => chatAnswered x isStream cacheKey p reservation) p lastError reservation := rfl

theorem embeddingsAttempt_eq (x : Crates) (body : List UInt8) (p : ProviderConfig)
    (lastError : Option String) (reservation : Option ReservationHandle) :
    embeddingsAttempt x body p lastError reservation
      = attemptWith x (buildEmbeddingsRequest p body) (embeddingsGoesOn x p reservation) p
          lastError reservation := by
  unfold embeddingsAttempt attemptWith
  congr 1
  funext allowed
  cases allowed with
  | false => rfl
  | true =>
      show Prog.bind _ _ = Prog.bind _ _
      congr 1
      funext answer
      cases answer <;> rfl

/-! ### The failover loop -/

/-- The loop of both handlers over what is left of the candidates. -/
def failoverLoop
    (attempt : ProviderConfig → Option String → Option ReservationHandle → Gateway Flow) :
    List ProviderConfig → Option String → Option ReservationHandle →
      Gateway (HandlerResult × Option ReservationHandle)
  | [], lastError, reservation => do
      metric (.recordError "all" "all_providers_failed")
      return (.error (.upstream (lastError.getD "all providers failed")), reservation)
  | p :: rest, lastError, reservation => do
      match ← attempt p lastError reservation with
      | .next lastError reservation => failoverLoop attempt rest lastError reservation
      | .done result reservation => return (result, reservation)

theorem chatLoop_eq (x : Crates) (isStream : Bool) (cacheKey : Option String) (body : List UInt8)
    (cands : List ProviderConfig) (lastError : Option String)
    (reservation : Option ReservationHandle) :
    chatLoop x isStream cacheKey body cands lastError reservation
      = failoverLoop (chatAttempt x isStream cacheKey body) cands lastError reservation := by
  induction cands generalizing lastError reservation with
  | nil => rfl
  | cons p rest ih =>
      show Prog.bind _ _ = Prog.bind _ _
      congr 1
      funext flow
      cases flow with
      | next lastError reservation => exact ih lastError reservation
      | done result reservation => rfl

theorem embeddingsLoop_eq (x : Crates) (body : List UInt8) (cands : List ProviderConfig)
    (lastError : Option String) (reservation : Option ReservationHandle) :
    embeddingsLoop x body cands lastError reservation
      = failoverLoop (embeddingsAttempt x body) cands lastError reservation := by
  induction cands generalizing lastError reservation with
  | nil => rfl
  | cons p rest ih =>
      show Prog.bind _ _ = Prog.bind _ _
      congr 1
      funext flow
      cases flow with
      | next lastError reservation => exact ih lastError reservation
      | done result reservation => rfl

end LlmGateway
