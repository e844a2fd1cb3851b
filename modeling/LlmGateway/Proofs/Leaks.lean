/-
What an error response tells about the upstream side.

An error is decided by the call and by the last thing that was observed of it: whether it
was admitted, what its breaker answered, the status or the kind of failure of the last
provider.  `verdict` says how, and names no provider, address, key, error text or body.  So
two requests with the same call that were observed to go the same way end in the same
response, whatever is configured and whatever was sent back.
-/
import LlmGateway.Proofs.Parity

namespace LlmGateway

open Effects

variable {x : Crates} {st : AppState} {call : ApiCall}

/-! ### Observations -/

/-- What may be known of one step of a request. -/
inductive Observation
  | admitted
  | refused (retryAfter : Nat)
  | allowed (answer : Bool)
  | connectError
  | status (s : StatusCode)
  | bodyError
  | bodyRead

/-- What is observed of a move: the admission, the answers of breakers, the status or the kind
of failure of each attempt. -/
def observation : GatewayMove → Option Observation
  | .act (.tryReserveTpm _ _) (.ok _) => some .admitted
  | .act (.tryReserveTpm _ _) (.error retryAfter) => some (.refused retryAfter)
  | .act (.allowRequest _) answer => some (.allowed answer)
  | .act (.await (.send _ _) _) (.error _) => some .connectError
  | .act (.await (.send _ _) _) (.ok s) => some (.status s)
  | .act (.await (.bytes _) _) (.error _) => some .bodyError
  | .act (.await (.bytes _) _) (.ok _) => some .bodyRead
  | _ => none

/-- The automaton that remembers the last observation. -/
def lastObserved : Protocol gatewaySig StreamItem (Option Observation) where
  ok _ _ := True
  next g m := (observation m).or g

theorem run_lastObserved (g : Option Observation) (ms : List GatewayMove) :
    lastObserved.run g ms = ((ms.filterMap observation).getLast?).or g := by
  induction ms generalizing g with
  | nil => rfl
  | cons m ms ih =>
      rw [Protocol.run_cons, ih]
      show _ = (((m :: ms).filterMap observation).getLast?).or g
      cases hm : observation m with
      | none => simp [lastObserved, hm]
      | some o =>
          rw [List.filterMap_cons_some hm]
          cases hrest : (ms.filterMap observation).getLast? with
          | none =>
              rw [List.getLast?_eq_none_iff] at hrest
              simp [lastObserved, hm, hrest]
          | some o' => simp [List.getLast?_cons, hrest]

/-! ### The verdict -/

/-- The client cannot tell one error from the other. -/
def Alike (e e' : AppError) : Prop :=
  (e.intoResponse : Response BodyStream) = e'.intoResponse

theorem alike_upstream (s t : String) : Alike (.upstream s) (.upstream t) := rfl

theorem alike_internal (s t : String) : Alike (.internal s) (.internal t) := rfl

/-- The error of a call that ends before a provider is asked. -/
def ApiCall.refusal (x : Crates) : ApiCall → AppError
  | .chat (.error e) => .fromJsonRejection e
  | .embeddings (.error e) => .fromJsonRejection e
  | .chat (.ok r) =>
      match x.chatToString (injectStreamOptions r) with
      | .error _ => .internal ""
      | .ok _ => .upstream ""
  | .embeddings (.ok r) =>
      match x.embeddingToString r with
      | .error _ => .internal ""
      | .ok _ => .upstream ""

/-- The error of a call after its last observation, up to what the client cannot see. -/
def verdict (x : Crates) (call : ApiCall) : Option Observation → AppError
  | none => call.refusal x
  | some .admitted => call.refusal x
  | some (.refused retryAfter) => .rateLimited retryAfter
  | some (.status s) =>
      if isNonRetryableClientError s then .badRequest (rejectedText x s) else .upstream ""
  | some .bodyRead => .internal ""
  | some _ => .upstream ""

/-- A request that gives up now ends with an upstream error. -/
def Passing (x : Crates) (call : ApiCall) (g : Option Observation) : Prop :=
  verdict x call g = .upstream ""

/-- If the result is an error, it is the verdict. -/
def Judged (x : Crates) (call : ApiCall) (result : HandlerResult) (g : Option Observation) : Prop :=
  ∀ e, result = .error e → Alike e (verdict x call g)

theorem judged_ok (response : Response BodyStream) (g : Option Observation) :
    Judged x call (.ok response) g := nofun

theorem judged_error {e : AppError} {g : Option Observation} (h : Alike e (verdict x call g)) :
    Judged x call (.error e) g := by
  intro e' he
  obtain rfl := Except.error.inj he
  exact h

theorem Passing.judged {g : Option Observation} (h : Passing x call g) (s : String) :
    Judged x call (.error (.upstream s)) g :=
  judged_error (by rw [h]; exact alike_upstream s "")

/-- A retried status is not one the client is blamed for. -/
theorem passing_status {s : StatusCode} (h : isNonRetryableClientError s = false) :
    Passing x call (some (.status s)) := by
  simp [Passing, verdict, h]

theorem not_rejected_of_retryable {s : StatusCode} (h : isRetryableUpstreamStatus s = true) :
    isNonRetryableClientError s = false := by
  rcases retryable_cases h with hserver | h429 | h408
  · have hrange : 500 ≤ s.code ∧ s.code < 600 := by
      simpa [StatusCode.isServerError] using hserver
    have hclient : s.isClientError = false := by
      simp only [StatusCode.isClientError, Bool.and_eq_false_imp, decide_eq_true_eq,
        decide_eq_false_iff_not]
      omega
    simp [isNonRetryableClientError, hclient]
  · have hs : s = .tooManyRequests := by
      cases s
      simpa [StatusCode.tooManyRequests] using h429
    simp [isNonRetryableClientError, hs]
  · have hs : s = .requestTimeout := by
      cases s
      simpa [StatusCode.requestTimeout] using h408
    simp [isNonRetryableClientError, hs]

/-- The response of a provider can only fail to be built once its body was read. -/
theorem judged_providerResponse (headers : List (String × String)) (provider : String)
    (body : List UInt8) :
    Judged x call (providerResponse headers provider body) (some .bodyRead) := by
  unfold providerResponse
  by_cases h : headerValueOk provider = true
  · rw [if_pos h]
    exact judged_ok _ _
  · rw [if_neg h]
    exact judged_error (alike_internal _ "")

/-- An aside is not observed. -/
theorem observation_aside {e : Effect} (h : Aside e) (y : e.Answer) :
    observation (.act e y) = none := by
  cases e with
  | await a owned =>
      cases a with
      | cacheInsert key v => rfl
      | _ => exact h.elim
  | metric m => rfl
  | reconcile hd cost => rfl
  | dropHandle hd => rfl
  | _ => exact h.elim

/-! ### The junctures -/

/-- What has been observed at a juncture. -/
def Observed (x : Crates) (call : ApiCall) : Juncture → Option Observation → Prop
  | .admitted, g => g = none
  | .cleared _ _ _, _ => True
  | .reading _ _ _, _ => True
  | .finished result, g => Judged x call result g
  | _, g => Passing x call g

section Junctures

variable {g : Option Observation} {hd : ReservationHandle}

/-- What is not observed changes nothing. -/
theorem does_unobserved {es : List Effect} {Q : Option Observation → Prop}
    (hes : ∀ e ∈ es, ∀ y, observation (.act e y) = none) (h : Q g) :
    lastObserved.Does es g Q := by
  refine Protocol.Does.mono (Protocol.does_of_forall (J := fun g' => g' = g) ?_ rfl) ?_
  · rintro e he g' rfl
    refine ⟨trivial, fun y => ?_⟩
    show (observation (.act e y)).or g' = g'
    rw [hes e he y]
    rfl
  · rintro g' rfl
    exact h

theorem Passing.retry (h : Passing x call g) (lastError : Option String)
    (cands : List ProviderConfig) :
    lastObserved.Meets (Observed x call) (retry lastError hd cands) g := by
  cases cands with
  | nil => exact ⟨trivial, fun _ => ⟨trivial, fun _ => h.judged _⟩⟩
  | cons p rest => exact h

theorem Passing.choose (h : Passing x call g) (chosen todo : List ProviderConfig) :
    lastObserved.Meets (Observed x call) (call.choose hd chosen todo) g := by
  cases todo with
  | cons p todo => exact h
  | nil =>
      cases chosen with
      | nil => exact ⟨trivial, fun _ => ⟨trivial, fun _ => h.judged _⟩⟩
      | cons p rest => exact h

/-- The error of a call that is admitted. -/
theorem refusal_cases {cost : ℚ} (h : call.estimate = some cost) :
    (∃ e, call.written x = .error e ∧ call.refusal x = .internal "") ∨
      ∃ body, call.written x = .ok body ∧ call.refusal x = .upstream "" := by
  cases call with
  | chat payload =>
      cases payload with
      | error e => cases h
      | ok r =>
          cases htext : x.chatToString (injectStreamOptions r) with
          | error e => exact Or.inl ⟨e, by simp [ApiCall.written, Crates.toVec, htext, Except.map],
              by simp [ApiCall.refusal, htext]⟩
          | ok text => exact Or.inr ⟨asBytes text,
              by simp [ApiCall.written, Crates.toVec, htext, Except.map],
              by simp [ApiCall.refusal, htext]⟩
  | embeddings payload =>
      cases payload with
      | error e => cases h
      | ok r =>
          cases htext : x.embeddingToString r with
          | error e => exact Or.inl ⟨e, by simp [ApiCall.written, Crates.toVec, htext, Except.map],
              by simp [ApiCall.refusal, htext]⟩
          | ok text => exact Or.inr ⟨asBytes text,
              by simp [ApiCall.written, Crates.toVec, htext, Except.map],
              by simp [ApiCall.refusal, htext]⟩

/-- A reservation decides nothing about a payload that can be written. -/
theorem observed_reserved {cost : ℚ} (h : call.estimate = some cost) :
    lastObserved.Meets (Observed x call) (call.reserved x st hd) (some .admitted) := by
  obtain ⟨e, hwritten, hrefusal⟩ | ⟨body, hwritten, hrefusal⟩ := refusal_cases (x := x) h
  · rw [reserved_unwritten hwritten]
    refine ⟨trivial, fun _ => judged_error ?_⟩
    show Alike _ (call.refusal x)
    rw [hrefusal]
    exact alike_internal _ ""
  · have hpassing : Passing x call (some .admitted) := hrefusal
    rw [reserved_written hwritten]
    cases call.key x with
    | some key => exact hpassing
    | none => exact hpassing.choose [] _

theorem observed_answered {p : ProviderConfig} (rest : List ProviderConfig)
    (answer : Except String StatusCode) (owned : Option ReservationHandle)
    (out : OutboundRequest) :
    lastObserved.Meets (Observed x call) (call.answered x p rest hd answer)
      (lastObserved.next g (.act (.await (.send p.name out) owned) answer)) := by
  unfold ApiCall.answered
  cases hreception : call.receive answer with
  | failed =>
      refine ⟨trivial, fun _ => ⟨trivial, fun _ => Passing.retry ?_ _ _⟩⟩
      cases answer with
      | error e => exact rfl
      | ok s =>
          refine passing_status ?_
          by_contra hclient
          have hfailure := receive_failed hreception
          simp only [isFailure, Bool.or_eq_true, Bool.and_eq_true, Bool.not_eq_true'] at hfailure
          rcases hfailure with hretry | ⟨-, hnot⟩
          · exact hclient (not_rejected_of_retryable hretry)
          · exact hclient hnot
  | rejected s =>
      obtain ⟨rfl, -, hclient⟩ := receive_rejected hreception
      refine ⟨trivial, fun _ => ⟨trivial, fun _ => ⟨trivial, fun _ => judged_error ?_⟩⟩⟩
      show Alike _ (verdict x call (some (.status s)))
      rw [verdict, if_pos hclient]
      rfl
  | usable =>
      refine ⟨trivial, fun _ => ⟨trivial, fun _ => ⟨trivial, fun _ => ?_⟩⟩⟩
      show lastObserved.Meets _ (if call.streams then _ else _ : Due) _
      cases call.streams with
      | true => exact ⟨trivial, fun _ => judged_ok _ _⟩
      | false => exact trivial

theorem observed_upholds {identity : ClientIdentity} :
    (script x st identity call).Upholds lastObserved (Juncture.Known x st call)
      (Observed x call) := by
  intro juncture g e _ hg hasks
  refine ⟨trivial, fun answer => ?_⟩
  cases juncture with
  | admitted =>
      obtain ⟨cost, hcost, rfl⟩ := hasks
      cases answer with
      | error retryAfter => exact ⟨trivial, fun _ => judged_error rfl⟩
      | ok hd => exact observed_reserved hcost
  | looking key hd =>
      obtain rfl := hasks
      cases answer with
      | none => exact ⟨trivial, fun _ => Passing.choose hg [] _⟩
      | some text =>
          exact does_unobserved (fun e he => observation_aside (aside_cached e he)) (judged_ok _ _)
  | choosing chosen p todo hd =>
      obtain rfl := hasks
      exact Passing.choose hg _ todo
  | trying p rest lastError hd =>
      obtain rfl := hasks
      cases answer with
      | true => exact trivial
      | false => exact Passing.retry (g := some (.allowed false)) rfl lastError rest
  | cleared p rest hd =>
      obtain ⟨body, -, rfl⟩ := hasks
      exact observed_answered rest answer _ _
  | reading p rest hd =>
      obtain rfl := hasks
      cases answer with
      | error e =>
          have hpassing : Passing x call (some .bodyError) := rfl
          cases call with
          | chat payload => exact ⟨trivial, fun _ => ⟨trivial, fun _ => hpassing.retry _ _⟩⟩
          | embeddings payload => exact ⟨trivial, fun _ => ⟨trivial, fun _ => ⟨trivial, fun _ =>
              judged_error (alike_upstream _ "")⟩⟩⟩
      | ok body =>
          exact does_unobserved
            (fun e he => observation_aside (aside_bodyRead x call p hd body e he))
            (judged_providerResponse _ _ _)
  | finished result => exact hasks.elim

theorem wp_handler_observed (identity : ClientIdentity) (call : ApiCall) :
    (handler x st identity call).wp lastObserved none (Judged x call) := by
  refine wp_handler_upholds observed_upholds ?_
  unfold ApiCall.opening
  cases hmalformed : call.malformed with
  | none => exact rfl
  | some e =>
      refine judged_error ?_
      show Alike _ (call.refusal x)
      cases call with
      | chat payload =>
          cases payload with
          | error e' =>
              obtain rfl := Option.some.inj hmalformed
              exact rfl
          | ok r => cases hmalformed
      | embeddings payload =>
          cases payload with
          | error e' =>
              obtain rfl := Option.some.inj hmalformed
              exact rfl
          | ok r => cases hmalformed

end Junctures

/-- An error is the verdict on what was observed of the request. -/
theorem error_alike_verdict {identity : ClientIdentity} {ms : List GatewayMove} {e : AppError}
    (h : (handler x st identity call).Runs ms (.ret (.error e))) :
    Alike e (verdict x call (ms.filterMap observation).getLast?) := by
  have hkeeps := h.keeps (J := fun _ => True) (wp_handler_observed identity call)
    (fun _ _ _ _ _ => trivial) trivial
  have hjudged := hkeeps.2 e rfl
  rw [run_lastObserved, Option.or_none] at hjudged
  exact hjudged

/--
**Errors tell nothing about the upstream side.**  Take two runs of the handler of the same
call, under any two configurations and on whatever answers, that were observed to go the
same way.  If both end in an error, the client gets the same response.
-/
theorem errors_indistinguishable {x : Crates} {st st' : AppState}
    {identity identity' : ClientIdentity} {call : ApiCall} {ms ms' : List GatewayMove}
    {e e' : AppError} (h : (handler x st identity call).Runs ms (.ret (.error e)))
    (h' : (handler x st' identity' call).Runs ms' (.ret (.error e')))
    (hsame : ms.filterMap observation = ms'.filterMap observation) :
    (e.intoResponse : Response BodyStream) = e'.intoResponse := by
  have hleft := error_alike_verdict h
  have hright := error_alike_verdict h'
  rw [hsame] at hleft
  exact hleft.trans hright.symm

/-! Two gateways with nothing in common but their candidates' number. -/

/-- Every attempt comes out so. -/
def allMeet (u : Upstream) : Circumstances := { firstMeets u with upstream := fun _ => u }

/-- A gateway with as many providers, under other names. -/
def rivalGateway : AppState :=
  .new (.table [] [])
    { credentials := []
      rateLimit := { defaultRpm := 60, defaultTpm := 1000 }
      circuitBreaker := { failureThreshold := 5, cooldownSeconds := 30, halfOpenMaxCalls := 1 }
      providers := [pairProvider "r" 1, pairProvider "s" 2] }

/-- What a small chat request does when each provider fails it with this text, and its result. -/
def failedRun (st : AppState) (text : String) : List GatewayMove × HandlerResult :=
  let (ms, result, _) :=
    (handler (.table [] []) st ⟨"c", "free"⟩ (.chat (.ok (smallPayload false 1)))).alone
      (allMeet (.unanswered text)).answer untried
  (ms, result)

/-- Neither the providers nor their texts can be told from the response. -/
theorem errors_indistinguishable_rivals :
    ∃ e e', (failedRun pairGateway "refused").2 = .error e ∧
      (failedRun rivalGateway "no route").2 = .error e' ∧ e ≠ e' ∧
      (e.intoResponse : Response BodyStream) = e'.intoResponse := by
  have h := Prog.alone_runs (M := StreamItem) (allMeet (.unanswered "refused")).answer
    (handler (.table [] []) pairGateway ⟨"c", "free"⟩ (.chat (.ok (smallPayload false 1)))) untried
  have h' := Prog.alone_runs (M := StreamItem) (allMeet (.unanswered "no route")).answer
    (handler (.table [] []) rivalGateway ⟨"c", "free"⟩ (.chat (.ok (smallPayload false 1)))) untried
  have herror : (failedRun pairGateway "refused").2 = .error (.upstream "q: connection error") := by
    with_unfolding_all rfl
  have herror' : (failedRun rivalGateway "no route").2
      = .error (.upstream "s: connection error") := by
    with_unfolding_all rfl
  refine ⟨_, _, herror, herror', by decide, errors_indistinguishable h h' ?_⟩
  with_unfolding_all rfl

end LlmGateway
