/-
What a step does to the shared state.

The world has one breaker for each provider and one TPM bucket for each client, created
when it is first asked for.  A move changes the breaker of `P` exactly when it is a call
on it, and the bucket of a client exactly when it is a call on that; everything about
runs uses the two functions `onBreaker` and `onTpm` in place of `respond`.
-/
import LlmGateway.Proofs.Server

namespace LlmGateway

open Effects

variable {x : Crates} {st : AppState} {w w' : World} {m : GatewayMove}
  {l : GatewayLabel}

/-! ### Breakers -/

/-- The call a move is on the breaker of a provider. -/
def onBreaker (P : String) : GatewayMove → Option BreakerCall
  | .act (.isEligible p) _ => if p = P then some .isEligible else none
  | .act (.allowRequest p) _ => if p = P then some .allowRequest else none
  | .act (.recordSuccess p) _ => if p = P then some .recordSuccess else none
  | .act (.recordFailure p) _ => if p = P then some .recordFailure else none
  | _ => none

/-- A breaker after a call, if there is one. -/
def CircuitBreaker.after (b : CircuitBreaker) (now : Instant) : Option BreakerCall → CircuitBreaker
  | some c => (b.call now c).2
  | none => b

namespace World

@[simp] theorem breakerFor_setBreaker_self (w : World) (P : String) (b : CircuitBreaker) :
    (w.setBreaker P b).breakerFor st P = b := by
  simp [breakerFor, setBreaker]

theorem breakerFor_setBreaker_ne (w : World) {p P : String} (h : p ≠ P) (b : CircuitBreaker) :
    (w.setBreaker p b).breakerFor st P = w.breakerFor st P := by
  simp [breakerFor, setBreaker, Table.insert_ne _ h.symm]

theorem breakerFor_callBreaker (w : World) (p P : String) (c : BreakerCall) :
    (w.callBreaker st p c).2.breakerFor st P
      = (w.breakerFor st P).after w.now (if p = P then some c else none) := by
  by_cases h : p = P
  · subst h
    rw [if_pos rfl]
    exact breakerFor_setBreaker_self w p _
  · rw [if_neg h]
    exact breakerFor_setBreaker_ne w h _

/-! ### Buckets -/

/-- A client's TPM bucket. -/
def tpm (st : AppState) (w : World) (client : String) : TokenBucket := (w.bucketsFor st client).tpm

/-- Its level now. -/
def tpmLevel (st : AppState) (w : World) (client : String) : ℚ := (w.tpm st client).level w.now

theorem tpm_setTpm (w : World) (c client : String) (f : TokenBucket → TokenBucket) :
    (w.setTpm st c (f (w.tpm st c))).tpm st client
      = if c = client then f (w.tpm st client) else w.tpm st client := by
  by_cases h : c = client
  · subst h
    simp [tpm, setTpm, setBuckets, bucketsFor]
  · rw [if_neg h]
    simp [tpm, setTpm, setBuckets, bucketsFor, Table.insert_ne _ (Ne.symm h)]

end World

/-- What a move does to the TPM bucket of a client. -/
def onTpm (client : String) (now : Instant) (b : TokenBucket) : GatewayMove → TokenBucket
  | .act (.tryReserveTpm c cost) _ => if c = client then (b.tryReserve now c cost).2 else b
  | .act (.reconcile h cost) _ => if h.bucket = client then h.reconcile b now cost else b
  | .act (.dropHandle h) _ => if h.bucket = client then h.drop b now else b
  | _ => b

section OnTpm

variable {client : String} {now : Instant} {b : TokenBucket}

theorem onTpm_tryReserveTpm (c : String) (cost : ℚ) (answer : Except Nat ReservationHandle) :
    onTpm client now b (.act (.tryReserveTpm c cost) answer)
      = if c = client then (b.tryReserve now c cost).2 else b := rfl

theorem onTpm_reconcile (h : ReservationHandle) (cost : ℚ) (u : Unit) :
    onTpm client now b (.act (.reconcile h cost) u)
      = if h.bucket = client then h.reconcile b now cost else b := rfl

theorem onTpm_dropHandle (h : ReservationHandle) (u : Unit) :
    onTpm client now b (.act (.dropHandle h) u)
      = if h.bucket = client then h.drop b now else b := rfl

end OnTpm

/-! ### Moves -/

section Answers

variable {e : Effect} {c : Choice} {y : e.Answer}

theorem respond_now (h : respond st w e c = some (y, w')) : w'.now = w.now := by
  cases e with
  | await a owned => cases a <;> cases c <;> cases h <;> rfl
  | _ => cases h; rfl

theorem respond_breaker (h : respond st w e c = some (y, w')) (P : String) :
    w'.breakerFor st P = (w.breakerFor st P).after w.now (onBreaker P (.act e y)) := by
  cases e with
  | await a owned => cases a <;> cases c <;> cases h <;> rfl
  | isEligible p => cases h; exact World.breakerFor_callBreaker w p P .isEligible
  | allowRequest p => cases h; exact World.breakerFor_callBreaker w p P .allowRequest
  | recordSuccess p => cases h; exact World.breakerFor_callBreaker w p P .recordSuccess
  | recordFailure p => cases h; exact World.breakerFor_callBreaker w p P .recordFailure
  | _ => cases h; rfl

theorem respond_tpm (h : respond st w e c = some (y, w')) (client : String) :
    w'.tpm st client = onTpm client w.now (w.tpm st client) (.act e y) := by
  cases e with
  | await a owned => cases a <;> cases c <;> cases h <;> rfl
  | rpmTryConsume p cost =>
      cases h
      show (World.bucketsFor st (World.setBuckets w p _) client).tpm = (w.bucketsFor st client).tpm
      by_cases hp : p = client
      · subst hp
        simp [World.bucketsFor, World.setBuckets]
      · simp [World.bucketsFor, World.setBuckets, Table.insert_ne _ (Ne.symm hp)]
  | tryReserveTpm p cost =>
      cases h
      exact World.tpm_setTpm w p client fun b => (b.tryReserve w.now p cost).2
  | reconcile hd cost =>
      cases h
      exact World.tpm_setTpm w hd.bucket client fun b => hd.reconcile b w.now cost
  | dropHandle hd =>
      cases h
      exact World.tpm_setTpm w hd.bucket client fun b => hd.drop b w.now
  | _ => cases h; rfl

end Answers

theorem answers_now (h : (gateway x st).Answers w l m w') : w'.now = w.now := by
  obtain ⟨i, c, e, y, -, -, hy⟩ | ⟨rfl, -⟩ := h.cases
  · exact respond_now hy
  · rfl

/-- A move changes a breaker by the call it is. -/
theorem answers_breaker (h : (gateway x st).Answers w l m w') (P : String) :
    w'.breakerFor st P = (w.breakerFor st P).after w.now (onBreaker P m) := by
  obtain ⟨i, c, e, y, -, rfl, hy⟩ | ⟨rfl, ⟨a, rfl⟩ | rfl⟩ := h.cases
  · exact respond_breaker hy P
  · rfl
  · rfl

/-- A move changes a bucket by the call it is. -/
theorem answers_tpm (h : (gateway x st).Answers w l m w') (client : String) :
    w'.tpm st client = onTpm client w.now (w.tpm st client) m := by
  obtain ⟨i, c, e, y, -, rfl, hy⟩ | ⟨rfl, ⟨a, rfl⟩ | rfl⟩ := h.cases
  · exact respond_tpm hy client
  · rfl
  · rfl

/-- An admission answers what the breaker answers. -/
theorem answers_allowRequest {P : String} {answer : Bool}
    (h : (gateway x st).Answers w l (.act (.allowRequest P) answer) w') :
    answer = ((w.breakerFor st P).call w.now .allowRequest).1 := by
  obtain ⟨c, hy⟩ := h.act
  cases hy
  rfl

/-- A reservation answers what the bucket answers. -/
theorem answers_tryReserveTpm {client : String} {cost : ℚ} {answer : Except Nat ReservationHandle}
    (h : (gateway x st).Answers w l (.act (.tryReserveTpm client cost) answer) w') :
    answer = ((w.tpm st client).tryReserve w.now client cost).1 := by
  obtain ⟨c, hy⟩ := h.act
  cases hy
  rfl

/-! ### A small gateway -/

/-- The key of the one client of a small gateway, with its digest. -/
def smallKey : List UInt8 × String :=
  (asBytes "k", "8254c329a92850f6d539dd376f4816ee2764517da5e0235514af433164480d7a")

/-- A gateway with one provider and one client. -/
def smallGateway (x : Crates) (breaker : CircuitBreakerConfig) (tpm : UInt32) : AppState :=
  .new x
    { credentials := [{ key := "k", clientId := "c", tier := "free" }]
      rateLimit := { defaultRpm := 60, defaultTpm := tpm }
      circuitBreaker := breaker
      providers := [{ name := "p", endpoint := "http://p", apiKey := none, priority := 1,
                      requestTimeoutSeconds := 30, streamIdleTimeoutSeconds := 30 }] }

/-- A provider that differs from others in name and priority. -/
def pairProvider (name : String) (priority : UInt32) : ProviderConfig where
  name := name
  endpoint := "http://" ++ name
  apiKey := none
  priority := priority
  requestTimeoutSeconds := 30
  streamIdleTimeoutSeconds := 30

/-- Two providers, `p` before `q`. -/
def pairConfig : AppConfig where
  credentials := []
  rateLimit := { defaultRpm := 60, defaultTpm := 1000 }
  circuitBreaker := { failureThreshold := 5, cooldownSeconds := 30, halfOpenMaxCalls := 1 }
  providers := [pairProvider "p" 1, pairProvider "q" 2]

/-- The gateway with two providers. -/
def pairGateway : AppState := .new (.table [] []) pairConfig

/-- A payload with nothing in it but these two fields. -/
def smallPayload (stream : Bool) (maxTokens : UInt32) : ChatCompletionRequest :=
  { requestWithExtra [] List.nodup_nil with stream := stream, maxTokens := some maxTokens }

/-- A chat request of the client. -/
def smallChat (stream : Bool) (maxTokens : UInt32) : HttpRequest where
  authorization := some (asBytes "Bearer k")
  call := .chat (.ok (smallPayload stream maxTokens))

/-- A document that reports usage. -/
def usageText (prompt completion : Nat) : String :=
  "\x7b\"usage\":\x7b\"prompt_tokens\":" ++ String.ofList (Nat.toDigits 10 prompt)
    ++ ",\"completion_tokens\":" ++ String.ofList (Nat.toDigits 10 completion) ++ "\x7d\x7d"

/-- The document of `usageText`. -/
def usageValue (prompt completion : UInt64) : Value :=
  .object [("usage", .object
    [("completion_tokens", .number (.posInt completion)),
      ("prompt_tokens", .number (.posInt prompt))])]

/-- An event with one document. -/
def dataEvent (text : String) : List UInt8 := asBytes ("data: " ++ text ++ "\n\n")

/-- Request `i` takes its next step, whose answer the world determines. -/
def goes (i : Nat) : GatewayLabel := .act i .none

/-- OK. -/
def statusOk : StatusCode := ⟨200, by decide, by decide⟩

/-- The provider answers request `i` with 200. -/
def answers (i : Nat) : GatewayLabel := .act i (.sent (.ok statusOk))

/-- Any step may be taken. -/
def anyStep (_ : Gateway.State) (_ : GatewayLabel) : Bool := true

/-- Nothing is observed of a move. -/
def unobserved (_ : World) (_ : Ghost) (_ : GatewayMove) (_ : World) : Unit := ()

end LlmGateway
