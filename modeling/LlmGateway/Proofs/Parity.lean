/-
Where the two failover loops part.

A chat request and an embeddings request are each run alone, under the same
`Circumstances`: what the breakers answer at selection, the time of each later call on
one, and how each attempt comes out upstream.  Of a run only its `Account` is kept — who
was contacted, what was called on the breakers, and the kind of result.

Both loops are one walk over the candidates that asks a `Verdict` what an outcome is
worth.  The two verdicts differ in two places, a status that is neither a success nor an
error and a body that breaks off, and `agree` says that a request gets to neither, or to
the second only at its last candidate.
-/
import LlmGateway.Proofs.Failover
import LlmGateway.Proofs.Exact
import LlmGateway.Proofs.World
import Mathlib.Logic.Function.Basic

namespace LlmGateway

open Effects

/-! ### A request by itself -/

/-- How an attempt comes out upstream: no answer, or a status with a body that can be read
to its end or not. -/
inductive Upstream
  | unanswered (e : String)
  | answered (status : StatusCode) (body : Except String (List UInt8))

namespace Upstream

@[simp] def status : Upstream → Except String StatusCode
  | .unanswered e => .error e
  | .answered status _ => .ok status

@[simp] def body : Upstream → Except String (List UInt8)
  | .unanswered e => .error e
  | .answered _ body => body

end Upstream

/-- What a request meets with. -/
structure Circumstances where
  /-- The reservation it is granted. -/
  handle : ReservationHandle
  /-- What the breakers answer at selection. -/
  eligible : String → Bool
  /-- The time of each later call on a breaker. -/
  clock : Nat → Instant
  /-- How each attempt comes out. -/
  upstream : Nat → Upstream

/-- How far a request has got: the breakers as they are now, and how many calls on them and
how many attempts there have been. -/
structure Standing where
  breakers : String → CircuitBreaker
  calls : Nat
  attempts : Nat

namespace Standing

/-- A call on a breaker, and its answer. -/
def call (s : Standing) (c : Circumstances) (P : String) (b : BreakerCall) : Bool × Standing :=
  let (answer, breaker) := (s.breakers P).call (c.clock s.calls) b
  (answer, { s with breakers := Function.update s.breakers P breaker, calls := s.calls + 1 })

/-- One more attempt. -/
def attempt (s : Standing) : Standing := { s with attempts := s.attempts + 1 }

end Standing

/-- The answers a request gets; the cache has nothing for it. -/
def Circumstances.answer (c : Circumstances) : Prog.Environment gatewaySig Standing := fun s e =>
  match e with
  | .isEligible P => (c.eligible P, s)
  | .allowRequest P => s.call c P .allowRequest
  | .recordSuccess P => ((), (s.call c P .recordSuccess).2)
  | .recordFailure P => ((), (s.call c P .recordFailure).2)
  | .rpmTryConsume _ _ => (.ok (), s)
  | .tryReserveTpm _ _ => (.ok c.handle, s)
  | .reconcile _ _ => ((), s)
  | .dropHandle _ => ((), s)
  | .metric _ => ((), s)
  | .yield _ => ((), s)
  | .await (.cacheGet _) _ => (none, s)
  | .await (.cacheInsert _ _) _ => ((), s)
  | .await (.send _ _) _ => ((c.upstream s.attempts).status, s.attempt)
  | .await (.bytes _) _ => ((c.upstream (s.attempts - 1)).body, s)

/-! ### What is seen of it -/

/-- What a request does to a provider: a call of its breaker, or the request itself. -/
inductive Deed
  | called (provider : String) (c : BreakerCall)
  | contacted (provider : String)
  deriving DecidableEq

/-- The deed of a move, if it is one. -/
def deed : GatewayMove → Option Deed
  | .act (.allowRequest P) _ => some (.called P .allowRequest)
  | .act (.recordSuccess P) _ => some (.called P .recordSuccess)
  | .act (.recordFailure P) _ => some (.called P .recordFailure)
  | .act (.await (.send P _) _) _ => some (.contacted P)
  | _ => none

/-- The classes of results. -/
inductive Ending
  | success (provider : Option String)
  | badRequest
  | upstream
  | other
  deriving DecidableEq

/-- The ending that a handler's result is. -/
def ending : HandlerResult → Ending
  | .ok r => .success (r.headers.lookup "x-provider")
  | .error (.badRequest _) => .badRequest
  | .error (.upstream _) => .upstream
  | .error _ => .other

/-- What a handler did to its providers, and how it ended. -/
structure Account where
  deeds : List Deed
  ending : Ending
  deriving DecidableEq

namespace Account

/-- The providers that were contacted. -/
def contacted (a : Account) : List String :=
  a.deeds.filterMap fun
    | .contacted P => some P
    | .called _ _ => none

/-- The calls on the breaker of one provider. -/
def callsOn (a : Account) (P : String) : List BreakerCall :=
  a.deeds.filterMap fun
    | .called p c => if p = P then some c else none
    | .contacted _ => none

/-- The same providers in the same order, the same calls on each breaker, and the same class
of result. -/
structure Alike (a b : Account) : Prop where
  contacted : a.contacted = b.contacted
  callsOn : ∀ P, a.callsOn P = b.callsOn P
  ending : a.ending = b.ending

/-- What was done before. -/
def after (ds : List Deed) (a : Account) : Account := { a with deeds := ds ++ a.deeds }

end Account

variable (c : Circumstances)

/-- The deeds of a program, what it returns, and how things stand then. -/
def told {α : Type} (p : Gateway α) (s : Standing) : List Deed × α × Standing :=
  let (ms, end_) := p.alone (M := StreamItem) c.answer s
  (ms.filterMap deed, end_)

/-- The account of a request. -/
def accountOf (p : Gateway HandlerResult) (s : Standing) : Account where
  deeds := (told c p s).1
  ending := ending (told c p s).2.1

/-! ### The difference -/

/-- From these candidates on the two loops do the same. -/
def agree : List ProviderConfig → Standing → Bool
  | [], _ => true
  | p :: rest, s =>
      let (allowed, s) := s.call c p.name .allowRequest
      let failed := (s.attempt.call c p.name .recordFailure).2
      if allowed then
        match c.upstream s.attempts with
        | .unanswered _ => agree rest failed
        | .answered status body =>
            if isRetryableUpstreamStatus status then agree rest failed
            else if isNonRetryableClientError status then true
            else status.isSuccess && (body.isOk || rest.isEmpty)
      else agree rest s

/-! ### The walk -/

/-- What a handler makes of an outcome: the calls on the provider's breaker, and the class of
its result if this ends the request. -/
abbrev Verdict := String → Upstream → List BreakerCall × Option Ending

/-- A response passed on. -/
def passedOn (P : String) : Ending := if headerValueOk P then .success (some P) else .other

/-- The verdict of the chat handler. -/
def chatVerdict : Verdict := fun P u =>
  match u with
  | .unanswered _ => ([.recordFailure], none)
  | .answered status body =>
      if isRetryableUpstreamStatus status then ([.recordFailure], none)
      else if isNonRetryableClientError status then ([.recordSuccess], some .badRequest)
      else match body with
        | .ok _ => ([.recordSuccess], some (passedOn P))
        | .error _ => ([.recordSuccess, .recordFailure], none)

/-- The verdict of the embeddings handler. -/
def embeddingsVerdict : Verdict := fun P u =>
  match u with
  | .unanswered _ => ([.recordFailure], none)
  | .answered status body =>
      if isRetryableUpstreamStatus status then ([.recordFailure], none)
      else if isNonRetryableClientError status then ([.recordSuccess], some .badRequest)
      else if !status.isSuccess then ([.recordFailure], none)
      else match body with
        | .ok _ => ([.recordSuccess], some (passedOn P))
        | .error _ => ([.recordSuccess, .recordFailure], some .upstream)

/-- One candidate: the deeds, the class of the result if there is one, and how things stand
then. -/
def tried (verdict : Verdict) (P : String) (s : Standing) : List Deed × Option Ending × Standing :=
  let (allowed, s) := s.call c P .allowRequest
  if allowed then
    let (calls, end_) := verdict P (c.upstream s.attempts)
    (.called P .allowRequest :: .contacted P :: calls.map (.called P), end_,
      calls.foldl (fun s b => (s.call c P b).2) s.attempt)
  else ([.called P .allowRequest], none, s)

/-- The candidates one after the other. -/
def walk (verdict : Verdict) : List ProviderConfig → Standing → Account
  | [], _ => ⟨[], .upstream⟩
  | p :: rest, s =>
      match tried c verdict p.name s with
      | (ds, some e, _) => ⟨ds, e⟩
      | (ds, none, s) => (walk verdict rest s).after ds

/-! ### What a program does -/

section Told

variable {c} {α β : Type} (s : Standing)

@[simp] theorem told_ret (a : α) : told c (.ret a : Gateway α) s = ([], a, s) := rfl

@[simp] theorem told_bind (p : Gateway α) (f : α → Gateway β) :
    told c (p.bind f) s
      = ((told c p s).1 ++ (told c (f (told c p s).2.1) (told c p s).2.2).1,
          (told c (f (told c p s).2.1) (told c p s).2.2).2) := by
  unfold told
  rw [Prog.alone_bind]
  simp only [List.filterMap_append]

@[simp] theorem told_allowRequest (P : String) : told c (allowRequest P) s
    = ([.called P .allowRequest], (s.call c P .allowRequest).1, (s.call c P .allowRequest).2) := rfl

@[simp] theorem told_recordSuccess (P : String) : told c (recordSuccess P) s
    = ([.called P .recordSuccess], (), (s.call c P .recordSuccess).2) := rfl

@[simp] theorem told_recordFailure (P : String) : told c (recordFailure P) s
    = ([.called P .recordFailure], (), (s.call c P .recordFailure).2) := rfl

@[simp] theorem told_metric (m : Metric) : told c (metric m) s = ([], (), s) := rfl

@[simp] theorem told_send (P : String) (req : OutboundRequest) (owned : Option ReservationHandle) :
    told c (send P req owned) s = ([.contacted P], (c.upstream s.attempts).status, s.attempt) := rfl

@[simp] theorem told_bytes (P : String) (owned : Option ReservationHandle) :
    told c (bytes P owned) s = ([], (c.upstream (s.attempts - 1)).body, s) := rfl

/-- An aside is not seen, and changes nothing. -/
theorem told_aside {p : Gateway α} (hp : p.Only Aside) :
    ∃ a, told c p s = ([], a, s) := by
  induction p with
  | ret a => exact ⟨a, rfl⟩
  | op e k ih =>
      obtain ⟨he, hk⟩ := hp
      cases e with
      | reconcile hd cost => exact ih () (hk ())
      | dropHandle hd => exact ih () (hk ())
      | metric m => exact ih () (hk ())
      | await a owned =>
          cases a with
          | cacheInsert key v => exact ih () (hk ())
          | _ => exact absurd he id
      | _ => exact absurd he id

end Told

/-! ### The loops are walks -/

/-- The class of the result a round of a loop ends the request with. -/
@[simp] def Flow.ending : Flow → Option Ending
  | .next _ _ => none
  | .done result _ => some (LlmGateway.ending result)

/-- A round does with a candidate what the verdict says. -/
def Tries (verdict : Verdict) (P : String) (round : Gateway Flow) : Prop :=
  ∀ s, ((told c round s).1, (told c round s).2.1.ending, (told c round s).2.2)
    = tried c verdict P s

theorem ending_providerResponse (headers : List (String × String)) (P : String) (bs : List UInt8)
    (h : headers.lookup "x-provider" = none) :
    ending (providerResponse headers P bs) = passedOn P := by
  unfold providerResponse passedOn
  by_cases hok : headerValueOk P = true
  · rw [if_pos hok, if_pos hok]
    show Ending.success ((headers ++ [("x-provider", P)]).lookup "x-provider") = _
    rw [List.lookup_append, h]
    rfl
  · rw [if_neg hok, if_neg hok]
    rfl

/-- What is read is the body of the attempt just made. -/
theorem attempts_read (s : Standing) (P : String) (b : BreakerCall) :
    (s.attempt.call c P b).2.attempts - 1 = s.attempts := rfl

variable {c}

theorem chatAttempt_tries (x : Crates) (cacheKey : Option String) (body : List UInt8)
    (p : ProviderConfig) (lastError : Option String) (reservation : Option ReservationHandle) :
    Tries c chatVerdict p.name
      (chatAttempt x false cacheKey body p lastError reservation) := by
  intro s
  unfold tried chatAttempt
  cases hallow : s.call c p.name .allowRequest with
  | mk allowed s₁ =>
  cases allowed with
  | false => simp [hallow]
  | true =>
      cases hup : c.upstream s₁.attempts with
      | unanswered e => simp [hallow, hup, chatVerdict]
      | answered status read =>
          by_cases hretry : isRetryableUpstreamStatus status = true
          · simp [hallow, hup, chatVerdict, hretry]
          by_cases hclient : isNonRetryableClientError status = true
          · simp [hallow, hup, chatVerdict, hretry, hclient, ending]
          cases read with
          | error e =>
              simp [hallow, hup, chatVerdict, hretry, hclient, chatAnswered, attempts_read]
          | ok bs =>
              have hfill := (billing_fillCache p.name reservation cacheKey (fromUtf8Lossy bs)).mono
                Billing.aside
              have husage := (billing_chatUsage x p.name reservation (fromUtf8Lossy bs)).mono
                Billing.aside
              obtain ⟨_, hfill⟩ :=
                told_aside (c := c) (s₁.attempt.call c p.name .recordSuccess).2 hfill
              obtain ⟨left, husage⟩ :=
                told_aside (c := c) (s₁.attempt.call c p.name .recordSuccess).2 husage
              simp [hallow, hup, chatVerdict, hretry, hclient, chatAnswered, attempts_read, hfill,
                husage, ending_providerResponse]

theorem embeddingsAttempt_tries (x : Crates) (body : List UInt8)
    (p : ProviderConfig) (lastError : Option String) (reservation : Option ReservationHandle) :
    Tries c embeddingsVerdict p.name (embeddingsAttempt x body p lastError reservation) := by
  intro s
  unfold tried embeddingsAttempt
  cases hallow : s.call c p.name .allowRequest with
  | mk allowed s₁ =>
  cases allowed with
  | false => simp [hallow]
  | true =>
      cases hup : c.upstream s₁.attempts with
      | unanswered e => simp [hallow, hup, embeddingsVerdict]
      | answered status read =>
          by_cases hretry : isRetryableUpstreamStatus status = true
          · simp [hallow, hup, embeddingsVerdict, hretry]
          by_cases hclient : isNonRetryableClientError status = true
          · simp [hallow, hup, embeddingsVerdict, hretry, hclient, ending]
          by_cases hsuccess : status.isSuccess = true
          · cases read with
            | error e =>
                simp [hallow, hup, embeddingsVerdict, hretry, hclient, hsuccess,
                  embeddingsAnswered, attempts_read, ending]
            | ok bs =>
                have husage := (billing_embeddingsUsage x p.name reservation bs).mono Billing.aside
                obtain ⟨left, husage⟩ :=
                  told_aside (c := c) (s₁.attempt.call c p.name .recordSuccess).2 husage
                simp [hallow, hup, embeddingsVerdict, hretry, hclient, hsuccess,
                  embeddingsAnswered, attempts_read, husage, ending_providerResponse]
          · simp [hallow, hup, embeddingsVerdict, hretry, hclient, hsuccess]

/-- What a loop comes to. -/
def loopAccount (c : Circumstances) (p : Gateway (HandlerResult × Option ReservationHandle))
    (s : Standing) : Account where
  deeds := (told c p s).1
  ending := ending (told c p s).2.1.1

/-- How a loop goes on after a round. -/
def Flow.andThen (flow : Flow)
    (next : Option String → Option ReservationHandle →
      Gateway (HandlerResult × Option ReservationHandle)) :
    Gateway (HandlerResult × Option ReservationHandle) :=
  match flow with
  | .next lastError reservation => next lastError reservation
  | .done result reservation => .ret (result, reservation)

/-- A loop whose rounds do what the verdict says is a walk; the induction is on the candidates. -/
theorem loopAccount_eq_walk {verdict : Verdict}
    {round : ProviderConfig → Option String → Option ReservationHandle → Gateway Flow}
    (hround : ∀ p e r, Tries c verdict p.name (round p e r))
    (cands : List ProviderConfig) (lastError : Option String)
    (reservation : Option ReservationHandle) (s : Standing) :
    loopAccount c (failoverLoop round cands lastError reservation) s = walk c verdict cands s := by
  induction cands generalizing lastError reservation s with
  | nil => rfl
  | cons p rest ih =>
      have htried := hround p lastError reservation s
      unfold walk
      rw [← htried]
      show loopAccount c ((round p lastError reservation).bind
        (·.andThen (failoverLoop round rest))) s = _
      unfold loopAccount
      rw [told_bind]
      cases hflow : (told c (round p lastError reservation) s).2.1 with
      | next lastError reservation =>
          show Account.after _ (loopAccount c (failoverLoop round rest lastError reservation) _) = _
          rw [ih]
          rfl
      | done result reservation => simp [Flow.andThen]

theorem chatLoop_eq_walk (x : Crates) (cacheKey : Option String) (body : List UInt8)
    (cands : List ProviderConfig) (lastError : Option String)
    (reservation : Option ReservationHandle) (s : Standing) :
    loopAccount c (chatLoop x false cacheKey body cands lastError reservation) s
      = walk c chatVerdict cands s := by
  rw [chatLoop_eq]
  exact loopAccount_eq_walk (chatAttempt_tries x cacheKey body) cands lastError reservation s

theorem embeddingsLoop_eq_walk (x : Crates) (body : List UInt8)
    (cands : List ProviderConfig) (lastError : Option String)
    (reservation : Option ReservationHandle) (s : Standing) :
    loopAccount c (embeddingsLoop x body cands lastError reservation) s
      = walk c embeddingsVerdict cands s := by
  rw [embeddingsLoop_eq]
  exact loopAccount_eq_walk (embeddingsAttempt_tries x body) cands lastError reservation s

/-! ### Where the walks part -/

namespace Account

theorem Alike.refl (a : Account) : a.Alike a := ⟨rfl, fun _ => rfl, rfl⟩

/-- What was done before does not matter. -/
theorem after_alike (ds : List Deed) (a b : Account) :
    (a.after ds).Alike (b.after ds) ↔ a.Alike b := by
  have hcontacted : ∀ a : Account,
      (a.after ds).contacted = contacted ⟨ds, .other⟩ ++ a.contacted :=
    fun a => List.filterMap_append
  have hcalls : ∀ (a : Account) (P : String),
      (a.after ds).callsOn P = callsOn ⟨ds, .other⟩ P ++ a.callsOn P :=
    fun a P => List.filterMap_append
  constructor
  · intro h
    refine ⟨?_, fun P => ?_, h.ending⟩
    · have hc := h.contacted
      rw [hcontacted, hcontacted] at hc
      exact List.append_cancel_left hc
    · have hc := h.callsOn P
      rw [hcalls, hcalls] at hc
      exact List.append_cancel_left hc
  · intro h
    refine ⟨?_, fun P => ?_, h.ending⟩
    · rw [hcontacted, hcontacted, h.contacted]
    · rw [hcalls, hcalls, h.callsOn P]

theorem callsOn_called {P : String} {b : BreakerCall} {ds : List Deed} {a : Account}
    (h : a.deeds = .called P b :: ds) : (a.callsOn P).head? = some b := by
  unfold callsOn
  rw [h]
  simp

/-- Accounts that begin with different calls on one breaker. -/
theorem not_alike_of_called {P : String} {b b' : BreakerCall} {ds ds' : List Deed}
    {a a' : Account} (ha : a.deeds = .called P b :: ds) (ha' : a'.deeds = .called P b' :: ds')
    (hne : b ≠ b') : ¬ a.Alike a' := by
  intro h
  have hfirst := congrArg List.head? (h.callsOn P)
  rw [callsOn_called ha, callsOn_called ha'] at hfirst
  exact hne (Option.some.inj hfirst)

end Account

/-- The walk asks the first candidate first. -/
theorem deeds_walk (verdict : Verdict) (p : ProviderConfig) (rest : List ProviderConfig)
    (s : Standing) :
    ∃ ds, (walk c verdict (p :: rest) s).deeds = .called p.name .allowRequest :: ds := by
  unfold walk tried
  cases s.call c p.name .allowRequest with
  | mk allowed s₁ =>
  cases allowed with
  | false => exact ⟨_, rfl⟩
  | true =>
      cases h : verdict p.name (c.upstream s₁.attempts) with
      | mk calls end_ =>
      cases end_ with
      | none => simp [h, Account.after]
      | some e => simp [h]

/-- A walk that leaves nothing to see has no candidate. -/
theorem walk_alike_end (verdict : Verdict) (cands : List ProviderConfig) (s : Standing) :
    (walk c verdict cands s).Alike ⟨[], .upstream⟩ ↔ cands = [] := by
  constructor
  · intro h
    cases cands with
    | nil => rfl
    | cons p rest =>
        obtain ⟨ds, hdeeds⟩ := deeds_walk (c := c) verdict p rest s
        have hfirst := congrArg List.head? (h.callsOn p.name)
        rw [Account.callsOn_called hdeeds] at hfirst
        cases hfirst
  · rintro rfl
    exact .refl _

/-- A status that is neither a success nor an error makes the walks part at once. -/
theorem walks_part {p : ProviderConfig} {rest : List ProviderConfig} {s s₁ : Standing}
    {status : StatusCode} {read : Except String (List UInt8)}
    (hallow : s.call c p.name .allowRequest = (true, s₁))
    (hup : c.upstream s₁.attempts = .answered status read)
    (hretry : ¬ isRetryableUpstreamStatus status = true)
    (hclient : ¬ isNonRetryableClientError status = true) (hsuccess : ¬ status.isSuccess = true) :
    ¬ (walk c chatVerdict (p :: rest) s).Alike (walk c embeddingsVerdict (p :: rest) s) := by
  have hemb : walk c embeddingsVerdict (p :: rest) s
      = Account.after [.called p.name .allowRequest, .contacted p.name]
          (Account.after [.called p.name .recordFailure]
            (walk c embeddingsVerdict rest (s₁.attempt.call c p.name .recordFailure).2)) := by
    simp [walk, tried, hallow, hup, embeddingsVerdict, hretry, hclient, hsuccess, Account.after]
  have hchat : ∃ ds e, walk c chatVerdict (p :: rest) s
      = Account.after [.called p.name .allowRequest, .contacted p.name]
          ⟨.called p.name .recordSuccess :: ds, e⟩ := by
    cases read with
    | ok bs =>
        refine ⟨[], passedOn p.name, ?_⟩
        simp [walk, tried, hallow, hup, chatVerdict, hretry, hclient, Account.after]
    | error e =>
        let s₂ := ((s₁.attempt.call c p.name .recordSuccess).2.call c p.name .recordFailure).2
        refine ⟨.called p.name .recordFailure :: (walk c chatVerdict rest s₂).deeds,
          (walk c chatVerdict rest s₂).ending, ?_⟩
        simp [s₂, walk, tried, hallow, hup, chatVerdict, hretry, hclient, Account.after]
  obtain ⟨ds, e, hchat⟩ := hchat
  rw [hchat, hemb, Account.after_alike]
  exact Account.not_alike_of_called rfl rfl (by decide)

/-- The induction is on the candidates; as long as an attempt fails over, both walks go on
from the same standing. -/
theorem walks_alike_iff (cands : List ProviderConfig) (s : Standing) :
    (walk c chatVerdict cands s).Alike (walk c embeddingsVerdict cands s) ↔
      agree c cands s = true := by
  induction cands generalizing s with
  | nil => exact ⟨fun _ => rfl, fun _ => .refl _⟩
  | cons p rest ih =>
      cases hallow : s.call c p.name .allowRequest with
      | mk allowed s₁ =>
      cases allowed with
      | false => simp [walk, tried, agree, hallow, Account.after_alike, ih]
      | true =>
          cases hup : c.upstream s₁.attempts with
          | unanswered e =>
              simp [walk, tried, agree, hallow, hup, chatVerdict, embeddingsVerdict,
                Account.after_alike, ih]
          | answered status read =>
              by_cases hretry : isRetryableUpstreamStatus status = true
              · simp [walk, tried, agree, hallow, hup, chatVerdict, embeddingsVerdict, hretry,
                  Account.after_alike, ih]
              by_cases hclient : isNonRetryableClientError status = true
              · simp [walk, tried, agree, hallow, hup, chatVerdict, embeddingsVerdict, hretry,
                  hclient, Account.Alike.refl]
              by_cases hsuccess : status.isSuccess = true
              · cases read with
                | ok bs =>
                    simp [walk, tried, agree, hallow, hup, chatVerdict, embeddingsVerdict, hretry,
                      hclient, hsuccess, Account.Alike.refl, Except.isOk, Except.toBool]
                | error e =>
                    simp [walk, tried, agree, hallow, hup, chatVerdict, embeddingsVerdict, hretry,
                      hclient, hsuccess, Except.isOk, Except.toBool]
                    -- the chat walk goes on, the embeddings walk has come to its end
                    exact (Account.after_alike _ _ ⟨[], .upstream⟩).trans
                      (walk_alike_end chatVerdict rest _)
              · have hagree : ¬ agree c (p :: rest) s = true := by
                  simp [agree, hallow, hup, hretry, hclient, hsuccess]
                exact iff_of_false (walks_part hallow hup hretry hclient hsuccess) hagree

/-! ### The handlers -/

theorem told_selectFrom (ps : List ProviderConfig) (s : Standing) :
    told c (selectFrom ps) s = ([], ps.filter fun p => c.eligible p.name, s) := by
  induction ps with
  | nil => rfl
  | cons p ps ih =>
      have heligible : told c (isEligible p.name) s = ([], c.eligible p.name, s) := rfl
      unfold selectFrom
      simp only [Prog.bind_eq, told_bind, heligible, ih, Prog.pure_eq, told_ret, List.append_nil,
        List.filter_cons]

/-- The end of the scope of a reservation is not seen. -/
theorem account_scope (p : Gateway (HandlerResult × Option ReservationHandle)) (s : Standing) :
    accountOf c (p.bind fun a => (dropReservation a.2).bind fun _ => .ret a.1) s
      = loopAccount c p s := by
  have hdrop : (dropReservation (told c p s).2.1.2).Only Aside :=
    (billing_dropReservation "all" _).mono Billing.aside
  obtain ⟨u, hu⟩ := told_aside (c := c) (told c p s).2.2 hdrop
  unfold accountOf loopAccount
  simp [hu]

theorem account_chatDispatch {x : Crates} {ryu : Ryu} (hx : x.Writes ryu) (st : AppState)
    {payload : ChatCompletionRequest} (hstream : payload.stream = false) (cacheKey : Option String)
    (reservation : Option ReservationHandle) (s : Standing) :
    loopAccount c (chatDispatch x st payload cacheKey reservation) s
      = walk c chatVerdict (st.sortedProviders.filter fun p => c.eligible p.name) s := by
  unfold chatDispatch selectOrdered
  rw [← chatLoop_eq_walk x cacheKey (asBytes (String.ofList (payload.json ryu))) _ none reservation]
  have hvec : Crates.toVec x.chatToString payload
      = .ok (asBytes (String.ofList (payload.json ryu))) := by
    unfold Crates.toVec
    rw [hx.chat]
    rfl
  unfold loopAccount
  rw [Prog.bind_eq, told_bind, told_selectFrom, hvec, hstream]
  cases st.sortedProviders.filter fun p => c.eligible p.name with
  | nil => rfl
  | cons p rest => rfl

theorem account_chatCompletions {x : Crates} {ryu : Ryu} (hx : x.Writes ryu) (st : AppState)
    (identity : ClientIdentity) {payload : ChatCompletionRequest} (hstream : payload.stream = false)
    (s : Standing) :
    accountOf c (chatCompletions x st identity (.ok payload)) s
      = walk c chatVerdict (st.sortedProviders.filter fun p => c.eligible p.name) s := by
  have hadmitted : loopAccount c (chatAdmitted x st payload (some c.handle)) s
      = walk c chatVerdict (st.sortedProviders.filter fun p => c.eligible p.name) s := by
    unfold chatAdmitted
    rw [hx.chat]
    show loopAccount c (chatLookup x st payload _ _) s = _
    unfold chatLookup
    cases chatCacheKey x payload (String.ofList (payload.json ryu)) with
    | none => exact account_chatDispatch hx st hstream none (some c.handle) s
    | some key => exact account_chatDispatch hx st hstream (some key) (some c.handle) s
  rw [← hadmitted, ← account_scope]
  show accountOf c (chatReserved x st identity (injectStreamOptions payload)) s = _
  rw [injectStreamOptions_of_not_stream hstream]
  rfl

theorem account_embeddings {x : Crates} {ryu : Ryu} (hx : x.Writes ryu) (st : AppState)
    (identity : ClientIdentity) (payload : EmbeddingRequest) (s : Standing) :
    accountOf c (embeddings x st identity (.ok payload)) s
      = walk c embeddingsVerdict (st.sortedProviders.filter fun p => c.eligible p.name) s := by
  have hadmitted : loopAccount c (embeddingsAdmitted x st payload (some c.handle)) s
      = walk c embeddingsVerdict (st.sortedProviders.filter fun p => c.eligible p.name) s := by
    unfold embeddingsAdmitted selectOrdered
    rw [← embeddingsLoop_eq_walk x (asBytes (String.ofList (payload.json ryu))) _ none
      (some c.handle)]
    have hvec : Crates.toVec x.embeddingToString payload
        = .ok (asBytes (String.ofList (payload.json ryu))) := by
      unfold Crates.toVec
      rw [hx.embedding]
      rfl
    rw [hvec]
    unfold loopAccount
    simp only [Prog.bind_eq, told_bind, told_selectFrom]
    cases st.sortedProviders.filter fun p => c.eligible p.name with
    | nil => rfl
    | cons p rest => rfl
  rw [← hadmitted, ← account_scope]
  rfl

/--
**The loops are alike exactly as long as no attempt tells them apart.**  Run under the same
circumstances, a chat request that does not stream and is not in the cache and an
embeddings request contact the same providers, call the same on each breaker and end in
the same class of result, if and only if the requests `agree` on the candidates.
-/
theorem embeddings_alike_iff {x : Crates} {ryu : Ryu} (hx : x.Writes ryu) (st : AppState)
    (chatIdentity embeddingsIdentity : ClientIdentity) {chat : ChatCompletionRequest}
    (hstream : chat.stream = false) (embedding : EmbeddingRequest) (c : Circumstances)
    (s : Standing) :
    (accountOf c (chatCompletions x st chatIdentity (.ok chat)) s).Alike
        (accountOf c (embeddings x st embeddingsIdentity (.ok embedding)) s) ↔
      agree c (st.sortedProviders.filter fun p => c.eligible p.name) s = true := by
  rw [account_chatCompletions hx st chatIdentity hstream, account_embeddings hx]
  exact walks_alike_iff _ s

/-! ### Two providers -/

/-- A request for embeddings. -/
def pairInput : EmbeddingRequest where
  model := "m"
  input := .string "text"
  encodingFormat := none
  dimensions := none
  user := none
  extra := .empty

/-- The first attempt comes out so, any other one is answered with 200 and a body. -/
def firstMeets (u : Upstream) : Circumstances where
  handle := { bucket := "c", reserved := 1, reconciled := false }
  eligible _ := true
  clock n := n
  upstream n := if n = 0 then u else .answered statusOk (.ok [])

/-- Breakers nobody has called. -/
def untried : Standing where
  breakers _ := .new 5 (.fromSecs 30) 1
  calls := 0
  attempts := 0

/-- The accounts of the chat and of the embeddings request. -/
def pairAccounts (u : Upstream) : Account × Account :=
  (accountOf (firstMeets u)
      (chatCompletions (.table [] []) pairGateway ⟨"c", "free"⟩ (.ok (smallPayload false 1)))
      untried,
    accountOf (firstMeets u)
      (embeddings (.table [] []) pairGateway ⟨"c", "free"⟩ (.ok pairInput)) untried)

/-- A first provider that cannot be reached: both fail over to the second. -/
theorem embeddings_alike_iff_unreachable :
    (pairAccounts (.unanswered "refused")).1.Alike (pairAccounts (.unanswered "refused")).2 :=
  have hstream : (smallPayload false 1).stream = false := rfl
  (embeddings_alike_iff (Crates.table_writes [] []) pairGateway ⟨"c", "free"⟩ ⟨"c", "free"⟩
      hstream pairInput (firstMeets (.unanswered "refused")) untried).mpr
    (by decide +kernel)

/-- A body that breaks off, and a redirect: the loops do not do the same. -/
theorem broken_bodies_part :
    ¬ (pairAccounts (.answered statusOk (.error "reset"))).1.Alike
        (pairAccounts (.answered statusOk (.error "reset"))).2 ∧
      ¬ (pairAccounts (.answered ⟨302, by decide, by decide⟩ (.ok []))).1.Alike
        (pairAccounts (.answered ⟨302, by decide, by decide⟩ (.ok []))).2 := by
  refine ⟨fun h => ?_, fun h => ?_⟩
  · exact absurd h.contacted (by decide +kernel)
  · exact absurd h.contacted (by decide +kernel)

end LlmGateway
