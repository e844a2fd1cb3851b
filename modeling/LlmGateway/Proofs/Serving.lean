/-
What serving a request comes down to.

`Serving` lists the effects a handler can perform once it holds its reservation: it calls
breakers of configured providers, sends what `client.rs` builds for one of them, touches no
reservation but its own, and owns that one at every await.  `Deliverable` lists what it can
answer with.  `serves_react` shows the two of the script; the streaming body that a chat request
leaves behind goes on performing only the same effects.
-/
import LlmGateway.Proofs.Script

namespace LlmGateway

open Effects

variable {x : Crates} {st : AppState} {identity : ClientIdentity} {call : ApiCall}
  {hd : ReservationHandle} {p : ProviderConfig} {rest : List ProviderConfig}

/-! ### Effects -/

/-- A provider of this name is configured. -/
def Configured (st : AppState) (name : String) : Prop :=
  ∃ p ∈ st.sortedProviders, p.name = name

/-- What may be done for a call under a reservation. -/
def Serving (st : AppState) (call : ApiCall) (hd : ReservationHandle) : Effect → Prop
  | .isEligible name => Configured st name
  | .allowRequest name => Configured st name
  | .recordSuccess name => Configured st name
  | .recordFailure name => Configured st name
  | .rpmTryConsume _ _ => False
  | .tryReserveTpm _ _ => False
  | .reconcile h _ => h = hd
  | .dropHandle h => h = hd
  | .metric _ => True
  | .yield _ => True
  | .await (.send name out) owned =>
      owned = some hd ∧ ∃ p ∈ st.sortedProviders, p.name = name ∧
        ∃ body, out = call.outbound p body
  | .await _ owned => owned = some hd

theorem serving_dropReservation : (dropReservation (some hd)).Only (Serving st call hd) :=
  ⟨rfl, fun _ => trivial⟩

theorem serving_settleUsage (provider : String) (tokens : Nat × Nat) :
    (settleUsage provider (some hd) tokens).Only (Serving st call hd) :=
  ⟨trivial, fun _ => ⟨trivial, fun _ => ⟨rfl, fun _ => trivial⟩⟩⟩

/-! ### Answers -/

/-- What a handler can answer a call with: an error, or 200 with all of a body or, for a call that
asks for one, a stream. -/
def Deliverable (st : AppState) (call : ApiCall) (hd : ReservationHandle) : HandlerResult → Prop
  | .error _ => True
  | .ok r => r.status = 200 ∧
      match r.body with
      | .full _ => call.streams = false
      | .stream s => call.streams = true ∧ s.Only (Serving st call hd)

theorem deliverable_providerResponse (hcall : call.streams = false)
    (headers : List (String × String)) (provider : String) (body : List UInt8) :
    Deliverable st call hd (providerResponse headers provider body) := by
  unfold providerResponse
  by_cases h : headerValueOk provider = true
  · rw [if_pos h]
    exact ⟨rfl, hcall⟩
  · rw [if_neg h]
    exact trivial

theorem deliverable_chatStream (hp : p ∈ st.sortedProviders) (hcall : call.streams = true) :
    Deliverable st call hd (.ok (chatStream p (some hd))) := by
  refine ⟨rfl, hcall, ?_⟩
  exact chatStream_only trivial ⟨p, hp, rfl⟩ (serving_settleUsage p.name) serving_dropReservation
    _ rfl

/-- A request that streams has no key. -/
theorem streams_of_key {key : String} (h : call.key x = some key) : call.streams = false := by
  cases call with
  | embeddings payload => rfl
  | chat payload =>
      cases payload with
      | error e => rfl
      | ok r =>
          cases hs : r.stream with
          | false => exact hs
          | true =>
              have hnone : ∀ text, chatCacheKey x (injectStreamOptions r) text = none := by
                intro text
                simp [chatCacheKey, injectStreamOptions_stream, hs]
              have hkey : requestKey x r = some key := h
              unfold requestKey at hkey
              cases htext : x.chatToString (injectStreamOptions r) with
              | error e => simp [htext] at hkey
              | ok text => simp [htext, hnone] at hkey

/-! ### What is due -/

/-- A request that is served under this reservation, or has been. -/
def Juncture.Under (st : AppState) (call : ApiCall) (hd : ReservationHandle) :
    Juncture → Prop
  | .admitted => False
  | .looking _ h => h = hd
  | .choosing _ _ _ h => h = hd
  | .trying _ _ _ h => h = hd
  | .cleared _ _ h => h = hd
  | .reading _ _ h => h = hd
  | .finished result => Deliverable st call hd result

/-- What is due serves the request, and so does what comes then. -/
def Due.Serves (st : AppState) (call : ApiCall) (hd : ReservationHandle) (c : Due) : Prop :=
  (∀ e ∈ c.todo, Serving st call hd e) ∧ c.cut.Under st call hd

theorem Due.Serves.after {c : Due} {es : List Effect} (hes : ∀ e ∈ es, Serving st call hd e)
    (hc : Due.Serves st call hd c) : Due.Serves st call hd (c.after es) :=
  ⟨fun e he => (List.mem_append.mp he).elim (hes e) (hc.1 e), hc.2⟩

theorem serves_retry (cands : List ProviderConfig) (lastError : Option String) :
    Due.Serves st call hd (retry lastError hd cands) := by
  cases cands with
  | nil => exact ⟨by simp [retry, Serving], trivial⟩
  | cons p rest => exact ⟨by simp [retry], rfl⟩

theorem serves_giveUp (hp : p ∈ st.sortedProviders) (counted : Metric) (text : String) :
    Due.Serves st call hd (giveUp p counted text rest hd) := by
  have hconfigured : Configured st p.name := ⟨p, hp, rfl⟩
  exact (serves_retry rest _).after (by simp [Serving, hconfigured])

theorem serves_choose (chosen todo : List ProviderConfig) :
    Due.Serves st call hd (call.choose hd chosen todo) := by
  cases todo with
  | cons p todo => exact ⟨by simp [ApiCall.choose], rfl⟩
  | nil =>
      cases chosen with
      | nil => exact ⟨by simp [ApiCall.choose, Serving], trivial⟩
      | cons p rest => exact ⟨by simp [ApiCall.choose], rfl⟩

theorem serves_reserved : Due.Serves st call hd (call.reserved x st hd) := by
  cases hwritten : call.written x with
  | error e =>
      rw [reserved_unwritten hwritten]
      exact ⟨by simp [Serving], trivial⟩
  | ok body =>
      rw [reserved_written hwritten]
      cases call.key x with
      | none => exact serves_choose [] st.sortedProviders
      | some key => exact ⟨by simp, rfl⟩

theorem serves_cached {key : String} (hkey : call.key x = some key) (text : String) :
    Due.Serves st call hd (call.cached hd text) := by
  refine ⟨fun e he => ?_, rfl, streams_of_key hkey⟩
  obtain rfl | ⟨m, rfl⟩ := cached_todo e he
  · exact rfl
  · exact trivial

theorem serves_answered (hp : p ∈ st.sortedProviders) (answer : Except String StatusCode) :
    Due.Serves st call hd (call.answered x p rest hd answer) := by
  have hconfigured : Configured st p.name := ⟨p, hp, rfl⟩
  unfold ApiCall.answered
  cases call.receive answer with
  | failed => exact serves_giveUp hp _ _
  | rejected s => exact ⟨by simp [Serving, hconfigured], trivial⟩
  | usable =>
      refine Due.Serves.after (by simp [Serving, hconfigured]) ?_
      cases hs : call.streams with
      | true => exact ⟨by simp [Serving], deliverable_chatStream hp hs⟩
      | false => exact ⟨by simp, rfl⟩

theorem serves_bodyLost (hp : p ∈ st.sortedProviders) :
    Due.Serves st call hd (call.bodyLost p rest hd) := by
  cases call with
  | chat payload => exact serves_giveUp hp _ _
  | embeddings payload =>
      have hconfigured : Configured st p.name := ⟨p, hp, rfl⟩
      exact ⟨by simp [ApiCall.bodyLost, Serving, hconfigured], trivial⟩

theorem serving_bill {body : List UInt8} {settlement : List Effect}
    (h : call.bill x p.name hd body = some settlement) :
    ∀ e ∈ settlement, Serving st call hd e := by
  cases call with
  | chat payload =>
      obtain ⟨t, -, rfl⟩ := Option.map_eq_some_iff.mp h
      simp [Serving]
  | embeddings payload =>
      obtain ⟨n, -, rfl⟩ := Option.map_eq_some_iff.mp h
      simp [Serving]

theorem serves_bodyRead (hcall : call.streams = false) (body : List UInt8) :
    Due.Serves st call hd (call.bodyRead x p hd body) := by
  refine Due.Serves.after ?_ ⟨?_, deliverable_providerResponse hcall _ _ _⟩
  · intro e he
    obtain ⟨key, -, rfl⟩ := List.mem_map.mp he
    exact rfl
  · intro e he
    simp only [ApiCall.charged] at he
    cases hbill : call.bill x p.name hd body with
    | none =>
        simp only [hbill, List.mem_cons, List.not_mem_nil, or_false] at he
        rcases he with rfl | rfl
        · exact trivial
        · exact rfl
    | some settlement =>
        simp only [hbill, List.mem_append, List.mem_singleton] at he
        rcases he with hsettle | rfl
        · exact serving_bill hbill e hsettle
        · exact trivial

/-- **What a request asks under its reservation serves it, and so does all that is due then.** -/
theorem serves_react {juncture : Juncture} {e : Effect} (hknown : juncture.Known x st call)
    (hunder : juncture.Under st call hd) (hasks : juncture.Asks x identity call e) :
    Serving st call hd e ∧ ∀ y, Due.Serves st call hd (juncture.react x st call e y) := by
  cases juncture with
  | admitted => exact hunder.elim
  | looking key h =>
      obtain rfl : h = hd := hunder
      obtain rfl := hasks
      refine ⟨rfl, fun y => ?_⟩
      cases y with
      | none => exact (serves_choose _ _).after (by simp [Serving])
      | some text => exact serves_cached hknown text
  | choosing chosen p todo h =>
      obtain rfl : h = hd := hunder
      obtain rfl := hasks
      exact ⟨⟨p, hknown p (by simp), rfl⟩, fun y => serves_choose _ _⟩
  | trying p rest lastError h =>
      obtain rfl : h = hd := hunder
      obtain rfl := hasks
      refine ⟨⟨p, hknown p (by simp), rfl⟩, fun y => ?_⟩
      cases y with
      | true => exact ⟨by simp [Juncture.react], rfl⟩
      | false => exact serves_retry _ _
  | cleared p rest h =>
      obtain rfl : h = hd := hunder
      obtain ⟨body, -, rfl⟩ := hasks
      have hp := hknown p (by simp)
      exact ⟨⟨rfl, p, hp, rfl, body, rfl⟩, fun y => serves_answered hp y⟩
  | reading p rest h =>
      obtain rfl : h = hd := hunder
      obtain rfl := hasks
      have hp := hknown.2 p (by simp)
      refine ⟨rfl, fun y => ?_⟩
      cases y with
      | ok body => exact serves_bodyRead hknown.1 body
      | error e => exact serves_bodyLost hp
  | finished result => exact hasks.elim

end LlmGateway
