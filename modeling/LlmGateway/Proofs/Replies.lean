/-
Every response says what happened to its request.

`Explained` lists the responses there are, each with what the moves of the request show when it
gets one.  How far the request has come through the limits is read off its mediation, and what
became of it then off its itinerary: `Leg.Placed` says that the two agree.
-/
import LlmGateway.Proofs.Availability
import LlmGateway.Proofs.Delivery

namespace LlmGateway

open Effects

variable {x : Crates} {st : AppState} {providers : List ProviderConfig} {call : ApiCall}
  {key : Option String} {leg leg' : Leg} {ms : List GatewayMove} {m : GatewayMove}

/-! ### Legs and limits -/

/-- How far a request has come through the limits where it is. -/
def Leg.Placed (s : Place) : Leg → Prop
  | .arrived => s = .arrived
  | .admitted => s = .admitted
  | .refused retryAfter => s = .refused retryAfter
  | .closed => True
  | _ => ∃ hd, s = .reserved hd

/-- What does not show passes no limit. -/
theorem Place.next_aside {e : Effect} (h : Aside e) (s : Place) (y : e.Answer) :
    s.next (.act e y) = s := by
  obtain ⟨k, v, owned, rfl⟩ | ⟨m, rfl⟩ | ⟨hd, cost, rfl⟩ | ⟨hd, rfl⟩ := h.cases <;>
    cases s <;> rfl

theorem Leg.Step.placed {s : Place} (h : Step providers call key leg m leg')
    (hplaced : leg.Placed s) : leg'.Placed (s.next m) := by
  cases h with
  | aside he y =>
      rw [Place.next_aside he]
      exact hplaced
  | enter client cost =>
      obtain rfl : s = .arrived := hplaced
      exact rfl
  | limit client cost retryAfter =>
      obtain rfl : s = .arrived := hplaced
      exact rfl
  | reserve client cost hd =>
      obtain rfl : s = .admitted := hplaced
      cases key <;> exact ⟨hd, rfl⟩
  | refuse client cost retryAfter =>
      obtain rfl : s = .admitted := hplaced
      exact rfl
  | begin p rest =>
      obtain ⟨hd, rfl⟩ := hplaced
      cases call.streams <;> exact ⟨hd, rfl⟩
  | giveUp p rest =>
      obtain ⟨hd, rfl⟩ := hplaced
      cases call <;> exact ⟨hd, rfl⟩
  | poll p item =>
      obtain ⟨hd, rfl⟩ := hplaced
      cases item with
      | ended => exact trivial
      | _ => exact ⟨hd, rfl⟩
  | yield p item =>
      obtain ⟨hd, rfl⟩ := hplaced
      cases item with
      | ok bs => exact ⟨hd, rfl⟩
      | error e => exact trivial
  | drop leg => exact trivial
  | _ =>
      obtain ⟨hd, rfl⟩ := hplaced
      exact ⟨hd, rfl⟩

/-- **A request on its way through the providers has passed the limits.** -/
theorem Leg.Path.placed {g : Bearer} (h : Path providers call key ms leg)
    (hg : g.place = .arrived) : leg.Placed ((mediation st).run g ms).place := by
  induction h with
  | arrived => exact hg
  | snoc _ hstep ih =>
      rw [Protocol.run_append]
      exact hstep.placed ih

/-! ### Why a request is answered as it is -/

/-- A token of its client's RPM bucket was taken for a request. -/
def PassedRpm (x : Crates) (st : AppState) (r : HttpRequest) (ms : List GatewayMove) : Prop :=
  ∃ identity, identified x st r.authorization = some identity ∧
    .act (.rpmTryConsume identity.clientId 1) (.ok ()) ∈ ms

/-- A request has passed both limits: a token, and then the reservation of its cost. -/
def PassedLimits (x : Crates) (st : AppState) (r : HttpRequest) (ms : List GatewayMove) : Prop :=
  ∃ identity cost, identified x st r.authorization = some identity ∧ r.call.estimate = some cost ∧
    [.act (.rpmTryConsume identity.clientId 1) (.ok ()),
      .act (.tryReserveTpm identity.clientId cost)
        (.ok ⟨identity.clientId, cost, false⟩)].Sublist ms

/-- One of its own limits refused a request. -/
def RefusedFor (x : Crates) (st : AppState) (r : HttpRequest) (retryAfter : Nat)
    (ms : List GatewayMove) : Prop :=
  ∃ identity, identified x st r.authorization = some identity ∧
    (.act (.rpmTryConsume identity.clientId 1) (.error retryAfter) ∈ ms ∨
      ∃ cost, .act (.tryReserveTpm identity.clientId cost) (.error retryAfter) ∈ ms)

/-- The body of the provider a request was sent to last was read, or broke off. -/
def BodyCame (name : String) (body : Except String (List UInt8)) (ms : List GatewayMove) : Prop :=
  ∃ s since owned, LastSent name (.ok s) since ms ∧
    .act (.await (.bytes name) owned) body ∈ since

/-- Why a request is answered as it is. -/
inductive Explained (x : Crates) (st : AppState) (r : HttpRequest) (ms : List GatewayMove)
    (resp : Response BodyStream) : Prop
  /-- Its key is not known, and it has done nothing. -/
  | unknown (hid : identified x st r.authorization = none) (hnothing : ∀ e y, .act e y ∉ ms)
      (heq : resp = AppError.unauthorized.intoResponse)
  /-- It was refused, and is told what the bucket answered. -/
  | refused (retryAfter : Nat) (hrefused : RefusedFor x st r retryAfter ms)
      (heq : resp = (AppError.rateLimited retryAfter).intoResponse)
  /-- It has taken its token, but its payload is malformed. -/
  | malformed (hpassed : PassedRpm x st r ms) (e : String) (he : r.call.malformed = some e)
      (heq : resp = (AppError.fromJsonRejection e).intoResponse)
  /-- The provider it was sent to last answered with the status it is told. -/
  | rejected (hpassed : PassedLimits x st r ms) (name : String) (s : StatusCode)
      (since : List GatewayMove) (hname : Configured st name)
      (hs : isNonRetryableClientError s = true) (hlast : LastSent name (.ok s) since ms)
      (heq : resp = (AppError.badRequest (rejectedText x s)).intoResponse)
  /-- Each provider was not eligible, or has turned it away, or a failure of it was recorded. -/
  | unserved (hpassed : PassedLimits x st r ms)
      (hcause : ∀ q ∈ st.sortedProviders, ms.any (turnsAway q.name) = true)
      (message : String) (heq : resp = (AppError.upstream message).intoResponse)
  /-- It asked for embeddings, and the body with them broke off. -/
  | broken (hpassed : PassedLimits x st r ms) (name e : String) (hname : Configured st name)
      (hcall : ∃ payload, r.call = .embeddings payload) (hbroken : BodyCame name (.error e) ms)
      (message : String) (heq : resp = (AppError.upstream message).intoResponse)
  /-- Its payload cannot be written, and it was sent to nobody. -/
  | unwritten (hpassed : PassedLimits x st r ms) (hcause : r.call.Unwritable x)
      (hnone : contacts ms = []) (message : String)
      (heq : resp = (AppError.internal message).intoResponse)
  /-- The name of the provider whose body was read is no header value. -/
  | unnamed (hpassed : PassedLimits x st r ms) (name : String) (body : List UInt8)
      (hname : Configured st name) (hread : BodyCame name (.ok body) ms)
      (hcause : headerValueOk name = false) (message : String)
      (heq : resp = (AppError.internal message).intoResponse)
  /-- It is served with what was delivered for it, as a stream if it asked for one.  A provider
  that is named is the one it was sent to last, and a hit was sent to nobody. -/
  | served (hpassed : PassedLimits x st r ms) (hstatus : resp.status = 200)
      (hdelivered : Delivered st r.call ms resp)
      (hstreams : match resp.body with
        | .full _ => r.call.streams = false
        | .stream _ => r.call.streams = true)
      (hnamed : ∀ name, ("x-provider", name) ∈ resp.headers →
        ∃ s since, LastSent name (.ok s) since ms)
      (hhit : ("x-cache", "HIT") ∈ resp.headers → contacts ms = [])

section Runs

variable {start : Instant} {p : Gateway.State} {i : Nat} {r : HttpRequest}
  {t : Task gatewaySig Idle}

/-- A request that is served under a reservation has passed both limits. -/
theorem Gateway.Reachable.passed_limits (h : Gateway.Reachable x st start p)
    (ht : p.tasks[i]? = some (r, t))
    (hplace : ∃ hd, ((mediation st).run (Bearer.arrive x st r) (p.movesOf i)).place
      = .reserved hd) : PassedLimits x st r (p.movesOf i) := by
  obtain ⟨hd, hplace⟩ := hplace
  obtain ⟨identity, cost, hid, hcost, rfl, hsub⟩ :=
    h.reserved_eq ht (List.append_nil _).symm hplace
  exact ⟨identity, cost, hid, hcost, hsub⟩

/-- A request is served as a stream if it asked for one. -/
theorem Gateway.Reachable.streams_asked (h : Gateway.Reachable x st start p)
    (ht : p.tasks[i]? = some (r, t)) {resp : Response BodyStream}
    (hresp : t.prog = .ret (.responded resp)) (hstatus : resp.status = 200)
    (hplace : ∃ hd, ((mediation st).run (Bearer.arrive x st r) (p.movesOf i)).place
      = .reserved hd) :
    match resp.body with
    | .full _ => r.call.streams = false
    | .stream _ => r.call.streams = true := by
  obtain ⟨hd, hplace⟩ := hplace
  have hreplied := (h.mediated ht).2.1
  rw [hresp] at hreplied
  have hreplied' : Replied st _ resp := hreplied
  unfold Replied at hreplied'
  rw [hplace, (Bearer.run_eq _ _ _).1] at hreplied'
  obtain ⟨result, hdeliverable, rfl⟩ := hreplied'
  cases result with
  | error e => exact absurd hstatus e.status_ne
  | ok resp =>
      have hbody := hdeliverable.2
      show match resp.body with
        | .full _ => _
        | .stream _ => _
      cases hfull : resp.body with
      | full bytes =>
          rw [hfull] at hbody
          exact hbody
      | stream s =>
          rw [hfull] at hbody
          exact hbody.1

/-- Where no provider is left, each has turned the request away. -/
theorem turnedAway_of_choosing (h : Leg.Path providers call key ms (.choosing [] [])) :
    ∀ q ∈ providers, ms.any (turnsAway q.name) = true := by
  intro q hq
  have hall : ∀ p ∈ providers, p.name ∈ providers.map (·.name) := fun p hp =>
    List.mem_map_of_mem hp
  rcases h.sought (leads_of_mem ⟨q, hq, rfl⟩ hall) rfl with haway | hleads
  · exact haway
  · cases hleads

/-- A request that has yet to look at all providers was sent to nobody. -/
theorem contacts_of_choosing (h : Leg.Path providers call key ms (.choosing [] providers)) :
    contacts ms = [] := by
  have hlength := h.order.length_le
  simp only [Leg.ahead, List.nil_append, List.length_append] at hlength
  exact List.eq_nil_of_length_eq_zero (by omega)

/-- A request that is answered where it arrived has no known key. -/
theorem Gateway.Reachable.explained_arrived (h : Gateway.Reachable x st start p)
    (ht : p.tasks[i]? = some (r, t)) {resp : Response BodyStream}
    (hresp : t.prog = .ret (.responded resp))
    (hplace : ((mediation st).run (Bearer.arrive x st r) (p.movesOf i)).place = .arrived) :
    Explained x st r (p.movesOf i) resp := by
  obtain ⟨hobeys, hfollows⟩ := h.mediated ht
  have hpassed := passed_of_obeys hobeys
  have hreplied := hfollows.1
  rw [hresp] at hreplied
  have hreplied' : Replied st _ resp := hreplied
  unfold Bearer.Passed at hpassed
  unfold Replied at hreplied'
  rw [hplace] at hpassed hreplied'
  rw [(Bearer.run_eq _ _ _).2] at hreplied'
  exact .unknown hreplied'.1 hpassed hreplied'.2

theorem provider_of_reply {provider name : String}
    (h : ("x-provider", name) ∈ call.replyHeaders ++ [("x-provider", provider)]) :
    name = provider := by
  cases call <;> simpa [ApiCall.replyHeaders] using h

theorem no_hit_of_reply (call : ApiCall) (provider : String) :
    ("x-cache", "HIT") ∉ call.replyHeaders ++ [("x-provider", provider)] := by
  cases call <;> simp [ApiCall.replyHeaders]

/-- A body that was read is passed on, if the name of its provider is a header value. -/
theorem Gateway.Reachable.explained_read (h : Gateway.Reachable x st start p)
    (ht : p.tasks[i]? = some (r, t)) {resp : Response BodyStream}
    (hresp : t.prog = .ret (.responded resp))
    (hplace : ∃ hd, ((mediation st).run (Bearer.arrive x st r) (p.movesOf i)).place
      = .reserved hd) {q : ProviderConfig} {body : List UInt8}
    (hpath : Leg.Path st.sortedProviders r.call key (p.movesOf i) (.served q body))
    (hvalue : resp = intoResponse
      (providerResponse r.call.replyHeaders q.name (r.call.reply body))) :
    Explained x st r (p.movesOf i) resp := by
  obtain ⟨s, since, owned, hlast, hmem⟩ := hpath.shown
  unfold providerResponse at hvalue
  by_cases hok : headerValueOk q.name = true
  · rw [if_pos hok] at hvalue
    subst hvalue
    refine .served (h.passed_limits ht hplace) rfl (h.delivered ht hresp rfl)
      (h.streams_asked ht hresp rfl hplace) ?_ fun hhit => ?_
    · intro name hname
      obtain rfl : name = q.name := provider_of_reply hname
      exact ⟨s, since, hlast⟩
    · exact absurd hhit (no_hit_of_reply r.call q.name)
  · rw [if_neg hok] at hvalue
    exact .unnamed (h.passed_limits ht hplace) q.name body
      (hpath.configured hlast.mem_contacts) ⟨s, since, owned, hlast, hmem⟩ (by simpa using hok) _
      hvalue

/--
**Every response says what happened to the request.**  In every reachable state a response is
explained by the moves of its request.  401 goes only to one with no known key that has done
nothing at all, and 429 only to one that a limit of the client itself has refused, with the wait
it answered.  400 says that the payload is malformed, or which status the provider answered that
the request was sent to last.  502 says that every provider was not eligible, has turned the
request away or had a failure of it recorded by it, or that a body with embeddings broke off; 500
that the payload cannot be written, or that the name of the provider whose body was read is no
header value.  200 goes only to a request that has passed both limits, with what was delivered
for it.
-/
theorem reply_explained (h : Gateway.Reachable x st start p) (ht : p.tasks[i]? = some (r, t))
    {resp : Response BodyStream} (hresp : t.prog = .ret (.responded resp)) :
    Explained x st r (p.movesOf i) resp := by
  obtain ⟨leg, hpath, hanswers⟩ := h.answers ht hresp
  have hplaced : leg.Placed ((mediation st).run (Bearer.arrive x st r) (p.movesOf i)).place :=
    hpath.placed rfl
  have hpassed := passed_of_obeys (h.mediated ht).1
  obtain ⟨-, hidentity⟩ := Bearer.run_eq st (Bearer.arrive x st r) (p.movesOf i)
  unfold Bearer.Passed at hpassed
  cases leg with
  | arrived => exact h.explained_arrived ht hresp hplaced
  | admitted =>
      have hplace : ((mediation st).run (Bearer.arrive x st r) (p.movesOf i)).place = .admitted :=
        hplaced
      rw [hplace, hidentity] at hpassed
      obtain ⟨e, he, heq⟩ := hanswers
      exact .malformed hpassed e he heq
  | refused retryAfter =>
      have hplace : ((mediation st).run (Bearer.arrive x st r) (p.movesOf i)).place
          = .refused retryAfter := hplaced
      rw [hplace, hidentity] at hpassed
      exact .refused retryAfter hpassed hanswers
  | hit cached =>
      obtain rfl : resp = cachedResponse cached := hanswers
      have hnone := hpath.shown.1
      exact .served (h.passed_limits ht hplaced) rfl
        (h.delivered ht hresp rfl) (h.streams_asked ht hresp rfl hplaced)
        (fun name hname => by simp [cachedResponse] at hname) fun _ => hnone
  | choosing chosen todo =>
      cases chosen with
      | cons p rest => exact hanswers.elim
      | nil =>
          obtain ⟨rfl, message, rfl⟩ | ⟨rfl, hcause, message, rfl⟩ := hanswers
          · exact .unserved (h.passed_limits ht hplaced) (turnedAway_of_choosing hpath) message rfl
          · exact .unwritten (h.passed_limits ht hplaced) hcause (contacts_of_choosing hpath)
              message rfl
  | rejected s =>
      obtain ⟨hs, name, since, hlast⟩ := hpath.shown
      exact .rejected (h.passed_limits ht hplaced) name s since
        (hpath.configured hlast.mem_contacts) hs hlast hanswers
  | failed q =>
      obtain ⟨s, since, owned, e, hlast, hmem⟩ := hpath.shown
      exact .broken (h.passed_limits ht hplaced) q.name e (hpath.configured hlast.mem_contacts)
        hpath.breakage.1 ⟨s, since, owned, hlast, hmem⟩ _ hanswers
  | served q body => exact h.explained_read ht hresp hplaced hpath hanswers
  | streaming q =>
      obtain ⟨body, -, rfl⟩ := hanswers
      exact .served (h.passed_limits ht hplaced) rfl (h.delivered ht hresp rfl)
        (h.streams_asked ht hresp rfl hplaced)
        (fun name hname => by
          simp [chatStream, proxyStreamPassthrough, Response.withStream] at hname)
        fun hhit => by simp [chatStream, proxyStreamPassthrough, Response.withStream] at hhit
  | _ => exact hanswers.elim

/-- The second request of a run is answered, as it has passed both limits. -/
theorem reply_explained_repeat :
    ∃ r t resp, repeatRun.tasks[1]? = some (r, t) ∧ t.prog = .ret (.responded resp) ∧
      resp.status = 200 ∧ Explained repeatCrates repeatGateway r (repeatRun.movesOf 1) resp := by
  have hstatus : (repeatRun.tasks[1]?.bind fun t => (responseOf t.2).map (·.status))
      = some 200 := by decide +kernel
  obtain ⟨⟨r, t⟩, ht, hrest⟩ := Option.bind_eq_some_iff.mp hstatus
  obtain ⟨resp, hresp, hstatus⟩ := Option.map_eq_some_iff.mp hrest
  exact ⟨r, t, resp, ht, responseOf_some hresp, hstatus,
    reply_explained (Gateway.replay_reachable _ _ _) ht (responseOf_some hresp)⟩

end Runs

end LlmGateway
