/-
Every request of the gateway keeps the discipline.

What is left after the handlers and the streams are the two middlewares, which answer
before anything is reserved or let the handler run, and the drop glue: a future dropped at
an await drops the reservation it owns there.  `pipeline` is `serve` with the handler left
open; `pipeline_identified` and `pipeline_unidentified` are all there is to the layers.
`wp_serve_of` and `closed_of` are the rules that every protocol uses for these parts, as
`wp_handler_upholds` is for the handlers.  `gateway_disciplined` is what the results about runs
start from.
-/
import LlmGateway.Proofs.Stream
import LlmGateway.Proofs.Credentials

namespace LlmGateway

open Effects

variable {x : Crates} {st : AppState} {g : Ghost} {authorization : Option (List UInt8)}
  {identity : ClientIdentity}

/-! ### The layers -/

/-- Authentication and the RPM limit in front of any handler. -/
def pipeline (x : Crates) (st : AppState) (authorization : Option (List UInt8))
    (h : ClientIdentity → Gateway HandlerResult) : Gateway (Response BodyStream) := do
  let result ← authMiddleware x st authorization fun identity => do
    let result ← rateLimitMiddleware identity do
      let result ← h identity
      return intoResponse result
    return intoResponse result
  return intoResponse result

theorem serve_eq (x : Crates) (st : AppState) (req : HttpRequest) :
    serve x st req
      = pipeline x st req.authorization fun identity => handler x st identity req.call := rfl

/-- A handler, and the response its result becomes. -/
def responding (p : Gateway HandlerResult) : Gateway (Response BodyStream) :=
  p.bind fun result => .ret (intoResponse result)

/-- After the RPM limit has answered: the handler, or the refusal. -/
def afterRpm (p : Gateway HandlerResult) : Except Nat Unit → Gateway (Response BodyStream)
  | .ok () => responding p
  | .error retryAfter => .op (.metric (.recordError "rate_limit" "rpm_exceeded")) fun _ =>
      .ret (AppError.rateLimited retryAfter).intoResponse

theorem pipeline_unidentified (hid : identified x st authorization = none)
    (h : ClientIdentity → Gateway HandlerResult) :
    pipeline x st authorization h = .ret AppError.unauthorized.intoResponse := by
  unfold pipeline
  rw [authMiddleware_unidentified hid]
  rfl

theorem pipeline_identified (hid : identified x st authorization = some identity)
    (h : ClientIdentity → Gateway HandlerResult) :
    pipeline x st authorization h
      = .op (.rpmTryConsume identity.clientId 1) (afterRpm (h identity)) := by
  unfold pipeline
  rw [authMiddleware_identified hid]
  unfold rateLimitMiddleware rpmTryConsume
  simp only [Prog.bind_eq, Prog.pure_eq, Prog.op_bind, Prog.ret_bind, Prog.bind_assoc]
  congr 1
  funext answer
  cases answer with
  | ok u =>
      simp only [afterRpm, responding, Prog.bind_assoc, Prog.ret_bind]
      rfl
  | error retryAfter => rfl

section Rules

variable {G : Type} {π : Protocol gatewaySig StreamItem G}

/-- The rule for the two middlewares: the request is told that it is not known, or it asks for a
token, and is refused or handled. -/
theorem wp_serve_of {req : HttpRequest} {g : G} {Q : Response BodyStream → G → Prop}
    (hnone : identified x st req.authorization = none → Q AppError.unauthorized.intoResponse g)
    (hask : ∀ identity, identified x st req.authorization = some identity →
      π.ok g (.rpmTryConsume identity.clientId 1))
    (hrefused : ∀ identity retryAfter, identified x st req.authorization = some identity →
      π.Does [.metric (.recordError "rate_limit" "rpm_exceeded")]
        (π.next g (.act (.rpmTryConsume identity.clientId 1) (.error retryAfter)))
        (Q (AppError.rateLimited retryAfter).intoResponse))
    (hhandled : ∀ identity, identified x st req.authorization = some identity →
      (handler x st identity req.call).wp π
        (π.next g (.act (.rpmTryConsume identity.clientId 1) (.ok ())))
        fun result g' => Q (intoResponse result) g') :
    (serve x st req).wp π g Q := by
  rw [serve_eq]
  cases hid : identified x st req.authorization with
  | none =>
      rw [pipeline_unidentified hid]
      exact hnone hid
  | some identity =>
      rw [pipeline_identified hid]
      refine ⟨hask identity hid, fun answer => ?_⟩
      cases answer with
      | ok u => exact (Prog.wp_bind _ _ _ _).mpr (hhandled identity hid)
      | error retryAfter => exact hrefused identity retryAfter hid

/-- What a request is between two polls, once its body is this. -/
def Idle.resumed (r : Response BodyStream) : Option BodyStream → Idle
  | some s => .responded (r.withStream s)
  | none => .closed

/-- The rule for what comes from outside: an item for a streaming body, and the drop of a body,
of a future at an await, and of one that has just been answered. -/
theorem closed_of {Q : Idle → G → Prop}
    (hpoll : ∀ r s item g, Q (.responded r) g → r.body = .stream s →
      (s.resume x.fromStr item).wp π (π.next g (.poll item))
        fun s' g' => Q (Idle.resumed r s') g')
    (hdrop : ∀ r s g, Q (.responded r) g → r.body = .stream s →
      s.drop.wp π (π.next g .drop) fun _ g' => Q .closed g')
    (habort : ∀ a owned g, π.ok g (.await a owned) →
      (dropReservation owned).wp π (π.next g .drop) fun _ g' => Q .closed g')
    (hlate : ∀ a owned g y, π.ok g (.await a owned) →
      (dropReservation owned).wp π (π.next (π.next g (.act (.await a owned) y)) .drop)
        fun _ g' => Q .closed g') :
    (gateway x st).toKernel.Closed π Q where
  poll i g item q hg hq := by
    cases i with
    | closed => cases hq
    | responded r =>
        simp only [gateway, pollBody] at hq
        cases hbody : r.body with
        | full bytes => simp [hbody] at hq
        | stream s =>
            simp only [hbody, Option.some.injEq] at hq
            subst hq
            refine Prog.wp_call (hpoll r s item g hg hbody) fun s' g' hs' => ?_
            cases s' with
            | none => exact hs'
            | some s' => exact hs'
  drop i g q hg hq := by
    cases i with
    | closed => cases hq
    | responded r =>
        simp only [gateway, dropBody] at hq
        cases hbody : r.body with
        | full bytes => simp [hbody] at hq
        | stream s =>
            simp only [hbody, Option.some.injEq] at hq
            subst hq
            exact Prog.wp_call (hdrop r s g hg hbody) fun _ _ h => h
  abort e g q hok hq := by
    cases e with
    | await a owned =>
        obtain rfl := Option.some.inj hq
        exact Prog.wp_call (habort a owned g hok) fun _ _ h => h
    | _ => cases hq
  late e g q y hok hq := by
    cases e with
    | await a owned =>
        obtain rfl := Option.some.inj hq
        exact Prog.wp_call (hlate a owned g y hok) fun _ _ h => h
    | _ => cases hq

end Rules

/-! ### The discipline -/

theorem wp_serve (req : HttpRequest) :
    (serve x st req).wp (discipline x) (Ghost.start req)
      fun r g' => Settled x (.responded r) g' := by
  refine wp_serve_of (fun _ => ?_) (fun _ _ => rfl) (fun _ retryAfter _ => ⟨trivial, fun _ => ?_⟩)
    fun identity _ => wp_handler identity req
  · exact settled_error .unauthorized (done_unreserved rfl rfl rfl rfl rfl)
  · exact settled_error (.rateLimited retryAfter) (done_unreserved rfl rfl rfl rfl rfl)

/-! ### Drop glue -/

/-- The reservation a suspended future owns is the one its request holds. -/
theorem wp_abort {owned : Option ReservationHandle} (hheld : g.held = owned)
    (hdropped : g.dropped = true) (hphase : g.phase = .idle) :
    (dropReservation owned).wp (discipline x) g fun _ g' => Settled x .closed g' := by
  have hended : Ended x g := ⟨hphase, fun h => by rw [hdropped] at h; cases h⟩
  unfold dropReservation
  cases owned with
  | none => exact ⟨hended, hheld⟩
  | some hd => exact ⟨hheld, fun _ => ⟨⟨hended.phase, hended.streamed⟩, rfl⟩⟩

/-- At every await the handler owns what the request holds. -/
theorem owned_of_permitted {a : Await} {owned : Option ReservationHandle}
    (h : Permitted x g (.await a owned)) : g.held = owned := by
  cases a with
  | cacheGet key => exact h.1.symm
  | cacheInsert key v => exact h.1.symm
  | send p req => exact h.1.symm
  | bytes p => exact h.1.symm

/-- An await changes nothing about the reservation. -/
theorem held_next_await (g : Ghost) (a : Await) (owned : Option ReservationHandle)
    (answer : Effect.Answer (.await a owned)) :
    (g.next (.act (.await a owned) answer)).held = g.held := by
  cases a with
  | cacheGet key => rfl
  | cacheInsert key v => rfl
  | send p req => rfl
  | bytes p =>
      cases answer with
      | ok body => rfl
      | error e => rfl

/-- A streaming response is not one from the cache. -/
theorem HitSound.not_stream {r : Response BodyStream} {s : BodyStream} (h : HitSound r g)
    (hbody : r.body = .stream s) : ("x-cache", "HIT") ∉ r.headers := by
  intro hmem
  obtain ⟨text, -, hfull⟩ := h hmem
  rw [hbody] at hfull
  cases hfull

theorem gateway_closed : (gateway x st).toKernel.Closed (discipline x) (Settled x) := by
  refine closed_of ?_ ?_ ?_ ?_
  · rintro r s item g ⟨hhit, hg⟩ hbody
    simp only [hbody] at hg
    refine Prog.wp_mono (wp_resume hg item) fun s' g' hs' => ?_
    cases s' with
    | none => exact hs'
    | some s' => exact ⟨hitSound_of_headers (hhit.not_stream hbody), hs'⟩
  · rintro r s g ⟨-, hg⟩ hbody
    simp only [hbody] at hg
    exact wp_dropStream rfl hg.charges (Or.inr ⟨_, hg.onError⟩) fun g' hg' => hg'
  · intro a owned g hok
    exact wp_abort (g := g.next .drop) (show g.held = owned from owned_of_permitted hok) rfl rfl
  · intro a owned g y hok
    refine wp_abort (g := (g.next (.act (.await a owned) y)).next .drop) ?_ rfl rfl
    show (g.next (.act (.await a owned) y)).held = owned
    rw [held_next_await]
    exact owned_of_permitted hok

/-- **Every request the gateway serves keeps the discipline**, whatever the upstreams answer
and wherever it is dropped. -/
theorem gateway_disciplined :
    (gateway x st).Disciplined (discipline x) Ghost.start (Settled x) where
  toClosed := gateway_closed
  start req := by
    show Prog.wp _ ((serve x st req).bind _) _ _
    rw [Prog.wp_bind]
    exact wp_serve req

/-- A gateway that has just started conforms. -/
theorem initial_conforms (now : Instant) :
    (Gateway.State.initial now).Conforms (discipline x) Ghost.start (Settled x) := by
  refine ⟨fun n hn => absurd hn (List.not_mem_nil), fun i r t ht => ?_⟩
  simp [Gateway.State.initial] at ht

/-! ### Reachable states -/

/-- The states a gateway started at `start` can come to. -/
def Gateway.Reachable (x : Crates) (st : AppState) (start : Instant) (p : Gateway.State) : Prop :=
  (gateway x st).Reaches (fun _ _ => True) (Gateway.State.initial start) p

/-- What can happen in a gateway. -/
abbrev GatewayLabel := Label StreamItem Choice Duration HttpRequest

/-- A run from `p₀` to `p` whose steps are all `ok`, with what was observed of its moves. -/
abbrev Gateway.Run {O : Type} (x : Crates) (st : AppState)
    (ok : Gateway.State → GatewayLabel → Bool)
    (obs : World → Ghost → GatewayMove → World → O) (p₀ p : Gateway.State) (os : List O) : Prop :=
  Machine.Observed (gateway x st) (discipline x) Ghost.start (fun p l => ok p l = true) obs p₀ p os

/-- The ghosts of the requests of a state. -/
abbrev Gateway.State.shadow (x : Crates) (p : Gateway.State) : List Ghost :=
  p.ghosts (discipline x) Ghost.start

namespace Gateway.Reachable

variable {start : Instant} {p q : Gateway.State}

theorem conforms (h : Gateway.Reachable x st start p) :
    p.Conforms (discipline x) Ghost.start (Settled x) :=
  Machine.Reaches.conforms gateway_disciplined (initial_conforms start) h

/-- Each request has kept the discipline, and is where its log says. -/
theorem obeys (h : Gateway.Reachable x st start p) {i : Nat} {r : HttpRequest}
    {t : Task gatewaySig Idle} (ht : p.tasks[i]? = some (r, t)) :
    (discipline x).Obeys (Ghost.start r) (p.movesOf i) ∧
      Kernel.Follows (discipline x) (Settled x) t
        ((discipline x).run (Ghost.start r) (p.movesOf i)) :=
  Machine.Reaches.obeys gateway_disciplined rfl rfl h ht

/-- What a request sends to a provider is the body its call is forwarded with. -/
theorem forwards (h : Gateway.Reachable x st start p) {i : Nat} {r : HttpRequest}
    {t : Task gatewaySig Idle} (ht : p.tasks[i]? = some (r, t)) {provider : String}
    {out : OutboundRequest} {owned : Option ReservationHandle}
    {answer : Except String StatusCode}
    (hsend : .act (.await (.send provider out) owned) answer ∈ p.movesOf i) :
    r.call.forwarded x = some out.body := by
  obtain ⟨before, after, hmoves⟩ := List.mem_iff_append.mp hsend
  have hobeys := (h.obeys ht).1
  rw [hmoves, Protocol.obeys_append] at hobeys
  have hforwarded := hobeys.2.1.2.2
  rw [run_request] at hforwarded
  exact hforwarded

theorem trans {ok : Gateway.State → GatewayLabel → Prop}
    (h : Gateway.Reachable x st start p) (h' : (gateway x st).Reaches ok p q) :
    Gateway.Reachable x st start q :=
  Machine.Reaches.trans h (h'.mono fun _ _ _ => trivial)

end Gateway.Reachable

/-- Where a gateway that is started at 0 is led by a list of steps, and what is observed. -/
def Gateway.replay {O : Type} (x : Crates) (st : AppState)
    (ok : Gateway.State → GatewayLabel → Bool)
    (obs : World → Ghost → GatewayMove → World → O) (ls : List GatewayLabel) :
    Gateway.State × List O :=
  (gateway x st).replay (discipline x) Ghost.start ok obs (Gateway.State.initial 0) ls

section Replay

variable {O : Type} (ok : Gateway.State → GatewayLabel → Bool)
  (obs : World → Ghost → GatewayMove → World → O) (ls : List GatewayLabel)

theorem Gateway.replay_run :
    Gateway.Run x st ok obs (Gateway.State.initial 0) (Gateway.replay x st ok obs ls).1
      (Gateway.replay x st ok obs ls).2 :=
  Machine.replay_observed ok ls

theorem Gateway.replay_reachable :
    Gateway.Reachable x st 0 (Gateway.replay x st ok obs ls).1 :=
  (Machine.Observed.reaches (Gateway.replay_run ok obs ls)).mono fun _ _ _ => trivial

end Replay

end LlmGateway
