/-
What a request has passed before it does anything.

A request is known by its key, takes a token from its client's RPM bucket, then a reservation
from its client's TPM bucket, and only then is it served, under that reservation.  `mediation`
is this order as a protocol over the effects of a request; that every request keeps it is
shown once, from `Proofs/Serving.lean`.  The rest reads it off: what was passed before a send,
what the HTTP client is handed, and, in later modules, which buckets and breakers a request can
reach and what the clients are answered.
-/
import LlmGateway.Proofs.Serving
import LlmGateway.Proofs.Reservations
import LlmGateway.Proofs.Coherence

namespace LlmGateway

open Effects

variable {x : Crates} {st : AppState} {call : ApiCall} {hd : ReservationHandle}

/-! ### How far a request has come -/

/-- How far a request has come. -/
inductive Place
  | arrived
  | admitted
  | reserved (hd : ReservationHandle)
  | refused (retryAfter : Nat)

/-- A limit lets a request on, or refuses it. -/
def Place.next : Place → GatewayMove → Place
  | .arrived, .act (.rpmTryConsume _ _) (.ok _) => .admitted
  | .arrived, .act (.rpmTryConsume _ _) (.error r) => .refused r
  | .admitted, .act (.tryReserveTpm _ _) (.ok hd) => .reserved hd
  | .admitted, .act (.tryReserveTpm _ _) (.error r) => .refused r
  | s, _ => s

@[simp] theorem Place.next_reserved (hd : ReservationHandle) (m : GatewayMove) :
    (Place.reserved hd).next m = .reserved hd := rfl

@[simp] theorem Place.next_refused (retryAfter : Nat) (m : GatewayMove) :
    (Place.refused retryAfter).next m = .refused retryAfter := rfl

@[simp] theorem Place.next_poll (s : Place) (item : StreamItem) : s.next (.poll item) = s := by
  cases s <;> rfl

@[simp] theorem Place.next_drop (s : Place) : s.next .drop = s := by
  cases s <;> rfl

@[simp] theorem Place.next_await (s : Place) (a : Await) (owned : Option ReservationHandle)
    (y : Effect.Answer (.await a owned)) : s.next (.act (.await a owned) y) = s := by
  cases s <;> rfl

/-- A call, whose it is, and how far it has come. -/
structure Bearer where
  call : ApiCall
  identity : Option ClientIdentity
  place : Place

namespace Bearer

/-- A request whose key has been looked up. -/
def arrive (x : Crates) (st : AppState) (r : HttpRequest) : Bearer where
  call := r.call
  identity := identified x st r.authorization
  place := .arrived

/-- A move changes where the request is, and not what it is. -/
def next (g : Bearer) (m : GatewayMove) : Bearer := { g with place := g.place.next m }

@[simp] theorem next_place (g : Bearer) (m : GatewayMove) :
    (g.next m).place = g.place.next m := rfl

/-- The effects of a request where it is. -/
def May (st : AppState) (g : Bearer) (e : Effect) : Prop :=
  match g.place with
  | .arrived => ∃ identity, g.identity = some identity ∧ e = .rpmTryConsume identity.clientId 1
  | .admitted => ∃ identity cost, g.identity = some identity ∧ g.call.estimate = some cost ∧
      e = .tryReserveTpm identity.clientId cost
  | .reserved hd => Serving st g.call hd e
  | .refused _ => ∃ m, e = .metric m

end Bearer

/-- First the RPM limit, then the TPM limit, then the service. -/
def mediation (st : AppState) : Protocol gatewaySig StreamItem Bearer where
  ok := Bearer.May st
  next := Bearer.next

/-- What a request is answered with where it is. -/
def Replied (st : AppState) (g : Bearer) (r : Response BodyStream) : Prop :=
  match g.place with
  | .arrived => g.identity = none ∧ r = AppError.unauthorized.intoResponse
  | .admitted => ∃ e, g.call.malformed = some e ∧ r = (AppError.fromJsonRejection e).intoResponse
  | .reserved hd => ∃ result, Deliverable st g.call hd result ∧ r = intoResponse result
  | .refused retryAfter => r = (AppError.rateLimited retryAfter).intoResponse

/-- What is known of a request between two polls. -/
def RepliedIdle (st : AppState) : Idle → Bearer → Prop
  | .responded r, g => Replied st g r
  | .closed, _ => True

/-! ### Every request keeps the order -/

/-- What is done under a reservation leaves the request where it is. -/
theorem wp_serving {α : Type} {p : Gateway α} {Q : α → Prop} {g : Bearer}
    (hp : p.Gives (Serving st g.call hd) Q) (hg : g.place = .reserved hd) :
    p.wp (mediation st) g fun a g' => Q a ∧ g' = g := by
  refine hp.keeps (J := fun g' => g' = g) ?_ rfl
  intro g' e hsame hserving
  subst hsame
  refine ⟨?_, fun y => ?_⟩
  · show Bearer.May st g' e
    unfold Bearer.May
    rw [hg]
    exact hserving
  · show Bearer.next g' _ = g'
    unfold Bearer.next
    rw [hg, Place.next_reserved, ← hg]

/-- What is known of a request where its handler is. -/
def Juncture.Borne (st : AppState) (identity : ClientIdentity) (call : ApiCall) :
    Juncture → Bearer → Prop
  | .admitted, g => g = ⟨call, some identity, .admitted⟩
  | .finished result, g => Replied st g (intoResponse result)
  | juncture, g => ∃ hd, juncture.Under st call hd ∧ g = ⟨call, some identity, .reserved hd⟩

section Handler

variable {identity : ClientIdentity}

theorem borne_of_under {juncture : Juncture} (h : juncture.Under st call hd) :
    juncture.Borne st identity call ⟨call, some identity, .reserved hd⟩ := by
  cases juncture with
  | admitted => exact h.elim
  | finished result => exact ⟨result, h, rfl⟩
  | _ => exact ⟨hd, h, rfl⟩

/-- What serves a request may be done under its reservation. -/
theorem borne_of_serves {c : Due} (h : Due.Serves st call hd c) :
    (mediation st).Meets (Juncture.Borne st identity call) c
      ⟨call, some identity, .reserved hd⟩ := by
  have hdone : (mediation st).Does c.todo ⟨call, some identity, .reserved hd⟩
      fun g => g = ⟨call, some identity, .reserved hd⟩ := by
    refine Protocol.does_of_forall ?_ rfl
    rintro e he g rfl
    exact ⟨h.1 e he, fun _ => rfl⟩
  refine hdone.mono ?_
  rintro g rfl
  exact borne_of_under h.2

/-- A call that costs something is well formed. -/
theorem malformed_of_estimate {cost : ℚ} (h : call.estimate = some cost) :
    call.malformed = none := by
  cases call with
  | chat payload =>
      cases payload with
      | error e => cases h
      | ok r => rfl
  | embeddings payload =>
      cases payload with
      | error e => cases h
      | ok r => rfl

/-- After the RPM limit a handler asks for its reservation, and serves under it. -/
theorem mediated_upholds :
    (script x st identity call).Upholds (mediation st) (Juncture.Known x st call)
      (Juncture.Borne st identity call) := by
  intro juncture g e hknown hg hasks
  cases juncture with
  | admitted =>
      obtain rfl := hg
      obtain ⟨cost, hcost, rfl⟩ := hasks
      refine ⟨⟨identity, cost, rfl, hcost, rfl⟩, fun answer => ?_⟩
      cases answer with
      | error retryAfter => exact ⟨⟨_, rfl⟩, fun _ => rfl⟩
      | ok hd => exact borne_of_serves serves_reserved
  | finished result => exact hasks.elim
  | _ =>
      obtain ⟨hd, hunder, rfl⟩ := hg
      obtain ⟨hserving, hserves⟩ :=
        serves_react hknown hunder (show Juncture.Asks x identity call _ e from hasks)
      exact ⟨hserving, fun y => borne_of_serves (hserves y)⟩

theorem wp_handler_mediated :
    (handler x st identity call).wp (mediation st) ⟨call, some identity, .admitted⟩
      fun a g' => Replied st g' (intoResponse a) := by
  refine wp_handler_upholds mediated_upholds ?_
  unfold ApiCall.opening
  cases he : call.malformed with
  | none => exact rfl
  | some e => exact ⟨e, he, rfl⟩

end Handler

theorem wp_serve_mediated (req : HttpRequest) :
    (serve x st req).wp (mediation st) (Bearer.arrive x st req) fun r g' => Replied st g' r := by
  unfold Bearer.arrive
  refine wp_serve_of (fun hid => ⟨hid, rfl⟩) (fun identity hid => ⟨identity, hid, rfl⟩)
    (fun identity retryAfter _ => ⟨⟨_, rfl⟩, fun _ => rfl⟩) fun identity hid => ?_
  rw [hid]
  exact wp_handler_mediated

/-- A response that streams was delivered under a reservation. -/
theorem Replied.stream {g : Bearer} {r : Response BodyStream} {s : BodyStream}
    (h : Replied st g r) (hbody : r.body = .stream s) :
    ∃ hd, g.place = .reserved hd ∧ r.status = 200 ∧ g.call.streams = true ∧
      s.Only (Serving st g.call hd) := by
  unfold Replied at h
  cases hplace : g.place with
  | arrived =>
      rw [hplace] at h
      rw [h.2] at hbody
      cases hbody
  | admitted =>
      rw [hplace] at h
      obtain ⟨e, -, rfl⟩ := h
      cases hbody
  | refused retryAfter =>
      rw [hplace] at h
      obtain rfl : r = (AppError.rateLimited retryAfter).intoResponse := h
      cases hbody
  | reserved hd =>
      rw [hplace] at h
      obtain ⟨result, hdeliverable, rfl⟩ := h
      cases result with
      | error e => cases hbody
      | ok r =>
          obtain ⟨hstatus, hbodies⟩ := hdeliverable
          have hsame : r.body = .stream s := hbody
          rw [hsame] at hbodies
          exact ⟨hd, rfl, hstatus, hbodies⟩

/-- A request waits only under its reservation. -/
theorem Bearer.May.reserved {g : Bearer} {a : Await} {owned : Option ReservationHandle}
    (h : g.May st (.await a owned)) :
    ∃ hd, g.place = .reserved hd ∧ Serving st g.call hd (.await a owned) := by
  unfold May at h
  cases hplace : g.place with
  | arrived =>
      rw [hplace] at h
      obtain ⟨identity, -, heq⟩ := h
      cases heq
  | admitted =>
      rw [hplace] at h
      obtain ⟨identity, cost, -, -, heq⟩ := h
      cases heq
  | refused retryAfter =>
      rw [hplace] at h
      obtain ⟨m, heq⟩ := h
      cases heq
  | reserved hd =>
      rw [hplace] at h
      exact ⟨hd, rfl, h⟩

/-- The drop glue of an await serves its reservation. -/
theorem wp_abort_mediated {g : Bearer} {a : Await} {owned : Option ReservationHandle}
    (hok : (mediation st).ok g (.await a owned)) :
    (dropReservation owned).wp (mediation st) g fun _ g' => RepliedIdle st .closed g' := by
  obtain ⟨hd, hplace, hserving⟩ := Bearer.May.reserved hok
  have howned : owned = some hd := by
    cases a with
    | send name out => exact hserving.1
    | _ => exact hserving
  subst howned
  exact Prog.wp_mono (wp_serving serving_dropReservation.gives hplace) fun _ _ _ => trivial

/-- Awaits and what comes from outside pass no limit. -/
theorem Bearer.next_of_place {g : Bearer} {m : GatewayMove} (h : g.place.next m = g.place) :
    g.next m = g := by
  unfold Bearer.next
  rw [h]

theorem gateway_mediated_closed :
    (gateway x st).toKernel.Closed (mediation st) (RepliedIdle st) := by
  have hdropped : ∀ g : Bearer, (mediation st).next g .drop = g := fun g =>
    Bearer.next_of_place (Place.next_drop _)
  refine closed_of ?_ ?_ ?_ ?_
  · intro r s item g hg hbody
    obtain ⟨hd, hplace, hstatus, hstreams, hserves⟩ := Replied.stream hg hbody
    rw [show (mediation st).next g (.poll item) = g from
      Bearer.next_of_place (Place.next_poll _ _)]
    have hresumed : (s.resume x.fromStr item).Gives (Serving st g.call hd)
        fun s' => ∀ t ∈ s', t.Only (Serving st g.call hd) :=
      BodyStream.resume_only (fun _ => trivial) hserves item
    refine Prog.wp_mono (wp_serving hresumed hplace) ?_
    rintro s' g' ⟨hs', rfl⟩
    cases s' with
    | none => exact trivial
    | some s' =>
        show Replied st g' (r.withStream s')
        unfold Replied
        rw [hplace]
        exact ⟨.ok (r.withStream s'), ⟨hstatus, hstreams, hs' s' rfl⟩, rfl⟩
  · intro r s g hg hbody
    obtain ⟨hd, hplace, -, -, hserves⟩ := Replied.stream hg hbody
    rw [hdropped]
    exact Prog.wp_mono (wp_serving (BodyStream.drop_only hserves).gives hplace)
      fun _ _ _ => trivial
  · intro a owned g hok
    rw [hdropped]
    exact wp_abort_mediated hok
  · intro a owned g y hok
    rw [hdropped, show (mediation st).next g (.act (.await a owned) y) = g from
      Bearer.next_of_place (Place.next_await _ _ _ _)]
    exact wp_abort_mediated hok

/-- **Every request keeps the order**, whatever it is answered and wherever it is dropped. -/
theorem gateway_mediated :
    (gateway x st).Disciplined (mediation st) (Bearer.arrive x st) (RepliedIdle st) where
  toClosed := gateway_mediated_closed
  start req := by
    show Prog.wp _ ((serve x st req).bind _) _ _
    rw [Prog.wp_bind]
    exact wp_serve_mediated req

/-! ### What was passed before -/

/-- What the moves of a request show of where it is. -/
def Bearer.Passed (g : Bearer) (ms : List GatewayMove) : Prop :=
  match g.place with
  | .arrived => ∀ e y, .act e y ∉ ms
  | .admitted => ∃ identity, g.identity = some identity ∧
      .act (.rpmTryConsume identity.clientId 1) (.ok ()) ∈ ms
  | .reserved hd => ∃ identity cost, g.identity = some identity ∧ g.call.estimate = some cost ∧
      [.act (.rpmTryConsume identity.clientId 1) (.ok ()),
        .act (.tryReserveTpm identity.clientId cost) (.ok hd)].Sublist ms
  | .refused retryAfter => ∃ identity, g.identity = some identity ∧
      (.act (.rpmTryConsume identity.clientId 1) (.error retryAfter) ∈ ms ∨
        ∃ cost, .act (.tryReserveTpm identity.clientId cost) (.error retryAfter) ∈ ms)

/-- A request that stays where it is still has the moves for it. -/
theorem Bearer.Passed.keep {g : Bearer} {ms : List GatewayMove} (h : g.Passed ms)
    {m : GatewayMove} (hm : g.next m = g) (hact : g.place = .arrived → ∀ e y, m ≠ .act e y) :
    (g.next m).Passed (ms ++ [m]) := by
  rw [hm]
  unfold Passed at h ⊢
  cases hplace : g.place with
  | arrived =>
      rw [hplace] at h
      intro e y hmem
      rcases List.mem_append.mp hmem with hold | hnew
      · exact h e y hold
      · exact hact hplace e y (List.mem_singleton.mp hnew).symm
  | admitted =>
      rw [hplace] at h
      obtain ⟨identity, hid, hmem⟩ := h
      exact ⟨identity, hid, List.mem_append_left _ hmem⟩
  | reserved hd =>
      rw [hplace] at h
      obtain ⟨identity, cost, hid, hcost, hsub⟩ := h
      exact ⟨identity, cost, hid, hcost, hsub.trans (List.sublist_append_left _ _)⟩
  | refused retryAfter =>
      rw [hplace] at h
      obtain ⟨identity, hid, hrefused⟩ := h
      refine ⟨identity, hid, ?_⟩
      rcases hrefused with hrpm | ⟨cost, htpm⟩
      · exact Or.inl (List.mem_append_left _ hrpm)
      · exact Or.inr ⟨cost, List.mem_append_left _ htpm⟩

/-- The two limits are what moves a request on. -/
theorem Bearer.Passed.move {g : Bearer} {ms : List GatewayMove} (h : g.Passed ms)
    {m : GatewayMove} (hm : Kernel.Allowed (mediation st) g m) :
    (g.next m).Passed (ms ++ [m]) := by
  cases m with
  | poll item => exact h.keep (next_of_place (Place.next_poll _ _)) fun _ _ _ => by simp
  | drop => exact h.keep (next_of_place (Place.next_drop _)) fun _ _ _ => by simp
  | act e y =>
      have hmay : May st g e := hm
      unfold May at hmay
      cases hplace : g.place with
      | arrived =>
          rw [hplace] at hmay
          obtain ⟨identity, hid, rfl⟩ := hmay
          unfold Passed
          rw [next_place, hplace]
          cases y with
          | ok u => exact ⟨identity, hid, by simp⟩
          | error retryAfter => exact ⟨identity, hid, Or.inl (by simp)⟩
      | admitted =>
          rw [hplace] at hmay
          obtain ⟨identity, cost, hid, hcost, rfl⟩ := hmay
          unfold Passed at h
          rw [hplace] at h
          obtain ⟨identity', hid', hrpm⟩ := h
          obtain rfl := Option.some.inj (hid.symm.trans hid')
          unfold Passed
          rw [next_place, hplace]
          cases y with
          | ok hd =>
              refine ⟨identity, cost, hid, hcost, ?_⟩
              exact (List.singleton_sublist.mpr hrpm).append (List.Sublist.refl [_])
          | error retryAfter => exact ⟨identity, hid, Or.inr ⟨cost, by simp⟩⟩
      | reserved hd =>
          refine h.keep (next_of_place ?_) fun hfalse => ?_
          · rw [hplace, Place.next_reserved]
          · rw [hplace] at hfalse
            cases hfalse
      | refused retryAfter =>
          refine h.keep (next_of_place ?_) fun hfalse => ?_
          · rw [hplace, Place.next_refused]
          · rw [hplace] at hfalse
            cases hfalse

theorem Bearer.run_eq (st : AppState) (g : Bearer) (ms : List GatewayMove) :
    ((mediation st).run g ms).call = g.call ∧ ((mediation st).run g ms).identity = g.identity := by
  induction ms generalizing g with
  | nil => exact ⟨rfl, rfl⟩
  | cons m ms ih => exact ih (g.next m)

/-- The moves of a request show what it passed. -/
theorem passed_of_obeys {r : HttpRequest} {ms : List GatewayMove}
    (h : (mediation st).Obeys (Bearer.arrive x st r) ms) :
    ((mediation st).run (Bearer.arrive x st r) ms).Passed ms := by
  have harrived : (Bearer.arrive x st r).Passed [] := fun e y => List.not_mem_nil
  exact Kernel.keeps_of_obeys (J := Bearer.Passed) harrived
    (fun g ms m hpassed hm => hpassed.move hm) h

section Runs

variable {start : Instant} {p q : Gateway.State} {i : Nat} {r : HttpRequest}
  {t : Task gatewaySig Idle}

/-- What a request has done and is about to do goes with where it is. -/
theorem Gateway.Reachable.mediated (h : Gateway.Reachable x st start p)
    (ht : p.tasks[i]? = some (r, t)) :
    (mediation st).Obeys (Bearer.arrive x st r) (p.movesOf i) ∧
      Kernel.Follows (mediation st) (RepliedIdle st) t
        ((mediation st).run (Bearer.arrive x st r) (p.movesOf i)) :=
  Machine.Reaches.obeys gateway_mediated rfl rfl h ht

/-- A granted reservation is one of the client's bucket, for the cost asked for. -/
theorem Gateway.Reachable.granted_eq (h : Gateway.Reachable x st start p) {client : String}
    {cost : ℚ} (hgranted : .act (.tryReserveTpm client cost) (.ok hd) ∈ p.movesOf i) :
    hd = ⟨client, cost, false⟩ := by
  have hlogged := Machine.Reaches.logged
    (P := fun _ (m : GatewayMove) => ∀ client cost (hd : ReservationHandle),
      m = .act (.tryReserveTpm client cost) (.ok hd) → hd = ⟨client, cost, false⟩) rfl ?_ h
  · obtain ⟨n, hn, -, hmove⟩ := Pool.mem_movesOf.mp hgranted
    obtain ⟨r, t, -, hall⟩ := hlogged n hn
    exact hall client cost hd hmove
  · intro p l i r t t' m w _ _ _ _ hans client cost hd hm
    subst hm
    have hanswer := answers_tryReserveTpm hans
    rcases (p.world.tpm st client).tryReserve_cases p.world.now client cost with
      ⟨-, hok, -⟩ | ⟨⟨retryAfter, herr⟩, -⟩
    · rw [hok] at hanswer
      exact Except.ok.inj hanswer
    · rw [herr] at hanswer
      cases hanswer

/-- A reservation a request serves under is its own client's, for what its call costs. -/
theorem Gateway.Reachable.reserved_eq (h : Gateway.Reachable x st start p)
    (ht : p.tasks[i]? = some (r, t)) {before after : List GatewayMove}
    (hmoves : p.movesOf i = before ++ after)
    (hplace : ((mediation st).run (Bearer.arrive x st r) before).place = .reserved hd) :
    ∃ identity cost, identified x st r.authorization = some identity ∧
      r.call.estimate = some cost ∧ hd = ⟨identity.clientId, cost, false⟩ ∧
      [.act (.rpmTryConsume identity.clientId 1) (.ok ()),
        .act (.tryReserveTpm identity.clientId cost) (.ok hd)].Sublist before := by
  have hobeys := (h.mediated ht).1
  rw [hmoves, Protocol.obeys_append] at hobeys
  have hpassed := passed_of_obeys hobeys.1
  obtain ⟨hcall, hidentity⟩ := Bearer.run_eq st (Bearer.arrive x st r) before
  unfold Bearer.Passed at hpassed
  rw [hplace, hcall, hidentity] at hpassed
  obtain ⟨identity, cost, hid, hcost, hsub⟩ := hpassed
  refine ⟨identity, cost, hid, hcost, h.granted_eq (i := i) ?_, hsub⟩
  rw [hmoves]
  exact List.mem_append_left _ (hsub.subset (by simp))

/--
**Nothing is sent upstream unpaid.**  Whatever a request sends to a provider: it bears a known
key; it was granted a token of its client's RPM bucket and then a reservation of what its call
costs from the same client's TPM bucket; and this reservation, of which nothing has been settled
yet, is owned by the future that waits for the answer.
-/
theorem send_paid (h : Gateway.Reachable x st start p) (ht : p.tasks[i]? = some (r, t))
    {before after : List GatewayMove} {provider : String} {out : OutboundRequest}
    {owned : Option ReservationHandle} {answer : Except String StatusCode}
    (hsend : p.movesOf i
      = before ++ .act (.await (.send provider out) owned) answer :: after) :
    ∃ identity cost, identified x st r.authorization = some identity ∧
      r.call.estimate = some cost ∧ owned = some ⟨identity.clientId, cost, false⟩ ∧
      [.act (.rpmTryConsume identity.clientId 1) (.ok ()),
        .act (.tryReserveTpm identity.clientId cost)
          (.ok ⟨identity.clientId, cost, false⟩)].Sublist before ∧
      settlements before = [] := by
  have hmay := (h.mediated ht).1
  rw [hsend, Protocol.obeys_append] at hmay
  obtain ⟨hd, hplace, hserving⟩ := Bearer.May.reserved hmay.2.1
  obtain ⟨identity, cost, hid, hcost, rfl, hsub⟩ := h.reserved_eq ht hsend hplace
  refine ⟨identity, cost, hid, hcost, hserving.1, hsub, ?_⟩
  -- the request still holds what it owns, and it has had no other
  have hobeys := (h.obeys ht).1
  rw [hsend, Protocol.obeys_append] at hobeys
  have hbooked := booked before hobeys.1
  have hheld : _ = ((discipline x).run (Ghost.start r) before).held := hobeys.2.1.1
  have hbalance := hbooked.balance
  rw [← hheld, hserving.1] at hbalance
  have honce := hbooked.once
  rw [hbalance, List.length_append] at honce
  apply List.length_eq_zero_iff.mp
  simp only [Option.toList_some, List.length_singleton] at honce
  omega

/-- The send a move is. -/
def sendOf : GatewayMove → Option (String × Option ReservationHandle)
  | .act (.await (.send provider _) owned) _ => some (provider, owned)
  | _ => none

theorem sendOf_some {m : GatewayMove} {provider : String} {owned : Option ReservationHandle}
    (h : sendOf m = some (provider, owned)) :
    ∃ out answer, m = .act (.await (.send provider out) owned) answer := by
  unfold sendOf at h
  split at h
  · cases h
    exact ⟨_, _, rfl⟩
  · cases h

/-- The first request of a run sends at its seventh move, under ten tokens. -/
theorem send_paid_repeat :
    ∃ m, (repeatRun.movesOf 0)[6]? = some m ∧ sendOf m = some ("p", some ⟨"c", 10, false⟩) ∧
      settlements ((repeatRun.movesOf 0).take 6) = [] := by
  have hsent : ((repeatRun.movesOf 0)[6]?.bind sendOf) = some ("p", some ⟨"c", 10, false⟩) := by
    decide +kernel
  obtain ⟨m, hm, hsend⟩ := Option.bind_eq_some_iff.mp hsent
  have hmoves : repeatRun.movesOf 0
      = (repeatRun.movesOf 0).take 6 ++ m :: (repeatRun.movesOf 0).drop 7 := by
    obtain ⟨hlt, rfl⟩ := List.getElem?_eq_some_iff.mp hm
    rw [← List.drop_eq_getElem_cons hlt, List.take_append_drop]
  obtain ⟨out, answer, rfl⟩ := sendOf_some hsend
  have htask : 0 < repeatRun.tasks.length := by decide +kernel
  obtain ⟨-, -, -, -, -, -, hunsettled⟩ := send_paid (Gateway.replay_reachable _ _ _)
    (List.getElem?_eq_getElem htask) hmoves
  exact ⟨_, hm, hsend, hunsettled⟩

/-- The key of a provider is sent if one is configured. -/
theorem mem_bearerHeaders {provider : ProviderConfig} {v : String} :
    ("authorization", v) ∈ bearerHeaders provider ↔
      ∃ key, provider.apiKey = some key ∧ key ≠ "" ∧ v = "Bearer " ++ key := by
  unfold bearerHeaders
  cases provider.apiKey with
  | none => simp
  | some key =>
      by_cases hkey : key = ""
      · simp [hkey]
      · simp [hkey]

theorem bearerHeaders_name {provider : ProviderConfig} :
    ∀ header ∈ bearerHeaders provider, header.1 = "authorization" := by
  intro header hheader
  unfold bearerHeaders at hheader
  split at hheader
  · split at hheader
    · cases hheader
    · rw [List.mem_singleton.mp hheader]
  · cases hheader

/-- The URL path a call is sent to. -/
def ApiCall.path : ApiCall → String
  | .chat _ => "/v1/chat/completions"
  | .embeddings _ => "/v1/embeddings"

/-- Whatever a request sends is built for a configured provider. -/
theorem Gateway.Reachable.built {config : AppConfig}
    (h : Gateway.Reachable x (.new x config) start p) (ht : p.tasks[i]? = some (r, t))
    {provider : String} {out : OutboundRequest} {owned : Option ReservationHandle}
    {answer : Except String StatusCode}
    (hsend : .act (.await (.send provider out) owned) answer ∈ p.movesOf i) :
    ∃ q ∈ config.providers, q.name = provider ∧
      ∃ body, out = buildRequest q (trimEndSlashes q.endpoint ++ r.call.path) body := by
  obtain ⟨before, after, hmoves⟩ := List.mem_iff_append.mp hsend
  have hmay := (h.mediated ht).1
  rw [hmoves, Protocol.obeys_append] at hmay
  obtain ⟨hd, -, -, q, hq, hname, body, hout⟩ := Bearer.May.reserved hmay.2.1
  rw [(Bearer.run_eq _ _ _).1] at hout
  refine ⟨q, (List.perm_insertionSort _ _).mem_iff.mp hq, hname, body, ?_⟩
  rw [hout]
  cases hcall : r.call <;> simp [Bearer.arrive, hcall, ApiCall.outbound, ApiCall.path,
    buildChatRequest, buildEmbeddingsRequest]

/--
**What the HTTP client is handed is as the configuration says.**  Whatever a request hands to the
client's `send` is for a configured provider, with the text of its endpoint and the path of the
call for a URL, its timeout, the body the call is forwarded with, and no header but two fixed ones
and the key configured for this provider, if there is one: the gateway never puts the client's
own key there.  What the HTTP client makes of it, how it reads the URL, what it does with a user
name in it and where a redirect leads it, is not part of this.
-/
theorem sent_as_configured {config : AppConfig}
    (h : Gateway.Reachable x (.new x config) start p) (ht : p.tasks[i]? = some (r, t))
    {provider : String} {out : OutboundRequest} {owned : Option ReservationHandle}
    {answer : Except String StatusCode}
    (hsend : .act (.await (.send provider out) owned) answer ∈ p.movesOf i) :
    ∃ q ∈ config.providers, q.name = provider ∧
      out.url = trimEndSlashes q.endpoint ++ r.call.path ∧
      out.timeoutSeconds = q.requestTimeoutSeconds ∧
      r.call.forwarded x = some out.body ∧
      (∀ v, ("authorization", v) ∈ out.headers ↔
        ∃ key, q.apiKey = some key ∧ key ≠ "" ∧ v = "Bearer " ++ key) ∧
      ∀ header ∈ out.headers, header.1 ≠ "authorization" →
        header ∈ [("content-type", "application/json"),
          ("accept", "application/json, text/event-stream")] := by
  have hforwards := h.forwards ht hsend
  obtain ⟨q, hq, hname, body, rfl⟩ := h.built ht hsend
  refine ⟨q, hq, hname, rfl, rfl, hforwards, ?_, ?_⟩
  · intro v
    rw [← mem_bearerHeaders]
    simp [buildRequest]
  · intro header hheader hnot
    rcases List.mem_append.mp hheader with hfixed | hbearer
    · exact hfixed
    · exact absurd (bearerHeaders_name header hbearer) hnot

/-- The first request of a run is sent to the one provider there is. -/
theorem repeatRun_sends : ∃ r t out answer, repeatRun.tasks[0]? = some (r, t) ∧
    r.call.path = "/v1/chat/completions" ∧
    .act (.await (.send "p" out) (some ⟨"c", 10, false⟩)) answer ∈ repeatRun.movesOf 0 := by
  have hsent : ((repeatRun.movesOf 0)[6]?.bind sendOf) = some ("p", some ⟨"c", 10, false⟩) := by
    decide +kernel
  obtain ⟨m, hm, hsend⟩ := Option.bind_eq_some_iff.mp hsent
  obtain ⟨out, answer, rfl⟩ := sendOf_some hsend
  have hcall : (repeatRun.tasks[0]?.map fun t => t.1.call.path) = some "/v1/chat/completions" := by
    decide +kernel
  obtain ⟨⟨r, t⟩, ht, hpath⟩ := Option.map_eq_some_iff.mp hcall
  exact ⟨r, t, out, answer, ht, hpath, List.mem_of_getElem? hm⟩

/-- That provider has no key. -/
theorem sent_as_configured_repeat :
    ∃ out owned answer, .act (.await (.send "p" out) owned) answer ∈ repeatRun.movesOf 0 ∧
      out.url = "http://p/v1/chat/completions" ∧ ∀ v, ("authorization", v) ∉ out.headers := by
  obtain ⟨r, t, out, answer, ht, hpath, hmem⟩ := repeatRun_sends
  obtain ⟨q, hq, -, hurl, -, -, hkey, -⟩ :=
    sent_as_configured (Gateway.replay_reachable _ _ _) ht hmem
  obtain rfl := List.mem_singleton.mp hq
  refine ⟨out, _, answer, hmem, ?_, ?_⟩
  · rw [hurl, hpath]
    decide
  · intro v hv
    obtain ⟨key, hsome, -⟩ := (hkey v).mp hv
    cases hsome

end Runs

end LlmGateway
