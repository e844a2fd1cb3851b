/-
Every request travels by its itinerary.

A request is at one leg at each juncture of the script, and what is due then takes it to the leg
of the next; a streaming body is followed by hand.
-/
import LlmGateway.Proofs.Itinerary

namespace LlmGateway

open Effects

/-! ### What does not show -/

section Aside

variable {providers : List ProviderConfig} {g : Trip} {e : Effect}

/-- It leaves the request where it is. -/
theorem wp_beside {α : Type} {p : Gateway α} {Q : α → Prop} (hp : p.Gives Aside Q)
    (hquiet : g.leg.isQuiet = true) :
    p.wp (itinerary providers) g fun a g' => Q a ∧ g' = g := by
  refine hp.keeps (J := fun g' => g' = g) ?_ rfl
  intro g' e hsame he
  subst hsame
  exact ⟨Trip.may_aside he hquiet, fun y => Trip.next_aside he y⟩

end Aside

/-! ### The junctures -/

/-- Where a request is answered, other things may be done. -/
theorem Trip.Answers.quiet {x : Crates} {providers : List ProviderConfig} {g : Trip}
    {r : Response BodyStream} (h : g.Answers x providers r) : g.leg.isQuiet = true := by
  unfold Trip.Answers at h
  cases hleg : g.leg with
  | cleared p rest => simp [hleg] at h
  | answered p rest reception => simp [hleg] at h
  | broken p rest => simp [hleg] at h
  | breaking p message => simp [hleg] at h
  | _ => rfl

/-- Where a request is when its handler has come to a juncture. -/
def Juncture.Travelled (x : Crates) (providers : List ProviderConfig) (call : ApiCall) :
    Juncture → Trip → Prop
  | .admitted, g => g = ⟨call, call.key x, .admitted⟩
  | .looking key _, g => g = ⟨call, call.key x, .looking key⟩
  | .choosing chosen p todo _, g => g = ⟨call, call.key x, .choosing chosen (p :: todo)⟩
  | .trying p rest _ _, g => g = ⟨call, call.key x, .choosing (p :: rest) []⟩
  | .cleared p rest _, g => g = ⟨call, call.key x, .cleared p rest⟩
  | .reading p rest _, g => g = ⟨call, call.key x, .reading p rest⟩
  | .finished result, g => g.Answers x providers (intoResponse result)

section Junctures

variable {x : Crates} {st : AppState} {identity : ClientIdentity} {providers : List ProviderConfig}
  {call : ApiCall} {p : ProviderConfig} {rest : List ProviderConfig} {hd : ReservationHandle}

/-- What is due has this request come to the juncture after it. -/
abbrev Due.Travels (x : Crates) (providers : List ProviderConfig) (call : ApiCall) (c : Due)
    (leg : Leg) : Prop :=
  (itinerary providers).Meets (Juncture.Travelled x providers call) c ⟨call, call.key x, leg⟩

theorem travels_after {c : Due} {leg : Leg} {es : List Effect} (hes : ∀ e ∈ es, Aside e)
    (hquiet : leg.isQuiet = true) (hc : Due.Travels x providers call c leg) :
    Due.Travels x providers call (c.after es) leg := by
  refine ((itinerary providers).meets_after es).mpr ?_
  have hdone : (itinerary providers).Does es ⟨call, call.key x, leg⟩
      fun g => g = ⟨call, call.key x, leg⟩ := by
    refine Protocol.does_of_forall ?_ rfl
    rintro e he g rfl
    exact ⟨Trip.may_aside (hes e he) hquiet, fun y => Trip.next_aside (hes e he) y⟩
  refine hdone.mono ?_
  rintro g rfl
  exact hc

/-- Other things may be done before a request is answered. -/
theorem travels_finished {es : List Effect} {result : HandlerResult} {leg : Leg}
    (hes : ∀ e ∈ es, Aside e)
    (h : Trip.Answers x providers ⟨call, call.key x, leg⟩ (intoResponse result)) :
    Due.Travels x providers call ⟨es, .finished result⟩ leg := by
  have hdue : (⟨es, .finished result⟩ : Due) = Cue.after es ⟨[], .finished result⟩ := by
    rw [Cue.after, List.append_nil]
  rw [hdue]
  exact travels_after hes h.quiet h

theorem travels_retry (cands : List ProviderConfig) (lastError : Option String) :
    Due.Travels x providers call (retry lastError hd cands) (.choosing cands []) := by
  cases cands with
  | nil => exact travels_finished (by simp [Aside]) (Or.inl ⟨rfl, _, rfl⟩)
  | cons p rest => exact rfl

/-- A failure is recorded first. -/
theorem travels_giveUp {leg : Leg} (hmay : Trip.May ⟨call, call.key x, leg⟩ (.recordFailure p.name))
    (hmove : Trip.move providers ⟨call, call.key x, leg⟩ (.act (.recordFailure p.name) ())
      = .choosing rest []) (counted : Metric) (text : String) :
    Due.Travels x providers call (giveUp p counted text rest hd) leg := by
  refine ⟨hmay, fun _ => ?_⟩
  show Due.Travels x providers call (Cue.after [.metric counted] (retry _ hd rest))
    (Trip.move providers _ _)
  rw [hmove]
  exact travels_after (by simp [Aside]) rfl (travels_retry rest _)

theorem travels_choose (chosen todo : List ProviderConfig) :
    Due.Travels x providers call (call.choose hd chosen todo) (.choosing chosen todo) := by
  cases todo with
  | cons p todo => exact rfl
  | nil =>
      cases chosen with
      | nil => exact travels_finished (by simp [Aside]) (Or.inl ⟨rfl, _, rfl⟩)
      | cons p rest => exact rfl

/-- The bytes cannot be written if the text cannot. -/
theorem toVec_error {α : Type} {toString : α → Except String String} {a : α} {e : String}
    (h : Crates.toVec toString a = .error e) : toString a = .error e := by
  unfold Crates.toVec at h
  cases htext : toString a with
  | error e' =>
      rw [htext] at h
      cases h
      rfl
  | ok text =>
      rw [htext] at h
      cases h

/-- A payload that is not written cannot be, or was not there. -/
theorem unwritable_of_written {e : String} (hok : call.malformed = none)
    (h : call.written x = .error e) : call.Unwritable x := by
  cases call with
  | chat payload =>
      cases payload with
      | error e => cases hok
      | ok r => exact ⟨e, toVec_error h⟩
  | embeddings payload =>
      cases payload with
      | error e => cases hok
      | ok r => exact ⟨e, toVec_error h⟩

/-- A payload that cannot be written has no key. -/
theorem key_of_unwritten {e : String} (h : call.written x = .error e) : call.key x = none := by
  cases call with
  | embeddings payload => rfl
  | chat payload =>
      cases payload with
      | error e => rfl
      | ok r =>
          have htext := toVec_error (show Crates.toVec x.chatToString _ = .error e from h)
          show requestKey x r = none
          rw [requestKey, htext]

theorem travels_reserved (hok : call.malformed = none) :
    Due.Travels x st.sortedProviders call (call.reserved x st hd)
      (.reserve (call.key x) st.sortedProviders) := by
  cases hwritten : call.written x with
  | error e =>
      rw [reserved_unwritten hwritten]
      refine travels_finished (by simp [Aside]) ?_
      rw [key_of_unwritten hwritten]
      exact Or.inr ⟨rfl, unwritable_of_written hok hwritten, _, rfl⟩
  | ok body =>
      rw [reserved_written hwritten]
      cases call.key x with
      | none => exact travels_choose [] st.sortedProviders
      | some key => exact rfl

theorem travels_cached (text : String) :
    Due.Travels x providers call (call.cached hd text) (.hit text) := by
  have hes : ∀ e ∈ (call.cached hd text).todo, Aside e := aside_cached
  exact travels_finished hes rfl

/-- The stream a chat request is answered with relays what `p` sends. -/
theorem relays_chatStream {reservation : Option ReservationHandle} : Relays p
    { providerName := p.name
      idleTimeout := Duration.fromSecs (max p.streamIdleTimeoutSeconds.toNat 1)
      parser := .new
      ttftRecorded := false
      usageCharged := false
      onUsage := some { call := settleUsage p.name reservation
                        drop := dropReservation reservation }
      onError := some { call := fun _ => recordFailure p.name, drop := pure () } } where
  onUsage f hf := by
    obtain rfl := Option.some.inj hf
    exact ⟨fun tokens => (billing_settleUsage p.name reservation tokens).mono Billing.aside,
      (billing_dropReservation p.name reservation).mono Billing.aside⟩
  onError := rfl

theorem travels_answered (answer : Except String StatusCode) :
    Due.Travels x providers call (call.answered x p rest hd answer)
      (.answered p rest (call.receive answer)) := by
  unfold ApiCall.answered
  cases call.receive answer with
  | failed =>
      have hmay : Trip.May ⟨call, call.key x, .answered p rest .failed⟩ (.recordFailure p.name) :=
        rfl
      exact travels_giveUp hmay rfl _ _
  | rejected s =>
      refine ⟨rfl, fun _ => ?_⟩
      show Due.Travels x providers call ⟨[.metric _, .dropHandle hd], _⟩ (.rejected s)
      exact travels_finished (by simp [Aside]) rfl
  | usable =>
      refine ⟨rfl, fun _ => ?_⟩
      show Due.Travels x providers call
        (Cue.after [.metric _, .metric _] (if call.streams then _ else _))
        (if call.streams then .streaming p else .reading p rest)
      cases call.streams with
      | true =>
          refine travels_after (by simp [Aside]) rfl (travels_finished (by simp [Aside]) ?_)
          exact ⟨_, relays_chatStream, rfl⟩
      | false => exact travels_after (by simp [Aside]) rfl rfl

theorem travels_bodyLost :
    Due.Travels x providers call (call.bodyLost p rest hd) (.broken p rest) := by
  cases call with
  | chat payload =>
      have hmay : Trip.May ⟨.chat payload, (ApiCall.chat payload).key x, .broken p rest⟩
        (.recordFailure p.name) := rfl
      exact travels_giveUp hmay rfl _ _
  | embeddings payload =>
      refine ⟨rfl, fun _ => ?_⟩
      show Due.Travels x providers (.embeddings payload) ⟨[.metric _, .dropHandle hd], _⟩
        (.failed p)
      exact travels_finished (by simp [Aside]) rfl

theorem travels_bodyRead (body : List UInt8) :
    Due.Travels x providers call (call.bodyRead x p hd body) (.served p body) :=
  travels_finished (aside_bodyRead x call p hd body) rfl

/-- What is asked at a juncture leads to where the answer takes the request. -/
theorem travelled_upholds :
    (script x st identity call).Upholds (itinerary st.sortedProviders) (fun _ => True)
      (Juncture.Travelled x st.sortedProviders call) := by
  intro juncture g e _ hg hasks
  cases juncture with
  | admitted =>
      obtain rfl := hg
      obtain ⟨cost, hcost, rfl⟩ := hasks
      refine ⟨trivial, fun answer => ?_⟩
      cases answer with
      | error retryAfter =>
          have hanswer : Trip.Answers x st.sortedProviders ⟨call, call.key x, .refused retryAfter⟩
            (AppError.rateLimited retryAfter).intoResponse := rfl
          exact travels_finished (by simp [Aside]) hanswer
      | ok hd => exact travels_reserved (malformed_of_estimate hcost)
  | looking key hd =>
      obtain rfl := hg
      obtain rfl := hasks
      refine ⟨rfl, fun answer => ?_⟩
      cases answer with
      | none =>
          exact travels_after (by simp [Aside]) rfl (travels_choose [] st.sortedProviders)
      | some text => exact travels_cached text
  | choosing chosen p todo hd =>
      obtain rfl := hg
      obtain rfl := hasks
      refine ⟨by cases chosen <;> exact rfl, fun eligible => ?_⟩
      cases eligible with
      | true => exact travels_choose (chosen ++ [p]) todo
      | false => exact travels_choose chosen todo
  | trying p rest lastError hd =>
      obtain rfl := hg
      obtain rfl := hasks
      refine ⟨rfl, fun allowed => ?_⟩
      cases allowed with
      | true => exact rfl
      | false => exact travels_retry rest lastError
  | cleared p rest hd =>
      obtain rfl := hg
      obtain ⟨body, -, rfl⟩ := hasks
      exact ⟨rfl, fun answer => travels_answered answer⟩
  | reading p rest hd =>
      obtain rfl := hg
      obtain rfl := hasks
      refine ⟨rfl, fun answer => ?_⟩
      cases answer with
      | ok body => exact travels_bodyRead body
      | error e => exact travels_bodyLost
  | finished result => exact hasks.elim

theorem wp_handler_travels :
    (handler x st identity call).wp (itinerary st.sortedProviders) ⟨call, call.key x, .admitted⟩
      fun result g => g.Answers x st.sortedProviders (intoResponse result) := by
  refine wp_handler_upholds (fun juncture g e _ => travelled_upholds juncture g e trivial) ?_
  unfold ApiCall.opening
  cases he : call.malformed with
  | none => exact rfl
  | some e => exact ⟨e, he, rfl⟩

theorem wp_serve_travels (req : HttpRequest) :
    (serve x st req).wp (itinerary st.sortedProviders) (Trip.arrive x req)
      fun r g => g.Answers x st.sortedProviders r := by
  refine wp_serve_of (fun _ => rfl) (fun _ _ => trivial)
    (fun identity retryAfter _ => ⟨trivial, fun _ => rfl⟩) fun identity _ => wp_handler_travels

end Junctures

/-! ### Every request -/

section Bodies

variable {x : Crates} {providers : List ProviderConfig} {call : ApiCall} {key : Option String}
  {p : ProviderConfig} {s : BodyStream}

/-- What a body comes to with an item. -/
def Relayed (call : ApiCall) (key : Option String) (p : ProviderConfig) :
    Option BodyStream → Trip → Prop
  | some s, g => Relays p s ∧ g = ⟨call, key, .streaming p⟩
  | none, g => g = ⟨call, key, .closed⟩

theorem aside_drop (hs : ∀ f ∈ s.onUsage, f.Only Aside)
    (herror : ∀ f ∈ s.onError, f.drop = pure ()) : s.drop.Only Aside := by
  refine (BodyStream.only_closure hs).bind fun _ => ?_
  cases hf : s.onError with
  | none => exact trivial
  | some f =>
      show f.drop.Only Aside
      rw [herror f hf]
      exact trivial

theorem Relays.drop (hs : Relays p s) : s.drop.Only Aside := by
  refine aside_drop hs.onUsage ?_
  intro f hf
  rw [hs.onError] at hf
  obtain rfl := Option.some.inj hf
  rfl

/-- A body that breaks off records the failure before it tells the client. -/
theorem wp_breakOff_travels (hs : Relays p s) (message : String) :
    (s.reportError.bind fun s => (yield (.error message)).bind fun _ => s.drop.bind fun _ =>
      .ret (none : Option BodyStream)).wp (itinerary providers)
      ⟨call, key, .breaking p message⟩ (Relayed call key p) := by
  unfold BodyStream.reportError
  rw [hs.onError]
  refine ⟨rfl, fun _ => ⟨rfl, fun _ => ?_⟩⟩
  have hdrop : ({ s with onError := none } : BodyStream).drop.Only Aside :=
    aside_drop hs.onUsage (by simp)
  show Prog.wp (itinerary providers) ((BodyStream.drop _).bind _) ⟨call, key, .closed⟩ _
  refine Prog.wp_call (wp_beside hdrop.gives rfl) ?_
  rintro u g' ⟨-, rfl⟩
  exact rfl

theorem wp_resume_travels (hs : Relays p s) (item : StreamItem) :
    (s.resume x.fromStr item).wp (itinerary providers) ⟨call, key, .take p item⟩
      (Relayed call key p) := by
  cases item with
  | chunk bs =>
      unfold BodyStream.resume
      have hpushed : ∀ f ∈ ({ s with parser := (s.parser.push bs).2 } : BodyStream).onUsage,
          f.Only Aside := hs.onUsage
      refine Prog.wp_call
        (wp_beside (BodyStream.inspect_keeps trivial hpushed _) rfl) ?_
      rintro s' g' ⟨hs', rfl⟩
      exact ⟨rfl, fun _ => ⟨⟨hs'.onUsage, hs'.onError.trans hs.onError⟩, rfl⟩⟩
  | error e => exact wp_breakOff_travels hs e
  | idleTimeout => exact wp_breakOff_travels hs _
  | ended =>
      refine Prog.wp_call (wp_beside hs.drop.gives rfl) ?_
      rintro u g' ⟨-, rfl⟩
      exact rfl

/-- A request is answered with an error, with 502 only where no provider is left or a body has
broken off; or it is served. -/
theorem Trip.Answers.cases {g : Trip} {r : Response BodyStream} (h : g.Answers x providers r) :
    (∃ e : AppError, r = e.intoResponse ∧
      (e.status = 502 → g.leg = .choosing [] [] ∨ ∃ p, g.leg = .failed p)) ∨
    (∃ cached, g.leg = .hit cached ∧ r = cachedResponse cached) ∨
    (∃ p body, g.leg = .served p body ∧
      r = ⟨200, g.call.replyHeaders ++ [("x-provider", p.name)], .full (g.call.reply body)⟩) ∨
    ∃ p s, g.leg = .streaming p ∧ Relays p s ∧ r = (chatStream p none).withStream s := by
  obtain ⟨call, key, leg⟩ := g
  cases leg with
  | arrived => exact Or.inl ⟨_, h, by simp [AppError.status]⟩
  | admitted =>
      obtain ⟨e, -, rfl⟩ := h
      exact Or.inl ⟨_, rfl, by simp [AppError.fromJsonRejection, AppError.status]⟩
  | refused retryAfter => exact Or.inl ⟨_, h, by simp [AppError.status]⟩
  | hit cached => exact Or.inr (Or.inl ⟨cached, rfl, h⟩)
  | choosing chosen todo =>
      cases chosen with
      | nil =>
          obtain ⟨rfl, message, rfl⟩ | ⟨-, -, message, rfl⟩ := h
          · exact Or.inl ⟨_, rfl, fun _ => Or.inl rfl⟩
          · exact Or.inl ⟨_, rfl, by simp [AppError.status]⟩
      | cons p rest => exact h.elim
  | rejected s => exact Or.inl ⟨_, h, by simp [AppError.status]⟩
  | failed p => exact Or.inl ⟨_, h, fun _ => Or.inr ⟨p, rfl⟩⟩
  | served p body =>
      have hr : r = intoResponse
        (providerResponse call.replyHeaders p.name (call.reply body)) := h
      unfold providerResponse at hr
      by_cases hvalue : headerValueOk p.name = true
      · rw [if_pos hvalue] at hr
        exact Or.inr (Or.inr (Or.inl ⟨p, body, rfl, hr⟩))
      · rw [if_neg hvalue] at hr
        exact Or.inl ⟨_, hr, by simp [AppError.status]⟩
  | streaming p =>
      obtain ⟨s, hs, hr⟩ := h
      exact Or.inr (Or.inr (Or.inr ⟨p, s, rfl, hs, hr⟩))
  | _ => exact h.elim

/-- Only a stream is answered with a streaming body. -/
theorem Trip.Answers.stream {g : Trip} {r : Response BodyStream} (h : g.Answers x providers r)
    (hbody : r.body = .stream s) :
    ∃ p, g.leg = .streaming p ∧ Relays p s ∧ r = (chatStream p none).withStream s := by
  obtain ⟨e, rfl, -⟩ | ⟨cached, -, rfl⟩ | ⟨p, body, -, rfl⟩ | ⟨p, s', hleg, hs', rfl⟩ := h.cases
  · cases hbody
  · cases hbody
  · cases hbody
  · obtain rfl := Body.stream.inj hbody
    exact ⟨p, hleg, hs', rfl⟩

/-- Only a stream is polled. -/
theorem Trip.streaming_of_poll {g : Trip} {i : Idle} {item : StreamItem} {q : Gateway Idle}
    (h : Trip.Rests x providers i g) (hpoll : pollBody x i item = some q) :
    ∃ p, g.leg = .streaming p := by
  cases i with
  | closed => cases hpoll
  | responded r =>
      simp only [pollBody] at hpoll
      cases hbody : r.body with
      | full bytes => simp [hbody] at hpoll
      | stream s =>
          obtain ⟨p, hleg, -, -⟩ := Trip.Answers.stream h hbody
          exact ⟨p, hleg⟩

theorem wp_abort_travels {g : Trip} {owned : Option ReservationHandle} (hg : g.leg = .closed) :
    (dropReservation owned).wp (itinerary providers) g
      fun _ g' => Trip.Rests x providers .closed g' := by
  have hdrop := (billing_dropReservation "all" owned).mono Billing.aside
  refine Prog.wp_mono (wp_beside hdrop.gives (by rw [hg]; rfl)) ?_
  rintro u g' ⟨-, rfl⟩
  exact hg

end Bodies

theorem gateway_travels_closed {x : Crates} {st : AppState} :
    (gateway x st).toKernel.Closed (itinerary st.sortedProviders)
      (Trip.Rests x st.sortedProviders) := by
  refine closed_of ?_ ?_ (fun a owned g _ => wp_abort_travels rfl)
    (fun a owned g y _ => wp_abort_travels rfl)
  · rintro r s item ⟨call, key, leg⟩ hg hbody
    obtain ⟨p, rfl, hs, rfl⟩ := Trip.Answers.stream hg hbody
    refine Prog.wp_mono (wp_resume_travels hs item) fun s' g' hrelayed => ?_
    cases s' with
    | none =>
        obtain rfl : g' = _ := hrelayed
        exact rfl
    | some s' =>
        obtain ⟨hs', rfl⟩ := hrelayed
        exact ⟨s', hs', rfl⟩
  · intro r s g hg hbody
    obtain ⟨p, -, hs, -⟩ := Trip.Answers.stream hg hbody
    refine Prog.wp_mono (wp_beside hs.drop.gives rfl) ?_
    rintro u g' ⟨-, rfl⟩
    exact rfl

/-- Every request keeps to its itinerary, whatever it is answered and wherever it is dropped. -/
theorem gateway_travels {x : Crates} {st : AppState} :
    (gateway x st).Disciplined (itinerary st.sortedProviders) (Trip.arrive x)
      (Trip.Rests x st.sortedProviders) where
  toClosed := gateway_travels_closed
  start req := by
    show Prog.wp _ ((serve x st req).bind _) _ _
    exact Prog.wp_call (wp_serve_travels req) fun _ _ h => h

section Runs

variable {x : Crates} {st : AppState} {start : Instant} {p : Gateway.State} {i : Nat}
  {r : HttpRequest} {t : Task gatewaySig Idle}

/-- **Every request travels**: its moves are a path of the machine, to where it may do what it
is about to do, and is answered what it has been answered. -/
theorem Gateway.Reachable.travels (h : Gateway.Reachable x st start p)
    (ht : p.tasks[i]? = some (r, t)) :
    ∃ leg, Leg.Path st.sortedProviders r.call (r.call.key x) (p.movesOf i) leg ∧
      Kernel.Follows (itinerary st.sortedProviders) (Trip.Rests x st.sortedProviders) t
        ⟨r.call, r.call.key x, leg⟩ := by
  have hlocal := (Machine.Reaches.local rfl rfl h).2 i r t ht
  have htravels : (gateway x st).Disciplined _ _ _ := gateway_travels
  have hstart : Kernel.Follows (itinerary st.sortedProviders) (Trip.Rests x st.sortedProviders)
      (Task.ofProg ((gateway x st).start r)) (Trip.arrive x r) :=
    Kernel.follows_ofProg (gateway_travels.start r)
  have hpath := hlocal.keeps htravels.toClosed (J := fun g ms =>
      g.call = r.call ∧ g.key = r.call.key x ∧
        Leg.Path st.sortedProviders r.call (r.call.key x) ms g.leg) ?_ ?_ ?_ hstart
      ⟨rfl, rfl, .arrived⟩
  · obtain ⟨hcall, hkey, hpath⟩ := hpath
    refine ⟨_, hpath, ?_⟩
    rw [← hkey, ← hcall]
    exact (hlocal.follows htravels.toClosed hstart).2
  · rintro g ms e y ⟨hcall, hkey, hpath⟩ hmay
    have hstep : Leg.Step st.sortedProviders _ _ _ _ _ := Trip.step_of_may hmay y
    rw [hcall, hkey] at hstep
    exact ⟨hcall, hkey, hpath.snoc hstep⟩
  · rintro g ms idle item q ⟨hcall, hkey, hpath⟩ hrests hpoll
    obtain ⟨call, key, leg⟩ := g
    obtain ⟨p, rfl⟩ := Trip.streaming_of_poll hrests hpoll
    exact ⟨hcall, hkey, hpath.snoc (.poll p item)⟩
  · rintro g ms ⟨hcall, hkey, hpath⟩
    exact ⟨hcall, hkey, hpath.snoc (.drop g.leg)⟩

/-- A response is what is answered where its request is. -/
theorem Gateway.Reachable.answers (h : Gateway.Reachable x st start p)
    (ht : p.tasks[i]? = some (r, t)) {resp : Response BodyStream}
    (hresp : t.prog = .ret (.responded resp)) :
    ∃ leg, Leg.Path st.sortedProviders r.call (r.call.key x) (p.movesOf i) leg ∧
      Trip.Answers x st.sortedProviders ⟨r.call, r.call.key x, leg⟩ resp := by
  obtain ⟨leg, hpath, hfollows⟩ := h.travels ht
  have hanswers := hfollows.1
  rw [hresp] at hanswers
  exact ⟨leg, hpath, hanswers⟩

/--
**The gateway refines the itinerary.**  At any time, whatever the other requests do: the moves a
request has made are a path of the abstract machine to some leg; whatever it does next is a step
from there, whichever answer it gets; and if it has been answered, this is the answer of that
leg.
-/
theorem follows_itinerary (h : Gateway.Reachable x st start p)
    (ht : p.tasks[i]? = some (r, t)) :
    ∃ leg, Leg.Path st.sortedProviders r.call (r.call.key x) (p.movesOf i) leg ∧
      (∀ e k, t.prog = .op e k → ∀ y, ∃ leg',
        Leg.Step st.sortedProviders r.call (r.call.key x) leg (.act e y) leg') ∧
      (∀ resp, t.prog = .ret (.responded resp) →
        Trip.Answers x st.sortedProviders ⟨r.call, r.call.key x, leg⟩ resp) ∧
      (t.prog = .ret .closed → leg = .closed) := by
  obtain ⟨leg, hpath, hprog, -⟩ := h.travels ht
  refine ⟨leg, hpath, ?_, ?_, ?_⟩
  · intro e k hop y
    rw [hop] at hprog
    exact ⟨_, Trip.step_of_may hprog.1 y⟩
  · intro resp hresp
    rw [hresp] at hprog
    exact hprog
  · intro hclosed
    rw [hclosed] at hprog
    exact hprog

/-- The second of two requests ends where its path leads. -/
theorem follows_itinerary_repeat : ∃ r t leg resp, repeatRun.tasks[1]? = some (r, t) ∧
    t.prog = .ret (.responded resp) ∧
      Leg.Path repeatGateway.sortedProviders r.call (r.call.key repeatCrates)
        (repeatRun.movesOf 1) leg ∧
      Trip.Answers repeatCrates repeatGateway.sortedProviders
        ⟨r.call, r.call.key repeatCrates, leg⟩ resp := by
  have hresponse : (repeatRun.tasks[1]?.bind fun t => responseOf t.2).isSome = true := by
    decide +kernel
  obtain ⟨resp, hsome⟩ := Option.isSome_iff_exists.mp hresponse
  obtain ⟨⟨r, t⟩, ht, hresp⟩ := Option.bind_eq_some_iff.mp hsome
  obtain ⟨leg, hpath, -, hanswers, -⟩ :=
    follows_itinerary (Gateway.replay_reachable _ _ _) ht
  exact ⟨r, t, leg, resp, ht, responseOf_some hresp, hpath, hanswers resp (responseOf_some hresp)⟩

end Runs

end LlmGateway
