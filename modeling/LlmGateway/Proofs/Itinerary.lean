/-
The itinerary of a request.

`Leg` is where a request is on its way through the gateway, `Leg.Step` how it moves on, and
`Trip.Answers` what it is answered where it is.  There are no programs in this: the selection,
the failover loops and the streaming body have become two lists of providers, those chosen and
those not yet looked at.  What settles a request, the metrics and the filling of the cache do
not show.

`Trip.May` and `Trip.move` are the same machine as a protocol.  Both handlers are gone through
once, to show that they keep it; from then on `Gateway.Reachable.travels` says that the moves
of every request are a path of the machine, and what the later modules say of requests they
show by induction on that path.
-/
import LlmGateway.Proofs.Mediation
import LlmGateway.Proofs.Failover

namespace LlmGateway

open Effects

/-! ### Legs -/

/-- Where a request is. -/
inductive Leg
  | arrived
  | admitted
  | refused (retryAfter : Nat)
  /-- It has a reservation, and a cache key. -/
  | looking (key : String)
  | hit (cached : String)
  /-- Some providers are chosen, in order, and some have yet to be looked at. -/
  | choosing (chosen todo : List ProviderConfig)
  /-- `p` has let it through. -/
  | cleared (p : ProviderConfig) (rest : List ProviderConfig)
  | answered (p : ProviderConfig) (rest : List ProviderConfig) (reception : Reception)
  | rejected (s : StatusCode)
  | reading (p : ProviderConfig) (rest : List ProviderConfig)
  /-- The body of `p` broke off. -/
  | broken (p : ProviderConfig) (rest : List ProviderConfig)
  | failed (p : ProviderConfig)
  | served (p : ProviderConfig) (body : List UInt8)
  | streaming (p : ProviderConfig)
  /-- The stream of `p` broke off. -/
  | breaking (p : ProviderConfig) (message : String)
  | relaying (p : ProviderConfig) (item : Except String (List UInt8))
  | closed

namespace Leg

/-- The next provider is found eligible or not. -/
def choose (chosen : List ProviderConfig) : List ProviderConfig → Bool → Leg
  | p :: todo, true => .choosing (chosen ++ [p]) todo
  | todo, _ => .choosing chosen todo.tail

/-- The next chosen provider lets the request through or not. -/
def ask : List ProviderConfig → Bool → Leg
  | p :: rest, true => .cleared p rest
  | chosen, _ => .choosing chosen.tail []

/-- A reservation is made; a request with a key looks it up first. -/
def reserve (key : Option String) (providers : List ProviderConfig) : Leg :=
  match key with
  | some key => .looking key
  | none => .choosing [] providers

/-- A success is recorded. -/
def succeed (call : ApiCall) (p : ProviderConfig) (rest : List ProviderConfig) : Reception → Leg
  | .rejected s => .rejected s
  | _ => if call.streams then .streaming p else .reading p rest

/-- The failure of a body is recorded: a chat request goes on, an embedding request does not. -/
def giveUp (call : ApiCall) (p : ProviderConfig) (rest : List ProviderConfig) : Leg :=
  match call with
  | .chat _ => .choosing rest []
  | .embeddings _ => .failed p

/-- An item of the stream. -/
def take (p : ProviderConfig) : StreamItem → Leg
  | .chunk bs => .relaying p (.ok bs)
  | .error e => .breaking p e
  | .idleTimeout => .breaking p "stream idle timeout exceeded"
  | .ended => .closed

/-- The item has been handed to the client. -/
def relayed (p : ProviderConfig) : Except String (List UInt8) → Leg
  | .ok _ => .streaming p
  | .error _ => .closed

/-- How a request moves on. -/
inductive Step (providers : List ProviderConfig) (call : ApiCall) (key : Option String) :
    Leg → GatewayMove → Leg → Prop
  | aside {leg : Leg} {e : Effect} (h : Aside e) (y : e.Answer) :
      Step providers call key leg (.act e y) leg
  | enter (client : String) (cost : ℚ) :
      Step providers call key .arrived (.act (.rpmTryConsume client cost) (.ok ())) .admitted
  | limit (client : String) (cost : ℚ) (retryAfter : Nat) :
      Step providers call key .arrived (.act (.rpmTryConsume client cost) (.error retryAfter))
        (.refused retryAfter)
  | reserve (client : String) (cost : ℚ) (hd : ReservationHandle) :
      Step providers call key .admitted (.act (.tryReserveTpm client cost) (.ok hd))
        (.reserve key providers)
  | refuse (client : String) (cost : ℚ) (retryAfter : Nat) :
      Step providers call key .admitted (.act (.tryReserveTpm client cost) (.error retryAfter))
        (.refused retryAfter)
  | hit (k cached : String) (owned : Option ReservationHandle) :
      Step providers call key (.looking k) (.act (.await (.cacheGet k) owned) (some cached))
        (.hit cached)
  | miss (k : String) (owned : Option ReservationHandle) :
      Step providers call key (.looking k) (.act (.await (.cacheGet k) owned) none)
        (.choosing [] providers)
  | eligible (chosen : List ProviderConfig) (p : ProviderConfig) (todo : List ProviderConfig) :
      Step providers call key (.choosing chosen (p :: todo)) (.act (.isEligible p.name) true)
        (.choosing (chosen ++ [p]) todo)
  | ineligible (chosen : List ProviderConfig) (p : ProviderConfig) (todo : List ProviderConfig) :
      Step providers call key (.choosing chosen (p :: todo)) (.act (.isEligible p.name) false)
        (.choosing chosen todo)
  | clear (p : ProviderConfig) (rest : List ProviderConfig) :
      Step providers call key (.choosing (p :: rest) []) (.act (.allowRequest p.name) true)
        (.cleared p rest)
  | turnAway (p : ProviderConfig) (rest : List ProviderConfig) :
      Step providers call key (.choosing (p :: rest) []) (.act (.allowRequest p.name) false)
        (.choosing rest [])
  | send (p : ProviderConfig) (rest : List ProviderConfig) (out : OutboundRequest)
      (owned : Option ReservationHandle) (answer : Except String StatusCode) :
      Step providers call key (.cleared p rest) (.act (.await (.send p.name out) owned) answer)
        (.answered p rest (call.receive answer))
  | fail (p : ProviderConfig) (rest : List ProviderConfig) :
      Step providers call key (.answered p rest .failed) (.act (.recordFailure p.name) ())
        (.choosing rest [])
  | reject (p : ProviderConfig) (rest : List ProviderConfig) (s : StatusCode) :
      Step providers call key (.answered p rest (.rejected s)) (.act (.recordSuccess p.name) ())
        (.rejected s)
  | begin (p : ProviderConfig) (rest : List ProviderConfig) :
      Step providers call key (.answered p rest .usable) (.act (.recordSuccess p.name) ())
        (if call.streams then .streaming p else .reading p rest)
  | read (p : ProviderConfig) (rest : List ProviderConfig) (owned : Option ReservationHandle)
      (body : List UInt8) :
      Step providers call key (.reading p rest) (.act (.await (.bytes p.name) owned) (.ok body))
        (.served p body)
  | breakOff (p : ProviderConfig) (rest : List ProviderConfig)
      (owned : Option ReservationHandle) (e : String) :
      Step providers call key (.reading p rest) (.act (.await (.bytes p.name) owned) (.error e))
        (.broken p rest)
  | giveUp (p : ProviderConfig) (rest : List ProviderConfig) :
      Step providers call key (.broken p rest) (.act (.recordFailure p.name) ())
        (.giveUp call p rest)
  | poll (p : ProviderConfig) (item : StreamItem) :
      Step providers call key (.streaming p) (.poll item) (.take p item)
  | record (p : ProviderConfig) (message : String) :
      Step providers call key (.breaking p message) (.act (.recordFailure p.name) ())
        (.relaying p (.error message))
  | yield (p : ProviderConfig) (item : Except String (List UInt8)) :
      Step providers call key (.relaying p item) (.act (.yield item) ()) (.relayed p item)
  | drop (leg : Leg) : Step providers call key leg .drop .closed

/-- The moves that take a request from its arrival to where it is. -/
inductive Path (providers : List ProviderConfig) (call : ApiCall) (key : Option String) :
    List GatewayMove → Leg → Prop
  | arrived : Path providers call key [] .arrived
  | snoc {ms : List GatewayMove} {m : GatewayMove} {leg leg' : Leg}
      (h : Path providers call key ms leg) (hstep : Step providers call key leg m leg') :
      Path providers call key (ms ++ [m]) leg'

end Leg

/-- A call, its key, and where it is. -/
structure Trip where
  call : ApiCall
  key : Option String
  leg : Leg

namespace Trip

/-- A request that has arrived. -/
def arrive (x : Crates) (r : HttpRequest) : Trip := ⟨r.call, r.call.key x, .arrived⟩

/-- Where an answer, or a poll or drop, takes a request. -/
def move (providers : List ProviderConfig) (g : Trip) (m : GatewayMove) : Leg :=
  match g.leg, m with
  | _, .drop => .closed
  | .streaming p, .poll item => .take p item
  | .arrived, .act (.rpmTryConsume _ _) (.ok _) => .admitted
  | .arrived, .act (.rpmTryConsume _ _) (.error r) => .refused r
  | .admitted, .act (.tryReserveTpm _ _) (.ok _) => .reserve g.key providers
  | .admitted, .act (.tryReserveTpm _ _) (.error r) => .refused r
  | .looking _, .act (.await (.cacheGet _) _) (some cached) => .hit cached
  | .looking _, .act (.await (.cacheGet _) _) none => .choosing [] providers
  | .choosing chosen todo, .act (.isEligible _) eligible => .choose chosen todo eligible
  | .choosing chosen _, .act (.allowRequest _) allowed => .ask chosen allowed
  | .cleared p rest, .act (.await (.send _ _) _) answer =>
      .answered p rest (g.call.receive answer)
  | .answered _ rest _, .act (.recordFailure _) _ => .choosing rest []
  | .answered p rest reception, .act (.recordSuccess _) _ => .succeed g.call p rest reception
  | .reading p _, .act (.await (.bytes _) _) (.ok body) => .served p body
  | .reading p rest, .act (.await (.bytes _) _) (.error _) => .broken p rest
  | .broken p rest, .act (.recordFailure _) _ => .giveUp g.call p rest
  | .breaking p message, .act (.recordFailure _) _ => .relaying p (.error message)
  | .relaying p item, .act (.yield _) _ => .relayed p item
  | leg, _ => leg

/-- A move takes the request to its next leg. -/
def next (providers : List ProviderConfig) (g : Trip) (m : GatewayMove) : Trip :=
  { g with leg := g.move providers m }

/-- What a request may do where it is, apart from what does not show. -/
def May (g : Trip) (e : Effect) : Prop :=
  match g.leg, e with
  | .arrived, .rpmTryConsume _ _ => True
  | .admitted, .tryReserveTpm _ _ => True
  | .looking key, .await (.cacheGet k) _ => k = key
  | .choosing _ (p :: _), .isEligible name => name = p.name
  | .choosing (p :: _) [], .allowRequest name => name = p.name
  | .cleared p _, .await (.send name _) _ => name = p.name
  | .answered p _ .failed, .recordFailure name => name = p.name
  | .answered p _ (.rejected _), .recordSuccess name => name = p.name
  | .answered p _ .usable, .recordSuccess name => name = p.name
  | .reading p _, .await (.bytes name) _ => name = p.name
  | .broken p _, .recordFailure name => name = p.name
  | .breaking p _, .recordFailure name => name = p.name
  | .relaying _ item, .yield i => i = item
  -- nothing may come in between
  | .cleared _ _, _ => False
  | .answered _ _ _, _ => False
  | .broken _ _, _ => False
  | .breaking _ _, _ => False
  | _, e => Aside e

end Trip

/-- A streaming body that records a failure of `p` when it breaks off. -/
structure Relays (p : ProviderConfig) (s : BodyStream) : Prop where
  onUsage : ∀ f ∈ s.onUsage, f.Only Aside
  onError : s.onError = some { call := fun _ => recordFailure p.name, drop := pure () }

/-- What a request is answered where it is: an upstream error where no provider is left, an
internal error where its payload cannot be written. -/
def Trip.Answers (x : Crates) (providers : List ProviderConfig) (g : Trip)
    (r : Response BodyStream) : Prop :=
  match g.leg with
  | .arrived => r = AppError.unauthorized.intoResponse
  | .admitted => ∃ e, g.call.malformed = some e ∧ r = (AppError.fromJsonRejection e).intoResponse
  | .refused retryAfter => r = (AppError.rateLimited retryAfter).intoResponse
  | .hit cached => r = cachedResponse cached
  | .choosing [] todo =>
      (todo = [] ∧ ∃ message, r = (AppError.upstream message).intoResponse) ∨
        (todo = providers ∧ g.call.Unwritable x ∧
          ∃ message, r = (AppError.internal message).intoResponse)
  | .rejected s => r = (AppError.badRequest (rejectedText x s)).intoResponse
  | .failed p => r = (AppError.upstream (p.name ++ ": body read error")).intoResponse
  | .served p body =>
      r = intoResponse (providerResponse g.call.replyHeaders p.name (g.call.reply body))
  | .streaming p => ∃ s, Relays p s ∧ r = (chatStream p none).withStream s
  | _ => False

/-- Between two polls. -/
def Trip.Rests (x : Crates) (providers : List ProviderConfig) : Idle → Trip → Prop
  | .responded r, g => g.Answers x providers r
  | .closed, g => g.leg = .closed

/-- The itinerary over these providers. -/
def itinerary (providers : List ProviderConfig) : Protocol gatewaySig StreamItem Trip where
  ok := Trip.May
  next := Trip.next providers

/-! ### What does not show -/

/-- Other things than the next move may be done here. -/
def Leg.isQuiet : Leg → Bool
  | .cleared _ _ => false
  | .answered _ _ _ => false
  | .broken _ _ => false
  | .breaking _ _ => false
  | _ => true

section Aside

variable {providers : List ProviderConfig} {g : Trip} {e : Effect}

/-- A cache insert, a metric, and what settles the reservation. -/
theorem Aside.cases (h : Aside e) :
    (∃ k v owned, e = .await (.cacheInsert k v) owned) ∨ (∃ m, e = .metric m) ∨
      (∃ hd cost, e = .reconcile hd cost) ∨ ∃ hd, e = .dropHandle hd := by
  cases e with
  | await a owned =>
      cases a with
      | cacheInsert k v => exact Or.inl ⟨k, v, owned, rfl⟩
      | _ => exact h.elim
  | metric m => exact Or.inr (Or.inl ⟨m, rfl⟩)
  | reconcile hd cost => exact Or.inr (Or.inr (Or.inl ⟨hd, cost, rfl⟩))
  | dropHandle hd => exact Or.inr (Or.inr (Or.inr ⟨hd, rfl⟩))
  | _ => exact h.elim

theorem Trip.next_aside (h : Aside e) (y : e.Answer) : g.next providers (.act e y) = g := by
  obtain ⟨call, key, leg⟩ := g
  obtain ⟨k, v, owned, rfl⟩ | ⟨m, rfl⟩ | ⟨hd, cost, rfl⟩ | ⟨hd, rfl⟩ := h.cases <;>
    cases leg <;> rfl

theorem Trip.step_aside (h : Aside e) (y : e.Answer) :
    Leg.Step providers g.call g.key g.leg (.act e y) (g.move providers (.act e y)) := by
  rw [show g.move providers (.act e y) = g.leg from congrArg Trip.leg (Trip.next_aside h y)]
  exact .aside h y

/-- What the protocol allows is a step of the machine. -/
theorem Trip.step_of_may (h : g.May e) (y : e.Answer) :
    Leg.Step providers g.call g.key g.leg (.act e y) (g.move providers (.act e y)) := by
  obtain ⟨call, key, leg⟩ := g
  cases leg with
  | arrived =>
      cases e with
      | rpmTryConsume client cost =>
          cases y with
          | error retryAfter => exact .limit client cost retryAfter
          | ok u => exact .enter client cost
      | _ => exact Trip.step_aside (by exact h) y
  | admitted =>
      cases e with
      | tryReserveTpm client cost =>
          cases y with
          | error retryAfter => exact .refuse client cost retryAfter
          | ok hd => exact .reserve client cost hd
      | _ => exact Trip.step_aside (by exact h) y
  | looking k =>
      cases e with
      | await a owned =>
          cases a with
          | cacheGet k' =>
              obtain rfl : k' = k := h
              cases y with
              | none => exact .miss k' owned
              | some cached => exact .hit k' cached owned
          | _ => exact Trip.step_aside (by exact h) y
      | _ => exact Trip.step_aside (by exact h) y
  | choosing chosen todo =>
      cases todo with
      | nil =>
          cases chosen with
          | nil => exact Trip.step_aside (by exact h) y
          | cons p rest =>
              cases e with
              | allowRequest name =>
                  obtain rfl : name = p.name := h
                  cases y with
                  | false => exact .turnAway p rest
                  | true => exact .clear p rest
              | _ => exact Trip.step_aside (by exact h) y
      | cons p todo =>
          cases e with
          | isEligible name =>
              obtain rfl : name = p.name := by cases chosen <;> exact h
              cases y with
              | false => exact .ineligible chosen p todo
              | true => exact .eligible chosen p todo
          | _ =>
              refine Trip.step_aside ?_ y
              cases chosen <;> exact h
  | cleared p rest =>
      cases e with
      | await a owned =>
          cases a with
          | send name out =>
              obtain rfl : name = p.name := h
              exact .send p rest out owned y
          | _ => exact h.elim
      | _ => exact h.elim
  | answered p rest reception =>
      cases reception with
      | failed =>
          cases e with
          | recordFailure name =>
              obtain rfl : name = p.name := h
              exact .fail p rest
          | _ => exact h.elim
      | rejected s =>
          cases e with
          | recordSuccess name =>
              obtain rfl : name = p.name := h
              exact .reject p rest s
          | _ => exact h.elim
      | usable =>
          cases e with
          | recordSuccess name =>
              obtain rfl : name = p.name := h
              exact .begin p rest
          | _ => exact h.elim
  | reading p rest =>
      cases e with
      | await a owned =>
          cases a with
          | bytes name =>
              obtain rfl : name = p.name := h
              cases y with
              | error e => exact .breakOff p rest owned e
              | ok body => exact .read p rest owned body
          | _ => exact Trip.step_aside (by exact h) y
      | _ => exact Trip.step_aside (by exact h) y
  | broken p rest =>
      cases e with
      | recordFailure name =>
          obtain rfl : name = p.name := h
          exact .giveUp p rest
      | _ => exact h.elim
  | breaking p message =>
      cases e with
      | recordFailure name =>
          obtain rfl : name = p.name := h
          exact .record p message
      | _ => exact h.elim
  | relaying p item =>
      cases e with
      | yield i =>
          obtain rfl : i = item := h
          exact .yield p i
      | _ => exact Trip.step_aside (by exact h) y
  | _ => exact Trip.step_aside (by exact h) y

theorem Trip.may_aside (h : Aside e) (hquiet : g.leg.isQuiet = true) : g.May e := by
  obtain ⟨call, key, leg⟩ := g
  cases leg with
  | choosing chosen todo =>
      obtain ⟨k, v, owned, rfl⟩ | ⟨m, rfl⟩ | ⟨hd, cost, rfl⟩ | ⟨hd, rfl⟩ := h.cases <;>
        cases chosen <;> cases todo <;> exact trivial
  | cleared p rest => cases hquiet
  | answered p rest reception => cases hquiet
  | broken p rest => cases hquiet
  | breaking p message => cases hquiet
  | _ =>
      obtain ⟨k, v, owned, rfl⟩ | ⟨m, rfl⟩ | ⟨hd, cost, rfl⟩ | ⟨hd, rfl⟩ := h.cases <;>
        exact trivial

end Aside

/-! ### Whom a request is sent to -/

/-- Whom a move sends the request to. -/
def contactOf (m : GatewayMove) : Option String := (sendOf m).map Prod.fst

/-- The providers a request was sent to. -/
def contacts (ms : List GatewayMove) : List String := ms.filterMap contactOf

/-- The providers a request may yet be sent to. -/
def Leg.ahead (providers : List ProviderConfig) : Leg → List ProviderConfig
  | .arrived => providers
  | .admitted => providers
  | .looking _ => providers
  | .choosing chosen todo => chosen ++ todo
  | .cleared p rest => p :: rest
  | .answered _ rest _ => rest
  | .reading _ rest => rest
  | .broken _ rest => rest
  | _ => []

section Order

variable {providers : List ProviderConfig} {call : ApiCall} {key : Option String}
  {leg leg' : Leg} {m : GatewayMove} {ms : List GatewayMove} {e : Effect}

theorem contactOf_aside (h : Aside e) (y : e.Answer) : contactOf (.act e y) = none := by
  obtain ⟨k, v, owned, rfl⟩ | ⟨m, rfl⟩ | ⟨hd, cost, rfl⟩ | ⟨hd, rfl⟩ := h.cases <;> rfl

theorem contacts_snoc (ms : List GatewayMove) (m : GatewayMove) :
    contacts (ms ++ [m]) = contacts ms ++ (contactOf m).toList := by
  unfold contacts
  rw [List.filterMap_append]
  congr 1

/-- A step contacts the first of those ahead, or passes some over. -/
theorem Leg.Step.ahead (h : Step providers call key leg m leg') :
    ((contactOf m).toList ++ (leg'.ahead providers).map (·.name)).Sublist
      ((leg.ahead providers).map (·.name)) := by
  cases h with
  | aside he y =>
      rw [contactOf_aside he y]
      exact List.Sublist.refl _
  | reserve client cost hd =>
      cases key with
      | none => exact List.Sublist.refl _
      | some k => exact List.Sublist.refl _
  | eligible chosen p todo => simp [Leg.ahead, contactOf, sendOf]
  | ineligible chosen p todo =>
      exact ((List.sublist_cons_self p todo).append_left chosen).map _
  | clear p rest => simp [Leg.ahead, contactOf, sendOf]
  | turnAway p rest => simp [Leg.ahead, contactOf, sendOf]
  | fail p rest => simp [Leg.ahead, contactOf, sendOf]
  | begin p rest =>
      cases hs : call.streams with
      | true => exact List.nil_sublist _
      | false => exact List.Sublist.refl _
  | giveUp p rest =>
      cases call with
      | chat payload => simp [Leg.ahead, Leg.giveUp, contactOf, sendOf]
      | embeddings payload => exact List.nil_sublist _
  | poll p item => cases item <;> exact List.nil_sublist _
  | yield p item => cases item <;> exact List.nil_sublist _
  | send p rest out owned answer => exact List.Sublist.refl _
  | enter client cost => exact List.Sublist.refl _
  | miss k owned => exact List.Sublist.refl _
  | breakOff p rest owned e => exact List.Sublist.refl _
  | _ => exact List.nil_sublist _

/-- **A request is sent to providers in the configured order, to each entry at most once**; those
ahead of it come after. -/
theorem Leg.Path.order (h : Path providers call key ms leg) :
    (contacts ms ++ (leg.ahead providers).map (·.name)).Sublist (providers.map (·.name)) := by
  induction h with
  | arrived => exact List.Sublist.refl _
  | @snoc ms m leg leg' _ hstep ih =>
      rw [contacts_snoc, List.append_assoc]
      exact (hstep.ahead.append_left (contacts ms)).trans ih

/-- A request is only sent to a provider that has let it through. -/
theorem Leg.Step.cleared {name : String} {out : OutboundRequest}
    {owned : Option ReservationHandle} {answer : Except String StatusCode}
    (h : Step providers call key leg (.act (.await (.send name out) owned) answer) leg') :
    ∃ p rest, leg = .cleared p rest ∧ p.name = name := by
  cases h with
  | aside he => exact he.elim
  | send p rest out owned answer => exact ⟨p, rest, rfl, rfl⟩

theorem Trip.May.cleared {g : Trip} {name : String} {out : OutboundRequest}
    {owned : Option ReservationHandle} (h : g.May (.await (.send name out) owned)) :
    ∃ p rest, g.leg = .cleared p rest ∧ p.name = name := by
  have hstep : Leg.Step [] g.call g.key g.leg _ _ := Trip.step_of_may h (.error "")
  exact hstep.cleared

/-- Every move of a path is a step from where the moves before it lead. -/
theorem Leg.Path.split {m : GatewayMove} {after : List GatewayMove}
    (h : Path providers call key (ms ++ m :: after) leg) :
    ∃ leg₁ leg₂, Path providers call key ms leg₁ ∧ Step providers call key leg₁ m leg₂ := by
  generalize hns : ms ++ m :: after = ns at h
  induction h generalizing after with
  | arrived => exact absurd hns (by simp)
  | @snoc ns m' leg leg' h hstep ih =>
      rcases List.eq_nil_or_concat after with rfl | ⟨after', last, rfl⟩
      · obtain ⟨rfl, hm⟩ := List.append_inj' hns rfl
        obtain rfl := List.singleton_inj.mp hm
        exact ⟨leg, leg', h, hstep⟩
      · have hsplit : (ms ++ m :: after') ++ [last] = ns ++ [m'] := by
          rw [← hns]
          simp
        exact ih (List.append_inj' hsplit rfl).1

end Order

end LlmGateway
