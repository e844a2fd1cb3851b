/-
Which providers a chat request is sent to, and when it gives up.

A `Trail` is what the moves of a request say about its failover: the contacts, each with
the move right before it and all the moves up to the next one, and what the breakers
answered when providers were selected and when they were asked again.  `FailoverLaw` is
stated of trails and speaks of no loop.

The trail is also the ghost the handler is run with.  `Steered` is what a handler must
look at before each operation: a send needs its permission right before it, and all
contacts so far must have failed over; after a send the answer must be recorded first.
`Steers` is the trail of a chat request at each juncture of its script: `Selecting` while
candidates are chosen, `Between` two of them, and `Contacting` one.
-/
import LlmGateway.Lib.Runs
import LlmGateway.Proofs.World

namespace LlmGateway

open Effects

/-! ### The configured order -/

/-- The same providers by ascending priority, those of one priority as they were. -/
structure SortedByPriority (configured sorted : List ProviderConfig) : Prop where
  perm : sorted.Perm configured
  ascending : sorted.Pairwise fun p q => p.priority ≤ q.priority
  stable : ∀ k, (sorted.filter fun p => p.priority = k) = configured.filter fun p => p.priority = k

theorem providersSorted_sorted (config : AppConfig) :
    SortedByPriority config.providers config.providersSorted := by
  have htotal : Std.Total fun p q : ProviderConfig => p.priority ≤ q.priority :=
    ⟨fun p q => UInt32.le_total p.priority q.priority⟩
  have htrans : IsTrans ProviderConfig fun p q => p.priority ≤ q.priority :=
    ⟨fun _ _ _ => UInt32.le_trans⟩
  have hperm : config.providersSorted.Perm config.providers := List.perm_insertionSort _ _
  refine ⟨hperm, List.pairwise_insertionSort _ _, fun k => ?_⟩
  -- those of one priority are in order already, so the sort keeps them as a sublist
  have hsame : (config.providers.filter fun p => p.priority = k).Pairwise
      fun p q => p.priority ≤ q.priority := by
    rw [List.pairwise_filter]
    refine List.pairwise_of_forall fun p q hp hq => ?_
    rw [decide_eq_true_eq] at hp hq
    rw [hp, hq]
    exact UInt32.le_refl k
  have hsub := List.sublist_insertionSort hsame List.filter_sublist
  have hsub' := hsub.filter fun p => p.priority = k
  rw [List.filter_filter] at hsub'
  simp only [Bool.and_self] at hsub'
  exact (hsub'.eq_of_length (hperm.filter _).length_eq.symm).symm

theorem SortedByPriority.filter {configured sorted : List ProviderConfig}
    (h : SortedByPriority configured sorted) (f : ProviderConfig → Bool) :
    SortedByPriority (configured.filter f) (sorted.filter f) where
  perm := h.perm.filter f
  ascending := h.ascending.filter f
  stable k := by
    have hcomm : ∀ l : List ProviderConfig, (l.filter f).filter (fun p => p.priority = k)
        = (l.filter fun p => p.priority = k).filter f := by
      intro l
      rw [List.filter_filter, List.filter_filter]
      exact List.filter_congr fun p _ => Bool.and_comm _ _
    rw [hcomm, hcomm, h.stable]

/-! ### Trails -/

/-- A provider that was sent the request. -/
structure Contact where
  /-- The move right before the send. -/
  before : Option GatewayMove
  provider : String
  request : OutboundRequest
  answer : Except String StatusCode
  /-- The moves from the send to the next one. -/
  after : List GatewayMove

namespace Contact

/-- The answer is recorded first of all. -/
def Recorded (c : Contact) : Prop :=
  c.after.head? = some (.act (.recordSuccess c.provider) ()) ∨
    c.after.head? = some (.act (.recordFailure c.provider) ())

/-- The outcomes that make a request go on to the next provider, with the failure recorded. -/
inductive FailedOver (c : Contact) : Prop
  | unanswered (e : String) (h : c.answer = .error e)
      (hrec : c.after.head? = some (.act (.recordFailure c.provider) ()))
  | retryable (s : StatusCode) (h : c.answer = .ok s)
      (hs : s.isServerError = true ∨ s.code = 429 ∨ s.code = 408)
      (hrec : c.after.head? = some (.act (.recordFailure c.provider) ()))
  | bodyError (ms ns : List GatewayMove) (owned : Option ReservationHandle) (e : String)
      (h : c.after = ms ++ .act (.await (.bytes c.provider) owned) (.error e) ::
        .act (.recordFailure c.provider) () :: ns)

/-- The contact, and one more move. -/
def andThen (c : Contact) (m : GatewayMove) : Contact := { c with after := c.after ++ [m] }

end Contact

/-- What the moves of a request say about its failover. -/
structure Trail where
  last : Option GatewayMove
  /-- The contacts before the last one. -/
  past : List Contact
  current : Option Contact
  /-- What the breakers answered at selection. -/
  eligible : List (String × Bool)
  /-- What they answered when asked for admission. -/
  asked : List (String × Bool)

namespace Trail

/-- No provider has been contacted. -/
def start : Trail := ⟨none, [], none, [], []⟩

/-- The contacts so far, the one under way included. -/
def contacts (t : Trail) : List Contact := t.past ++ t.current.toList

/-- One move. -/
def next (t : Trail) (m : GatewayMove) : Trail :=
  match m with
  | .act (.await (.send P req) _) answer =>
      { t with last := some m, past := t.contacts, current := some ⟨t.last, P, req, answer, []⟩ }
  | .act (.isEligible P) answer =>
      { t with last := some m, current := t.current.map (·.andThen m),
               eligible := t.eligible ++ [(P, answer)] }
  | .act (.allowRequest P) answer =>
      { t with last := some m, current := t.current.map (·.andThen m),
               asked := t.asked ++ [(P, answer)] }
  | m => { t with last := some m, current := t.current.map (·.andThen m) }

end Trail

/-- The trail of a list of moves. -/
def trail (ms : List GatewayMove) : Trail := ms.foldl Trail.next .start

/-- The law of failover over these providers, for a request that has left this trail and may
have returned. -/
structure FailoverLaw (providers : List ProviderConfig) (t : Trail)
    (returned : Option HandlerResult) : Prop where
  /-- The contacts are some of the providers, in their order, each entry at most once. -/
  order : ∃ ps body, List.Sublist ps providers ∧
    t.contacts.map (fun c => (c.provider, c.request)) =
      ps.map fun p => (p.name, buildChatRequest p body)
  /-- Each was let through by its breaker right before. -/
  admitted : ∀ c ∈ t.contacts, c.before = some (.act (.allowRequest c.provider) true)
  /-- Each is recorded, unless the request was cancelled before. -/
  recorded : ∀ c ∈ t.contacts,
    c.Recorded ∨ (t.current = some c ∧ c.after = [] ∧ returned = none)
  /-- All but the last failed over. -/
  failedOver : ∀ c ∈ t.past, c.FailedOver
  /-- A request that ends with an upstream error has asked each provider that was eligible
  at selection, in order; those let through are the contacts, and all of them failed over. -/
  exhausted : ∀ message, returned = some (.error (.upstream message)) →
    t.eligible.map Prod.fst = providers.map (·.name) ∧
    t.asked.map Prod.fst = (t.eligible.filter (·.2)).map Prod.fst ∧
    t.contacts.map (·.provider) = (t.asked.filter (·.2)).map Prod.fst ∧
    ∀ c ∈ t.contacts, c.FailedOver

/-! ### Steering -/

namespace Trail

variable {t t' : Trail} {m : GatewayMove}

/-- The last contact has been recorded. -/
def Settled (t : Trail) : Prop := ∀ c, t.current = some c → c.after ≠ []

/-- The contacts as entries of the configuration. -/
def Sent (body : List UInt8) (ps : List ProviderConfig) (cs : List Contact) : Prop :=
  cs.map (fun c => (c.provider, c.request)) = ps.map fun p => (p.name, buildChatRequest p body)

/-- What a handler must look at before an operation. -/
def Steered (providers : List ProviderConfig) (body : List UInt8) (t : Trail) : Effect → Prop
  | .await (.send P req) _ =>
      t.last = some (.act (.allowRequest P) true) ∧ (∀ c ∈ t.contacts, c.FailedOver) ∧
        ∃ ps p, (ps ++ [p]).Sublist providers ∧ Sent body ps t.contacts ∧
          P = p.name ∧ req = buildChatRequest p body
  | e => ∀ c, t.current = some c → c.after = [] →
      e = .recordSuccess c.provider ∨ e = .recordFailure c.provider

/-- The protocol of failover. -/
def steering (providers : List ProviderConfig) (body : List UInt8) :
    Protocol gatewaySig StreamItem Trail where
  ok := Steered providers body
  next := Trail.next

/-- What the trail of a steered request satisfies. -/
structure Lawful (providers : List ProviderConfig) (body : List UInt8) (t : Trail) : Prop where
  order : ∃ ps, List.Sublist ps providers ∧ Sent body ps t.contacts
  admitted : ∀ c ∈ t.contacts, c.before = some (.act (.allowRequest c.provider) true)
  recorded : ∀ c ∈ t.contacts, c.Recorded ∨ (t.current = some c ∧ c.after = [])
  failedOver : ∀ c ∈ t.past, c.FailedOver

end Trail

/-- A move that is a send. -/
def IsSend : GatewayMove → Prop
  | .act (.await (.send _ _) _) _ => True
  | _ => False

/-- An effect that is neither a send nor a question to a breaker. -/
def Quiet : Effect → Prop
  | .await (.send _ _) _ => False
  | .isEligible _ => False
  | .allowRequest _ => False
  | _ => True

/-- An effect that concerns neither breakers nor upstreams. -/
def Aside : Effect → Prop
  | .reconcile _ _ => True
  | .dropHandle _ => True
  | .metric _ => True
  | .await (.cacheInsert _ _) _ => True
  | _ => False

theorem Aside.quiet (e : Effect) (h : Aside e) : Quiet e := by
  cases e with
  | await a owned =>
      cases a with
      | cacheInsert key v => exact trivial
      | _ => exact absurd h id
  | metric m => exact trivial
  | reconcile hd cost => exact trivial
  | dropHandle hd => exact trivial
  | _ => exact absurd h id

theorem Billing.aside {provider : String} (e : Effect) (h : Billing provider e) : Aside e := by
  cases e with
  | await a owned =>
      cases a with
      | cacheInsert key v => exact trivial
      | _ => exact absurd h id
  | metric m => exact trivial
  | reconcile hd cost => exact trivial
  | dropHandle hd => exact trivial
  | _ => exact absurd h id

/-- What is due for a cached text. -/
theorem aside_cached {call : ApiCall} {hd : ReservationHandle} {text : String} :
    ∀ e ∈ (call.cached hd text).todo, Aside e := by
  intro e he
  rcases cached_todo e he with rfl | ⟨m, rfl⟩ <;> exact trivial

/-- What is due for a body. -/
theorem aside_bodyRead (x : Crates) (call : ApiCall) (p : ProviderConfig) (hd : ReservationHandle)
    (body : List UInt8) : ∀ e ∈ (call.bodyRead x p hd body).todo, Aside e := by
  obtain ⟨before, after, htodo, hbefore, hafter⟩ := bodyRead_todo x call p hd body
  intro e he
  rw [htodo, List.mem_append, List.mem_cons] at he
  rcases he with he | rfl | he
  · exact Billing.aside e (hbefore e he)
  · exact trivial
  · exact Billing.aside e (hafter e he)

theorem Quiet.not_send {e : Effect} (h : Quiet e) (x : e.Answer) : ¬ IsSend (.act e x) := by
  intro hs
  cases e with
  | await a owned =>
      cases a with
      | send P req => exact h
      | _ => exact hs
  | _ => exact hs

theorem Contact.FailedOver.after_ne {c : Contact} (h : c.FailedOver) : c.after ≠ [] := by
  intro hnil
  cases h with
  | unanswered e h hrec => rw [hnil] at hrec; cases hrec
  | retryable s h hs hrec => rw [hnil] at hrec; cases hrec
  | bodyError ms ns owned e h => rw [hnil] at h; simp at h

/-- What a contact begins with stays what it begins with. -/
theorem Contact.head_andThen {c : Contact} {m m' : GatewayMove} (h : c.after.head? = some m) :
    (c.andThen m').after.head? = some m := by
  show (c.after ++ [m']).head? = some m
  rw [List.head?_append, h]
  rfl

theorem Contact.FailedOver.andThen {c : Contact} (h : c.FailedOver) (m : GatewayMove) :
    (c.andThen m).FailedOver := by
  cases h with
  | unanswered e h hrec => exact .unanswered e h (head_andThen hrec)
  | retryable s h hs hrec => exact .retryable s h hs (head_andThen hrec)
  | bodyError ms ns owned e h =>
      refine .bodyError ms (ns ++ [m]) owned e ?_
      show c.after ++ [m] = ms ++ .act (.await (.bytes c.provider) owned) (.error e) ::
        .act (.recordFailure c.provider) () :: (ns ++ [m])
      rw [h]
      simp

theorem Contact.Recorded.andThen {c : Contact} (h : c.Recorded) (m : GatewayMove) :
    (c.andThen m).Recorded := by
  rcases h with h | h
  · exact Or.inl (head_andThen h)
  · exact Or.inr (head_andThen h)

namespace Trail

variable {providers : List ProviderConfig} {body : List UInt8} {t : Trail} {m : GatewayMove}

/-! ### One move -/

/-- A move that is no send adds to the last contact. -/
theorem next_other (h : ¬ IsSend m) : (t.next m).past = t.past ∧
    (t.next m).current = t.current.map (·.andThen m) := by
  cases m with
  | act e x =>
      cases e with
      | await a owned =>
          cases a with
          | send P req => exact absurd trivial h
          | _ => exact ⟨rfl, rfl⟩
      | _ => exact ⟨rfl, rfl⟩
  | _ => exact ⟨rfl, rfl⟩

theorem mem_contacts {c : Contact} :
    c ∈ t.contacts ↔ c ∈ t.past ∨ t.current = some c := by
  simp [contacts]

/-- The contacts after a move that is no send. -/
theorem mem_contacts_next (h : ¬ IsSend m) {c : Contact} (hc : c ∈ (t.next m).contacts) :
    c ∈ t.past ∨ ∃ c₀, t.current = some c₀ ∧ c = c₀.andThen m := by
  obtain ⟨hpast, hcurrent⟩ := next_other (t := t) h
  rcases mem_contacts.mp hc with hin | hsome
  · exact Or.inl (hpast ▸ hin)
  · rw [hcurrent, Option.map_eq_some_iff] at hsome
    obtain ⟨c₀, hc₀, rfl⟩ := hsome
    exact Or.inr ⟨c₀, hc₀, rfl⟩

/-- Whom they are with does not change. -/
theorem map_contacts_next {α : Type} (f : Contact → α) (hf : ∀ c m, f (c.andThen m) = f c)
    (h : ¬ IsSend m) : (t.next m).contacts.map f = t.contacts.map f := by
  obtain ⟨hpast, hcurrent⟩ := next_other (t := t) h
  unfold contacts
  rw [hpast, hcurrent]
  cases t.current <;> simp [hf]

theorem failedOver_next (h : ¬ IsSend m) (hall : ∀ c ∈ t.contacts, c.FailedOver) :
    ∀ c ∈ (t.next m).contacts, c.FailedOver := by
  intro c hc
  rcases mem_contacts_next h hc with hin | ⟨c₀, hc₀, rfl⟩
  · exact hall c (mem_contacts.mpr (Or.inl hin))
  · exact (hall c₀ (mem_contacts.mpr (Or.inr hc₀))).andThen m

/-- After any such move the last contact is recorded, or there is none. -/
theorem settled_next (hm : ¬ IsSend m) : (t.next m).Settled := by
  intro c hc
  rw [(next_other hm).2, Option.map_eq_some_iff] at hc
  obtain ⟨c₀, -, rfl⟩ := hc
  simp [Contact.andThen]

/-- Once the last contact is recorded, anything but a send may come. -/
theorem Settled.steered (h : t.Settled) {e : Effect} (he : ∀ x, ¬ IsSend (.act e x)) :
    Steered providers body t e := by
  cases e with
  | await a owned =>
      cases a with
      | send P req => exact absurd trivial (he (.error ""))
      | _ => exact fun c hc hnil => absurd hnil (h c hc)
  | _ => exact fun c hc hnil => absurd hnil (h c hc)

theorem asked_next {e : Effect} (h : Quiet e) (x : e.Answer) :
    (t.next (.act e x)).eligible = t.eligible ∧ (t.next (.act e x)).asked = t.asked := by
  cases e with
  | await a owned =>
      cases a with
      | send P req => exact absurd h id
      | _ => exact ⟨rfl, rfl⟩
  | isEligible P => exact absurd h id
  | allowRequest P => exact absurd h id
  | _ => exact ⟨rfl, rfl⟩

/-! ### A steered request is lawful -/

theorem lawful_start : Lawful providers body start :=
  ⟨⟨[], List.nil_sublist _, rfl⟩, fun _ h => absurd h List.not_mem_nil,
    fun _ h => absurd h List.not_mem_nil, fun _ h => absurd h List.not_mem_nil⟩

theorem Lawful.send {P : String} {req : OutboundRequest} {owned : Option ReservationHandle}
    (h : Lawful providers body t) (hok : Steered providers body t (.await (.send P req) owned))
    (answer : Except String StatusCode) :
    Lawful providers body (t.next (.act (.await (.send P req) owned) answer)) := by
  obtain ⟨hlast, hfailed, ps, p, hsub, hsent, rfl, rfl⟩ := hok
  have hcontacts : (t.next (.act (.await (.send p.name (buildChatRequest p body)) owned)
      answer)).contacts
        = t.contacts ++ [⟨t.last, p.name, buildChatRequest p body, answer, []⟩] := rfl
  refine ⟨⟨ps ++ [p], hsub, ?_⟩, ?_, ?_, hfailed⟩
  · unfold Sent at hsent ⊢
    rw [hcontacts, List.map_append, hsent, List.map_append]
    rfl
  · intro c hc
    rw [hcontacts] at hc
    rcases List.mem_append.mp hc with hold | hnew
    · exact h.admitted c hold
    · rw [List.mem_singleton.mp hnew]
      exact hlast
  · intro c hc
    rw [hcontacts] at hc
    rcases List.mem_append.mp hc with hold | hnew
    · left
      rcases h.recorded c hold with hrec | ⟨-, hnil⟩
      · exact hrec
      · exact absurd hnil (hfailed c hold).after_ne
    · right
      rw [List.mem_singleton.mp hnew]
      exact ⟨rfl, rfl⟩

theorem Lawful.other {e : Effect} {x : e.Answer} (h : Lawful providers body t)
    (hs : ¬ IsSend (.act e x)) (hok : ∀ c, t.current = some c → c.after = [] →
      e = .recordSuccess c.provider ∨ e = .recordFailure c.provider) :
    Lawful providers body (t.next (.act e x)) := by
  obtain ⟨ps, hsub, hsent⟩ := h.order
  refine ⟨⟨ps, hsub, ?_⟩, ?_, ?_, ?_⟩
  · unfold Sent
    rw [map_contacts_next _ (fun _ _ => rfl) hs]
    exact hsent
  · intro c hc
    rcases mem_contacts_next hs hc with hin | ⟨c₀, hc₀, rfl⟩
    · exact h.admitted c (mem_contacts.mpr (Or.inl hin))
    · exact h.admitted c₀ (mem_contacts.mpr (Or.inr hc₀))
  · intro c hc
    left
    rcases mem_contacts_next hs hc with hin | ⟨c₀, hc₀, rfl⟩
    · rcases h.recorded c (mem_contacts.mpr (Or.inl hin)) with hrec | ⟨-, hnil⟩
      · exact hrec
      · exact absurd hnil (h.failedOver c hin).after_ne
    · rcases h.recorded c₀ (mem_contacts.mpr (Or.inr hc₀)) with hrec | ⟨-, hnil⟩
      · exact hrec.andThen _
      · -- nothing was recorded yet, so this move does it
        unfold Contact.Recorded Contact.andThen
        rw [hnil]
        rcases hok c₀ hc₀ hnil with rfl | rfl
        · exact Or.inl rfl
        · exact Or.inr rfl
  · intro c hc
    rw [(next_other hs).1] at hc
    exact h.failedOver c hc

/-- **What is allowed keeps the law.** -/
theorem Lawful.act {e : Effect} (h : Lawful providers body t)
    (hok : Steered providers body t e) (x : e.Answer) :
    Lawful providers body (t.next (.act e x)) := by
  cases e with
  | await a owned =>
      cases a with
      | send P req => exact h.send hok x
      | _ => exact h.other id hok
  | _ => exact h.other id hok

end Trail

/-! ### The handler -/

section Handler

variable {providers : List ProviderConfig} {body : List UInt8}
  {t : Trail} {cands passed : List ProviderConfig}

open Trail

/-- The failover loop has passed these candidates, and every contact failed over. -/
structure Between (providers : List ProviderConfig) (body : List UInt8)
    (cands passed : List ProviderConfig) (t : Trail) : Prop where
  selected : t.eligible.map Prod.fst = providers.map (·.name)
  candidates : cands.map (·.name) = (t.eligible.filter (·.2)).map Prod.fst
  among : cands.Sublist providers
  asked : t.asked.map Prod.fst = passed.map (·.name)
  sent : ∃ ps, List.Sublist ps passed ∧ Sent body ps t.contacts
  admitted : t.contacts.map (·.provider) = (t.asked.filter (·.2)).map Prod.fst
  failedOver : ∀ c ∈ t.contacts, c.FailedOver

theorem Between.settled (h : Between providers body cands passed t) : t.Settled :=
  fun c hc => (h.failedOver c (mem_contacts.mpr (Or.inr hc))).after_ne

theorem Between.quiet (h : Between providers body cands passed t) {e : Effect} (he : Quiet e)
    (a : e.Answer) : Between providers body cands passed (t.next (.act e a)) := by
  obtain ⟨heligible, hasked⟩ := asked_next (t := t) he a
  have hs := he.not_send a
  obtain ⟨ps, hsub, hsent⟩ := h.sent
  refine ⟨?_, ?_, h.among, ?_, ⟨ps, hsub, ?_⟩, ?_, failedOver_next hs h.failedOver⟩
  · rw [heligible]
    exact h.selected
  · rw [heligible]
    exact h.candidates
  · rw [hasked]
    exact h.asked
  · unfold Sent
    rw [map_contacts_next _ (fun _ _ => rfl) hs]
    exact hsent
  · rw [map_contacts_next _ (fun _ _ => rfl) hs, hasked]
    exact h.admitted

/-- A candidate that is refused is passed. -/
theorem Between.refused (h : Between providers body cands passed t) (p : ProviderConfig) :
    Between providers body cands (passed ++ [p]) (t.next (.act (.allowRequest p.name) false)) := by
  have hs : ¬ IsSend (.act (.allowRequest p.name) false) := id
  obtain ⟨ps, hsub, hsent⟩ := h.sent
  refine ⟨h.selected, h.candidates, h.among, ?_,
    ⟨ps, hsub.trans (List.sublist_append_left _ _), ?_⟩, ?_, failedOver_next hs h.failedOver⟩
  · show (t.asked ++ [(p.name, false)]).map Prod.fst = _
    rw [List.map_append, h.asked, List.map_append]
    rfl
  · unfold Sent
    rw [map_contacts_next _ (fun _ _ => rfl) hs]
    exact hsent
  · rw [map_contacts_next _ (fun _ _ => rfl) hs, h.admitted]
    show _ = ((t.asked ++ [(p.name, false)]).filter (·.2)).map Prod.fst
    rw [List.filter_append]
    simp

/-- A candidate that is let through may be sent the request. -/
theorem Between.steered_send (h : Between providers body cands passed t) {p : ProviderConfig}
    {rest : List ProviderConfig} (hcands : cands = passed ++ p :: rest)
    (owned : Option ReservationHandle) :
    Steered providers body (t.next (.act (.allowRequest p.name) true))
      (.await (.send p.name (buildChatRequest p body)) owned) := by
  have hs : ¬ IsSend (.act (.allowRequest p.name) true) := id
  obtain ⟨ps, hsub, hsent⟩ := h.sent
  refine ⟨rfl, failedOver_next hs h.failedOver, ps, p, ?_, ?_, rfl, rfl⟩
  · refine List.Sublist.trans ?_ h.among
    rw [hcands, List.append_cons passed p rest]
    exact (hsub.append_right [p]).trans (List.sublist_append_left _ _)
  · unfold Sent
    rw [map_contacts_next _ (fun _ _ => rfl) hs]
    exact hsent

/-- `p` was sent the request after these candidates were passed, and answered; these moves have
followed. -/
structure Contacting (providers : List ProviderConfig) (body : List UInt8)
    (cands passed : List ProviderConfig) (p : ProviderConfig)
    (answer : Except String StatusCode) (ms : List GatewayMove) (t : Trail) : Prop where
  past : ∃ t₀, Between providers body cands passed t₀ ∧
    t.past = (t₀.next (.act (.allowRequest p.name) true)).contacts ∧
    t.eligible = t₀.eligible ∧ t.asked = t₀.asked ++ [(p.name, true)]
  current : t.current = some ⟨some (.act (.allowRequest p.name) true), p.name,
    buildChatRequest p body, answer, ms⟩

theorem Between.contacting (h : Between providers body cands passed t) (p : ProviderConfig)
    (owned : Option ReservationHandle) (answer : Except String StatusCode) :
    Contacting providers body cands passed p answer []
      ((t.next (.act (.allowRequest p.name) true)).next
        (.act (.await (.send p.name (buildChatRequest p body)) owned) answer)) :=
  ⟨⟨t, h, rfl, rfl, rfl⟩, rfl⟩

section Contacting

variable {p : ProviderConfig} {answer : Except String StatusCode} {ms : List GatewayMove}

theorem Contacting.quiet (h : Contacting providers body cands passed p answer ms t) {e : Effect}
    (he : Quiet e) (y : e.Answer) :
    Contacting providers body cands passed p answer (ms ++ [.act e y]) (t.next (.act e y)) := by
  obtain ⟨⟨t₀, hbetween, hpast, heligible, hasked⟩, hcurrent⟩ := h
  obtain ⟨heligible', hasked'⟩ := asked_next (t := t) he y
  obtain ⟨hpast', hcurrent'⟩ := next_other (t := t) (he.not_send y)
  refine ⟨⟨t₀, hbetween, hpast'.trans hpast, heligible'.trans heligible,
    hasked'.trans hasked⟩, ?_⟩
  rw [hcurrent', hcurrent]
  rfl

theorem Contacting.settled (h : Contacting providers body cands passed p answer ms t)
    (hms : ms ≠ []) : t.Settled := by
  intro c hc
  rw [h.current, Option.some.injEq] at hc
  rw [← hc]
  exact hms

/-- The record of the answer may come first. -/
theorem Contacting.steered (h : Contacting providers body cands passed p answer ms t)
    {e : Effect} (he : e = .recordSuccess p.name ∨ e = .recordFailure p.name) :
    Steered providers body t e := by
  have hrecord : ∀ c, t.current = some c → c.after = [] →
      e = .recordSuccess c.provider ∨ e = .recordFailure c.provider := by
    intro c hc _
    rw [h.current, Option.some.injEq] at hc
    rw [← hc]
    exact he
  rcases he with rfl | rfl <;> exact hrecord

/-- A candidate that was sent the request and failed over is passed. -/
theorem Contacting.failedOver (h : Contacting providers body cands passed p answer ms t)
    (hfailed : ∀ c, t.current = some c → c.FailedOver) :
    Between providers body cands (passed ++ [p]) t := by
  obtain ⟨⟨t₀, hbetween, hpast, heligible, hasked⟩, hcurrent⟩ := h
  have hs : ¬ IsSend (.act (.allowRequest p.name) true) := id
  obtain ⟨ps, hsub, hsent⟩ := hbetween.sent
  have hcontacts : t.contacts = (t₀.next (.act (.allowRequest p.name) true)).contacts ++
      [⟨some (.act (.allowRequest p.name) true), p.name, buildChatRequest p body, answer, ms⟩] := by
    rw [Trail.contacts, hpast, hcurrent]
    rfl
  refine ⟨?_, ?_, hbetween.among, ?_, ⟨ps ++ [p], hsub.append_right [p], ?_⟩, ?_, ?_⟩
  · rw [heligible]
    exact hbetween.selected
  · rw [heligible]
    exact hbetween.candidates
  · rw [hasked, List.map_append, hbetween.asked, List.map_append]
    rfl
  · unfold Sent at hsent ⊢
    rw [hcontacts, List.map_append, map_contacts_next _ (fun _ _ => rfl) hs, hsent,
      List.map_append]
    rfl
  · rw [hcontacts, List.map_append, map_contacts_next _ (fun _ _ => rfl) hs, hbetween.admitted,
      hasked, List.filter_append, List.map_append]
    rfl
  · intro c hc
    rw [hcontacts] at hc
    rcases List.mem_append.mp hc with hold | hnew
    · exact failedOver_next hs hbetween.failedOver c hold
    · rw [List.mem_singleton.mp hnew]
      exact hfailed _ hcurrent

end Contacting

/-- A request that has not been sent to anyone. -/
structure Unsent (t : Trail) : Prop where
  past : t.past = []
  current : t.current = none
  asked : t.asked = []
  eligible : t.eligible = []

theorem settled_of_none (h : t.current = none) : t.Settled := by
  intro c hc
  rw [h] at hc
  cases hc

theorem Unsent.quiet (h : Unsent t) {e : Effect} (he : Quiet e) (a : e.Answer) :
    Unsent (t.next (.act e a)) := by
  obtain ⟨hpast, hcurrent⟩ := next_other (t := t) (he.not_send a)
  obtain ⟨heligible, hasked⟩ := asked_next (t := t) he a
  refine ⟨hpast.trans h.past, ?_, hasked.trans h.asked, heligible.trans h.eligible⟩
  rw [hcurrent, h.current]
  rfl

/-- The providers before `todo` have been looked at, and these are the eligible ones. -/
structure Selecting (providers chosen todo : List ProviderConfig) (t : Trail) : Prop where
  past : t.past = []
  current : t.current = none
  asked : t.asked = []
  looked : ∃ ps, providers = ps ++ todo ∧ chosen.Sublist ps ∧
    t.eligible.map Prod.fst = ps.map (·.name)
  eligible : chosen.map (·.name) = (t.eligible.filter (·.2)).map Prod.fst

theorem Unsent.selecting (h : Unsent t) (providers : List ProviderConfig) :
    Selecting providers [] providers t := by
  refine ⟨h.past, h.current, h.asked, ⟨[], rfl, List.nil_sublist _, ?_⟩, ?_⟩
  · rw [h.eligible]
    rfl
  · rw [h.eligible]
    rfl

/-- The next provider is looked at. -/
theorem Selecting.next {chosen todo : List ProviderConfig} {p : ProviderConfig}
    (h : Selecting providers chosen (p :: todo) t) (eligible : Bool) :
    Selecting providers (if eligible then chosen ++ [p] else chosen) todo
      (t.next (.act (.isEligible p.name) eligible)) := by
  obtain ⟨ps, hproviders, hsub, hlooked⟩ := h.looked
  have hcurrent : (t.next (.act (.isEligible p.name) eligible)).current = none := by
    show t.current.map _ = none
    rw [h.current]
    rfl
  have hall : (t.eligible ++ [(p.name, eligible)]).map Prod.fst = (ps ++ [p]).map (·.name) := by
    rw [List.map_append, hlooked, List.map_append]
    rfl
  have hsplit : providers = (ps ++ [p]) ++ todo := by
    rw [hproviders, List.append_cons]
  refine ⟨h.past, hcurrent, h.asked, ⟨ps ++ [p], hsplit, ?_, hall⟩, ?_⟩
  · cases eligible with
    | true => exact hsub.append_right [p]
    | false => exact hsub.trans (List.sublist_append_left _ _)
  · show _ = ((t.eligible ++ [(p.name, eligible)]).filter (·.2)).map Prod.fst
    rw [List.filter_append, List.map_append, ← h.eligible]
    cases eligible with
    | true => exact List.map_append
    | false => exact (List.append_nil _).symm

/-- All of them have been looked at. -/
theorem Selecting.between {chosen : List ProviderConfig} (h : Selecting providers chosen [] t) :
    Between providers body chosen [] t := by
  obtain ⟨ps, hproviders, hsub, hlooked⟩ := h.looked
  rw [List.append_nil] at hproviders
  subst hproviders
  have hcontacts : t.contacts = [] := by
    rw [Trail.contacts, h.past, h.current]
    rfl
  refine ⟨hlooked, h.eligible, hsub, ?_, ⟨[], List.nil_sublist _, ?_⟩, ?_, ?_⟩
  · rw [h.asked]
    rfl
  · unfold Sent
    rw [hcontacts]
    rfl
  · rw [hcontacts, h.asked]
    rfl
  · intro c hc
    rw [hcontacts] at hc
    exact absurd hc List.not_mem_nil

/-! ### The junctures -/

/-- How a handler ends: with an upstream error only if the loop has passed all candidates. -/
def HandlerEnds (providers : List ProviderConfig) (body : List UInt8) (result : HandlerResult)
    (t : Trail) : Prop :=
  t.Settled ∧ ∀ message, result = .error (.upstream message) →
    ∃ cands, Between providers body cands cands t

/-- An end that is not an upstream error. -/
theorem handlerEnds_of_ne {result : HandlerResult} (h : t.Settled)
    (hne : ∀ message, result ≠ .error (.upstream message)) :
    HandlerEnds providers body result t :=
  ⟨h, fun message hmessage => absurd hmessage (hne message)⟩

/-- The trail of a chat request at a juncture. -/
def Steers (providers : List ProviderConfig) (body : List UInt8) : Juncture → Trail → Prop
  | .admitted, t => Unsent t
  | .looking _ _, t => Unsent t
  | .choosing chosen p todo _, t => Selecting providers chosen (p :: todo) t
  | .trying p rest _ _, t => ∃ passed, Between providers body (passed ++ p :: rest) passed t
  | .cleared p rest _, t => ∃ passed t₀, Between providers body (passed ++ p :: rest) passed t₀ ∧
      t = t₀.next (.act (.allowRequest p.name) true)
  | .reading p rest _, t => ∃ passed answer ms,
      Contacting providers body (passed ++ p :: rest) passed p answer ms t ∧ ms ≠ []
  | .finished result, t => HandlerEnds providers body result t

theorem steering_ok {e : Effect} (h : t.Settled) (he : ∀ y, ¬ IsSend (.act e y)) :
    (steering providers body).ok t e :=
  h.steered he

/-- The rule for an operation that is no send, where the last contact is recorded. -/
theorem does_settled {e : Effect} {es : List Effect} {Q : Trail → Prop} (h : t.Settled)
    (he : ∀ y, ¬ IsSend (.act e y))
    (hes : ∀ y, (steering providers body).Does es (t.next (.act e y)) Q) :
    (steering providers body).Does (e :: es) t Q :=
  ⟨h.steered he, hes⟩

/-- Where the last contact is recorded, asides change nothing. -/
theorem does_asides {es : List Effect} (hes : ∀ e ∈ es, Aside e) (h : t.Settled) :
    (steering providers body).Does es t Trail.Settled := by
  refine Protocol.does_of_forall (fun e he t ht => ?_) h
  have hquiet := Aside.quiet e (hes e he)
  exact ⟨ht.steered fun y => hquiet.not_send y, fun y => settled_next (hquiet.not_send y)⟩

/-- Where all candidates are passed, too. -/
theorem Between.does_asides {es : List Effect} (hes : ∀ e ∈ es, Aside e)
    (h : Between providers body cands passed t) :
    (steering providers body).Does es t (Between providers body cands passed) := by
  refine Protocol.does_of_forall (fun e he t ht => ?_) h
  have hquiet := Aside.quiet e (hes e he)
  exact ⟨ht.settled.steered fun y => hquiet.not_send y, fun y => ht.quiet hquiet y⟩

theorem Between.handlerEnds (h : Between providers body cands cands t) (result : HandlerResult) :
    HandlerEnds providers body result t :=
  ⟨h.settled, fun _ _ => ⟨cands, h⟩⟩

theorem Between.retry {rest : List ProviderConfig}
    (h : Between providers body (passed ++ rest) passed t) (lastError : Option String)
    (hd : ReservationHandle) :
    (steering providers body).Meets (Steers providers body) (retry lastError hd rest) t := by
  cases rest with
  | cons p rest => exact ⟨passed, h⟩
  | nil =>
      rw [List.append_nil] at h
      exact (h.does_asides (by simp [LlmGateway.retry, Aside])).mono fun t' ht' => ht'.handlerEnds _

theorem Selecting.choose {chosen todo : List ProviderConfig}
    (h : Selecting providers chosen todo t) (call : ApiCall) (hd : ReservationHandle) :
    (steering providers body).Meets (Steers providers body) (call.choose hd chosen todo) t := by
  cases todo with
  | cons p todo => exact h
  | nil =>
      cases chosen with
      | cons p rest => exact ⟨[], h.between⟩
      | nil =>
          exact (h.between.does_asides (by simp [ApiCall.choose, Aside])).mono fun t' ht' =>
            ht'.handlerEnds _

theorem retryable_cases {s : StatusCode} (h : isRetryableUpstreamStatus s = true) :
    s.isServerError = true ∨ s.code = 429 ∨ s.code = 408 := by
  unfold isRetryableUpstreamStatus at h
  rw [Bool.or_eq_true, Bool.or_eq_true, beq_iff_eq, beq_iff_eq] at h
  rcases h with (hserver | rfl) | rfl
  · exact Or.inl hserver
  · exact Or.inr (Or.inl rfl)
  · exact Or.inr (Or.inr rfl)

/-- A chat request fails over only from these answers. -/
theorem receive_chat_failed {payload : Except String ChatCompletionRequest}
    {answer : Except String StatusCode} (h : (ApiCall.chat payload).receive answer = .failed) :
    (∃ e, answer = .error e) ∨ ∃ s, answer = .ok s ∧ isRetryableUpstreamStatus s = true := by
  cases answer with
  | error e => exact Or.inl ⟨e, rfl⟩
  | ok s =>
      by_cases hretry : isRetryableUpstreamStatus s = true
      · exact Or.inr ⟨s, rfl, hretry⟩
      · cases hclient : isNonRetryableClientError s <;>
          simp [ApiCall.receive, hretry, hclient] at h

/-- A response that is passed on never is an upstream error. -/
theorem providerResponse_ne (headers : List (String × String)) (provider : String)
    (bs : List UInt8) (message : String) :
    providerResponse headers provider bs ≠ .error (.upstream message) := by
  unfold providerResponse
  split <;> simp

section Contacting

variable {p : ProviderConfig} {rest : List ProviderConfig} {hd : ReservationHandle}
  {payload : Except String ChatCompletionRequest} {answer : Except String StatusCode}

/-- A contact that failed over is recorded, and the loop goes on. -/
theorem Contacting.giveUp {ms : List GatewayMove}
    (h : Contacting providers body (passed ++ p :: rest) passed p answer ms t)
    (hfailed : ∀ counted : Metric, Contact.FailedOver
      ⟨some (.act (.allowRequest p.name) true), p.name, buildChatRequest p body, answer,
        ms ++ [.act (.recordFailure p.name) ()] ++ [.act (.metric counted) ()]⟩)
    (counted : Metric) (text : String) :
    (steering providers body).Meets (Steers providers body) (giveUp p counted text rest hd) t := by
  refine ⟨h.steered (Or.inr rfl), fun _ => does_settled (settled_next id) (fun _ => id)
    fun _ => ?_⟩
  have hpassed := ((h.quiet (e := .recordFailure p.name) trivial ()).quiet
    (e := .metric counted) trivial ()).failedOver fun c hc => by
      obtain rfl := Option.some.inj ((Contacting.current ((h.quiet (e := .recordFailure p.name)
        trivial ()).quiet (e := .metric counted) trivial ())).symm.trans hc)
      exact hfailed counted
  rw [List.append_cons] at hpassed
  exact hpassed.retry _ _

theorem Contacting.answered {x : Crates}
    (h : Contacting providers body (passed ++ p :: rest) passed p answer [] t) :
    (steering providers body).Meets (Steers providers body)
      ((ApiCall.chat payload).answered x p rest hd answer) t := by
  unfold ApiCall.answered
  cases hreception : (ApiCall.chat payload).receive answer with
  | failed =>
      refine h.giveUp (fun counted => ?_) _ _
      obtain ⟨e, rfl⟩ | ⟨s, rfl, hretry⟩ := receive_chat_failed hreception
      · exact .unanswered e rfl rfl
      · exact .retryable s rfl (retryable_cases hretry) rfl
  | rejected s =>
      refine ⟨h.steered (Or.inl rfl), fun _ => does_settled (settled_next id) (fun _ => id)
        fun _ => does_settled (settled_next id) (fun _ => id) fun _ => ?_⟩
      exact handlerEnds_of_ne (settled_next id) (by simp)
  | usable =>
      refine ⟨h.steered (Or.inl rfl), fun _ => does_settled (settled_next id) (fun _ => id)
        fun _ => does_settled (settled_next id) (fun _ => id) fun _ => ?_⟩
      show (steering providers body).Meets _ (if ApiCall.streams _ then _ else _ : Due) _
      cases (ApiCall.chat payload).streams with
      | true =>
          exact does_settled (settled_next id) (fun _ => id) fun _ =>
            handlerEnds_of_ne (settled_next id) (by simp)
      | false =>
          exact ⟨passed, answer, _, ((h.quiet (e := .recordSuccess p.name) trivial ()).quiet
            (e := .metric _) trivial ()).quiet (e := .metric _) trivial (), by simp⟩

end Contacting

theorem steers_upholds {x : Crates} {st : AppState} {identity : ClientIdentity}
    {payload : Except String ChatCompletionRequest}
    (hbody : ∀ bs, (ApiCall.chat payload).forwarded x = some bs → bs = body) :
    (script x st identity (.chat payload)).Upholds (steering st.sortedProviders body)
      (Juncture.Known x st (.chat payload)) (Steers st.sortedProviders body) := by
  intro juncture t e _ ht hasks
  cases juncture with
  | admitted =>
      obtain ⟨cost, -, rfl⟩ := hasks
      refine ⟨steering_ok (settled_of_none (Unsent.current ht)) fun _ => id, fun answer => ?_⟩
      have hquiet : Quiet (.tryReserveTpm identity.clientId cost) := trivial
      have hunsent := Unsent.quiet ht hquiet answer
      cases answer with
      | error retryAfter =>
          exact does_settled (settled_next id) (fun _ => id) fun _ =>
            handlerEnds_of_ne (settled_next id) (by simp)
      | ok hd =>
          show (steering _ body).Meets _ ((ApiCall.chat payload).reserved x st hd) _
          unfold ApiCall.reserved
          cases (ApiCall.chat payload).written x with
          | error e =>
              exact does_settled (settled_next id) (fun _ => id) fun _ =>
                handlerEnds_of_ne (settled_next id) (by simp)
          | ok bs =>
              cases (ApiCall.chat payload).key x with
              | some key => exact hunsent
              | none => exact (hunsent.selecting _).choose _ hd
  | looking key hd =>
      obtain rfl := hasks
      refine ⟨steering_ok (settled_of_none (Unsent.current ht)) fun _ => id, fun answer => ?_⟩
      have hquiet : Quiet (.await (.cacheGet key) (some hd)) := trivial
      have hunsent := Unsent.quiet ht hquiet answer
      cases answer with
      | none =>
          refine does_settled (settled_next id) (fun _ => id) fun _ => ?_
          exact ((hunsent.quiet (e := .metric _) trivial ()).selecting _).choose _ hd
      | some text =>
          exact (does_asides aside_cached (settled_next id)).mono fun t' ht' =>
            handlerEnds_of_ne ht' (by simp)
  | choosing chosen p todo hd =>
      obtain rfl := hasks
      refine ⟨steering_ok (settled_of_none (Selecting.current ht)) fun _ => id, fun eligible => ?_⟩
      exact (Selecting.next ht eligible).choose _ hd
  | trying p rest lastError hd =>
      obtain rfl := hasks
      obtain ⟨passed, hbetween⟩ := ht
      refine ⟨steering_ok hbetween.settled fun _ => id, fun allowed => ?_⟩
      cases allowed with
      | true => exact ⟨passed, t, hbetween, rfl⟩
      | false =>
          have hrefused := hbetween.refused p
          rw [List.append_cons] at hrefused
          exact hrefused.retry lastError hd
  | cleared p rest hd =>
      obtain ⟨bs, hbs, rfl⟩ := hasks
      obtain rfl := hbody bs hbs
      obtain ⟨passed, t₀, hbetween, rfl⟩ := ht
      refine ⟨hbetween.steered_send rfl (some hd), fun answer => ?_⟩
      exact (hbetween.contacting p (some hd) answer).answered
  | reading p rest hd =>
      obtain rfl := hasks
      obtain ⟨passed, answer, ms, hcontacting, hms⟩ := ht
      refine ⟨steering_ok (hcontacting.settled hms) fun _ => id, fun read => ?_⟩
      have hquiet : Quiet (.await (.bytes p.name) (some hd)) := trivial
      cases read with
      | error e =>
          refine (hcontacting.quiet hquiet (.error e)).giveUp (fun counted => ?_) _ _
          exact .bodyError ms [.act (.metric counted) ()] (some hd) e (by simp)
      | ok bs =>
          have hread := settled_next (t := t) (hquiet.not_send (.ok bs))
          exact (does_asides (aside_bodyRead _ _ _ _ _) hread).mono fun t' ht' =>
            handlerEnds_of_ne ht' (providerResponse_ne _ _ _)
  | finished result => exact hasks.elim

theorem wp_chatCompletions_steered {x : Crates} {st : AppState} (identity : ClientIdentity)
    (payload : Except String ChatCompletionRequest) : ∃ body,
    (chatCompletions x st identity payload).wp (steering st.sortedProviders body) .start
      (HandlerEnds st.sortedProviders body) := by
  have hstart : Unsent .start := ⟨rfl, rfl, rfl, rfl⟩
  refine ⟨((ApiCall.chat payload).forwarded x).getD [], ?_⟩
  show (handler x st identity (.chat payload)).wp _ _ _
  refine wp_handler_upholds (steers_upholds ?_) ?_
  rotate_left
  · cases payload with
    | ok r => exact hstart
    | error e =>
        exact handlerEnds_of_ne (settled_of_none hstart.current)
          (by simp [AppError.fromJsonRejection])
  · intro bs hbs
    rw [hbs]
    rfl

/--
**Failover keeps to the configured order and gives up only when it must.**  Whatever the
breakers and the upstreams answer a chat request, and wherever it is cancelled, its moves
obey the law of failover over the providers by ascending priority.  A send that is still
waiting for its answer is the last move of the runs in which it has just got one.
-/
theorem chat_failover (x : Crates) (config : AppConfig) (identity : ClientIdentity)
    (payload : Except String ChatCompletionRequest) :
    SortedByPriority config.providers (AppState.new x config).sortedProviders ∧
    ∀ (ms : List GatewayMove) (q : Gateway HandlerResult),
      (chatCompletions x (.new x config) identity payload).Runs ms q →
      FailoverLaw (AppState.new x config).sortedProviders (trail ms) q.returned := by
  refine ⟨providersSorted_sorted config, fun ms q hruns => ?_⟩
  have hsteered : ∃ body, (chatCompletions x (.new x config) identity payload).wp
      (steering (AppState.new x config).sortedProviders body) .start
      (HandlerEnds (AppState.new x config).sortedProviders body) :=
    wp_chatCompletions_steered identity payload
  obtain ⟨body, hwp⟩ := hsteered
  obtain ⟨hlawful, hq⟩ := hruns.keeps hwp (fun t e a ht hok => ht.act hok a) lawful_start
  have htrail : (steering (AppState.new x config).sortedProviders body).run .start ms = trail ms :=
    rfl
  rw [htrail] at hlawful hq
  obtain ⟨ps, hsub, hsent⟩ := hlawful.order
  refine ⟨⟨ps, body, hsub, hsent⟩, hlawful.admitted, fun c hc => ?_, hlawful.failedOver, ?_⟩
  · rcases hlawful.recorded c hc with hrec | ⟨hcurrent, hnil⟩
    · exact Or.inl hrec
    · cases q with
      | op e k => exact Or.inr ⟨hcurrent, hnil, rfl⟩
      | ret result => exact absurd hnil (hq.1 c hcurrent)
  · intro message hmessage
    cases q with
    | op e k => cases hmessage
    | ret result =>
        obtain rfl := Option.some.inj hmessage
        obtain ⟨cands, hbetween⟩ := hq.2 message rfl
        exact ⟨hbetween.selected, hbetween.asked.trans hbetween.candidates, hbetween.admitted,
          hbetween.failedOver⟩

end Handler

/-- Everybody is let through; the first send is not answered, the others are. -/
def firstRefused : Prog.Environment gatewaySig Nat
  | n, .isEligible _ => (true, n)
  | n, .allowRequest _ => (true, n)
  | n, .recordSuccess _ => ((), n)
  | n, .recordFailure _ => ((), n)
  | n, .rpmTryConsume _ _ => (.ok (), n)
  | n, .tryReserveTpm client cost => (.ok ⟨client, cost, false⟩, n)
  | n, .reconcile _ _ => ((), n)
  | n, .dropHandle _ => ((), n)
  | n, .metric _ => ((), n)
  | n, .yield _ => ((), n)
  | n, .await (.cacheGet _) _ => (none, n)
  | n, .await (.cacheInsert _ _) _ => ((), n)
  | n, .await (.send _ _) _ => (if n = 0 then .error "refused" else .ok statusOk, n + 1)
  | n, .await (.bytes _) _ => (.ok [], n)

/-- The moves of a chat request over two providers, and what it returns. -/
def spilledRun : List GatewayMove × HandlerResult × Nat :=
  (chatCompletions (.table [] []) (.new (.table [] []) pairConfig) ⟨"c", "free"⟩
    (.ok (smallPayload false 1))).alone firstRefused 0

/-- It is sent to `p`, fails over to `q`, and obeys the law. -/
theorem chat_failover_spilled :
    (trail spilledRun.1).contacts.map (·.provider) = ["p", "q"] ∧
      FailoverLaw (AppState.new (.table [] []) pairConfig).sortedProviders (trail spilledRun.1)
        (some spilledRun.2.1) :=
  ⟨by decide +kernel,
    (chat_failover (.table [] []) pairConfig ⟨"c", "free"⟩ (.ok (smallPayload false 1))).2 _ _
      (Prog.alone_runs firstRefused _ 0)⟩

end LlmGateway
