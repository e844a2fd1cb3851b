/-
What a cache hit answers with.

The cache holds texts under keys; the invariant `Coherent` says of each where it came from:
some request with that key was sent upstream, and the text is the body it read.  A lookup
that finds a text therefore finds the body of an earlier request, and `key_injective` says
that this request has the model and the forwarded bytes of the one that is answered.  The
log keeps the order: what was read comes before the lookup.
-/
import LlmGateway.Proofs.World

namespace LlmGateway

open Effects

variable {x : Crates} {st : AppState} {ryu : Ryu} {w w' : World} {g : Ghost} {m : GatewayMove}
  {l : GatewayLabel} {gs gs' : List Ghost}

/-! ### Keys -/

theorem requestKey_some (hx : x.Writes ryu) {r : ChatCompletionRequest} {key : String}
    (h : requestKey x r = some key) :
    r.stream = false ∧ key = "exact:" ++ x.sha256Hex (hashedBytes ryu r) := by
  unfold requestKey at h
  rw [hx.chat] at h
  simp only [chatCacheKey] at h
  cases hstream : (injectStreamOptions r).stream with
  | true =>
      rw [hstream] at h
      cases h
  | false =>
      rw [injectStreamOptions_stream] at hstream
      rw [injectStreamOptions_of_not_stream hstream, hstream] at h
      simp only [Bool.false_eq_true, if_false] at h
      unfold computeKey at h
      split at h
      · cases h
      · exact ⟨hstream, (Option.some.inj h).symm⟩

/-- The bytes a chat request is forwarded with. -/
theorem forwarded_eq (hx : x.Writes ryu) {r : ChatCompletionRequest} (h : r.stream = false) :
    (ApiCall.chat (.ok r)).forwarded x = some (asBytes (String.ofList (r.json ryu))) := by
  show (Crates.toVec x.chatToString (injectStreamOptions r)).toOption = _
  unfold Crates.toVec
  rw [injectStreamOptions_of_not_stream h, hx.chat]
  rfl

/-- Requests with one key have one model and are forwarded as the same bytes. -/
theorem key_injective (hx : x.Writes ryu) (hsha : Function.Injective x.sha256Hex)
    {r r' : ChatCompletionRequest} {key : String} (h : requestKey x r = some key)
    (h' : requestKey x r' = some key) :
    r.model = r'.model ∧
      (ApiCall.chat (.ok r)).forwarded x = (ApiCall.chat (.ok r')).forwarded x := by
  obtain ⟨hstream, hkey⟩ := requestKey_some hx h
  obtain ⟨hstream', hkey'⟩ := requestKey_some hx h'
  rw [hkey, String.append_right_inj] at hkey'
  obtain ⟨hmodel, htext⟩ := keyBytes_cancel r.nulFree_json r'.nulFree_json (hsha hkey')
  rw [forwarded_eq hx hstream, forwarded_eq hx hstream', htext]
  exact ⟨hmodel, rfl⟩

/-- Only chat requests have a key. -/
theorem key_some {call : ApiCall} {key : String} (h : call.key x = some key) :
    ∃ r, call = .chat (.ok r) ∧ requestKey x r = some key := by
  cases call with
  | chat payload =>
      cases payload with
      | ok r => exact ⟨r, rfl, h⟩
      | error e => cases h
  | embeddings payload => cases h

/-! ### What the log shows -/

/-- The log of a gateway. -/
abbrev GatewayLog := List (Entry gatewaySig StreamItem Instant)

/-- Request `j` was sent upstream as `sent`. -/
def WasSent (log : GatewayLog) (j : Nat) (sent : List UInt8) : Prop :=
  ∃ n ∈ log, n.task = j ∧ ∃ P req owned answer,
    n.move = .act (.await (.send P req) owned) answer ∧ req.body = sent

/-- Request `j` read the response `body`. -/
def WasRead (log : GatewayLog) (j : Nat) (body : List UInt8) : Prop :=
  ∃ n ∈ log, n.task = j ∧ ∃ P owned, n.move = .act (.await (.bytes P) owned) (.ok body)

/-- Request `i` looked `key` up and found `text`. -/
def WasFound (log : GatewayLog) (i : Nat) (key text : String) : Prop :=
  ∃ n ∈ log, n.task = i ∧ ∃ owned, n.move = .act (.await (.cacheGet key) owned) (some text)

/-- Request `j` was sent upstream as `sent`, and what came back is `body`. -/
structure Fetched (log : GatewayLog) (j : Nat) (sent body : List UInt8) : Prop where
  sent : WasSent log j sent
  read : WasRead log j body

theorem WasSent.append {log : GatewayLog} {j : Nat} {sent : List UInt8} (h : WasSent log j sent)
    (more : GatewayLog) : WasSent (log ++ more) j sent := by
  obtain ⟨n, hn, hrest⟩ := h
  exact ⟨n, List.mem_append_left more hn, hrest⟩

theorem Fetched.append {log : GatewayLog} {j : Nat} {sent body : List UInt8}
    (h : Fetched log j sent body) (more : GatewayLog) : Fetched (log ++ more) j sent body := by
  refine ⟨h.sent.append more, ?_⟩
  obtain ⟨n, hn, hrest⟩ := h.read
  exact ⟨n, List.mem_append_left more hn, hrest⟩

theorem WasFound.append {log : GatewayLog} {i : Nat} {key text : String}
    (h : WasFound log i key text) (more : GatewayLog) : WasFound (log ++ more) i key text := by
  obtain ⟨n, hn, hrest⟩ := h
  exact ⟨n, List.mem_append_left more hn, hrest⟩

/-! ### What a move adds -/

/-- What a request has read, sent or been given is what it was before a move, or what the move
says. -/
structure Ghost.Learns (g : Ghost) (m : GatewayMove) (g' : Ghost) : Prop where
  body : g'.body = g.body ∨ ∃ P owned body,
    m = .act (.await (.bytes P) owned) (.ok body) ∧ g'.body = some body
  sent : g'.sent = g.sent ∨ ∃ P req owned answer,
    m = .act (.await (.send P req) owned) answer ∧ g'.sent = some req.body
  hit : g'.hit = g.hit ∨ ∃ key owned answer,
    m = .act (.await (.cacheGet key) owned) answer ∧ g'.hit = answer

theorem learns_next (m : GatewayMove) : g.Learns m (g.next m) := by
  have hsame : ∀ g' : Ghost, g'.body = g.body → g'.sent = g.sent → g'.hit = g.hit →
      g.Learns m g' := fun _ hbody hsent hhit => ⟨Or.inl hbody, Or.inl hsent, Or.inl hhit⟩
  cases m with
  | act e answer =>
      cases e with
      | allowRequest p => cases answer <;> exact hsame _ rfl rfl rfl
      | await a owned =>
          cases a with
          | cacheGet key => exact ⟨Or.inl rfl, Or.inl rfl, Or.inr ⟨key, owned, answer, rfl, rfl⟩⟩
          | cacheInsert key v => exact hsame _ rfl rfl rfl
          | send p req =>
              exact ⟨Or.inl rfl, Or.inr ⟨p, req, owned, answer, rfl, rfl⟩, Or.inl rfl⟩
          | bytes p =>
              cases answer with
              | ok body => exact ⟨Or.inr ⟨p, owned, body, rfl, rfl⟩, Or.inl rfl, Or.inl rfl⟩
              | error e => exact hsame _ rfl rfl rfl
      | _ => exact hsame _ rfl rfl rfl
  | poll item => cases item <;> exact hsame _ rfl rfl rfl
  | drop => exact hsame _ rfl rfl rfl

theorem body_next {body : List UInt8} (h : (g.next m).body = some body) :
    g.body = some body ∨ ∃ P owned, m = .act (.await (.bytes P) owned) (.ok body) := by
  rcases (learns_next m).body with hsame | ⟨P, owned, bs, hm, hbody⟩
  · rw [hsame] at h
    exact Or.inl h
  · rw [hbody] at h
    obtain rfl := Option.some.inj h
    exact Or.inr ⟨P, owned, hm⟩

theorem body_kept (m : GatewayMove) (h : g.body.isSome) : (g.next m).body.isSome := by
  rcases (learns_next m).body with hsame | ⟨P, owned, bs, hm, hbody⟩
  · rw [hsame]
    exact h
  · rw [hbody]
    rfl

theorem sent_next {sent : List UInt8} (h : (g.next m).sent = some sent) :
    g.sent = some sent ∨ ∃ P req owned answer,
      m = .act (.await (.send P req) owned) answer ∧ req.body = sent := by
  rcases (learns_next m).sent with hsame | ⟨P, req, owned, answer, hm, hsent⟩
  · rw [hsame] at h
    exact Or.inl h
  · rw [hsent] at h
    exact Or.inr ⟨P, req, owned, answer, hm, Option.some.inj h⟩

theorem hit_next {text : String} (h : (g.next m).hit = some text) :
    g.hit = some text ∨ ∃ key owned, m = .act (.await (.cacheGet key) owned) (some text) := by
  rcases (learns_next m).hit with hsame | ⟨key, owned, answer, hm, hhit⟩
  · rw [hsame] at h
    exact Or.inl h
  · rw [hhit] at h
    subst h
    exact Or.inr ⟨key, owned, hm⟩

/-- The attempt has been sent. -/
def Phase.IsSent : Phase → Prop
  | .idle => False
  | .admitted _ => False
  | .answered _ _ => True
  | .reading _ => True
  | .broken _ _ => True

theorem isSent_next (hm : Kernel.Allowed (discipline x) g m)
    (h : g.phase.IsSent → g.sent.isSome) : (g.next m).phase.IsSent → (g.next m).sent.isSome := by
  cases m with
  | act e answer =>
      cases e with
      | allowRequest p =>
          cases answer with
          | false => exact h
          | true => exact False.elim
      | recordSuccess p =>
          obtain ⟨s, hphase, -⟩ := hm
          exact fun _ => h (hphase ▸ trivial)
      | recordFailure p => exact False.elim
      | await a owned =>
          cases a with
          | bytes p =>
              cases answer with
              | ok bs => exact False.elim
              | error e => exact fun _ => h (hm.2 ▸ trivial)
          | send p req => exact fun _ => rfl
          | _ => exact h
      | _ => exact h
  | poll item =>
      cases item with
      | chunk bs => exact h
      | ended =>
          show g.phase.finished.IsSent → g.sent.isSome
          cases hphase : g.phase with
          | reading p => exact False.elim
          | _ => rw [hphase] at h; exact h
      | _ =>
          show (g.phase.breakOff _).IsSent → g.sent.isSome
          cases hphase : g.phase with
          | _ => rw [hphase] at h; exact h
  | drop => exact False.elim

/-- A cache holds what it held, and what was just inserted. -/
theorem answers_exactCache (h : (gateway x st).Answers w l m w') {key text : String}
    (hentry : w'.exactCache key = some text) :
    w.exactCache key = some text ∨
      ∃ owned u, m = .act (.await (.cacheInsert key text) owned) u := by
  obtain ⟨i, c, e, y, -, rfl, hy⟩ | ⟨rfl, -⟩ := h.cases
  · have hresponds : respond st w e c = some (y, w') := hy
    cases e with
    | await a owned =>
        cases a with
        | cacheInsert k v =>
            cases hresponds
            by_cases hkey : key = k
            · subst hkey
              have hvalue : w.exactCache.insert key v key = some text := hentry
              rw [Table.insert_self, Option.some.injEq] at hvalue
              subst hvalue
              exact Or.inr ⟨owned, _, rfl⟩
            · left
              rw [← Table.insert_ne w.exactCache hkey v]
              exact hentry
        | _ =>
            cases c <;> cases hresponds
            exact Or.inl hentry
    | _ => cases hresponds; exact Or.inl hentry
  · exact Or.inl hentry

/-- A lookup that finds a text finds one that is there. -/
theorem answers_cacheGet {key text : String} {owned : Option ReservationHandle}
    (h : (gateway x st).Answers w l (.act (.await (.cacheGet key) owned) (some text)) w') :
    w.exactCache key = some text := by
  obtain ⟨c, hy⟩ := h.act
  cases c with
  | cached found =>
      cases found with
      | true => exact (Prod.mk.inj (Option.some.inj hy)).1
      | false => cases hy
  | _ => cases hy

/-! ### The invariant -/

/-- `text` is the body request `j` read, and `key` is its key. -/
structure Source (x : Crates) (gs : List Ghost) (log : GatewayLog) (key text : String)
    (j : Nat) : Prop where
  ghost : ∃ g sent body, gs[j]? = some g ∧ g.body.isSome ∧ g.request.call.key x = some key ∧
    g.request.call.forwarded x = some sent ∧ Fetched log j sent body ∧ text = fromUtf8Lossy body

/-- Later states of the same requests. -/
def Extends (gs gs' : List Ghost) : Prop :=
  ∀ (j : Nat) (g : Ghost), gs[j]? = some g →
    ∃ g' : Ghost, gs'[j]? = some g' ∧ g'.request = g.request ∧ (g.body.isSome → g'.body.isSome)

theorem extends_append (gs more : List Ghost) : Extends gs (gs ++ more) := by
  intro j g hj
  have hlt := (List.getElem?_eq_some_iff.mp hj).1
  exact ⟨g, by rw [List.getElem?_append_left hlt]; exact hj, rfl, id⟩

theorem extends_set {i : Nat} (hi : gs[i]? = some g) (m : GatewayMove) :
    Extends gs (gs.set i (g.next m)) := by
  intro j g' hj
  have hlt := (List.getElem?_eq_some_iff.mp hi).1
  by_cases hij : i = j
  · subst hij
    obtain rfl := Option.some.inj (hi.symm.trans hj)
    exact ⟨g.next m, List.getElem?_set_self hlt, request_next g m, body_kept m⟩
  · exact ⟨g', by rw [List.getElem?_set_ne hij]; exact hj, rfl, id⟩

theorem Source.mono {log : GatewayLog} {key text : String} {j : Nat}
    (h : Source x gs log key text j) (hgs : Extends gs gs') (more : GatewayLog) :
    Source x gs' (log ++ more) key text j := by
  obtain ⟨g, sent, body, hj, hbody, hkey, hforwarded, hfetched, htext⟩ := h
  obtain ⟨g', hj', hrequest, hkept⟩ := hgs j g hj
  exact ⟨g', sent, body, hj', hkept hbody, hrequest ▸ hkey, hrequest ▸ hforwarded,
    hfetched.append more, htext⟩

/-- Request `i` found `text`, which another request had read before. -/
def Hit (x : Crates) (gs : List Ghost) (log : GatewayLog) (i : Nat) (key text : String) : Prop :=
  ∃ before after j, log = before ++ after ∧ WasFound after i key text ∧
    Source x gs before key text j ∧ j ≠ i

theorem Hit.mono {log : GatewayLog} {i : Nat} {key text : String} (h : Hit x gs log i key text)
    (hgs : Extends gs gs') (more : GatewayLog) : Hit x gs' (log ++ more) i key text := by
  obtain ⟨before, after, j, rfl, hfound, hsource, hne⟩ := h
  refine ⟨before, after ++ more, j, List.append_assoc before after more, hfound.append more, ?_,
    hne⟩
  have := hsource.mono hgs []
  rwa [List.append_nil] at this

/-- Where everything the cache and the requests hold came from. -/
structure Coherent (x : Crates) (w : World) (gs : List Ghost) (log : GatewayLog) : Prop where
  entries : ∀ key text, w.exactCache key = some text → ∃ j, Source x gs log key text j
  sents : ∀ (j : Nat) (g : Ghost) (sent : List UInt8), gs[j]? = some g → g.sent = some sent →
    g.request.call.forwarded x = some sent ∧ WasSent log j sent
  phases : ∀ g ∈ gs, g.phase.IsSent → g.sent.isSome
  bodies : ∀ (j : Nat) (g : Ghost) (body : List UInt8), gs[j]? = some g → g.body = some body →
    ∃ sent, g.request.call.forwarded x = some sent ∧ Fetched log j sent body
  hits : ∀ (i : Nat) (g : Ghost) (text : String), gs[i]? = some g → g.hit = some text →
    ∃ key, g.request.call.key x = some key ∧ Hit x gs log i key text

namespace Coherent

variable {log : GatewayLog}

theorem initial (start : Instant) : Coherent x (.initial start) [] [] where
  entries key text h := by cases h
  sents j g sent h := by simp at h
  phases g h := absurd h List.not_mem_nil
  bodies j g body h := by simp at h
  hits i g text h := by simp at h

/-- A ghost of an extended list is an old one or the new one. -/
theorem getElem?_append_start {j : Nat} {r : HttpRequest}
    (h : (gs ++ [Ghost.start r])[j]? = some g) : gs[j]? = some g ∨ g = Ghost.start r := by
  rcases Nat.lt_or_ge j gs.length with hlt | hge
  · rw [List.getElem?_append_left hlt] at h
    exact Or.inl h
  · rw [List.getElem?_append_right hge, List.getElem?_singleton] at h
    split at h
    · exact Or.inr (Option.some.inj h).symm
    · cases h

theorem spawn (h : Coherent x w gs log) (r : HttpRequest) :
    Coherent x w (gs ++ [Ghost.start r]) log := by
  have hext := extends_append gs [Ghost.start r]
  refine ⟨?_, ?_, ?_, ?_, ?_⟩
  · intro key text hentry
    obtain ⟨j, hj⟩ := h.entries key text hentry
    have := hj.mono hext []
    rw [List.append_nil] at this
    exact ⟨j, this⟩
  · intro j g sent hj hsent
    rcases getElem?_append_start hj with hold | rfl
    · exact h.sents j g sent hold hsent
    · cases hsent
  · intro g hg hphase
    rcases List.mem_append.mp hg with hold | hnew
    · exact h.phases g hold hphase
    · obtain rfl := List.mem_singleton.mp hnew
      exact hphase.elim
  · intro j g body hj hbody
    rcases getElem?_append_start hj with hold | rfl
    · exact h.bodies j g body hold hbody
    · cases hbody
  · intro i g text hi hhit
    rcases getElem?_append_start hi with hold | rfl
    · obtain ⟨key, hkey, hfrom⟩ := h.hits i g text hold hhit
      have := hfrom.mono hext []
      rw [List.append_nil] at this
      exact ⟨key, hkey, this⟩
    · cases hhit

/-- A ghost of a changed list is an old one, or the one that moved. -/
theorem getElem?_set_next {i j : Nat} {g' : Ghost} (hi : gs[i]? = some g)
    (h : (gs.set i (g.next m))[j]? = some g') :
    (i ≠ j ∧ gs[j]? = some g') ∨ (i = j ∧ g' = g.next m) := by
  by_cases hij : i = j
  · subst hij
    rw [List.getElem?_set_self (List.getElem?_eq_some_iff.mp hi).1] at h
    exact Or.inr ⟨rfl, (Option.some.inj h).symm⟩
  · rw [List.getElem?_set_ne hij] at h
    exact Or.inl ⟨hij, h⟩

section Move

variable {i : Nat} (h : Coherent x w gs log) (hi : gs[i]? = some g)
  (hm : Kernel.Allowed (discipline x) g m) (hans : (gateway x st).Answers w l m w')

include h hi hm

theorem sents_move (time : Instant) {j : Nat} {g' : Ghost} {sent : List UInt8}
    (hj : (gs.set i (g.next m))[j]? = some g') (hsent : g'.sent = some sent) :
    g'.request.call.forwarded x = some sent ∧ WasSent (log ++ [⟨i, time, m⟩]) j sent := by
  rcases getElem?_set_next hi hj with ⟨-, hold⟩ | ⟨rfl, rfl⟩
  · obtain ⟨hforwarded, hwas⟩ := h.sents j g' sent hold hsent
    exact ⟨hforwarded, hwas.append _⟩
  · rw [request_next]
    rcases sent_next hsent with hsame | ⟨P, req, owned, answer, rfl, rfl⟩
    · obtain ⟨hforwarded, hwas⟩ := h.sents i g sent hi hsame
      exact ⟨hforwarded, hwas.append _⟩
    · exact ⟨hm.2.2, _, List.mem_append_right _ (List.mem_singleton.mpr rfl), rfl, P, req, owned,
        answer, rfl, rfl⟩

theorem bodies_move (time : Instant) {j : Nat} {g' : Ghost} {body : List UInt8}
    (hj : (gs.set i (g.next m))[j]? = some g') (hbody : g'.body = some body) :
    ∃ sent, g'.request.call.forwarded x = some sent ∧
      Fetched (log ++ [⟨i, time, m⟩]) j sent body := by
  rcases getElem?_set_next hi hj with ⟨-, hold⟩ | ⟨rfl, rfl⟩
  · obtain ⟨sent, hforwarded, hfetched⟩ := h.bodies j g' body hold hbody
    exact ⟨sent, hforwarded, hfetched.append _⟩
  · rw [request_next]
    rcases body_next hbody with hsame | ⟨P, owned, rfl⟩
    · obtain ⟨sent, hforwarded, hfetched⟩ := h.bodies i g body hi hsame
      exact ⟨sent, hforwarded, hfetched.append _⟩
    · have hphase : g.phase = .reading P := hm.2
      obtain ⟨sent, hsent⟩ := Option.isSome_iff_exists.mp
        (h.phases g (List.mem_of_getElem? hi) (hphase ▸ trivial))
      obtain ⟨hforwarded, hwas⟩ := h.sents i g sent hi hsent
      exact ⟨sent, hforwarded, hwas.append _,
        _, List.mem_append_right _ (List.mem_singleton.mpr rfl), rfl, P, owned, rfl⟩

include hans

theorem entries_move (time : Instant) {key text : String}
    (hentry : w'.exactCache key = some text) :
    ∃ j, Source x (gs.set i (g.next m)) (log ++ [⟨i, time, m⟩]) key text j := by
  have hext := extends_set hi m
  rcases answers_exactCache hans hentry with hold | ⟨owned, u, rfl⟩
  · obtain ⟨j, hj⟩ := h.entries key text hold
    exact ⟨j, hj.mono hext _⟩
  · -- what is inserted is the body that was read, under the request's own key
    obtain ⟨-, hkey, body, hbody, htext⟩ := hm
    obtain ⟨sent, hforwarded, hfetched⟩ := h.bodies i g body hi hbody
    have hsource : Source x gs log key text i :=
      ⟨g, sent, body, hi, by rw [hbody]; rfl, hkey, hforwarded, hfetched, htext⟩
    exact ⟨i, hsource.mono hext _⟩

theorem hits_move (time : Instant) {j : Nat} {g' : Ghost} {text : String}
    (hj : (gs.set i (g.next m))[j]? = some g') (hhit : g'.hit = some text) :
    ∃ key, g'.request.call.key x = some key ∧
      Hit x (gs.set i (g.next m)) (log ++ [⟨i, time, m⟩]) j key text := by
  have hext := extends_set hi m
  rcases getElem?_set_next hi hj with ⟨-, hold⟩ | ⟨rfl, rfl⟩
  · obtain ⟨key, hkey, hfrom⟩ := h.hits j g' text hold hhit
    exact ⟨key, hkey, hfrom.mono hext _⟩
  · rw [request_next]
    rcases hit_next hhit with hsame | ⟨key, owned, rfl⟩
    · obtain ⟨key, hkey, hfrom⟩ := h.hits i g text hi hsame
      exact ⟨key, hkey, hfrom.mono hext _⟩
    · obtain ⟨-, hunread, hkey⟩ := hm
      obtain ⟨j, hsource⟩ := h.entries key text (answers_cacheGet hans)
      refine ⟨key, hkey, log, _, j, rfl,
        ⟨_, List.mem_singleton.mpr rfl, rfl, owned, rfl⟩, ?_, ?_⟩
      · have := hsource.mono hext []
        rwa [List.append_nil] at this
      · -- the source has read a body, the one that looks up has not
        rintro rfl
        obtain ⟨g', -, -, hg', hread, -⟩ := hsource
        obtain rfl := Option.some.inj (hi.symm.trans hg')
        rw [hunread] at hread
        cases hread

/-- **A move keeps the cache coherent.** -/
theorem move (time : Instant) :
    Coherent x w' (gs.set i (g.next m)) (log ++ [⟨i, time, m⟩]) where
  entries _ _ := h.entries_move hi hm hans time
  sents _ _ _ := h.sents_move hi hm time
  phases g' hg' := by
    rcases List.mem_or_eq_of_mem_set hg' with hold | rfl
    · exact h.phases g' hold
    · exact isSent_next hm (h.phases g (List.mem_of_getElem? hi))
  bodies _ _ _ := h.bodies_move hi hm time
  hits _ _ _ := h.hits_move hi hm hans time

end Move

end Coherent

/-- **Every reachable state is coherent.** -/
theorem Gateway.Reachable.coherent {start : Instant} {p : Gateway.State}
    (h : Gateway.Reachable x st start p) : Coherent x p.world (p.shadow x) p.log := by
  refine Machine.Reaches.shadow (J := fun w gs log => Coherent x w gs log) gateway_disciplined
    (initial_conforms start) (Coherent.initial start) ?_ ?_ ?_ h
  · intro p v w _ hw hc
    obtain rfl := Option.some.inj hw
    exact ⟨hc.entries, hc.sents, hc.phases, hc.bodies, hc.hits⟩
  · intro p r hc
    exact hc.spawn r
  · intro p l i g m w _ _ hi hm hans hc
    exact hc.move hi hm hans _

/-- `resp`, the answer to request `i`, is the text of `body`, which request `j` had read before
`i` made its lookup.  Request `j` does not stream, and has the model and the forwarded bytes of
`i`. -/
structure ServedFrom (x : Crates) (p : Gateway.State) (i : Nat) (r : HttpRequest)
    (resp : Response BodyStream) (j : Nat) (body : List UInt8) : Prop where
  earlier : j ≠ i ∧ ∃ before after sent key, p.log = before ++ after ∧
    Fetched before j sent body ∧ WasFound after i key (fromUtf8Lossy body) ∧
    r.call.forwarded x = some sent
  alike : ∃ payload r' t' payload', r.call = .chat (.ok payload) ∧
    p.tasks[j]? = some (r', t') ∧ r'.call = .chat (.ok payload') ∧ payload'.stream = false ∧
    payload'.model = payload.model ∧ r'.call.forwarded x = r.call.forwarded x
  answer : resp.body = .full (asBytes (fromUtf8Lossy body))

/--
**A cache hit answers with what an upstream said to an earlier request of the same text.**
Whatever characters the model and the prompt contain, the request whose response was cached
had both in common with the request that is answered.
-/
theorem cache_coherent (hx : x.Writes ryu) (hsha : Function.Injective x.sha256Hex)
    {start : Instant} {p : Gateway.State} (hp : Gateway.Reachable x st start p) {i : Nat}
    {r : HttpRequest} {t : Task gatewaySig Idle} (ht : p.tasks[i]? = some (r, t))
    {resp : Response BodyStream} (hresp : t.prog = .ret (.responded resp))
    (hhit : ("x-cache", "HIT") ∈ resp.headers) : ∃ j body, ServedFrom x p i r resp j body := by
  have hghost := Pool.getElem?_ghosts (discipline x) Ghost.start ht
  have hsettled := (hp.obeys ht).2.1
  rw [hresp] at hsettled
  obtain ⟨text, hfound, hbody⟩ := hsettled.1 hhit
  obtain ⟨key, hkey, before, after, j, hlog, hwas, ⟨g', sent, body, hj, -, hkey', hforwarded,
    hfetched, rfl⟩, hne⟩ := hp.coherent.hits i _ text hghost hfound
  obtain ⟨r', t', ht', rfl⟩ := Pool.exists_task_of_ghost hj
  rw [run_request] at hkey hkey' hforwarded
  obtain ⟨payload, hcall, hkey⟩ := key_some hkey
  obtain ⟨payload', hcall', hkey'⟩ := key_some hkey'
  obtain ⟨hmodel, hsame⟩ := key_injective hx hsha hkey' hkey
  rw [← hcall, ← hcall'] at hsame
  exact ⟨j, body, ⟨hne, before, after, sent, key, hlog, hfetched, hwas, hsame ▸ hforwarded⟩,
    ⟨payload, r', t', payload', hcall, ht', hcall', (requestKey_some hx hkey').1, hmodel, hsame⟩,
    hbody⟩

/-- The digests of the one key and the one payload. -/
def repeatCrates : Crates :=
  .table
    [smallKey,
      (hashedBytes .table (smallPayload false 10),
        "7e8c5bb89495e4047717463eeec09b1ae969daf09aca49f835e0e0251dcab1e2")] []

/-- A gateway with one provider and one client. -/
def repeatGateway : AppState := smallGateway repeatCrates ⟨1, 10, 1⟩ 100

/-- One request after the other, with one text. -/
def repeatRun : Gateway.State :=
  (Gateway.replay repeatCrates repeatGateway (fun _ _ => true) (fun _ _ _ _ => ())
    [.spawn (smallChat false 10), goes 0, goes 0, .act 0 (.cached false), goes 0, goes 0, goes 0,
      answers 0, goes 0, goes 0, goes 0, .act 0 (.read (.ok (asBytes "hello"))),
      goes 0, goes 0, goes 0, .spawn (smallChat false 10), goes 1, goes 1, .act 1 (.cached true),
      goes 1, goes 1, goes 1, goes 1]).1

/-- The response of a task that has answered. -/
def responseOf (t : Task gatewaySig Idle) : Option (Response BodyStream) :=
  match t.prog with
  | .ret (.responded r) => some r
  | _ => none

theorem responseOf_some {t : Task gatewaySig Idle} {resp : Response BodyStream}
    (h : responseOf t = some resp) : t.prog = .ret (.responded resp) := by
  unfold responseOf at h
  split at h
  · rename_i hprog
    obtain rfl := Option.some.inj h
    exact hprog
  · cases h

/-- The second request is a hit. -/
theorem cache_coherent_repeat :
    ∃ r resp j body, ServedFrom repeatCrates repeatRun 1 r resp j body := by
  have hheader : (repeatRun.tasks[1]?.bind fun t => (responseOf t.2).map fun resp =>
      decide (("x-cache", "HIT") ∈ resp.headers)) = some true := by decide +kernel
  obtain ⟨⟨r, t⟩, ht, hrest⟩ := Option.bind_eq_some_iff.mp hheader
  obtain ⟨resp, hresp, hhit⟩ := Option.map_eq_some_iff.mp hrest
  have hsha : Function.Injective repeatCrates.sha256Hex :=
    digestTable_injective (by decide) (by decide)
  obtain ⟨j, body, hserved⟩ := cache_coherent (Crates.table_writes _ _) hsha
    (Gateway.replay_reachable _ _ _) ht (responseOf_some hresp) (of_decide_eq_true hhit)
  exact ⟨r, resp, j, body, hserved⟩

end LlmGateway
