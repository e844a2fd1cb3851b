/-
Where the entries of the exact cache come from.

The cache is meant for requests whose answer does not vary: `exact.rs` calls a request
cacheable iff its temperature is 0, and `chat.rs` calls what it inserts a success.  Both
are decided by what is left over, a temperature that is not positive and a status that is
neither retried nor a client error.  So the law holds of the runs in which nothing else is
left over, which `documented` says step by step.
-/
import LlmGateway.Proofs.Coherence

namespace LlmGateway

open Effects

variable {x : Crates} {st : AppState} {w w' : World} {g : Ghost} {m : GatewayMove}
  {l : GatewayLabel} {gs : List Ghost}

/-! ### What a request was answered -/

/-- The status of the last response of a request, and the body it read last with the status
that came with it. -/
structure Received where
  answer : Option StatusCode
  read : Option (StatusCode × List UInt8)

/-- A response begins with its status, and is complete with its body. -/
def Received.next (u : Received) : GatewayMove → Received
  | .act (.await (.send _ _) _) answer => { u with answer := answer.toOption }
  | .act (.await (.bytes _) _) (.ok body) => { u with read := u.answer.map (·, body) }
  | _ => u

/-- The responses in a list of moves. -/
def received (ms : List GatewayMove) : Received := ms.foldl Received.next ⟨none, none⟩

theorem received_snoc (ms : List GatewayMove) (m : GatewayMove) :
    received (ms ++ [m]) = (received ms).next m := by
  simp [received]

/-- The statuses the handlers have a name for. -/
def StatusCode.usual (s : StatusCode) : Bool := s.isSuccess || s.isClientError || s.isServerError

/-- A usual status that is neither retried nor rejected is a success. -/
theorem StatusCode.isSuccess_of_usual {s : StatusCode} (h : s.usual = true)
    (hretry : isRetryableUpstreamStatus s = false) (hreject : isNonRetryableClientError s = false) :
    s.isSuccess = true := by
  simp only [isRetryableUpstreamStatus, Bool.or_eq_false_iff] at hretry
  obtain ⟨⟨hserver, h429⟩, h408⟩ := hretry
  have hclient : s.isClientError = false := by
    simpa [isNonRetryableClientError, bne, h429, h408] using hreject
  simpa [usual, hserver, hclient] using h

/-- The status of the response is known while the request deals with it, and is a success
once the body is read. -/
structure Tracks (g : Ghost) (u : Received) : Prop where
  answered : ∀ P s, g.phase = .answered P (.ok s) → u.answer = some s ∧ s.usual = true
  reading : ∀ P, g.phase = .reading P → ∃ s, u.answer = some s ∧ s.isSuccess = true
  read : ∀ body, g.body = some body → ∃ s, u.read = some (s, body) ∧ s.isSuccess = true

/-- The answer to a send is an error or has a usual status. -/
def Usual : GatewayMove → Prop
  | .act (.await (.send _ _) _) (.ok s) => s.usual = true
  | _ => True

theorem Tracks.start (r : HttpRequest) : Tracks (Ghost.start r) (received []) where
  answered P s h := by cases h
  reading P h := by cases h
  read body h := by cases h

/-- No response is being dealt with. -/
def Phase.Aside : Phase → Prop
  | .answered _ _ => False
  | .reading _ => False
  | _ => True

theorem aside_poll (g : Ghost) (item : StreamItem) :
    (g.next (.poll item)).phase = g.phase ∨ (g.next (.poll item)).phase.Aside := by
  have hfinished : g.phase.finished = g.phase ∨ g.phase.finished.Aside := by
    cases g.phase <;> simp [Phase.finished, Phase.Aside]
  have hbroken : ∀ o, g.phase.breakOff o = g.phase ∨ (g.phase.breakOff o).Aside := by
    intro o
    cases g.phase <;> simp [Phase.breakOff, Phase.Aside]
  cases item with
  | chunk bs => exact Or.inl rfl
  | error e => exact hbroken .streamError
  | idleTimeout => exact hbroken .idleTimeout
  | ended => exact hfinished

/-- A move that deals with no response. -/
theorem Tracks.quiet {u : Received} (h : Tracks g u)
    (hphase : (g.next m).phase = g.phase ∨ (g.next m).phase.Aside)
    (hbody : (g.next m).body = g.body) (hu : u.next m = u) : Tracks (g.next m) (u.next m) := by
  rw [hu]
  refine ⟨?_, ?_, ?_⟩
  · intro P s hP
    rcases hphase with hsame | haside
    · exact h.answered P s (hsame ▸ hP)
    · rw [hP] at haside
      exact haside.elim
  · intro P hP
    rcases hphase with hsame | haside
    · exact h.reading P (hsame ▸ hP)
    · rw [hP] at haside
      exact haside.elim
  · intro body hbody'
    exact h.read body (hbody ▸ hbody')

/-- A response that is neither retried nor rejected is read. -/
theorem Tracks.succeeded {u : Received} (h : Tracks g u) {p : String} {s : StatusCode}
    (hphase : g.phase = .answered p (.ok s)) (hretry : isRetryableUpstreamStatus s = false) :
    Tracks { g with phase := g.phase.succeeded } u := by
  obtain ⟨hanswer, hs⟩ := h.answered p s hphase
  rw [hphase, Phase.succeeded]
  by_cases hreject : isNonRetryableClientError s = true
  · rw [if_pos hreject]
    refine ⟨?_, ?_, h.read⟩
    · intro P s' hP
      simp at hP
    · intro P hP
      simp at hP
  · rw [if_neg hreject]
    refine ⟨?_, ?_, h.read⟩
    · intro P s' hP
      simp at hP
    · intro P _
      exact ⟨s, hanswer, s.isSuccess_of_usual hs hretry (by simpa using hreject)⟩

theorem Tracks.move {u : Received} (h : Tracks g u) (hm : Kernel.Allowed (discipline x) g m)
    (husual : Usual m) : Tracks (g.next m) (u.next m) := by
  cases m with
  | act e answer =>
      cases e with
      | allowRequest p =>
          cases answer with
          | false => exact h
          | true => exact h.quiet (Or.inr trivial) rfl rfl
      | recordSuccess p =>
          obtain ⟨s, hphase, hretry⟩ := hm
          exact h.succeeded hphase hretry
      | recordFailure p => exact h.quiet (Or.inr trivial) rfl rfl
      | await a owned =>
          cases a with
          | send p req =>
              refine ⟨?_, nofun, h.read⟩
              intro P s hP
              obtain ⟨rfl, rfl⟩ := Phase.answered.inj hP
              exact ⟨rfl, husual⟩
          | bytes p =>
              cases answer with
              | error e => exact h.quiet (Or.inr trivial) rfl rfl
              | ok body =>
                  obtain ⟨s, hanswer, hs⟩ := h.reading p hm.2
                  refine ⟨nofun, nofun, ?_⟩
                  intro body' hbody'
                  obtain rfl := Option.some.inj hbody'
                  exact ⟨s, by simp [Received.next, hanswer], hs⟩
          | _ => exact h.quiet (Or.inl rfl) rfl rfl
      | _ => exact h.quiet (Or.inl rfl) rfl rfl
  | poll item => exact h.quiet (aside_poll g item) (by cases item <;> rfl) rfl
  | drop => exact h.quiet (Or.inr trivial) rfl rfl

/-- **A request whose responses all have usual statuses only reads successes.** -/
theorem tracks {r : HttpRequest} (ms : List GatewayMove)
    (hobeys : (discipline x).Obeys (Ghost.start r) ms) (husual : ∀ m ∈ ms, Usual m) :
    Tracks ((discipline x).run (Ghost.start r) ms) (received ms) := by
  induction ms using List.reverseRecOn with
  | nil => exact Tracks.start r
  | append_singleton ms m ih =>
      obtain ⟨hbefore, hm⟩ := Kernel.allowed_of_obeys hobeys
      rw [Protocol.run_append, received_snoc]
      have htracks := ih hbefore fun n hn => husual n (by simp [hn])
      exact htracks.move hm (husual m (by simp))

/-! ### Where a hit comes from -/

/-- Request `j` inserted `text` under `key`. -/
def WasInserted (log : GatewayLog) (j : Nat) (key text : String) : Prop :=
  ∃ n ∈ log, n.task = j ∧ ∃ owned u, n.move = .act (.await (.cacheInsert key text) owned) u

theorem WasInserted.append {log : GatewayLog} {j : Nat} {key text : String}
    (h : WasInserted log j key text) (more : GatewayLog) :
    WasInserted (log ++ more) j key text := by
  obtain ⟨n, hn, hrest⟩ := h
  exact ⟨n, List.mem_append_left more hn, hrest⟩

/-- Request `i` found `text`, which some request had inserted before. -/
def FoundInserted (log : GatewayLog) (i : Nat) (text : String) : Prop :=
  ∃ before after key j, log = before ++ after ∧ WasInserted before j key text ∧
    WasFound after i key text

theorem FoundInserted.append {log : GatewayLog} {i : Nat} {text : String}
    (h : FoundInserted log i text) (more : GatewayLog) : FoundInserted (log ++ more) i text := by
  obtain ⟨before, after, key, j, rfl, hinserted, hfound⟩ := h
  exact ⟨before, after ++ more, key, j, List.append_assoc before after more, hinserted,
    hfound.append more⟩

/-- Whatever is in the cache, and whatever was found in it, was inserted. -/
structure Inserted (w : World) (gs : List Ghost) (log : GatewayLog) : Prop where
  entries : ∀ key text, w.exactCache key = some text → ∃ j, WasInserted log j key text
  hits : ∀ (i : Nat) (g : Ghost) (text : String), gs[i]? = some g → g.hit = some text →
    FoundInserted log i text

theorem Inserted.initial (start : Instant) : Inserted (.initial start) [] [] where
  entries key text h := by cases h
  hits i g text h := by simp at h

theorem Inserted.move {log : GatewayLog} (h : Inserted w gs log) {i : Nat} (hi : gs[i]? = some g)
    (hans : (gateway x st).Answers w l m w') (time : Instant) :
    Inserted w' (gs.set i (g.next m)) (log ++ [⟨i, time, m⟩]) where
  entries key text hentry := by
    rcases answers_exactCache hans hentry with hold | ⟨owned, u, rfl⟩
    · obtain ⟨j, hj⟩ := h.entries key text hold
      exact ⟨j, hj.append _⟩
    · exact ⟨i, _, List.mem_append_right _ (List.mem_singleton.mpr rfl), rfl, owned, u, rfl⟩
  hits j g' text hj hhit := by
    rcases Coherent.getElem?_set_next hi hj with ⟨-, hold⟩ | ⟨rfl, rfl⟩
    · exact (h.hits j g' text hold hhit).append _
    · rcases hit_next hhit with hsame | ⟨key, owned, rfl⟩
      · exact (h.hits i g text hi hsame).append _
      · obtain ⟨j, hinserted⟩ := h.entries key text (answers_cacheGet hans)
        exact ⟨log, _, key, j, rfl, hinserted, _, List.mem_singleton.mpr rfl, rfl, owned, rfl⟩

theorem Gateway.Reachable.inserted {start : Instant} {p : Gateway.State}
    (h : Gateway.Reachable x st start p) : Inserted p.world (p.shadow x) p.log := by
  refine Machine.Reaches.shadow (J := Inserted) gateway_disciplined
    (initial_conforms start) (Inserted.initial start) ?_ ?_ ?_ h
  · intro p v w _ hw hc
    obtain rfl := Option.some.inj hw
    exact ⟨hc.entries, hc.hits⟩
  · intro p r hc
    refine ⟨hc.entries, ?_⟩
    intro i g text hi hhit
    rcases Coherent.getElem?_append_start hi with hold | rfl
    · exact hc.hits i g text hold hhit
    · cases hhit
  · intro p l i g m w _ _ hi hm hans hc
    exact hc.move hi hans _

/-! ### The law -/

/-- The request does not stream and has temperature 0, and the body it read last, `text`, came
with a success; `before` is what it has done so far. -/
structure IsDeterministic (r : HttpRequest) (before : List GatewayMove) (text : String) :
    Prop where
  request : ∃ payload, r.call = .chat (.ok payload) ∧ payload.stream = false ∧
    payload.temperature.isZero = true
  response : ∃ status body, (received before).read = some (status, body) ∧
    status.isSuccess = true ∧ text = fromUtf8Lossy body

/-- Everything that was inserted came from deterministic successes, and every hit is the text of
an earlier insertion. -/
structure OnlyDeterministic (p : Gateway.State) : Prop where
  inserts : ∀ i r t before after key text owned u, p.tasks[i]? = some (r, t) →
    p.movesOf i = before ++ .act (.await (.cacheInsert key text) owned) u :: after →
    IsDeterministic r before text
  hits : ∀ i r t resp, p.tasks[i]? = some (r, t) → t.prog = .ret (.responded resp) →
    ("x-cache", "HIT") ∈ resp.headers →
    ∃ text, resp.body = .full (asBytes text) ∧ FoundInserted p.log i text

/-- The temperature of a request that is not streamed is zero or positive. -/
def ApiCall.temperate : ApiCall → Bool
  | .chat (.ok r) => r.stream || r.temperature.isZero || r.temperature.gtZero
  | _ => true

/-- The steps the documentation speaks of: no request has a negative temperature, and the
response to a request with a cache key has a usual status. -/
def documented (x : Crates) (p : Gateway.State) : GatewayLabel → Bool
  | .spawn r => r.call.temperate
  | .act i (.sent (.ok s)) =>
      match p.tasks[i]? with
      | some (r, _) => (r.call.key x).isNone || s.usual
      | none => true
  | _ => true

/-- A request with a key is one that does not stream and whose temperature is not positive. -/
theorem key_some_cases {call : ApiCall} {key : String} (h : call.key x = some key) :
    ∃ payload, call = .chat (.ok payload) ∧ payload.stream = false ∧
      payload.temperature.gtZero = false := by
  obtain ⟨payload, rfl, hkey⟩ := key_some h
  refine ⟨payload, rfl, ?_⟩
  unfold requestKey at hkey
  cases htext : x.chatToString (injectStreamOptions payload) with
  | error e =>
      rw [htext] at hkey
      cases hkey
  | ok text =>
      rw [htext] at hkey
      simp only [chatCacheKey, injectStreamOptions_stream] at hkey
      cases hstream : payload.stream with
      | true => simp [hstream] at hkey
      | false =>
          rw [injectStreamOptions_of_not_stream hstream, hstream] at hkey
          refine ⟨rfl, ?_⟩
          simp only [computeKey, Bool.false_eq_true, if_false] at hkey
          by_cases hpositive : payload.temperature.gtZero = true
          · simp [hpositive] at hkey
          · simpa using hpositive

section Documented

variable {start : Instant} {p : Gateway.State}

theorem temperate_of_documented
    (h : (gateway x st).Reaches (fun p l => documented x p l = true)
      (Gateway.State.initial start) p) {i : Nat} {r : HttpRequest} {t : Task gatewaySig Idle}
    (ht : p.tasks[i]? = some (r, t)) : r.call.temperate = true :=
  Machine.Reaches.requests (P := fun r => r.call.temperate = true) rfl (fun _ _ hr => hr) h i r t ht

/-- The response to a request that has a key has a usual status. -/
theorem usual_of_documented
    (h : (gateway x st).Reaches (fun p l => documented x p l = true)
      (Gateway.State.initial start) p) {i : Nat} {r : HttpRequest} {t : Task gatewaySig Idle}
    (ht : p.tasks[i]? = some (r, t)) (hkey : (r.call.key x).isSome) :
    ∀ m ∈ p.movesOf i, Usual m := by
  intro m hm
  obtain ⟨n, hn, rfl, rfl⟩ := Pool.mem_movesOf.mp hm
  have hlogged := Machine.Reaches.logged
    (P := fun r m => (r.call.key x).isSome → Usual m) rfl ?_ h n hn
  · obtain ⟨r', t', ht', husual⟩ := hlogged
    obtain ⟨rfl, -⟩ := Prod.mk.inj (Option.some.inj (ht.symm.trans ht'))
    exact husual hkey
  · intro q l j r t t' m w hl hj ht _ hans hkey
    obtain ⟨j', c, e, y, rfl, rfl, hy⟩ | ⟨-, ⟨a, rfl⟩ | rfl⟩ := hans.cases
    · obtain rfl := Option.some.inj hj
      cases e with
      | await a owned =>
          cases a with
          | send P req =>
              cases c with
              | sent answer =>
                  obtain rfl : answer = y := (Prod.mk.inj (Option.some.inj hy)).1
                  cases answer with
                  | error e => trivial
                  | ok s =>
                      simp only [documented, ht] at hl
                      simpa [Option.isSome_iff_ne_none.mp hkey, Usual] using hl
              | _ => cases hy
          | _ => trivial
      | _ => trivial
    · trivial
    · trivial

/-- What a request with a key has inserted. -/
theorem inserts_deterministic
    (h : (gateway x st).Reaches (fun p l => documented x p l = true)
      (Gateway.State.initial start) p) {i : Nat} {r : HttpRequest} {t : Task gatewaySig Idle}
    {before after : List GatewayMove} {key text : String} {owned : Option ReservationHandle}
    {u : Unit} (ht : p.tasks[i]? = some (r, t))
    (hmoves : p.movesOf i = before ++ .act (.await (.cacheInsert key text) owned) u :: after) :
    IsDeterministic r before text := by
  have hobeys := (Gateway.Reachable.obeys (h.mono fun _ _ _ => trivial) ht).1
  rw [hmoves, Protocol.obeys_append] at hobeys
  obtain ⟨hbefore, ⟨-, hkey, body, hbody, htext⟩, -⟩ := hobeys
  rw [run_request] at hkey
  obtain ⟨payload, hcall, hstream, hpositive⟩ := key_some_cases hkey
  have htemperate := temperate_of_documented h ht
  have husual := usual_of_documented h ht (Option.isSome_iff_exists.mpr ⟨key, hkey⟩)
  refine ⟨⟨payload, hcall, hstream, ?_⟩, ?_⟩
  · simpa [hcall, ApiCall.temperate, hstream, hpositive] using htemperate
  · have htracks := tracks before hbefore fun m hm => husual m (by simp [hmoves, hm])
    obtain ⟨s, hread, hs⟩ := htracks.read body hbody
    exact ⟨s, body, hread, hs, htext⟩

/--
**Only deterministic successes are cached, in a run whose temperatures and statuses are the
documented ones.**  A cache hit is the text of an earlier insertion in any run.
-/
theorem cached_deterministic
    (h : (gateway x st).Reaches (fun p l => documented x p l = true)
      (Gateway.State.initial start) p) : OnlyDeterministic p where
  inserts i r t before after key text owned u ht hmoves := inserts_deterministic h ht hmoves
  hits i r t resp ht hresp hhit := by
    have hreach : Gateway.Reachable x st start p := h.mono fun _ _ _ => trivial
    have hsettled := (hreach.obeys ht).2.1
    rw [hresp] at hsettled
    obtain ⟨text, hfound, hbody⟩ := hsettled.1 hhit
    exact ⟨text, hbody, hreach.inserted.hits i _ text
      (Pool.getElem?_ghosts (discipline x) Ghost.start ht) hfound⟩

end Documented

/-! ### Runs -/

/-- The printer, which also prints -1. -/
def coldRyu : Ryu where
  f32 x := if x = ⟨0xbf800000⟩ then "-1.0".toList else Ryu.table.f32 x
  f64 := Ryu.table.f64
  f32_chars := by
    intro x
    split
    · exact chars_of_all (by decide)
    · exact Ryu.table.f32_chars x
  f64_chars := Ryu.table.f64_chars
  f32_zero := rfl
  f32_negZero := rfl
  f64_zero := rfl
  f64_negZero := rfl

section Caching

variable (ok : Gateway.State → GatewayLabel → Bool) (temperature : F32) (status : StatusCode)

/-- A payload with this temperature. -/
def cachingPayload : ChatCompletionRequest :=
  { smallPayload false 10 with temperature := temperature }

/-- The request with this payload. -/
def cachingChat : HttpRequest where
  authorization := some (asBytes "Bearer k")
  call := .chat (.ok (cachingPayload temperature))

/-- The digests of the key and of the payloads with temperature 0 and -1. -/
def cachingCrates : Crates :=
  { Crates.table
      [smallKey,
        (hashedBytes coldRyu (cachingPayload ⟨0⟩),
          "7e8c5bb89495e4047717463eeec09b1ae969daf09aca49f835e0e0251dcab1e2"),
        (hashedBytes coldRyu (cachingPayload ⟨0xbf800000⟩),
          "0e9631f04aa01b4aacb946ebbb6dfcb66e1653bcaaf66a0097bbb73aa65f7b97")] [] with
    chatToString := fun r => .ok (String.ofList (r.json coldRyu)) }

/-- A gateway with one provider and one client. -/
def cachingGateway : AppState := smallGateway cachingCrates ⟨1, 10, 1⟩ 100

/-- A request with this temperature, whose provider answers with this status, and then the same
request again. -/
def cachingRun : Gateway.State :=
  (Gateway.replay cachingCrates cachingGateway ok unobserved
    [.spawn (cachingChat temperature), goes 0, goes 0, .act 0 (.cached false), goes 0, goes 0,
      goes 0, .act 0 (.sent (.ok status)), goes 0, goes 0, goes 0,
      .act 0 (.read (.ok (asBytes "hello"))), goes 0, goes 0, goes 0,
      .spawn (cachingChat temperature), goes 1, goes 1, .act 1 (.cached true),
      goes 1, goes 1, goes 1, goes 1]).1

theorem caching_reachable :
    Gateway.Reachable cachingCrates cachingGateway 0 (cachingRun ok temperature status) :=
  Gateway.replay_reachable _ _ _

end Caching

/-- What a move inserts into the cache. -/
def insertion : GatewayMove → Option (String × String)
  | .act (.await (.cacheInsert key text) _) _ => some (key, text)
  | _ => none

theorem split_insertion {ms : List GatewayMove} {k : Nat}
    (h : (ms[k]?.bind insertion).isSome = true) :
    ∃ key text owned u,
      ms = ms.take k ++ .act (.await (.cacheInsert key text) owned) u :: ms.drop (k + 1) := by
  obtain ⟨⟨key, text⟩, hinsert⟩ := Option.isSome_iff_exists.mp h
  obtain ⟨m, hm, hinsert⟩ := Option.bind_eq_some_iff.mp hinsert
  obtain ⟨hk, rfl⟩ := List.getElem?_eq_some_iff.mp hm
  have hsplit := (List.take_append_drop k ms).symm
  rw [List.drop_eq_getElem_cons hk] at hsplit
  unfold insertion at hinsert
  split at hinsert
  · rename_i key' text' owned u hmove
    rw [hmove] at hsplit
    exact ⟨key', text', owned, u, hsplit⟩
  · cases hinsert

/-- The insertion of a caching run, if there is one, tells what request it came from. -/
theorem caching_insertion {p : Gateway.State} (hp : OnlyDeterministic p)
    (h : ((p.movesOf 0)[11]?.bind insertion).isSome = true) {r : HttpRequest}
    {t : Task gatewaySig Idle} (ht : p.tasks[0]? = some (r, t)) :
    ∃ text, IsDeterministic r ((p.movesOf 0).take 11) text := by
  obtain ⟨key, text, owned, u, hmoves⟩ := split_insertion h
  exact ⟨text, hp.inserts 0 r t _ _ key text owned u ht hmoves⟩

/-- Not Modified, which is neither retried nor refused. -/
def notModified : StatusCode := ⟨304, by decide, by decide⟩

/-- The number -1.0. -/
def minusOne : F32 := ⟨0xbf800000⟩

theorem cold_cached : ¬ OnlyDeterministic (cachingRun anyStep minusOne statusOk) := by
  intro hp
  have hcold : (cachingRun anyStep minusOne statusOk).tasks[0]?.map
      (fun t => t.1.call.temperate) = some false := by decide +kernel
  obtain ⟨⟨r, t⟩, ht, hr⟩ := Option.map_eq_some_iff.mp hcold
  obtain ⟨text, hdet⟩ := caching_insertion hp (by decide +kernel) ht
  obtain ⟨payload, hcall, -, hzero⟩ := hdet.request
  simp [hcall, ApiCall.temperate, hzero] at hr

theorem redirect_cached : ¬ OnlyDeterministic (cachingRun anyStep ⟨0⟩ notModified) := by
  intro hp
  have hread : (received (((cachingRun anyStep ⟨0⟩ notModified).movesOf 0).take 11)).read.map
      (fun a => a.1.isSuccess) = some false := by decide +kernel
  have htask : (cachingRun anyStep ⟨0⟩ notModified).tasks[0]?.isSome = true := by
    decide +kernel
  obtain ⟨⟨r, t⟩, ht⟩ := Option.isSome_iff_exists.mp htask
  obtain ⟨text, hdet⟩ := caching_insertion hp (by decide +kernel) ht
  obtain ⟨s, body, hbody, hs, -⟩ := hdet.response
  rw [hbody] at hread
  simp [hs] at hread

/-- A response at temperature -1 is cached, and so is a redirection at temperature 0. -/
theorem undocumented_cached :
    (Gateway.Reachable cachingCrates cachingGateway 0 (cachingRun anyStep minusOne statusOk) ∧
      ¬ OnlyDeterministic (cachingRun anyStep minusOne statusOk)) ∧
    Gateway.Reachable cachingCrates cachingGateway 0 (cachingRun anyStep ⟨0⟩ notModified) ∧
      ¬ OnlyDeterministic (cachingRun anyStep ⟨0⟩ notModified) :=
  ⟨⟨caching_reachable _ _ _, cold_cached⟩, caching_reachable _ _ _, redirect_cached⟩

/-- At temperature 0 and with status 200 the second request is a hit. -/
theorem cached_deterministic_zero :
    OnlyDeterministic (cachingRun (documented cachingCrates) ⟨0⟩ statusOk) ∧
      ((cachingRun (documented cachingCrates) ⟨0⟩ statusOk).tasks[1]?.bind fun t =>
        (responseOf t.2).map fun resp => decide (("x-cache", "HIT") ∈ resp.headers))
          = some true :=
  ⟨cached_deterministic (Machine.Observed.reaches (Gateway.replay_run _ _ _)), by decide +kernel⟩

end LlmGateway
