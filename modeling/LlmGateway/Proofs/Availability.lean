/-
One sound provider is enough.

A request answers 502 only after it has given up every provider: each was not eligible, or was
not let through, or a failure was recorded on it.  A breaker no failure was recorded on is
CLOSED, so it never turns a request away.  Together: as long as some configured provider has
had no failure recorded, by whichever request, no chat request is answered 502.

The embeddings handler gives up a request when a body breaks off, with whomever that happens;
its 502 says so.
-/
import LlmGateway.Proofs.Travel
import LlmGateway.Proofs.Parity

namespace LlmGateway

open Effects

variable {x : Crates} {st : AppState} {w w' : World} {m : GatewayMove} {l : GatewayLabel}
  {P : String}

/-! ### A sound breaker -/

/-- The breaker of `P` turns a request away, or gets a failure recorded. -/
def turnsAway (P : String) : GatewayMove → Bool
  | .act (.isEligible p) eligible => p == P && !eligible
  | .act (.allowRequest p) allowed => p == P && !allowed
  | .act (.recordFailure p) _ => p == P
  | _ => false

/-- No failure of `P` has been recorded. -/
def Sound (P : String) (log : GatewayLog) : Prop :=
  ∀ n ∈ log, n.move ≠ .act (.recordFailure P) ()

/-- A closed breaker stays closed unless a failure is recorded, and turns nobody away. -/
theorem closed_call {b : CircuitBreaker} (h : b.state = .Closed) (t : Instant) {c : BreakerCall}
    (hc : c ≠ .recordFailure) : (b.call t c).1 = true ∧ (b.call t c).2.state = .Closed := by
  have hstate : b.inner.state = .Closed := h
  cases c with
  | isEligible =>
      refine ⟨?_, h⟩
      show b.isEligible t = true
      simp [CircuitBreaker.isEligible, hstate]
  | allowRequest =>
      show (b.allowRequest t).1 = true ∧ (b.allowRequest t).2.state = .Closed
      unfold CircuitBreaker.allowRequest
      rw [hstate]
      exact ⟨rfl, h⟩
  | recordSuccess =>
      refine ⟨rfl, ?_⟩
      show b.recordSuccess.state = .Closed
      unfold CircuitBreaker.recordSuccess
      rw [hstate, if_neg (by simp)]
      exact h
  | recordFailure => exact absurd rfl hc

/-- An eligibility check answers what the breaker answers. -/
theorem answers_isEligible {answer : Bool}
    (h : (gateway x st).Answers w l (.act (.isEligible P) answer) w') :
    answer = ((w.breakerFor st P).call w.now .isEligible).1 := by
  obtain ⟨c, hy⟩ := h.act
  cases hy
  rfl

/-- The breaker of `P` stays closed. -/
theorem closed_move (h : (w.breakerFor st P).state = .Closed)
    (hm : m ≠ .act (.recordFailure P) ()) (hans : (gateway x st).Answers w l m w') :
    (w'.breakerFor st P).state = .Closed := by
  rw [answers_breaker hans P]
  cases hcall : onBreaker P m with
  | none => exact h
  | some c =>
      refine (closed_call h w.now ?_).2
      rintro rfl
      cases m with
      | act e y =>
          cases e with
          | recordFailure p =>
              obtain ⟨rfl, -⟩ := Option.ite_none_right_eq_some.mp hcall
              exact hm rfl
          | _ => simp [onBreaker] at hcall
      | _ => cases hcall

/-- And it turns nobody away. -/
theorem turnsAway_move (h : (w.breakerFor st P).state = .Closed)
    (hm : m ≠ .act (.recordFailure P) ()) (hans : (gateway x st).Answers w l m w') :
    turnsAway P m = false := by
  cases m with
  | act e y =>
      cases e with
      | isEligible p =>
          by_cases hp : p = P
          · subst hp
            obtain rfl : y = true := (answers_isEligible hans).trans
              (closed_call h w.now (by simp)).1
            simp [turnsAway]
          · simp [turnsAway, hp]
      | allowRequest p =>
          by_cases hp : p = P
          · subst hp
            obtain rfl : y = true := (answers_allowRequest hans).trans
              (closed_call h w.now (by simp)).1
            simp [turnsAway]
          · simp [turnsAway, hp]
      | recordFailure p =>
          have hp : p ≠ P := by
            rintro rfl
            exact hm rfl
          simp [turnsAway, hp]
      | _ => rfl
  | _ => rfl

/-- While no failure of `P` is recorded, its breaker is closed and has turned nobody away. -/
def Welcoming (st : AppState) (P : String) (w : World) (log : GatewayLog) : Prop :=
  Sound P log → (w.breakerFor st P).state = .Closed ∧ ∀ n ∈ log, turnsAway P n.move = false

theorem Welcoming.move {log : GatewayLog} (h : Welcoming st P w log)
    (hans : (gateway x st).Answers w l m w') (i : Nat) :
    Welcoming st P w' (log ++ [⟨i, w.now, m⟩]) := by
  intro hsound
  have hlast : m ≠ .act (.recordFailure P) () := hsound ⟨i, w.now, m⟩ (by simp)
  obtain ⟨hclosed, hall⟩ := h fun n hn => hsound n (List.mem_append_left _ hn)
  refine ⟨closed_move hclosed hlast hans, ?_⟩
  intro n hn
  rcases List.mem_append.mp hn with hold | hnew
  · exact hall n hold
  · rw [List.mem_singleton.mp hnew]
    exact turnsAway_move hclosed hlast hans

theorem Gateway.Reachable.welcoming {start : Instant} {p : Gateway.State}
    (h : Gateway.Reachable x st start p) (P : String) : Welcoming st P p.world p.log := by
  refine Machine.Reaches.shadow (J := fun w _ log => Welcoming st P w log)
    gateway_disciplined (initial_conforms start) ?_ ?_ ?_ ?_ h
  · exact fun _ => ⟨rfl, fun n hn => absurd hn List.not_mem_nil⟩
  · intro p v w _ hw hJ
    obtain rfl := Option.some.inj hw
    exact hJ
  · intro p r hJ
    exact hJ
  · intro p l i g m w _ _ _ hm hans hJ
    exact hJ.move hans i

/-! ### The search -/

variable {upto : List String}

/-- `P` is among these, and only such as are in `upto` come before it. -/
inductive Leads (upto : List String) (P : String) : List ProviderConfig → Prop
  | here {p : ProviderConfig} {rest : List ProviderConfig} (h : p.name = P) :
      Leads upto P (p :: rest)
  | there {p : ProviderConfig} {rest : List ProviderConfig} (hp : p.name ∈ upto)
      (h : Leads upto P rest) : Leads upto P (p :: rest)

/-- One that is not `P` may be passed over. -/
theorem Leads.tail {p : ProviderConfig} {rest : List ProviderConfig} (hp : p.name ≠ P)
    (h : Leads upto P (p :: rest)) : Leads upto P rest := by
  cases h with
  | here hname => exact absurd hname hp
  | there _ hrest => exact hrest

theorem Leads.erase {p : ProviderConfig} {before after : List ProviderConfig} (hp : p.name ≠ P)
    (h : Leads upto P (before ++ p :: after)) : Leads upto P (before ++ after) := by
  induction before with
  | nil => exact h.tail hp
  | cons q before ih =>
      cases h with
      | here hname => exact .here hname
      | there hq hrest => exact .there hq (ih hrest)

/-- The first of them is `P`, or one that may come before. -/
theorem Leads.head (hP : P ∈ upto) {p : ProviderConfig} {rest : List ProviderConfig}
    (h : Leads upto P (p :: rest)) : p.name ∈ upto := by
  cases h with
  | here hname => exact hname ▸ hP
  | there hp _ => exact hp

/-- Those a request has not given up, while it is looking for one that serves it. -/
def Leg.route (providers : List ProviderConfig) : Leg → Option (List ProviderConfig)
  | .arrived => some providers
  | .admitted => some providers
  | .looking _ => some providers
  | .choosing chosen todo => some (chosen ++ todo)
  | .cleared p rest => some (p :: rest)
  | .answered p rest _ => some (p :: rest)
  | .reading p rest => some (p :: rest)
  | .broken p rest => some (p :: rest)
  | _ => none

section Search

variable {providers : List ProviderConfig} {call : ApiCall} {key : Option String}
  {leg leg' : Leg} {ms : List GatewayMove} {qs : List ProviderConfig}

/-- A provider may be left out, unless it is `P` and has not turned the request away. -/
theorem Leads.pass {P : String} {upto : List String} {p : ProviderConfig}
    {after : List ProviderConfig} (before : List ProviderConfig)
    (haway : p.name = P → turnsAway P m = true) :
    turnsAway P m = true ∨
      (Leads upto P (before ++ p :: after) → Leads upto P (before ++ after)) := by
  by_cases hp : p.name = P
  · exact Or.inl (haway hp)
  · exact Or.inr (Leads.erase hp)

/-- A step that gives up `P` turns the request away. -/
theorem Leg.Step.route (P : String) (upto : List String) (h : Step providers call key leg m leg')
    (hqs : leg'.route providers = some qs) :
    ∃ qs', leg.route providers = some qs' ∧
      (turnsAway P m = true ∨ (Leads upto P qs' → Leads upto P qs)) := by
  cases h with
  | aside he y => exact ⟨qs, hqs, Or.inr id⟩
  | enter client cost => exact ⟨qs, hqs, Or.inr id⟩
  | reserve client cost hd =>
      refine ⟨qs, ?_, Or.inr id⟩
      cases key with
      | none => exact hqs
      | some k => exact hqs
  | miss k owned => exact ⟨qs, hqs, Or.inr id⟩
  | eligible chosen p todo =>
      refine ⟨qs, ?_, Or.inr id⟩
      rw [← hqs]
      simp [Leg.route]
  | ineligible chosen p todo =>
      obtain rfl := Option.some.inj hqs
      exact ⟨_, rfl, Leads.pass chosen fun hp => by simp [turnsAway, hp]⟩
  | clear p rest =>
      refine ⟨qs, ?_, Or.inr id⟩
      rw [← hqs]
      simp [Leg.route]
  | turnAway p rest =>
      obtain rfl := Option.some.inj hqs
      exact ⟨_, rfl, Leads.pass [] fun hp => by simp [turnsAway, hp]⟩
  | send p rest out owned answer => exact ⟨qs, hqs, Or.inr id⟩
  | fail p rest =>
      obtain rfl := Option.some.inj hqs
      refine ⟨_, rfl, ?_⟩
      rw [List.append_nil]
      exact Leads.pass [] fun hp => by simp [turnsAway, hp]
  | begin p rest =>
      refine ⟨qs, ?_, Or.inr id⟩
      cases hs : call.streams with
      | true =>
          rw [hs] at hqs
          cases hqs
      | false =>
          rw [hs] at hqs
          exact hqs
  | breakOff p rest owned e => exact ⟨qs, hqs, Or.inr id⟩
  | giveUp p rest =>
      cases call with
      | embeddings payload => cases hqs
      | chat payload =>
          obtain rfl := Option.some.inj hqs
          refine ⟨_, rfl, ?_⟩
          rw [List.append_nil]
          exact Leads.pass [] fun hp => by simp [turnsAway, hp]
  | poll p item => cases item <;> cases hqs
  | yield p item => cases item <;> cases hqs
  | _ => cases hqs

/-- **A request that is looking for a provider still has `P` to go to, or has been turned away
by it.** -/
theorem Leg.Path.sought (h : Path providers call key ms leg) (hleads : Leads upto P providers)
    (hqs : leg.route providers = some qs) :
    ms.any (turnsAway P) = true ∨ Leads upto P qs := by
  induction h generalizing qs with
  | arrived =>
      obtain rfl := Option.some.inj hqs
      exact Or.inr hleads
  | @snoc ms m leg leg' _ hstep ih =>
      rw [List.any_append, Bool.or_eq_true]
      obtain ⟨qs', hqs', hkept⟩ := hstep.route P upto hqs
      rcases ih hqs' with haway | hleads'
      · exact Or.inl (Or.inl haway)
      rcases hkept with haway | hkept
      · left
        right
        simpa using haway
      · exact Or.inr (hkept hleads')

/-- A body that breaks off is in the moves, and ends an embedding request only. -/
def Leg.Breakage (call : ApiCall) (ms : List GatewayMove) : Leg → Prop
  | .broken p _ => ∃ owned e, .act (.await (.bytes p.name) owned) (.error e) ∈ ms
  | .failed p => (∃ payload, call = .embeddings payload) ∧
      ∃ owned e, .act (.await (.bytes p.name) owned) (.error e) ∈ ms
  | _ => True

theorem Leg.Breakage.snoc (h : leg.Breakage call ms) (m : GatewayMove) :
    leg.Breakage call (ms ++ [m]) := by
  cases leg with
  | broken p rest =>
      obtain ⟨owned, e, hmem⟩ := h
      exact ⟨owned, e, List.mem_append_left _ hmem⟩
  | failed p =>
      obtain ⟨hcall, owned, e, hmem⟩ := h
      exact ⟨hcall, owned, e, List.mem_append_left _ hmem⟩
  | _ => exact trivial

theorem Leg.Path.breakage (h : Path providers call key ms leg) : leg.Breakage call ms := by
  induction h with
  | arrived => exact trivial
  | @snoc ms m leg leg' _ hstep ih =>
      cases hstep with
      | aside he y => exact ih.snoc _
      | reserve client cost hd => cases key <;> exact trivial
      | begin p rest => cases call.streams <;> exact trivial
      | breakOff p rest owned e => exact ⟨owned, e, by simp⟩
      | giveUp p rest =>
          cases call with
          | chat payload => exact trivial
          | embeddings payload => exact ⟨⟨payload, rfl⟩, ih.snoc _⟩
      | poll p item => cases item <;> exact trivial
      | yield p item => cases item <;> exact trivial
      | _ => exact trivial

end Search

section Runs

variable {start : Instant} {p : Gateway.State} {i : Nat} {r : HttpRequest}
  {t : Task gatewaySig Idle}

/-- No request has been turned away by a sound provider. -/
theorem Gateway.Reachable.welcomed (h : Gateway.Reachable x st start p) (hsound : Sound P p.log) :
    ∀ m ∈ p.movesOf i, turnsAway P m = false := by
  intro m hm
  obtain ⟨n, hn, -, rfl⟩ := Pool.mem_movesOf.mp hm
  exact (h.welcoming P hsound).2 n hn

/-! ### One is enough -/

/-- Anything may come before `P`. -/
theorem leads_of_mem {ps : List ProviderConfig} (hP : ∃ p ∈ ps, p.name = P)
    (hall : ∀ p ∈ ps, p.name ∈ upto) : Leads upto P ps := by
  induction ps with
  | nil =>
      obtain ⟨p, hp, -⟩ := hP
      exact absurd hp List.not_mem_nil
  | cons p ps ih =>
      obtain ⟨q, hq, hname⟩ := hP
      rcases List.mem_cons.mp hq with rfl | hq
      · exact .here hname
      · exact .there (hall p List.mem_cons_self)
          (ih ⟨q, hq, hname⟩ fun q hq => hall q (List.mem_cons_of_mem _ hq))

/--
**One sound provider is enough.**  As long as no failure of some configured provider has been
recorded, by any request, no chat request is answered 502, whatever becomes of all others; and
an embedding request is only if a body it was reading broke off.
-/
theorem sound_suffices (h : Gateway.Reachable x st start p) (hP : Configured st P)
    (hsound : Sound P p.log) (ht : p.tasks[i]? = some (r, t)) {resp : Response BodyStream}
    (hresp : t.prog = .ret (.responded resp)) :
    (∀ payload, r.call = .chat payload → resp.status ≠ 502) ∧
      (resp.status = 502 → ∃ name owned e,
        .act (.await (.bytes name) owned) (.error e) ∈ p.movesOf i) := by
  obtain ⟨leg, hpath, hanswers⟩ := h.answers ht hresp
  have hfailed : resp.status = 502 → ∃ q, leg = .failed q := by
    intro h502
    obtain ⟨e, rfl, hwhy⟩ | ⟨cached, -, rfl⟩ | ⟨q, body, -, rfl⟩ | ⟨q, s, -, -, rfl⟩ :=
      hanswers.cases
    · rcases hwhy h502 with hleg | hleg
      · -- nobody is left, but `P` has not been given up
        obtain rfl : leg = _ := hleg
        have hall : ∀ q ∈ st.sortedProviders, q.name ∈ st.sortedProviders.map (·.name) :=
          fun q hq => List.mem_map_of_mem hq
        rcases hpath.sought (leads_of_mem hP hall) rfl with haway | hleads
        · obtain ⟨m, hm, hturned⟩ := List.any_eq_true.mp haway
          rw [h.welcomed hsound m hm] at hturned
          cases hturned
        · cases hleads
      · exact hleg
    · cases h502
    · cases h502
    · cases h502
  constructor
  · intro payload hcall h502
    obtain ⟨q, rfl⟩ := hfailed h502
    obtain ⟨⟨payload', hembeddings⟩, -⟩ := hpath.breakage
    rw [hcall] at hembeddings
    cases hembeddings
  · intro h502
    obtain ⟨q, rfl⟩ := hfailed h502
    obtain ⟨-, owned, e, hmem⟩ := hpath.breakage
    exact ⟨q.name, owned, e, hmem⟩

/-! ### Nothing spills over -/

theorem leads_of_split {before after : List ProviderConfig} {q : ProviderConfig}
    (hbefore : ∀ p ∈ before, p.name ∈ upto) : Leads upto q.name (before ++ q :: after) := by
  induction before with
  | nil => exact .here rfl
  | cons p before ih =>
      exact .there (hbefore p List.mem_cons_self)
        (ih fun p hp => hbefore p (List.mem_cons_of_mem _ hp))

theorem unsound_of_turnedAway (h : Gateway.Reachable x st start p)
    (haway : (p.movesOf i).any (turnsAway P) = true) :
    ∃ n ∈ p.log, n.move = .act (.recordFailure P) () := by
  by_contra hnone
  have hsound : Sound P p.log := fun n hn hfailure => hnone ⟨n, hn, hfailure⟩
  obtain ⟨m, hm, hturned⟩ := List.any_eq_true.mp haway
  rw [h.welcomed hsound m hm] at hturned
  cases hturned

variable {before after : List ProviderConfig} {q : ProviderConfig} {name : String}

/-- The moves before a request is sent to a provider behind `q` show a failure of `q`. -/
theorem turnedAway_of_cleared {call : ApiCall} {key : Option String} {ms : List GatewayMove}
    {rest : List ProviderConfig} {q' : ProviderConfig}
    (h : Leg.Path (before ++ q :: after) call key ms (.cleared q' rest))
    (hbehind : ∀ r ∈ before ++ [q], r.name ≠ q'.name) :
    ms.any (turnsAway q.name) = true := by
  have hupto : q.name ∈ (before ++ [q]).map (·.name) := by simp
  have hleads : Leads ((before ++ [q]).map (·.name)) q.name (before ++ q :: after) :=
    leads_of_split fun r hr => List.mem_map_of_mem (List.mem_append_left _ hr)
  rcases h.sought hleads rfl with haway | hroute
  · exact haway
  · obtain ⟨r, hr, hname⟩ := List.mem_map.mp (hroute.head hupto)
    exact absurd hname (hbehind r hr)

/--
**Nothing spills over to a provider before all ahead of it have failed.**  Whenever a request
waits for a provider, a failure of each provider ahead in the order has been recorded, and
whenever one has got its answer, before that.
-/
theorem failure_before_spill (h : Gateway.Reachable x st start p)
    (hsorted : st.sortedProviders = before ++ q :: after)
    (hbehind : ∀ r ∈ before ++ [q], r.name ≠ name) :
    (∀ (i : Nat) (r : HttpRequest) (t : Task gatewaySig Idle) out owned k,
      p.tasks[i]? = some (r, t) → t.prog = .op (.await (.send name out) owned) k →
        ∃ n ∈ p.log, n.move = .act (.recordFailure q.name) ()) ∧
    ∀ (earlier later : GatewayLog) n out owned answer, p.log = earlier ++ n :: later →
      n.move = .act (.await (.send name out) owned) answer →
        ∃ n' ∈ earlier, n'.move = .act (.recordFailure q.name) () := by
  constructor
  · intro i r t out owned k ht hprog
    obtain ⟨leg, hpath, hfollows⟩ := h.travels ht
    have hmay := hfollows.1
    rw [hprog] at hmay
    obtain ⟨q', rest, hleg, rfl⟩ := Trip.May.cleared hmay.1
    obtain rfl : leg = _ := hleg
    rw [hsorted] at hpath
    exact unsound_of_turnedAway h (turnedAway_of_cleared hpath hbehind)
  · intro earlier later n out owned answer hlog hn
    -- the state in which the answer has just come
    obtain ⟨p', h', hlog'⟩ := Machine.Reaches.log_prefix rfl h
      (show earlier ++ [n] <+: p.log by rw [hlog]; exact ⟨later, by simp⟩)
    have hmem : n ∈ p'.log := by simp [hlog']
    have hlt : n.task < p'.tasks.length := (Machine.Reaches.local rfl rfl h').1 n hmem
    obtain ⟨ms, ns, hmoves⟩ := List.mem_iff_append.mp (Pool.mem_movesOf.mpr ⟨n, hmem, rfl, hn⟩)
    obtain ⟨leg, hpath, -⟩ := Gateway.Reachable.travels h' (List.getElem?_eq_getElem hlt)
    rw [hmoves, hsorted] at hpath
    obtain ⟨leg₁, leg₂, hpath₁, hstep⟩ := hpath.split
    obtain ⟨q', rest, rfl, rfl⟩ := hstep.cleared
    have haway := turnedAway_of_cleared hpath₁ hbehind
    obtain ⟨n', hn', hfailure⟩ := unsound_of_turnedAway h' (i := n.task) (by
      rw [hmoves, List.any_append, haway, Bool.true_or])
    rw [hlog'] at hn'
    rcases List.mem_append.mp hn' with hearlier | hlast
    · exact ⟨n', hearlier, hfailure⟩
    · rw [List.mem_singleton.mp hlast, hn] at hfailure
      cases hfailure

end Runs

/-! ### The second provider -/

theorem sound_of_all {log : GatewayLog}
    (h : (log.all fun n => !turnsAway P n.move) = true) : Sound P log := by
  intro n hn hfailure
  have hkept := List.all_eq_true.mp h n hn
  rw [hfailure] at hkept
  simp [turnsAway] at hkept

/-- Two providers, `p` before `q`. -/
def spareGateway : AppState :=
  .new (.table [smallKey] [])
    { (smallGateway (.table [smallKey] []) ⟨1, 10, 1⟩ 100).config with
      providers := [pairProvider "p" 1, pairProvider "q" 2] }

/-- A chat request for which `p` cannot be reached, and `q` answers. -/
def spareRun : Gateway.State :=
  (Gateway.replay (.table [smallKey] []) spareGateway anyStep unobserved
    [.spawn (smallChat false 10), goes 0, goes 0, .act 0 (.cached false), goes 0, goes 0, goes 0,
      goes 0, .act 0 (.sent (.error "refused")), goes 0, goes 0, goes 0, answers 0, goes 0, goes 0,
      goes 0, .act 0 (.read (.ok [])), goes 0, goes 0, goes 0]).1

/-- The failure of `p` trips its breaker, but `q` is sound. -/
theorem sound_suffices_spare :
    (spareRun.world.breakerFor spareGateway "p").state = .Open ∧
      ∃ r t resp, spareRun.tasks[0]? = some (r, t) ∧ t.prog = .ret (.responded resp) ∧
        ∀ payload, r.call = .chat payload → resp.status ≠ 502 := by
  have hresponse : (spareRun.tasks[0]?.bind fun n => (responseOf n.2).map (·.status))
      = some 200 := by decide +kernel
  obtain ⟨⟨r, t⟩, ht, hrest⟩ := Option.bind_eq_some_iff.mp hresponse
  obtain ⟨resp, hresp, -⟩ := Option.map_eq_some_iff.mp hrest
  have hconfigured : Configured spareGateway "q" :=
    ⟨pairProvider "q" 2, by decide, rfl⟩
  have hsound : Sound "q" spareRun.log := sound_of_all (by decide +kernel)
  exact ⟨by decide +kernel, r, t, resp, ht, responseOf_some hresp,
    (sound_suffices (Gateway.replay_reachable anyStep unobserved _) hconfigured hsound ht
      (responseOf_some hresp)).1⟩

/-- The answer of `q` came after a failure of `p` was recorded. -/
theorem failure_before_spill_spare :
    ∃ earlier n later, spareRun.log = earlier ++ n :: later ∧
      (∃ out owned answer, n.move = .act (.await (.send "q" out) owned) answer) ∧
        ∃ n' ∈ earlier, n'.move = .act (.recordFailure "p") () := by
  have hsent : (spareRun.log.any fun n => (sendOf n.move).any (·.1 == "q")) = true := by
    decide +kernel
  obtain ⟨n, hn, hany⟩ := List.any_eq_true.mp hsent
  obtain ⟨⟨name, owned⟩, hsend, hname⟩ := (Option.any_eq_true _ _).mp hany
  obtain rfl := eq_of_beq hname
  obtain ⟨out, answer, hmove⟩ := sendOf_some hsend
  obtain ⟨earlier, later, hlog⟩ := List.mem_iff_append.mp hn
  have hsorted : spareGateway.sortedProviders =
      [] ++ pairProvider "p" 1 :: [pairProvider "q" 2] := by
    decide
  have hbehind : ∀ r ∈ [] ++ [pairProvider "p" 1], r.name ≠ "q" := by decide
  exact ⟨earlier, n, later, hlog, ⟨out, owned, answer, hmove⟩,
    (failure_before_spill (Gateway.replay_reachable anyStep unobserved _) hsorted hbehind).2
      earlier later n out owned answer hlog hmove⟩

end LlmGateway
