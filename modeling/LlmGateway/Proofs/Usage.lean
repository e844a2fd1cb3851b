/-
What a streaming request is charged.

The gateway asks for usage at the end of a stream, and servers that are asked write
`"usage": null` on all the chunks before it.  The first document with a usage member uses
up the one call of `on_usage`, and a `null` is a member; it counts as no tokens at all.
-/
import LlmGateway.Proofs.Events
import LlmGateway.Proofs.Overuse

namespace LlmGateway

open Effects

variable {x : Crates} {st : AppState} {g : Ghost} {v : Value} {p c : ℤ}

/-! ### What a request has done -/

/-- The chunk a move brings. -/
def chunkOf : GatewayMove → Option (List UInt8)
  | .poll (.chunk bs) => some bs
  | _ => none

/-- The tokens a move records. -/
def countedBy : GatewayMove → List (String × Nat)
  | .act (.metric m) _ => m.tokens
  | _ => []

/-- The cost a move reconciles a reservation with. -/
def costOf : GatewayMove → Option ℚ
  | .act (.reconcile _ cost) _ => some cost
  | _ => none

/-- The future is dropped. -/
def isDrop : GatewayMove → Bool
  | .drop => true
  | _ => false

theorem account_next (g : Ghost) (m : GatewayMove) :
    (g.next m).chunks = g.chunks ++ (chunkOf m).toList ∧
      (g.next m).tokens = g.tokens ++ countedBy m ∧
      (g.next m).settled = g.settled ++ (costOf m).toList := by
  cases m with
  | act e answer =>
      cases e with
      | allowRequest p => cases answer <;> simp [Ghost.next, chunkOf, countedBy, costOf]
      | await a owned =>
          cases a with
          | bytes p => cases answer <;> simp [Ghost.next, chunkOf, countedBy, costOf]
          | _ => simp [Ghost.next, chunkOf, countedBy, costOf]
      | _ => simp [Ghost.next, chunkOf, countedBy, costOf]
  | poll item => cases item <;> simp [Ghost.next, chunkOf, countedBy, costOf]
  | drop => simp [Ghost.next, chunkOf, countedBy, costOf]

theorem dropped_next {m : GatewayMove} (hm : m ≠ .drop) : (g.next m).dropped = g.dropped := by
  cases m with
  | act e answer =>
      cases e with
      | allowRequest p => cases answer <;> rfl
      | await a owned =>
          cases a with
          | bytes p => cases answer <;> rfl
          | _ => rfl
      | _ => rfl
  | poll item => cases item <;> rfl
  | drop => exact absurd rfl hm

/-- The ghost keeps account of what the log says. -/
theorem run_account (r : HttpRequest) (ms : List GatewayMove) :
    ((discipline x).run (Ghost.start r) ms).chunks = ms.filterMap chunkOf ∧
      ((discipline x).run (Ghost.start r) ms).tokens = ms.flatMap countedBy ∧
      ((discipline x).run (Ghost.start r) ms).settled = ms.filterMap costOf := by
  induction ms using List.reverseRecOn with
  | nil => exact ⟨rfl, rfl, rfl⟩
  | append_singleton ms m ih =>
      obtain ⟨hchunks, htokens, hsettled⟩ := ih
      obtain ⟨hc, ht, hs⟩ := account_next ((discipline x).run (Ghost.start r) ms) m
      have hone : ∀ {α : Type} (f : GatewayMove → Option α), (f m).toList = [m].filterMap f := by
        intro α f
        rw [List.filterMap_cons]
        cases f m <;> rfl
      rw [Protocol.run_append, List.filterMap_append, List.filterMap_append, List.flatMap_append,
        ← hchunks, ← htokens, ← hsettled, ← hone, ← hone, List.flatMap_singleton]
      exact ⟨hc, ht, hs⟩

theorem run_dropped (r : HttpRequest) {ms : List GatewayMove} (h : .drop ∉ ms) :
    ((discipline x).run (Ghost.start r) ms).dropped = false := by
  induction ms using List.reverseRecOn with
  | nil => rfl
  | append_singleton ms m ih =>
      rw [List.mem_append, List.mem_singleton, not_or] at h
      rw [Protocol.run_append]
      exact (dropped_next (Ne.symm h.2)).trans (ih h.1)

/-- A streaming chat request that has run to its end. -/
def streamDone : HttpRequest × Task gatewaySig Idle → Bool
  | (⟨_, .chat (.ok payload)⟩, ⟨.ret .closed, _⟩) => payload.stream
  | _ => false

theorem streamDone_cases {t : HttpRequest × Task gatewaySig Idle} (h : streamDone t = true) :
    ∃ payload, t.1.call = .chat (.ok payload) ∧ payload.stream = true ∧
      t.2.prog = .ret .closed := by
  unfold streamDone at h
  split at h
  · exact ⟨_, rfl, h, rfl⟩
  · cases h

/-- What a streaming request that ran to its end has accounted for. -/
theorem Gateway.Reachable.accounted {start : Instant} {q : Gateway.State}
    (hq : Gateway.Reachable x st start q) {i : Nat} (hdone : q.tasks[i]?.any streamDone = true)
    (hdrop : .drop ∉ q.movesOf i) :
    match streamUsage x ((q.movesOf i).filterMap chunkOf) with
    | none => (q.movesOf i).flatMap countedBy = [] ∧ (q.movesOf i).filterMap costOf = []
    | some t => (q.movesOf i).flatMap countedBy = tokensOf t ∧
        (q.movesOf i).filterMap costOf = [(wrappingAdd t.1 t.2 : ℚ)] := by
  obtain ⟨⟨req, t⟩, ht, hstreamed⟩ := (Option.any_eq_true _ _).mp hdone
  obtain ⟨payload, hcall, hstream, hprog⟩ := streamDone_cases hstreamed
  obtain ⟨hchunks, htokens, hsettled⟩ := run_account (x := x) req (q.movesOf i)
  have hclosed := (hq.obeys ht).2.1
  rw [hprog, Prog.wp_ret] at hclosed
  have hended : Done x ((discipline x).run (Ghost.start req) (q.movesOf i)) := hclosed
  have haccounted := hended.streamed (run_dropped req hdrop) payload
    (by rw [run_request]; exact hcall) hstream
  unfold Ghost.Accounted at haccounted
  rw [hchunks, htokens, hsettled] at haccounted
  exact haccounted

/-- Every provider that request `i` is sent to is asked for usage, if the client says nothing
about it. -/
def AsksUsage (x : Crates) (q : Gateway.State) (i : Nat) : Prop :=
  ∀ req t payload, q.tasks[i]? = some (req, t) → req.call = .chat (.ok payload) →
    payload.streamOptions = none →
    ∀ provider out owned answer, .act (.await (.send provider out) owned) answer ∈ q.movesOf i →
      Crates.toVec x.chatToString { payload with streamOptions := some { includeUsage := true } }
        = .ok out.body

theorem injectStreamOptions_of_none {payload : ChatCompletionRequest}
    (hstream : payload.stream = true) (hopts : payload.streamOptions = none) :
    injectStreamOptions payload
      = { payload with streamOptions := some { includeUsage := true } } := by
  simp [injectStreamOptions, hstream, hopts]

theorem Gateway.Reachable.asks_usage {start : Instant} {q : Gateway.State}
    (hq : Gateway.Reachable x st start q) {i : Nat}
    (hdone : q.tasks[i]?.any streamDone = true) : AsksUsage x q i := by
  intro req t payload ht hcall hopts provider out owned answer hsend
  rw [ht] at hdone
  obtain ⟨payload', hcall', hstream, -⟩ := streamDone_cases hdone
  obtain rfl : payload = payload' := by
    rw [hcall] at hcall'
    injection hcall' with hok
    exact Except.ok.inj hok
  have hforwarded := hq.forwards ht hsend
  rw [hcall] at hforwarded
  change (Crates.toVec x.chatToString (injectStreamOptions payload)).toOption = some out.body
    at hforwarded
  rw [injectStreamOptions_of_none hstream hopts] at hforwarded
  cases hbody : Crates.toVec x.chatToString
      { payload with streamOptions := some { includeUsage := true } } with
  | error e =>
      rw [hbody] at hforwarded
      cases hforwarded
  | ok body =>
      rw [hbody] at hforwarded
      rw [Option.some.inj hforwarded]

/-! ### What the upstream reports -/

/-- What an integer is read as: a `u64` or an `i64` where it fits, or else a float. -/
def Value.IsInt : Value → ℤ → Prop
  | .number (.posInt m), n => n = m.toNat
  | .number (.negInt m _), n => n = m.toInt
  | .number (.float _), n => n < -2 ^ 63 ∨ 2 ^ 64 ≤ n
  | _, _ => False

/-- A document with a usage object of `p` prompt tokens and `c` completion tokens. -/
def Reports (v : Value) (p c : ℤ) : Prop :=
  ∃ usage, v.get "usage" = some usage ∧
    (∃ a, usage.get "prompt_tokens" = some a ∧ a.IsInt p) ∧
    ∃ b, usage.get "completion_tokens" = some b ∧ b.IsInt c

/-- A document without a usage object: there is no member, or it is `null`. -/
def Silent (v : Value) : Prop := v.get "usage" = none ∨ v.get "usage" = some .null

/-- What an integer counts for. -/
def creditable (n : ℤ) : Nat := if 0 ≤ n ∧ n < 2 ^ 64 then n.toNat else 0

theorem Value.IsInt.asU64 {n : ℤ} (h : v.IsInt n) : v.asU64.getD 0 = creditable n := by
  unfold creditable
  cases v with
  | number m =>
      cases m with
      | posInt m =>
          have hn : n = m.toNat := h
          have hlt := m.toNat_lt
          rw [if_pos (by omega), hn]
          rfl
      | negInt m hneg =>
          have hn : n = m.toInt := h
          have hlt : m.toInt < 0 := Int64.lt_iff_toInt_lt.mp hneg
          rw [if_neg (by omega)]
          rfl
      | float bits =>
          have hn : n < -2 ^ 63 ∨ 2 ^ 64 ≤ n := h
          rw [if_neg (by omega)]
          rfl
  | _ => exact h.elim

theorem Reports.counts (h : Reports v p c) :
    (v.get "usage").map SseParser.usageTokens = some (creditable p, creditable c) := by
  obtain ⟨usage, husage, ⟨a, ha, hp⟩, b, hb, hc⟩ := h
  rw [husage, Option.map_some, SseParser.usageTokens, ha, hb, Option.bind_some, Option.bind_some,
    hp.asU64, hc.asU64]

/-- A `null` counts as no tokens. -/
theorem usage_of_silent {ds : List Value} (h : ∀ d ∈ ds, Silent d) :
    (∀ d ∈ ds, d.get "usage" = none) ∧
        (ds.findSome? fun d => (d.get "usage").map SseParser.usageTokens) = none ∨
      (∃ d ∈ ds, d.get "usage" = some .null) ∧
        (ds.findSome? fun d => (d.get "usage").map SseParser.usageTokens) = some (0, 0) := by
  induction ds with
  | nil => exact Or.inl ⟨fun d hd => absurd hd List.not_mem_nil, rfl⟩
  | cons d ds ih =>
      rw [List.findSome?_cons]
      rcases h d List.mem_cons_self with hnone | hnull
      · rw [hnone, Option.map_none]
        rcases ih fun d' hd' => h d' (List.mem_cons_of_mem _ hd') with
          ⟨hall, husage⟩ | ⟨⟨d', hd', hd'null⟩, husage⟩
        · refine Or.inl ⟨fun d' hd' => ?_, husage⟩
          rcases List.mem_cons.mp hd' with rfl | hd'
          · exact hnone
          · exact hall d' hd'
        · exact Or.inr ⟨⟨d', List.mem_cons_of_mem _ hd', hd'null⟩, husage⟩
      · rw [hnull]
        exact Or.inr ⟨⟨d, List.mem_cons_self, hnull⟩, rfl⟩

/-! ### The charge -/

/-- The request recorded `p` and `c` tokens, once, and its reservation was reconciled against
their sum. -/
structure Charged (ms : List GatewayMove) (p c : ℤ) : Prop where
  tokens : (ms.flatMap countedBy).map (fun t => (t.1, (t.2 : ℤ)))
    = [("prompt", p), ("completion", c)]
  settled : ms.filterMap costOf = [((p + c : ℤ) : ℚ)]

theorem charged_of_counts {ms : List GatewayMove} {t : Nat × Nat}
    (htokens : ms.flatMap countedBy = tokensOf t)
    (hsettled : ms.filterMap costOf = [(wrappingAdd t.1 t.2 : ℚ)]) :
    Charged ms p c ↔ (t.1 : ℤ) = p ∧ (t.2 : ℤ) = c ∧ t.1 + t.2 < 2 ^ 64 := by
  have hsum : (t.1 : ℤ) = p → (t.2 : ℤ) = c →
      ((wrappingAdd t.1 t.2 : ℚ) = ((p + c : ℤ) : ℚ) ↔ t.1 + t.2 < 2 ^ 64) := by
    rintro rfl rfl
    have hmod : (t.1 + t.2) % 2 ^ 64 = t.1 + t.2 ↔ t.1 + t.2 < 2 ^ 64 :=
      Nat.mod_eq_iff_lt (by decide)
    rw [← hmod, ← Nat.cast_inj (R := ℚ)]
    unfold wrappingAdd
    push_cast
    exact Iff.rfl
  constructor
  · rintro ⟨hrecorded, hcosts⟩
    rw [htokens] at hrecorded
    rw [hsettled] at hcosts
    simp only [tokensOf, List.map_cons, List.map_nil, List.cons.injEq, Prod.mk.injEq, true_and,
      and_true] at hrecorded
    exact ⟨hrecorded.1, hrecorded.2,
      (hsum hrecorded.1 hrecorded.2).mp (List.singleton_inj.mp hcosts)⟩
  · rintro ⟨hp, hc, hlt⟩
    refine ⟨?_, ?_⟩
    · rw [htokens, tokensOf, ← hp, ← hc]
      rfl
    · rw [hsettled, (hsum hp hc).mpr hlt]

/--
**A stream is charged what it reports if nothing was reported before.**  A streaming request
ran to its end on a stream in which exactly one document has a usage object, of `p` and `c`
tokens.  Its providers were asked for usage, and it was charged these tokens, once, if and only
if they are `u64` counts whose sum is one too, and no document before that had a `null` for its
usage, or the counts are zero.
-/
theorem charged_iff {start : Instant} {q : Gateway.State} (hq : Gateway.Reachable x st start q)
    {i : Nat} (hdone : q.tasks[i]?.any streamDone = true) (hdrop : .drop ∉ q.movesOf i)
    {events : List SseEvent}
    (hbytes : ((q.movesOf i).filterMap chunkOf).flatten = events.flatMap SseEvent.bytes)
    {before after : List Value} (hdocs : documents x.fromStr events = before ++ v :: after)
    (hreports : Reports v p c) (hothers : ∀ d ∈ before ++ after, Silent d) :
    AsksUsage x q i ∧
      (Charged (q.movesOf i) p c ↔
        0 ≤ p ∧ 0 ≤ c ∧ p + c < 2 ^ 64 ∧
          ((∀ d ∈ before, d.get "usage" = none) ∨ (p = 0 ∧ c = 0))) := by
  refine ⟨hq.asks_usage hdone, ?_⟩
  have haccounted := hq.accounted hdone hdrop
  rw [streamUsage_events hbytes, hdocs, List.findSome?_append, List.findSome?_cons,
    hreports.counts] at haccounted
  rcases usage_of_silent fun d hd => hothers d (List.mem_append_left _ hd) with
    ⟨hnone, husage⟩ | ⟨⟨d, hd, hnull⟩, husage⟩
  · rw [husage] at haccounted
    obtain ⟨htokens, hsettled⟩ := haccounted
    rw [charged_of_counts htokens hsettled]
    unfold creditable
    constructor
    · rintro ⟨hp, hc, hlt⟩
      have hp0 : 0 ≤ p := by omega
      have hc0 : 0 ≤ c := by omega
      refine ⟨hp0, hc0, ?_, Or.inl hnone⟩
      simp only at hp hc hlt
      omega
    · rintro ⟨hp, hc, hlt, -⟩
      rw [if_pos (by omega), if_pos (by omega)]
      exact ⟨by omega, by omega, by omega⟩
  · rw [husage] at haccounted
    obtain ⟨htokens, hsettled⟩ := haccounted
    rw [charged_of_counts htokens hsettled]
    constructor
    · rintro ⟨hp, hc, -⟩
      obtain rfl : (0 : ℤ) = p := hp
      obtain rfl : (0 : ℤ) = c := hc
      exact ⟨le_refl _, le_refl _, by decide, Or.inr ⟨rfl, rfl⟩⟩
    · rintro ⟨-, -, -, hnone | ⟨rfl, rfl⟩⟩
      · -- the `null` came first
        rw [hnone d hd] at hnull
        cases hnull
      · exact ⟨rfl, rfl, by decide⟩

/-! A stream of two chunks, and what the request was charged. -/

/-- A document without usage, as servers write it that were asked for usage. -/
def nullText : String := "\x7b\"usage\":null\x7d"

/-- The value of `nullText`. -/
def nullValue : Value := .object [("usage", .null)]

/-- The two documents of the stream, and the digest of the one key. -/
def meteredCrates : Crates :=
  .table [smallKey] [(nullText, nullValue), (usageText 3 4, usageValue 3 4)]

/-- A gateway with a hundred tokens a minute. -/
def meteredGateway : AppState := smallGateway meteredCrates ⟨1, 10, 1⟩ 100

/-- A streaming request that is answered with these chunks. -/
def metered (first second : List UInt8) : Gateway.State :=
  (Gateway.replay meteredCrates meteredGateway (fun _ _ => true) (fun _ _ _ _ => ())
    [.spawn (smallChat true 10), goes 0, goes 0, goes 0, goes 0, answers 0,
      goes 0, goes 0, goes 0, goes 0, .poll 0 (.chunk first), goes 0, goes 0, goes 0, goes 0,
      .poll 0 (.chunk second), goes 0, .poll 0 .ended]).1

/-- The event with `nullText`. -/
def nullEvent : SseEvent := ⟨[nullText], by decide, by decide⟩

/-- The event that reports seven tokens. -/
def usageEvent : SseEvent := ⟨[usageText 3 4], by decide, by decide⟩

theorem usageValue_reports : Reports (usageValue 3 4) 3 4 :=
  ⟨_, rfl, ⟨_, rfl, rfl⟩, _, rfl, rfl⟩

theorem not_dropped {ms : List GatewayMove} (h : (ms.all fun m => !isDrop m) = true) :
    .drop ∉ ms := by
  intro hmem
  have hnot := List.all_eq_true.mp h _ hmem
  cases hnot

/-- The chunk before the last has a `null` for its usage: seven tokens are not charged. -/
theorem null_usage_charged :
    Gateway.Reachable meteredCrates meteredGateway 0 (metered nullEvent.bytes usageEvent.bytes) ∧
      ((metered nullEvent.bytes usageEvent.bytes).tasks[0]?.any streamDone = true) ∧
      .drop ∉ (metered nullEvent.bytes usageEvent.bytes).movesOf 0 ∧
      (((metered nullEvent.bytes usageEvent.bytes).movesOf 0).filterMap chunkOf).flatten
        = [nullEvent, usageEvent].flatMap SseEvent.bytes ∧
      documents meteredCrates.fromStr [nullEvent, usageEvent] = [nullValue] ++ [usageValue 3 4] ∧
      Reports (usageValue 3 4) 3 4 ∧ Silent nullValue ∧
      ((metered nullEvent.bytes usageEvent.bytes).movesOf 0).flatMap countedBy
        = [("prompt", 0), ("completion", 0)] ∧
      ¬ Charged ((metered nullEvent.bytes usageEvent.bytes).movesOf 0) 3 4 := by
  have hrun : ((metered nullEvent.bytes usageEvent.bytes).tasks[0]?.any streamDone = true) ∧
      (((metered nullEvent.bytes usageEvent.bytes).movesOf 0).all fun m => !isDrop m) = true ∧
      (((metered nullEvent.bytes usageEvent.bytes).movesOf 0).filterMap chunkOf).flatten
        = [nullEvent, usageEvent].flatMap SseEvent.bytes ∧
      ((metered nullEvent.bytes usageEvent.bytes).movesOf 0).flatMap countedBy
        = [("prompt", 0), ("completion", 0)] ∧
      ((metered nullEvent.bytes usageEvent.bytes).movesOf 0).filterMap costOf = [0] := by
    decide +kernel
  obtain ⟨hdone, hdrop, hbytes, htokens, hcosts⟩ := hrun
  refine ⟨Gateway.replay_reachable _ _ _, hdone, not_dropped hdrop, hbytes, rfl,
    usageValue_reports, Or.inr rfl, htokens, ?_⟩
  intro hcharged
  have hsettled := hcharged.settled
  rw [hcosts] at hsettled
  norm_num at hsettled

/-- Without it they are. -/
theorem charged_iff_reported : Charged ((metered usageEvent.bytes []).movesOf 0) 3 4 := by
  have hreach : Gateway.Reachable meteredCrates meteredGateway 0 (metered usageEvent.bytes []) :=
    Gateway.replay_reachable _ _ _
  have hrun : ((metered usageEvent.bytes []).tasks[0]?.any streamDone = true) ∧
      (((metered usageEvent.bytes []).movesOf 0).all fun m => !isDrop m) = true ∧
      (((metered usageEvent.bytes []).movesOf 0).filterMap chunkOf).flatten
        = [usageEvent].flatMap SseEvent.bytes := by
    decide +kernel
  obtain ⟨hdone, hdrop, hbytes⟩ := hrun
  have hdocs : documents meteredCrates.fromStr [usageEvent] = [] ++ usageValue 3 4 :: [] := rfl
  exact (charged_iff hreach hdone (not_dropped hdrop) hbytes hdocs usageValue_reports
    (by simp)).2.mpr ⟨by decide, by decide, by decide, Or.inl (by simp)⟩

end LlmGateway
