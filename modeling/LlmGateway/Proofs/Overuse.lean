/-
A request that used more than it reserved.

`reconcile` takes the overage by `try_consume`, which takes all or nothing, and drops the
answer: an overage the bucket cannot cover is not taken at all.  And the sum of the two
counts is computed in `u64`, so it may come out smaller than it is.  `Covered` is what is
left: exactly there the level drops by the overage, or to zero.
-/
import LlmGateway.Proofs.Reservations

namespace LlmGateway

open Effects

variable {x : Crates} {st : AppState}

/-! ### What was reported -/

theorem asU64_lt {v : Value} {n : Nat} (h : v.asU64 = some n) : n < 2 ^ 64 := by
  cases v with
  | number m =>
      cases m with
      | posInt k =>
          obtain rfl := Option.some.inj h
          exact k.toNat_lt
      | negInt k neg => cases h
      | float bits => cases h
  | _ => cases h

theorem count_lt (usage : Value) (key : String) :
    ((usage.get key).bind Value.asU64).getD 0 < 2 ^ 64 := by
  cases h : (usage.get key).bind Value.asU64 with
  | none => exact Nat.two_pow_pos 64
  | some n =>
      obtain ⟨v, -, hv⟩ := Option.bind_eq_some_iff.mp h
      exact asU64_lt hv

theorem usageTokens_lt (usage : Value) :
    (SseParser.usageTokens usage).1 < 2 ^ 64 ∧ (SseParser.usageTokens usage).2 < 2 ^ 64 :=
  ⟨count_lt usage _, count_lt usage _⟩

/-- Reported counts are `u64`s. -/
theorem Ghost.reported_lt {g : Ghost} {t : Nat × Nat} (h : g.reported x = some t) :
    t.1 < 2 ^ 64 ∧ t.2 < 2 ^ 64 := by
  unfold Ghost.reported at h
  split at h
  · obtain ⟨usage, -, rfl⟩ := Option.map_eq_some_iff.mp h
    exact usageTokens_lt usage
  · obtain ⟨event, -, hevent⟩ := List.exists_of_findSome?_eq_some h
    obtain ⟨v, -, hv⟩ := List.exists_of_findSome?_eq_some hevent
    obtain ⟨usage, -, rfl⟩ := Option.map_eq_some_iff.mp hv
    exact usageTokens_lt usage

/-- The `u64` sum of two `u64`s: their sum, or that less `2 ^ 64`. -/
theorem wrappingAdd_cases {a b : Nat} (ha : a < 2 ^ 64) (hb : b < 2 ^ 64) :
    (a + b < 2 ^ 64 ∧ wrappingAdd a b = a + b) ∨
      (2 ^ 64 ≤ a + b ∧ wrappingAdd a b + 2 ^ 64 = a + b) := by
  unfold wrappingAdd
  omega

/-! ### One settlement -/

/-- The cases in which the overage is taken as it should be.  Without overflow: the bucket
covers it, or is empty anyway.  With overflow: the wrapped sum is no less than what was
reserved, and what it takes leaves nothing. -/
def Covered (level reserved : ℚ) (a b : Nat) : Prop :=
  if a + b < 2 ^ 64 then level = 0 ∨ (a + b : ℚ) - reserved ≤ level
  else reserved ≤ (a + b : ℚ) - 2 ^ 64 ∧
    (level = 0 ∨ level = (a + b : ℚ) - 2 ^ 64 - reserved)

section Level

variable {bucket : TokenBucket} {h : ReservationHandle} (now : Instant)

/-- An overage is taken whole or not at all. -/
theorem level_reconcile_overage {u : ℚ} (hwithin : bucket.Within) (hover : h.reserved < u) :
    (h.reconcile bucket now u).level now = max 0 (bucket.level now - (u - h.reserved))
      ↔ bucket.level now = 0 ∨ u - h.reserved ≤ bucket.level now := by
  have hnonneg := TokenBucket.level_nonneg hwithin now
  rw [ReservationHandle.level_reconcile, if_neg hover.not_gt, if_pos hover]
  by_cases hcover : u - h.reserved ≤ bucket.level now
  · rw [if_pos hcover, max_eq_right (sub_nonneg.mpr hcover)]
    exact ⟨fun _ => Or.inr hcover, fun _ => rfl⟩
  · rw [if_neg hcover, max_eq_left (by linarith)]
    exact ⟨Or.inl, fun hor => hor.resolve_right hcover⟩

/-- When a settlement leaves nothing: a refund never does. -/
theorem level_reconcile_zero {u : ℚ} (hwithin : bucket.Within) (hlive : h.Live bucket.capacity)
    (hu : 0 ≤ u) :
    (h.reconcile bucket now u).level now = 0
      ↔ h.reserved ≤ u ∧ (bucket.level now = 0 ∨ bucket.level now = u - h.reserved) := by
  have hnonneg := TokenBucket.level_nonneg hwithin now
  have hresle := hlive.le
  rw [ReservationHandle.level_reconcile]
  rcases lt_trichotomy u h.reserved with hlt | rfl | hgt
  · rw [if_pos hlt]
    have hpos : 0 < min (bucket.level now + (h.reserved - u)) bucket.capacity :=
      lt_min (by linarith) (by linarith)
    exact ⟨fun hc => absurd hc hpos.ne', fun hc => absurd hc.1 (not_le.mpr hlt)⟩
  · rw [if_neg (lt_irrefl _), if_neg (lt_irrefl _), sub_self, or_self]
    exact ⟨fun hc => ⟨le_refl _, hc⟩, fun hc => hc.2⟩
  · rw [if_neg hgt.not_gt, if_pos hgt]
    by_cases hcover : u - h.reserved ≤ bucket.level now
    · rw [if_pos hcover]
      refine ⟨fun hc => ⟨hgt.le, Or.inr (by linarith)⟩, fun hc => ?_⟩
      rcases hc.2 with h0 | h0
      · linarith
      · linarith
    · rw [if_neg hcover]
      refine ⟨fun hc => ⟨hgt.le, Or.inl hc⟩, fun hc => ?_⟩
      rcases hc.2 with h0 | h0
      · exact h0
      · linarith

theorem level_reconcile_iff {a b : Nat} (hwithin : bucket.Within) (hcap : bucket.capacity < 2 ^ 32)
    (hlive : h.Live bucket.capacity) (ha : a < 2 ^ 64) (hb : b < 2 ^ 64)
    (hover : h.reserved < (a + b : ℚ)) :
    (h.reconcile bucket now (wrappingAdd a b)).level now
        = max 0 (bucket.level now - ((a + b : ℚ) - h.reserved))
      ↔ Covered (bucket.level now) h.reserved a b := by
  unfold Covered
  rcases wrappingAdd_cases ha hb with ⟨hsmall, hsum⟩ | ⟨hlarge, hsum⟩
  · rw [if_pos hsmall, hsum]
    push_cast
    exact level_reconcile_overage now hwithin hover
  · -- the bucket holds less than `2 ^ 32`, so the overage is more than it has
    have hle := TokenBucket.level_le hwithin now
    have hresle := hlive.le
    have hsumq : (wrappingAdd a b : ℚ) = (a + b : ℚ) - 2 ^ 64 := by
      have : ((wrappingAdd a b + 2 ^ 64 : Nat) : ℚ) = ((a + b : Nat) : ℚ) := by rw [hsum]
      push_cast at this
      linarith
    have hlargeq : (2 ^ 64 : ℚ) ≤ a + b := by exact_mod_cast hlarge
    have hzero : max 0 (bucket.level now - ((a + b : ℚ) - h.reserved)) = 0 := by
      refine max_eq_left ?_
      norm_num at hcap hlargeq
      linarith
    rw [if_neg (not_lt.mpr hlarge), hsumq, hzero]
    exact level_reconcile_zero now hwithin hlive (by linarith)

end Level

/-! ### In a run -/

/-- A call of the chat handler. -/
def ApiCall.isChat : ApiCall → Bool
  | .chat _ => true
  | .embeddings _ => false

/-- The settlement a task is about to make. -/
def settling (t : Task gatewaySig Idle) : Option (ReservationHandle × ℚ) :=
  match t.prog with
  | .op (.reconcile h cost) _ => some (h, cost)
  | _ => none

/-- Chat request `i` is about to settle reservation `h`, and was told that it used `a` prompt
and `b` completion tokens, more than it reserved. -/
structure Overused (x : Crates) (p : Gateway.State) (i : Nat) (h : ReservationHandle)
    (a b : Nat) : Prop where
  settles : ∃ r t cost, p.tasks[i]? = some (r, t) ∧ r.call.isChat = true ∧
    settling t = some (h, cost) ∧
    ((discipline x).run (Ghost.start r) (p.movesOf i)).reported x = some (a, b)
  overage : h.reserved < (a + b : ℚ)

/-- The settlement between `w` and `w'` is not forgiving: the level drops by the overage, or to
zero, and then the client has to wait. -/
structure Binds (st : AppState) (w w' : World) (client : String) (overage : ℚ) : Prop where
  level : w'.tpmLevel st client = max 0 (w.tpmLevel st client - overage)
  refused : w.tpmLevel st client < overage → ∀ cost, 0 < cost →
    ∃ retryAfter, ((w'.tpm st client).tryReserve w'.now client cost).1 = .error retryAfter

theorem binds_of_level {w w' : World} {client : String} {overage : ℚ}
    (h : w'.tpmLevel st client = max 0 (w.tpmLevel st client - overage)) :
    Binds st w w' client overage := by
  refine ⟨h, fun hover cost hcost => ?_⟩
  have hempty : (w'.tpm st client).level w'.now = 0 := by
    show w'.tpmLevel st client = 0
    rw [h]
    exact max_eq_left (by linarith)
  rcases (w'.tpm st client).tryReserve_cases w'.now client cost with ⟨hle, -, -⟩ | ⟨herr, -⟩
  · rw [hempty] at hle
    exact absurd hle (not_le.mpr hcost)
  · exact herr

theorem settling_some {t : Task gatewaySig Idle} {h : ReservationHandle} {cost : ℚ}
    (ht : settling t = some (h, cost)) :
    ∃ k awaited, t = ⟨.op (.reconcile h cost) k, awaited⟩ := by
  obtain ⟨prog, awaited⟩ := t
  cases prog with
  | ret i => cases ht
  | op e k =>
      cases e with
      | reconcile h' cost' =>
          cases ht
          exact ⟨k, awaited, rfl⟩
      | _ => cases ht

/-- The reservation is what the request holds, and it settles with the wrapped sum. -/
theorem Overused.step {start : Instant} {p p' : Gateway.State} {i : Nat} {h : ReservationHandle}
    {a b : Nat} {c : Choice} (hp : Gateway.Reachable x st start p) (ho : Overused x p i h a b)
    (hstep : (gateway x st).step p (.act i c) = some p') :
    h.Live (tpmLimit st) ∧ a < 2 ^ 64 ∧ b < 2 ^ 64 ∧ p'.world.now = p.world.now ∧
      p'.world.tpm st h.bucket
        = h.reconcile (p.world.tpm st h.bucket) p.world.now (wrappingAdd a b) := by
  obtain ⟨⟨r, t, cost, ht, hchat, hsettling, hreported⟩, -⟩ := ho
  obtain ⟨k, awaited, rfl⟩ := settling_some hsettling
  have hghost := Pool.getElem?_ghosts (discipline x) Ghost.start ht
  obtain ⟨hheld, howes⟩ := (hp.obeys ht).2.1.1
  have hcost : cost = wrappingAdd a b := by
    unfold Ghost.Owes at howes
    rw [run_request] at howes
    cases hcall : r.call with
    | chat payload =>
        rw [hcall] at howes
        simpa [hreported] using howes
    | embeddings payload =>
        rw [hcall] at hchat
        cases hchat
  simp only [Machine.step, ht, Option.map_eq_some_iff] at hstep
  obtain ⟨⟨u, w'⟩, hresponds, rfl⟩ := hstep
  have hrespond : respond st p.world (.reconcile h cost) c = some (u, w') := hresponds
  refine ⟨hp.solvent.held _ (List.mem_of_getElem? hghost) h hheld,
    (Ghost.reported_lt hreported).1, (Ghost.reported_lt hreported).2, respond_now hrespond, ?_⟩
  rw [← hcost]
  exact (respond_tpm hrespond h.bucket).trans (if_pos rfl)

/--
**Over-use binds exactly where it is covered.**  When a chat request that used more than it
reserved settles, the level of the client's bucket drops by the overage, or to zero, if and
only if the bucket covers the overage or is empty, as long as the two counts do not overflow.
-/
theorem overuse_binds_iff {start : Instant} {p p' : Gateway.State} {i : Nat}
    {h : ReservationHandle} {a b : Nat} {c : Choice} (hp : Gateway.Reachable x st start p)
    (ho : Overused x p i h a b) (hstep : (gateway x st).step p (.act i c) = some p') :
    Binds st p.world p'.world h.bucket ((a + b : ℚ) - h.reserved)
      ↔ Covered (p.world.tpmLevel st h.bucket) h.reserved a b := by
  obtain ⟨hlive, ha, hb, hnow, htpm⟩ := ho.step hp hstep
  have hcap := hp.solvent.capacity h.bucket
  have hlimit : (p.world.tpm st h.bucket).capacity < 2 ^ 32 := by
    rw [hcap]
    unfold tpmLimit
    exact_mod_cast st.config.rateLimit.defaultTpm.toNat_lt
  have hiff := level_reconcile_iff p.world.now (hp.solvent.within h.bucket) hlimit
    (hcap ▸ hlive) ha hb ho.overage
  have hlevel : p'.world.tpmLevel st h.bucket
      = (h.reconcile (p.world.tpm st h.bucket) p.world.now (wrappingAdd a b)).level
          p.world.now := by
    unfold World.tpmLevel
    rw [htpm, hnow]
  rw [← hlevel] at hiff
  exact ⟨fun hbinds => hiff.mp hbinds.level, fun hcovered => binds_of_level (hiff.mpr hcovered)⟩

/-! A streaming request that reserved ten of a hundred tokens is about to settle. -/

section Overrun

variable (prompt completion : UInt64)

/-- A document with these counts, and the digest of the one key. -/
def overrunCrates : Crates :=
  .table [smallKey] [(usageText prompt.toNat completion.toNat, usageValue prompt completion)]

/-- A gateway with a hundred tokens a minute. -/
def overrunGateway : AppState := smallGateway (overrunCrates prompt completion) ⟨1, 10, 1⟩ 100

/-- A streaming request that reserved ten tokens is told of these counts. -/
def overrun : Gateway.State :=
  (Gateway.replay (overrunCrates prompt completion) (overrunGateway prompt completion)
    (fun _ _ => true) (fun _ _ _ _ => ())
    [.spawn (smallChat true 10), goes 0, goes 0, goes 0, goes 0, answers 0,
      goes 0, goes 0, goes 0, goes 0,
      .poll 0 (.chunk (dataEvent (usageText prompt.toNat completion.toNat))), goes 0, goes 0]).1

/-- The state after the settlement. -/
def overrunSettled : Option Gateway.State :=
  (gateway (overrunCrates prompt completion) (overrunGateway prompt completion)).step
    (overrun prompt completion) (goes 0)

/-- The reservation of the request. -/
def overrunHandle : ReservationHandle := ⟨"c", 10, false⟩

/-- What the request is, what it is about to do, and what it was told. -/
def overrunFacts : Option (Bool × Option (ReservationHandle × ℚ) × Option (Nat × Nat)) :=
  (overrun prompt completion).tasks[0]?.map fun t =>
    (t.1.call.isChat, settling t.2,
      ((discipline (overrunCrates prompt completion)).run (Ghost.start t.1)
        ((overrun prompt completion).movesOf 0)).reported (overrunCrates prompt completion))

variable {prompt completion}

theorem overrun_overused {cost : ℚ} {a b : Nat}
    (hfacts : overrunFacts prompt completion = some (true, some (overrunHandle, cost), some (a, b)))
    (hover : (10 : ℚ) < a + b) :
    Overused (overrunCrates prompt completion) (overrun prompt completion) 0 overrunHandle a b := by
  obtain ⟨⟨r, t⟩, ht, heq⟩ := Option.map_eq_some_iff.mp hfacts
  simp only [Prod.mk.injEq] at heq
  exact ⟨⟨r, t, cost, ht, heq.1, heq.2.1, heq.2.2⟩, hover⟩

end Overrun

/-- Two hundred tokens: ninety are left in the bucket, and they stay there. -/
theorem overuse_forgiven :
    Gateway.Reachable (overrunCrates 150 50) (overrunGateway 150 50) 0 (overrun 150 50) ∧
      Overused (overrunCrates 150 50) (overrun 150 50) 0 overrunHandle 150 50 ∧
      ∃ p', overrunSettled 150 50 = some p' ∧
        ¬ Binds (overrunGateway 150 50) (overrun 150 50).world p'.world "c" (200 - 10) := by
  have hlevels : (overrunSettled 150 50).map (fun p' =>
      (p'.world.tpmLevel (overrunGateway 150 50) "c",
        (overrun 150 50).world.tpmLevel (overrunGateway 150 50) "c")) = some (90, 90) := by
    decide +kernel
  obtain ⟨p', hp', hlevel⟩ := Option.map_eq_some_iff.mp hlevels
  rw [Prod.mk.injEq] at hlevel
  have hfacts : overrunFacts 150 50
      = some (true, some (overrunHandle, 200), some (150, 50)) := by decide +kernel
  refine ⟨Gateway.replay_reachable _ _ _, overrun_overused hfacts (by norm_num), p', hp', ?_⟩
  intro hbinds
  have hdrop := hbinds.level
  rw [hlevel.1, hlevel.2] at hdrop
  norm_num at hdrop

/-- Twenty-five tokens: the bucket has the other fifteen, and loses them. -/
theorem overuse_binds_iff_covered :
    ∃ p', overrunSettled 20 5 = some p' ∧
      Binds (overrunGateway 20 5) (overrun 20 5).world p'.world "c" (20 + 5 - 10) := by
  have hlevels : (overrunSettled 20 5).map (fun _ =>
      (overrun 20 5).world.tpmLevel (overrunGateway 20 5) "c") = some 90 := by
    decide +kernel
  obtain ⟨p', hp', hlevel⟩ := Option.map_eq_some_iff.mp hlevels
  have hfacts : overrunFacts 20 5
      = some (true, some (overrunHandle, 25), some (20, 5)) := by decide +kernel
  refine ⟨p', hp', (overuse_binds_iff (a := 20) (b := 5) (Gateway.replay_reachable _ _ _)
    (overrun_overused hfacts (by norm_num)) hp').mpr ?_⟩
  unfold Covered
  rw [if_pos (by norm_num)]
  right
  show (20 + 5 : ℚ) - 10 ≤ (overrun 20 5).world.tpmLevel (overrunGateway 20 5) "c"
  rw [hlevel]
  norm_num

end LlmGateway
