/-
The TPM limit over runs of the gateway.

A reservation is taken from the bucket when it is granted, and put back, whole or in part, when
it is settled; what a request used beyond it is taken then, if there is room.  `tpmCall` is what
a move asks of the bucket, and `spent` what a regulator that is asked the same lets be drawn,
without ever looking at a bucket.  The bucket tracks that, so what is left of a budget, and
whether a reservation is granted, can be worked out from the log alone.
-/
import LlmGateway.Proofs.Limits
import LlmGateway.Proofs.Reservations

namespace LlmGateway

open Effects TokenBucket

variable {x : Crates} {st : AppState} {w w' : World} {m : GatewayMove} {l : GatewayLabel}
  {g : Ghost} {client : String}

/-! ### What is asked of a budget -/

/-- What settling a reservation for `cost` asks of the bucket. -/
def ReservationHandle.settling (h : ReservationHandle) (cost : ℚ) : Option BucketCall :=
  if cost < h.reserved then some (.refund (h.reserved - cost))
  else if h.reserved < cost then some (.tryConsume (cost - h.reserved))
  else none

/-- What a move asks of the TPM bucket of a client. -/
def tpmCall (client : String) : GatewayMove → Option BucketCall
  | .act (.tryReserveTpm c cost) _ => if c = client then some (.tryConsume cost) else none
  | .act (.reconcile h cost) _ => if h.bucket = client then h.settling cost else none
  | .act (.dropHandle h) _ =>
      if h.bucket = client then if h.reconciled then none else some (.refund h.reserved) else none
  | _ => none

theorem reconcile_settling (h : ReservationHandle) (b : TokenBucket) (now : Instant) (cost : ℚ) :
    h.reconcile b now cost = (h.settling cost).elim b (b.call now) := by
  rw [ReservationHandle.reconcile_eq]
  unfold ReservationHandle.settling
  by_cases hlt : cost < h.reserved
  · rw [if_pos hlt, if_pos hlt]
    rfl
  by_cases hgt : h.reserved < cost
  · rw [if_neg hlt, if_neg hlt, if_pos hgt, if_pos hgt]
    rfl
  · rw [if_neg hlt, if_neg hlt, if_neg hgt, if_neg hgt]
    rfl

theorem drop_call (h : ReservationHandle) (b : TokenBucket) (now : Instant) :
    h.drop b now
      = (if h.reconciled then none else some (BucketCall.refund h.reserved)).elim b
          (b.call now) := by
  unfold ReservationHandle.drop
  cases h.reconciled with
  | true => rfl
  | false => rfl

/-- A move changes the bucket by the call it makes. -/
theorem onTpm_eq (client : String) (now : Instant) (b : TokenBucket) (m : GatewayMove) :
    onTpm client now b m = (tpmCall client m).elim b (b.call now) := by
  cases m with
  | act e y =>
      cases e with
      | tryReserveTpm c cost =>
          rw [onTpm_tryReserveTpm, tryReserve_snd, tpmCall]
          by_cases hc : c = client
          · rw [if_pos hc, if_pos hc]
            rfl
          · rw [if_neg hc, if_neg hc]
            rfl
      | reconcile h cost =>
          rw [onTpm_reconcile, reconcile_settling, tpmCall]
          by_cases hc : h.bucket = client
          · rw [if_pos hc, if_pos hc]
          · rw [if_neg hc, if_neg hc]
            rfl
      | dropHandle h =>
          rw [onTpm_dropHandle, drop_call, tpmCall]
          by_cases hc : h.bucket = client
          · rw [if_pos hc, if_pos hc]
          · rw [if_neg hc, if_neg hc]
            rfl
      | _ => rfl
  | poll item => rfl
  | drop => rfl

theorem settling_nonneg {h : ReservationHandle} {cost : ℚ} {c : BucketCall}
    (hc : h.settling cost = some c) : c.NonNeg := by
  unfold ReservationHandle.settling at hc
  by_cases hlt : cost < h.reserved
  · rw [if_pos hlt] at hc
    obtain rfl := Option.some.inj hc
    exact sub_nonneg.mpr hlt.le
  by_cases hgt : h.reserved < cost
  · rw [if_neg hlt, if_pos hgt] at hc
    obtain rfl := Option.some.inj hc
    exact sub_nonneg.mpr hgt.le
  · rw [if_neg hlt, if_neg hgt] at hc
    cases hc

/-- Nothing negative is asked for or given back. -/
theorem tpmCall_nonneg {limit : ℚ} (hg : ∀ h, g.held = some h → h.Live limit)
    (hm : Kernel.Allowed (discipline x) g m) {c : BucketCall} (hc : tpmCall client m = some c) :
    c.NonNeg := by
  cases m with
  | act e y =>
      cases e with
      | tryReserveTpm p cost =>
          obtain ⟨-, hcall⟩ := Option.ite_none_right_eq_some.mp hc
          obtain rfl := Option.some.inj hcall
          exact estimate_nonneg hm.2.2
      | reconcile h cost => exact settling_nonneg (Option.ite_none_right_eq_some.mp hc).2
      | dropHandle h =>
          obtain ⟨-, hcall⟩ := Option.ite_none_right_eq_some.mp hc
          obtain ⟨-, hcall⟩ := Option.ite_none_left_eq_some.mp hcall
          obtain rfl := Option.some.inj hcall
          exact (hg h hm).nonneg
      | _ => cases hc
  | poll item => cases hc
  | drop => cases hc

/-- A client without buckets has asked nothing of its budget. -/
theorem answers_unasked (h : (gateway x st).Answers w l m w')
    (hnone : w'.rateLimiter client = none) : tpmCall client m = none := by
  obtain ⟨i, c, e, y, -, rfl, hy⟩ | ⟨rfl, ⟨a, rfl⟩ | rfl⟩ := h.cases
  · cases e with
    | tryReserveTpm p cost => cases hy; exact if_neg (setBuckets_none hnone).2
    | reconcile hd cost => cases hy; exact if_neg (setBuckets_none hnone).2
    | dropHandle hd => cases hy; exact if_neg (setBuckets_none hnone).2
    | _ => rfl
  · rfl
  · rfl

/-! ### What a regulator lets be spent -/

/-- What is drawn by an entry of the log. -/
def spend (limit : ℚ) (client : String) (history : List (Instant × ℚ))
    (n : Entry gatewaySig StreamItem Instant) : List (Instant × ℚ) :=
  (tpmCall client n.move).elim history fun c =>
    history ++ [(n.time, drawn limit history n.time c)]

/-- What the moves of a log draw from a budget of `limit` a minute. -/
def spent (limit : ℚ) (client : String) (log : GatewayLog) : List (Instant × ℚ) :=
  log.foldl (spend limit client) []

theorem spent_snoc (limit : ℚ) (log : GatewayLog) (n : Entry gatewaySig StreamItem Instant) :
    spent limit client (log ++ [n]) = spend limit client (spent limit client log) n := by
  unfold spent
  rw [List.foldl_append]
  rfl

/-- The TPM bucket of a client tracks what the regulator lets be spent. -/
def Budgeted (st : AppState) (client : String) (w : World) (log : GatewayLog) : Prop :=
  Metered .tpm st client w (spent (tpmLimit st) client log)

theorem Budgeted.tracks {log : GatewayLog} (h : Budgeted st client w log) :
    TokenBucket.Tracks (tpmLimit st) (spent (tpmLimit st) client log) (w.tpm st client) w.now :=
  Metered.tracks h

theorem Budgeted.move {log : GatewayLog} (h : Budgeted st client w log)
    (hg : ∀ hd, g.held = some hd → hd.Live (tpmLimit st))
    (hm : Kernel.Allowed (discipline x) g m) (hans : (gateway x st).Answers w l m w') (i : Nat) :
    Budgeted st client w' (log ++ [⟨i, w.now, m⟩]) := by
  refine ⟨?_, ?_⟩
  · intro hnone
    rw [spent_snoc, spend, answers_unasked hans hnone]
    exact h.fresh (answers_untouched hans hnone).1
  · show TokenBucket.Tracks (tpmLimit st) _ (w'.tpm st client) w'.now
    rw [answers_now hans, answers_tpm hans client, onTpm_eq, spent_snoc, spend]
    cases hcall : tpmCall client m with
    | none => exact h.tracks
    | some c =>
        have hcalled := h.tracks.call (tpmCall_nonneg hg hm hcall)
        rw [h.tracks.taken_eq] at hcalled
        exact hcalled

/-- Every reservation of the client was granted exactly if the regulator would have let it. -/
def ReservedExactly (st : AppState) (client : String) : GatewayLog → Prop :=
  Throughout fun before n => ∀ cost answer, n.move = .act (.tryReserveTpm client cost) answer →
    (answer = .ok ⟨client, cost, false⟩ ↔
      (regulator (tpmLimit st)).Fits (spent (tpmLimit st) client before) n.time cost)

theorem tryReserve_granted {b : TokenBucket} {now : Instant} {cost : ℚ} :
    (b.tryReserve now client cost).1 = .ok ⟨client, cost, false⟩ ↔
      (b.tryConsume now cost).1 = .ok () := by
  unfold TokenBucket.tryReserve
  rcases b.tryConsume now cost with ⟨r | u, b'⟩
  · simp
  · simp

theorem ReservedExactly.move {log : GatewayLog} (h : ReservedExactly st client log)
    (hbudget : Budgeted st client w log) (hans : (gateway x st).Answers w l m w') (i : Nat) :
    ReservedExactly st client (log ++ [⟨i, w.now, m⟩]) := by
  refine Throughout.snoc h ?_
  intro cost answer hn
  dsimp only at hn
  subst hn
  rw [answers_tryReserveTpm hans, tryReserve_granted]
  exact hbudget.tracks.granted_iff

theorem Gateway.Reachable.budgeted {start : Instant} {p : Gateway.State}
    (h : Gateway.Reachable x st start p) (client : String) :
    Budgeted st client p.world p.log ∧ ReservedExactly st client p.log := by
  have hall : Solvent st p.world (p.shadow x) ∧
      Budgeted st client p.world p.log ∧ ReservedExactly st client p.log := by
    refine Machine.Reaches.shadow
      (J := fun w gs log => Solvent st w gs ∧ Budgeted st client w log ∧
        ReservedExactly st client log)
      gateway_disciplined (initial_conforms start) ?_ ?_ ?_ ?_ h
    · exact ⟨.initial start, .unused rfl, throughout_nil⟩
    · intro p v w _ hw hJ
      obtain rfl := Option.some.inj hw
      exact ⟨hJ.1.env v, Metered.later hJ.2.1 v, hJ.2.2⟩
    · intro p r hJ
      exact ⟨hJ.1.spawn r, hJ.2⟩
    · intro p l i g m w _ _ hi hm hans hJ
      exact ⟨hJ.1.move hi hm hans,
        hJ.2.1.move (hJ.1.held g (List.mem_of_getElem? hi)) hm hans i,
        hJ.2.2.move hJ.2.1 hans i⟩
  exact hall.2

/--
**The TPM limit is exact over every run.**  Let a regulator of as much a minute be asked what
the moves of the log ask of a client's bucket: reservations, refunds of what was not used, and
what was used beyond.  Whatever the requests do and however they are interleaved, the bucket
holds what the regulator would let be drawn, and a reservation was granted if and only if the
regulator would have let it.
-/
theorem tpm_exact {start : Instant} {p : Gateway.State} (h : Gateway.Reachable x st start p)
    (client : String) :
    (∀ c, c ≤ p.world.tpmLevel st client ↔
      (regulator (tpmLimit st)).Fits (spent (tpmLimit st) client p.log) p.world.now c) ∧
    ∀ before n after, p.log = before ++ n :: after → ∀ cost answer,
      n.move = .act (.tryReserveTpm client cost) answer →
        (answer = .ok ⟨client, cost, false⟩ ↔
          (regulator (tpmLimit st)).Fits (spent (tpmLimit st) client before) n.time cost) := by
  obtain ⟨hbudget, hexact⟩ := h.budgeted client
  exact ⟨hbudget.tracks.room, hexact⟩

/-! ### A refund makes room -/

/-- The tokens that are asked for, and when. -/
def askedTpm (n : Entry gatewaySig StreamItem Instant) : Option (String × ℚ × Instant) :=
  match n.move with
  | .act (.tryReserveTpm c cost) _ => some (c, cost, n.time)
  | _ => none

theorem askedTpm_some {n : Entry gatewaySig StreamItem Instant} {c : String} {cost : ℚ}
    {t : Instant} (h : askedTpm n = some (c, cost, t)) :
    (∃ answer, n.move = .act (.tryReserveTpm c cost) answer) ∧ n.time = t := by
  unfold askedTpm at h
  split at h
  · rename_i hmove
    cases h
    exact ⟨⟨_, hmove⟩, rfl⟩
  · cases h

/-- A gateway with fifteen tokens a minute. -/
def tightGateway : AppState := smallGateway (.table [smallKey] []) ⟨1, 10, 1⟩ 15

/-- Three requests for ten tokens each, of which the first is dropped before the third comes. -/
def refundedRun : Gateway.State :=
  (Gateway.replay (.table [smallKey] []) tightGateway anyStep unobserved
    [.spawn (smallChat false 10), goes 0, goes 0, .spawn (smallChat false 10), goes 1, goes 1,
      .drop 0 false, goes 0, .spawn (smallChat false 10), goes 2, goes 2]).1

/-- The second was refused and draws nothing, so the refund of the first lets the third in. -/
theorem tpm_exact_refund :
    spent 15 "c" (refundedRun.log.take 7) = [(0, 10), (0, 0), (0, -10)] ∧
      ∃ n, refundedRun.log[7]? = some n ∧
        n.move = .act (.tryReserveTpm "c" 10) (.ok ⟨"c", 10, false⟩) := by
  have hasked : refundedRun.log[7]?.bind askedTpm = some ("c", 10, 0) := by decide +kernel
  obtain ⟨n, hn, hn'⟩ := Option.bind_eq_some_iff.mp hasked
  obtain ⟨⟨answer, hmove⟩, htime⟩ := askedTpm_some hn'
  have hfits : (regulator (tpmLimit tightGateway)).Fits
      (spent (tpmLimit tightGateway) "c" (refundedRun.log.take 7)) 0 10 := by decide +kernel
  have hexact := (tpm_exact (Gateway.replay_reachable anyStep unobserved _) "c").2 _ _ _
    (split_at hn) 10 answer hmove
  rw [htime] at hexact
  rw [hexact.mpr hfits] at hmove
  exact ⟨by decide +kernel, n, hn, hmove⟩

end LlmGateway
