/-
The RPM limit over runs of the gateway.

Requests of a client share its RPM bucket however they are interleaved, with each other and
with those of other clients.  What ties the bucket to the log is `Limited`: it tracks the
times at which the log shows requests of this client granted.  So whether a request gets past
the limit can be read off the log, and the answer is the one of the regulator.
-/
import LlmGateway.Proofs.Conformance
import LlmGateway.Proofs.Admission
import LlmGateway.Proofs.Coherence

namespace LlmGateway

open Effects TokenBucket

variable {x : Crates} {st : AppState} {w w' : World} {m : GatewayMove} {l : GatewayLabel}
  {client : String}

/-! ### The bucket of a client -/

/-- What a move does to the RPM bucket of a client. -/
def onRpm (client : String) (now : Instant) (b : TokenBucket) : GatewayMove → TokenBucket
  | .act (.rpmTryConsume c cost) _ => if c = client then (b.tryConsume now cost).2 else b
  | _ => b

/-- The client is granted a request. -/
def grantedRpm (client : String) : GatewayMove → Bool
  | .act (.rpmTryConsume c _) (.ok _) => c = client
  | _ => false

/-- When the client was granted its requests. -/
def grants (client : String) (log : GatewayLog) : List Instant :=
  (log.filter fun n => grantedRpm client n.move).map (·.time)

theorem grants_snoc (log : GatewayLog) (n : Entry gatewaySig StreamItem Instant) :
    grants client (log ++ [n])
      = grants client log ++ if grantedRpm client n.move then [n.time] else [] := by
  unfold grants
  rw [List.filter_append, List.map_append]
  congr 1
  by_cases hgranted : grantedRpm client n.move = true
  · simp [hgranted]
  · simp [hgranted]

theorem grantedRpm_other {c : String} {cost : ℚ} (hc : c ≠ client) (answer : Except Nat Unit) :
    grantedRpm client (.act (.rpmTryConsume c cost) answer) = false := by
  cases answer with
  | ok u => simp [grantedRpm, hc]
  | error r => rfl

/-- Buckets that are written stay; the RPM bucket written for a client is its new one. -/
theorem setBuckets_rpm (w : World) (c : String) (b : RateLimitBuckets) :
    (w.setBuckets c b).rpm st client = if c = client then b.rpm else w.rpm st client := by
  by_cases hc : c = client
  · subst hc
    simp [World.rpm, World.setBuckets, World.bucketsFor]
  · rw [if_neg hc]
    simp [World.rpm, World.setBuckets, World.bucketsFor, Table.insert_ne _ (Ne.symm hc)]

theorem setBuckets_none {c : String} {b : RateLimitBuckets}
    (h : (w.setBuckets c b).rateLimiter client = none) :
    w.rateLimiter client = none ∧ c ≠ client := by
  by_cases hc : client = c
  · subst hc
    simp [World.setBuckets] at h
  · exact ⟨by simpa [World.setBuckets, Table.insert_ne _ hc] using h, Ne.symm hc⟩

theorem setTpm_rpm (w : World) (c : String) (b : TokenBucket) :
    (w.setTpm st c b).rpm st client = w.rpm st client := by
  unfold World.setTpm
  rw [setBuckets_rpm]
  by_cases hc : c = client
  · rw [if_pos hc, hc]
    rfl
  · rw [if_neg hc]

section Respond

variable {e : Effect} {c : Choice} {y : e.Answer}

theorem respond_onRpm (h : respond st w e c = some (y, w')) (client : String) :
    w'.rpm st client = onRpm client w.now (w.rpm st client) (.act e y) := by
  cases e with
  | await a owned => cases a <;> cases c <;> cases h <;> rfl
  | rpmTryConsume p cost =>
      cases h
      rw [setBuckets_rpm]
      by_cases hp : p = client
      · subst hp
        rw [if_pos rfl]
        show _ = if p = p then _ else _
        rw [if_pos rfl]
        rfl
      · rw [if_neg hp]
        show _ = if p = client then _ else _
        rw [if_neg hp]
  | tryReserveTpm p cost => cases h; exact setTpm_rpm _ _ _
  | reconcile hd cost => cases h; exact setTpm_rpm _ _ _
  | dropHandle hd => cases h; exact setTpm_rpm _ _ _
  | _ => cases h; rfl

/-- A client without buckets had none before, and was not asked for a token. -/
theorem respond_untouched (h : respond st w e c = some (y, w'))
    (hnone : w'.rateLimiter client = none) :
    w.rateLimiter client = none ∧ grantedRpm client (.act e y) = false := by
  cases e with
  | await a owned => cases a <;> cases c <;> cases h <;> exact ⟨hnone, rfl⟩
  | rpmTryConsume p cost =>
      cases h
      obtain ⟨hold, hp⟩ := setBuckets_none hnone
      exact ⟨hold, grantedRpm_other hp _⟩
  | tryReserveTpm p cost => cases h; exact ⟨(setBuckets_none hnone).1, rfl⟩
  | reconcile hd cost => cases h; exact ⟨(setBuckets_none hnone).1, rfl⟩
  | dropHandle hd => cases h; exact ⟨(setBuckets_none hnone).1, rfl⟩
  | _ => cases h; exact ⟨hnone, rfl⟩

end Respond

theorem answers_onRpm (h : (gateway x st).Answers w l m w') (client : String) :
    w'.rpm st client = onRpm client w.now (w.rpm st client) m := by
  obtain ⟨i, c, e, y, -, rfl, hy⟩ | ⟨rfl, ⟨a, rfl⟩ | rfl⟩ := h.cases
  · exact respond_onRpm hy client
  · rfl
  · rfl

theorem answers_untouched (h : (gateway x st).Answers w l m w')
    (hnone : w'.rateLimiter client = none) :
    w.rateLimiter client = none ∧ grantedRpm client m = false := by
  obtain ⟨i, c, e, y, -, rfl, hy⟩ | ⟨rfl, ⟨a, rfl⟩ | rfl⟩ := h.cases
  · exact respond_untouched hy hnone
  · exact ⟨hnone, rfl⟩
  · exact ⟨hnone, rfl⟩

/-- The limit answers what the bucket answers. -/
theorem answers_rpmTryConsume {cost : ℚ} {answer : Except Nat Unit}
    (h : (gateway x st).Answers w l (.act (.rpmTryConsume client cost) answer) w') :
    answer = ((w.rpm st client).tryConsume w.now cost).1 := by
  obtain ⟨c, hy⟩ := h.act
  cases hy
  rfl

/-! ### A bucket and its history -/

/-- The limits of a client. -/
inductive Limit
  | rpm
  | tpm

/-- What is allowed a minute. -/
def Limit.perMinute (st : AppState) : Limit → Nat
  | .rpm => st.config.rateLimit.defaultRpm.toNat
  | .tpm => st.config.rateLimit.defaultTpm.toNat

/-- The bucket that keeps it. -/
def Limit.bucket (bs : RateLimitBuckets) : Limit → TokenBucket
  | .rpm => bs.rpm
  | .tpm => bs.tpm

/-- A bucket of a client tracks a history, and there is none before it has buckets. -/
structure Metered (limit : Limit) (st : AppState) (client : String) (w : World)
    (history : List (Instant × ℚ)) : Prop where
  fresh : w.rateLimiter client = none → history = []
  tracks : TokenBucket.Tracks (limit.perMinute st) history
    (limit.bucket (w.bucketsFor st client)) w.now

namespace Metered

variable {limit : Limit} {history : List (Instant × ℚ)}

theorem unused (hnone : w.rateLimiter client = none) : Metered limit st client w [] := by
  refine ⟨fun _ => rfl, ?_⟩
  unfold World.bucketsFor
  rw [hnone]
  cases limit with
  | rpm => exact .new w.now
  | tpm => exact .new w.now

/-- Time passes: buckets nobody has asked for are still new ones. -/
theorem later (h : Metered limit st client w history) (d : Duration) :
    Metered limit st client { w with now := w.now + d } history := by
  cases hbuckets : w.rateLimiter client with
  | none =>
      rw [h.fresh hbuckets]
      exact unused hbuckets
  | some b =>
      have hsame : World.bucketsFor st { w with now := w.now + d } client
          = w.bucketsFor st client := by
        simp [World.bucketsFor, hbuckets]
      refine ⟨h.fresh, ?_⟩
      rw [hsame]
      exact h.tracks.later (Nat.le_add_right _ _)

end Metered

/-! ### What the log shows -/

/-- The draws of the granted requests, a token each. -/
def rpmDraws (client : String) (log : GatewayLog) : List (Instant × ℚ) :=
  (grants client log).map (·, 1)

/-- The RPM bucket of a client tracks the requests the log shows granted. -/
def Limited (st : AppState) (client : String) (w : World) (log : GatewayLog) : Prop :=
  Metered .rpm st client w (rpmDraws client log)

theorem Limited.move {log : GatewayLog} {g : Ghost} (h : Limited st client w log)
    (hm : Kernel.Allowed (discipline x) g m) (hans : (gateway x st).Answers w l m w') (i : Nat) :
    Limited st client w' (log ++ [⟨i, w.now, m⟩]) := by
  have hnow := answers_now hans
  have htracks : TokenBucket.Tracks st.config.rateLimit.defaultRpm.toNat (rpmDraws client log)
      (w.rpm st client) w.now := h.tracks
  refine ⟨?_, ?_⟩
  · intro hnone
    obtain ⟨hold, hnot⟩ := answers_untouched hans hnone
    have hgrants := List.map_eq_nil_iff.mp (h.fresh hold)
    unfold rpmDraws
    rw [grants_snoc, hgrants, hnot]
    rfl
  · show TokenBucket.Tracks st.config.rateLimit.defaultRpm.toNat _ (w'.rpm st client) w'.now
    rw [hnow, answers_onRpm hans client]
    unfold rpmDraws
    rw [grants_snoc]
    by_cases hcall : ∃ cost answer, m = .act (.rpmTryConsume client cost) answer
    · obtain ⟨cost, answer, rfl⟩ := hcall
      have hanswer := answers_rpmTryConsume hans
      obtain rfl : cost = 1 := hm
      have hnext : onRpm client w.now (w.rpm st client) (.act (.rpmTryConsume client 1) answer)
          = (w.rpm st client).call w.now (.tryConsume 1) := if_pos rfl
      rw [hnext]
      cases answer with
      | ok u =>
          have htaken : (w.rpm st client).taken w.now (.tryConsume 1) = 1 := if_pos hanswer.symm
          have hcalled := htracks.call (c := .tryConsume 1) (show (0 : ℚ) ≤ 1 by norm_num)
          rw [htaken] at hcalled
          simpa [grantedRpm, rpmDraws] using hcalled
      | error r =>
          have hrefused := htracks.observes (c := .tryConsume 1) ⟨r, hanswer.symm⟩
          simpa [grantedRpm, rpmDraws] using hrefused
    · have hother : grantedRpm client m = false ∧
          onRpm client w.now (w.rpm st client) m = w.rpm st client := by
        cases m with
        | act e y =>
            cases e with
            | rpmTryConsume c cost =>
                have hc : c ≠ client := by
                  rintro rfl
                  exact hcall ⟨cost, y, rfl⟩
                exact ⟨grantedRpm_other hc y, if_neg hc⟩
            | _ => exact ⟨rfl, rfl⟩
        | poll item => exact ⟨rfl, rfl⟩
        | drop => exact ⟨rfl, rfl⟩
      rw [hother.1, hother.2]
      simpa [rpmDraws] using htracks

/-- Each entry is as what is before it makes it. -/
def Throughout {α : Type} (P : List α → α → Prop) (l : List α) : Prop :=
  ∀ before a after, l = before ++ a :: after → P before a

theorem throughout_nil {α : Type} {P : List α → α → Prop} : Throughout P [] := by
  intro before a after hsplit
  exact absurd hsplit (by simp)

theorem Throughout.snoc {α : Type} {P : List α → α → Prop} {l : List α} {last : α}
    (h : Throughout P l) (hlast : P l last) : Throughout P (l ++ [last]) := by
  intro before a after hsplit
  rcases List.eq_nil_or_concat after with rfl | ⟨init, last', rfl⟩
  · obtain ⟨rfl, ha⟩ := List.append_inj' hsplit rfl
    obtain rfl := List.singleton_inj.mp ha
    exact hlast
  · have hsplit' : l ++ [last] = (before ++ a :: init) ++ [last'] := by
      rw [hsplit]
      simp
    exact h before a init (List.append_inj' hsplit' rfl).1

theorem split_at {α : Type} {l : List α} {i : Nat} {a : α} (h : l[i]? = some a) :
    l = l.take i ++ a :: l.drop (i + 1) := by
  obtain ⟨hlt, rfl⟩ := List.getElem?_eq_some_iff.mp h
  rw [← List.drop_eq_getElem_cons hlt, List.take_append_drop]

/-- Every request for a token of the client was granted exactly if it fitted what the log shows
until then. -/
def FittedExactly (st : AppState) (client : String) : GatewayLog → Prop :=
  Throughout fun before n => ∀ cost answer, n.move = .act (.rpmTryConsume client cost) answer →
    (answer = .ok () ↔
      (regulator st.config.rateLimit.defaultRpm.toNat).Fits (rpmDraws client before) n.time 1)

theorem FittedExactly.move {log : GatewayLog} {g : Ghost} (h : FittedExactly st client log)
    (hlimited : Limited st client w log) (hm : Kernel.Allowed (discipline x) g m)
    (hans : (gateway x st).Answers w l m w') (i : Nat) :
    FittedExactly st client (log ++ [⟨i, w.now, m⟩]) := by
  refine Throughout.snoc h ?_
  intro cost answer hn
  dsimp only at hn
  subst hn
  obtain rfl : cost = 1 := hm
  rw [answers_rpmTryConsume hans]
  exact hlimited.tracks.granted_iff

theorem Gateway.Reachable.limited {start : Instant} {p : Gateway.State}
    (h : Gateway.Reachable x st start p) (client : String) :
    Limited st client p.world p.log ∧ FittedExactly st client p.log := by
  refine Machine.Reaches.shadow
    (J := fun w _ log => Limited st client w log ∧ FittedExactly st client log)
    gateway_disciplined (initial_conforms start) ?_ ?_ ?_ ?_ h
  · exact ⟨.unused rfl, throughout_nil⟩
  · intro p v w _ hw hJ
    obtain rfl := Option.some.inj hw
    exact ⟨hJ.1.later v, hJ.2⟩
  · intro p r hJ
    exact hJ
  · intro p l i g m w _ _ _ hm hans hJ
    exact ⟨hJ.1.move hm hans i, hJ.2.move hJ.1 hm hans i⟩

/-- A token fits if no window has as many requests as it allows. -/
theorem fits_rpmDraws {k : ℕ} {log : GatewayLog} {t : Instant} :
    (regulator k).Fits (rpmDraws client log) t 1 ↔
      1 ≤ k ∧ ∀ before s after, grants client log = before ++ s :: after →
        ((s :: after).length + 1 : ℚ)
          ≤ k + k / 60 * (Duration.asSecs t - Duration.asSecs s) := by
  have htotal : ∀ ts : List Instant,
      Regulator.total (ts.map fun s => (s, (1 : ℚ))) = ts.length := by
    intro ts
    induction ts with
    | nil => rfl
    | cons s ts ih =>
        rw [List.map_cons, ← List.singleton_append, Regulator.total_append,
          Regulator.total_single, ih, List.length_cons]
        push_cast
        ring
  unfold Regulator.Fits rpmDraws
  constructor
  · rintro ⟨hcap, hwindows⟩
    refine ⟨by exact_mod_cast (show (1 : ℚ) ≤ k from hcap), ?_⟩
    intro before s after hsplit
    have hwindow := hwindows (before.map (·, 1)) (s, 1) (after.map (·, 1)) (by simp [hsplit])
    rw [← List.map_cons (f := fun s => (s, (1 : ℚ))), htotal, add_comm] at hwindow
    exact hwindow
  · rintro ⟨hcap, hwindows⟩
    refine ⟨show (1 : ℚ) ≤ k by exact_mod_cast hcap, ?_⟩
    intro before y after hsplit
    obtain ⟨before', rest, hgrants, rfl, hrest⟩ := List.map_eq_append_iff.mp hsplit
    obtain ⟨s, after', rfl, rfl, rfl⟩ := List.map_eq_cons_iff.mp hrest
    rw [← List.map_cons (f := fun s => (s, (1 : ℚ))), htotal, add_comm]
    exact hwindows before' s after' hgrants

/--
**The RPM limit is exact over every run.**  However the requests are interleaved, a request of
a client gets past the limit if and only if for each earlier request of this client that did,
at time `s`, the number of those since `s`, with both ends, is within `rpm` and a sixtieth of
it for each second since `s`.
-/
theorem rpm_exact {start : Instant} {p : Gateway.State} (h : Gateway.Reachable x st start p)
    {before after : GatewayLog} {n : Entry gatewaySig StreamItem Instant} {cost : ℚ}
    {answer : Except Nat Unit} (hlog : p.log = before ++ n :: after)
    (hn : n.move = .act (.rpmTryConsume client cost) answer) :
    answer = .ok () ↔
      1 ≤ st.config.rateLimit.defaultRpm.toNat ∧
        ∀ earlier s later, grants client before = earlier ++ s :: later →
          ((s :: later).length + 1 : ℚ) ≤ st.config.rateLimit.defaultRpm.toNat
            + st.config.rateLimit.defaultRpm.toNat / 60
              * (Duration.asSecs n.time - Duration.asSecs s) := by
  rw [(h.limited client).2 before n after hlog cost answer hn]
  exact fits_rpmDraws

/-! ### One request a minute -/

/-- What is asked of an RPM bucket, and the answer. -/
def askedRpm : GatewayMove → Option (String × ℚ × Except Nat Unit)
  | .act (.rpmTryConsume c cost) answer => some (c, cost, answer)
  | _ => none

theorem askedRpm_some {c : String} {cost : ℚ} {answer : Except Nat Unit}
    (h : askedRpm m = some (c, cost, answer)) : m = .act (.rpmTryConsume c cost) answer := by
  unfold askedRpm at h
  split at h
  · cases h
    rfl
  · cases h

/-- A gateway with one request a minute. -/
def oneAMinute : AppState :=
  .new (.table [smallKey] [])
    { (smallGateway (.table [smallKey] []) ⟨1, 10, 1⟩ 100).config with rateLimit := ⟨1, 100⟩ }

/-- Two requests at once. -/
def twoAtOnce : Gateway.State :=
  (Gateway.replay (.table [smallKey] []) oneAMinute anyStep unobserved
    [.spawn (smallChat false 10), goes 0, .spawn (smallChat false 10), goes 1]).1

/-- The second is refused, as the window that begins with the first is full. -/
theorem rpm_exact_second :
    ∃ n r, twoAtOnce.log[1]? = some n ∧ n.move = .act (.rpmTryConsume "c" 1) (.error r) ∧
      ¬ ∀ earlier s later, grants "c" (twoAtOnce.log.take 1) = earlier ++ s :: later →
        ((s :: later).length + 1 : ℚ) ≤ (1 : ℕ) + (1 : ℕ) / 60
          * (Duration.asSecs n.time - Duration.asSecs s) := by
  have hasked : (twoAtOnce.log[1]?.bind fun n => askedRpm n.move)
      = some ("c", 1, .error 60) := by decide +kernel
  obtain ⟨n, hn, hmove⟩ := Option.bind_eq_some_iff.mp hasked
  have hiff := rpm_exact (Gateway.replay_reachable anyStep unobserved _) (split_at hn)
    (askedRpm_some hmove)
  refine ⟨n, 60, hn, askedRpm_some hmove, ?_⟩
  intro hwindows
  exact absurd (hiff.mpr ⟨by decide, hwindows⟩) (by simp)

end LlmGateway
