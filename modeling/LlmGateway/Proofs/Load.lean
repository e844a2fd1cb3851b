/-
What a client can make the gateway send.

A request is sent to each entry of the provider list at most once, and only after its client
was granted a token of the RPM bucket.  So the RPM limit, which the gateway puts on its
clients, is a limit on what each of them can cost a provider.
-/
import LlmGateway.Proofs.Limits
import LlmGateway.Proofs.Travel

namespace LlmGateway

open Effects TokenBucket

variable {x : Crates} {st : AppState} {client name : String} {a b : Instant}

/-! ### Admissions in a window -/

/-- The client is granted a request between `a` and `b`. -/
def grantedIn (client : String) (a b : Instant) (n : Entry gatewaySig StreamItem Instant) : Bool :=
  grantedRpm client n.move && (decide (a ≤ n.time) && decide (n.time ≤ b))

/-- The requests of a client that were admitted between `a` and `b`. -/
def admittedIn (client : String) (a b : Instant) (log : GatewayLog) : List Nat :=
  (log.filter (grantedIn client a b)).map (·.task)

theorem length_admittedIn (log : GatewayLog) :
    (admittedIn client a b log).length
      = (grants client log).countP fun s => decide (a ≤ s) && decide (s ≤ b) := by
  unfold admittedIn grants grantedIn
  rw [List.length_map, List.countP_map, List.countP_eq_length_filter, List.filter_filter]
  congr 2
  funext n
  exact Bool.and_comm _ _

/-- What satisfies `q` begins somewhere. -/
theorem countP_le_of_first {α : Type} (q : α → Bool) (l : List α) :
    l.countP q = 0 ∨ ∃ before s after, l = before ++ s :: after ∧ q s = true ∧
      l.countP q ≤ (s :: after).length := by
  induction l with
  | nil => exact Or.inl rfl
  | cons y l ih =>
      by_cases hy : q y = true
      · exact Or.inr ⟨[], y, l, rfl, hy, List.countP_le_length⟩
      rw [List.countP_cons_of_neg hy]
      rcases ih with hzero | ⟨before, s, after, rfl, hs, hle⟩
      · exact Or.inl hzero
      · exact Or.inr ⟨y :: before, s, after, rfl, hs, hle⟩

theorem asSecs_mono {s t : Instant} (h : s ≤ t) : Duration.asSecs s ≤ Duration.asSecs t := by
  unfold Duration.asSecs
  gcongr

theorem grantedRpm_cases {m : GatewayMove} (h : grantedRpm client m = true) :
    ∃ cost, m = .act (.rpmTryConsume client cost) (.ok ()) := by
  unfold grantedRpm at h
  split at h
  · obtain rfl := of_decide_eq_true h
    exact ⟨_, rfl⟩
  · cases h

/-- Where one more is granted, the window that begins with the first admission since `a` had
room for it. -/
theorem fits_window {k : ℕ} {log : GatewayLog} {t : Instant}
    (hfits : (regulator k).Fits (rpmDraws client log) t 1) (hab : a ≤ b) (htb : t ≤ b) :
    ((admittedIn client a b log).length : ℚ) + 1
      ≤ k + k / 60 * (Duration.asSecs b - Duration.asSecs a) := by
  obtain ⟨hone, hwindows⟩ := fits_rpmDraws.mp hfits
  have hwait : 0 ≤ Duration.asSecs b - Duration.asSecs a := sub_nonneg.mpr (asSecs_mono hab)
  rw [length_admittedIn]
  rcases countP_le_of_first (fun s => decide (a ≤ s) && decide (s ≤ b)) (grants client log) with
    hzero | ⟨earlier, s, later, hgrants, hs, hle⟩
  · have hk : (1 : ℚ) ≤ k := by exact_mod_cast hone
    have hrest : 0 ≤ (k : ℚ) / 60 * (Duration.asSecs b - Duration.asSecs a) := by positivity
    rw [hzero]
    push_cast
    linarith
  · rw [Bool.and_eq_true, decide_eq_true_eq, decide_eq_true_eq] at hs
    have hcount : (((grants client log).countP fun s => decide (a ≤ s) && decide (s ≤ b) : ℕ) : ℚ)
        ≤ ((s :: later).length : ℚ) := by
      exact_mod_cast hle
    have hrate : (k : ℚ) / 60 * (Duration.asSecs t - Duration.asSecs s)
        ≤ k / 60 * (Duration.asSecs b - Duration.asSecs a) := by
      have hspan := sub_le_sub (asSecs_mono htb) (asSecs_mono hs.1)
      gcongr
    have hwindow := hwindows earlier s later hgrants
    linarith

/-- **No window has more admissions than the limit allows in it.** -/
theorem admittedIn_le {log : GatewayLog} (h : FittedExactly st client log) (hab : a ≤ b) :
    ((admittedIn client a b log).length : ℚ) ≤ st.config.rateLimit.defaultRpm.toNat
      + st.config.rateLimit.defaultRpm.toNat / 60 * (Duration.asSecs b - Duration.asSecs a) := by
  suffices hprefix : ∀ before, before <+: log → ((admittedIn client a b before).length : ℚ)
      ≤ st.config.rateLimit.defaultRpm.toNat
        + st.config.rateLimit.defaultRpm.toNat / 60 * (Duration.asSecs b - Duration.asSecs a) from
    hprefix log (List.prefix_refl log)
  intro before
  induction before using List.reverseRecOn with
  | nil =>
      intro _
      have hwait : 0 ≤ Duration.asSecs b - Duration.asSecs a := sub_nonneg.mpr (asSecs_mono hab)
      show ((0 : ℕ) : ℚ) ≤ _
      positivity
  | append_singleton before n ih =>
      rintro ⟨after, hlog⟩
      have hsplit : log = before ++ n :: after := by
        rw [← hlog]
        simp
      by_cases hn : grantedIn client a b n = true
      · have hlength : (admittedIn client a b (before ++ [n])).length
            = (admittedIn client a b before).length + 1 := by
          simp [admittedIn, hn]
        unfold grantedIn at hn
        rw [Bool.and_eq_true, Bool.and_eq_true, decide_eq_true_eq, decide_eq_true_eq] at hn
        obtain ⟨cost, hmove⟩ := grantedRpm_cases hn.1
        rw [hlength]
        push_cast
        exact fits_window ((h before n after hsplit cost (.ok ()) hmove).mp rfl) hab hn.2.2
      · have hsame : admittedIn client a b (before ++ [n]) = admittedIn client a b before := by
          simp [admittedIn, hn]
        rw [hsame]
        exact ih ⟨n :: after, hsplit.symm⟩

/-! ### What a request is sent to -/

/-- A request waits for an answer of a provider of this name. -/
def waitsFor (name : String) : Option (HttpRequest × Task gatewaySig Idle) → Bool
  | some (_, ⟨.op (.await (.send n _) _) _, _⟩) => decide (n = name)
  | _ => false

/-- How often a request has been sent to a provider of this name, answered or not. -/
def sentBy (p : Gateway.State) (name : String) (i : Nat) : Nat :=
  (contacts (p.movesOf i)).count name + (waitsFor name p.tasks[i]?).toNat

section Runs

variable {start : Instant} {p : Gateway.State} {i : Nat} {r : HttpRequest}
  {t : Task gatewaySig Idle}

theorem waitsFor_cases (h : waitsFor name (some (r, t)) = true) :
    ∃ out owned k, t.prog = .op (.await (.send name out) owned) k := by
  unfold waitsFor at h
  split at h
  · rename_i heq
    obtain ⟨rfl, rfl⟩ := Prod.mk.inj (Option.some.inj heq)
    obtain rfl := of_decide_eq_true h
    exact ⟨_, _, _, rfl⟩
  · cases h

/-- A request is sent to each entry of the list at most once, counting what it waits for. -/
theorem Gateway.Reachable.sentBy_le (h : Gateway.Reachable x st start p) (name : String)
    (i : Nat) : sentBy p name i ≤ (st.sortedProviders.map (·.name)).count name := by
  unfold sentBy
  cases ht : p.tasks[i]? with
  | none =>
      have hmoves : p.movesOf i = [] :=
        Pool.movesOf_fresh (Machine.Reaches.local rfl rfl h).1 (List.getElem?_eq_none_iff.mp ht)
      rw [hmoves]
      exact Nat.zero_le _
  | some n =>
      obtain ⟨r, t⟩ := n
      obtain ⟨leg, hpath, hfollows⟩ := h.travels ht
      have hcount := hpath.order.count_le name
      rw [List.count_append] at hcount
      cases hwaits : waitsFor name (some (r, t)) with
      | false => exact (Nat.le_add_right _ _).trans hcount
      | true =>
          -- it waits for the first of those ahead
          obtain ⟨out, owned, k, hprog⟩ := waitsFor_cases hwaits
          have hmay := hfollows.1
          rw [hprog] at hmay
          obtain ⟨q, rest, hleg, rfl⟩ := Trip.May.cleared hmay.1
          obtain rfl : leg = _ := hleg
          have hhead : 1 ≤ (((Leg.cleared q rest).ahead st.sortedProviders).map (·.name)).count
              q.name := by
            show 1 ≤ (q.name :: rest.map (·.name)).count q.name
            rw [List.count_cons_self]
            omega
          exact (Nat.add_le_add_left hhead _).trans hcount

/-- A request is sent to no one before its client was granted it. -/
theorem Gateway.Reachable.admitted_of_sent (h : Gateway.Reachable x st start p)
    (ht : p.tasks[i]? = some (r, t)) (hsent : 0 < sentBy p name i) :
    ∃ identity s, identified x st r.authorization = some identity ∧
      i ∈ admittedIn identity.clientId s s p.log := by
  suffices hgranted : ∃ identity, identified x st r.authorization = some identity ∧
      .act (.rpmTryConsume identity.clientId 1) (.ok ()) ∈ p.movesOf i by
    obtain ⟨identity, hid, hmem⟩ := hgranted
    obtain ⟨n, hn, rfl, hmove⟩ := Pool.mem_movesOf.mp hmem
    refine ⟨identity, n.time, hid, List.mem_map_of_mem (List.mem_filter.mpr ⟨hn, ?_⟩)⟩
    simp [grantedIn, hmove, grantedRpm]
  unfold sentBy at hsent
  rw [ht] at hsent
  cases hwaits : waitsFor name (some (r, t)) with
  | true =>
      obtain ⟨out, owned, k, hprog⟩ := waitsFor_cases hwaits
      have hmay := (h.mediated ht).2.1
      rw [hprog] at hmay
      obtain ⟨hd, hplace, -⟩ := Bearer.May.reserved hmay.1
      obtain ⟨identity, cost, hid, -, -, hsub⟩ :=
        h.reserved_eq ht (List.append_nil _).symm hplace
      exact ⟨identity, hid, hsub.subset (by simp)⟩
  | false =>
      rw [hwaits] at hsent
      obtain ⟨m, hm, hcontact⟩ := List.mem_filterMap.mp (List.count_pos_iff.mp hsent)
      obtain ⟨before, after, hmoves⟩ := List.mem_iff_append.mp hm
      obtain ⟨⟨n, owned⟩, hsend, -⟩ := Option.map_eq_some_iff.mp hcontact
      obtain ⟨out, answer, rfl⟩ := sendOf_some hsend
      obtain ⟨identity, cost, hid, -, -, hsub, -⟩ := send_paid h ht hmoves
      refine ⟨identity, hid, ?_⟩
      rw [hmoves]
      exact List.mem_append_left _ (hsub.subset (by simp))

/--
**The RPM limit bounds what a client costs a provider.**  However requests interleave, fail over
and are cancelled: the requests of a client that were admitted between `a` and `b` have been
sent to the providers of any one name, answered or not, at most as often as there are entries of
this name, times what the limit allows in this time.  And nothing is sent for a request whose
own client was not granted it.
-/
theorem load_bounded (h : Gateway.Reachable x st start p) (client name : String) (hab : a ≤ b) :
    (((admittedIn client a b p.log).map (sentBy p name)).sum : ℚ)
        ≤ (st.sortedProviders.map (·.name)).count name *
          (st.config.rateLimit.defaultRpm.toNat + st.config.rateLimit.defaultRpm.toNat / 60
            * (Duration.asSecs b - Duration.asSecs a)) ∧
      ∀ (i : Nat) (r : HttpRequest) (t : Task gatewaySig Idle), p.tasks[i]? = some (r, t) →
        0 < sentBy p name i → ∃ identity s, identified x st r.authorization = some identity ∧
          i ∈ admittedIn identity.clientId s s p.log := by
  refine ⟨?_, fun i r t ht hsent => h.admitted_of_sent ht hsent⟩
  have hsum := List.sum_le_card_nsmul ((admittedIn client a b p.log).map (sentBy p name))
    ((st.sortedProviders.map (·.name)).count name) (by
      intro k hk
      obtain ⟨i, -, rfl⟩ := List.mem_map.mp hk
      exact h.sentBy_le name i)
  rw [List.length_map, Nat.nsmul_eq_mul, Nat.mul_comm] at hsum
  calc (((admittedIn client a b p.log).map (sentBy p name)).sum : ℚ)
      ≤ (st.sortedProviders.map (·.name)).count name
          * ((admittedIn client a b p.log).length : ℚ) := by exact_mod_cast hsum
    _ ≤ _ := by
        have hadmitted := admittedIn_le (h.limited client).2 hab
        gcongr

/-- Of two requests admitted at once, one is sent; the other is served from the cache. -/
theorem load_bounded_repeat :
    ((admittedIn "c" 0 0 repeatRun.log).map (sentBy repeatRun "p")) = [1, 0] ∧
      (((admittedIn "c" 0 0 repeatRun.log).map (sentBy repeatRun "p")).sum : ℚ)
        ≤ (1 : ℕ) * ((60 : ℕ) + (60 : ℕ) / 60 * (Duration.asSecs 0 - Duration.asSecs 0)) ∧
      ∃ (identity : ClientIdentity) (s : Instant),
        0 ∈ admittedIn identity.clientId s s repeatRun.log := by
  have hsent : 0 < sentBy repeatRun "p" 0 := by decide +kernel
  have htask : (repeatRun.tasks[0]?).isSome = true := by decide +kernel
  obtain ⟨⟨r, t⟩, ht⟩ := Option.isSome_iff_exists.mp htask
  obtain ⟨hbound, hadmitted⟩ := load_bounded
    (Gateway.replay_reachable (fun _ _ => true) (fun _ _ _ _ => ()) _) "c" "p" (le_refl (0 : ℕ))
  obtain ⟨identity, s, -, hmem⟩ := hadmitted 0 r t ht hsent
  exact ⟨by decide +kernel, hbound, identity, s, hmem⟩

end Runs

end LlmGateway
