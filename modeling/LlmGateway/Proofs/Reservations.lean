/-
Where the tokens of a client are.

At one instant nothing is refilled, and a token of a client's TPM budget is in one of
three places: in the bucket, in a reservation some request holds, or charged.  No move
changes the sum of the three (`step_balance`).  With that a refund never reaches the
bucket's capacity, so no refund is cut short, and what is left once every reservation is
settled is the level from before, less the charges.

That a reservation is settled, and only once, is a fact about one request on its own:
the reservations it obtained are those it settled and the one it holds.
-/
import LlmGateway.Proofs.World
import LlmGateway.Proofs.TokenBucket
import Mathlib.Algebra.Order.BigOperators.Group.List

namespace LlmGateway

open Effects

variable {x : Crates} {st : AppState} {w w' : World} {m : GatewayMove} {g : Ghost}
  {b : TokenBucket} {now : Instant} {client : String}

/-! ### One reservation -/

/-- A reservation that is not settled, of at most `limit` tokens. -/
structure ReservationHandle.Live (limit : ℚ) (h : ReservationHandle) : Prop where
  reconciled : h.reconciled = false
  nonneg : 0 ≤ h.reserved
  le : h.reserved ≤ limit

namespace ReservationHandle

variable {h : ReservationHandle}

theorem drop_eq (hr : h.reconciled = false) (b : TokenBucket) (now : Instant) :
    h.drop b now = b.refund now h.reserved := by
  unfold drop
  rw [hr]
  rfl

theorem reconcile_eq (h : ReservationHandle) (b : TokenBucket) (now : Instant) (cost : ℚ) :
    h.reconcile b now cost
      = if cost < h.reserved then b.refund now (h.reserved - cost)
        else if h.reserved < cost then (b.tryConsume now (cost - h.reserved)).2
        else b := rfl

theorem drop_within (hb : b.Within) (hn : 0 ≤ h.reserved) : (h.drop b now).Within := by
  unfold drop
  split
  · exact hb
  · exact TokenBucket.refund_within hb hn now

theorem reconcile_within (hb : b.Within) (cost : ℚ) : (h.reconcile b now cost).Within := by
  rw [reconcile_eq]
  by_cases hlt : cost < h.reserved
  · rw [if_pos hlt]
    exact TokenBucket.refund_within hb (by linarith) now
  by_cases hgt : h.reserved < cost
  · rw [if_neg hlt, if_pos hgt]
    exact TokenBucket.tryConsume_within hb (by linarith) now
  · rw [if_neg hlt, if_neg hgt]
    exact hb

/-- The level after a settlement. -/
theorem level_reconcile (h : ReservationHandle) (b : TokenBucket) (now : Instant) (cost : ℚ) :
    (h.reconcile b now cost).level now
      = if cost < h.reserved then min (b.level now + (h.reserved - cost)) b.capacity
        else if h.reserved < cost then
          if cost - h.reserved ≤ b.level now then b.level now - (cost - h.reserved)
          else b.level now
        else b.level now := by
  rw [reconcile_eq]
  by_cases hlt : cost < h.reserved
  · rw [if_pos hlt, if_pos hlt, TokenBucket.level_refund]
  by_cases hgt : h.reserved < cost
  · rw [if_neg hlt, if_neg hlt, if_pos hgt, if_pos hgt, TokenBucket.level_tryConsume]
  · rw [if_neg hlt, if_neg hlt, if_neg hgt, if_neg hgt]

end ReservationHandle

theorem TokenBucket.tryReserve_snd (b : TokenBucket) (now : Instant) (client : String) (cost : ℚ) :
    (b.tryReserve now client cost).2 = (b.tryConsume now cost).2 := by
  unfold tryReserve
  rcases b.tryConsume now cost with ⟨_ | _, b'⟩ <;> rfl

/-- A reservation is granted for what it costs, or refused with nothing taken. -/
theorem TokenBucket.tryReserve_cases (b : TokenBucket) (now : Instant) (client : String)
    (cost : ℚ) :
    (cost ≤ b.level now ∧ (b.tryReserve now client cost).1 = .ok ⟨client, cost, false⟩ ∧
      (b.tryReserve now client cost).2.level now = b.level now - cost) ∨
    ((∃ retryAfter, (b.tryReserve now client cost).1 = .error retryAfter) ∧
      (b.tryReserve now client cost).2.level now = b.level now) := by
  have hlevel := level_tryConsume b now cost
  rw [tryReserve_snd]
  by_cases hc : cost ≤ b.level now
  · rw [if_pos hc] at hlevel
    refine Or.inl ⟨hc, ?_, hlevel⟩
    unfold tryReserve tryConsume
    simp only [if_pos (show cost ≤ (b.refillLocked now).tokens from hc)]
  · rw [if_neg hc] at hlevel
    refine Or.inr ⟨?_, hlevel⟩
    unfold tryReserve
    rw [← Prod.mk.eta (p := b.tryConsume now cost), tryConsume_refused (not_le.mp hc)]
    exact ⟨_, rfl⟩

/-! ### Every reachable state -/

/-- The TPM budget of a client. -/
def tpmLimit (st : AppState) : ℚ := (st.config.rateLimit.defaultTpm.toNat : ℚ)

/-- Time passes: a bucket is the old one, or nobody has asked for it, and it is a full one. -/
theorem World.tpm_env (w : World) (d : Duration) (client : String) :
    World.tpm st { w with now := w.now + d } client = w.tpm st client ∨
      World.tpm st { w with now := w.now + d } client
        = .new (tpmLimit st) (tpmLimit st / 60) (w.now + d) := by
  unfold World.tpm World.bucketsFor
  cases w.rateLimiter client with
  | none => exact Or.inr rfl
  | some buckets => exact Or.inl rfl

/-- Every bucket is sound and has the configured capacity, and what requests hold is live. -/
structure Solvent (st : AppState) (w : World) (gs : List Ghost) : Prop where
  within : ∀ client, (w.tpm st client).Within
  capacity : ∀ client, (w.tpm st client).capacity = tpmLimit st
  held : ∀ g ∈ gs, ∀ h, g.held = some h → h.Live (tpmLimit st)

theorem estimate_nonneg {call : ApiCall} {cost : ℚ} (h : call.estimate = some cost) :
    0 ≤ cost := by
  cases call with
  | chat payload =>
      cases payload with
      | error e => cases h
      | ok r =>
          obtain rfl := Option.some.inj h
          unfold estimateChatTokens
          positivity
  | embeddings payload =>
      cases payload with
      | error e => cases h
      | ok r =>
          obtain rfl := Option.some.inj h
          exact le_trans zero_le_one (le_max_right _ _)

/-- What a request holds after a move: what it held, nothing, or what it was just granted. -/
theorem held_next (g : Ghost) (m : GatewayMove) :
    (g.next m).held = g.held ∨ (g.next m).held = none ∨
      ∃ client cost answer, m = .act (.tryReserveTpm client cost) answer ∧
        (g.next m).held = answer.toOption := by
  cases m with
  | act e y =>
      cases e with
      | await a owned => exact Or.inl (held_next_await g a owned y)
      | tryReserveTpm client cost => exact Or.inr (Or.inr ⟨client, cost, y, rfl, rfl⟩)
      | reconcile h cost => exact Or.inr (Or.inl rfl)
      | dropHandle h => exact Or.inr (Or.inl rfl)
      | allowRequest p => cases y <;> exact Or.inl rfl
      | _ => exact Or.inl rfl
  | poll item => cases item <;> exact Or.inl rfl
  | drop => exact Or.inl rfl

/-- A move makes at most one call on a bucket. -/
theorem onTpm_call (client : String) (now : Instant) (b : TokenBucket) (m : GatewayMove) :
    onTpm client now b m = b ∨ ∃ c, onTpm client now b m = b.call now c := by
  cases m with
  | act e y =>
      cases e with
      | tryReserveTpm c cost =>
          rw [onTpm_tryReserveTpm, TokenBucket.tryReserve_snd]
          split
          · exact Or.inr ⟨.tryConsume cost, rfl⟩
          · exact Or.inl rfl
      | reconcile h cost =>
          rw [onTpm_reconcile, ReservationHandle.reconcile_eq]
          split
          · split
            · exact Or.inr ⟨.refund _, rfl⟩
            · split
              · exact Or.inr ⟨.tryConsume _, rfl⟩
              · exact Or.inl rfl
          · exact Or.inl rfl
      | dropHandle h =>
          rw [onTpm_dropHandle]
          unfold ReservationHandle.drop
          split
          · split
            · exact Or.inl rfl
            · exact Or.inr ⟨.refund _, rfl⟩
          · exact Or.inl rfl
      | _ => exact Or.inl rfl
  | poll item => exact Or.inl rfl
  | drop => exact Or.inl rfl

theorem onTpm_capacity (client : String) (now : Instant) (b : TokenBucket) (m : GatewayMove) :
    (onTpm client now b m).capacity = b.capacity := by
  rcases onTpm_call client now b m with hsame | ⟨c, hcall⟩
  · rw [hsame]
  · rw [hcall, TokenBucket.call_capacity]

theorem onTpm_within (hb : b.Within) {limit : ℚ} (hg : ∀ h, g.held = some h → h.Live limit)
    (hm : Kernel.Allowed (discipline x) g m) : (onTpm client now b m).Within := by
  cases m with
  | act e y =>
      cases e with
      | tryReserveTpm c cost =>
          rw [onTpm_tryReserveTpm]
          split
          · rw [TokenBucket.tryReserve_snd]
            exact TokenBucket.tryConsume_within hb (estimate_nonneg hm.2.2) now
          · exact hb
      | reconcile h cost =>
          rw [onTpm_reconcile]
          split
          · exact ReservationHandle.reconcile_within hb cost
          · exact hb
      | dropHandle h =>
          rw [onTpm_dropHandle]
          split
          · exact ReservationHandle.drop_within hb (hg h hm).nonneg
          · exact hb
      | _ => exact hb
  | poll item => exact hb
  | drop => exact hb

namespace Solvent

variable {gs : List Ghost}

theorem initial (start : Instant) : Solvent st (.initial start) [] where
  within _ := TokenBucket.new_within (Nat.cast_nonneg _) _ start
  capacity _ := max_eq_left (Nat.cast_nonneg _)
  held _ hg := absurd hg List.not_mem_nil

/-- Time passes: a bucket nobody has asked for is still a full one. -/
theorem env (hs : Solvent st w gs) (d : Duration) :
    Solvent st { w with now := w.now + d } gs := by
  have hlimit : 0 ≤ tpmLimit st := Nat.cast_nonneg _
  refine ⟨fun client => ?_, fun client => ?_, hs.held⟩
  · rcases World.tpm_env w d client with hold | hnew
    · rw [hold]
      exact hs.within client
    · rw [hnew]
      exact TokenBucket.new_within hlimit _ _
  · rcases World.tpm_env w d client with hold | hnew
    · rw [hold]
      exact hs.capacity client
    · rw [hnew]
      exact max_eq_left hlimit

theorem spawn (hs : Solvent st w gs) (r : HttpRequest) : Solvent st w (gs ++ [Ghost.start r]) where
  within := hs.within
  capacity := hs.capacity
  held g hg h hheld := by
    rcases List.mem_append.mp hg with hold | hnew
    · exact hs.held g hold h hheld
    · obtain rfl := List.mem_singleton.mp hnew
      cases hheld

theorem move (hs : Solvent st w gs) {i : Nat} (hi : gs[i]? = some g)
    (hm : Kernel.Allowed (discipline x) g m)
    {l : GatewayLabel}
    (hans : (gateway x st).Answers w l m w') : Solvent st w' (gs.set i (g.next m)) := by
  have hg := hs.held g (List.mem_of_getElem? hi)
  refine ⟨fun client => ?_, fun client => ?_, fun g' hg' h hheld => ?_⟩
  · rw [answers_tpm hans]
    exact onTpm_within (hs.within client) hg hm
  · rw [answers_tpm hans, onTpm_capacity]
    exact hs.capacity client
  · rcases List.mem_or_eq_of_mem_set hg' with hold | rfl
    · exact hs.held g' hold h hheld
    rcases held_next g m with hsame | hnone | ⟨client, cost, answer, rfl, hnew⟩
    · exact hg h (hsame ▸ hheld)
    · rw [hnone] at hheld
      cases hheld
    · rw [hnew, answers_tryReserveTpm hans] at hheld
      rcases (w.tpm st client).tryReserve_cases w.now client cost with
        ⟨hle, hok, -⟩ | ⟨⟨retryAfter, herr⟩, -⟩
      · rw [hok] at hheld
        obtain rfl := Option.some.inj hheld
        refine ⟨rfl, estimate_nonneg hm.2.2, hle.trans ?_⟩
        rw [← hs.capacity client]
        exact TokenBucket.level_le (hs.within client) w.now
      · rw [herr] at hheld
        cases hheld

end Solvent

/-- **Every reachable state is solvent.** -/
theorem Gateway.Reachable.solvent {start : Instant} {p : Gateway.State}
    (h : Gateway.Reachable x st start p) : Solvent st p.world (p.shadow x) := by
  refine Machine.Reaches.shadow (J := fun w gs _ => Solvent st w gs) gateway_disciplined
    (initial_conforms start) (Solvent.initial start) ?_ ?_ ?_ h
  · intro p v w _ hw hs
    obtain rfl := Option.some.inj hw
    exact hs.env v
  · intro p r hs
    exact hs.spawn r
  · intro p l i g m w _ _ hi hm hans hs
    exact hs.move hi hm hans

/-! ### The reservation of one request -/

/-- The reservation a move is granted. -/
def granted : GatewayMove → Option ReservationHandle
  | .act (.tryReserveTpm _ _) answer => answer.toOption
  | _ => none

/-- The reservation a move settles: by `reconcile`, or by the refund of a drop. -/
def settles : GatewayMove → Option ReservationHandle
  | .act (.reconcile h _) _ => some h
  | .act (.dropHandle h) _ => some h
  | _ => none

/-- The reservations a request obtained. -/
def reservations (ms : List GatewayMove) : List ReservationHandle := ms.filterMap granted

/-- The settlements it made. -/
def settlements (ms : List GatewayMove) : List ReservationHandle := ms.filterMap settles

/-- What a move can do to the reservation of its request. -/
inductive Handling (g : Ghost) (m : GatewayMove) : Prop
  | keep (hg : granted m = none) (hs : settles m = none) (hheld : (g.next m).held = g.held)
      (hres : (g.next m).reserved = g.reserved)
  | settle (h : ReservationHandle) (hg : granted m = none) (hs : settles m = some h)
      (hold : g.held = some h) (hheld : (g.next m).held = none)
      (hres : (g.next m).reserved = g.reserved)
  | grant (hfirst : g.reserved = false) (hold : g.held = none) (hs : settles m = none)
      (hheld : (g.next m).held = granted m) (hres : (g.next m).reserved = true)

theorem handling (hm : Kernel.Allowed (discipline x) g m) : Handling g m := by
  cases m with
  | act e y =>
      cases e with
      | tryReserveTpm client cost => exact .grant hm.1 hm.2.1 rfl rfl rfl
      | reconcile h cost => exact .settle h rfl rfl hm.1 rfl rfl
      | dropHandle h => exact .settle h rfl rfl hm rfl rfl
      | allowRequest p => cases y <;> exact .keep rfl rfl rfl rfl
      | await a owned =>
          cases a with
          | bytes p => cases y <;> exact .keep rfl rfl rfl rfl
          | _ => exact .keep rfl rfl rfl rfl
      | _ => exact .keep rfl rfl rfl rfl
  | poll item => cases item <;> exact .keep rfl rfl rfl rfl
  | drop => exact .keep rfl rfl rfl rfl

/-- The books of one request: it obtained what it settled and what it holds, and it asked at
most once. -/
structure Booked (g : Ghost) (ms : List GatewayMove) : Prop where
  balance : reservations ms = settlements ms ++ g.held.toList
  once : (reservations ms).length ≤ 1
  first : g.reserved = false → reservations ms = []

theorem Booked.move {ms : List GatewayMove} (hb : Booked g ms) (hm : Handling g m) :
    Booked (g.next m) (ms ++ [m]) := by
  obtain ⟨hbal, honce, hfirst⟩ := hb
  have hres : reservations (ms ++ [m]) = reservations ms ++ (granted m).toList := by
    simp [reservations, List.filterMap_append, List.filterMap_cons, Option.toList]
    cases granted m <;> rfl
  have hset : settlements (ms ++ [m]) = settlements ms ++ (settles m).toList := by
    simp [settlements, List.filterMap_append, List.filterMap_cons, Option.toList]
    cases settles m <;> rfl
  cases hm with
  | keep hg hs hheld hsame =>
      rw [hg, Option.toList_none, List.append_nil] at hres
      rw [hs, Option.toList_none, List.append_nil] at hset
      refine ⟨?_, hres ▸ honce, ?_⟩
      · rw [hres, hset, hheld]
        exact hbal
      · rw [hres, hsame]
        exact hfirst
  | settle h hg hs hold hheld hsame =>
      rw [hg, Option.toList_none, List.append_nil] at hres
      refine ⟨?_, hres ▸ honce, ?_⟩
      · rw [hres, hset, hs, hheld, hbal, hold]
        simp
      · rw [hres, hsame]
        exact hfirst
  | grant hunasked hold hs hheld hasked =>
      have hnil := hfirst hunasked
      rw [hnil, hold] at hbal
      have hunset : settlements ms = [] := (List.append_eq_nil_iff.mp hbal.symm).1
      rw [hnil, List.nil_append] at hres
      rw [hs, hunset] at hset
      refine ⟨?_, ?_, ?_⟩
      · rw [hres, hset, hheld]
        rfl
      · rw [hres]
        exact Option.length_toList_le
      · rw [hasked]
        exact fun hf => nomatch hf

/-- **A request settles the reservation it obtained, or still holds it.** -/
theorem booked {r : HttpRequest} (ms : List GatewayMove)
    (h : (discipline x).Obeys (Ghost.start r) ms) :
    Booked ((discipline x).run (Ghost.start r) ms) ms := by
  induction ms using List.reverseRecOn with
  | nil => exact ⟨rfl, Nat.zero_le _, fun _ => rfl⟩
  | append_singleton ms m ih =>
      obtain ⟨hobeys, hm⟩ := Kernel.allowed_of_obeys h
      rw [Protocol.run_append]
      exact (ih hobeys).move (handling hm)

/-- A request that is answered in full, or done with. -/
def Idle.AtRest : Idle → Prop
  | .responded r => ∃ bytes, r.body = .full bytes
  | .closed => True

theorem Settled.held_none {i : Idle} (h : Settled x i g) (hrest : i.AtRest) : g.held = none := by
  cases i with
  | closed => exact h.held
  | responded r =>
      obtain ⟨-, hg⟩ := h
      obtain ⟨bytes, hbody⟩ := hrest
      rw [hbody] at hg
      exact hg.held

/-! ### The balance of one instant -/

/-- What a reservation, if there is one, has of a client's budget. -/
def reservedFor (client : String) : Option ReservationHandle → ℚ
  | some h => if h.bucket = client then h.reserved else 0
  | none => 0

@[simp] theorem reservedFor_none (client : String) : reservedFor client none = 0 := rfl

@[simp] theorem reservedFor_some (client : String) (h : ReservationHandle) :
    reservedFor client (some h) = if h.bucket = client then h.reserved else 0 := rfl

/-- What a request holds of a client's budget. -/
def Ghost.holds (client : String) (g : Ghost) : ℚ := reservedFor client g.held

/-- What a move charges a client: what a request reconciles with, if that is no more than it
reserved; or else what it reserved, and what the overage took from the bucket. -/
def charge (st : AppState) (client : String) (w : World) (_ : Ghost) (m : GatewayMove)
    (w' : World) : ℚ :=
  match m with
  | .act (.reconcile h u) _ =>
      if h.bucket = client then
        if u ≤ h.reserved then u
        else h.reserved + (w.tpmLevel st client - w'.tpmLevel st client)
      else 0
  | _ => 0

/-- Bucket, reservations and charges have the same sum after a move as before it. -/
structure Balanced (st : AppState) (client : String) (w w' : World) (g : Ghost)
    (m : GatewayMove) : Prop where
  total : w'.tpmLevel st client + (g.next m).holds client + charge st client w g m w'
    = w.tpmLevel st client + g.holds client
  charge_nonneg : 0 ≤ charge st client w g m w'

theorem Ghost.Owes.nonneg {cost : ℚ} (h : g.Owes x cost) : 0 ≤ cost := by
  unfold Ghost.Owes at h
  split at h
  · rw [h]
    cases g.reported x with
    | none => exact le_refl 0
    | some t => exact Nat.cast_nonneg _
  · obtain ⟨n, -, rfl⟩ := Option.map_eq_some_iff.mp h
    exact Nat.cast_nonneg n

section Balance

variable {l : GatewayLabel}

theorem level_of_answers (hans : (gateway x st).Answers w l m w') (client : String) :
    w'.tpmLevel st client = (onTpm client w.now (w.tpm st client) m).level w.now := by
  unfold World.tpmLevel
  rw [answers_tpm hans, answers_now hans]

theorem balanced_of_same (hlevel : w'.tpmLevel st client = w.tpmLevel st client)
    (hheld : (g.next m).held = g.held) (hcharge : charge st client w g m w' = 0) :
    Balanced st client w w' g m := by
  refine ⟨?_, le_of_eq hcharge.symm⟩
  rw [hcharge, hlevel]
  unfold Ghost.holds
  rw [hheld, add_zero]

theorem balanced_tryReserveTpm {c : String} {cost : ℚ} {answer : Except Nat ReservationHandle}
    (hm : Permitted x g (.tryReserveTpm c cost))
    (hans : (gateway x st).Answers w l (.act (.tryReserveTpm c cost) answer) w')
    (client : String) : Balanced st client w w' g (.act (.tryReserveTpm c cost) answer) := by
  have hlevel := level_of_answers hans client
  have hbefore : g.holds client = 0 := by
    unfold Ghost.holds
    rw [hm.2.1, reservedFor_none]
  have hafter : (g.next (.act (.tryReserveTpm c cost) answer)).holds client
      = reservedFor client answer.toOption := rfl
  have hnow : (w.tpm st client).level w.now = w.tpmLevel st client := rfl
  rw [onTpm_tryReserveTpm] at hlevel
  refine ⟨?_, le_refl 0⟩
  show _ + (0 : ℚ) = _
  rw [hbefore, hafter, hlevel, answers_tryReserveTpm hans]
  by_cases hc : c = client
  · subst hc
    rw [if_pos rfl]
    rcases (w.tpm st c).tryReserve_cases w.now c cost with ⟨-, hok, htaken⟩ | ⟨⟨r, herr⟩, hleft⟩
    · rw [htaken, hok, hnow]
      show _ - cost + reservedFor c (some _) + 0 = _
      rw [reservedFor_some, if_pos rfl]
      ring
    · rw [hleft, herr, hnow]
      show _ + reservedFor c none + 0 = _
      rw [reservedFor_none, add_zero]
  · rw [if_neg hc, hnow]
    rcases (w.tpm st c).tryReserve_cases w.now c cost with ⟨-, hok, -⟩ | ⟨⟨r, herr⟩, -⟩
    · rw [hok]
      show _ + reservedFor client (some _) + 0 = _
      rw [reservedFor_some, if_neg hc, add_zero]
    · rw [herr]
      show _ + reservedFor client none + 0 = _
      rw [reservedFor_none, add_zero]

theorem balanced_reconcile {h : ReservationHandle} {u : ℚ} {v : Unit}
    (hm : Permitted x g (.reconcile h u)) (hreserved : 0 ≤ h.reserved)
    (hans : (gateway x st).Answers w l (.act (.reconcile h u) v) w') (client : String)
    (hroom : w.tpmLevel st client + g.holds client ≤ (w.tpm st client).capacity) :
    Balanced st client w w' g (.act (.reconcile h u) v) := by
  have hlevel := level_of_answers hans client
  have hnonneg : 0 ≤ u := hm.2.nonneg
  have hnow : (w.tpm st client).level w.now = w.tpmLevel st client := rfl
  have hafter : (g.next (.act (.reconcile h u) v)).holds client = 0 := rfl
  have hcharge : charge st client w g (.act (.reconcile h u) v) w'
      = if h.bucket = client then
          if u ≤ h.reserved then u
          else h.reserved + (w.tpmLevel st client - w'.tpmLevel st client)
        else 0 := rfl
  have hholds : g.holds client = if h.bucket = client then h.reserved else 0 := by
    unfold Ghost.holds
    rw [hm.1, reservedFor_some]
  rw [onTpm_reconcile] at hlevel
  by_cases hc : h.bucket = client
  · rw [if_pos hc] at hlevel hcharge hholds
    rw [hholds] at hroom
    rw [ReservationHandle.level_reconcile, hnow] at hlevel
    rcases lt_trichotomy u h.reserved with hlt | heq | hgt
    · -- the refund of what was not used; there is room for it
      rw [if_pos hlt, min_eq_left (by linarith)] at hlevel
      rw [if_pos hlt.le] at hcharge
      refine ⟨?_, hnonneg.trans (le_of_eq hcharge.symm)⟩
      rw [hafter, hcharge, hlevel, hholds]
      ring
    · rw [if_neg heq.not_lt, if_neg heq.not_gt] at hlevel
      rw [if_pos heq.le] at hcharge
      refine ⟨?_, hnonneg.trans (le_of_eq hcharge.symm)⟩
      rw [hafter, hcharge, hlevel, hholds, heq, add_zero]
    · -- the overage is taken if the bucket has it, and not at all if not
      rw [if_neg hgt.not_gt, if_pos hgt] at hlevel
      rw [if_neg hgt.not_ge] at hcharge
      refine ⟨?_, ?_⟩
      · rw [hafter, hcharge, hholds]
        ring
      · rw [hcharge, hlevel]
        split
        · linarith
        · linarith
  · rw [if_neg hc] at hlevel hcharge hholds
    refine ⟨?_, le_of_eq hcharge.symm⟩
    rw [hafter, hcharge, hholds, hlevel, hnow, add_zero]

theorem balanced_dropHandle {h : ReservationHandle} {v : Unit}
    (hm : Permitted x g (.dropHandle h)) (hlive : h.reconciled = false)
    (hans : (gateway x st).Answers w l (.act (.dropHandle h) v) w') (client : String)
    (hroom : w.tpmLevel st client + g.holds client ≤ (w.tpm st client).capacity) :
    Balanced st client w w' g (.act (.dropHandle h) v) := by
  have hlevel := level_of_answers hans client
  have hnow : (w.tpm st client).level w.now = w.tpmLevel st client := rfl
  have hafter : (g.next (.act (.dropHandle h) v)).holds client = 0 := rfl
  have hholds : g.holds client = if h.bucket = client then h.reserved else 0 := by
    unfold Ghost.holds
    rw [show g.held = some h from hm, reservedFor_some]
  refine ⟨?_, le_refl 0⟩
  show _ + (0 : ℚ) = _
  rw [onTpm_dropHandle] at hlevel
  rw [hafter, hlevel]
  by_cases hc : h.bucket = client
  · rw [if_pos hc] at hholds ⊢
    rw [hholds] at hroom ⊢
    rw [ReservationHandle.drop_eq hlive, TokenBucket.level_refund, hnow, min_eq_left hroom]
    ring
  · rw [if_neg hc] at hholds ⊢
    rw [hholds, hnow, add_zero]

/-- **No move changes what bucket, reservations and charges come to.** -/
theorem step_balance {gs : List Ghost} (hs : Solvent st w gs) (hg : g ∈ gs)
    (hm : Kernel.Allowed (discipline x) g m) (hans : (gateway x st).Answers w l m w')
    (client : String) (hroom : w.tpmLevel st client + g.holds client ≤ tpmLimit st) :
    Balanced st client w w' g m := by
  rw [← hs.capacity client] at hroom
  have hlevel := level_of_answers hans client
  cases m with
  | act e y =>
      cases e with
      | tryReserveTpm c cost => exact balanced_tryReserveTpm hm hans client
      | reconcile h u =>
          exact balanced_reconcile hm (hs.held g hg h hm.1).nonneg hans client hroom
      | dropHandle h =>
          exact balanced_dropHandle hm (hs.held g hg h hm).reconciled hans client hroom
      | allowRequest p => cases y <;> exact balanced_of_same hlevel rfl rfl
      | await a owned => exact balanced_of_same hlevel (held_next_await g a owned y) rfl
      | _ => exact balanced_of_same hlevel rfl rfl
  | poll item => cases item <;> exact balanced_of_same hlevel rfl rfl
  | drop => exact balanced_of_same hlevel rfl rfl

end Balance

/-! ### Runs at one instant -/

/-- Anything may happen, but no time passes. -/
def atOnce (_ : Gateway.State) : GatewayLabel → Bool
  | .env _ => false
  | _ => true

/-- All the requests of a state together hold of a client's budget. -/
def outstanding (client : String) (gs : List Ghost) : ℚ := (gs.map (Ghost.holds client)).sum

theorem outstanding_set {gs : List Ghost} {i : Nat} (hi : gs[i]? = some g) (g' : Ghost)
    (client : String) :
    outstanding client (gs.set i g')
      = outstanding client gs - g.holds client + g'.holds client := by
  obtain ⟨hlt, rfl⟩ := List.getElem?_eq_some_iff.mp hi
  unfold outstanding
  rw [List.map_set, List.sum_set', dif_pos (by simpa using hlt), List.getElem_map]
  ring

theorem Solvent.holds_nonneg {gs : List Ghost} (hs : Solvent st w gs) (hg : g ∈ gs)
    (client : String) : 0 ≤ g.holds client := by
  unfold Ghost.holds
  cases hheld : g.held with
  | none => exact le_refl 0
  | some h =>
      rw [reservedFor_some]
      split
      · exact (hs.held g hg h hheld).nonneg
      · exact le_refl 0

theorem Solvent.holds_le {gs : List Ghost} (hs : Solvent st w gs) (hg : g ∈ gs)
    (client : String) : g.holds client ≤ outstanding client gs := by
  refine List.single_le_sum ?_ _ (List.mem_map_of_mem hg)
  intro q hq
  obtain ⟨g', hg', rfl⟩ := List.mem_map.mp hq
  exact hs.holds_nonneg hg' client

/-- The books of a client: where the tokens it had at the start are. -/
structure Books (st : AppState) (client : String) (start : ℚ) (w : World) (gs : List Ghost)
    (charges : List ℚ) : Prop where
  solvent : Solvent st w gs
  total : w.tpmLevel st client + outstanding client gs + charges.sum = start
  charged : 0 ≤ charges.sum

theorem Books.move {gs : List Ghost} {start : ℚ} {charges : List ℚ} {i : Nat}
    {l : GatewayLabel} (hb : Books st client start w gs charges)
    (hlimit : start ≤ tpmLimit st) (hi : gs[i]? = some g)
    (hm : Kernel.Allowed (discipline x) g m) (hans : (gateway x st).Answers w l m w') :
    Books st client start w' (gs.set i (g.next m)) (charges ++ [charge st client w g m w']) := by
  obtain ⟨hs, htotal, hcharged⟩ := hb
  have hg := List.mem_of_getElem? hi
  have hle := hs.holds_le hg client
  have hstep := step_balance hs hg hm hans client (by linarith)
  have htotal' := hstep.total
  refine ⟨hs.move hi hm hans, ?_, ?_⟩
  · rw [outstanding_set hi, List.sum_append, List.sum_singleton]
    linarith
  · rw [List.sum_append, List.sum_singleton]
    exact add_nonneg hcharged hstep.charge_nonneg

theorem observed_books {start : Instant} {p₀ p : Gateway.State} {charges : List ℚ}
    (h₀ : Gateway.Reachable x st start p₀)
    (h : Gateway.Run x st atOnce (charge st client) p₀ p charges)
    (hquiet : outstanding client (p₀.shadow x) = 0) :
    Books st client (p₀.world.tpmLevel st client) p.world (p.shadow x) charges := by
  have hs := h₀.solvent
  have hlimit : p₀.world.tpmLevel st client ≤ tpmLimit st := by
    rw [← hs.capacity client]
    exact TokenBucket.level_le (hs.within client) _
  refine h.shadow (J := fun w gs charges => Books st client _ w gs charges) gateway_disciplined
    h₀.conforms ?_ ?_ ?_ ?_
  · refine ⟨hs, ?_, le_refl 0⟩
    rw [hquiet, List.sum_nil]
    ring
  · intro p v w os hok
    cases hok
  · intro p r os hb
    refine ⟨hb.solvent.spawn r, ?_, hb.charged⟩
    have hnew : outstanding client (Gateway.State.shadow x p ++ [Ghost.start r])
        = outstanding client (Gateway.State.shadow x p) := by
      unfold outstanding
      rw [List.map_append, List.sum_append, List.map_singleton, List.sum_singleton]
      exact add_zero (List.map (Ghost.holds client) _).sum
    rw [hnew]
    exact hb.total
  · intro p l i g m w os _ _ _ hi hm hans hb
    exact hb.move hlimit hi hm hans

/-- Every reservation of a client's budget that a request obtained is settled. -/
def NoneOutstanding (client : String) (p : Gateway.State) : Prop :=
  ∀ i < p.tasks.length, ∀ h ∈ reservations (p.movesOf i), h.bucket = client →
    h ∈ settlements (p.movesOf i)

instance (client : String) (p : Gateway.State) : Decidable (NoneOutstanding client p) :=
  inferInstanceAs (Decidable (∀ i < p.tasks.length, ∀ h ∈ reservations (p.movesOf i),
    h.bucket = client → h ∈ settlements (p.movesOf i)))

theorem NoneOutstanding.outstanding {start : Instant} {p : Gateway.State}
    (h : NoneOutstanding client p) (hp : Gateway.Reachable x st start p) :
    outstanding client (p.shadow x) = 0 := by
  refine List.sum_eq_zero fun q hq => ?_
  obtain ⟨g, hg, rfl⟩ := List.mem_map.mp hq
  obtain ⟨i, hi⟩ := List.getElem?_of_mem hg
  obtain ⟨r, t, ht, rfl⟩ := Pool.exists_task_of_ghost hi
  have hlt : i < p.tasks.length := (List.getElem?_eq_some_iff.mp ht).1
  obtain ⟨hbal, honce, -⟩ := booked _ (hp.obeys ht).1
  unfold Ghost.holds
  cases hheld : ((discipline x).run (Ghost.start r) (p.movesOf i)).held with
  | none => rfl
  | some hd =>
      rw [reservedFor_some]
      split
      · rename_i hc
        -- it would be settled and held at once
        rw [hheld, Option.toList_some] at hbal
        have hmem := h i hlt hd (by rw [hbal]; simp) hc
        have hpos := List.length_pos_of_mem hmem
        rw [hbal, List.length_append, List.length_singleton] at honce
        omega
      · rfl

/--
**Every reservation is settled once, and what is gone is what was charged.**  A request
obtains at most one reservation and settles it at most once; when it is answered in full or
done with, it has settled it.  What it reconciles with is what was reported to it by then,
so a request that was told nothing reconciles with nothing.  And between two states in which
none of a client's reservations is outstanding, if no time passes, the level of the client's
bucket drops by what was charged.
-/
theorem reservations_settled (x : Crates) (st : AppState) (start : Instant) :
    (∀ p, Gateway.Reachable x st start p → ∀ i r t, p.tasks[i]? = some (r, t) →
      (reservations (p.movesOf i)).length ≤ 1 ∧
      settlements (p.movesOf i) <+: reservations (p.movesOf i) ∧
      (∀ s, t.prog = .ret s → s.AtRest →
        settlements (p.movesOf i) = reservations (p.movesOf i)) ∧
      ∀ before h u after, p.movesOf i = before ++ .act (.reconcile h u) () :: after →
        ((discipline x).run (Ghost.start r) before).Owes x u) ∧
    ∀ client p₀ p charges, Gateway.Reachable x st start p₀ → NoneOutstanding client p₀ →
      Gateway.Run x st atOnce (charge st client) p₀ p charges → NoneOutstanding client p →
      p.world.tpmLevel st client = p₀.world.tpmLevel st client - charges.sum := by
  refine ⟨?_, ?_⟩
  · intro p hp i r t ht
    obtain ⟨hobeys, hfollows⟩ := hp.obeys ht
    obtain ⟨hbal, honce, -⟩ := booked _ hobeys
    refine ⟨honce, ⟨_, hbal.symm⟩, ?_, ?_⟩
    · intro s hs hrest
      have hsettled := hfollows.1
      rw [hs, Prog.wp_ret] at hsettled
      rw [hbal, hsettled.held_none hrest, Option.toList_none, List.append_nil]
    · intro before h u after hsplit
      rw [hsplit, Protocol.obeys_append] at hobeys
      exact hobeys.2.1.2
  · intro client p₀ p charges h₀ hnone h hquiet
    have hbooks := observed_books h₀ h (hnone.outstanding h₀)
    have htotal := hbooks.total
    rw [hquiet.outstanding (h₀.trans h.reaches)] at htotal
    linarith

/-- A document that reports seven tokens, and the digest of the one key. -/
def settledCrates : Crates := .table [smallKey] [(usageText 3 4, usageValue 3 4)]

/-- A gateway with a hundred tokens a minute. -/
def settledGateway : AppState := smallGateway settledCrates ⟨1, 10, 1⟩ 100

/-- Two streaming requests at once: one is dropped while it waits for the provider, the other
is told that it used seven of the ten tokens it reserved. -/
def settledRun : Gateway.State × List ℚ :=
  Gateway.replay settledCrates settledGateway atOnce (charge settledGateway "c")
    [.spawn (smallChat true 10), .spawn (smallChat true 20), goes 0, goes 0, goes 1, goes 1,
      goes 1, goes 1, .drop 1 false, goes 1, goes 0, goes 0, answers 0, goes 0,
      goes 0, goes 0, goes 0, .poll 0 (.chunk (dataEvent (usageText 3 4))), goes 0, goes 0,
      goes 0, goes 0, .poll 0 .ended]

/-- Of a hundred tokens ninety-three are left. -/
theorem reservations_settled_run :
    settlements (settledRun.1.movesOf 0) <+: reservations (settledRun.1.movesOf 0) ∧
      settledRun.1.world.tpmLevel settledGateway "c" = 100 - 7 := by
  have hrun : Gateway.Run settledCrates settledGateway atOnce (charge settledGateway "c")
      (Gateway.State.initial 0) settledRun.1 settledRun.2 := Gateway.replay_run atOnce _ _
  have hreach : Gateway.Reachable settledCrates settledGateway 0 settledRun.1 :=
    Gateway.replay_reachable atOnce _ _
  have htask : 0 < settledRun.1.tasks.length := by decide +kernel
  have hcharges : settledRun.2.sum = 7 := by decide +kernel
  have hstart : (Gateway.State.initial 0).world.tpmLevel settledGateway "c" = 100 := by
    decide +kernel
  have hsettled := reservations_settled settledCrates settledGateway 0
  refine ⟨(hsettled.1 _ hreach 0 _ _ (List.getElem?_eq_getElem htask)).2.1, ?_⟩
  rw [← hstart, ← hcharges]
  exact hsettled.2 "c" _ _ _ .refl (by decide) hrun (by decide +kernel)

end LlmGateway
