/-
Two timers on one stream.

The outbound request carries a total timeout, and reqwest lets the body fail as well once
it has elapsed; the generator waits for each item no longer than the idle timeout.  A
`TimedResponse` is a provider's response with the times its parts come at, and `polled` is
what the generator gets of it under both timers.

The generator passes on what it is polled with (`passed_through`), so a stream is whole
if it is polled with all of the response, and that is if neither timer ever runs out
(`polled_inTime`, `polled_late`).
-/
import LlmGateway.Lib.Runs
import LlmGateway.Proofs.Failover
import LlmGateway.Proofs.Passthrough
import LlmGateway.Proofs.World
import Mathlib.Data.List.Chain

namespace LlmGateway

open Effects

/-! ### Timed responses -/

/-- A provider's response; all times are since the request was started, and one comes after the
other. -/
structure TimedResponse where
  status : StatusCode
  headers : Duration
  chunks : List (Duration × List UInt8)
  ended : Duration
  ordered : (headers :: (chunks.map (·.1) ++ [ended])).IsChain (· ≤ ·)

/-- Chunks and the end of a body, and when they come. -/
def timeline (chunks : List (Duration × List UInt8)) (ended : Duration) :
    List (Duration × StreamItem) :=
  chunks.map (fun c => (c.1, .chunk c.2)) ++ [(ended, .ended)]

namespace TimedResponse

/-- What comes after the headers, and when. -/
def arrivals (r : TimedResponse) : List (Duration × StreamItem) := timeline r.chunks r.ended

/-- Successive chunks are less than `idle` apart. -/
def Active (r : TimedResponse) (idle : Duration) : Prop :=
  (r.chunks.map (·.1)).IsChain fun s t => t < s + idle

/-- When the first of the body comes: a chunk, or the end. -/
def first (r : TimedResponse) : Duration := (r.chunks.map (·.1)).head?.getD r.ended

/-- When the last comes before the end: a chunk, or the headers. -/
def last (r : TimedResponse) : Duration := (r.chunks.map (·.1)).getLast?.getD r.headers

/-- `send()` under a total timeout. -/
def send (r : TimedResponse) (deadline : Duration) : Except String StatusCode :=
  if r.headers < deadline then .ok r.status else .error "operation timed out"

end TimedResponse

/-! ### What the generator is polled with -/

/-- One `timeout(idle, upstream.next())` begun at `since`: what it gives, and when.  The body
is ready at an arrival or, with an error, once the total timeout has elapsed. -/
def nextItem (deadline idle since : Duration) (arrival : Duration × StreamItem) :
    StreamItem × Duration :=
  let arrived := max since arrival.1
  let ready := min arrived (max since deadline)
  if ready ≤ since + idle then
    (if arrived < deadline then arrival.2 else .error "operation timed out", ready)
  else (.idleTimeout, since + idle)

/-- The items for a client that reads on at once; the generator ends with the first item that
is no chunk. -/
def polled (deadline idle : Duration) : Duration → List (Duration × StreamItem) → List StreamItem
  | _, [] => []
  | since, arrival :: rest =>
      match nextItem deadline idle since arrival with
      | (.chunk bs, now) => .chunk bs :: polled deadline idle now rest
      | (item, _) => [item]

/-! ### A streaming request with such a response -/

/-- The answers to a request that is let through and gets this response. -/
def TimedResponse.answer (r : TimedResponse) : Prog.Environment gatewaySig Unit := fun _ e =>
  match e with
  | .isEligible _ => (true, ())
  | .allowRequest _ => (true, ())
  | .recordSuccess _ => ((), ())
  | .recordFailure _ => ((), ())
  | .rpmTryConsume _ _ => (.ok (), ())
  | .tryReserveTpm client cost => (.ok ⟨client, cost, false⟩, ())
  | .reconcile _ _ => ((), ())
  | .dropHandle _ => ((), ())
  | .metric _ => ((), ())
  | .yield _ => ((), ())
  | .await (.cacheGet _) _ => (none, ())
  | .await (.cacheInsert _ _) _ => ((), ())
  | .await (.send _ req) _ => (r.send (.fromSecs req.timeoutSeconds.toNat), ())
  | .await (.bytes _) _ => (.error "the body is streamed", ())

/-- The attempt at a provider, and the body it returns polled to its end. -/
def streamed (x : Crates) (p : ProviderConfig) (body : List UInt8) (lastError : Option String)
    (reservation : Option ReservationHandle) (r : TimedResponse) : Gateway (Option BodyStream) := do
  match ← chatAttempt x true none body p lastError reservation with
  | .done (.ok response) _ =>
      match response.body with
      | .stream s =>
          BodyStream.feed x.fromStr (some s)
            (polled (.fromSecs (buildChatRequest p body).timeoutSeconds.toNat) s.idleTimeout
              r.headers r.arrivals)
      | .full _ => pure none
  | _ => pure none

/-- What a client and a breaker get to know. -/
inductive Shown
  | item (i : Except String (List UInt8))
  | failure (provider : String)
  deriving DecidableEq

/-- What a move shows. -/
def shown : GatewayMove → Option Shown
  | .act (.yield i) _ => some (.item i)
  | .act (.recordFailure P) _ => some (.failure P)
  | _ => none

/-- The client receives every chunk and nothing else, and no failure is recorded. -/
def Whole {α : Type} (r : TimedResponse) (p : Gateway α) : Prop :=
  (p.alone (M := StreamItem) r.answer ()).1.filterMap shown
    = r.chunks.map fun c => .item (.ok c.2)

/-! ### The timers -/

section Timers

variable {deadline idle since : Duration}

/-- An arrival within both timeouts is what the generator gets. -/
theorem nextItem_inTime {t : Duration} {item : StreamItem} (hle : since ≤ t)
    (hidle : t ≤ since + idle) (ht : t < deadline) :
    nextItem deadline idle since (t, item) = (item, t) := by
  have harrived : max since t = t := Nat.max_eq_right hle
  have hready : min t (max since deadline) = t :=
    Nat.min_eq_left (Nat.le_trans (Nat.le_of_lt ht) (Nat.le_max_right _ _))
  unfold nextItem
  simp only [harrived, hready]
  rw [if_pos hidle, if_pos ht]

/-- Of any other it gets what one of the timers makes of it. -/
theorem nextItem_late {t : Duration} {item : StreamItem} (hle : since ≤ t)
    (hlate : ¬ (t < deadline ∧ t ≤ since + idle)) :
    (nextItem deadline idle since (t, item)).1 = .error "operation timed out" ∨
      (nextItem deadline idle since (t, item)).1 = .idleTimeout := by
  have harrived : max since t = t := Nat.max_eq_right hle
  unfold nextItem
  simp only [harrived]
  by_cases hready : min t (max since deadline) ≤ since + idle
  · left
    rw [if_pos hready]
    refine if_neg fun ht => hlate ⟨ht, ?_⟩
    rwa [Nat.min_eq_left (Nat.le_trans (Nat.le_of_lt ht) (Nat.le_max_right _ _))] at hready
  · right
    rw [if_neg hready]

theorem timeline_cons (chunk : Duration × List UInt8) (chunks : List (Duration × List UInt8))
    (ended : Duration) :
    timeline (chunk :: chunks) ended = (chunk.1, .chunk chunk.2) :: timeline chunks ended := rfl

theorem polled_chunk {arrival : Duration × StreamItem} {rest : List (Duration × StreamItem)}
    {bs : List UInt8} {now : Duration}
    (h : nextItem deadline idle since arrival = (.chunk bs, now)) :
    polled deadline idle since (arrival :: rest) = .chunk bs :: polled deadline idle now rest := by
  rw [polled, h]

/-- The generator ends with anything else. -/
theorem polled_last {arrival : Duration × StreamItem} {rest : List (Duration × StreamItem)}
    {item : StreamItem} (h : (nextItem deadline idle since arrival).1 = item)
    (hitem : ∀ bs, item ≠ .chunk bs) : polled deadline idle since (arrival :: rest) = [item] := by
  rw [polled]
  cases hnext : nextItem deadline idle since arrival with
  | mk i now =>
      obtain rfl : i = item := by rw [← h, hnext]
      cases i with
      | chunk bs => exact absurd rfl (hitem bs)
      | _ => rfl

/-- The times of a body from `since` on. -/
def timesFrom (since : Duration) (chunks : List (Duration × List UInt8)) (ended : Duration) :
    List Duration := since :: (chunks.map (·.1) ++ [ended])

theorem timesFrom_cons (chunk : Duration × List UInt8) (chunks : List (Duration × List UInt8))
    (ended : Duration) :
    timesFrom since (chunk :: chunks) ended = since :: timesFrom chunk.1 chunks ended := rfl

variable {chunks : List (Duration × List UInt8)} {ended : Duration}

/-- Nothing ends before it begins. -/
theorem le_ended (h : (timesFrom since chunks ended).IsChain (· ≤ ·)) : since ≤ ended := by
  induction chunks generalizing since with
  | nil => exact (List.isChain_cons_cons.mp h).1
  | cons chunk chunks ih =>
      rw [timesFrom_cons] at h
      obtain ⟨hle, hrest⟩ := List.isChain_cons_cons.mp h
      exact Nat.le_trans hle (ih hrest)

/-- Where no timer runs out, the generator gets all there is. -/
theorem polled_inTime (h : (timesFrom since chunks ended).IsChain (· ≤ ·))
    (hidle : (timesFrom since chunks ended).IsChain fun s t => t ≤ s + idle)
    (hended : ended < deadline) :
    polled deadline idle since (timeline chunks ended)
      = chunks.map (fun c => .chunk c.2) ++ [.ended] := by
  induction chunks generalizing since with
  | nil =>
      have hnext : nextItem deadline idle since (ended, .ended) = (.ended, ended) :=
        nextItem_inTime (List.isChain_cons_cons.mp h).1 (List.isChain_cons_cons.mp hidle).1 hended
      exact polled_last (congrArg Prod.fst hnext) nofun
  | cons chunk chunks ih =>
      rw [timesFrom_cons] at h hidle
      obtain ⟨hle, hrest⟩ := List.isChain_cons_cons.mp h
      obtain ⟨hgap, hgaps⟩ := List.isChain_cons_cons.mp hidle
      have ht : chunk.1 < deadline := Nat.lt_of_le_of_lt (le_ended hrest) hended
      rw [timeline_cons, polled_chunk (nextItem_inTime hle hgap ht)]
      exact congrArg (StreamItem.chunk chunk.2 :: ·) (ih hrest hgaps)

/-- Where one does, the body breaks off. -/
theorem polled_late (h : (timesFrom since chunks ended).IsChain (· ≤ ·))
    (hlate : ¬ (ended < deadline ∧
      (timesFrom since chunks ended).IsChain fun s t => t ≤ s + idle)) :
    (breakage (polled deadline idle since (timeline chunks ended))).isSome = true := by
  have hbroken : ∀ {t : Duration} {item : StreamItem} {rest : List (Duration × StreamItem)}
      {since : Duration}, since ≤ t → ¬ (t < deadline ∧ t ≤ since + idle) →
      (breakage (polled deadline idle since ((t, item) :: rest))).isSome = true := by
    intro t item rest since hle hlate
    rcases nextItem_late hle hlate with hitem | hitem
    · rw [polled_last hitem nofun]
      rfl
    · rw [polled_last hitem nofun]
      rfl
  induction chunks generalizing since with
  | nil =>
      refine hbroken (List.isChain_cons_cons.mp h).1 fun ⟨ht, hgap⟩ => hlate ⟨ht, ?_⟩
      exact List.isChain_cons_cons.mpr ⟨hgap, List.isChain_singleton ended⟩
  | cons chunk chunks ih =>
      rw [timesFrom_cons] at h hlate
      obtain ⟨hle, hrest⟩ := List.isChain_cons_cons.mp h
      rw [timeline_cons]
      by_cases ht : chunk.1 < deadline ∧ chunk.1 ≤ since + idle
      · rw [polled_chunk (nextItem_inTime hle ht.2 ht.1)]
        exact ih hrest fun ⟨hended, hgaps⟩ =>
          hlate ⟨hended, List.isChain_cons_cons.mpr ⟨ht.2, hgaps⟩⟩
      · exact hbroken hle ht

/-- Where the inner gaps are short, only the first and the last can be too long. -/
theorem isChain_outer {R : Duration → Duration → Prop} {ts : List Duration} (h : ts.IsChain R) :
    (since :: (ts ++ [ended])).IsChain R ↔
      R since (ts.head?.getD ended) ∧ R (ts.getLast?.getD since) ended := by
  rw [List.isChain_cons, List.isChain_append]
  cases ts with
  | nil => simp
  | cons t ts =>
      obtain ⟨last, hlast⟩ : ∃ last, (t :: ts).getLast? = some last :=
        ⟨_, List.getLast?_eq_some_getLast (List.cons_ne_nil t ts)⟩
      rw [hlast]
      simp [h]

end Timers

/-- A body that came to its end has been delivered, and has not broken off. -/
theorem chunks_then_end (chunks : List (Duration × List UInt8)) :
    delivered (chunks.map (fun c => .chunk c.2) ++ [.ended]) = chunks.map (·.2) ∧
      breakage (chunks.map (fun c => .chunk c.2) ++ [.ended]) = none := by
  induction chunks with
  | nil => exact ⟨rfl, rfl⟩
  | cons chunk chunks ih => exact ⟨congrArg (chunk.2 :: ·) ih.1, ih.2⟩

/-! ### What is shown -/

section Watched

variable (r : TimedResponse) {α β : Type}

/-- What a program shows, and what it returns. -/
def watched (p : Gateway α) : List Shown × α :=
  let (ms, a, _) := p.alone (M := StreamItem) r.answer ()
  (ms.filterMap shown, a)

theorem whole_iff (p : Gateway α) :
    Whole r p ↔ (watched r p).1 = r.chunks.map fun c => .item (.ok c.2) := Iff.rfl

@[simp] theorem watched_ret (a : α) : watched r (.ret a : Gateway α) = ([], a) := rfl

@[simp] theorem watched_bind (p : Gateway α) (f : α → Gateway β) :
    watched r (p.bind f)
      = ((watched r p).1 ++ (watched r (f (watched r p).2)).1,
          (watched r (f (watched r p).2)).2) := by
  unfold watched
  rw [Prog.alone_bind]
  simp only [List.filterMap_append]

@[simp] theorem watched_allowRequest (P : String) : watched r (allowRequest P) = ([], true) := rfl

@[simp] theorem watched_recordSuccess (P : String) : watched r (recordSuccess P) = ([], ()) := rfl

@[simp] theorem watched_recordFailure (P : String) :
    watched r (recordFailure P) = ([.failure P], ()) := rfl

@[simp] theorem watched_metric (m : Metric) : watched r (metric m) = ([], ()) := rfl

@[simp] theorem watched_send (P : String) (req : OutboundRequest)
    (owned : Option ReservationHandle) :
    watched r (send P req owned) = ([], r.send (.fromSecs req.timeoutSeconds.toNat)) := rfl

theorem watched_aside {p : Gateway α} (hp : p.Only Aside) : (watched r p).1 = [] := by
  unfold watched
  rw [List.filterMap_eq_nil_iff]
  intro m hm
  obtain ⟨e, a, rfl, he⟩ := hp.alone r.answer () m hm
  cases e with
  | recordFailure P => exact absurd he id
  | yield i => exact absurd he id
  | _ => rfl

/-- The callbacks a chat request gives the generator. -/
def chatCallbacks (p : ProviderConfig) (reservation : Option ReservationHandle) : Callbacks where
  provider := p.name
  onUsage :=
    { call := settleUsage p.name reservation
      drop := dropReservation reservation }
  onError :=
    { call := fun _ => recordFailure p.name
      drop := pure () }

/-- What is shown of an emission. -/
def emitted (P : String) : Emission → Option Shown
  | .item i => some (.item i)
  | .failed => some (.failure P)
  | _ => none

theorem watched_emit (p : ProviderConfig) (reservation : Option ReservationHandle)
    (es : List Emission) :
    (watched r (emit (chatCallbacks p reservation) es)).1 = es.filterMap (emitted p.name) := by
  have hrun : ∀ e : Emission,
      (watched r (e.run (chatCallbacks p reservation))).1 = (emitted p.name e).toList := by
    intro e
    cases e with
    | usage tokens =>
        have hsettle := billing_settleUsage p.name reservation tokens
        exact watched_aside r (hsettle.mono Billing.aside)
    | dropUsage => cases reservation <;> rfl
    | _ => rfl
  induction es with
  | nil => rfl
  | cons e es ih =>
      show (watched r ((e.run (chatCallbacks p reservation)).bind fun _ => emit _ es)).1 = _
      rw [watched_bind, hrun, ih]
      cases he : emitted p.name e <;> simp [he]

/-! ### The attempt -/

theorem of_isSuccess {s : StatusCode} (h : s.isSuccess = true) :
    isRetryableUpstreamStatus s = false ∧ isNonRetryableClientError s = false := by
  unfold StatusCode.isSuccess at h
  rw [Bool.and_eq_true, decide_eq_true_eq, decide_eq_true_eq] at h
  have hclient : s.isClientError = false := by
    unfold StatusCode.isClientError
    rw [Bool.and_eq_false_iff, decide_eq_false_iff_not]
    exact Or.inl (by omega)
  have hserver : s.isServerError = false := by
    unfold StatusCode.isServerError
    rw [Bool.and_eq_false_iff, decide_eq_false_iff_not]
    exact Or.inl (by omega)
  constructor
  · unfold isRetryableUpstreamStatus
    have hmany : (s == .tooManyRequests) = false := by
      rw [beq_eq_false_iff_ne]
      rintro rfl
      exact absurd h.2 (by decide)
    have htimeout : (s == .requestTimeout) = false := by
      rw [beq_eq_false_iff_ne]
      rintro rfl
      exact absurd h.2 (by decide)
    rw [hserver, hmany, htimeout]
    rfl
  · unfold isNonRetryableClientError
    rw [hclient]
    rfl

/-- A response with a success status that is there in time is passed on as a stream. -/
theorem watched_chatAttempt (x : Crates) (p : ProviderConfig) (body : List UInt8)
    (lastError : Option String) (reservation : Option ReservationHandle)
    (hstatus : r.status.isSuccess = true)
    (htime : r.headers < Duration.fromSecs p.requestTimeoutSeconds.toNat) :
    watched r (chatAttempt x true none body p lastError reservation)
      = ([], .done (.ok (chatStream p reservation)) none) := by
  obtain ⟨hretry, hclient⟩ := of_isSuccess hstatus
  have hsend : r.send (.fromSecs (buildChatRequest p body).timeoutSeconds.toNat) = .ok r.status :=
    if_pos htime
  simp [chatAttempt, chatAnswered, hsend, hretry, hclient]

/-- One that is not is a failure. -/
theorem watched_chatAttempt_late (x : Crates) (p : ProviderConfig) (body : List UInt8)
    (lastError : Option String) (reservation : Option ReservationHandle)
    (htime : ¬ r.headers < Duration.fromSecs p.requestTimeoutSeconds.toNat) :
    ∃ e, watched r (chatAttempt x true none body p lastError reservation)
      = ([.failure p.name], .next e reservation) := by
  have hsend : r.send (.fromSecs (buildChatRequest p body).timeoutSeconds.toNat)
      = .error "operation timed out" := if_neg htime
  exact ⟨some (p.name ++ ": connection error"), by simp [chatAttempt, hsend]⟩

/-- What is shown of items that pass: the chunks delivered, and a failure if they break off. -/
theorem shown_of_passed {fromStr : String → Option Value} {items : List StreamItem}
    {es : List Emission} (h : PassedThrough fromStr items es) (P : String) :
    (breakage items = none →
      es.filterMap (emitted P) = (delivered items).map fun bs => .item (.ok bs)) ∧
    (breakage items ≠ none → .failure P ∈ es.filterMap (emitted P)) := by
  constructor
  · intro hnone
    have hfailed : .failed ∉ es := by
      rw [← List.count_eq_zero, h.failed, hnone]
      rfl
    have hitems : es.filterMap (emitted P) = (es.filterMap Emission.item?).map .item := by
      rw [List.map_filterMap]
      refine List.filterMap_congr fun e he => ?_
      cases e with
      | failed => exact absurd he hfailed
      | _ => rfl
    rw [hitems, h.yielded, hnone]
    simp
  · intro hsome
    have hfailed : .failed ∈ es := by
      rw [← List.count_pos_iff, h.failed, if_pos (Option.isSome_iff_ne_none.mpr hsome)]
      exact Nat.one_pos
    exact List.mem_filterMap.mpr ⟨.failed, hfailed, rfl⟩

end Watched

/-- A stream with a failure is not whole. -/
theorem not_whole {α : Type} {r : TimedResponse} {p : Gateway α} {P : String}
    (h : .failure P ∈ (watched r p).1) : ¬ Whole r p := by
  rw [whole_iff]
  intro hwhole
  rw [hwhole, List.mem_map] at h
  obtain ⟨chunk, -, hchunk⟩ := h
  cases hchunk

/-- What is shown of a stream with a response that is there in time. -/
theorem watched_streamed (x : Crates) (p : ProviderConfig) (body : List UInt8)
    (lastError : Option String) (reservation : Option ReservationHandle) {r : TimedResponse}
    (hstatus : r.status.isSuccess = true)
    (htime : r.headers < Duration.fromSecs p.requestTimeoutSeconds.toNat) {items : List StreamItem}
    (hitems : polled (.fromSecs p.requestTimeoutSeconds.toNat)
      (.fromSecs (max p.streamIdleTimeoutSeconds.toNat 1)) r.headers r.arrivals = items) :
    ∃ es, PassedThrough x.fromStr items es ∧
      (watched r (streamed x p body lastError reservation r)).1
        = es.filterMap (emitted p.name) := by
  refine ⟨_, emissions_pass x.fromStr items, ?_⟩
  obtain ⟨s, final, hs, hfeed⟩ := feed_stream x.fromStr items (chatCallbacks p reservation)
    p.streamIdleTimeoutSeconds.toNat
  cases hs
  rw [← watched_emit r p reservation]
  unfold streamed
  rw [Prog.bind_eq, watched_bind,
    watched_chatAttempt r x p body lastError reservation hstatus htime]
  show (watched r (BodyStream.feed x.fromStr _ (polled (.fromSecs p.requestTimeoutSeconds.toNat)
    (.fromSecs (max p.streamIdleTimeoutSeconds.toNat 1)) r.headers r.arrivals))).1 = _
  rw [hitems]
  refine (congrArg (fun q => (watched r q).1) hfeed).trans ?_
  simp only [watched_bind, watched_ret, List.append_nil]

/--
**A stream is cut exactly when a timer runs out.**  For every provider and every successful
response whose chunks come less than the provider's idle timeout apart, a client that keeps
reading gets all of it and no failure is recorded, if and only if the response ends before the
request timeout has elapsed since the request was started, its body begins within the idle
timeout of the headers, and it ends within the idle timeout of its last chunk.
-/
theorem stream_whole_iff (x : Crates) (p : ProviderConfig) (body : List UInt8)
    (lastError : Option String) (reservation : Option ReservationHandle) (r : TimedResponse)
    (hstatus : r.status.isSuccess = true)
    (hactive : r.Active (.fromSecs (max p.streamIdleTimeoutSeconds.toNat 1))) :
    Whole r (streamed x p body lastError reservation r) ↔
      r.ended < Duration.fromSecs p.requestTimeoutSeconds.toNat ∧
        r.first ≤ r.headers + Duration.fromSecs (max p.streamIdleTimeoutSeconds.toNat 1) ∧
        r.ended ≤ r.last + Duration.fromSecs (max p.streamIdleTimeoutSeconds.toNat 1) := by
  have houter : (timesFrom r.headers r.chunks r.ended).IsChain
      (fun s t => t ≤ s + Duration.fromSecs (max p.streamIdleTimeoutSeconds.toNat 1)) ↔
        r.first ≤ r.headers + Duration.fromSecs (max p.streamIdleTimeoutSeconds.toNat 1) ∧
          r.ended ≤ r.last + Duration.fromSecs (max p.streamIdleTimeoutSeconds.toNat 1) :=
    isChain_outer (hactive.imp fun _ _ hlt => Nat.le_of_lt hlt)
  rw [← houter]
  by_cases htime : r.headers < Duration.fromSecs p.requestTimeoutSeconds.toNat
  · obtain ⟨es, hpassed, hshown⟩ :=
      watched_streamed x p body lastError reservation hstatus htime rfl
    obtain ⟨hwhole, hbroken⟩ := shown_of_passed hpassed p.name
    constructor
    · intro h
      by_contra hlate
      refine not_whole (P := p.name) ?_ h
      rw [hshown]
      exact hbroken (Option.isSome_iff_ne_none.mp (polled_late r.ordered hlate))
    · rintro ⟨hended, hidle⟩
      have hitems := polled_inTime r.ordered hidle hended
      obtain ⟨hdelivered, hbreakage⟩ := chunks_then_end r.chunks
      rw [whole_iff, hshown, hwhole (by rw [TimedResponse.arrivals, hitems, hbreakage]),
        TimedResponse.arrivals, hitems, hdelivered, List.map_map]
      rfl
  · -- the headers are late, and so is the end
    obtain ⟨e, hattempt⟩ := watched_chatAttempt_late r x p body lastError reservation htime
    have hlate : ¬ r.ended < Duration.fromSecs p.requestTimeoutSeconds.toNat :=
      fun h => htime (Nat.lt_of_le_of_lt (le_ended r.ordered) h)
    refine iff_of_false (not_whole (P := p.name) ?_) fun h => hlate h.1
    unfold streamed
    rw [Prog.bind_eq, watched_bind, hattempt]
    exact List.mem_cons_self

/-! ### The timeouts of the default configuration -/

/-- A provider with the default timeouts. -/
def steadyProvider : ProviderConfig where
  name := "p"
  endpoint := "http://p"
  apiKey := none
  priority := 1
  requestTimeoutSeconds := 30
  streamIdleTimeoutSeconds := 120

/-- A configuration with this provider. -/
def steadyConfig : AppConfig where
  credentials := [{ key := "k", clientId := "c", tier := "free" }]
  rateLimit := { defaultRpm := 60, defaultTpm := 90000 }
  circuitBreaker := { failureThreshold := 3, cooldownSeconds := 10, halfOpenMaxCalls := 1 }
  providers := [steadyProvider]

/-- Chunks at these seconds, headers after one, and the end. -/
def steadyResponse (seconds : List Nat) (ended : Nat)
    (h : (1 :: (seconds ++ [ended])).IsChain (· ≤ ·)) : TimedResponse where
  status := statusOk
  headers := .fromSecs 1
  chunks := seconds.map fun s => (.fromSecs s, asBytes "data: x\n\n")
  ended := .fromSecs ended
  ordered := by
    have hsecs := List.isChain_map_of_isChain Duration.fromSecs
      (fun _ _ hle => Nat.mul_le_mul_right _ hle) h
    simpa [Function.comp_def] using hsecs

/-- A chunk every ten seconds, the end a second after the last one. -/
def shortResponse : TimedResponse := steadyResponse [10, 20] 21 (by decide)

/-- A chunk every ten seconds, and the end after the request timeout. -/
def longResponse : TimedResponse := steadyResponse [10, 20, 30, 40] 41 (by decide)

/-- Two chunks are over before the request timeout. -/
theorem stream_whole_iff_short : Whole shortResponse
    (streamed (.table [] []) steadyProvider [] none none shortResponse) :=
  (stream_whole_iff (.table [] []) steadyProvider [] none none shortResponse (by decide)
    (by unfold TimedResponse.Active; decide)).mpr (by decide)

/-- Four chunks are not, though they keep arriving. -/
theorem steady_stream_cut :
    steadyConfig.validate = .ok () ∧ steadyProvider ∈ steadyConfig.providers ∧
      longResponse.headers < Duration.fromSecs steadyProvider.requestTimeoutSeconds.toNat ∧
      longResponse.Active (.fromSecs (max steadyProvider.streamIdleTimeoutSeconds.toNat 1)) ∧
      ¬ Whole longResponse
        (streamed (.table [] []) steadyProvider [] none none longResponse) := by
  refine ⟨by decide +kernel, by decide, by decide, ?_, ?_⟩
  · unfold TimedResponse.Active
    decide
  · unfold Whole
    decide +kernel

end LlmGateway
