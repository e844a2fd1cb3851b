/-
What closes a HALF-OPEN breaker.

The log of a run says all about a breaker: it is the fresh breaker after the calls of the
log (`breakerFor_eq`).  An episode is a stretch of the log in which it stays HALF-OPEN, and
a request admitted in it is a probe.

Every record call ends the episode, so up to its end no probe has recorded anything
(`unrecorded_of_probe`); but a body is only read after a success has been recorded.  So at
the end no probe has completed, whoever it is that closes the breaker.
-/
import LlmGateway.Proofs.Wedge

namespace LlmGateway

open Effects

/-- A line of a gateway's log. -/
abbrev GatewayEntry := Entry gatewaySig StreamItem Instant

variable {x : Crates} {st : AppState} {P : String}

/-! ### Episodes -/

/-- The calls on the breaker of a provider. -/
def callsOn (P : String) (log : List GatewayEntry) : List (Instant × BreakerCall) :=
  log.filterMap fun n => (onBreaker P n.move).map (n.time, ·)

/-- The breaker of a provider after a log. -/
def breakerAfter (st : AppState) (P : String) (log : List GatewayEntry) : CircuitBreaker :=
  (CircuitBreaker.new st.config.circuitBreaker.failureThreshold
    (.fromSecs st.config.circuitBreaker.cooldownSeconds.toNat)
    st.config.circuitBreaker.halfOpenMaxCalls).calls (callsOn P log)

/-- The moves of one request in a part of a log. -/
def movesIn (log : List GatewayEntry) (i : Nat) : List GatewayMove :=
  log.filterMap fun n => if n.task = i then some n.move else none

/-- The line `n` admits a request, and from then on the breaker is HALF-OPEN. -/
structure Probe (st : AppState) (P : String) (before : List GatewayEntry) (n : GatewayEntry)
    (since : List GatewayEntry) : Prop where
  admitted : n.move = .act (.allowRequest P) true
  halfOpen : ∀ part, part <+: since →
    (breakerAfter st P (before ++ n :: part)).state = .HalfOpen

/-- A move that ends the reading of a body, one way or the other, before its end. -/
def BreaksOff : GatewayMove → Prop
  | .act (.await (.bytes _) _) (.error _) => True
  | .poll (.error _) => True
  | .poll .idleTimeout => True
  | .drop => True
  | _ => False

/-- A move with which the body of a response has been read to its end. -/
def EndsBody (P : String) : GatewayMove → Prop
  | .act (.await (.bytes p) _) (.ok _) => p = P
  | .poll .ended => True
  | _ => False

/-- Among these moves are a send to the provider, answered with a success status, and the end
of the body, with nothing that broke off before. -/
def Completed (P : String) (ms : List GatewayMove) : Prop :=
  ∃ early req owned status reading last late,
    ms = early ++ .act (.await (.send P req) owned) (.ok status) :: reading ++ last :: late ∧
      status.isSuccess = true ∧ EndsBody P last ∧ ∀ m ∈ early ++ reading, ¬ BreaksOff m

/-- Whenever the breaker goes from HALF-OPEN to CLOSED, a probe of the same episode has
completed by then. -/
def ClosesGenuinely (st : AppState) (P : String) (log : List GatewayEntry) : Prop :=
  ∀ episode n rest, log = episode ++ n :: rest →
    (breakerAfter st P episode).state = .HalfOpen →
    (breakerAfter st P (episode ++ [n])).state = .Closed →
    ∃ before probe since, episode = before ++ probe :: since ∧ Probe st P before probe since ∧
      Completed P (movesIn (since ++ [n]) probe.task)

/-- No success is recorded while the breaker is HALF-OPEN. -/
def NoSuccessHalfOpen (st : AppState) (P : String) (log : List GatewayEntry) : Prop :=
  ∀ k, k < log.length → (breakerAfter st P (log.take k)).state = .HalfOpen →
    (log[k]?.bind fun n => onBreaker P n.move) ≠ some .recordSuccess

instance (log : List GatewayEntry) : Decidable (NoSuccessHalfOpen st P log) := by
  unfold NoSuccessHalfOpen
  infer_instance

/-! ### The breaker of a log -/

theorem breakerAfter_append (log more : List GatewayEntry) :
    breakerAfter st P (log ++ more) = (breakerAfter st P log).calls (callsOn P more) := by
  unfold breakerAfter callsOn
  rw [List.filterMap_append, CircuitBreaker.calls_append]

theorem breakerAfter_snoc (log : List GatewayEntry) (n : GatewayEntry) :
    breakerAfter st P (log ++ [n])
      = (breakerAfter st P log).after n.time (onBreaker P n.move) := by
  rw [breakerAfter_append]
  unfold callsOn CircuitBreaker.after
  cases h : onBreaker P n.move with
  | none => simp [h, CircuitBreaker.calls]
  | some c => simp [h, CircuitBreaker.calls]

/-- The breakers of a reachable state are those of its log. -/
theorem breakerFor_eq {start : Instant} {p : Gateway.State}
    (h : Gateway.Reachable x st start p) (P : String) :
    p.world.breakerFor st P = breakerAfter st P p.log := by
  refine h.shadow (J := fun w _ log => w.breakerFor st P = breakerAfter st P log)
    gateway_disciplined (initial_conforms start) rfl ?_ ?_ ?_
  · intro p v w _ hw ha
    obtain rfl := Option.some.inj hw
    exact ha
  · intro p r ha
    exact ha
  · intro p l i g m w _ _ _ _ hans ha
    rw [breakerAfter_snoc, ← ha]
    exact answers_breaker hans P

/-- A HALF-OPEN breaker stays so only over calls that record nothing. -/
theorem CircuitBreaker.call_halfOpen {b : CircuitBreaker} {t : Instant} {c : BreakerCall}
    (h : b.state = .HalfOpen) (h' : (b.call t c).2.state = .HalfOpen) :
    c = .isEligible ∨ c = .allowRequest := by
  have htr := call_transition b t c
  generalize (b.call t c).1 = a, (b.call t c).2 = b' at htr h'
  cases htr with
  | look => exact Or.inl rfl
  | pass hs => exact Or.inr rfl
  | refuse hr => exact Or.inr rfl
  | probe hs hc => exact Or.inr rfl
  | slot hs hlt => exact Or.inr rfl
  | close hs => cases h'
  | reset hs => exact absurd h hs
  | reopen hs => cases h'
  | trip hs hle => cases h'
  | count hs hlt => exact absurd h hs

/-- A HALF-OPEN breaker is closed by a recorded success, and by nothing else. -/
theorem CircuitBreaker.after_closed_iff {b : CircuitBreaker} (h : b.state = .HalfOpen)
    (t : Instant) (c : Option BreakerCall) :
    (b.after t c).state = .Closed ↔ c = some .recordSuccess := by
  constructor
  · intro hclosed
    cases c with
    | none =>
        have hsame : b.state = .Closed := hclosed
        rw [h] at hsame
        cases hsame
    | some c =>
        have htr := call_transition b t c
        have hcall : (b.call t c).2.state = .Closed := hclosed
        generalize (b.call t c).1 = a, (b.call t c).2 = b' at htr hcall
        cases htr with
        | close hs => rfl
        | reset hs => exact absurd h hs
        | reopen hs => cases hcall
        | trip hs hle => cases hcall
        | count hs hlt => exact absurd h hs
        | probe hs hc => cases hcall
        | slot hs hlt =>
            have hsame : b.state = .Closed := hcall
            rw [h] at hsame
            cases hsame
        | _ =>
            rw [h] at hcall
            cases hcall
  · rintro rfl
    show b.recordSuccess.state = .Closed
    unfold recordSuccess
    rw [if_pos (show b.inner.state = .HalfOpen from h)]
    rfl

/-! ### Probes -/

/-- Nothing is recorded at the provider after a probe, as long as the episode lasts. -/
theorem Probe.quiet {before since : List GatewayEntry} {n m : GatewayEntry}
    (h : Probe st P before n since) (hm : m ∈ since) {c : BreakerCall}
    (hc : onBreaker P m.move = some c) : c = .isEligible ∨ c = .allowRequest := by
  obtain ⟨earlier, later, rfl⟩ := List.append_of_mem hm
  have hbefore := h.halfOpen earlier ⟨m :: later, rfl⟩
  have hafter := h.halfOpen (earlier ++ [m]) ⟨later, by simp⟩
  have hsnoc : before ++ n :: (earlier ++ [m]) = (before ++ n :: earlier) ++ [m] := by simp
  rw [hsnoc, breakerAfter_snoc, hc] at hafter
  exact CircuitBreaker.call_halfOpen hbefore hafter

theorem movesIn_append (log more : List GatewayEntry) (i : Nat) :
    movesIn (log ++ more) i = movesIn log i ++ movesIn more i := List.filterMap_append

theorem mem_movesIn {log : List GatewayEntry} {i : Nat} {m : GatewayMove}
    (h : m ∈ movesIn log i) : ∃ n ∈ log, n.move = m := by
  obtain ⟨n, hn, hm⟩ := List.mem_filterMap.mp h
  refine ⟨n, hn, ?_⟩
  split at hm
  · exact Option.some.inj hm
  · cases hm

/-- A request that has recorded nothing stays so over moves that neither drop it nor record;
the induction is on the moves. -/
theorem unrecorded_run {ms : List GatewayMove} {g : Ghost} (hobeys : (discipline x).Obeys g ms)
    (hg : g.phase.Unrecorded P)
    (hquiet : ∀ m ∈ ms, m ≠ .drop ∧
      ∀ c, onBreaker P m = some c → c = .isEligible ∨ c = .allowRequest) :
    ((discipline x).run g ms).phase.Unrecorded P := by
  induction ms generalizing g with
  | nil => exact hg
  | cons m ms ih =>
      obtain ⟨hdrop, hrecord⟩ := hquiet m List.mem_cons_self
      have hallowed : Kernel.Allowed (discipline x) g m ∧
          (discipline x).Obeys (g.next m) ms := by
        cases m with
        | act e a => exact hobeys
        | poll item => exact ⟨trivial, hobeys⟩
        | drop => exact ⟨trivial, hobeys⟩
      exact ih hallowed.2 (unrecorded_next hallowed.1 hg hdrop hrecord)
        fun m' hm' => hquiet m' (List.mem_cons_of_mem m hm')

/-- A request is polled only while it reads a stream. -/
theorem reading_of_polled {i : Idle} {item : StreamItem} {q : Gateway Idle} {g : Ghost}
    (hpoll : pollBody x i item = some q) (hg : Settled x i g) : ∃ p, g.phase = .reading p := by
  cases i with
  | closed => cases hpoll
  | responded r =>
      obtain ⟨-, hbody⟩ := hg
      cases hr : r.body with
      | full bytes =>
          simp only [pollBody, hr] at hpoll
          cases hpoll
      | stream s =>
          simp only [hr] at hbody
          exact ⟨_, hbody.phase⟩

/-- While a request has recorded nothing at the provider, no body comes to its end. -/
theorem not_endsBody {r : HttpRequest} {u : Task gatewaySig Idle} {before after : List GatewayMove}
    {last : GatewayMove}
    (hlocal : (gateway x st).toKernel.Local (Task.ofProg ((gateway x st).start r))
      (before ++ last :: after) u)
    (hphase : ((discipline x).run (Ghost.start r) before).phase.Unrecorded P) :
    ¬ EndsBody P last := by
  intro hends
  have hstart : Kernel.Follows (discipline x) (Settled x)
      (Task.ofProg ((gateway x st).start r)) (Ghost.start r) :=
    Kernel.follows_ofProg (gateway_disciplined.start r)
  have hobeys := (hlocal.follows gateway_closed hstart).1
  rw [Protocol.obeys_append] at hobeys
  cases last with
  | act e answer =>
      cases e with
      | await a owned =>
          cases a with
          | bytes p =>
              -- a body is read after a success was recorded
              have hpermitted := hobeys.2.1
              rw [hpermitted.2] at hphase
              exact hphase
          | _ => exact hends
      | _ => exact hends
  | poll item =>
      obtain ⟨i, q, hpoll, hsettled⟩ := hlocal.polled gateway_closed hstart rfl
      obtain ⟨p, hreading⟩ := reading_of_polled hpoll hsettled
      rw [hreading] at hphase
      exact hphase
  | drop => exact hends

/-- A call that records comes after the end of a body, not with it. -/
theorem completed_before {since : List GatewayEntry} {n : GatewayEntry} {i : Nat}
    {most late : List GatewayMove} {last : GatewayMove}
    (hms : movesIn (since ++ [n]) i = most ++ last :: late) (hends : EndsBody P last)
    (hn : onBreaker P n.move = some .recordSuccess) :
    ∃ late', movesIn since i = most ++ last :: late' := by
  rw [movesIn_append] at hms
  by_cases htask : n.task = i
  · have hone : movesIn [n] i = [n.move] := by
      simp [movesIn, htask]
    rw [hone] at hms
    rcases List.eq_nil_or_concat late with rfl | ⟨late', m, rfl⟩
    · obtain rfl := List.singleton_inj.mp (List.append_inj' hms rfl).2
      generalize n.move = m at hn hends
      cases m with
      | act e answer =>
          cases e with
          | await a owned => cases hn
          | _ => exact hends.elim
      | poll item => cases hn
      | drop => cases hn
    · have hsplit : movesIn since i ++ [n.move] = (most ++ last :: late') ++ [m] := by
        rw [hms]
        simp
      exact ⟨late', (List.append_inj' hsplit rfl).1⟩
  · have hnone : movesIn [n] i = [] := by
      simp [movesIn, htask]
    rw [hnone, List.append_nil] at hms
    exact ⟨late, hms⟩

/-- What the request of a probe did: before its admission, up to a line of the log, and from
there on. -/
theorem movesOf_probe {p : Gateway.State} {before since rest : List GatewayEntry}
    {probe n : GatewayEntry} (hlog : p.log = (before ++ probe :: since) ++ n :: rest)
    (hadmitted : probe.move = .act (.allowRequest P) true) :
    p.movesOf probe.task = (movesIn before probe.task ++
      .act (.allowRequest P) true :: movesIn since probe.task) ++
        movesIn (n :: rest) probe.task := by
  have hadmission : movesIn (probe :: since) probe.task
      = .act (.allowRequest P) true :: movesIn since probe.task := by
    unfold movesIn
    rw [List.filterMap_cons, if_pos rfl, hadmitted]
  show movesIn p.log probe.task = _
  rw [hlog, movesIn_append, movesIn_append, hadmission]

/-- **At the end of its episode no probe has completed.** -/
theorem not_completed {start : Instant} {p : Gateway.State} (h : Gateway.Reachable x st start p)
    {before since rest : List GatewayEntry} {probe n : GatewayEntry}
    (hlog : p.log = (before ++ probe :: since) ++ n :: rest)
    (hprobe : Probe st P before probe since) (hn : onBreaker P n.move = some .recordSuccess) :
    ¬ Completed P (movesIn (since ++ [n]) probe.task) := by
  rintro ⟨early, req, owned, status, reading, last, late, hms, -, hends, hunbroken⟩
  obtain ⟨late', hsince⟩ := completed_before hms hends hn
  obtain ⟨hscoped, hlocals⟩ := Machine.Reaches.local rfl rfl h
  have hlt : probe.task < p.tasks.length := hscoped probe (by rw [hlog]; simp)
  have hlocal := hlocals probe.task _ _ (List.getElem?_eq_getElem hlt)
  have hmoves : p.movesOf probe.task
      = (movesIn before probe.task ++ .act (.allowRequest P) true ::
          (early ++ .act (.await (.send P req) owned) (.ok status) :: reading)) ++
          last :: (late' ++ movesIn (n :: rest) probe.task) := by
    rw [movesOf_probe hlog hprobe.admitted, hsince]
    simp
  rw [hmoves] at hlocal
  have hstart : Kernel.Follows (discipline x) (Settled x)
      (Task.ofProg ((gateway x st).start p.tasks[probe.task].1))
      (Ghost.start p.tasks[probe.task].1) :=
    Kernel.follows_ofProg (gateway_disciplined.start _)
  have hobeys := (hlocal.follows gateway_closed hstart).1
  rw [Protocol.obeys_append, Protocol.obeys_append] at hobeys
  refine not_endsBody hlocal ?_ hends
  rw [Protocol.run_append, Protocol.run_cons]
  refine unrecorded_run hobeys.1.2.2 rfl fun m hm => ⟨?_, fun c hc => ?_⟩
  · rintro rfl
    rcases List.mem_append.mp hm with hm | hm
    · exact hunbroken _ (List.mem_append_left reading hm) trivial
    · rcases List.mem_cons.mp hm with hm | hm
      · cases hm
      · exact hunbroken _ (List.mem_append_right early hm) trivial
  · have hin : m ∈ movesIn since probe.task := by
      rw [hsince]
      exact List.mem_append_left _ hm
    obtain ⟨entry, hentry, rfl⟩ := mem_movesIn hin
    exact hprobe.quiet hentry hc

/-- So a run in which all closes are genuine has none. -/
theorem ClosesGenuinely.noSuccess {start : Instant} {p : Gateway.State}
    (hgenuine : ClosesGenuinely st P p.log) (h : Gateway.Reachable x st start p) :
    NoSuccessHalfOpen st P p.log := by
  intro k hk hstate hsuccess
  obtain ⟨n, hget, hn⟩ := Option.bind_eq_some_iff.mp hsuccess
  have hlog : p.log = p.log.take k ++ n :: p.log.drop (k + 1) := by
    have hn' := (List.getElem?_eq_some_iff.mp hget).2
    rw [← hn', List.getElem_cons_drop, List.take_append_drop]
  have hclosed : (breakerAfter st P (p.log.take k ++ [n])).state = .Closed := by
    rw [breakerAfter_snoc, CircuitBreaker.after_closed_iff hstate]
    exact hn
  obtain ⟨before, probe, since, hepisode, hprobe, hcompleted⟩ :=
    hgenuine _ n _ hlog hstate hclosed
  rw [hepisode] at hlog
  exact not_completed h hlog hprobe hn hcompleted

/--
**A HALF-OPEN breaker never closes genuinely.**  The breakers of a reachable state are those
of its log; and each time the breaker of a provider went from HALF-OPEN to CLOSED a probe
of the same episode had completed, if and only if it never did, because no success was
recorded while it was HALF-OPEN.
-/
theorem closes_genuinely_iff {start : Instant} {p : Gateway.State}
    (h : Gateway.Reachable x st start p) (P : String) :
    p.world.breakerFor st P = breakerAfter st P p.log ∧
      (ClosesGenuinely st P p.log ↔ NoSuccessHalfOpen st P p.log) := by
  refine ⟨breakerFor_eq h P, fun hgenuine => hgenuine.noSuccess h, ?_⟩
  intro hnone episode n rest hlog hstate hclosed
  rw [breakerAfter_snoc, CircuitBreaker.after_closed_iff hstate] at hclosed
  have hk : episode.length < p.log.length := by
    rw [hlog]
    simp
  have htake : p.log.take episode.length = episode := by
    rw [hlog, List.take_left]
  refine absurd ?_ (hnone episode.length hk (by rw [htake]; exact hstate))
  rw [hlog, List.getElem?_append_right (Nat.le_refl _), Nat.sub_self]
  exact hclosed

/-- Probes that are cancelled close nothing. -/
theorem closes_genuinely_iff_wedged : ClosesGenuinely probeGateway "p" wedgedRun.log :=
  (closes_genuinely_iff (x := probeCrates) (P := "p") (Gateway.replay_reachable _ _ _)).2.mpr
    (by decide +kernel)

/-- A request admitted before the trip is answered after the cooldown, while the probe is still
waiting for its answer. -/
def staleRun : Gateway.State :=
  (Gateway.replay probeCrates probeGateway (fun _ _ => true) (fun _ _ _ _ => ())
    [.spawn (smallChat true 10), goes 0, goes 0, goes 0, goes 0,
      .spawn (smallChat true 10), goes 1, goes 1, goes 1, goes 1, .act 1 (.sent (.error "refused")),
      goes 1, .env (Duration.fromSecs 10),
      .spawn (smallChat true 10), goes 2, goes 2, goes 2, goes 2, answers 0, goes 0]).1

/-- The breaker is CLOSED, with the only probe unanswered. -/
theorem closed_by_stale_success :
    Gateway.Reachable probeCrates probeGateway 0 staleRun ∧
      (staleRun.world.breakerFor probeGateway "p").state = .Closed ∧
      ¬ ClosesGenuinely probeGateway "p" staleRun.log := by
  have hreachable : Gateway.Reachable probeCrates probeGateway 0 staleRun :=
    Gateway.replay_reachable _ _ _
  refine ⟨hreachable, by decide +kernel, fun hgenuine => ?_⟩
  exact absurd (hgenuine.noSuccess hreachable) (by decide +kernel)

end LlmGateway
