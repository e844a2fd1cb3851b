/-
When a failing provider trips its breaker.

A run is watched in which the attempts at one provider come one after the other, from a
state in which its breaker is CLOSED.  Until it opens, the breaker's failure count is the
tally of the outcomes so far, or zero while a response is being read (`Counting`); it opens
with the attempt that takes the tally to the threshold.  What is left is arithmetic: as many
failures as the threshold reach it only if they are prompt enough.
-/
import LlmGateway.Proofs.Attempts
import LlmGateway.Proofs.CircuitBreaker

namespace LlmGateway

open Effects

variable {x : Crates} {st : AppState} {P : String} {w w' : World} {g : Ghost} {m : GatewayMove}
  {gs : List Ghost} {l : GatewayLabel}

/-! ### Every reachable state -/

/-- Every breaker is sound and has the configured threshold, and what breaks off is late. -/
structure Regular (st : AppState) (w : World) (gs : List Ghost) : Prop where
  inv : ∀ P, CircuitBreaker.Inv (w.breakerFor st P)
  threshold : ∀ P,
    (w.breakerFor st P).failureThreshold = st.config.circuitBreaker.failureThreshold
  late : ∀ g ∈ gs, ∀ p o, g.phase = .broken p o → o.late = true

theorem succeeded_broken {φ : Phase} {p : String} {o : Outcome}
    (h : φ.succeeded = .broken p o) : φ = .broken p o := by
  cases φ with
  | answered q a =>
      cases a with
      | error e => cases h
      | ok s =>
          change (if isNonRetryableClientError s then Phase.idle else .reading q) = .broken p o at h
          by_cases hclient : isNonRetryableClientError s = true
          · rw [if_pos hclient] at h
            cases h
          · rw [if_neg hclient] at h
            cases h
  | _ => exact h

theorem finished_broken {φ : Phase} {p : String} {o : Outcome} (h : φ.finished = .broken p o) :
    φ = .broken p o := by
  cases φ with
  | reading q => cases h
  | _ => exact h

theorem breakOff_broken {φ : Phase} {p : String} {o o' : Outcome}
    (h : φ.breakOff o' = .broken p o) : φ = .broken p o ∨ o = o' := by
  cases φ with
  | reading q =>
      cases h
      exact Or.inr rfl
  | _ => exact Or.inl h

/-- An attempt that breaks off does so late. -/
theorem broken_next {p : String} {o : Outcome} (h : (g.next m).phase = .broken p o) :
    g.phase = .broken p o ∨ o.late = true := by
  cases m with
  | act e answer =>
      cases e with
      | allowRequest q =>
          cases answer with
          | false => exact Or.inl h
          | true => cases h
      | recordSuccess q => exact Or.inl (succeeded_broken h)
      | recordFailure q => cases h
      | await a owned =>
          cases a with
          | bytes q =>
              cases answer with
              | ok body => cases h
              | error e =>
                  cases h
                  exact Or.inr rfl
          | send q req => cases h
          | _ => exact Or.inl h
      | _ => exact Or.inl h
  | poll item =>
      cases item with
      | chunk bs => exact Or.inl h
      | ended => exact Or.inl (finished_broken h)
      | _ =>
          rcases breakOff_broken h with hold | rfl
          · exact Or.inl hold
          · exact Or.inr rfl
  | drop => cases h

theorem Regular.initial (start : Instant) : Regular st (.initial start) [] where
  inv _ := CircuitBreaker.new_inv _ _ _
  threshold _ := rfl
  late _ hg := absurd hg List.not_mem_nil

theorem Regular.spawn (h : Regular st w gs) (r : HttpRequest) :
    Regular st w (gs ++ [Ghost.start r]) where
  inv := h.inv
  threshold := h.threshold
  late g hg p o hphase := by
    rcases List.mem_append.mp hg with hold | hnew
    · exact h.late g hold p o hphase
    · obtain rfl := List.mem_singleton.mp hnew
      cases hphase

theorem CircuitBreaker.after_inv {b : CircuitBreaker} (h : Inv b) (now : Instant)
    (c : Option BreakerCall) : Inv (b.after now c) := by
  cases c with
  | none => exact h
  | some c => exact call_inv h now c

theorem CircuitBreaker.after_failureThreshold (b : CircuitBreaker) (now : Instant)
    (c : Option BreakerCall) : (b.after now c).failureThreshold = b.failureThreshold := by
  cases c with
  | none => rfl
  | some c => exact call_failureThreshold b now c

theorem Regular.move {i : Nat} (h : Regular st w gs) (hi : gs[i]? = some g)
    (hans : (gateway x st).Answers w l m w') : Regular st w' (gs.set i (g.next m)) where
  inv P := by
    rw [answers_breaker hans]
    exact CircuitBreaker.after_inv (h.inv P) _ _
  threshold P := by
    rw [answers_breaker hans, CircuitBreaker.after_failureThreshold]
    exact h.threshold P
  late g' hg' p o hphase := by
    have hold := h.late g (List.mem_of_getElem? hi)
    rcases List.mem_or_eq_of_mem_set hg' with hmem | rfl
    · exact h.late g' hmem p o hphase
    · rcases broken_next hphase with hsame | hlate
      · exact hold p o hsame
      · exact hlate

theorem Gateway.Reachable.regular {start : Instant} {p : Gateway.State}
    (h : Gateway.Reachable x st start p) : Regular st p.world (p.shadow x) := by
  refine Machine.Reaches.shadow (J := fun w gs _ => Regular st w gs) gateway_disciplined
    (initial_conforms start) (Regular.initial start) ?_ ?_ ?_ h
  · intro p v w _ hw hr
    obtain rfl := Option.some.inj hw
    exact ⟨hr.inv, hr.threshold, hr.late⟩
  · intro p r hr
    exact hr.spawn r
  · intro p l i g m w _ _ hi _ hans hr
    exact hr.move hi hans

/-! ### Attempts under way -/

/-- The attempts at `P` that are under way. -/
def pending (P : String) (gs : List Ghost) : List Stage := gs.filterMap fun g => g.phase.stage P

theorem pending_set {i : Nat} (hi : gs[i]? = some g) (g' : Ghost) :
    ∃ before after, pending P gs = before ++ (g.phase.stage P).toList ++ after ∧
      pending P (gs.set i g') = before ++ (g'.phase.stage P).toList ++ after := by
  obtain ⟨hlt, rfl⟩ := List.getElem?_eq_some_iff.mp hi
  refine ⟨pending P (gs.take i), pending P (gs.drop (i + 1)), ?_, ?_⟩
  · conv_lhs => rw [← List.take_append_drop i gs, List.drop_eq_getElem_cons hlt]
    unfold pending
    rw [List.filterMap_append, List.filterMap_cons, List.append_assoc]
    cases (gs[i]).phase.stage P <;> rfl
  · rw [List.set_eq_take_append_cons_drop, if_pos hlt]
    unfold pending
    rw [List.filterMap_append, List.filterMap_cons, List.append_assoc]
    cases g'.phase.stage P <;> rfl

/-- A move that leaves the stage leaves the attempts under way. -/
theorem pending_set_same {i : Nat} (hi : gs[i]? = some g) {g' : Ghost}
    (h : g'.phase.stage P = g.phase.stage P) : pending P (gs.set i g') = pending P gs := by
  obtain ⟨before, after, hgs, hset⟩ := pending_set (P := P) hi g'
  rw [hset, hgs, h]

/-- The one attempt under way becomes what its request becomes. -/
theorem pending_set_only {i : Nat} (hi : gs[i]? = some g) (hone : (pending P gs).length ≤ 1)
    {s : Stage} (hs : g.phase.stage P = some s) (g' : Ghost) :
    pending P gs = [s] ∧ pending P (gs.set i g') = (g'.phase.stage P).toList := by
  obtain ⟨before, after, hgs, hset⟩ := pending_set (P := P) hi g'
  rw [hs, Option.toList_some] at hgs
  rw [hgs, List.length_append, List.length_append, List.length_singleton] at hone
  have hbefore : before = [] := List.eq_nil_of_length_eq_zero (by omega)
  have hafter : after = [] := List.eq_nil_of_length_eq_zero (by omega)
  subst hbefore hafter
  exact ⟨hgs, by simpa using hset⟩

/-- Where none is under way, one can begin. -/
theorem pending_set_first {i : Nat} (hi : gs[i]? = some g) (hnone : pending P gs = [])
    (g' : Ghost) : pending P (gs.set i g') = (g'.phase.stage P).toList := by
  obtain ⟨before, after, hgs, hset⟩ := pending_set (P := P) hi g'
  rw [hnone] at hgs
  obtain ⟨hleft, hafter⟩ := List.append_eq_nil_iff.mp hgs.symm
  rw [hset, (List.append_eq_nil_iff.mp hleft).1, hafter]
  simp

/-- An attempt under way is a request's. -/
theorem pending_eq_nil (h : ∀ g ∈ gs, g.phase.stage P = none) : pending P gs = [] :=
  List.filterMap_eq_nil_iff.mpr h

/-! ### Serial runs -/

/-- The next operation of a task is its admission at `P`. -/
def admitting (P : String) : HttpRequest × Task gatewaySig Idle → Bool
  | (_, ⟨.op (.allowRequest p) _, _⟩) => p == P
  | _ => false

/-- No request is admitted at `P` while another is being tried there. -/
def serialAt (x : Crates) (P : String) (p : Gateway.State) : GatewayLabel → Bool
  | .act i _ =>
      !(p.tasks[i]?.any (admitting P)) || (p.shadow x).all fun g => g.phase.stage P == none
  | _ => true

/-- The breaker after a move, and the outcome of the attempt the move ends. -/
def attempts (st : AppState) (P : String) (_ : World) (g : Ghost) (m : GatewayMove) (w' : World) :
    BreakerState × Option Outcome :=
  ((w'.breakerFor st P).state, concluded P g m)

/-- The outcomes of the attempts of a run, in order. -/
def outcomes (frames : List (BreakerState × Option Outcome)) : List Outcome :=
  frames.filterMap (·.2)

/-- The breaker is OPEN after one of the moves. -/
def Opened (frames : List (BreakerState × Option Outcome)) : Prop :=
  ∃ frame ∈ frames, frame.1 = .Open

instance (frames : List (BreakerState × Option Outcome)) : Decidable (Opened frames) :=
  inferInstanceAs (Decidable (∃ frame ∈ frames, frame.1 = .Open))

section Frames

variable (frames : List (BreakerState × Option Outcome)) (s : BreakerState) (c : Option Outcome)

theorem outcomes_snoc : outcomes (frames ++ [(s, c)]) = outcomes frames ++ c.toList := by
  unfold outcomes
  rw [List.filterMap_append]
  cases c <;> rfl

theorem opened_snoc : Opened (frames ++ [(s, c)]) ↔ Opened frames ∨ s = .Open := by
  simp [Opened, or_and_right, exists_or]

theorem trips_snoc (f n : Nat) (os : List Outcome) (o : Outcome) :
    Trips f n (os ++ [o]) ↔ Trips f n os ∨ n ≤ tally f (os ++ [o]) := by
  constructor
  · rintro ⟨pre, hpre, hn⟩
    rcases List.prefix_concat_iff.mp hpre with rfl | hold
    · exact Or.inr hn
    · exact Or.inl ⟨pre, hold, hn⟩
  · rintro (⟨pre, hpre, hn⟩ | hn)
    · exact ⟨pre, hpre.trans (List.prefix_append os [o]), hn⟩
    · exact ⟨_, List.prefix_refl _, hn⟩

theorem Trips.append {f n : Nat} {os : List Outcome} (h : Trips f n os) (os' : List Outcome) :
    Trips f n (os ++ os') := by
  obtain ⟨pre, hpre, hn⟩ := h
  exact ⟨pre, hpre.trans (List.prefix_append os os'), hn⟩

end Frames

/-- In a serial run an admission finds no attempt under way. -/
theorem serialAt_enter {i : Nat} {p : Gateway.State} {answer : Bool}
    (hok : serialAt x P p l = true) (hl : Machine.taskOf l = some i)
    (hmoves : (gateway x st).Moves p i (.act (.allowRequest P) answer))
    (hans : (gateway x st).Answers p.world l (.act (.allowRequest P) answer) w') :
    pending P (p.shadow x) = [] := by
  obtain ⟨r, k, a, ht⟩ := hmoves.act
  cases l with
  | act j c =>
      obtain rfl := Option.some.inj hl
      have hadmitting : (p.tasks[j]?.any (admitting P)) = true := by
        rw [ht]
        exact beq_self_eq_true P
      change (!(p.tasks[j]?.any (admitting P)) || _) = true at hok
      rw [hadmitting, Bool.not_true, Bool.false_or, List.all_eq_true] at hok
      exact pending_eq_nil fun g hg => beq_iff_eq.mp (hok g hg)
  | _ => exact hans.elim

/-- While a breaker is CLOSED, it counts the attempts that ended; a response that is being
read has reset it. -/
structure Counting (st : AppState) (P : String) (f : Nat) (w : World) (gs : List Ghost)
    (os : List Outcome) : Prop where
  closed : (w.breakerFor st P).state = .Closed
  serial : (pending P gs).length ≤ 1
  count : (w.breakerFor st P).inner.failureCount.toNat
    = if pending P gs = [.reading] then 0 else tally f os
  below : tally f os < st.config.circuitBreaker.failureThreshold.toNat

/-- If all the attempts failed, the breaker was opened by the one that completed the count, or
it is still counting. -/
def Watched (st : AppState) (P : String) (f : Nat) (w : World) (gs : List Ghost)
    (frames : List (BreakerState × Option Outcome)) : Prop :=
  (∀ o ∈ outcomes frames, o.countsAsFailure = true) →
    (Opened frames ∧
      Trips f st.config.circuitBreaker.failureThreshold.toNat (outcomes frames)) ∨
    (¬ Opened frames ∧
      ¬ Trips f st.config.circuitBreaker.failureThreshold.toNat (outcomes frames) ∧
      Counting st P f w gs (outcomes frames))

/-! ### One move of a serial run -/

/-- A failure that a CLOSED breaker records counts one more, or trips it. -/
theorem CircuitBreaker.recordFailure_closed {b : CircuitBreaker} (hinv : Inv b)
    (hs : b.state = .Closed) (hpos : 0 < b.failureThreshold) (t : Instant) :
    ((b.call t .recordFailure).2.state = .Open ∧
        b.failureThreshold.toNat ≤ b.inner.failureCount.toNat + 1) ∨
      ((b.call t .recordFailure).2.state = .Closed ∧
        (b.call t .recordFailure).2.inner.failureCount.toNat = b.inner.failureCount.toNat + 1 ∧
        b.inner.failureCount.toNat + 1 < b.failureThreshold.toNat) := by
  have hlt : b.inner.failureCount < b.failureThreshold := by
    rcases hinv.below hs with hzero | hlt
    · rw [hzero]
      exact hpos
    · exact hlt
  have hcount := toNat_add_one hlt
  have hclosed : b.inner.state = .Closed := hs
  have hnot : b.inner.state ≠ .HalfOpen := by
    rw [hclosed]
    decide
  show ((b.recordFailure t).state = _ ∧ _) ∨ _
  by_cases hle : b.failureThreshold ≤ b.inner.failureCount + 1
  · left
    rw [UInt32.le_iff_toNat_le, hcount] at hle
    refine ⟨?_, hle⟩
    simp [recordFailure, hnot, state, UInt32.le_iff_toNat_le, hcount, hle]
  · right
    have hstep : b.recordFailure t = { b with inner := { b.inner with
        lastFailure := some t, failureCount := b.inner.failureCount + 1 } } := by
      simp only [recordFailure, if_neg hnot, if_neg hle]
    rw [UInt32.le_iff_toNat_le, hcount] at hle
    refine ⟨?_, ?_, by omega⟩
    · show (b.recordFailure t).state = _
      rw [hstep]
      exact hs
    · show (b.recordFailure t).inner.failureCount.toNat = _
      rw [hstep]
      exact hcount

/-- A failing answer that the table counts is decided before anything is recorded. -/
theorem prompt_of_failure {a : Except String StatusCode} (hfail : isFailure a = true)
    (ho : (Outcome.ofAnswer a).countsAsFailure = true) : (Outcome.ofAnswer a).prompt = true := by
  cases a with
  | error e => rfl
  | ok s =>
      show isRetryableUpstreamStatus s = true
      by_contra hnot
      rw [Bool.not_eq_true] at hnot
      have hcode : s.code = 401 ∨ s.code = 403 := by
        simpa [Outcome.ofAnswer, Outcome.countsAsFailure, hnot] using ho
      have hclient : isNonRetryableClientError s = true := by
        obtain ⟨code, lower, upper⟩ := s
        rcases hcode with h | h
        · obtain rfl : code = 401 := h
          rfl
        · obtain rfl : code = 403 := h
          rfl
      simp [isFailure, hnot, hclient] at hfail

section Step

variable {f i : Nat} {os : List Outcome}

theorem Counting.away (h : Counting st P f w gs os)
    (hbreaker : w'.breakerFor st P = w.breakerFor st P) {gs' : List Ghost}
    (hpending : pending P gs' = pending P gs) : Counting st P f w' gs' os where
  closed := by rw [hbreaker]; exact h.closed
  serial := by rw [hpending]; exact h.serial
  count := by rw [hbreaker, hpending]; exact h.count
  below := h.below

/-- The attempt that the breaker waits for begins; a CLOSED breaker does not change. -/
theorem Counting.entered (h : Counting st P f w gs os)
    (hbreaker : w'.breakerFor st P = w.breakerFor st P) (hnone : pending P gs = [])
    {gs' : List Ghost} (hpending : pending P gs' = [.waiting]) :
    Counting st P f w' gs' os where
  closed := by rw [hbreaker]; exact h.closed
  serial := by rw [hpending]; exact Nat.le_refl 1
  count := by
    have hcount := h.count
    rw [hnone, if_neg (by decide)] at hcount
    rw [hbreaker, hpending, if_neg (by decide)]
    exact hcount
  below := h.below

/-- A failure is recorded: either it is the one that trips the breaker, or it is counted. -/
theorem Counting.failed (h : Counting st P f w gs os) (hw : Regular st w gs)
    (hpos : 0 < st.config.circuitBreaker.failureThreshold)
    (hbreaker : w'.breakerFor st P = ((w.breakerFor st P).call w.now .recordFailure).2)
    {gs' : List Ghost} (hpending : pending P gs' = []) {c : Option Outcome} {o : Outcome}
    (hc : c = some o)
    (htally : tally f (os ++ [o]) = (w.breakerFor st P).inner.failureCount.toNat + 1) :
    (∃ o, c = some o ∧ (w'.breakerFor st P).state = .Open ∧
        st.config.circuitBreaker.failureThreshold.toNat ≤ tally f (os ++ [o])) ∨
      Counting st P f w' gs' (os ++ c.toList) := by
  have hthreshold := hw.threshold P
  have hfailed := CircuitBreaker.recordFailure_closed (hw.inv P) h.closed
    (by rw [hthreshold]; exact hpos) w.now
  rw [← hbreaker, hthreshold, ← htally] at hfailed
  rcases hfailed with ⟨hopen, hle⟩ | ⟨hclosed, hcount, hbelow⟩
  · exact Or.inl ⟨o, hc, hopen, hle⟩
  · rw [hc, Option.toList_some]
    refine Or.inr ⟨hclosed, by rw [hpending]; exact Nat.zero_le 1, ?_, hbelow⟩
    rw [hcount, hpending]
    rfl

/-- A success is recorded: the count is zero. -/
theorem recordSuccess_closed {b : CircuitBreaker} (hs : b.state = .Closed) (t : Instant) :
    (b.call t .recordSuccess).2.state = .Closed ∧
      (b.call t .recordSuccess).2.inner.failureCount = 0 := by
  have hnot : ¬ b.inner.state = .HalfOpen := by
    rw [show b.inner.state = .Closed from hs]
    decide
  show (b.recordSuccess).state = _ ∧ (b.recordSuccess).inner.failureCount = 0
  unfold CircuitBreaker.recordSuccess
  rw [if_neg hnot]
  exact ⟨hs, rfl⟩

/-- A success is recorded, for a response that is read or for one that is not passed on. -/
theorem Counting.succeeded (h : Counting st P f w gs os)
    (hbreaker : w'.breakerFor st P = ((w.breakerFor st P).call w.now .recordSuccess).2)
    {gs' : List Ghost} {os' : List Outcome}
    (hpending : pending P gs' = [.reading] ∨ pending P gs' = [] ∧ tally f os' = 0)
    (hbelow : tally f os' < st.config.circuitBreaker.failureThreshold.toNat) :
    Counting st P f w' gs' os' := by
  obtain ⟨hclosed, hzero⟩ := recordSuccess_closed h.closed w.now
  rw [← hbreaker] at hclosed hzero
  have hcount := congrArg UInt32.toNat hzero
  rcases hpending with hreading | ⟨hnone, htally⟩
  · refine ⟨hclosed, by rw [hreading]; exact Nat.le_refl 1, ?_, hbelow⟩
    rw [hreading, if_pos rfl]
    exact hcount
  · refine ⟨hclosed, by rw [hnone]; exact Nat.zero_le 1, ?_, hbelow⟩
    rw [hnone, if_neg (by decide), htally]
    exact hcount

theorem allowRequest_closed {b : CircuitBreaker} (hs : b.state = .Closed) (t : Instant) :
    b.call t .allowRequest = (true, b) := by
  have hclosed : b.inner.state = .Closed := hs
  show b.allowRequest t = (true, b)
  unfold CircuitBreaker.allowRequest
  rw [hclosed]

/-- **One move of a serial run**: the breaker goes on counting, or opens at the threshold. -/
theorem Counting.move (h : Counting st P f w gs os) (hw : Regular st w gs)
    (hpos : 0 < st.config.circuitBreaker.failureThreshold) (hi : gs[i]? = some g)
    (hm : Kernel.Allowed (discipline x) g m) (hans : (gateway x st).Answers w l m w')
    (hserial : m = .act (.allowRequest P) true → pending P gs = [])
    (hcounts : ∀ o, concluded P g m = some o → o.countsAsFailure = true) :
    (∃ o, concluded P g m = some o ∧ (w'.breakerFor st P).state = .Open ∧
        st.config.circuitBreaker.failureThreshold.toNat ≤ tally f (os ++ [o])) ∨
      Counting st P f w' (gs.set i (g.next m)) (os ++ (concluded P g m).toList) := by
  have hafter := answers_breaker hans P
  have hn : 0 < st.config.circuitBreaker.failureThreshold.toNat := UInt32.lt_iff_toNat_lt.mp hpos
  cases attempt P hm with
  | away hb hc hs =>
      right
      rw [hc, Option.toList_none, List.append_nil]
      refine h.away ?_ (pending_set_same hi hs)
      rcases hb with hb | hb
      · rw [hafter, hb]
        rfl
      · rw [hafter, hb]
        rfl
  | refuse hm' hc hs =>
      -- a CLOSED breaker admits everybody
      subst hm'
      have hanswer := answers_allowRequest hans
      rw [allowRequest_closed h.closed] at hanswer
      cases hanswer
  | enter hm' hc hbefore hstage =>
      right
      have hnone := hserial hm'
      have hset := pending_set_first hi hnone (g.next m)
      rw [hstage, Option.toList_some] at hset
      have hbreaker : w'.breakerFor st P = w.breakerFor st P := by
        subst hm'
        rw [hafter, onBreaker, if_pos rfl]
        show ((w.breakerFor st P).call w.now .allowRequest).2 = _
        rw [allowRequest_closed h.closed]
      rw [hc, Option.toList_none, List.append_nil]
      exact h.entered hbreaker hnone hset
  | accept hb hc hbefore hstage =>
      right
      obtain ⟨-, hset⟩ := pending_set_only hi h.serial hbefore (g.next m)
      rw [hstage, Option.toList_some] at hset
      rw [hb] at hafter
      rw [hc, Option.toList_none, List.append_nil]
      exact h.succeeded hafter (Or.inl hset) h.below
  | reject s hb hc hstatus hbefore hstage =>
      right
      obtain ⟨-, hset⟩ := pending_set_only hi h.serial hbefore (g.next m)
      rw [hstage, Option.toList_none] at hset
      have htally : tally f (os ++ [.status s]) = 0 := by
        rw [tally_snoc]
        simp [Outcome.count, Outcome.prompt, Outcome.late, hstatus]
      rw [hb] at hafter
      rw [hc, Option.toList_some]
      exact h.succeeded hafter (Or.inr ⟨hset, htally⟩) (by rw [htally]; exact hn)
  | fail a hb hc hfail hbefore hstage =>
      obtain ⟨hgs, hset⟩ := pending_set_only hi h.serial hbefore (g.next m)
      rw [hstage, Option.toList_none] at hset
      have hprompt := prompt_of_failure hfail (hcounts _ hc)
      have hcount := h.count
      rw [hgs, if_neg (by decide)] at hcount
      rw [hb] at hafter
      refine h.failed hw hpos hafter hset hc ?_
      rw [tally_snoc, Outcome.count, if_pos hprompt, hcount]
  | lose o hb hc hphase hstage =>
      have hlate := hw.late g (List.mem_of_getElem? hi) P o hphase
      have hbefore : g.phase.stage P = some .reading := by
        rw [hphase]
        exact if_pos rfl
      obtain ⟨hgs, hset⟩ := pending_set_only hi h.serial hbefore (g.next m)
      rw [hstage, Option.toList_none] at hset
      have hcount := h.count
      rw [hgs, if_pos rfl] at hcount
      rw [hb] at hafter
      refine h.failed hw hpos hafter hset hc ?_
      rw [tally_snoc, hcount, Outcome.count, if_neg (by rw [prompt_of_late hlate]; decide),
        if_pos hlate]
  | finish o hb hc ho hstage =>
      have hcontra := hcounts o hc
      rw [ho] at hcontra
      cases hcontra

end Step

/-! ### Runs -/

theorem Watched.move {f i : Nat} {p : Gateway.State}
    {frames : List (BreakerState × Option Outcome)}
    (h : Watched st P f p.world (p.shadow x) frames) (hw : Regular st p.world (p.shadow x))
    (hpos : 0 < st.config.circuitBreaker.failureThreshold) (hok : serialAt x P p l = true)
    (hl : Machine.taskOf l = some i) (hmoves : (gateway x st).Moves p i m)
    (hi : (p.shadow x)[i]? = some g) (hm : Kernel.Allowed (discipline x) g m)
    (hans : (gateway x st).Answers p.world l m w') :
    Watched st P f w' ((p.shadow x).set i (g.next m))
      (frames ++ [attempts st P p.world g m w']) := by
  intro hall
  unfold attempts at hall ⊢
  rw [outcomes_snoc] at hall ⊢
  rw [opened_snoc]
  rcases h fun o ho => hall o (List.mem_append_left _ ho) with
    ⟨hopen, htrips⟩ | ⟨hopen, htrips, hcounting⟩
  · exact Or.inl ⟨Or.inl hopen, htrips.append _⟩
  · have hserial : m = .act (.allowRequest P) true → pending P (p.shadow x) = [] := by
      rintro rfl
      exact serialAt_enter hok hl hmoves hans
    have hcounts : ∀ o, concluded P g m = some o → o.countsAsFailure = true := by
      intro o ho
      exact hall o (List.mem_append_right _ (by simp [ho]))
    rcases hcounting.move hw hpos hi hm hans hserial hcounts with ⟨o, ho, hstate, hn⟩ | hnext
    · left
      rw [ho, Option.toList_some, trips_snoc]
      exact ⟨Or.inr hstate, Or.inr hn⟩
    · refine Or.inr ⟨?_, ?_, hnext⟩
      · rintro (hold | hnew)
        · exact hopen hold
        · rw [hnext.closed] at hnew
          cases hnew
      · cases hc : concluded P g m with
        | none =>
            rw [Option.toList_none, List.append_nil]
            exact htrips
        | some o =>
            have hbelow := hnext.below
            rw [hc] at hbelow
            rw [Option.toList_some, trips_snoc]
            rintro (hold | hn)
            · exact htrips hold
            · exact absurd hbelow (Nat.not_lt.mpr hn)

theorem pending_spawn (r : HttpRequest) : pending P (gs ++ [Ghost.start r]) = pending P gs := by
  unfold pending
  rw [List.filterMap_append]
  exact List.append_nil _

/-- A watched run from a state in which the breaker is CLOSED and no attempt is under way. -/
theorem watched_run {start : Instant} {p₀ p : Gateway.State}
    {frames : List (BreakerState × Option Outcome)} (hp₀ : Gateway.Reachable x st start p₀)
    (hclosed : (p₀.world.breakerFor st P).state = .Closed)
    (hnone : pending P (p₀.shadow x) = [])
    (hpos : 0 < st.config.circuitBreaker.failureThreshold)
    (hrun : Gateway.Run x st (serialAt x P) (attempts st P) p₀ p frames) :
    (p₀.world.breakerFor st P).inner.failureCount.toNat
        < st.config.circuitBreaker.failureThreshold.toNat ∧
      Watched st P (p₀.world.breakerFor st P).inner.failureCount.toNat p.world (p.shadow x)
        frames := by
  have hregular := hp₀.regular
  have hbelow : (p₀.world.breakerFor st P).inner.failureCount.toNat
      < st.config.circuitBreaker.failureThreshold.toNat := by
    rcases (hregular.inv P).below hclosed with hzero | hlt
    · rw [hzero]
      exact UInt32.lt_iff_toNat_lt.mp hpos
    · rw [← hregular.threshold P]
      exact UInt32.lt_iff_toNat_lt.mp hlt
  refine ⟨hbelow, ?_⟩
  let f := (p₀.world.breakerFor st P).inner.failureCount.toNat
  have hstart : Watched st P f p₀.world (p₀.shadow x) [] := by
    intro _
    refine Or.inr ⟨fun ⟨_, hmem, _⟩ => absurd hmem List.not_mem_nil, ?_,
      ⟨hclosed, by rw [hnone]; exact Nat.zero_le 1, by rw [hnone]; rfl, hbelow⟩⟩
    rintro ⟨pre, hpre, hn⟩
    rw [List.prefix_nil.mp hpre] at hn
    exact absurd hbelow (Nat.not_lt.mpr hn)
  refine (Machine.Observed.shadow
    (J := fun w gs frames => Regular st w gs ∧ Watched st P f w gs frames)
    gateway_disciplined hp₀.conforms ⟨hregular, hstart⟩ ?_ ?_ ?_ hrun).2
  · intro p v w frames _ hw ⟨hr, hwatched⟩
    obtain rfl := Option.some.inj hw
    refine ⟨⟨hr.inv, hr.threshold, hr.late⟩, fun hall => ?_⟩
    rcases hwatched hall with hdone | ⟨hopen, htrips, hc⟩
    · exact Or.inl hdone
    · exact Or.inr ⟨hopen, htrips, hc.closed, hc.serial, hc.count, hc.below⟩
  · intro p r frames ⟨hr, hwatched⟩
    refine ⟨hr.spawn r, fun hall => ?_⟩
    rcases hwatched hall with hdone | ⟨hopen, htrips, hc⟩
    · exact Or.inl hdone
    · exact Or.inr ⟨hopen, htrips, hc.away rfl (pending_spawn r)⟩
  · intro p l i g m w frames hok hl hmoves hi hm hans ⟨hr, hwatched⟩
    exact ⟨hr.move hi hans, hwatched.move hr hpos hok hl hmoves hi hm hans⟩

/--
**A failing provider trips its breaker if and only if it fails promptly.**  From a state in
which the breaker is CLOSED, as many attempts as the threshold are made one after the other,
and the table counts each of them as a failure.  The breaker becomes OPEN exactly if the first
of them, as many as are missing at the threshold, are decided before a success is recorded,
or if the first breaks off later and all the others are decided before.
-/
theorem trips_iff {start : Instant} {p₀ p : Gateway.State}
    {frames : List (BreakerState × Option Outcome)} (hp₀ : Gateway.Reachable x st start p₀)
    (hclosed : (p₀.world.breakerFor st P).state = .Closed)
    (hnone : pending P (p₀.shadow x) = [])
    (hpos : 0 < st.config.circuitBreaker.failureThreshold)
    (hrun : Gateway.Run x st (serialAt x P) (attempts st P) p₀ p frames)
    (hlen : (outcomes frames).length = st.config.circuitBreaker.failureThreshold.toNat)
    (hfail : ∀ o ∈ outcomes frames, o.countsAsFailure = true) :
    Opened frames ↔
      PromptEnough (p₀.world.breakerFor st P).inner.failureCount.toNat
        st.config.circuitBreaker.failureThreshold.toNat (outcomes frames) := by
  obtain ⟨hbelow, hwatched⟩ := watched_run hp₀ hclosed hnone hpos hrun
  rw [← trips_iff_promptEnough hbelow hlen]
  rcases hwatched hfail with ⟨hopen, htrips⟩ | ⟨hopen, htrips, -⟩
  · exact ⟨fun _ => htrips, fun _ => hopen⟩
  · exact ⟨fun h => absurd h hopen, fun h => absurd h htrips⟩

/-! Two failures are to trip the breaker of the one provider. -/

/-- The digest of the one key. -/
def failingCrates : Crates := .table [smallKey] []

/-- A gateway whose breakers trip after two failures. -/
def failingGateway : AppState := smallGateway failingCrates ⟨2, 10, 1⟩ 1000

/-- A run of the gateway in which the requests come one after the other. -/
def failingRun (ls : List GatewayLabel) : Gateway.State × List (BreakerState × Option Outcome) :=
  Gateway.replay failingCrates failingGateway (serialAt failingCrates "p")
    (attempts failingGateway "p") ls

/-- Both streams break off. -/
def brokenStreams : List GatewayLabel :=
  [.spawn (smallChat true 10), goes 0, goes 0, goes 0, goes 0, answers 0,
    goes 0, goes 0, goes 0, goes 0, .poll 0 (.error "reset"), goes 0, goes 0, goes 0,
    .spawn (smallChat true 10), goes 1, goes 1, goes 1, goes 1, answers 1,
    goes 1, goes 1, goes 1, goes 1, .poll 1 (.error "reset"), goes 1, goes 1, goes 1]

/-- Both connections are refused. -/
def refusedConnections : List GatewayLabel :=
  [.spawn (smallChat true 10), goes 0, goes 0, goes 0, goes 0, .act 0 (.sent (.error "refused")),
    goes 0,
    .spawn (smallChat true 10), goes 1, goes 1, goes 1, goes 1, .act 1 (.sent (.error "refused")),
    goes 1]

/-- A provider that drops every stream is never shut off. -/
theorem broken_streams_ignored :
    Gateway.Run failingCrates failingGateway (serialAt failingCrates "p")
        (attempts failingGateway "p") (Gateway.State.initial 0) (failingRun brokenStreams).1
        (failingRun brokenStreams).2 ∧
      ((Gateway.State.initial 0).world.breakerFor failingGateway "p").state = .Closed ∧
      pending "p" ((Gateway.State.initial 0).shadow failingCrates) = [] ∧
      failingGateway.config.circuitBreaker.failureThreshold = 2 ∧
      outcomes (failingRun brokenStreams).2 = [.streamError, .streamError] ∧
      (∀ o ∈ outcomes (failingRun brokenStreams).2, o.countsAsFailure = true) ∧
      ¬ Opened (failingRun brokenStreams).2 :=
  ⟨Gateway.replay_run _ _ _, by decide +kernel, by decide +kernel, by decide +kernel,
    by decide +kernel, by decide +kernel, by decide +kernel⟩

theorem trips_iff_refused : Opened (failingRun refusedConnections).2 := by
  have hprompt : ∀ o ∈ (outcomes (failingRun refusedConnections).2).take 2, o.prompt = true := by
    decide +kernel
  exact (trips_iff (P := "p") .refl (by decide +kernel) (by decide +kernel) (by decide +kernel)
    (Gateway.replay_run _ _ _) (by decide +kernel) (by decide +kernel)).mpr (Or.inl hprompt)

end LlmGateway
