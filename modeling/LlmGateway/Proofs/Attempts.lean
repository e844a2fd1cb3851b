/-
What the attempts at a provider do to its breaker.

The README's table says which outcomes count as failures of the provider.  The code makes
its calls on the breaker in three places, and what an outcome does to the failure count
depends on where it is decided: a failure before the body counts one more, a response that
is passed on resets the count first, and one that breaks off afterwards counts one.
`tally` is that count.  `Attempt` says, move by move, how an attempt proceeds and which call
it is on the breaker.
-/
import LlmGateway.Proofs.World
import Mathlib.Data.List.Induction

namespace LlmGateway

open Effects

variable {x : Crates} {P : String} {g : Ghost} {m : GatewayMove}

/-! ### Outcomes -/

namespace Outcome

/-- Decided before anything was recorded: no response, or a status to be retried. -/
def prompt : Outcome → Bool
  | .connectError => true
  | .status s => isRetryableUpstreamStatus s
  | _ => false

/-- Decided after the response was recorded as a success. -/
def late : Outcome → Bool
  | .bodyError => true
  | .streamError => true
  | .idleTimeout => true
  | _ => false

/-- The failures of the provider in the README's table. -/
def countsAsFailure : Outcome → Bool
  | .connectError => true
  | .status s => isRetryableUpstreamStatus s || s.code == 401 || s.code == 403
  | .bodyError => true
  | .streamError => true
  | .idleTimeout => true
  | .completed => false
  | .cancelled => false

/-- The failure count after an attempt that started with `c`. -/
def count (c : Nat) (o : Outcome) : Nat :=
  if o.prompt then c + 1 else if o.late then 1 else 0

end Outcome

/-- What is late is not prompt. -/
theorem prompt_of_late {o : Outcome} (h : o.late = true) : o.prompt = false := by
  cases o with
  | connectError => cases h
  | status s => cases h
  | _ => rfl

/-- The failure count after attempts one after the other. -/
def tally (f : Nat) (os : List Outcome) : Nat := os.foldl Outcome.count f

/-- At some point of the attempts the count reaches the threshold. -/
def Trips (f n : Nat) (os : List Outcome) : Prop := ∃ pre, pre <+: os ∧ n ≤ tally f pre

theorem tally_snoc (f : Nat) (os : List Outcome) (o : Outcome) :
    tally f (os ++ [o]) = Outcome.count (tally f os) o := by
  simp [tally]

/-- Either every attempt counts one more, or the last that does not decides. -/
theorem tally_cases (f : Nat) (os : List Outcome) :
    ((∀ o ∈ os, o.prompt = true) ∧ tally f os = f + os.length) ∨
      ∃ before o after, os = before ++ o :: after ∧ o.prompt = false ∧
        (∀ o' ∈ after, o'.prompt = true) ∧
        tally f os = (if o.late then 1 else 0) + after.length := by
  induction os using List.reverseRecOn with
  | nil => exact Or.inl ⟨fun o ho => absurd ho List.not_mem_nil, rfl⟩
  | append_singleton os o ih =>
      rw [tally_snoc]
      cases hprompt : o.prompt with
      | true =>
          have hcount : Outcome.count (tally f os) o = tally f os + 1 := by
            simp [Outcome.count, hprompt]
          rw [hcount]
          rcases ih with ⟨hall, htally⟩ | ⟨before, o₀, after, rfl, ho₀, hafter, htally⟩
          · refine Or.inl ⟨?_, by rw [htally, List.length_append]; rfl⟩
            intro o' ho'
            rcases List.mem_append.mp ho' with hold | hnew
            · exact hall o' hold
            · rw [List.mem_singleton.mp hnew]
              exact hprompt
          · refine Or.inr ⟨before, o₀, after ++ [o], by simp, ho₀, ?_, ?_⟩
            · intro o' ho'
              rcases List.mem_append.mp ho' with hold | hnew
              · exact hafter o' hold
              · rw [List.mem_singleton.mp hnew]
                exact hprompt
            · rw [htally, List.length_append, List.length_singleton]
              omega
      | false =>
          refine Or.inr ⟨os, o, [], rfl, hprompt, fun o' ho' => absurd ho' List.not_mem_nil, ?_⟩
          simp [Outcome.count, hprompt]

/-- The first failures, as many as are missing, are prompt; or the first is late, and all the
others are prompt. -/
def PromptEnough (f n : Nat) (os : List Outcome) : Prop :=
  (∀ o ∈ os.take (n - f), o.prompt = true) ∨
    ∃ o rest, os = o :: rest ∧ o.late = true ∧ ∀ o' ∈ rest, o'.prompt = true

theorem tally_prompt {f : Nat} {os : List Outcome} (h : ∀ o ∈ os, o.prompt = true) :
    tally f os = f + os.length := by
  rcases tally_cases f os with ⟨-, htally⟩ | ⟨before, o, after, rfl, ho, -⟩
  · exact htally
  · rw [h o (by simp)] at ho
    cases ho

/-- As many attempts as the threshold trip the breaker only if they are prompt enough. -/
theorem trips_iff_promptEnough {f n : Nat} {os : List Outcome} (hf : f < n)
    (hlen : os.length = n) : Trips f n os ↔ PromptEnough f n os := by
  constructor
  · rintro ⟨pre, hpre, hn⟩
    have hle := hpre.length_le
    rcases tally_cases f pre with ⟨hall, htally⟩ | ⟨before, o, after, rfl, -, hafter, htally⟩
    · left
      intro o ho
      rw [List.prefix_iff_eq_take.mp hpre] at hall
      exact hall o ((List.take_sublist_take_left (by omega)).subset ho)
    · -- a count that was reset needs all that is left
      right
      rw [List.length_append, List.length_cons] at hle
      cases hlate : o.late with
      | false =>
          rw [hlate] at htally
          simp only [Bool.false_eq_true, if_false] at htally
          omega
      | true =>
          rw [hlate] at htally
          simp only [if_true] at htally
          have hbefore : before = [] := List.eq_nil_of_length_eq_zero (by omega)
          subst hbefore
          have hall : o :: after = os := hpre.eq_of_length (by
            rw [List.nil_append, List.length_cons]
            omega)
          exact ⟨o, after, hall.symm, hlate, hafter⟩
  · rintro (hfirst | ⟨o, rest, rfl, hlate, hrest⟩)
    · refine ⟨os.take (n - f), List.take_prefix _ _, ?_⟩
      rw [tally_prompt hfirst, List.length_take]
      omega
    · refine ⟨o :: rest, List.prefix_refl _, ?_⟩
      have htally : tally f (o :: rest) = tally 1 rest := by
        simp [tally, Outcome.count, prompt_of_late hlate, hlate]
      rw [htally, tally_prompt hrest]
      rw [List.length_cons] at hlen
      omega

/-! ### One move of an attempt -/

/-- How far an attempt at the provider is: nothing recorded, or a success. -/
inductive Stage
  | waiting
  | reading
  deriving DecidableEq

/-- The stage of a request's attempt, if it is one at `P`. -/
def Phase.stage (P : String) : Phase → Option Stage
  | .idle => none
  | .admitted p => if p = P then some .waiting else none
  | .answered p _ => if p = P then some .waiting else none
  | .reading p => if p = P then some .reading else none
  | .broken p _ => if p = P then some .reading else none

/-- The outcome of an attempt at `P` that a move ends. -/
def concluded (P : String) (g : Ghost) (m : GatewayMove) : Option Outcome :=
  (g.phase.conclusion m).bind fun c => if c.1 = P then some c.2 else none

/-- What a move can be for an attempt at `P`. -/
inductive Attempt (P : String) (g : Ghost) (m : GatewayMove) : Prop
  | away (hb : onBreaker P m = none ∨ onBreaker P m = some .isEligible)
      (hc : concluded P g m = none) (hs : (g.next m).phase.stage P = g.phase.stage P)
  | refuse (hm : m = .act (.allowRequest P) false) (hc : concluded P g m = none)
      (hs : (g.next m).phase.stage P = g.phase.stage P)
  | enter (hm : m = .act (.allowRequest P) true) (hc : concluded P g m = none)
      (hbefore : g.phase.stage P = none) (hafter : (g.next m).phase.stage P = some .waiting)
  | accept (hb : onBreaker P m = some .recordSuccess) (hc : concluded P g m = none)
      (hbefore : g.phase.stage P = some .waiting)
      (hafter : (g.next m).phase.stage P = some .reading)
  | reject (s : StatusCode) (hb : onBreaker P m = some .recordSuccess)
      (hc : concluded P g m = some (.status s)) (hstatus : isRetryableUpstreamStatus s = false)
      (hbefore : g.phase.stage P = some .waiting) (hafter : (g.next m).phase.stage P = none)
  | fail (a : Except String StatusCode) (hb : onBreaker P m = some .recordFailure)
      (hc : concluded P g m = some (.ofAnswer a)) (hfail : isFailure a = true)
      (hbefore : g.phase.stage P = some .waiting) (hafter : (g.next m).phase.stage P = none)
  | lose (o : Outcome) (hb : onBreaker P m = some .recordFailure)
      (hc : concluded P g m = some o) (hbefore : g.phase = .broken P o)
      (hafter : (g.next m).phase.stage P = none)
  | finish (o : Outcome) (hb : onBreaker P m = none) (hc : concluded P g m = some o)
      (ho : o.countsAsFailure = false) (hafter : (g.next m).phase.stage P = none)

theorem attempt_allowRequest {p : String} {answer : Bool} (hphase : g.phase = .idle) :
    Attempt P g (.act (.allowRequest p) answer) := by
  have hc : concluded P g (.act (.allowRequest p) answer) = none := by
    unfold concluded
    rw [hphase]
    rfl
  by_cases hp : p = P
  · subst hp
    cases answer with
    | false => exact .refuse rfl hc rfl
    | true => exact .enter rfl hc (by rw [hphase]; rfl) (if_pos rfl)
  · refine .away (Or.inl (if_neg hp)) hc ?_
    cases answer with
    | false => rfl
    | true =>
        rw [hphase]
        exact if_neg hp

theorem attempt_recordSuccess {p : String} {u : Unit} {s : StatusCode}
    (hphase : g.phase = .answered p (.ok s)) (hs : isRetryableUpstreamStatus s = false) :
    Attempt P g (.act (.recordSuccess p) u) := by
  have hnext : (g.next (.act (.recordSuccess p) u)).phase
      = if isNonRetryableClientError s then .idle else .reading p := by
    show g.phase.succeeded = _
    rw [hphase]
    rfl
  have hconclusion : g.phase.conclusion (.act (.recordSuccess p) u)
      = if isNonRetryableClientError s then some (p, .status s) else none := by
    rw [hphase]
    rfl
  by_cases hp : p = P
  · subst hp
    have hbefore : g.phase.stage p = some .waiting := by
      rw [hphase]
      exact if_pos rfl
    cases hclient : isNonRetryableClientError s with
    | true =>
        rw [hclient, if_pos rfl] at hnext hconclusion
        refine .reject s (if_pos rfl) ?_ hs hbefore (by rw [hnext]; rfl)
        unfold concluded
        rw [hconclusion]
        exact if_pos rfl
    | false =>
        rw [hclient, if_neg Bool.false_ne_true] at hnext hconclusion
        refine .accept (if_pos rfl) ?_ hbefore (by rw [hnext]; exact if_pos rfl)
        unfold concluded
        rw [hconclusion]
        rfl
  · refine .away (Or.inl (if_neg hp)) ?_ ?_
    · unfold concluded
      rw [hconclusion]
      split
      · exact if_neg hp
      · rfl
    · rw [hnext, hphase, Phase.stage, if_neg hp]
      split
      · rfl
      · exact if_neg hp

theorem attempt_recordFailure {p : String} {u : Unit}
    (h : (∃ a, g.phase = .answered p a ∧ isFailure a = true) ∨ ∃ o, g.phase = .broken p o) :
    Attempt P g (.act (.recordFailure p) u) := by
  have hafter : (g.next (.act (.recordFailure p) u)).phase.stage P = none := rfl
  rcases h with ⟨a, hphase, hfail⟩ | ⟨o, hphase⟩
  · have hconclusion : g.phase.conclusion (.act (.recordFailure p) u)
        = some (p, .ofAnswer a) := by
      rw [hphase]
      rfl
    by_cases hp : p = P
    · subst hp
      refine .fail a (if_pos rfl) ?_ hfail (by rw [hphase]; exact if_pos rfl) hafter
      unfold concluded
      rw [hconclusion]
      exact if_pos rfl
    · refine .away (Or.inl (if_neg hp)) ?_ ?_
      · unfold concluded
        rw [hconclusion]
        exact if_neg hp
      · rw [hafter, hphase]
        exact (if_neg hp).symm
  · have hconclusion : g.phase.conclusion (.act (.recordFailure p) u) = some (p, o) := by
      rw [hphase]
      rfl
    by_cases hp : p = P
    · subst hp
      refine .lose o (if_pos rfl) ?_ hphase hafter
      unfold concluded
      rw [hconclusion]
      exact if_pos rfl
    · refine .away (Or.inl (if_neg hp)) ?_ ?_
      · unfold concluded
        rw [hconclusion]
        exact if_neg hp
      · rw [hafter, hphase]
        exact (if_neg hp).symm

/-- An attempt whose body is read or dropped to its end makes no call. -/
theorem attempt_finish {p : String} {o : Outcome} (hb : onBreaker P m = none)
    (hconclusion : g.phase.conclusion m = some (p, o)) (ho : o.countsAsFailure = false)
    (hprovider : g.phase.provider = some p) (hafter : (g.next m).phase = .idle) :
    Attempt P g m := by
  by_cases hp : p = P
  · subst hp
    refine .finish o hb ?_ ho (by rw [hafter]; rfl)
    unfold concluded
    rw [hconclusion]
    exact if_pos rfl
  · refine .away (Or.inl hb) ?_ ?_
    · unfold concluded
      rw [hconclusion]
      exact if_neg hp
    · rw [hafter]
      cases hphase : g.phase with
      | idle => rfl
      | _ =>
          rw [hphase] at hprovider
          obtain rfl := Option.some.inj hprovider
          exact (if_neg hp).symm

theorem attempt_bytes {p : String} {owned : Option ReservationHandle}
    {answer : Except String (List UInt8)} (hphase : g.phase = .reading p) :
    Attempt P g (.act (.await (.bytes p) owned) answer) := by
  cases answer with
  | ok body =>
      exact attempt_finish rfl (by rw [hphase]; rfl) rfl (by rw [hphase]; rfl) rfl
  | error e =>
      refine .away (Or.inl rfl) ?_ ?_
      · unfold concluded
        rw [hphase]
        rfl
      · rw [hphase]
        rfl

/-- Where nothing ends and the stage stays. -/
theorem attempt_poll (item : StreamItem) : Attempt P g (.poll item) := by
  cases item with
  | chunk bs =>
      refine .away (Or.inl rfl) ?_ rfl
      unfold concluded
      cases g.phase <;> rfl
  | ended =>
      cases hphase : g.phase with
      | reading p =>
          refine attempt_finish rfl (by rw [hphase]; rfl) rfl (by rw [hphase]; rfl) ?_
          show g.phase.finished = .idle
          rw [hphase]
          rfl
      | _ =>
          refine .away (Or.inl rfl) ?_ ?_
          · unfold concluded
            rw [hphase]
            rfl
          · show g.phase.finished.stage P = g.phase.stage P
            rw [hphase]
            rfl
  | _ =>
      refine .away (Or.inl rfl) ?_ ?_
      · unfold concluded
        cases g.phase <;> rfl
      · show (g.phase.breakOff _).stage P = g.phase.stage P
        cases g.phase <;> rfl

theorem attempt_drop : Attempt P g .drop := by
  cases hprovider : g.phase.provider with
  | some p =>
      refine attempt_finish (o := .cancelled) rfl ?_ rfl hprovider rfl
      cases hphase : g.phase <;> rw [hphase] at hprovider <;> cases hprovider <;> rfl
  | none =>
      have hphase : g.phase = .idle := by
        cases hphase : g.phase with
        | idle => rfl
        | _ => rw [hphase] at hprovider; cases hprovider
      refine .away (Or.inl rfl) ?_ ?_
      · unfold concluded
        rw [hphase]
        rfl
      · rw [hphase]
        rfl

theorem attempt_send {p : String} {req : OutboundRequest} {owned : Option ReservationHandle}
    {answer : Except String StatusCode} (hphase : g.phase = .admitted p) :
    Attempt P g (.act (.await (.send p req) owned) answer) := by
  refine .away (Or.inl rfl) ?_ ?_
  · unfold concluded
    rw [hphase]
    rfl
  · rw [hphase]
    rfl

/-- A move that has nothing to do with attempts. -/
theorem attempt_quiet (hb : onBreaker P m = none ∨ onBreaker P m = some .isEligible)
    (hc : g.phase.conclusion m = none) (hs : (g.next m).phase = g.phase) : Attempt P g m := by
  refine .away hb ?_ (by rw [hs])
  unfold concluded
  rw [hc]
  rfl

/-- **Every move a request may make is one of these for its attempt.** -/
theorem attempt (P : String) (hm : Kernel.Allowed (discipline x) g m) : Attempt P g m := by
  cases m with
  | act e answer =>
      cases e with
      | isEligible p =>
          refine attempt_quiet ?_ (by cases g.phase <;> rfl) rfl
          by_cases hp : p = P
          · exact Or.inr (if_pos hp)
          · exact Or.inl (if_neg hp)
      | allowRequest p => exact attempt_allowRequest hm
      | recordSuccess p =>
          obtain ⟨s, hphase, hs⟩ := hm
          exact attempt_recordSuccess hphase hs
      | recordFailure p => exact attempt_recordFailure hm
      | await a owned =>
          cases a with
          | send p req => exact attempt_send hm.2.1
          | bytes p => exact attempt_bytes hm.2
          | _ => exact attempt_quiet (Or.inl rfl) (by cases g.phase <;> rfl) rfl
      | _ => exact attempt_quiet (Or.inl rfl) (by cases g.phase <;> rfl) rfl
  | poll item => exact attempt_poll item
  | drop => exact attempt_drop

end LlmGateway
