/-
The streaming body keeps the discipline, and charges once.

The loop over the events of a chunk carries the first usage found so far: nothing is charged
while there is none, and with the first one the callback is called and gone.  What the loop
has inspected at its end are all the events of the chunks received, so a stream is charged
with the first usage of its whole byte stream, however it is cut into chunks.
-/
import LlmGateway.Proofs.Discipline
import LlmGateway.Proofs.SseParser

namespace LlmGateway

open Effects

variable {x : Crates} {s : BodyStream} {g : Ghost} {u : Option (Nat × Nat)}

/-- One more chunk adds the events it completes. -/
theorem SseParser.pushAll_snoc (p : SseParser) (chunks : List (List UInt8)) (bs : List UInt8) :
    p.pushAll (chunks ++ [bs])
      = ((p.pushAll chunks).1 ++ ((p.pushAll chunks).2.push bs).1,
          ((p.pushAll chunks).2.push bs).2) := by
  induction chunks generalizing p with
  | nil => simp [pushAll]
  | cons c cs ih => simp [pushAll, ih]

/-! ### The loop over events -/

theorem wp_inspectTtft {Q : BodyStream → Ghost → Prop} (h : Streaming x s g u) (event : String)
    (hQ : ∀ s' g', Streaming x s' g' u → g'.chunks = g.chunks → Q s' g') :
    (s.inspectTtft x.fromStr event).wp (discipline x) g Q := by
  unfold BodyStream.inspectTtft
  by_cases hfirst : (!s.ttftRecorded && SseParser.isContentEvent x.fromStr event) = true
  · rw [if_pos hfirst]
    refine ⟨trivial, fun _ => hQ _ _ ?_ rfl⟩
    rw [discipline_next, next_metric, tokens_recordTtft, List.append_nil]
    exact ⟨h.phase, h.chat, h.body, h.parser, h.onError, h.charges⟩
  · rw [if_neg hfirst]
    exact hQ s g h rfl

theorem wp_inspectUsage {Q : BodyStream → Ghost → Prop} (h : Streaming x s g u) (event : String)
    (hreported : ∀ t, u = none → SseParser.extractUsage x.fromStr event = some t →
      streamUsage x g.chunks = some t)
    (hQ : ∀ s' g', Streaming x s' g' (u.or (SseParser.extractUsage x.fromStr event)) →
      g'.chunks = g.chunks → Q s' g') :
    (s.inspectUsage x.fromStr event).wp (discipline x) g Q := by
  unfold BodyStream.inspectUsage
  cases u with
  | some t =>
      rw [if_pos h.charges.1]
      exact hQ s g h rfl
  | none =>
      obtain ⟨hcharged, htokens, hsettled, hd, hheld, honUsage⟩ := h.charges
      rw [if_neg (by simp [hcharged])]
      cases hextract : SseParser.extractUsage x.fromStr event with
      | none =>
          rw [hextract] at hQ
          exact hQ s g h rfl
      | some t =>
          rw [hextract] at hQ
          simp only [honUsage]
          obtain ⟨r, hcall⟩ := h.chat
          have hrep : g.reported x = some t := by
            unfold Ghost.reported
            simp only [h.body]
            exact hreported t rfl hextract
          refine (Prog.wp_bind _ _ _ _).mpr (wp_settleUsage s.providerName hheld hcall hrep ?_)
          refine hQ _ _ ⟨h.phase, ⟨r, hcall⟩, h.body, h.parser, h.onError, ?_⟩ rfl
          exact ⟨rfl, by simp [htokens], by simp [hsettled], rfl, rfl⟩

/-- The loop: what is inspected, and what is still to be, are the events of the chunks. -/
theorem wp_inspect : ∀ (events inspected : List String) {s : BodyStream} {g : Ghost},
    inspected ++ events = (SseParser.new.pushAll g.chunks).1 →
    Streaming x s g (inspected.findSome? (SseParser.extractUsage x.fromStr)) →
    (s.inspect x.fromStr events).wp (discipline x) g
      fun s' g' => Streaming x s' g' (streamUsage x g'.chunks) := by
  intro events
  induction events with
  | nil =>
      intro inspected s g hevents h
      rw [List.append_nil] at hevents
      rw [hevents] at h
      exact h
  | cons event rest ih =>
      intro inspected s g hevents h
      unfold BodyStream.inspect
      refine (Prog.wp_bind _ _ _ _).mpr (wp_inspectTtft h event fun s₁ g₁ h₁ hchunks₁ => ?_)
      refine (Prog.wp_bind _ _ _ _).mpr (wp_inspectUsage h₁ event ?_ fun s₂ g₂ h₂ hchunks₂ => ?_)
      · intro t hnone hsome
        unfold streamUsage
        rw [hchunks₁, ← hevents, List.findSome?_append, hnone, List.findSome?_cons, hsome]
        rfl
      · refine ih (inspected ++ [event]) ?_ ?_
        · rw [hchunks₂, hchunks₁, ← hevents, List.append_assoc]
          rfl
        · rw [List.findSome?_append, List.findSome?_singleton]
          exact h₂

/-! ### Polls and drops -/

/-- Dropping the generator drops the reservation if the usage callback still has it. -/
theorem wp_dropStream {Q : Unit → Ghost → Prop} (hphase : g.phase = .idle)
    (hcharges : Charges s g (streamUsage x g.chunks))
    (honError : s.onError = none ∨ ∃ call, s.onError = some { call := call, drop := pure () })
    (hQ : ∀ g', Done x g' → Q () g') : s.drop.wp (discipline x) g Q := by
  have herr : ∀ g', Done x g' → (BodyStream.dropClosure s.onError).wp (discipline x) g' Q := by
    intro g' hg'
    rcases honError with hnone | ⟨call, hsome⟩
    · rw [hnone]
      exact hQ g' hg'
    · rw [hsome]
      exact hQ g' hg'
  unfold BodyStream.drop
  rw [Prog.bind_eq, Prog.wp_bind]
  cases husage : streamUsage x g.chunks with
  | none =>
      rw [husage] at hcharges
      obtain ⟨-, htokens, hsettled, hd, hheld, honUsage⟩ := hcharges
      rw [honUsage]
      refine ⟨hheld, fun _ => herr _ ⟨⟨hphase, fun _ _ _ _ => ?_⟩, rfl⟩⟩
      show Ghost.Accounted x { g with held := none }
      unfold Ghost.Accounted
      rw [husage]
      exact ⟨htokens, hsettled⟩
  | some t =>
      rw [husage] at hcharges
      obtain ⟨-, htokens, hsettled, hheld, honUsage⟩ := hcharges
      rw [honUsage]
      refine herr g ⟨⟨hphase, fun _ _ _ _ => ?_⟩, hheld⟩
      unfold Ghost.Accounted
      rw [husage]
      exact ⟨htokens, hsettled⟩

/-- A generator that is done, or waits for its next item. -/
def Resumed (x : Crates) : Option BodyStream → Ghost → Prop
  | none, g => Done x g
  | some s, g => Streaming x s g (streamUsage x g.chunks)

theorem wp_resume_chunk (h : Streaming x s g (streamUsage x g.chunks)) (bs : List UInt8) :
    (s.resume x.fromStr (.chunk bs)).wp (discipline x) (g.next (.poll (.chunk bs)))
      (Resumed x) := by
  have hpush := SseParser.pushAll_snoc .new g.chunks bs
  rw [← h.parser] at hpush
  unfold BodyStream.resume
  refine Prog.wp_call (wp_inspect _ (SseParser.new.pushAll g.chunks).1 ?_ ?_)
    fun s' g' hs' => ⟨trivial, fun _ => hs'⟩
  · show _ = (SseParser.new.pushAll (g.chunks ++ [bs])).1
    rw [hpush]
    rfl
  · refine ⟨h.phase, h.chat, h.body, ?_, h.onError, h.charges⟩
    show _ = (SseParser.new.pushAll (g.chunks ++ [bs])).2
    rw [hpush]
    rfl

/-- A stream that breaks off reports the failure, and then drops what it has. -/
theorem wp_resume_broken (h : Streaming x s g (streamUsage x g.chunks)) (o : Outcome)
    (message : String) :
    ((do
      let s ← s.reportError
      yield (.error message)
      s.drop
      return none : Gateway (Option BodyStream))).wp (discipline x)
        { g with phase := g.phase.breakOff o } (Resumed x) := by
  have hbroken : g.phase.breakOff o = .broken s.providerName o := by
    rw [h.phase]
    rfl
  unfold BodyStream.reportError
  rw [h.onError, hbroken]
  refine ⟨Or.inr ⟨o, rfl⟩, fun _ => ⟨trivial, fun _ => ?_⟩⟩
  show Prog.wp _ ((BodyStream.drop _).bind _) _ _
  rw [Prog.wp_bind]
  exact wp_dropStream rfl h.charges (Or.inl rfl) fun g' hg' => hg'

theorem wp_resume (h : Streaming x s g (streamUsage x g.chunks)) (item : StreamItem) :
    (s.resume x.fromStr item).wp (discipline x) (g.next (.poll item)) (Resumed x) := by
  cases item with
  | chunk bs => exact wp_resume_chunk h bs
  | error e => exact wp_resume_broken h .streamError e
  | idleTimeout => exact wp_resume_broken h .idleTimeout _
  | ended =>
      have hidle : (g.next (.poll .ended)).phase = .idle := by
        show g.phase.finished = .idle
        rw [h.phase]
        rfl
      show Prog.wp _ (s.drop.bind _) _ _
      rw [Prog.wp_bind]
      exact wp_dropStream hidle h.charges (Or.inr ⟨_, h.onError⟩) fun g' hg' => hg'

end LlmGateway
