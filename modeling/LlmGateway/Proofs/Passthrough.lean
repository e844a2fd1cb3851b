/-
What the streaming body does with any sequence of upstream items.

`proxy_stream_passthrough` is a generator with two callbacks it must call at most once and
a parser it must feed in order.  `Emission` lists what it makes happen, and `feed_eq` says
that giving it the items of a sequence, one after the other, is the program that makes the
emissions of a list happen, whatever the callbacks do.  The list depends on the items
only; what is promised of the generator are facts about it.

The loop over the events of a chunk decides by what it has already inspected: a content
event counts if none was inspected before, and so does an event with usage.  So the
induction carries the inspected events, which are the events of the chunks delivered so
far, however the network has split them.
-/
import LlmGateway.Proxy.Stream
import LlmGateway.Proofs.SseParser

namespace LlmGateway

open Effects Delimited

/-! ### What is promised -/

/-- What a generator makes happen. -/
inductive Emission
  /-- The time to first token is recorded. -/
  | ttft
  /-- `on_usage` is called. -/
  | usage (tokens : Nat × Nat)
  /-- `on_stream_error` is called. -/
  | failed
  /-- The response body yields an item. -/
  | item (i : Except String (List UInt8))
  /-- A callback that was not called is dropped. -/
  | dropUsage
  | dropError
  deriving DecidableEq

namespace Emission

/-- The item the body yields. -/
def item? : Emission → Option (Except String (List UInt8))
  | .item i => some i
  | _ => none

/-- The arguments of a call of `on_usage`. -/
def usage? : Emission → Option (Nat × Nat)
  | .usage tokens => some tokens
  | _ => none

end Emission

/-- The chunks before the first item that is not one. -/
def delivered : List StreamItem → List (List UInt8)
  | .chunk bs :: items => bs :: delivered items
  | _ => []

/-- The message of the error or timeout a sequence of items breaks off with, if it does. -/
def breakage : List StreamItem → Option String
  | .chunk _ :: items => breakage items
  | .error e :: _ => some e
  | .idleTimeout :: _ => some "stream idle timeout exceeded"
  | _ => none

section

variable (fromStr : String → Option Value)

/-- The emissions for a sequence of items are those the module's comments promise. -/
structure PassedThrough (items : List StreamItem) (es : List Emission) : Prop where
  /-- The chunks as they came, and one error if there was one. -/
  yielded : es.filterMap Emission.item? =
    (delivered items).map .ok ++ ((breakage items).map .error).toList
  failed : es.count .failed = if (breakage items).isSome then 1 else 0
  /-- Usage is that of the first event of the delivered bytes that has one. -/
  usage : ∀ segs rest, Segments blankLine (delivered items).flatten segs rest →
    es.filterMap Emission.usage? =
      ((segs.filterMap fromUtf8).findSome? (SseParser.extractUsage fromStr)).toList
  ttft : ∀ segs rest, Segments blankLine (delivered items).flatten segs rest →
    es.count .ttft =
      if (segs.filterMap fromUtf8).any (SseParser.isContentEvent fromStr) then 1 else 0

/-! ### The generator as a list of emissions -/

/-- What the caller gives the generator. -/
structure Callbacks where
  provider : String
  onUsage : FnOnce (Nat × Nat)
  onError : FnOnce Unit

/-- An emission as a program. -/
def Emission.run (c : Callbacks) : Emission → Gateway Unit
  | .ttft => metric (.recordTtft c.provider)
  | .usage tokens => c.onUsage.call tokens
  | .failed => c.onError.call ()
  | .item i => yield i
  | .dropUsage => c.onUsage.drop
  | .dropError => c.onError.drop

/-- Emissions one after the other. -/
def emit (c : Callbacks) : List Emission → Gateway Unit
  | [] => pure ()
  | e :: es => do
      e.run c
      emit c es

theorem emit_append (c : Callbacks) (es fs : List Emission) :
    emit c (es ++ fs) = (emit c es).bind fun _ => emit c fs := by
  induction es with
  | nil => rfl
  | cons e es ih =>
      show (e.run c).bind (fun _ => emit c (es ++ fs)) = ((e.run c).bind fun _ => emit c es).bind _
      rw [ih, Prog.bind_assoc]

theorem emit_singleton (c : Callbacks) (e : Emission) : emit c [e] = e.run c :=
  Prog.bind_ret _

/-- The generator between two items: what its parser holds, whether it has seen content, and
the usage it has seen. -/
def generator (c : Callbacks) (idle : Duration) (p : SseParser) (content : Bool)
    (used : Option (Nat × Nat)) : BodyStream where
  providerName := c.provider
  idleTimeout := idle
  parser := p
  ttftRecorded := content
  usageCharged := used.isSome
  onUsage := if used.isSome then none else some c.onUsage
  onError := some c.onError

/-- The first usage among events. -/
def firstUsage (events : List String) : Option (Nat × Nat) :=
  events.findSome? (SseParser.extractUsage fromStr)

/-- Whether there is a content event among events. -/
def hasContentEvent (events : List String) : Bool :=
  events.any (SseParser.isContentEvent fromStr)

/-- Recorded at a content event, if there was none before. -/
def ttftOf (content : Bool) (event : String) : List Emission :=
  if !content && SseParser.isContentEvent fromStr event then [.ttft] else []

/-- Called for an event with usage, if there was none before. -/
def usageOf (used : Option (Nat × Nat)) (event : String) : List Emission :=
  if used.isSome then [] else ((SseParser.extractUsage fromStr event).map .usage).toList

/-- The emissions for events after others that had content, or usage. -/
def looks (content : Bool) (used : Option (Nat × Nat)) : List String → List Emission
  | [] => []
  | event :: events =>
      ttftOf fromStr content event ++ (usageOf fromStr used event ++
        looks (content || SseParser.isContentEvent fromStr event)
          (used.or (SseParser.extractUsage fromStr event)) events)

/-- What is dropped at the end: `on_usage`, if it was not called. -/
def leftover (used : Option (Nat × Nat)) : List Emission :=
  if used.isSome then [] else [.dropUsage]

/-- The emissions for a sequence of items. -/
def emissions (p : SseParser) (content : Bool) (used : Option (Nat × Nat)) :
    List StreamItem → List Emission
  | [] => []
  | .chunk bs :: items =>
      looks fromStr content used (p.push bs).1 ++ .item (.ok bs) ::
        emissions (p.push bs).2 (content || hasContentEvent fromStr (p.push bs).1)
          (used.or (firstUsage fromStr (p.push bs).1)) items
  | .error e :: _ => [.failed, .item (.error e)] ++ leftover used
  | .idleTimeout :: _ =>
      [.failed, .item (.error "stream idle timeout exceeded")] ++ leftover used
  | .ended :: _ => leftover used ++ [.dropError]

namespace BodyStream

/-- The server polls the body with items, one after the other. -/
def feed : Option BodyStream → List StreamItem → Gateway (Option BodyStream)
  | s, [] => pure s
  | none, _ :: _ => pure none
  | some s, item :: items => do
      let s ← s.resume fromStr item
      feed s items

end BodyStream

variable {fromStr} {c : Callbacks} {idle : Duration} {p : SseParser} {content : Bool}
  {used : Option (Nat × Nat)}

theorem inspectTtft_eq (event : String) :
    (generator c idle p content used).inspectTtft fromStr event
      = (emit c (ttftOf fromStr content event)).bind fun _ =>
          .ret (generator c idle p (content || SseParser.isContentEvent fromStr event) used) := by
  unfold BodyStream.inspectTtft ttftOf generator
  cases content with
  | true => rfl
  | false => cases SseParser.isContentEvent fromStr event <;> rfl

theorem inspectUsage_eq (event : String) :
    (generator c idle p content used).inspectUsage fromStr event
      = (emit c (usageOf fromStr used event)).bind fun _ =>
          .ret (generator c idle p content (used.or (SseParser.extractUsage fromStr event))) := by
  unfold BodyStream.inspectUsage usageOf generator
  cases used with
  | some tokens => rfl
  | none =>
      cases SseParser.extractUsage fromStr event with
      | none => rfl
      | some tokens =>
          show (c.onUsage.call tokens).bind _ = ((c.onUsage.call tokens).bind _).bind _
          rw [Prog.bind_assoc]
          rfl

theorem hasContentEvent_cons (event : String) (events : List String) :
    hasContentEvent fromStr (event :: events)
      = (SseParser.isContentEvent fromStr event || hasContentEvent fromStr events) := rfl

theorem firstUsage_cons (event : String) (events : List String) :
    firstUsage fromStr (event :: events)
      = (SseParser.extractUsage fromStr event).or (firstUsage fromStr events) := by
  unfold firstUsage
  rw [List.findSome?_cons]
  cases SseParser.extractUsage fromStr event <;> rfl

/-- The loop over the events of a chunk. -/
theorem inspect_eq (events : List String) :
    (generator c idle p content used).inspect fromStr events
      = (emit c (looks fromStr content used events)).bind fun _ =>
          .ret (generator c idle p (content || hasContentEvent fromStr events)
            (used.or (firstUsage fromStr events))) := by
  induction events generalizing content used with
  | nil =>
      show Prog.ret _ = Prog.ret _
      rw [show hasContentEvent fromStr [] = false from rfl, Bool.or_false,
        show firstUsage fromStr [] = none from rfl, Option.or_none]
  | cons event events ih =>
      show ((generator c idle p content used).inspectTtft fromStr event).bind (fun s =>
        (s.inspectUsage fromStr event).bind fun s => s.inspect fromStr events) = _
      rw [inspectTtft_eq, Prog.bind_assoc, hasContentEvent_cons, firstUsage_cons, ← Bool.or_assoc,
        ← Option.or_assoc]
      simp only [Prog.ret_bind, inspectUsage_eq, Prog.bind_assoc, ih, looks, emit_append]

/-! ### The items of a sequence -/

theorem resume_chunk (bs : List UInt8) :
    (generator c idle p content used).resume fromStr (.chunk bs)
      = (emit c (looks fromStr content used (p.push bs).1 ++ [.item (.ok bs)])).bind fun _ =>
          .ret (some (generator c idle (p.push bs).2
            (content || hasContentEvent fromStr (p.push bs).1)
            (used.or (firstUsage fromStr (p.push bs).1)))) := by
  show ((generator c idle (p.push bs).2 content used).inspect fromStr (p.push bs).1).bind (fun s =>
    (yield (.ok bs)).bind fun _ => .ret (some s)) = _
  rw [inspect_eq, emit_append, Prog.bind_assoc, Prog.bind_assoc]
  rfl

theorem dropUsage_eq :
    BodyStream.dropClosure (generator c idle p content used).onUsage = emit c (leftover used) := by
  unfold leftover generator
  cases used with
  | some tokens => rfl
  | none => exact (emit_singleton c .dropUsage).symm

/-- A sequence that breaks off with a message. -/
theorem resume_broken {item : StreamItem} (message : String)
    (h : ∀ s : BodyStream, s.resume fromStr item = (do
      let s ← s.reportError
      yield (.error message)
      s.drop
      return none)) :
    (generator c idle p content used).resume fromStr item
      = (emit c ([.failed, .item (.error message)] ++ leftover used)).bind fun _ =>
          .ret none := by
  have hdrop : BodyStream.dropClosure (generator c idle p content used).onUsage
      = emit c (leftover used) := dropUsage_eq
  rw [h, emit_append, ← hdrop]
  show ((c.onError.call ()).bind _).bind _ = (((c.onError.call ()).bind _).bind _).bind _
  simp only [Prog.bind_assoc, Prog.bind_eq, Prog.pure_eq, Prog.ret_bind, BodyStream.drop]
  rfl

theorem resume_ended :
    (generator c idle p content used).resume fromStr .ended
      = (emit c (leftover used ++ [.dropError])).bind fun _ => .ret none := by
  have hdrop : BodyStream.dropClosure (generator c idle p content used).onUsage
      = emit c (leftover used) := dropUsage_eq
  rw [emit_append, emit_singleton, ← hdrop]
  rfl

theorem feed_none (items : List StreamItem) :
    BodyStream.feed fromStr none items = .ret none := by
  cases items <;> rfl

/-- **A sequence of items is a list of emissions**, whatever the callbacks do. -/
theorem feed_eq (items : List StreamItem) : ∃ final,
    BodyStream.feed fromStr (some (generator c idle p content used)) items
      = (emit c (emissions fromStr p content used items)).bind fun _ => .ret final := by
  induction items generalizing p content used with
  | nil => exact ⟨_, rfl⟩
  | cons item items ih =>
      have hcons : BodyStream.feed fromStr (some (generator c idle p content used))
          (item :: items) = ((generator c idle p content used).resume fromStr item).bind fun s =>
            BodyStream.feed fromStr s items := rfl
      cases item with
      | chunk bs =>
          obtain ⟨final, hfinal⟩ := @ih (p.push bs).2
            (content || hasContentEvent fromStr (p.push bs).1)
            (used.or (firstUsage fromStr (p.push bs).1))
          refine ⟨final, ?_⟩
          rw [hcons, resume_chunk, Prog.bind_assoc, Prog.ret_bind, hfinal, ← Prog.bind_assoc,
            ← emit_append, emissions, List.append_assoc]
          rfl
      | error e =>
          refine ⟨none, ?_⟩
          rw [hcons, resume_broken e fun _ => rfl, Prog.bind_assoc, Prog.ret_bind,
            feed_none]
          rfl
      | idleTimeout =>
          refine ⟨none, ?_⟩
          rw [hcons, resume_broken "stream idle timeout exceeded" fun _ => rfl,
            Prog.bind_assoc, Prog.ret_bind, feed_none]
          rfl
      | ended =>
          refine ⟨none, ?_⟩
          rw [hcons, resume_ended, Prog.bind_assoc, Prog.ret_bind, feed_none]
          rfl

/-! ### What the emissions are -/

/-- The inspection of events, as against what passes and what is dropped. -/
def Emission.inspection : Emission → Bool
  | .ttft => true
  | .usage _ => true
  | _ => false

theorem inspection_looks (events : List String) :
    ∀ e ∈ looks fromStr content used events, e.inspection = true := by
  induction events generalizing content used with
  | nil => exact fun e he => absurd he List.not_mem_nil
  | cons event events ih =>
      intro e he
      rcases List.mem_append.mp he with httft | hrest
      · unfold ttftOf at httft
        split at httft
        · rw [List.mem_singleton.mp httft]
          rfl
        · exact absurd httft List.not_mem_nil
      rcases List.mem_append.mp hrest with husage | hrest
      · unfold usageOf at husage
        split at husage
        · exact absurd husage List.not_mem_nil
        · obtain ⟨t, -, rfl⟩ := Option.map_eq_some_iff.mp (Option.mem_toList.mp husage)
          rfl
      · exact ih e hrest

theorem looks_append (events more : List String) :
    looks fromStr content used (events ++ more)
      = looks fromStr content used events ++ looks fromStr
          (content || hasContentEvent fromStr events)
          (used.or (firstUsage fromStr events)) more := by
  induction events generalizing content used with
  | nil =>
      show _ = looks fromStr (content || false) (used.or none) more
      rw [Bool.or_false, Option.or_none]
      rfl
  | cons event events ih =>
      rw [List.cons_append, looks, looks, ih, firstUsage_cons, hasContentEvent_cons,
        ← Bool.or_assoc, ← Option.or_assoc, List.append_assoc, List.append_assoc]

/-- What is inspected are the events of the chunks delivered, as if they had come at once. -/
theorem inspection_emissions (items : List StreamItem) :
    (emissions fromStr p content used items).filter Emission.inspection
      = looks fromStr content used (p.pushAll (delivered items)).1 := by
  have hleft : ∀ u : Option (Nat × Nat), (leftover u).filter Emission.inspection = [] := by
    intro u
    unfold leftover
    split <;> rfl
  induction items generalizing p content used with
  | nil => rfl
  | cons item items ih =>
      cases item with
      | chunk bs =>
          rw [emissions, List.filter_append, List.filter_eq_self.mpr (inspection_looks _),
            List.filter_cons_of_neg Bool.false_ne_true, ih, delivered, SseParser.pushAll,
            looks_append]
      | ended =>
          rw [emissions, List.filter_append, hleft]
          rfl
      | _ =>
          rw [emissions, List.filter_append, hleft]
          rfl

/-- What passes are the chunks, and a failure with its item if there is one. -/
theorem passing_emissions (items : List StreamItem) : ∃ dropped,
    (∀ e ∈ dropped, e = .dropUsage ∨ e = .dropError) ∧
    (emissions fromStr p content used items).filter (fun e => !e.inspection)
      = (delivered items).map (fun bs => .item (.ok bs)) ++
        (((breakage items).map fun e => [.failed, .item (.error e)]).getD [] ++ dropped) := by
  have hleft : ∀ u : Option (Nat × Nat),
      (leftover u).filter (fun e => !e.inspection) = leftover u ∧
        ∀ e ∈ leftover u, e = .dropUsage ∨ e = .dropError := by
    intro u
    unfold leftover
    split <;> simp [Emission.inspection]
  induction items generalizing p content used with
  | nil => exact ⟨[], fun e he => absurd he List.not_mem_nil, rfl⟩
  | cons item items ih =>
      cases item with
      | chunk bs =>
          obtain ⟨dropped, hdropped, hfilter⟩ := @ih (p.push bs).2
            (content || hasContentEvent fromStr (p.push bs).1)
            (used.or (firstUsage fromStr (p.push bs).1))
          refine ⟨dropped, hdropped, ?_⟩
          have hlooks : (looks fromStr content used (p.push bs).1).filter
              (fun e => !e.inspection) = [] := by
            rw [List.filter_eq_nil_iff]
            intro e he
            rw [inspection_looks _ e he]
            exact Bool.false_ne_true
          rw [emissions, List.filter_append, hlooks, List.nil_append, List.filter_cons_of_pos rfl,
            hfilter]
          rfl
      | ended =>
          obtain ⟨hfilter, hdropped⟩ := hleft used
          refine ⟨leftover used ++ [.dropError], ?_, ?_⟩
          · intro e he
            rcases List.mem_append.mp he with hold | hlast
            · exact hdropped e hold
            · exact Or.inr (List.mem_singleton.mp hlast)
          · rw [emissions, List.filter_append, hfilter]
            rfl
      | _ =>
          obtain ⟨hfilter, hdropped⟩ := hleft used
          refine ⟨leftover used, hdropped, ?_⟩
          rw [emissions, List.filter_append, hfilter]
          rfl

theorem usages_looks (events : List String) :
    (looks fromStr content used events).filterMap Emission.usage?
      = if used.isSome then [] else (firstUsage fromStr events).toList := by
  induction events generalizing content used with
  | nil => cases used <;> rfl
  | cons event events ih =>
      have httft : (ttftOf fromStr content event).filterMap Emission.usage? = [] := by
        unfold ttftOf
        split <;> rfl
      rw [looks, List.filterMap_append, List.filterMap_append, httft, ih, List.nil_append,
        firstUsage_cons]
      unfold usageOf
      cases used with
      | some tokens => rfl
      | none => cases SseParser.extractUsage fromStr event <;> rfl

theorem ttft_looks (events : List String) :
    (looks fromStr content used events).count .ttft
      = if !content && hasContentEvent fromStr events then 1 else 0 := by
  induction events generalizing content used with
  | nil => cases content <;> rfl
  | cons event events ih =>
      have husage : (usageOf fromStr used event).count .ttft = 0 := by
        unfold usageOf
        split
        · rfl
        · cases SseParser.extractUsage fromStr event <;> rfl
      rw [looks, List.count_append, List.count_append, husage, ih, hasContentEvent_cons]
      unfold ttftOf
      cases content <;> cases SseParser.isContentEvent fromStr event <;> simp

/-- A fact about what passes, from the chunks and the failure. -/
theorem passed_emissions (items : List StreamItem) :
    (emissions fromStr p content used items).filterMap Emission.item? =
        (delivered items).map .ok ++ ((breakage items).map .error).toList ∧
      (emissions fromStr p content used items).count .failed
        = if (breakage items).isSome then 1 else 0 := by
  obtain ⟨dropped, hdropped, hpassing⟩ := passing_emissions items
  generalize emissions fromStr p content used items = es at hpassing
  have hitems : es.filterMap Emission.item?
      = (es.filter fun e => !e.inspection).filterMap Emission.item? := by
    rw [List.filterMap_filter]
    refine List.filterMap_congr fun e _ => ?_
    cases e <;> rfl
  have hchunks : ((delivered items).map fun bs => Emission.item (.ok bs)).filterMap
      Emission.item? = (delivered items).map .ok := by
    rw [List.filterMap_map]
    exact congrFun List.filterMap_eq_map (delivered items)
  have hdrops : dropped.filterMap Emission.item? = [] ∧ dropped.count .failed = 0 := by
    refine ⟨List.filterMap_eq_nil_iff.mpr fun e he => ?_, List.count_eq_zero.mpr fun hin => ?_⟩
    · rcases hdropped e he with rfl | rfl <;> rfl
    · rcases hdropped _ hin with h | h <;> cases h
  have hcount : ((delivered items).map fun bs => Emission.item (.ok bs)).count .failed = 0 := by
    rw [List.count_eq_zero, List.mem_map]
    rintro ⟨bs, -, h⟩
    cases h
  have hfiltered : (es.filter fun e => !e.inspection).count .failed = es.count .failed :=
    List.count_filter rfl
  rw [hitems, ← hfiltered, hpassing]
  simp only [List.filterMap_append, List.count_append, hchunks, hdrops.1, hdrops.2, hcount]
  cases breakage items <;> exact ⟨rfl, rfl⟩

/-- What a generator does with a sequence of items passes them through. -/
theorem emissions_pass (fromStr : String → Option Value) (items : List StreamItem) :
    PassedThrough fromStr items (emissions fromStr .new false none items) := by
  refine ⟨(passed_emissions items).1, (passed_emissions items).2, ?_, ?_⟩
  · intro segs rest hsegs
    obtain ⟨segs', hsegs', hevents⟩ :=
      SseParser.pushAll_segments (delivered items) SseParser.new (by decide)
    obtain ⟨rfl, -⟩ := hsegs.unique hsegs'
    have hlooks : (looks fromStr false none (SseParser.new.pushAll (delivered items)).1).filterMap
        Emission.usage? = (firstUsage fromStr (SseParser.new.pushAll (delivered items)).1).toList :=
      usages_looks _
    rw [hevents] at hlooks
    refine Eq.trans ?_ hlooks
    rw [← hevents, ← inspection_emissions, List.filterMap_filter]
    refine List.filterMap_congr fun e _ => ?_
    cases e <;> rfl
  · intro segs rest hsegs
    obtain ⟨segs', hsegs', hevents⟩ :=
      SseParser.pushAll_segments (delivered items) SseParser.new (by decide)
    obtain ⟨rfl, -⟩ := hsegs.unique hsegs'
    rw [← hevents, ← List.count_filter (p := Emission.inspection) rfl, inspection_emissions,
      ttft_looks]
    rfl

/-- A stream that is fed a sequence of items does what the generator does. -/
theorem feed_stream (fromStr : String → Option Value) (items : List StreamItem) (c : Callbacks)
    (seconds : Nat) : ∃ s final,
      (proxyStreamPassthrough c.provider seconds c.onUsage c.onError).body = .stream s ∧
      BodyStream.feed fromStr (some s) items
        = (emit c (emissions fromStr .new false none items)).bind fun _ => .ret final := by
  have hfeed : ∃ final, BodyStream.feed fromStr
      (some (generator c (Duration.fromSecs (max seconds 1)) .new false none)) items
        = (emit c (emissions fromStr .new false none items)).bind fun _ => .ret final :=
    feed_eq items
  obtain ⟨final, hfinal⟩ := hfeed
  exact ⟨_, final, rfl, hfinal⟩

/--
**The stream is passed through, and each callback is called at most once.**  For any
sequence of items, finished or not, what the generator does is the same list of emissions
whatever it is given to call.
-/
theorem passed_through (fromStr : String → Option Value) (items : List StreamItem) :
    ∃ es, PassedThrough fromStr items es ∧
      ∀ (c : Callbacks) (seconds : Nat), ∃ s final,
        (proxyStreamPassthrough c.provider seconds c.onUsage c.onError).body = .stream s ∧
        BodyStream.feed fromStr (some s) items = (emit c es).bind fun _ => .ret final := by
  refine ⟨emissions fromStr .new false none items, emissions_pass fromStr items, ?_⟩
  intro c seconds
  exact feed_stream fromStr items c seconds

end

end LlmGateway
