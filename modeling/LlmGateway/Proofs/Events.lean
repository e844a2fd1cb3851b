/-
Event streams as servers write them.

An event is a block of `data: ` lines closed by an empty line.  However the network splits
a stream of them, the parser hands on each event as it was written, and what is read off
its lines are the documents that were put there.  So the usage a streaming request is
charged is that of the first document that has one.
-/
import LlmGateway.Proofs.Rust
import LlmGateway.Proofs.Ghost
import LlmGateway.Proofs.SseParser

namespace LlmGateway

open Delimited

/-! ### The format -/

/-- An event, by the texts of its data lines. -/
structure SseEvent where
  data : List String
  data_ne : data ≠ []
  /-- A text is on one line and does not end in a carriage return. -/
  line : ∀ t ∈ data, '\n' ∉ t.toList ∧ t.toList.getLast? ≠ some '\r'

namespace SseEvent

/-- `data: ` and the text. -/
def dataLine (text : String) : List Char := "data: ".toList ++ text.toList

theorem dataLine_eq (text : String) : dataLine text = "data: ".toList ++ text.toList := rfl

/-- The event as it is written. -/
def text (e : SseEvent) : String :=
  String.ofList ((e.data.map dataLine).flatMap (· ++ ['\n']) ++ ['\n'])

/-- The bytes of the event. -/
def bytes (e : SseEvent) : List UInt8 := asBytes e.text

variable (e : SseEvent)

theorem dataLine_ends (l : List Char) (hl : l ∈ e.data.map dataLine) :
    '\n' ∉ l ∧ l.getLast? ≠ some '\r' := by
  obtain ⟨t, ht, rfl⟩ := List.mem_map.mp hl
  obtain ⟨hlf, hcr⟩ := e.line t ht
  refine ⟨?_, ?_⟩
  · intro hmem
    rcases List.mem_append.mp hmem with hpre | htext
    · exact absurd hpre (by decide)
    · exact hlf htext
  · intro hlast
    rw [dataLine_eq, List.getLast?_append] at hlast
    cases htext : t.toList.getLast? with
    | none =>
        rw [htext] at hlast
        exact absurd hlast (by decide)
    | some c =>
        rw [htext] at hlast
        exact hcr (htext.trans hlast)

/-- The bytes of an event are a block of lines. -/
theorem bytes_eq :
    e.bytes = (e.data.map fun t => asBytes (String.ofList (dataLine t))).flatMap (· ++ [lf])
      ++ [lf] := by
  have hlf : String.utf8EncodeChar '\n' = [lf] := by decide
  have hline : ∀ l : List Char, (l ++ ['\n']).flatMap String.utf8EncodeChar
      = asBytes (String.ofList l) ++ [lf] := by
    intro l
    rw [List.flatMap_append, List.flatMap_singleton, hlf, asBytes_ofList]
  unfold bytes text
  rw [asBytes_ofList, List.flatMap_append, List.flatMap_singleton, hlf, List.flatMap_assoc,
    List.flatMap_map, List.flatMap_map]
  simp only [hline]

theorem bytes_cut : Cut blankLine e.bytes := by
  rw [bytes_eq]
  refine cut_lines ?_ ?_
  · intro l hl
    obtain ⟨t, ht, rfl⟩ := List.mem_map.mp hl
    refine ⟨?_, fun hlf => ?_⟩
    · rw [asBytes_ofList, dataLine_eq, List.flatMap_append]
      simp
    · exact (e.dataLine_ends _ (List.mem_map_of_mem ht)).1
        (ascii_mem_asBytes (a := '\n') (by decide) hlf)
  · intro hnil
    exact e.data_ne (List.map_eq_nil_iff.mp hnil)

/-- The lines of an event are its data lines, and the empty one. -/
theorem lines_text : lines e.text = (e.data.map fun t => String.ofList (dataLine t)) ++ [""] := by
  have hclose : (e.data.map dataLine).flatMap (· ++ ['\n']) ++ ['\n']
      = (e.data.map dataLine ++ [[]]).flatMap (· ++ ['\n']) := by
    simp
  unfold text
  rw [hclose, lines_flatMap, List.map_append, List.map_map]
  · rfl
  · intro l hl
    rcases List.mem_append.mp hl with hdata | hempty
    · exact e.dataLine_ends l hdata
    · rw [List.mem_singleton.mp hempty]
      exact ⟨List.not_mem_nil, by decide⟩

end SseEvent

/-! ### What is read -/

/-- The document a text stands for. -/
def document (fromStr : String → Option Value) (text : String) : Option Value :=
  if text = "[DONE]" then none else fromStr text

/-- The documents of a stream of events. -/
def documents (fromStr : String → Option Value) (events : List SseEvent) : List Value :=
  (events.flatMap SseEvent.data).filterMap (document fromStr)

namespace SseParser

variable (fromStr : String → Option Value)

theorem dataValues_text (e : SseEvent) :
    dataValues fromStr e.text = e.data.filterMap (document fromStr) := by
  unfold dataValues
  rw [SseEvent.lines_text, List.filterMap_append, List.filterMap_map]
  have hlast : stripPrefix "data: " "" = none := by decide
  have hline : ∀ t : String,
      stripPrefix "data: " (String.ofList (SseEvent.dataLine t)) = some t := by
    intro t
    have h := stripPrefix_append "data: ".toList t.toList
    simpa only [SseEvent.dataLine_eq, String.ofList_toList] using h
  simp only [List.filterMap_cons, List.filterMap_nil, hlast, List.append_nil]
  refine List.filterMap_congr fun t _ => ?_
  simp only [Function.comp_apply, hline]
  rfl

/-- **However a stream of events is split, the parser hands on the events.** -/
theorem pushAll_events (events : List SseEvent) (chunks : List (List UInt8))
    (h : chunks.flatten = events.flatMap SseEvent.bytes) :
    (new.pushAll chunks).1 = events.map SseEvent.text := by
  obtain ⟨segs, hsegs, hevents⟩ := pushAll_segments chunks new (by decide)
  have hwritten : Segments blankLine (events.map SseEvent.bytes).flatten
      (events.map SseEvent.bytes) [] := by
    refine .of_cuts (fun s hs => ?_) (by decide)
    obtain ⟨e, -, rfl⟩ := List.mem_map.mp hs
    exact e.bytes_cut
  rw [h, List.flatMap_def] at hsegs
  obtain ⟨rfl, -⟩ := hsegs.unique hwritten
  rw [hevents, List.filterMap_map]
  have hutf : fromUtf8 ∘ SseEvent.bytes = some ∘ SseEvent.text := by
    funext e
    exact fromUtf8_asBytes e.text
  rw [hutf, List.filterMap_eq_map]

end SseParser

/-- The usage of a stream is that of the first document that has a usage member. -/
theorem streamUsage_events {x : Crates} {events : List SseEvent} {chunks : List (List UInt8)}
    (h : chunks.flatten = events.flatMap SseEvent.bytes) :
    streamUsage x chunks = (documents x.fromStr events).findSome? fun v =>
      (v.get "usage").map SseParser.usageTokens := by
  unfold streamUsage documents
  rw [SseParser.pushAll_events events chunks h]
  clear h
  induction events with
  | nil => rfl
  | cons e events ih =>
      rw [List.map_cons, List.findSome?_cons, List.flatMap_cons, List.filterMap_append,
        List.findSome?_append, ← ih, SseParser.extractUsage, SseParser.dataValues_text]
      cases (e.data.filterMap (document x.fromStr)).findSome? fun v =>
        (v.get "usage").map SseParser.usageTokens <;> rfl

end LlmGateway
