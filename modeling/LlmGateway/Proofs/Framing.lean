/-
Two promises about framing, and where they are kept.

The README lists LF and CRLF delimiters among what the parser handles, and the security
model names a ceiling of 1 MiB for its buffer.  The parser does neither: an event ends at
two consecutive line feeds only, which a stream of CRLF lines does not contain, and
nothing bounds what it keeps while no event ends.

Both results follow from `pushAll_segments`.  A block of lines that each end in a line
feed is cut at its end; lines that end in CRLF are, for the parser, lines that end in a
line feed and are never empty, and such lines are not cut at all.
-/
import LlmGateway.Proofs.SseParser

namespace LlmGateway

open Delimited

/-- A carriage return. -/
def cr : UInt8 := 13

/-! ### Line endings -/

/-- An event as lines of bytes. -/
structure LineEvent where
  lines : List (List UInt8)
  lines_ne : lines ≠ []
  line : ∀ l ∈ lines, l ≠ [] ∧ cr ∉ l ∧ lf ∉ l

namespace LineEvent

/-- The event with each line, and the empty one that closes it, ended by `eol`. -/
def encode (eol : List UInt8) (e : LineEvent) : List UInt8 := e.lines.flatMap (· ++ eol) ++ eol

/-- A stream of events. -/
def stream (eol : List UInt8) (es : List LineEvent) : List UInt8 := es.flatMap (encode eol)

theorem cut_encode (e : LineEvent) : Cut blankLine (e.encode [lf]) :=
  cut_lines (fun l hl => ⟨(e.line l hl).1, (e.line l hl).2.2⟩) e.lines_ne

/-- The lines of a CRLF event, as they look to who ends lines at line feeds. -/
def crLines (e : LineEvent) : List (List UInt8) := e.lines.map (· ++ [cr]) ++ [[cr]]

theorem encode_crlf (e : LineEvent) : e.encode [cr, lf] = e.crLines.flatMap (· ++ [lf]) := by
  unfold encode crLines
  rw [List.flatMap_append, List.flatMap_map]
  simp

theorem crLines_line (e : LineEvent) {l : List UInt8} (hl : l ∈ e.crLines) :
    l ≠ [] ∧ lf ∉ l := by
  have hcr : lf ∉ [cr] := by decide
  rcases List.mem_append.mp hl with hline | hlast
  · obtain ⟨k, hk, rfl⟩ := List.mem_map.mp hline
    refine ⟨by simp, ?_⟩
    rw [List.mem_append, not_or]
    exact ⟨(e.line k hk).2.2, hcr⟩
  · rw [List.mem_singleton.mp hlast]
    exact ⟨by simp, hcr⟩

/-- A CRLF stream has no two line feeds in a row. -/
theorem stream_crlf_uncut (es : List LineEvent) : ¬ blankLine <:+: stream [cr, lf] es := by
  have hlines : stream [cr, lf] es = (es.flatMap crLines).flatMap (· ++ [lf]) := by
    unfold stream
    rw [List.flatMap_assoc]
    congr 1
    funext e
    exact e.encode_crlf
  rw [hlines]
  refine (lines_uncut fun l hl => ?_).2
  obtain ⟨e, -, he⟩ := List.mem_flatMap.mp hl
  exact e.crLines_line he

end LineEvent

namespace SseParser

theorem push_new (bs : List UInt8) :
    ∃ segs, Segments blankLine bs segs (new.push bs).2.buffer ∧
      (new.push bs).1 = segs.filterMap fromUtf8 :=
  push_segments new bs

/-- The parser finds each event of an LF stream that is UTF-8. -/
theorem push_lf (es : List LineEvent) :
    (new.push (LineEvent.stream [lf] es)).1
      = (es.map (LineEvent.encode [lf])).filterMap fromUtf8 := by
  obtain ⟨segs, hsegs, hevents⟩ := push_new (LineEvent.stream [lf] es)
  have hwritten : Segments blankLine (es.map (LineEvent.encode [lf])).flatten
      (es.map (LineEvent.encode [lf])) [] := by
    refine .of_cuts (fun s hs => ?_) (by decide)
    obtain ⟨e, -, rfl⟩ := List.mem_map.mp hs
    exact e.cut_encode
  unfold LineEvent.stream at hsegs hevents ⊢
  rw [List.flatMap_def] at hsegs hevents ⊢
  rw [hevents, (hsegs.unique hwritten).1]

/-- And none at all in a CRLF stream. -/
theorem push_crlf (es : List LineEvent) :
    (new.push (LineEvent.stream [cr, lf] es)).1 = [] := by
  obtain ⟨segs, hsegs, hevents⟩ := push_new (LineEvent.stream [cr, lf] es)
  have hnone : segs = [] := (hsegs.unique (.uncut (LineEvent.stream_crlf_uncut es))).1
  rw [hevents, hnone]
  rfl

/-- Two lists of events tell the two inspections the same, one by one. -/
def Alike (fromStr : String → Option Value) (events events' : List String) : Prop :=
  events'.length = events.length ∧
    ∀ (i : Nat) (e e' : String), events[i]? = some e → events'[i]? = some e' →
      isContentEvent fromStr e' = isContentEvent fromStr e ∧
      extractUsage fromStr e' = extractUsage fromStr e

/--
**LF and CRLF streams are understood alike only if there is nothing to understand**: no
event of the sequence may be UTF-8.
-/
theorem crlf_alike_iff (fromStr : String → Option Value) (es : List LineEvent) :
    Alike fromStr (new.push (LineEvent.stream [lf] es)).1
        (new.push (LineEvent.stream [cr, lf] es)).1
      ↔ ∀ e ∈ es, fromUtf8 (e.encode [lf]) = none := by
  rw [push_lf, push_crlf]
  constructor
  · rintro ⟨hlen, -⟩ e he
    have hnil := List.eq_nil_of_length_eq_zero hlen.symm
    exact List.filterMap_eq_nil_iff.mp hnil _ (List.mem_map_of_mem he)
  · intro hnone
    have hnil : (es.map (LineEvent.encode [lf])).filterMap fromUtf8 = [] := by
      rw [List.filterMap_eq_nil_iff]
      intro bs hbs
      obtain ⟨e, he, rfl⟩ := List.mem_map.mp hbs
      exact hnone e he
    rw [hnil]
    refine ⟨rfl, fun i e e' he => ?_⟩
    cases he

/-- The event that ends most streams. -/
def doneEvent : LineEvent where
  lines := [asBytes "data: [DONE]"]
  lines_ne := by decide
  line := by decide

/-- It is seen with line feeds, and is not with CRLF. -/
theorem doneEvent_not_alike :
    ¬ ∀ (fromStr : String → Option Value) (es : List LineEvent),
      Alike fromStr (new.push (LineEvent.stream [lf] es)).1
        (new.push (LineEvent.stream [cr, lf] es)).1 := by
  intro h
  have hlen := (h (fun _ => none) [doneEvent]).1
  revert hlen
  decide

/-! ### The buffer -/

/-- The buffer is what follows the last event of the stream. -/
theorem pushAll_buffer {chunks segs : List (List UInt8)} {rest : List UInt8}
    (h : Segments blankLine chunks.flatten segs rest) : (new.pushAll chunks).2.buffer = rest := by
  obtain ⟨segs', hsegs, -⟩ := pushAll_segments chunks new (by decide)
  exact (hsegs.unique h).2

/-- 1 MiB. -/
def bufferCeiling : Nat := 1024 * 1024

/--
**The buffer is below the ceiling exactly when the stream is delimited often enough**: after
each chunk, what follows the last event of the stream so far is at most 1 MiB.
-/
theorem buffer_bounded_iff (chunks : List (List UInt8)) :
    (∀ pre, pre <+: chunks → (new.pushAll pre).2.buffer.length ≤ bufferCeiling)
      ↔ ∀ pre, pre <+: chunks → ∀ segs rest, Segments blankLine pre.flatten segs rest →
          rest.length ≤ bufferCeiling := by
  refine forall_congr' fun pre => forall_congr' fun _ => ?_
  constructor
  · intro hle segs rest hrest
    rw [← pushAll_buffer hrest]
    exact hle
  · intro h
    obtain ⟨segs, hsegs, -⟩ := pushAll_segments pre new (by decide)
    exact h segs _ hsegs

/-- One chunk of letters, one byte more than 1 MiB. -/
def flood : List UInt8 := List.replicate (bufferCeiling + 1) 97

theorem flood_overflows :
    ¬ ∀ chunks pre : List (List UInt8), pre <+: chunks →
      (new.pushAll pre).2.buffer.length ≤ bufferCeiling := by
  intro h
  have huncut : ¬ blankLine <:+: [flood].flatten := by
    intro hin
    have hlf : lf ∈ [flood].flatten := hin.subset (by simp)
    rw [List.flatten_singleton] at hlf
    exact absurd (List.eq_of_mem_replicate hlf) (by decide)
  have hlong := h [flood] [flood] (List.prefix_refl _)
  rw [pushAll_buffer (.uncut huncut), List.flatten_singleton, flood, List.length_replicate] at hlong
  omega

end SseParser

end LlmGateway
