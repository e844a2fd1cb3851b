/-
The parser cuts the stream where the delimiter is, however the network splits it.

`Segments` is the specification: the byte stream is cut after each first occurrence of
two line feeds.  One `push` cuts what is in the buffer, and what it leaves holds no
delimiter; `Segments.append` does the rest.
-/
import LlmGateway.Proxy.SseParser
import LlmGateway.Lib.Delimited

namespace LlmGateway

open Delimited

/-- The delimiter of events. -/
abbrev blankLine : List UInt8 := [lf, lf]

namespace SseParser

/-! ### The first blank line -/

theorem findEventEnd_none {buffer : List UInt8} (h : findEventEnd buffer = none) :
    ¬ blankLine <:+: buffer := by
  induction buffer with
  | nil => decide
  | cons b rest ih =>
      unfold findEventEnd at h
      by_cases hb : b = lf ∧ rest.head? = some lf
      · rw [if_pos hb] at h
        cases h
      · rw [if_neg hb, Option.map_eq_none_iff] at h
        rw [List.infix_cons_iff]
        rintro (hpre | hin)
        · obtain ⟨hlf, hrest⟩ := List.cons_prefix_cons.mp hpre
          obtain ⟨ys, rfl⟩ := hrest
          exact hb ⟨hlf.symm, rfl⟩
        · exact ih h hin

theorem findEventEnd_some {buffer : List UInt8} {idx : Nat} (h : findEventEnd buffer = some idx) :
    Cut blankLine (buffer.take (idx + 2)) ∧ idx + 2 ≤ buffer.length := by
  induction buffer generalizing idx with
  | nil => cases h
  | cons b rest ih =>
      unfold findEventEnd at h
      by_cases hb : b = lf ∧ rest.head? = some lf
      · rw [if_pos hb] at h
        cases h
        obtain ⟨rfl, hhead⟩ := hb
        cases rest with
        | nil => cases hhead
        | cons c cs =>
            obtain rfl : c = lf := Option.some.inj hhead
            have hcut : Cut blankLine blankLine := ⟨List.suffix_refl _, by decide⟩
            exact ⟨hcut, by simp⟩
      · rw [if_neg hb, Option.map_eq_some_iff] at h
        obtain ⟨i, hi, rfl⟩ := h
        obtain ⟨⟨hsuf, hfirst⟩, hlen⟩ := ih hi
        have htake : (b :: rest).take (i + 1 + 2) = b :: rest.take (i + 2) := rfl
        have hne : rest.take (i + 2) ≠ [] := by
          intro hnil
          rw [hnil] at hsuf
          exact absurd hsuf (by decide)
        refine ⟨?_, by simpa using hlen⟩
        rw [htake]
        refine ⟨hsuf.trans (List.suffix_cons b _), ?_⟩
        rw [List.dropLast_cons_of_ne_nil hne, List.infix_cons_iff]
        rintro (hpre | hin)
        · -- a delimiter at the front would have been found there
          obtain ⟨hlf, hrest⟩ := List.cons_prefix_cons.mp hpre
          have hlong := hrest.trans ((List.dropLast_prefix _).trans (List.take_prefix (i + 2) rest))
          obtain ⟨ys, rfl⟩ := hlong
          exact hb ⟨hlf.symm, rfl⟩
        · exact hfirst hin

/-! ### One push -/

theorem extract_of_some {buffer : List UInt8} {idx : Nat} (n : Nat)
    (h : findEventEnd buffer = some idx) :
    extract (n + 1) buffer
      = ((fromUtf8 (buffer.take (idx + 2))).toList ++ (extract n (buffer.drop (idx + 2))).1,
          (extract n (buffer.drop (idx + 2))).2) := by
  rw [extract, h]
  cases hutf : fromUtf8 (buffer.take (idx + 2)) with
  | none => simp only [hutf, Option.toList_none, List.nil_append]
  | some event => simp only [hutf, Option.toList_some, List.singleton_append]

/-- The loop of `push` cuts the buffer, and drops the pieces that are not UTF-8. -/
theorem extract_segments (n : Nat) (buffer : List UInt8) (h : buffer.length ≤ n) :
    ∃ segs, Segments blankLine buffer segs (extract n buffer).2 ∧
      (extract n buffer).1 = segs.filterMap fromUtf8 := by
  induction n generalizing buffer with
  | zero =>
      have hnil : buffer = [] := List.eq_nil_of_length_eq_zero (by omega)
      subst hnil
      exact ⟨[], .uncut (by decide), rfl⟩
  | succ n ih =>
      cases hfind : findEventEnd buffer with
      | none =>
          rw [extract, hfind]
          exact ⟨[], .uncut (findEventEnd_none hfind), rfl⟩
      | some idx =>
          obtain ⟨hcut, hlen⟩ := findEventEnd_some hfind
          obtain ⟨segs, hsegs, hevents⟩ := ih (buffer.drop (idx + 2))
            (by rw [List.length_drop]; omega)
          have hall := Segments.cut hcut hsegs
          rw [List.take_append_drop] at hall
          rw [extract_of_some n hfind]
          refine ⟨buffer.take (idx + 2) :: segs, hall, ?_⟩
          rw [hevents, List.filterMap_cons]
          cases fromUtf8 (buffer.take (idx + 2)) <;> rfl

theorem push_segments (p : SseParser) (chunk : List UInt8) :
    ∃ segs, Segments blankLine (p.buffer ++ chunk) segs (p.push chunk).2.buffer ∧
      (p.push chunk).1 = segs.filterMap fromUtf8 :=
  extract_segments _ _ (le_refl _)

/-! ### Any chunking -/

/-- Chunks pushed in order cut the buffer and the chunks as one stream. -/
theorem pushAll_segments (chunks : List (List UInt8)) (p : SseParser)
    (hp : ¬ blankLine <:+: p.buffer) :
    ∃ segs, Segments blankLine (p.buffer ++ chunks.flatten) segs (p.pushAll chunks).2.buffer ∧
      (p.pushAll chunks).1 = segs.filterMap fromUtf8 := by
  induction chunks generalizing p with
  | nil =>
      refine ⟨[], ?_, rfl⟩
      rw [List.flatten_nil, List.append_nil]
      exact .uncut hp
  | cons c cs ih =>
      obtain ⟨first, hfirst, hevents⟩ := push_segments p c
      obtain ⟨more, hmore, hrest⟩ := ih (p.push c).2 hfirst.rest_uncut
      refine ⟨first ++ more, ?_, ?_⟩
      · rw [List.flatten_cons, ← List.append_assoc]
        exact hfirst.append hmore
      · rw [List.filterMap_append, ← hevents, ← hrest]
        rfl

/--
**The parser is lossless and does not see chunk boundaries.**  Whatever the chunks, the
events are the segments of the whole byte string that are UTF-8, in order, and the buffer is
what no delimiter follows; both depend on the concatenation of the chunks only.
-/
theorem pushAll_chunks :
    (∀ chunks : List (List UInt8), ∃ segs,
      Segments blankLine chunks.flatten segs (new.pushAll chunks).2.buffer ∧
      (new.pushAll chunks).1 = segs.filterMap fromUtf8 ∧
      chunks.flatten = segs.flatten ++ (new.pushAll chunks).2.buffer ∧
      ¬ blankLine <:+: (new.pushAll chunks).2.buffer) ∧
    ∀ chunks chunks' : List (List UInt8), chunks.flatten = chunks'.flatten →
      new.pushAll chunks = new.pushAll chunks' := by
  refine ⟨?_, ?_⟩
  · intro chunks
    obtain ⟨segs, hsegs, hevents⟩ := pushAll_segments chunks new (by decide)
    exact ⟨segs, hsegs, hevents, hsegs.flatten, hsegs.rest_uncut⟩
  · intro chunks chunks' heq
    obtain ⟨segs, hsegs, hevents⟩ := pushAll_segments chunks new (by decide)
    obtain ⟨segs', hsegs', hevents'⟩ := pushAll_segments chunks' new (by decide)
    rw [heq] at hsegs
    obtain ⟨rfl, hbuffer⟩ := hsegs.unique hsegs'
    refine Prod.ext (hevents.trans hevents'.symm) ?_
    exact congrArg SseParser.mk hbuffer

/-- A blank line split over two chunks, and in one. -/
theorem pushAll_chunks_split :
    new.pushAll [[0x64, lf], [lf]] = new.pushAll [[], [0x64, lf, lf]] :=
  pushAll_chunks.2 [[0x64, lf], [lf]] [[], [0x64, lf, lf]] rfl

end SseParser

end LlmGateway
