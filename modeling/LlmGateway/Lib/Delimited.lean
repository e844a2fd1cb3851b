/-
Cutting a stream at a delimiter.

`Segments d xs ss r` says that cutting `xs` after the first occurrence of `d`, and what
remains again, gives the pieces `ss` and leaves `r`, in which there is no `d`.  Any stream
is cut in exactly one way.

What makes an incremental cutter right is `Segments.append`: a piece that was cut off stays
cut off whatever is appended, so one may cut what has arrived and go on with the rest.
-/
import Mathlib.Data.List.Infix

namespace Delimited

variable {α : Type} {d : List α}

/-- `s` ends in `d`, and `d` occurs nowhere earlier in it. -/
def Cut (d s : List α) : Prop := d <:+ s ∧ ¬ d <:+: s.dropLast

/-- The pieces of a stream, and the rest without a delimiter. -/
inductive Segments (d : List α) : List α → List (List α) → List α → Prop
  | uncut {xs : List α} (h : ¬ d <:+: xs) : Segments d xs [] xs
  | cut {s xs r : List α} {ss : List (List α)} (h : Cut d s) (hrest : Segments d xs ss r) :
      Segments d (s ++ xs) (s :: ss) r

/-- Two cuts at the front of one stream are the same. -/
theorem Cut.eq_of_append {s s' xs xs' : List α} (h : Cut d s) (h' : Cut d s')
    (heq : s ++ xs = s' ++ xs') : s = s' := by
  have hshort : ∀ {s s' xs xs' : List α}, Cut d s → Cut d s' → s ++ xs = s' ++ xs' →
      ¬ s.length < s'.length := by
    intro s s' xs xs' h h' heq hlt
    have hpre : s <+: s' := List.prefix_of_prefix_length_le
      ⟨xs, heq⟩ (List.prefix_append s' xs') (Nat.le_of_lt hlt)
    refine h'.2 (h.1.isInfix.trans (List.IsPrefix.isInfix ?_))
    exact List.prefix_of_prefix_length_le hpre (List.dropLast_prefix s')
      (by rw [List.length_dropLast]; omega)
  have hlen : s.length = s'.length := by
    have := hshort h h' heq
    have := hshort h' h heq.symm
    omega
  exact (List.append_inj heq hlen).1

theorem Cut.occurs {s : List α} (h : Cut d s) (xs : List α) : d <:+: s ++ xs :=
  h.1.isInfix.trans (List.prefix_append s xs).isInfix

namespace Segments

variable {xs ys r r' : List α} {ss ts : List (List α)}

theorem rest_uncut (h : Segments d xs ss r) : ¬ d <:+: r := by
  induction h with
  | uncut h => exact h
  | cut _ _ ih => exact ih

/-- Nothing is lost. -/
theorem flatten (h : Segments d xs ss r) : xs = ss.flatten ++ r := by
  induction h with
  | uncut _ => rfl
  | cut _ _ ih => rw [List.flatten_cons, List.append_assoc, ← ih]

/-- **Cutting can be done as the stream arrives.** -/
theorem append (h : Segments d xs ss r) (h' : Segments d (r ++ ys) ts r') :
    Segments d (xs ++ ys) (ss ++ ts) r' := by
  induction h with
  | uncut _ => exact h'
  | cut hcut _ ih =>
      rw [List.append_assoc]
      exact .cut hcut (ih h')

/-- A stream is cut in one way only. -/
theorem unique {ss' : List (List α)} (h : Segments d xs ss r) (h' : Segments d xs ss' r') :
    ss = ss' ∧ r = r' := by
  induction h generalizing ss' with
  | @uncut xs hn =>
      generalize hxs : xs = zs at h'
      cases h' with
      | uncut _ => exact ⟨rfl, rfl⟩
      | cut hcut _ =>
          rw [hxs] at hn
          exact absurd (hcut.occurs _) hn
  | @cut s xs r ss hcut _ ih =>
      generalize hxs : s ++ xs = zs at h'
      cases h' with
      | uncut hn =>
          rw [← hxs] at hn
          exact absurd (hcut.occurs _) hn
      | @cut s' xs' _ ss' hcut' hrest' =>
          have hs : s = s' := hcut.eq_of_append hcut' hxs
          subst hs
          obtain ⟨hss, hr⟩ := ih (List.append_cancel_left hxs ▸ hrest')
          exact ⟨by rw [hss], hr⟩

/-- Pieces that are cut at their ends only are what a stream of them is cut into. -/
theorem of_cuts (h : ∀ s ∈ ss, Cut d s) (hd : d ≠ []) : Segments d ss.flatten ss [] := by
  induction ss with
  | nil =>
      refine .uncut fun hin => hd ?_
      exact List.infix_nil.mp hin
  | cons s ss ih =>
      rw [List.flatten_cons]
      exact .cut (h s List.mem_cons_self) (ih fun s' hs' => h s' (List.mem_cons_of_mem _ hs'))

end Segments

/-! ### Lines -/

section Lines

variable {a : α} {l rest : List α} {ls : List (List α)}

/-- Two terminators in a row do not start inside a line. -/
theorem double_infix_line (hl : a ∉ l) (h : [a, a] <:+: l ++ a :: rest) :
    rest.head? = some a ∨ [a, a] <:+: rest := by
  induction l with
  | nil =>
      rw [List.nil_append, List.infix_cons_iff] at h
      rcases h with hpre | hin
      · left
        obtain ⟨ys, rfl⟩ := (List.cons_prefix_cons.mp hpre).2
        rfl
      · exact Or.inr hin
  | cons b l ih =>
      rw [List.mem_cons, not_or] at hl
      rw [List.cons_append, List.infix_cons_iff] at h
      rcases h with hpre | hin
      · exact absurd (List.cons_prefix_cons.mp hpre).1 hl.1
      · exact ih hl.2 hin

/-- Lines that are not empty, each with its terminator, hold no two terminators in a row. -/
theorem lines_uncut (hls : ∀ l ∈ ls, l ≠ [] ∧ a ∉ l) :
    (ls.flatMap (· ++ [a])).head? ≠ some a ∧ ¬ [a, a] <:+: ls.flatMap (· ++ [a]) := by
  induction ls with
  | nil => exact ⟨by simp, fun h => by simpa using List.infix_nil.mp h⟩
  | cons l ls ih =>
      obtain ⟨hne, hl⟩ := hls l List.mem_cons_self
      obtain ⟨hhead, hrest⟩ := ih fun l' hl' => hls l' (List.mem_cons_of_mem _ hl')
      have hcons : (l :: ls).flatMap (· ++ [a]) = l ++ a :: ls.flatMap (· ++ [a]) := by simp
      rw [hcons]
      refine ⟨?_, fun hin => ?_⟩
      · cases l with
        | nil => exact absurd rfl hne
        | cons b l =>
            intro hb
            rw [List.cons_append, List.head?_cons, Option.some.injEq] at hb
            exact hl (hb ▸ List.mem_cons_self)
      · rcases double_infix_line hl hin with hstart | hin
        · exact hhead hstart
        · exact hrest hin

/-- **A block of lines, closed by an empty one, is cut at its end only.** -/
theorem cut_lines (hls : ∀ l ∈ ls, l ≠ [] ∧ a ∉ l) (hne : ls ≠ []) :
    Cut [a, a] (ls.flatMap (· ++ [a]) ++ [a]) := by
  refine ⟨?_, ?_⟩
  · refine ⟨ls.dropLast.flatMap (· ++ [a]) ++ ls.getLast hne, ?_⟩
    conv_rhs => rw [← List.dropLast_concat_getLast hne]
    simp
  · rw [List.dropLast_concat]
    exact (lines_uncut hls).2

end Lines

end Delimited
