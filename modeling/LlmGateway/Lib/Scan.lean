/-
The best of a list in one pass.

A pass that skips some elements and keeps the best of the others, the earlier one of two
equals, ends with Mathlib's `List.argmax` of what it did not skip.  Only elements at least
as good as some bar matter to a best that reaches it, so an element at the end wins unless
an earlier one is as good.
-/
import Mathlib.Data.List.MinMax

namespace Scan

variable {α κ : Type} [LinearOrder κ] (score : α → κ)

/-- One step of the pass. -/
def keepBest (ok : α → Bool) (best : Option α) (a : α) : Option α :=
  if ok a then
    match best with
    | some b => if score b < score a then some a else best
    | none => some a
  else best

theorem foldl_keepBest (ok : α → Bool) (l : List α) :
    l.foldl (keepBest score ok) none = (l.filter ok).argmax score := by
  induction l using List.reverseRecOn with
  | nil => rfl
  | append_singleton l a ih =>
      rw [List.foldl_append, List.filter_append, ih]
      by_cases hok : ok a = true
      · rw [List.filter_cons_of_pos hok, List.filter_nil, List.argmax_concat]
        simp only [List.foldl_cons, List.foldl_nil, keepBest, if_pos hok]
        cases (l.filter ok).argmax score <;> rfl
      · rw [List.filter_cons_of_neg hok, List.filter_nil, List.append_nil]
        simp [keepBest, hok]

/-- The best of a list is better than all before it and as good as all after it. -/
theorem argmax_eq_some_split (l : List α) (a : α) :
    l.argmax score = some a ↔
      ∃ before after, l = before ++ a :: after ∧ (∀ b ∈ before, score b < score a) ∧
        ∀ b ∈ after, score b ≤ score a := by
  constructor
  · induction l using List.reverseRecOn with
    | nil => simp
    | append_singleton l x ih =>
        intro h
        rw [List.argmax_concat] at h
        cases hbest : l.argmax score with
        | none =>
            simp only [hbest] at h
            obtain rfl := Option.some.inj h
            exact ⟨[], [], by rw [List.argmax_eq_none.mp hbest, List.nil_append], by simp, by simp⟩
        | some b =>
            simp only [hbest] at h ih
            by_cases hlt : score b < score x
            · rw [if_pos hlt] at h
              obtain rfl := Option.some.inj h
              refine ⟨l, [], rfl, ?_, by simp⟩
              intro y hy
              exact (List.le_of_mem_argmax hy hbest).trans_lt hlt
            · rw [if_neg hlt] at h
              obtain ⟨before, after, rfl, hbefore, hafter⟩ := ih h
              obtain rfl := Option.some.inj h
              refine ⟨before, after ++ [x], by simp, hbefore, ?_⟩
              intro y hy
              rcases List.mem_append.mp hy with hy | hy
              · exact hafter y hy
              · rw [List.mem_singleton.mp hy]
                exact not_lt.mp hlt
  · rintro ⟨before, after, rfl, hbefore, hafter⟩
    induction after using List.reverseRecOn with
    | nil =>
        rw [List.argmax_concat]
        cases hbest : before.argmax score with
        | none => rfl
        | some b => exact if_pos (hbefore b (List.argmax_mem hbest))
    | append_singleton after x ih =>
        rw [← List.cons_append, ← List.append_assoc, List.argmax_concat,
          ih fun b hb => hafter b (List.mem_append_left _ hb)]
        exact if_neg (not_lt.mpr (hafter x (by simp)))

/-- The best of those that reach a bar is the best of all, if that reaches it. -/
theorem argmax_filter_le (k : κ) (l : List α) :
    (l.filter fun a => k ≤ score a).argmax score
      = (l.argmax score).filter fun a => k ≤ score a := by
  induction l using List.reverseRecOn with
  | nil => rfl
  | append_singleton l a ih =>
      rw [List.filter_append, List.argmax_concat]
      cases hbest : l.argmax score with
      | none =>
          rw [List.argmax_eq_none.mp hbest]
          by_cases hk : k ≤ score a
          · simp [Option.filter, hk]
          · simp [Option.filter, hk]
      | some b =>
          rw [hbest] at ih
          by_cases hk : k ≤ score a
          · rw [List.filter_cons_of_pos (by simpa using hk), List.filter_nil,
              List.argmax_concat, ih]
            by_cases hb : k ≤ score b
            · by_cases hlt : score b < score a
              · simp [Option.filter, hb, hlt, hk]
              · simp [Option.filter, hb, hlt]
            · have hlt : score b < score a := lt_of_lt_of_le (not_le.mp hb) hk
              simp [Option.filter, hb, hlt, hk]
          · rw [List.filter_cons_of_neg (by simpa using hk), List.filter_nil, List.append_nil, ih]
            by_cases hlt : score b < score a
            · have hb : ¬ k ≤ score b := not_le.mpr (hlt.trans (not_le.mp hk))
              simp [Option.filter, hb, hlt, hk]
            · simp [Option.filter, hlt]

/-- An element at the end is the best unless an earlier one is at least as good. -/
theorem argmax_concat_eq (l : List α) (a : α) :
    (l ++ [a]).argmax score
      = some (((l.filter fun b => score a ≤ score b).argmax score).getD a) := by
  rw [argmax_filter_le, List.argmax_concat]
  cases l.argmax score with
  | none => rfl
  | some b =>
      by_cases hlt : score b < score a
      · simp [Option.filter, hlt, not_le.mpr hlt]
      · simp [Option.filter, hlt, not_lt.mp hlt]

end Scan
