/-
What a rate over time allows, said without a level.

A regulator has a capacity and a rate.  What has been drawn so far is its history, and a
further draw fits if no window that ends now would hold more than the capacity and what
comes in while the window lasts.  Every window begins with a draw, and the empty one bounds
the draw by the capacity.

A store refills by a rule of its own and never looks at its history.  `Room` is what ties the
two together: the level of the store is the room the history leaves.  Waiting and drawing
change it as a store changes its level, so a store that starts full and follows the two rules
grants exactly what fits.
-/
import Mathlib.Algebra.Order.Field.Basic
import Mathlib.Algebra.Order.Ring.Rat
import Mathlib.Algebra.BigOperators.Group.List.Basic
import Mathlib.Tactic.Linarith

/-- A capacity, and a rate on a clock. -/
structure Regulator (T : Type) where
  capacity : ℚ
  rate : ℚ
  clock : T → ℚ

namespace Regulator

variable {T : Type} (r : Regulator T)

/-- What is drawn in a window. -/
def total (window : List (T × ℚ)) : ℚ := (window.map Prod.snd).sum

/-- Drawing `c` at `t` keeps every window within its allowance. -/
def Fits (history : List (T × ℚ)) (t : T) (c : ℚ) : Prop :=
  c ≤ r.capacity ∧ ∀ before x after, history = before ++ x :: after →
    c + total (x :: after) ≤ r.capacity + r.rate * (r.clock t - r.clock x.1)

/-- The most that fits. -/
def Room (history : List (T × ℚ)) (t : T) (level : ℚ) : Prop :=
  ∀ c, c ≤ level ↔ r.Fits history t c

instance decidableWindows {P : T × ℚ → List (T × ℚ) → Prop} [∀ x after, Decidable (P x after)] :
    ∀ history, Decidable (∀ before x after, history = before ++ x :: after → P x after)
  | [] => isTrue (by simp)
  | y :: history =>
      have := decidableWindows (P := P) history
      decidable_of_iff
        (P y history ∧ ∀ before x after, history = before ++ x :: after → P x after) (by
          constructor
          · rintro ⟨hfirst, hrest⟩ before x after hsplit
            cases before with
            | nil =>
                obtain ⟨rfl, rfl⟩ := List.cons.inj hsplit
                exact hfirst
            | cons z before => exact hrest before x after (List.cons.inj hsplit).2
          · intro h
            refine ⟨h [] y history rfl, ?_⟩
            intro before x after hsplit
            exact h (y :: before) x after (by rw [hsplit, List.cons_append]))

instance decidableFits (history : List (T × ℚ)) (t : T) (c : ℚ) :
    Decidable (r.Fits history t c) :=
  inferInstanceAs (Decidable (_ ∧ _))

/-- What is drawn when `c` is asked for, all or nothing. -/
def drawn (history : List (T × ℚ)) (t : T) (c : ℚ) : ℚ :=
  if r.Fits history t c then c else 0

variable {r} {history : List (T × ℚ)} {t u : T} {c d level : ℚ}

theorem total_append (window after : List (T × ℚ)) :
    total (window ++ after) = total window + total after := by
  unfold total
  rw [List.map_append, List.sum_append]

theorem total_single (t : T) (d : ℚ) : total [(t, d)] = d := by
  simp [total]

theorem fits_nil : r.Fits [] t c ↔ c ≤ r.capacity := by
  constructor
  · intro h
    exact h.1
  · intro h
    refine ⟨h, ?_⟩
    intro before x after hsplit
    exact absurd hsplit (by simp)

/-- A later draw fits if it would have fitted before with what came in since. -/
theorem fits_wait (hrate : 0 ≤ r.rate * (r.clock t - r.clock u)) :
    r.Fits history t c ↔
      c ≤ r.capacity ∧ r.Fits history u (c - r.rate * (r.clock t - r.clock u)) := by
  constructor
  · rintro ⟨hcap, hwindows⟩
    refine ⟨hcap, by linarith, ?_⟩
    intro before x after hsplit
    have := hwindows before x after hsplit
    linarith
  · rintro ⟨hcap, -, hwindows⟩
    refine ⟨hcap, ?_⟩
    intro before x after hsplit
    have := hwindows before x after hsplit
    linarith

/-- A draw takes its room from all windows, the one it begins included. -/
theorem fits_draw : r.Fits (history ++ [(t, d)]) t c ↔
    c ≤ r.capacity ∧ r.Fits history t (c + d) := by
  constructor
  · rintro ⟨hcap, hwindows⟩
    refine ⟨hcap, ?_, ?_⟩
    · have hlast := hwindows history (t, d) [] rfl
      rw [total_single, sub_self, mul_zero, add_zero] at hlast
      exact hlast
    · intro before x after hsplit
      have hwindow := hwindows before x (after ++ [(t, d)]) (by simp [hsplit])
      rw [← List.cons_append, total_append, total_single] at hwindow
      linarith
  · rintro ⟨hcap, hdrawn, hwindows⟩
    refine ⟨hcap, ?_⟩
    intro before x after hsplit
    rcases List.eq_nil_or_concat after with rfl | ⟨init, last, rfl⟩
    · obtain ⟨-, hx⟩ := List.append_inj' hsplit rfl
      obtain rfl := List.singleton_inj.mp hx
      rw [total_single, sub_self, mul_zero, add_zero]
      exact hdrawn
    · have hsplit' : history ++ [(t, d)] = (before ++ x :: init) ++ [last] := by
        rw [hsplit]
        simp
      obtain ⟨hhistory, hlast⟩ := List.append_inj' hsplit' rfl
      obtain rfl := List.singleton_inj.mp hlast
      have hwindow := hwindows before x init hhistory
      rw [List.concat_eq_append, ← List.cons_append, total_append, total_single]
      linarith

/-- The whole capacity is room, at first. -/
theorem Room.nil : r.Room [] t r.capacity :=
  fun _ => fits_nil.symm

/-- While one waits the room grows with the rate, up to the capacity. -/
theorem Room.wait (h : r.Room history u level)
    (hrate : 0 ≤ r.rate * (r.clock t - r.clock u)) :
    r.Room history t (min (level + r.rate * (r.clock t - r.clock u)) r.capacity) := by
  intro c
  rw [fits_wait hrate, ← h, le_min_iff, sub_le_iff_le_add, and_comm]

/-- A draw leaves that much less room; what is given back is room up to the capacity. -/
theorem Room.draw (h : r.Room history t level) (d : ℚ) :
    r.Room (history ++ [(t, d)]) t (min (level - d) r.capacity) := by
  intro c
  rw [fits_draw, ← h, le_min_iff, le_sub_iff_add_le, and_comm]

end Regulator
