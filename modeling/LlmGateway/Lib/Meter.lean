/-
Metered stores, and how much can be drawn from one in a window of time.

A meter has a level that grows with time at a bounded rate, is never above a capacity
and never below zero, and that an event lowers by at least what it draws.  Nothing more
is needed for the bound: the level at the start of a window is at most the capacity, it
gains at most `rate` a second while the window lasts, and what has been drawn is what is
missing at the end.

The level is the potential of the argument.  It is a function of the state *and* the
time, so that a store which refills lazily is covered: what such a store holds between
two events is what it would find if it looked.
-/
import Mathlib.Algebra.Order.Field.Basic
import Mathlib.Algebra.Order.Ring.Rat
import Mathlib.Tactic.Linarith

/-- A store with states `S` on which events `E` happen at times `T`. -/
structure Meter (S E T : Type) where
  step : S → T → E → S
  level : S → T → ℚ
  /-- What an event draws; negative if it gives something back. -/
  drawn : S → T → E → ℚ
  capacity : ℚ
  rate : ℚ
  clock : T → ℚ

namespace Meter

variable {S E T : Type} [LinearOrder T]

/-- What makes a store a metered one.  `Valid s t`: the state `s` is as an event at `t` may
have left it. -/
structure Lawful (m : Meter S E T) (Valid : S → T → Prop) (Event : E → Prop) : Prop where
  clock_mono : ∀ t u, t ≤ u → m.clock t ≤ m.clock u
  rate_nonneg : 0 ≤ m.rate
  valid_step : ∀ s t u e, Valid s t → t ≤ u → Event e → Valid (m.step s u e) u
  level_nonneg : ∀ s t u, Valid s t → t ≤ u → 0 ≤ m.level s u
  level_le : ∀ s t u, Valid s t → t ≤ u → m.level s u ≤ m.capacity
  level_grows : ∀ s t u, Valid s t → t ≤ u →
    m.level s u ≤ m.level s t + m.rate * (m.clock u - m.clock t)
  level_step : ∀ s t u e, Valid s t → t ≤ u → Event e →
    m.level (m.step s u e) u + m.drawn s u e ≤ m.level s u

/-- The state after a list of timed events. -/
def run (m : Meter S E T) (s : S) : List (T × E) → S
  | [] => s
  | (t, e) :: es => run m (m.step s t e) es

/-- What the events of a run draw between the times `a` and `b`. -/
def drawnWithin (m : Meter S E T) (a b : T) (s : S) : List (T × E) → ℚ
  | [] => 0
  | (t, e) :: es =>
      (if a ≤ t ∧ t ≤ b then m.drawn s t e else 0) + drawnWithin m a b (m.step s t e) es

/-- The events come in the order of their times, none before `t`. -/
def Timed (t : T) : List (T × E) → Prop
  | [] => True
  | (u, _) :: es => t ≤ u ∧ Timed u es

theorem timed_iff_pairwise {t : T} {es : List (T × E)} :
    Timed t es ↔ (t :: es.map Prod.fst).Pairwise (· ≤ ·) := by
  induction es generalizing t with
  | nil => simp [Timed]
  | cons x es ih =>
      obtain ⟨u, e⟩ := x
      simp only [Timed, ih, List.map_cons, List.pairwise_cons, List.mem_cons, forall_eq_or_imp]
      constructor
      · rintro ⟨htu, hall, hes⟩
        exact ⟨⟨htu, fun v hv => htu.trans (hall v hv)⟩, hall, hes⟩
      · rintro ⟨⟨htu, -⟩, hall, hes⟩
        exact ⟨htu, hall, hes⟩

variable {m : Meter S E T} {Valid : S → T → Prop} {Event : E → Prop}

/-- A run keeps its states valid. -/
theorem Lawful.run_valid (h : m.Lawful Valid Event) :
    ∀ (es : List (T × E)) {s : S} {t : T}, Valid s t → Timed t es →
      (∀ x ∈ es, Event x.2) → ∃ u, t ≤ u ∧ Valid (m.run s es) u := by
  intro es
  induction es with
  | nil => intro s t hs _ _; exact ⟨t, le_refl t, hs⟩
  | cons x es ih =>
      intro s t hs htimed hevents
      obtain ⟨u, hu, hvalid⟩ := ih (h.valid_step s t x.1 x.2 hs htimed.1
        (hevents x (by simp))) htimed.2 (fun y hy => hevents y (by simp [hy]))
      exact ⟨u, htimed.1.trans hu, hvalid⟩

/-- Past the end of a window nothing is drawn in it. -/
theorem drawnWithin_past {a b : T} : ∀ (es : List (T × E)) {s : S} {t : T}, b < t →
    Timed t es → m.drawnWithin a b s es = 0 := by
  intro es
  induction es with
  | nil => intro s t _ _; rfl
  | cons x es ih =>
      intro s t hbt htimed
      have hpast : b < x.1 := lt_of_lt_of_le hbt htimed.1
      unfold drawnWithin
      rw [if_neg (fun hc => absurd hc.2 (not_le.mpr hpast)), ih hpast htimed.2, add_zero]

/-- Inside a window: no more is drawn than the level there is, and what comes in until the
window ends. -/
theorem Lawful.drawnWithin_le_level (h : m.Lawful Valid Event) {a b : T} :
    ∀ (es : List (T × E)) {s : S} {t : T}, Valid s t → Timed t es → (∀ x ∈ es, Event x.2) →
      a ≤ t → t ≤ b →
      m.drawnWithin a b s es ≤ m.level s t + m.rate * (m.clock b - m.clock t) := by
  intro es
  induction es with
  | nil =>
      intro s t hs _ _ _ htb
      have hlevel := h.level_nonneg s t t hs (le_refl t)
      have hgain := mul_nonneg h.rate_nonneg (sub_nonneg.mpr (h.clock_mono t b htb))
      unfold drawnWithin
      linarith
  | cons x es ih =>
      intro s t hs htimed hevents hat htb
      obtain ⟨u, e⟩ := x
      obtain ⟨htu, hrest⟩ := htimed
      have he : Event e := hevents (u, e) (by simp)
      have hall : ∀ x ∈ es, Event x.2 := fun y hy => hevents y (by simp [hy])
      have hgrows := h.level_grows s t u hs htu
      unfold drawnWithin
      rcases le_or_gt u b with hub | hbu
      · have hdraw := h.level_step s t u e hs htu he
        have hlater := ih (h.valid_step s t u e hs htu he) hrest hall (hat.trans htu) hub
        rw [if_pos ⟨hat.trans htu, hub⟩]
        linarith
      · have hlevel := h.level_nonneg s t t hs (le_refl t)
        have hgain := mul_nonneg h.rate_nonneg (sub_nonneg.mpr (h.clock_mono t b htb))
        rw [if_neg (fun hc => absurd hc.2 (not_le.mpr hbu)), drawnWithin_past es hbu hrest]
        linarith

/--
**The window bound.**  In a window from `a` to `b` a run draws at most the capacity and
what comes in while the window lasts.
-/
theorem Lawful.drawnWithin_le (h : m.Lawful Valid Event) {a b : T} (hab : a ≤ b) :
    ∀ (es : List (T × E)) {s : S} {t : T}, Valid s t → Timed t es → (∀ x ∈ es, Event x.2) →
      m.drawnWithin a b s es ≤ m.capacity + m.rate * (m.clock b - m.clock a) := by
  intro es
  induction es with
  | nil =>
      intro s t hs _ _
      have hlevel := h.level_nonneg s t t hs (le_refl t)
      have hcap := h.level_le s t t hs (le_refl t)
      have hgain := mul_nonneg h.rate_nonneg (sub_nonneg.mpr (h.clock_mono a b hab))
      unfold drawnWithin
      linarith
  | cons x es ih =>
      intro s t hs htimed hevents
      obtain ⟨u, e⟩ := x
      obtain ⟨htu, hrest⟩ := htimed
      have he : Event e := hevents (u, e) (by simp)
      have hall : ∀ x ∈ es, Event x.2 := fun y hy => hevents y (by simp [hy])
      have hvalid := h.valid_step s t u e hs htu he
      unfold drawnWithin
      by_cases hin : a ≤ u ∧ u ≤ b
      · -- the first event of the window: from here on the level is what counts
        have hdraw := h.level_step s t u e hs htu he
        have hcap := h.level_le s t u hs htu
        have hlater := h.drawnWithin_le_level es hvalid hrest hall hin.1 hin.2
        have hclock := mul_le_mul_of_nonneg_left (h.clock_mono a u hin.1) h.rate_nonneg
        rw [if_pos hin]
        linarith
      · have hlater := ih hvalid hrest hall
        rw [if_neg hin]
        linarith

end Meter
