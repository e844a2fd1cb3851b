/-
The order of `Float32` away from NaN.

The comparison of floats is no linear order: a NaN compares with nothing, and the two zeros
are equal.  Every other comparison is one of ranks, which are a sign with infinity as its
extreme, then the exponent, then the mantissa.
-/
import Mathlib

namespace Ieee

open Float.Model (UnpackedFloat)

/-- Where an unpacked float stands. -/
def unpackedRank : UnpackedFloat → ℤ ×ₗ ℤ ×ₗ ℤ
  | .infinity .negative => toLex (-2, toLex (0, 0))
  | .finite .negative m e _ => toLex (-1, toLex (-e, -(m : ℤ)))
  | .finite .positive m e _ => toLex (1, toLex (e, (m : ℤ)))
  | .infinity .positive => toLex (2, toLex (0, 0))
  | _ => toLex (0, toLex (0, 0))

/-- An ordering says how two ranks compare. -/
structure Orders (o : Ordering) (r s : ℤ ×ₗ ℤ ×ₗ ℤ) : Prop where
  lt : o = .lt ↔ r < s
  gt : o = .gt ↔ s < r

/-- Between positive floats the exponents decide, and the mantissas between equal ones. -/
theorem orders_positive (m m' : Nat) (e e' : ℤ) :
    Orders ((compare e e').then (compare m m')) (toLex (1, toLex (e, (m : ℤ))))
      (toLex (1, toLex (e', (m' : ℤ)))) where
  lt := by
    simp [Prod.Lex.toLex_lt_toLex, Ordering.then_eq_lt, compare_lt_iff_lt]
  gt := by
    rw [Ordering.then_eq_gt, compare_gt_iff_gt, compare_gt_iff_gt, compare_eq_iff_eq]
    simp [Prod.Lex.toLex_lt_toLex, eq_comm]

/-- Between negative floats it is the other way round. -/
theorem orders_negative (m m' : Nat) (e e' : ℤ) :
    Orders ((compare e e').then (compare m m')).swap (toLex (-1, toLex (-e, -(m : ℤ))))
      (toLex (-1, toLex (-e', -(m' : ℤ)))) where
  lt := by
    rw [Ordering.swap_eq_lt, Ordering.then_eq_gt, compare_gt_iff_gt, compare_gt_iff_gt]
    simp [Prod.Lex.toLex_lt_toLex]
  gt := by
    rw [Ordering.swap_eq_gt, Ordering.then_eq_lt, compare_lt_iff_lt, compare_lt_iff_lt,
      compare_eq_iff_eq]
    simp [Prod.Lex.toLex_lt_toLex, eq_comm]

theorem orders_unpacked {a b : UnpackedFloat} (ha : a.isNaN = false) (hb : b.isNaN = false) :
    ∃ o, a.compare b = some o ∧ Orders o (unpackedRank a) (unpackedRank b) := by
  cases a with
  | notANumber => cases ha
  | infinity s =>
      cases b with
      | notANumber => cases hb
      | infinity t => cases s <;> cases t <;> exact ⟨_, rfl, by decide, by decide⟩
      | zero t => cases s <;> cases t <;> exact ⟨_, rfl, by decide, by decide⟩
      | finite t m e hm =>
          cases s <;> cases t <;> refine ⟨_, rfl, ?_, ?_⟩ <;>
            simp [unpackedRank, Prod.Lex.toLex_lt_toLex]
  | zero s =>
      cases b with
      | notANumber => cases hb
      | infinity t => cases s <;> cases t <;> exact ⟨_, rfl, by decide, by decide⟩
      | zero t => cases s <;> cases t <;> exact ⟨_, rfl, by decide, by decide⟩
      | finite t m e hm =>
          cases s <;> cases t <;> refine ⟨_, rfl, ?_, ?_⟩ <;>
            simp [unpackedRank, Prod.Lex.toLex_lt_toLex]
  | finite s m e hm =>
      cases b with
      | notANumber => cases hb
      | infinity t =>
          cases s <;> cases t <;> refine ⟨_, rfl, ?_, ?_⟩ <;>
            simp [unpackedRank, Prod.Lex.toLex_lt_toLex]
      | zero t =>
          cases s <;> cases t <;> refine ⟨_, rfl, ?_, ?_⟩ <;>
            simp [unpackedRank, Prod.Lex.toLex_lt_toLex]
      | finite t m' e' hm' =>
          cases s <;> cases t
          · exact ⟨_, rfl, orders_negative m m' e e'⟩
          · refine ⟨_, rfl, ?_, ?_⟩ <;> simp [unpackedRank, Prod.Lex.toLex_lt_toLex]
          · refine ⟨_, rfl, ?_, ?_⟩ <;> simp [unpackedRank, Prod.Lex.toLex_lt_toLex]
          · exact ⟨_, rfl, orders_positive m m' e e'⟩

/-- Where a float stands. -/
def rank (a : Float32) : ℤ ×ₗ ℤ ×ₗ ℤ := unpackedRank a.toModel.unpack

variable {a b : Float32}

theorem lt_iff_unpack : a < b ↔ a.toModel.unpack.lt b.toModel.unpack = true :=
  decide_eq_true_iff

theorem le_iff_unpack : a ≤ b ↔ a.toModel.unpack.le b.toModel.unpack = true :=
  decide_eq_true_iff

theorem orders_unpack (ha : a.isNaN = false) (hb : b.isNaN = false) :
    ∃ o, a.toModel.unpack.compare b.toModel.unpack = some o ∧ Orders o (rank a) (rank b) :=
  orders_unpacked ha hb

theorem lt_iff_rank (ha : a.isNaN = false) (hb : b.isNaN = false) : a < b ↔ rank a < rank b := by
  obtain ⟨o, ho, horders⟩ := orders_unpack ha hb
  rw [← horders.lt, lt_iff_unpack]
  simp [UnpackedFloat.lt, ho]

theorem le_iff_rank (ha : a.isNaN = false) (hb : b.isNaN = false) : a ≤ b ↔ rank a ≤ rank b := by
  obtain ⟨o, ho, horders⟩ := orders_unpack ha hb
  rw [← not_lt, ← horders.gt, le_iff_unpack]
  cases o <;> simp [UnpackedFloat.le, ho]

/-- What compares with something is no NaN. -/
theorem isNaN_of_le (h : a ≤ b) : a.isNaN = false ∧ b.isNaN = false := by
  have hle := le_iff_unpack.mp h
  show a.toModel.unpack.isNaN = false ∧ b.toModel.unpack.isNaN = false
  cases ha : a.toModel.unpack with
  | notANumber => simp [UnpackedFloat.le, ha, UnpackedFloat.compare] at hle
  | _ =>
      cases hb : b.toModel.unpack with
      | notANumber => simp [UnpackedFloat.le, ha, hb, UnpackedFloat.compare] at hle
      | _ => exact ⟨rfl, rfl⟩

end Ieee
