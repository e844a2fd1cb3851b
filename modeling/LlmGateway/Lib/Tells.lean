/-
What the beginning of a list tells.

`Tells t t' P` says: where `t` and `t'`, each with anything after it, are the same list, `P`
holds and the same comes after both.  It is what a reader of the beginning can conclude, and it
composes as lists do: a text that is written in parts tells what its parts tell.
-/
import Mathlib.Data.List.Basic

variable {α β : Type}

/-- Equal beginnings give `P`, and end at the same place. -/
def Tells (t t' : List α) (P : Prop) : Prop :=
  ∀ rest rest', t ++ rest = t' ++ rest' → P ∧ rest = rest'

namespace Tells

variable {s s' t t' : List α} {P Q : Prop}

/-- The same beginning tells what is known anyway. -/
theorem refl (t : List α) (h : P) : Tells t t P :=
  fun _ _ heq => ⟨h, List.append_cancel_left heq⟩

theorem mono (h : Tells t t' P) (hPQ : P → Q) : Tells t t' Q :=
  fun rest rest' heq => ⟨hPQ (h rest rest' heq).1, (h rest rest' heq).2⟩

/-- Two parts tell what each of them tells. -/
theorem append (h : Tells s s' P) (h' : Tells t t' Q) : Tells (s ++ t) (s' ++ t') (P ∧ Q) := by
  intro rest rest' heq
  rw [List.append_assoc, List.append_assoc] at heq
  obtain ⟨hP, hrest⟩ := h _ _ heq
  obtain ⟨hQ, hrest⟩ := h' _ _ hrest
  exact ⟨⟨hP, hQ⟩, hrest⟩

theorem cons (a : α) (h : Tells t t' P) : Tells (a :: t) (a :: t') P :=
  ((refl [a] trivial).append h).mono And.right

/-- A common part at the end tells nothing more. -/
theorem snoc (h : Tells t t' P) (u : List α) : Tells (t ++ u) (t' ++ u) P :=
  (h.append (refl u trivial)).mono And.left

/-- Two that differ at once are never beginnings of the same. -/
theorem of_ne {a a' : α} (h : a ≠ a') : Tells (a :: t) (a' :: t') P :=
  fun _ _ heq => absurd (List.cons.inj heq).1 h

theorem of_eq (h : Tells t t' P) (heq : t = t') : P :=
  (h [] [] (congrArg (· ++ []) heq)).1

/-- Lists of the same length tell their elements where each element does. -/
theorem flatMap {f : β → List α} {l l' : List β}
    (h : List.Forall₂ (fun b b' => Tells (f b) (f b') (b = b')) l l') :
    Tells (l.flatMap f) (l'.flatMap f) (l = l') := by
  induction h with
  | nil => exact refl [] rfl
  | cons hhead _ ih =>
      rw [List.flatMap_cons, List.flatMap_cons]
      refine (hhead.append ih).mono ?_
      rintro ⟨rfl, rfl⟩
      rfl

end Tells
